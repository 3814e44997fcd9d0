import Qubitum.Pallet.Custody

/-!
# `Pallet.Lifecycle` — the state machine of inference requests

A request is opened once, waits while its miner and validator are **pinned** to it, and is closed once.
The first half is about waiting: the load counters count the requests that wait, and a loaded participant
neither leaves nor changes the identity it was routed under. The second half is about the whole course:
identifiers, counters and proof records mirror the requests, a closed request never moves again, and its
escrow leaves in the step that closes it and in no other.
-/

namespace Qubitum
open Scale Outcome Ledger Tally Dense

variable {A L : Type} {w : Nat} [FixedCodec A] [DecidableEq A] {cfg : Config A L w} {U : Set Bytes}
  {e e' : Exec A L w} {o : Opening A w}

/-! ## Waiting requests -/

section
omit [FixedCodec A] [DecidableEq A]

/-- The pending requests that were routed to a miner. -/
def Exec.assignedToMiner (e : Exec A L w) (minerId : MinerId) : List (Opening A w) :=
  e.history.openings.filter fun o =>
    o.minerId = minerId ∧ e.state.requests.statusOf o.requestId = some .pending

/-- The pending requests that were routed to a validator. -/
def Exec.assignedToValidator (e : Exec A L w) (validatorId : ValidatorId) : List (Opening A w) :=
  e.history.openings.filter fun o =>
    o.validatorId = validatorId ∧ e.state.requests.statusOf o.requestId = some .pending
end

namespace Invariant
variable (inv : Invariant cfg U e)
include inv

theorem minerLoad_eq (m : MinerId) :
    (e.state.requests.pendingMiner m).toNat = (e.assignedToMiner m).length := by
  rw [Exec.assignedToMiner, length_filter_eq_tally]
  refine (inv.book.minerLoad m).trans (tally_congr fun o _ => ?_)
  simp [RequestBook.minerWeight]

theorem validatorLoad_eq (v : ValidatorId) :
    (e.state.requests.pendingValidator v).toNat = (e.assignedToValidator v).length := by
  rw [Exec.assignedToValidator, length_filter_eq_tally]
  refine (inv.book.validatorLoad v).trans (tally_congr fun o _ => ?_)
  simp [RequestBook.validatorWeight]

/-- A miner with a waiting request is at work, under the identity the request was routed under. -/
theorem miner_pinned {m : MinerId} (ho : o ∈ e.assignedToMiner m) :
    (∃ miner, e.state.registry.miners m = some miner ∧ (miner.status = .active ∨ miner.status = .slashed)) ∧
      e.state.registry.minerIdentity.get m = o.minerIdentity := by
  rw [Exec.assignedToMiner, List.mem_filter, decide_eq_true_iff] at ho
  obtain ⟨hmem, rfl, hp⟩ := ho
  obtain ⟨⟨commitment, status, hrec, hworking⟩, hidentity⟩ := inv.minerPins o hmem hp
  obtain ⟨miner, hminer, heq⟩ := Option.map_eq_some_iff.mp hrec
  obtain ⟨rfl, rfl⟩ := Prod.mk.inj heq
  exact ⟨⟨miner, hminer, hworking⟩, hidentity⟩

/-- A validator with a waiting request is at work, under the identity the request was routed under. -/
theorem validator_pinned {v : ValidatorId} (ho : o ∈ e.assignedToValidator v) :
    (∃ validator, e.state.registry.validators v = some validator ∧
      (validator.status = .active ∨ validator.status = .slashed)) ∧
      e.state.registry.validatorIdentity.get v = o.validatorIdentity := by
  rw [Exec.assignedToValidator, List.mem_filter, decide_eq_true_iff] at ho
  obtain ⟨hmem, rfl, hp⟩ := ho
  obtain ⟨⟨commitment, status, hrec, hworking⟩, hidentity⟩ := inv.validatorPins o hmem hp
  obtain ⟨validator, hvalidator, heq⟩ := Option.map_eq_some_iff.mp hrec
  obtain ⟨rfl, rfl⟩ := Prod.mk.inj heq
  exact ⟨⟨validator, hvalidator, hworking⟩, hidentity⟩
end Invariant

/-- **Loads count the waiting requests, and a loaded participant is pinned.** In every reachable state the
    load of a participant is the number of pending requests routed to it; while there is one, the
    participant is active or slashed and has the identity it had when any of them — the oldest included —
    was opened; and no call ends in a counter underflow, unless the verifier itself answered with it. -/
theorem assignments_pinned (hx : cfg.currency.Exact) (hU : Set.InjOn cfg.blake2_256 U) (h : Reachable cfg U e) :
    (∀ m, (e.state.requests.pendingMiner m).toNat = (e.assignedToMiner m).length) ∧
    (∀ v, (e.state.requests.pendingValidator v).toNat = (e.assignedToValidator v).length) ∧
    (∀ m, 0 < (e.state.requests.pendingMiner m).toNat →
      (∃ miner, e.state.registry.miners m = some miner ∧ (miner.status = .active ∨ miner.status = .slashed)) ∧
      ∀ o ∈ e.assignedToMiner m, e.state.registry.minerIdentity.get m = o.minerIdentity) ∧
    (∀ v, 0 < (e.state.requests.pendingValidator v).toNat →
      (∃ validator, e.state.registry.validators v = some validator ∧
        (validator.status = .active ∨ validator.status = .slashed)) ∧
      ∀ o ∈ e.assignedToValidator v, e.state.registry.validatorIdentity.get v = o.validatorIdentity) ∧
    ∀ verify origin call err, (∀ p ∈ e.preimages cfg (.dispatch verify origin call), p ∈ U) →
      dispatch cfg verify e.state origin call = .error err → Underflow err →
      ∃ submission policy, verify submission policy = .error err := by
  have inv := h.invariant hx hU
  refine ⟨inv.minerLoad_eq, inv.validatorLoad_eq, ?_, ?_, ?_⟩
  · intro m hload
    rw [inv.minerLoad_eq] at hload
    obtain ⟨o, ho⟩ := List.exists_mem_of_length_pos hload
    exact ⟨(inv.miner_pinned ho).1, fun o' ho' => (inv.miner_pinned ho').2⟩
  · intro v hload
    rw [inv.validatorLoad_eq] at hload
    obtain ⟨o, ho⟩ := List.exists_mem_of_length_pos hload
    exact ⟨(inv.validator_pinned ho).1, fun o' ho' => (inv.validator_pinned ho').2⟩
  · intro verify origin call err hashed herr hunder
    rcases dispatch_raises hx hU inv (callHashed hashed) err herr with horderly | hverifier
    · exact absurd hunder horderly.not_underflow
    · exact hverifier

open Sample

theorem assignments_pinned_opened :
    0 < (opened.state.requests.pendingMiner 0).toNat ∧
      (opened.state.requests.pendingMiner 0).toNat = (opened.assignedToMiner 0).length ∧
      ∀ o ∈ opened.assignedToMiner 0, opened.state.registry.minerIdentity.get 0 = o.minerIdentity := by
  have hload : 0 < (opened.state.requests.pendingMiner 0).toNat := by decide +kernel
  have h := assignments_pinned Accounts.currency_exact hash_injOn opened_reachable
  exact ⟨hload, h.1 0, (h.2.2.1 0 hload).2⟩

/-! ## The course of a request -/

/-- Whatever a step is, it does one of three things to the book. -/
theorem Invariant.bookStep (hx : cfg.currency.Exact) (hU : Set.InjOn cfg.blake2_256 U)
    (inv : Invariant cfg U e) {action : Action A w} (hashed : ∀ p ∈ e.preimages cfg action, p ∈ U) :
    BookStep cfg e (e.step cfg action) := by
  cases action with
  | advance blocks => exact .same rfl rfl fun _ => rfl
  | dispatch verify origin call =>
    cases hdispatch : Qubitum.dispatch cfg verify e.state origin call with
    | error err =>
      rw [Exec.step_of_error hdispatch]
      exact .same rfl rfl fun _ => rfl
    | ok s' =>
      rw [Exec.step_of_ok hdispatch]
      exact (dispatch_transition hx hU inv (callHashed hashed) hdispatch).book

namespace BookStep
variable {r : RequestId}

section
variable (inv : Invariant cfg U e)
include inv

/-- A request that was opened before a step has another identifier than one opened by it. -/
theorem ne_of_next (next : o.requestId = e.state.requests.requestCount)
    (hr : (e.state.requests.inferenceRequests r).isSome) : r ≠ o.requestId := by
  intro heq
  have hlt := inv.book.known r hr
  rw [heq, next] at hlt
  exact UInt64.lt_irrefl _ hlt

/-- **A closed request never moves again**: its record is what it was. -/
theorem closed_stays (h : BookStep cfg e e') {status : InferenceRequestStatus}
    (hr : e.state.requests.statusOf r = some status) (hclosed : status ≠ .pending) :
    e'.state.requests.inferenceRequests r = e.state.requests.inferenceRequests r := by
  cases h with
  | same requests => rw [requests]
  | opened o openings next count stored =>
    have hsome : (e.state.requests.inferenceRequests r).isSome := by
      obtain ⟨request, hrec, _⟩ := Option.map_eq_some_iff.mp hr
      rw [hrec]
      rfl
    rw [stored, Function.update_of_ne (ne_of_next inv next hsome)]
  | closed o target mid openings opening pending left count stored =>
    have hne : r ≠ o.requestId := by
      rintro rfl
      rw [pending] at hr
      exact hclosed (Option.some.inj hr).symm
    rw [stored, Function.update_of_ne hne]

/-- **A pending request stays pending or is closed**, and in the latter case its payment leaves the escrow
    for where it belongs. -/
theorem pending_stays_or_closes (h : BookStep cfg e e')
    (ho : o ∈ e.history.openings) (hp : e.state.requests.statusOf o.requestId = some .pending) :
    e'.state.requests.statusOf o.requestId = some .pending ∨
      ∃ status, status ≠ .pending ∧ e'.state.requests.statusOf o.requestId = some status ∧
        (∀ u, e'.escrow cfg u + (if o.user = u then o.params.payment.toNat else 0) = e.escrow cfg u) ∧
        ClosingFlow cfg e e' o status := by
  cases h with
  | same requests =>
    rw [requests]
    exact .inl hp
  | opened o' openings next count stored =>
    obtain ⟨status, hrec⟩ := inv.book.recorded o ho
    rw [BookSound.statusOf_update_of_ne stored (ne_of_next inv next (by rw [hrec]; rfl))]
    exact .inl hp
  | closed o' status mid openings opening pending left count stored proofs minerLoad validatorLoad out into
      escrow flow =>
      by_cases heq : o.requestId = o'.requestId
      · obtain rfl := inv.book.opening_unique ho opening heq
        exact .inr ⟨status, left, BookSound.statusOf_update_self stored, escrow, flow⟩
      · rw [BookSound.statusOf_update_of_ne stored heq]
        exact .inl hp
end

/-- **Escrow leaves with a closing only.** -/
theorem escrow_le (h : BookStep cfg e e')
    (hkeeps : ∀ o ∈ e.history.openings, e.state.requests.statusOf o.requestId = some .pending →
      e'.state.requests.statusOf o.requestId = some .pending) (u : A) :
    e.escrow cfg u ≤ e'.escrow cfg u := by
  cases h with
  | same requests openings escrow => rw [escrow u]
  | opened o openings next count stored proofs minerLoad validatorLoad counts escrow =>
    rw [escrow u]
    exact Nat.le_add_right _ _
  | closed o status mid openings opening pending left count stored =>
    -- the request that was closed would have to be pending still
    have hstill := hkeeps o opening pending
    rw [BookSound.statusOf_update_self stored, Option.some.injEq] at hstill
    exact absurd hstill left
end BookStep

/-- A closed request stays closed along a run. -/
theorem Steps.closed_stays (hx : cfg.currency.Exact) (hU : Set.InjOn cfg.blake2_256 U)
    (h : Reachable cfg U e) (hs : Steps cfg U e e') {r : RequestId} {status : InferenceRequestStatus}
    (hr : e.state.requests.statusOf r = some status) (hclosed : status ≠ .pending) :
    e'.state.requests.inferenceRequests r = e.state.requests.inferenceRequests r := by
  induction hs with
  | refl => rfl
  | outside ledger held _ ih => exact ih
  | @step e1 action hashed hs ih =>
    have inv1 := (h.steps hs).invariant hx hU
    have hr1 : e1.state.requests.statusOf r = some status := by
      rw [RequestBook.statusOf, ih]
      exact hr
    rw [(inv1.bookStep hx hU hashed).closed_stays inv1 hr1 hclosed, ih]

/-- The stored requests with a status. -/
def RequestBook.requestsWith (book : RequestBook) (status : InferenceRequestStatus) :
    List (RequestId × ChainInferenceRequest) :=
  (recordsBelow book.requestCount book.inferenceRequests).filter fun p => p.2.status = status

/-- Counting stored requests by status is counting identifiers by the status stored for them. -/
theorem RequestBook.length_requestsWith (book : RequestBook) (status : InferenceRequestStatus) :
    (book.requestsWith status).length =
      tally (fun r => if book.statusOf r = some status then 1 else 0) (idsBelow book.requestCount) := by
  rw [requestsWith, recordsBelow]
  induction idsBelow book.requestCount with
  | nil => rfl
  | cons r ids ih =>
    rw [tally_cons, ← ih]
    cases hrec : book.inferenceRequests r with
    | none => simp [RequestBook.statusOf, hrec]
    | some request =>
      by_cases hstatus : request.status = status
      · simp [RequestBook.statusOf, hrec, hstatus, add_comm]
      · simp [RequestBook.statusOf, hrec, hstatus]

namespace BookSound
variable {book : RequestBook} {held : A → Nat} {openings : List (Opening A w)} (h : BookSound cfg book held openings)
include h

theorem stored_iff (r : RequestId) :
    (book.inferenceRequests r).isSome ↔ r < book.requestCount := by
  rw [h.isSome_iff, h.ids, mem_idsBelow]

theorem count_eq (status : InferenceRequestStatus) :
    (book.statusCounts.get status).toNat = (book.requestsWith status).length := by
  rw [book.length_requestsWith, ← h.ids]
  refine (h.statusCount status).trans ?_
  simp only [tally, List.map_map]
  rfl

/-- The five statuses partition the requests. -/
theorem count_sum :
    book.statusCounts.pending.toNat + book.statusCounts.settled.toNat + book.statusCounts.cancelled.toNat +
      book.statusCounts.rejected.toNat + book.statusCounts.expired.toNat = book.requestCount.toNat := by
  have hall : ∀ records : List (RequestId × ChainInferenceRequest),
      (records.filter fun p => p.2.status = .pending).length +
        (records.filter fun p => p.2.status = .settled).length +
        (records.filter fun p => p.2.status = .cancelled).length +
        (records.filter fun p => p.2.status = .rejected).length +
        (records.filter fun p => p.2.status = .expired).length = records.length := by
    intro records
    induction records with
    | nil => rfl
    | cons p records ih => cases hp : p.2.status <;> simp [hp] <;> omega
  have hlength := recordsBelow_length fun r hr => (h.stored_iff r).mpr hr
  have hsum := hall (recordsBelow book.requestCount book.inferenceRequests)
  have hcount := fun status => h.count_eq status
  simp only [RequestBook.requestsWith] at hcount
  rw [← hlength, ← hsum, ← hcount, ← hcount, ← hcount, ← hcount, ← hcount]
  rfl
end BookSound

/-- **The life of a request.** In every reachable state the identifiers are `0, …, RequestCount - 1`, the
    counters count the stored requests by status and add up to `RequestCount`, and a proof is on record
    exactly for the settled ones. However the run goes on, a request that is not pending keeps its record.
    In any step a pending request stays pending or is closed, its payment leaving the escrow of its user
    once: to the operators of the routed miner and validator and the treasury, in shares that add up to
    it, if it is settled, and back to its user otherwise. A step that closes no request takes nothing out
    of escrow. -/
theorem request_lifecycle (hx : cfg.currency.Exact) (hU : Set.InjOn cfg.blake2_256 U) (h : Reachable cfg U e) :
    (∀ r, (e.state.requests.inferenceRequests r).isSome ↔ r < e.state.requests.requestCount) ∧
    (∀ status, (e.state.requests.statusCounts.get status).toNat = (e.state.requests.requestsWith status).length) ∧
    (e.state.requests.statusCounts.pending.toNat + e.state.requests.statusCounts.settled.toNat +
      e.state.requests.statusCounts.cancelled.toNat + e.state.requests.statusCounts.rejected.toNat +
      e.state.requests.statusCounts.expired.toNat = e.state.requests.requestCount.toNat) ∧
    (∀ r, (e.state.requests.proofRecords r).isSome ↔ e.state.requests.statusOf r = some .settled) ∧
    (∀ e', Steps cfg U e e' → ∀ r status, e.state.requests.statusOf r = some status → status ≠ .pending →
      e'.state.requests.inferenceRequests r = e.state.requests.inferenceRequests r) ∧
    ∀ action, (∀ p ∈ e.preimages cfg action, p ∈ U) →
      (∀ o ∈ e.history.openings, e.state.requests.statusOf o.requestId = some .pending →
        (e.step cfg action).state.requests.statusOf o.requestId = some .pending ∨
        ∃ status, status ≠ .pending ∧
          (e.step cfg action).state.requests.statusOf o.requestId = some status ∧
          (∀ u, (e.step cfg action).escrow cfg u + (if o.user = u then o.params.payment.toNat else 0) =
            e.escrow cfg u) ∧
          ClosingFlow cfg e (e.step cfg action) o status) ∧
      ((∀ o ∈ e.history.openings, e.state.requests.statusOf o.requestId = some .pending →
          (e.step cfg action).state.requests.statusOf o.requestId = some .pending) →
        ∀ u, e.escrow cfg u ≤ (e.step cfg action).escrow cfg u) := by
  have inv := h.invariant hx hU
  refine ⟨inv.book.stored_iff, inv.book.count_eq, inv.book.count_sum, inv.book.proofs, ?_, ?_⟩
  · intro e' hs r status hr hclosed
    exact hs.closed_stays hx hU h hr hclosed
  · intro action hashed
    have hstep := inv.bookStep hx hU hashed
    exact ⟨fun o ho hp => hstep.pending_stays_or_closes inv ho hp, hstep.escrow_le⟩

theorem request_lifecycle_opened :
    opened.state.requests.requestCount = 1 ∧ opened.state.requests.statusCounts.pending = 1 ∧
      ∀ r, (opened.state.requests.inferenceRequests r).isSome ↔ r < opened.state.requests.requestCount :=
  ⟨by decide +kernel, by decide +kernel, (request_lifecycle Accounts.currency_exact hash_injOn opened_reachable).1⟩
end Qubitum
