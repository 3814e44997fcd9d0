import Qubitum.Pallet.Run
import Qubitum.Lib.Tally

/-!
# `Pallet.Book` — the request book against the openings of the run

`BookSound` ties the stored requests and every counter over them to the run's openings: requests are
exactly the openings, in order; each stored record is the opening's record up to its status; proof records
exist for settled requests only; and the escrow held for each user, the load of each participant and the
counter of each status are backed by the openings (`Tally.Backed`).

A book changes in two ways: a request is opened (`BookSound.opened`) or leaves `Pending`
(`BookSound.closed`). The counter updates enter through what they do to the numbers (`Bumped`,
`Counted`), whichever of the source's helpers performed them.
-/

namespace Qubitum
open Outcome Tally Dense Function RequestBook

variable {A L : Type} {w : Nat}

/-! ## Counter updates -/

/-- `counts'` counts one more at `id` than `counts`. -/
def Bumped (counts counts' : UInt64 → Option RequestId) (id : UInt64) : Prop :=
  ∀ i, ((counts' i).getD 0).toNat = ((counts i).getD 0).toNat + if i = id then 1 else 0

/-- `counts'` counts one more request with `status` than `counts`. -/
def Counted (counts counts' : RequestStatusCounts) (status : InferenceRequestStatus) : Prop :=
  ∀ st, (counts'.get st).toNat = (counts.get st).toNat + if st = status then 1 else 0

variable {id : UInt64} {status : InferenceRequestStatus} {book book' : RequestBook} {requestId : RequestId}
  {P : DispatchError → Prop}

section Pending
variable {counts counts' : UInt64 → Option RequestId}

theorem incrementPending_ok (h : incrementPending counts id = .ok counts') : Bumped counts counts' id := by
  obtain ⟨next, hnext, hok⟩ := okOr_ok h
  obtain rfl := pure_ok hok
  intro i
  by_cases hi : i = id
  · subst hi
    simp [Checked.add64_eq_some hnext]
  · simp [hi]

theorem decrementPending_ok (h : decrementPending counts id = .ok counts') : Bumped counts' counts id := by
  obtain ⟨count, hcount, h⟩ := okOr_ok h
  obtain ⟨next, hnext, hok⟩ := okOr_ok h
  obtain rfl := pure_ok hok
  have hsub := Checked.sub64_eq_some hnext
  intro i
  by_cases hi : i = id
  · subst hi
    rw [update_self, hcount, if_pos rfl]
    -- the entry is dropped when it reaches zero, which reads the same
    by_cases hz : next = 0
    · subst hz; simpa using hsub.symm
    · simpa [hz] using hsub.symm
  · simp [hi]

/-- A load that is not zero can be taken down. -/
theorem decrementPending_raises (h : 0 < ((counts id).getD 0).toNat) :
    Raises P (decrementPending counts id) := by
  cases hc : counts id with
  | none => rw [hc] at h; simp at h
  | some count =>
    rw [hc, Option.getD_some] at h
    refine raises_bind (by simp [hc]) ?_
    intro count' hcount'
    simp only [hc, okOr_eq_ok, Option.some.injEq] at hcount'
    subst hcount'
    refine raises_bind ?_ (fun _ _ => raises_pure)
    rw [raises_okOr, Checked.sub64_eq_none]
    intro hlt
    have : (1 : UInt64).toNat = 1 := rfl
    omega
end Pending

variable {counts counts' : RequestStatusCounts}

theorem tryMutate_ok {f : RequestId → Except DispatchError RequestId} (h : counts.tryMutate f status = .ok counts') :
    ∃ c, f (counts.get status) = .ok c ∧ ∀ st, counts'.get st = if st = status then c else counts.get st := by
  cases status <;>
    (obtain ⟨c, hc, hok⟩ := bind_ok h
     obtain rfl := pure_ok hok
     exact ⟨c, hc, fun st => by cases st <;> rfl⟩)

theorem incrementStatus_ok (h : counts.tryMutate incrementRequestCount status = .ok counts') :
    Counted counts counts' status := by
  intro st
  obtain ⟨c, hc, hget⟩ := tryMutate_ok h
  have hcount : c.toNat = (counts.get status).toNat + 1 := Checked.add64_eq_some (okOr_eq_ok.mp hc)
  rw [hget]
  split_ifs with hst
  · rw [hst, hcount]
  · rfl

theorem decrementStatus_ok (h : counts.tryMutate decrementRequestCount status = .ok counts') :
    Counted counts' counts status := by
  intro st
  obtain ⟨c, hc, hget⟩ := tryMutate_ok h
  have hcount : c.toNat + 1 = (counts.get status).toNat := Checked.sub64_eq_some (okOr_eq_ok.mp hc)
  rw [hget]
  split_ifs with hst
  · rw [hst, hcount]
  · rfl

theorem decrementStatus_raises (h : 0 < (counts.get status).toNat) :
    Raises P (counts.tryMutate decrementRequestCount status) := by
  have key : ∀ {c : RequestId}, 0 < c.toNat → Raises P (decrementRequestCount c) := by
    intro c hc
    unfold decrementRequestCount
    rw [raises_okOr, Checked.sub64_eq_none]
    intro hlt
    have : (1 : UInt64).toNat = 1 := rfl
    omega
  cases status <;> exact raises_bind (key h) fun _ _ => raises_pure

namespace RequestBook

theorem ensureNextRequestId_ok (h : book.ensureNextRequestId requestId = .ok book') :
    requestId = book.requestCount ∧
      ∃ next : RequestId, next.toNat = requestId.toNat + 1 ∧ book' = { book with requestCount := next } := by
  obtain ⟨next, hadvance, hok⟩ := bind_ok h
  obtain rfl := pure_ok hok
  obtain ⟨hnext, hadd⟩ := ensure_ok hadvance
  exact ⟨hnext, next, Checked.add64_eq_some (okOr_eq_ok.mp hadd), rfl⟩

variable {minerId : MinerId} {validatorId : ValidatorId}

theorem incrementPendingAssignment_ok (h : book.incrementPendingAssignment minerId validatorId = .ok book') :
    ∃ miners validators,
      Bumped book.pendingMinerRequests miners minerId ∧
      Bumped book.pendingValidatorRequests validators validatorId ∧
      book' = { book with pendingMinerRequests := miners, pendingValidatorRequests := validators } := by
  obtain ⟨miners, hm, h⟩ := bind_ok h
  obtain ⟨validators, hv, hok⟩ := bind_ok h
  exact ⟨miners, validators, incrementPending_ok hm, incrementPending_ok hv, (pure_ok hok).symm⟩

theorem decrementPendingAssignment_ok (h : book.decrementPendingAssignment minerId validatorId = .ok book') :
    ∃ miners validators,
      Bumped miners book.pendingMinerRequests minerId ∧
      Bumped validators book.pendingValidatorRequests validatorId ∧
      book' = { book with pendingMinerRequests := miners, pendingValidatorRequests := validators } := by
  obtain ⟨miners, hm, h⟩ := bind_ok h
  obtain ⟨validators, hv, hok⟩ := bind_ok h
  exact ⟨miners, validators, decrementPending_ok hm, decrementPending_ok hv, (pure_ok hok).symm⟩

theorem incrementRequestStatusCount_ok (h : book.incrementRequestStatusCount status = .ok book') :
    ∃ counts, Counted book.statusCounts counts status ∧ book' = { book with statusCounts := counts } := by
  obtain ⟨counts, hc, hok⟩ := bind_ok h
  exact ⟨counts, incrementStatus_ok hc, (pure_ok hok).symm⟩

theorem transitionRequestStatus_ok {source target : InferenceRequestStatus} (hne : source ≠ target)
    (h : book.transitionRequestStatus source target = .ok book') :
    ∃ mid counts, Counted mid book.statusCounts source ∧ Counted mid counts target ∧
      book' = { book with statusCounts := counts } := by
  unfold transitionRequestStatus at h
  rw [if_neg hne] at h
  obtain ⟨book1, hdec, hinc⟩ := bind_ok h
  obtain ⟨mid, hmid, hok⟩ := bind_ok hdec
  obtain rfl := pure_ok hok
  obtain ⟨counts, hcounts, rfl⟩ := incrementRequestStatusCount_ok hinc
  exact ⟨mid, counts, decrementStatus_ok hmid, hcounts, rfl⟩

/-- **What closing does to the book**, in numbers. -/
theorem close_ok {request : ChainInferenceRequest} (hne : status ≠ .pending)
    (h : book.close requestId request minerId validatorId status = .ok book') :
    ∃ miners validators mid counts,
      Bumped miners book.pendingMinerRequests minerId ∧
      Bumped validators book.pendingValidatorRequests validatorId ∧
      Counted mid book.statusCounts .pending ∧ Counted mid counts status ∧
      book' = { book with
        pendingMinerRequests := miners, pendingValidatorRequests := validators, statusCounts := counts
        inferenceRequests := update book.inferenceRequests requestId (some { request with status }) } := by
  obtain ⟨book1, hdec, h⟩ := bind_ok h
  obtain ⟨book2, htrans, hok⟩ := bind_ok h
  obtain ⟨miners, validators, hm, hv, rfl⟩ := decrementPendingAssignment_ok hdec
  obtain ⟨mid, counts, hout, hinto, rfl⟩ := transitionRequestStatus_ok hne.symm htrans
  exact ⟨miners, validators, mid, counts, hm, hv, hout, hinto, (pure_ok hok).symm⟩
end RequestBook

/-! ## The book and the openings -/

/-- The stored status of a request. -/
def RequestBook.statusOf (book : RequestBook) (requestId : RequestId) : Option InferenceRequestStatus :=
  (book.inferenceRequests requestId).map (·.status)

section Sound
variable [Scale.Codec A] [DecidableEq A] (cfg : Config A L w)

omit [DecidableEq A] in
/-- The record stored for an opening, at a later status. -/
def Opening.record (o : Opening A w) (status : InferenceRequestStatus) : ChainInferenceRequest :=
  { openedRequest cfg o.user o.requestId o.minerId o.validatorId o.params o.createdAt with status }

omit [Scale.Codec A] in
/-- What an opening contributes to the escrow of a user: its payment while it is pending. -/
def RequestBook.escrowWeight (book : RequestBook) (user : A) (o : Opening A w) : Nat :=
  if o.user = user ∧ book.statusOf o.requestId = some .pending then o.params.payment.toNat else 0

section
omit [Scale.Codec A] [DecidableEq A]

/-- What an opening contributes to the load of a miner: one while it is pending. -/
def RequestBook.minerWeight (book : RequestBook) (minerId : MinerId) (o : Opening A w) : Nat :=
  if o.minerId = minerId ∧ book.statusOf o.requestId = some .pending then 1 else 0

/-- What an opening contributes to the load of a validator: one while it is pending. -/
def RequestBook.validatorWeight (book : RequestBook) (validatorId : ValidatorId) (o : Opening A w) : Nat :=
  if o.validatorId = validatorId ∧ book.statusOf o.requestId = some .pending then 1 else 0

/-- What an opening contributes to the counter of a status. -/
def RequestBook.statusWeight (book : RequestBook) (status : InferenceRequestStatus) (o : Opening A w) : Nat :=
  if book.statusOf o.requestId = some status then 1 else 0
end

/-- The request invariant. `held` is the amount each account has on hold as inference payment. -/
structure BookSound (book : RequestBook) (held : A → Nat) (openings : List (Opening A w)) : Prop where
  ids : openings.map Opening.requestId = idsBelow book.requestCount
  recorded : ∀ o ∈ openings, ∃ status, book.inferenceRequests o.requestId = some (o.record cfg status)
  known : ∀ r, (book.inferenceRequests r).isSome → r < book.requestCount
  proofs : ∀ r, (book.proofRecords r).isSome ↔ book.statusOf r = some .settled
  escrow : Backed held book.escrowWeight openings
  minerLoad : Backed (fun m => (book.pendingMiner m).toNat) (book.minerWeight (A := A) (w := w)) openings
  validatorLoad : Backed (fun v => (book.pendingValidator v).toNat) (book.validatorWeight (A := A) (w := w)) openings
  statusCount : Backed (fun st => (book.statusCounts.get st).toNat) (book.statusWeight (A := A) (w := w)) openings

variable {cfg} {held held' : A → Nat} {openings : List (Opening A w)} {o : Opening A w}

namespace BookSound

/-- No request has been opened yet. -/
theorem empty (hheld : ∀ u, held u = 0) : BookSound cfg .empty held ([] : List (Opening A w)) where
  ids := by rw [RequestBook.empty, idsBelow_zero]; rfl
  recorded o ho := absurd ho List.not_mem_nil
  known r hsome := by simp [RequestBook.empty] at hsome
  proofs r := by simp [RequestBook.empty, statusOf]
  escrow := .nil hheld
  minerLoad := .nil fun _ => rfl
  validatorLoad := .nil fun _ => rfl
  statusCount := .nil fun status => by cases status <;> rfl

variable (h : BookSound cfg book held openings)

section
include h

theorem nodup : (openings.map Opening.requestId).Nodup := by
  rw [h.ids]
  exact idsBelow_nodup book.requestCount

variable {r : RequestId} {request : ChainInferenceRequest}

/-- Every stored request was opened in the run. -/
theorem opening_of_record (hr : book.inferenceRequests r = some request) :
    ∃ o ∈ openings, o.requestId = r ∧ request = o.record cfg request.status := by
  have hmem : r ∈ openings.map Opening.requestId := by
    rw [h.ids, mem_idsBelow]
    exact h.known r (by rw [hr]; rfl)
  obtain ⟨o, ho, rfl⟩ := List.mem_map.mp hmem
  obtain ⟨status, hrec⟩ := h.recorded o ho
  rw [hr, Option.some.injEq] at hrec
  refine ⟨o, ho, rfl, ?_⟩
  rw [hrec]
  rfl

theorem opening_unique {o o' : Opening A w} (ho : o ∈ openings)
    (ho' : o' ∈ openings) (heq : o.requestId = o'.requestId) : o = o' :=
  List.inj_on_of_nodup_map h.nodup ho ho' heq
end

/-! ## The two ways a book changes -/

section
omit [Scale.Codec A] [DecidableEq A]

section
variable (hreq : book'.inferenceRequests = update book.inferenceRequests r (some request))
include hreq

theorem statusOf_update_self :
    book'.statusOf r = some request.status := by
  simp [statusOf, hreq]

theorem statusOf_update_of_ne {r' : RequestId}
    (hne : r' ≠ r) :
    book'.statusOf r' = book.statusOf r' := by
  simp [statusOf, hreq, update_of_ne hne]
end
end

include h in
/-- **Opening a request** appends it: one more pending request for its user, miner and validator. -/
theorem opened (hid : o.requestId = book.requestCount)
    (hcount : book'.requestCount.toNat = book.requestCount.toNat + 1)
    (hreq : book'.inferenceRequests = update book.inferenceRequests o.requestId (some (o.record cfg .pending)))
    (hproof : book'.proofRecords = book.proofRecords)
    (hminer : Bumped book.pendingMinerRequests book'.pendingMinerRequests o.minerId)
    (hvalidator : Bumped book.pendingValidatorRequests book'.pendingValidatorRequests o.validatorId)
    (hstatus : Counted book.statusCounts book'.statusCounts .pending)
    (hheld : ∀ u, held' u = held u + if o.user = u then o.params.payment.toNat else 0) :
    BookSound cfg book' held' (openings ++ [o]) := by
  have hnew : book.inferenceRequests o.requestId = none := by
    by_contra hsome
    have hlt := h.known o.requestId (Option.isSome_iff_ne_none.mpr hsome)
    rw [hid] at hlt
    exact UInt64.lt_irrefl _ hlt
  have hfresh : ∀ y ∈ openings, y.requestId ≠ o.requestId := by
    intro y hy heq
    obtain ⟨status, hrec⟩ := h.recorded y hy
    rw [heq, hnew] at hrec
    cases hrec
  have hself : book'.statusOf o.requestId = some .pending := statusOf_update_self hreq
  have hother : ∀ y ∈ openings, book'.statusOf y.requestId = book.statusOf y.requestId :=
    fun y hy => statusOf_update_of_ne hreq (hfresh y hy)
  refine ⟨?_, ?_, ?_, ?_, ?_, ?_, ?_, ?_⟩
  · rw [List.map_append, h.ids, idsBelow_next hcount, List.map_singleton, hid]
  · intro y hy
    rw [List.mem_append, List.mem_singleton] at hy
    rcases hy with hy | rfl
    · rw [hreq, update_of_ne (hfresh y hy)]
      exact h.recorded y hy
    · exact ⟨.pending, by rw [hreq, update_self]⟩
  · intro r hr
    rw [UInt64.lt_iff_toNat_lt, hcount]
    by_cases heq : r = o.requestId
    · rw [heq, hid]; omega
    · rw [hreq, update_of_ne heq] at hr
      have := UInt64.lt_iff_toNat_lt.mp (h.known r hr)
      omega
  · intro r
    rw [hproof, h.proofs r]
    by_cases heq : r = o.requestId
    · rw [heq, hself]
      simp [statusOf, hnew]
    · rw [statusOf_update_of_ne hreq heq]
  · refine h.escrow.append ?_ ?_
    · intro u y hy
      simp only [escrowWeight, hother y hy]
    · intro u
      rw [hheld u]
      simp [escrowWeight, hself]
  · refine h.minerLoad.append ?_ ?_
    · intro m y hy
      simp only [minerWeight, hother y hy]
    · intro m
      have := hminer m
      simpa [minerWeight, pendingMiner, hself, eq_comm] using this
  · refine h.validatorLoad.append ?_ ?_
    · intro v y hy
      simp only [validatorWeight, hother y hy]
    · intro v
      have := hvalidator v
      simpa [validatorWeight, pendingValidator, hself, eq_comm] using this
  · refine h.statusCount.append ?_ ?_
    · intro st y hy
      simp only [statusWeight, hother y hy]
    · intro st
      have := hstatus st
      simpa [statusWeight, hself, eq_comm] using this

include h in
/-- **Closing a request** takes it out of the escrow and the loads and moves it to another counter. A proof
    record appears with the status `Settled`, and with no other. -/
theorem closed (ho : o ∈ openings)
    (hpending : book.statusOf o.requestId = some .pending) (hne : status ≠ .pending)
    (hcount : book'.requestCount = book.requestCount)
    (hreq : book'.inferenceRequests = update book.inferenceRequests o.requestId (some (o.record cfg status)))
    (hproof : ∀ r, (book'.proofRecords r).isSome ↔ (book.proofRecords r).isSome ∨ (r = o.requestId ∧ status = .settled))
    (hminer : Bumped book'.pendingMinerRequests book.pendingMinerRequests o.minerId)
    (hvalidator : Bumped book'.pendingValidatorRequests book.pendingValidatorRequests o.validatorId)
    (hleft : Counted counts book.statusCounts .pending)
    (hentered : Counted counts book'.statusCounts status)
    (hheld : ∀ u, held' u + (if o.user = u then o.params.payment.toNat else 0) = held u) :
    BookSound cfg book' held' openings := by
  have hself : book'.statusOf o.requestId = some status := statusOf_update_self hreq
  have hother : ∀ {r}, r ≠ o.requestId → book'.statusOf r = book.statusOf r := fun hr => statusOf_update_of_ne hreq hr
  refine ⟨?_, ?_, ?_, ?_, ?_, ?_, ?_, ?_⟩
  · rw [hcount]; exact h.ids
  · intro y hy
    by_cases heq : y.requestId = o.requestId
    · obtain rfl := h.opening_unique hy ho heq
      exact ⟨status, by rw [hreq, update_self]⟩
    · rw [hreq, update_of_ne heq]
      exact h.recorded y hy
  · intro r hr
    rw [hcount]
    by_cases heq : r = o.requestId
    · obtain ⟨st, hrec⟩ := h.recorded o ho
      exact heq ▸ h.known o.requestId (by rw [hrec]; rfl)
    · rw [hreq, update_of_ne heq] at hr
      exact h.known r hr
  · intro r
    rw [hproof r, h.proofs r]
    by_cases heq : r = o.requestId
    · simp [heq, hself, hpending]
    · simp [heq, hother heq]
  · refine h.escrow.change h.nodup ho ?_ ?_
    · intro u y _ hy
      simp only [escrowWeight, hother hy]
    · intro u
      have := hheld u
      simpa [escrowWeight, hself, hpending, hne] using this
  · refine h.minerLoad.change h.nodup ho ?_ ?_
    · intro m y _ hy
      simp only [minerWeight, hother hy]
    · intro m
      have := hminer m
      simpa [minerWeight, pendingMiner, hself, hpending, hne, eq_comm] using this
  · refine h.validatorLoad.change h.nodup ho ?_ ?_
    · intro v y _ hy
      simp only [validatorWeight, hother hy]
    · intro v
      have := hvalidator v
      simpa [validatorWeight, pendingValidator, hself, hpending, hne, eq_comm] using this
  · refine h.statusCount.change h.nodup ho ?_ ?_
    · intro st y _ hy
      simp only [statusWeight, hother hy]
    · intro st
      have h1 := hleft st
      have h2 := hentered st
      simp only [statusWeight, hself, hpending, Option.some.injEq, eq_comm (b := st)]
      omega
end BookSound
end Sound
end Qubitum
