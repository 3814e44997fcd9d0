import Qubitum.Pallet.Roster
import Qubitum.Pallet.Book
import Qubitum.Pallet.Binding

/-!
# `Pallet.Invariant` — what a successful call can do, and what every run keeps

`Transition` says once what any successful call does: to the miners, to the validators (`SideStep`) and to
the request book (`BookStep`). All invariants are derived from it, never from the bodies of the calls:
`Transition.invariant` is the single preservation proof, and `Reachable.invariant` the induction over
runs.
-/

namespace Qubitum
open Scale Outcome Ledger Tally Dense

variable {A L : Type} {w : Nat} [Codec A] [DecidableEq A] {cfg : Config A L w}

/-! ## The two kinds of participants -/

omit [DecidableEq A] in
def Config.minerRule (cfg : Config A L w) : CapitalRule A w :=
  ⟨minerCapitalBearingStatus, cfg.minMinerBond, cfg.operatorCommitment⟩

omit [DecidableEq A] in
def Config.validatorRule (cfg : Config A L w) : CapitalRule A w :=
  ⟨validatorCapitalBearingStatus, cfg.minValidatorStake, cfg.operatorCommitment⟩

namespace Exec

section
omit [Codec A] [DecidableEq A]

def minerSide (cfg : Config A L w) (e : Exec A L w) : Side A w where
  count := e.state.registry.minerCount
  record id := (e.state.registry.miners id).map fun miner => (miner.operatorCommitment, miner.status)
  locked := e.state.registry.minerLockedBond
  held := cfg.currency.heldNat e.state.ledger .minerBond
  operators := e.history.minerOperators
  identity := e.state.registry.minerIdentity.get

def validatorSide (cfg : Config A L w) (e : Exec A L w) : Side A w where
  count := e.state.registry.validatorCount
  record id := (e.state.registry.validators id).map fun validator => (validator.operatorCommitment, validator.status)
  locked := e.state.registry.validatorLockedStake
  held := cfg.currency.heldNat e.state.ledger .validatorStake
  operators := e.history.validatorOperators
  identity := e.state.registry.validatorIdentity.get
end

variable {e : Exec A L w}

section
omit [Codec A] [DecidableEq A]

theorem minerSide_record {id : MinerId} {miner : ChainMiner} (h : e.state.registry.miners id = some miner) :
    (e.minerSide cfg).record id = some (miner.operatorCommitment, miner.status) := by
  simp [minerSide, h]

theorem validatorSide_record {id : ValidatorId} {validator : ChainValidator}
    (h : e.state.registry.validators id = some validator) :
    (e.validatorSide cfg).record id = some (validator.operatorCommitment, validator.status) := by
  simp [validatorSide, h]

/-- What accounts have escrowed. -/
def escrow (cfg : Config A L w) (e : Exec A L w) : A → Nat := cfg.currency.heldNat e.state.ledger .inferencePayment
end
end Exec

/-! ## Transitions -/

/-- Where the escrow of a closed request goes: a settlement splits it between the operators of the routed
    miner and validator and the treasury; any other closing returns it to the user. -/
def ClosingFlow (cfg : Config A L w) (e e' : Exec A L w) (o : Opening A w) (status : InferenceRequestStatus) :
    Prop :=
  if status = .settled then
    ∃ (minerOperator validatorOperator : A) (minerPayment validatorFee treasuryFee : Nat),
      (o.minerId, minerOperator) ∈ e.history.minerOperators ∧
      (o.validatorId, validatorOperator) ∈ e.history.validatorOperators ∧
      minerPayment + validatorFee + treasuryFee = o.params.payment.toNat ∧
      ∀ a, cfg.currency.freeNat e'.state.ledger a = cfg.currency.freeNat e.state.ledger a +
        (if a = minerOperator then minerPayment else 0) +
        (if a = validatorOperator then validatorFee else 0) +
        (if a = cfg.protocolTreasury then treasuryFee else 0)
  else
    ∀ a, cfg.currency.freeNat e'.state.ledger a = cfg.currency.freeNat e.state.ledger a +
      if a = o.user then o.params.payment.toNat else 0

/-- What a call does to the request book. -/
inductive BookStep (cfg : Config A L w) (e e' : Exec A L w) : Prop
  | same (requests : e'.state.requests = e.state.requests) (openings : e'.history.openings = e.history.openings)
      (escrow : ∀ u, e'.escrow cfg u = e.escrow cfg u)
  | opened (o : Opening A w) (openings : e'.history.openings = e.history.openings ++ [o])
      (next : o.requestId = e.state.requests.requestCount)
      (count : e'.state.requests.requestCount.toNat = e.state.requests.requestCount.toNat + 1)
      (stored : e'.state.requests.inferenceRequests =
        Function.update e.state.requests.inferenceRequests o.requestId (some (o.record cfg .pending)))
      (proofs : e'.state.requests.proofRecords = e.state.requests.proofRecords)
      (minerLoad : Bumped e.state.requests.pendingMinerRequests e'.state.requests.pendingMinerRequests o.minerId)
      (validatorLoad : Bumped e.state.requests.pendingValidatorRequests
        e'.state.requests.pendingValidatorRequests o.validatorId)
      (counts : Counted e.state.requests.statusCounts e'.state.requests.statusCounts .pending)
      (escrow : ∀ u, e'.escrow cfg u = e.escrow cfg u + if o.user = u then o.params.payment.toNat else 0)
      (miner : (e'.minerSide cfg).Pins o.minerId o.minerIdentity)
      (validator : (e'.validatorSide cfg).Pins o.validatorId o.validatorIdentity)
  | closed (o : Opening A w) (status : InferenceRequestStatus) (mid : RequestStatusCounts)
      (openings : e'.history.openings = e.history.openings) (opening : o ∈ e.history.openings)
      (pending : e.state.requests.statusOf o.requestId = some .pending) (left : status ≠ .pending)
      (count : e'.state.requests.requestCount = e.state.requests.requestCount)
      (stored : e'.state.requests.inferenceRequests =
        Function.update e.state.requests.inferenceRequests o.requestId (some (o.record cfg status)))
      (proofs : ∀ r, (e'.state.requests.proofRecords r).isSome ↔
        (e.state.requests.proofRecords r).isSome ∨ (r = o.requestId ∧ status = .settled))
      (minerLoad : Bumped e'.state.requests.pendingMinerRequests e.state.requests.pendingMinerRequests o.minerId)
      (validatorLoad : Bumped e'.state.requests.pendingValidatorRequests
        e.state.requests.pendingValidatorRequests o.validatorId)
      (out : Counted mid e.state.requests.statusCounts .pending)
      (into : Counted mid e'.state.requests.statusCounts status)
      (escrow : ∀ u, e'.escrow cfg u + (if o.user = u then o.params.payment.toNat else 0) = e.escrow cfg u)
      (flow : ClosingFlow cfg e e' o status)

/-- **What a successful call can do.** -/
structure Transition (cfg : Config A L w) (e e' : Exec A L w) : Prop where
  miners : SideStep cfg.minerRule e.state.requests.pendingMiner (e.minerSide cfg) (e'.minerSide cfg)
  validators : SideStep cfg.validatorRule e.state.requests.pendingValidator (e.validatorSide cfg) (e'.validatorSide cfg)
  book : BookStep cfg e e'

/-! ## The invariant -/

/-- Everything the run committed to was hashed within `U`. -/
structure Hashed (U : Set Bytes) (h : History A w) : Prop where
  miners : ∀ p ∈ h.minerOperators, operatorPreimage p.2 ∈ U
  validators : ∀ p ∈ h.validatorOperators, operatorPreimage p.2 ∈ U
  users : ∀ o ∈ h.openings, requestUserPreimage o.user ∈ U
  requests : ∀ o ∈ h.openings, ∀ p ∈ o.requestPreimages, p ∈ U

/-- The invariant of every run. -/
structure Invariant (cfg : Config A L w) (U : Set Bytes) (e : Exec A L w) : Prop where
  miners : (e.minerSide cfg).Sound cfg.minerRule
  validators : (e.validatorSide cfg).Sound cfg.validatorRule
  book : BookSound cfg e.state.requests (e.escrow cfg) e.history.openings
  minerPins : ∀ o ∈ e.history.openings, e.state.requests.statusOf o.requestId = some .pending →
    (e.minerSide cfg).Pins o.minerId o.minerIdentity
  validatorPins : ∀ o ∈ e.history.openings, e.state.requests.statusOf o.requestId = some .pending →
    (e.validatorSide cfg).Pins o.validatorId o.validatorIdentity
  hashed : Hashed U e.history

variable {U : Set Bytes} {e e' : Exec A L w}

namespace Invariant
variable {o : Opening A w}
variable (inv : Invariant cfg U e) (ho : o ∈ e.history.openings)
  (hp : e.state.requests.statusOf o.requestId = some .pending)
include inv ho hp

/-- A pending request loads the miner it was routed to. -/
theorem minerLoad_ne_zero : 0 < (e.state.requests.pendingMiner o.minerId).toNat := by
  have hle := inv.book.minerLoad.weight_le ho o.minerId
  have hone : e.state.requests.minerWeight o.minerId o = 1 := by simp [RequestBook.minerWeight, hp]
  omega

/-- A pending request loads the validator it was routed to. -/
theorem validatorLoad_ne_zero : 0 < (e.state.requests.pendingValidator o.validatorId).toNat := by
  have hle := inv.book.validatorLoad.weight_le ho o.validatorId
  have hone : e.state.requests.validatorWeight o.validatorId o = 1 := by
    simp [RequestBook.validatorWeight, hp]
  omega
end Invariant

omit [Codec A] in
/-- The pins of the requests that were already open survive a step of their participant. -/
theorem pins_of_step {rule : CapitalRule A w} {load : UInt64 → RequestId} {p p' : Side A w}
    (hsound : p.Sound rule) (hstep : SideStep rule load p p') {id : UInt64} {identity : Identity}
    (hload : 0 < (load id).toNat) (hpin : p.Pins id identity) : p'.Pins id identity := by
  refine hstep.pins hsound ?_ hpin
  intro hzero
  rw [hzero] at hload
  exact Nat.lt_irrefl 0 hload

/-- **Every transition keeps the invariant.** -/
theorem Transition.invariant (t : Transition cfg e e') (inv : Invariant cfg U e)
    (hashed : Hashed U e'.history) : Invariant cfg U e' := by
  have keepMiner : ∀ o ∈ e.history.openings, e.state.requests.statusOf o.requestId = some .pending →
      (e'.minerSide cfg).Pins o.minerId o.minerIdentity := fun o ho hp =>
    pins_of_step inv.miners t.miners (inv.minerLoad_ne_zero ho hp) (inv.minerPins o ho hp)
  have keepValidator : ∀ o ∈ e.history.openings, e.state.requests.statusOf o.requestId = some .pending →
      (e'.validatorSide cfg).Pins o.validatorId o.validatorIdentity := fun o ho hp =>
    pins_of_step inv.validators t.validators (inv.validatorLoad_ne_zero ho hp) (inv.validatorPins o ho hp)
  have miners := t.miners.sound inv.miners
  have validators := t.validators.sound inv.validators
  cases t.book with
  | same requests openings escrow =>
    refine ⟨miners, validators, ?_, ?_, ?_, hashed⟩
    · rw [requests, openings]
      exact { inv.book with escrow := inv.book.escrow.congr escrow fun _ _ _ => rfl }
    · rw [requests, openings]; exact keepMiner
    · rw [requests, openings]; exact keepValidator
  | opened o openings next count stored proofs minerLoad validatorLoad counts escrow miner validator =>
    have book := inv.book.opened next count stored proofs minerLoad validatorLoad counts escrow
    -- an older request has another identifier, so its status is what it was
    have old : ∀ y ∈ e.history.openings,
        e'.state.requests.statusOf y.requestId = e.state.requests.statusOf y.requestId := by
      intro y hy
      refine BookSound.statusOf_update_of_ne stored ?_
      intro heq
      have hmem : o.requestId ∈ e.history.openings.map Opening.requestId := heq ▸ List.mem_map_of_mem hy
      rw [inv.book.ids, next] at hmem
      exact not_mem_idsBelow _ hmem
    refine ⟨miners, validators, ?_, ?_, ?_, hashed⟩
    · rw [openings]; exact book
    · rw [openings]
      intro y hy hp
      rcases List.mem_append.mp hy with hy | hy
      · exact keepMiner y hy (old y hy ▸ hp)
      · obtain rfl := List.mem_singleton.mp hy
        exact miner
    · rw [openings]
      intro y hy hp
      rcases List.mem_append.mp hy with hy | hy
      · exact keepValidator y hy (old y hy ▸ hp)
      · obtain rfl := List.mem_singleton.mp hy
        exact validator
  | closed o status mid openings opening pending left count stored proofs minerLoad validatorLoad out into
      escrow flow =>
      have book := inv.book.closed opening pending left count stored proofs minerLoad validatorLoad out into escrow
      -- whatever is still pending is another request, and was pending before
      have old : ∀ {r}, e'.state.requests.statusOf r = some .pending →
          e.state.requests.statusOf r = some .pending := by
        intro r hr
        by_cases heq : r = o.requestId
        · rw [heq, BookSound.statusOf_update_self stored, Option.some.injEq] at hr
          exact absurd hr left
        · rwa [BookSound.statusOf_update_of_ne stored heq] at hr
      refine ⟨miners, validators, ?_, ?_, ?_, hashed⟩
      · rw [openings]; exact book
      · rw [openings]
        intro y hy hp
        exact keepMiner y hy (old hp)
      · rw [openings]
        intro y hy hp
        exact keepValidator y hy (old hp)
end Qubitum
