import Qubitum.Pallet.Registry

/-!
# `Pallet.Requests` — opening, witnessing and closing inference requests

A stored request keeps only commitments: who opened it, whom it was routed to, when and on which terms.
Closing one therefore starts from **witnesses** supplied by the caller, which must open the stored
commitments (a non-zero blinding for the blinded form, the zero blinding for the legacy form). Money
moves only after every witness has been checked, and by the amounts the witnesses state.
-/

namespace Qubitum
open Scale Outcome Ledger

variable {A L : Type} {w : Nat}

/-- A refusal of the currency is passed on as it is. -/
def token {α : Type} (x : Except TokenError α) : Except DispatchError α := x.mapError .token

/-- `BlockNumber` of the pallet: the system's block number, saturated to `u64`. -/
def State.currentBlock (s : State L w) : BlockNumber := Checked.saturatedInto64 s.blockNumber

/-- Deposit events, or a single redacted one. -/
def State.depositActivityEvents (cfg : Config A L w) (s : State L w) (events : List Event) : State L w :=
  { s with events := s.events ++ if cfg.privateEventMetadata then [.privateActivity] else events }

/-! ## Amounts -/

def proRata (amount : BitVec w) (bps : UInt16) : Except DispatchError (BitVec w) :=
  okOr ((Checked.mul amount (Checked.saturatedInto w bps.toNat)).bind
      (Checked.div · (Checked.saturatedInto w bpsDenominator.toNat)))
    (.module .arithmeticOverflow)

def validateFeeSplit (validatorFeeBps treasuryFeeBps : UInt16) : Except DispatchError Unit := do
  let combined ← okOr (Checked.add16 validatorFeeBps treasuryFeeBps) (.module .arithmeticOverflow)
  ensure (combined ≤ bpsDenominator) (.module .invalidFeeSplit)

theorem validateFeeSplit_eq_ok {validatorFeeBps treasuryFeeBps : UInt16} :
    validateFeeSplit validatorFeeBps treasuryFeeBps = .ok () ↔
      validatorFeeBps.toNat + treasuryFeeBps.toNat ≤ bpsDenominator.toNat := by
  rw [validateFeeSplit, okOr_bind_eq_ok]
  simp only [ensure_eq_ok, UInt16.le_iff_toNat_le]
  constructor
  · rintro ⟨combined, hadd, hle⟩
    rwa [Checked.add16_eq_some hadd] at hle
  · intro hle
    have hfits : validatorFeeBps.toNat + treasuryFeeBps.toNat < 2 ^ 16 := lt_of_le_of_lt hle bpsDenominator.toNat_lt
    have hadd : Checked.add16 validatorFeeBps treasuryFeeBps = some (validatorFeeBps + treasuryFeeBps) := if_pos hfits
    exact ⟨_, hadd, (Checked.add16_eq_some hadd).symm ▸ hle⟩

/-- Miner payment, validator fee and treasury fee. -/
def paymentSplit (payment : BitVec w) (validatorFeeBps treasuryFeeBps : UInt16) :
    Except DispatchError (BitVec w × BitVec w × BitVec w) := do
  validateFeeSplit validatorFeeBps treasuryFeeBps
  let validatorFee ← proRata payment validatorFeeBps
  let treasuryFee ← proRata payment treasuryFeeBps
  let assigned ← okOr (Checked.add validatorFee treasuryFee) (.module .arithmeticOverflow)
  let minerPayment ← okOr (Checked.sub payment assigned) (.module .arithmeticOverflow)
  pure (minerPayment, validatorFee, treasuryFee)

/-! ## Counters -/

namespace RequestBook

def ensureRequestIdMatchesNext (book : RequestBook) (requestId : RequestId) : Except DispatchError Unit :=
  ensure (requestId = book.requestCount) (.module .invalidRequestId)

def ensureRequestIdCanAdvance (book : RequestBook) (requestId : RequestId) : Except DispatchError RequestId := do
  book.ensureRequestIdMatchesNext requestId
  okOr (Checked.add64 requestId 1) (.module .arithmeticOverflow)

def ensureNextRequestId (book : RequestBook) (requestId : RequestId) : Except DispatchError RequestBook := do
  let next ← book.ensureRequestIdCanAdvance requestId
  pure { book with requestCount := next }
end RequestBook

/-- `try_mutate` of a `ValueQuery` counter map: absent counts as zero. -/
def incrementPending (counts : UInt64 → Option RequestId) (id : UInt64) :
    Except DispatchError (UInt64 → Option RequestId) := do
  let next ← okOr (Checked.add64 ((counts id).getD 0) 1) (.module .arithmeticOverflow)
  pure (Function.update counts id (some next))

/-- `try_mutate_exists`: the entry is removed when it reaches zero. -/
def decrementPending (counts : UInt64 → Option RequestId) (id : UInt64) :
    Except DispatchError (UInt64 → Option RequestId) := do
  let count ← okOr (counts id) (.module .pendingAssignmentUnderflow)
  let next ← okOr (Checked.sub64 count 1) (.module .pendingAssignmentUnderflow)
  pure (Function.update counts id (if next = 0 then none else some next))

def incrementRequestCount (count : RequestId) : Except DispatchError RequestId :=
  okOr (Checked.add64 count 1) (.module .arithmeticOverflow)

def decrementRequestCount (count : RequestId) : Except DispatchError RequestId :=
  okOr (Checked.sub64 count 1) (.module .requestStatusCounterUnderflow)

namespace RequestStatusCounts

/-- `try_mutate` of the counter that belongs to a status. -/
def tryMutate (counts : RequestStatusCounts) (f : RequestId → Except DispatchError RequestId) :
    InferenceRequestStatus → Except DispatchError RequestStatusCounts
  | .pending   => do pure { counts with pending := ← f counts.pending }
  | .settled   => do pure { counts with settled := ← f counts.settled }
  | .cancelled => do pure { counts with cancelled := ← f counts.cancelled }
  | .rejected  => do pure { counts with rejected := ← f counts.rejected }
  | .expired   => do pure { counts with expired := ← f counts.expired }
end RequestStatusCounts

namespace RequestBook
variable (book : RequestBook)

/-- `PendingMinerRequests::get` -/
def pendingMiner (minerId : MinerId) : RequestId := (book.pendingMinerRequests minerId).getD 0

/-- `PendingValidatorRequests::get` -/
def pendingValidator (validatorId : ValidatorId) : RequestId := (book.pendingValidatorRequests validatorId).getD 0

def incrementPendingAssignment (minerId : MinerId) (validatorId : ValidatorId) : Except DispatchError RequestBook := do
  let miners ← incrementPending book.pendingMinerRequests minerId
  let validators ← incrementPending book.pendingValidatorRequests validatorId
  pure { book with pendingMinerRequests := miners, pendingValidatorRequests := validators }

def decrementPendingAssignment (minerId : MinerId) (validatorId : ValidatorId) : Except DispatchError RequestBook := do
  let miners ← decrementPending book.pendingMinerRequests minerId
  let validators ← decrementPending book.pendingValidatorRequests validatorId
  pure { book with pendingMinerRequests := miners, pendingValidatorRequests := validators }

def incrementRequestStatusCount (status : InferenceRequestStatus) : Except DispatchError RequestBook := do
  pure { book with statusCounts := ← book.statusCounts.tryMutate incrementRequestCount status }

def decrementRequestStatusCount (status : InferenceRequestStatus) : Except DispatchError RequestBook := do
  pure { book with statusCounts := ← book.statusCounts.tryMutate decrementRequestCount status }

def transitionRequestStatus (source target : InferenceRequestStatus) : Except DispatchError RequestBook :=
  if source = target then .ok book
  else do
    let book ← book.decrementRequestStatusCount source
    book.incrementRequestStatusCount target

/-- Write back a request whose status changed. -/
def setStatus (requestId : RequestId) (request : ChainInferenceRequest)
    (status : InferenceRequestStatus) : RequestBook :=
  { book with
    inferenceRequests := Function.update book.inferenceRequests requestId (some { request with status }) }
end RequestBook

/-! ## Accounting totals -/

/-- `record_burned`: the total is redacted, so it is cleared. -/
def Totals.recordBurned (totals : Totals w) : Totals w := { totals with burned := 0 }

/-- `clear_inference_accounting_totals`, all that the escrow, settlement and refund records do. -/
def Totals.clearInference (totals : Totals w) : Totals w :=
  { totals with
    inferenceEscrowed := 0, minerPayouts := 0, validatorFees := 0, treasuryFees := 0,
    inferenceRefunded := 0 }

/-! ## Witnesses -/

section Witnesses
variable (cfg : Config A L w)

/-- A stored commitment is opened by the blinded form, or by the legacy form under the zero blinding; the
    zero blinding never opens a blinded commitment. -/
def ensureOpens (stored blinded legacy blinding : Commitment) (mismatch : Error) : Except DispatchError Unit := do
  ensure (stored = blinded ∨ (blinding = zeroCommitment ∧ stored = legacy)) (.module mismatch)
  ensure (blinding ≠ zeroCommitment ∨ stored = legacy) (.module .missingCommitment)

section
variable (request : ChainInferenceRequest)

def resolveRequestAssignmentCommitment (minerId : MinerId)
    (validatorId : ValidatorId) (assignmentBlinding : Commitment) : Except DispatchError Commitment := do
  ensureOpens request.assignmentCommitment
    (cfg.requestAssignmentCommitment request.requestId request.subnetId minerId validatorId assignmentBlinding)
    (cfg.legacyRequestAssignmentCommitment request.requestId request.subnetId minerId validatorId)
    assignmentBlinding .assignmentMismatch
  pure request.assignmentCommitment

def ensureRequestAssignmentWitness (minerId : MinerId)
    (validatorId : ValidatorId) (assignmentBlinding : Commitment) : Except DispatchError Unit := do
  let _ ← resolveRequestAssignmentCommitment cfg request minerId validatorId assignmentBlinding
  pure ()

def ensureRequestTimingWitness (timingWitness : InferenceRequestTimingWitness) : Except DispatchError Unit :=
  ensureOpens request.timingCommitment
    (cfg.requestTimingCommitment request.requestId timingWitness.createdAt timingWitness.blinding)
    (cfg.legacyRequestTimingCommitment request.requestId timingWitness.createdAt)
    timingWitness.blinding .requestMismatch

def ensureRequestTermsWitness (termsWitness : InferenceRequestTermsWitness w) : Except DispatchError Unit := do
  let terms := termsWitness.terms
  ensure (0 < terms.payment) (.module .invalidPayment)
  validateFeeSplit terms.validatorFeeBps terms.treasuryFeeBps
  ensureOpens request.termsCommitment
    (cfg.requestTermsCommitment request.requestId terms.payment terms.validatorFeeBps terms.treasuryFeeBps
      termsWitness.blinding)
    (cfg.legacyRequestTermsCommitment request.requestId terms.payment terms.validatorFeeBps terms.treasuryFeeBps)
    termsWitness.blinding .requestMismatch
end

def ensureRequestUser [Codec A] (request : ChainInferenceRequest) (user : A) : Except DispatchError Unit :=
  ensure (cfg.requestUserCommitmentMatches request.userCommitment user) (.module .notRequestOwner)

def ensureProofTranscriptWitness (submission : InferenceProofSubmission) : Except DispatchError Unit :=
  ensure (submission.proof.journalCommitment = cfg.proofTranscriptCommitment submission)
    (.module .proofTranscriptMismatch)
end Witnesses
end Qubitum
