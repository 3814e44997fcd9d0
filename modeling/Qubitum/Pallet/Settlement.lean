import Qubitum.Pallet.Requests

/-!
# `Pallet.Settlement` — the state-changing steps shared by the dispatchables

Opening a request against the escrow, the validation of a proof submission, and the three ways money and
capital move afterwards: settlement of the escrowed payment into three transfers, its refund, and the
slashing of locked capital. A `try_mutate` closure works on a copy of the record it was given, so whatever
it reads of that map meanwhile is the stored version; the updated record is written back at its end.
-/

namespace Qubitum
open Scale Outcome Ledger Function

variable {A L : Type} {w : Nat} [Codec A] (cfg : Config A L w) (s : State L w)

omit [Codec A] in
/-- Burn from a free balance. -/
def burnFree (who : A) (amount : BitVec w) : Except DispatchError (State L w) := do
  let (_, ledger) ← token (cfg.currency.burnFrom s.ledger who amount)
  pure { s with ledger, totals := s.totals.recordBurned }

/-! ## Opening -/

omit [Codec A] in
def ensureInferenceRequestOpenable (requestId : RequestId)
    (params : AutoRouteInferenceRequestParams w) : Except DispatchError Unit := do
  ensureCommitment params.inputCommitment
  ensureCommitment params.assignmentBlinding
  ensureCommitment params.timingBlinding
  ensureCommitment params.termsBlinding
  ensure ((s.requests.inferenceRequests requestId).isNone) (.module .duplicateRequest)
  ensure (0 < params.payment) (.module .invalidPayment)
  validateFeeSplit params.validatorFeeBps params.treasuryFeeBps
  let subnet ← okOr (s.registry.subnets params.subnetId) (.module .unknownSubnet)
  ensure subnet.active (.module .notActive)

omit [Codec A] in
def ensureCommittedRequestPayloadPreflight (requestId : RequestId)
    (params : InferenceRequestCommitmentParams w) : Except DispatchError Unit := do
  ensureCommitment params.inputCommitment
  ensureCommitment params.assignmentCommitment
  ensureCommitment params.timingCommitment
  ensureCommitment params.termsCommitment
  ensure ((s.requests.inferenceRequests requestId).isNone) (.module .duplicateRequest)
  s.requests.ensureRequestIdMatchesNext requestId
  ensure (params.createdAt = s.currentBlock) (.module .requestMismatch)
  ensure (params.timingCommitment ≠ cfg.legacyRequestTimingCommitment requestId params.createdAt)
    (.module .missingCommitment)
  ensure (0 < params.payment) (.module .invalidPayment)
  validateFeeSplit params.validatorFeeBps params.treasuryFeeBps
  ensure (params.termsCommitment ≠ cfg.legacyRequestTermsCommitment requestId params.payment
      params.validatorFeeBps params.treasuryFeeBps)
    (.module .missingCommitment)
  let subnet ← okOr (s.registry.subnets params.subnetId) (.module .unknownSubnet)
  ensure subnet.active (.module .notActive)

/-- The record stored for a request opened at `createdAt`. -/
def openedRequest (user : A) (requestId : RequestId) (minerId : MinerId) (validatorId : ValidatorId)
    (params : AutoRouteInferenceRequestParams w) (createdAt : BlockNumber) : ChainInferenceRequest where
  requestId := requestId
  userCommitment := cfg.requestUserCommitment user
  subnetId := params.subnetId
  assignmentCommitment := cfg.requestAssignmentCommitment requestId params.subnetId minerId validatorId
    params.assignmentBlinding
  inputCommitment := params.inputCommitment
  termsCommitment := cfg.requestTermsCommitment requestId params.payment params.validatorFeeBps
    params.treasuryFeeBps params.termsBlinding
  timingCommitment := cfg.requestTimingCommitment requestId createdAt params.timingBlinding
  status := .pending

/-- `open_inference_request`, with `open_inference_request_with_commitments` inlined. -/
def openInferenceRequest (user : A) (requestId : RequestId) (minerId : MinerId)
    (validatorId : ValidatorId) (params : AutoRouteInferenceRequestParams w) : Except DispatchError (State L w) := do
  ensureRequestAssignment cfg s.registry params.subnetId minerId validatorId
  let book ← s.requests.ensureNextRequestId requestId
  let ledger ← token (cfg.currency.hold s.ledger .inferencePayment user params.payment)
  let book ← book.incrementPendingAssignment minerId validatorId
  let book ← book.incrementRequestStatusCount .pending
  let request := openedRequest cfg user requestId minerId validatorId params s.currentBlock
  let requests := { book with inferenceRequests := update book.inferenceRequests requestId (some request) }
  pure ({ s with requests, ledger, totals := s.totals.clearInference }.depositActivityEvents cfg [.inferenceRequested])

/-! ## Validating a proof submission -/

omit [Codec A] in
def ensureSubmissionFresh (submittedAt : BlockNumber) : Except DispatchError Unit := do
  let current := s.currentBlock
  ensure (submittedAt ≤ current) (.module .proofSubmittedFromFuture)
  ensure (Checked.saturatingSub64 current cfg.maxProofSubmissionAgeBlocks ≤ submittedAt)
    (.module .proofSubmissionExpired)

section
variable (submission : InferenceProofSubmission)

omit [Codec A] in
def validateSubmissionForRequest (assignmentBlinding : Commitment) :
    Except DispatchError (ProofVerificationPolicy × ChainMiner × ChainValidator) := do
  ensureCommitment submission.inputCommitment
  ensureCommitment submission.outputCommitment
  ensureCommitment submission.modelCommitment
  ensureProofEnvelope submission.proof submission.proofSystem
  ensure ((s.requests.proofRecords submission.requestId).isNone) (.module .duplicateProof)
  let request ← okOr (s.requests.inferenceRequests submission.requestId) (.module .unknownRequest)
  ensure (request.status = .pending) (.module .requestAlreadySettled)
  ensure (request.subnetId = submission.subnetId ∧ request.inputCommitment = submission.inputCommitment)
    (.module .requestMismatch)
  ensureRequestAssignmentWitness cfg request submission.minerId submission.validatorId assignmentBlinding
  let subnet ← okOr (s.registry.subnets submission.subnetId) (.module .unknownSubnet)
  ensure (subnet.proofSystem = submission.proofSystem) (.module .proofSystemMismatch)
  ensure (cfg.minProofSizeBytes ≤ submission.proofSizeBytes ∧
      submission.proofSizeBytes ≤ cfg.maxProofSizeBytes)
    (.module .invalidProofSize)
  ensure (submission.verificationLatencyMs ≤ cfg.maxVerificationLatencyMs) (.module .latencyExceeded)
  ensureSubmissionFresh cfg s submission.submittedAt
  ensureProofTranscriptWitness cfg submission
  let miner ← okOr (s.registry.miners submission.minerId) (.module .unknownMiner)
  ensure (miner.subnetId = submission.subnetId ∧ miner.status = .active) (.module .notActive)
  ensure (miner.modelCommitment = submission.modelCommitment) (.module .modelCommitmentMismatch)
  let validator ← okOr (s.registry.validators submission.validatorId) (.module .unknownValidator)
  ensure (validator.subnetId = submission.subnetId ∧ validator.status = .active) (.module .notActive)
  ensureDistinctOperators miner validator
  ensureParticipantSignatureBundles cfg s.registry submission.minerId submission.validatorId
  pure (⟨subnet.proofSystem, miner.modelCommitment, cfg.minProofSizeBytes, cfg.maxProofSizeBytes,
    cfg.maxVerificationLatencyMs⟩, miner, validator)

def validateSubmission (validatorOperator minerOperator : A) (assignmentBlinding : Commitment) :
    Except DispatchError ProofVerificationPolicy := do
  let (policy, miner, validator) ← validateSubmissionForRequest cfg s submission assignmentBlinding
  ensureMinerOperator cfg miner minerOperator
  ensureValidatorSubmissionOperator cfg validator validatorOperator
  pure policy

def validateChallengeSubmission (minerOperator : A)
    (assignmentBlinding : Commitment) : Except DispatchError ProofVerificationPolicy := do
  let (policy, miner, _) ← validateSubmissionForRequest cfg s submission assignmentBlinding
  ensureMinerOperator cfg miner minerOperator
  pure policy

omit [Codec A] in
def submissionAssignmentCommitment (assignmentBlinding : Commitment) : Except DispatchError Commitment := do
  let request ← okOr (s.requests.inferenceRequests submission.requestId) (.module .unknownRequest)
  resolveRequestAssignmentCommitment cfg request submission.minerId submission.validatorId assignmentBlinding
end

/-! ## Settling and refunding -/

/-- The bookkeeping of a request that leaves `Pending`. -/
def RequestBook.close (book : RequestBook) (requestId : RequestId) (request : ChainInferenceRequest)
    (minerId : MinerId) (validatorId : ValidatorId) (status : InferenceRequestStatus) :
    Except DispatchError RequestBook := do
  let book ← book.decrementPendingAssignment minerId validatorId
  let book ← book.transitionRequestStatus .pending status
  pure (book.setStatus requestId request status)

omit [Codec A] in
/-- A zero transfer is skipped. -/
def transferHeldPayment (ledger : L) (source dest : A) (amount : BitVec w) : Except DispatchError L :=
  if amount = 0 then .ok ledger
  else token (cfg.currency.transferOnHold ledger .inferencePayment source dest amount)

def settleRequestPayment (submission : InferenceProofSubmission)
    (requestUser minerOperator validatorOperator : A) (assignmentBlinding : Commitment)
    (termsWitness : InferenceRequestTermsWitness w) : Except DispatchError (State L w) := do
  let request ← okOr (s.requests.inferenceRequests submission.requestId) (.module .unknownRequest)
  ensure (request.status = .pending) (.module .requestAlreadySettled)
  ensure (request.subnetId = submission.subnetId ∧ request.inputCommitment = submission.inputCommitment)
    (.module .requestMismatch)
  ensureRequestAssignmentWitness cfg request submission.minerId submission.validatorId assignmentBlinding
  ensureRequestUser cfg request requestUser
  ensureRequestTermsWitness cfg request termsWitness
  let terms := termsWitness.terms
  let miner ← okOr (s.registry.miners submission.minerId) (.module .unknownMiner)
  let validator ← okOr (s.registry.validators submission.validatorId) (.module .unknownValidator)
  ensureMinerOperator cfg miner minerOperator
  ensureValidatorOperator cfg validator validatorOperator
  let (minerPayment, validatorFee, treasuryFee) ←
    paymentSplit terms.payment terms.validatorFeeBps terms.treasuryFeeBps
  let ledger ← transferHeldPayment cfg s.ledger requestUser minerOperator minerPayment
  let ledger ← transferHeldPayment cfg ledger requestUser validatorOperator validatorFee
  let ledger ← transferHeldPayment cfg ledger requestUser cfg.protocolTreasury treasuryFee
  let requests ← s.requests.close submission.requestId request submission.minerId submission.validatorId .settled
  pure { s with requests, ledger, totals := s.totals.clearInference }

def ensureRejectedRequestWitnesses (request : ChainInferenceRequest) (submission : InferenceProofSubmission)
    (requestUser : A) (assignmentBlinding : Commitment) (termsWitness : InferenceRequestTermsWitness w) :
    Except DispatchError Unit := do
  ensure (request.status = .pending) (.module .requestAlreadySettled)
  ensure (request.subnetId = submission.subnetId ∧ request.inputCommitment = submission.inputCommitment)
    (.module .requestMismatch)
  ensureRequestAssignmentWitness cfg request submission.minerId submission.validatorId assignmentBlinding
  ensureRequestUser cfg request requestUser
  ensureRequestTermsWitness cfg request termsWitness

def ensureRejectedRequestRefundable (submission : InferenceProofSubmission)
    (requestUser : A) (assignmentBlinding : Commitment) (termsWitness : InferenceRequestTermsWitness w) :
    Except DispatchError Unit := do
  let request ← okOr (s.requests.inferenceRequests submission.requestId) (.module .unknownRequest)
  ensureRejectedRequestWitnesses cfg request submission requestUser assignmentBlinding termsWitness

def refundRejectedRequest (submission : InferenceProofSubmission) (requestUser : A)
    (assignmentBlinding : Commitment) (termsWitness : InferenceRequestTermsWitness w) :
    Except DispatchError (State L w) := do
  let request ← okOr (s.requests.inferenceRequests submission.requestId) (.module .unknownRequest)
  ensureRejectedRequestWitnesses cfg request submission requestUser assignmentBlinding termsWitness
  let ledger ← token (cfg.currency.release s.ledger .inferencePayment requestUser termsWitness.terms.payment)
  let requests ← s.requests.close submission.requestId request submission.minerId submission.validatorId .rejected
  pure { s with requests, ledger, totals := s.totals.clearInference }

/-! ## Slashing -/

omit [Codec A] in
/-- Burn a share of locked capital: the ledger afterwards and what remains of the record. -/
def slashCapital (ledger : L) (reason : HoldReason) (operator : A) (current : BitVec w) (slashBps : UInt16) :
    Except DispatchError (L × BitVec w) := do
  let slashAmount ← proRata current slashBps
  let (burned, ledger) ← token (cfg.currency.burnHeld ledger reason operator slashAmount)
  let remaining ← okOr (Checked.sub current burned) (.module .arithmeticOverflow)
  pure (ledger, remaining)

/-- Capital below the floor slashes the participant, unless it is already exiting. -/
def slashedStatus (floor remaining : BitVec w) (status : RegistryStatus) : RegistryStatus :=
  match status with
  | .exiting exitAvailableAt => .exiting exitAvailableAt
  | status                   => if remaining < floor then .slashed else status

def slashMinerBond (minerId : MinerId) (operator : A) (slashBps : UInt16) : Except DispatchError (State L w) := do
  ensure (cfg.minInvalidProofSlashBps ≤ slashBps ∧ slashBps ≤ cfg.maxInvalidProofSlashBps)
    (.module .invalidSlashPercent)
  let miner ← okOr (s.registry.miners minerId) (.module .unknownMiner)
  ensureMinerOperator cfg miner operator
  let currentBond ← lockedMinerBond cfg s.registry s.ledger minerId operator
  let (ledger, remainingBond) ← slashCapital cfg s.ledger .minerBond operator currentBond slashBps
  let status := slashedStatus cfg.minMinerBond remainingBond miner.status
  let bondCommitment := cfg.minerBondCommitment minerId miner.operatorCommitment status
  let registry := { s.registry with
    miners := update s.registry.miners minerId (some { miner with status, bondCommitment })
    minerLockedBond := update s.registry.minerLockedBond minerId (some remainingBond) }
  pure { s with registry, ledger, totals := s.totals.recordBurned }

def slashValidatorStake (validatorId : ValidatorId) (operator : A) (slashBps : UInt16) :
    Except DispatchError (State L w) := do
  ensure (cfg.minInvalidProofSlashBps ≤ slashBps ∧ slashBps ≤ cfg.maxInvalidProofSlashBps)
    (.module .invalidSlashPercent)
  let validator ← okOr (s.registry.validators validatorId) (.module .unknownValidator)
  ensureValidatorOperator cfg validator operator
  let currentStake ← lockedValidatorStake cfg s.registry s.ledger validatorId operator
  let (ledger, remainingStake) ← slashCapital cfg s.ledger .validatorStake operator currentStake slashBps
  let status := slashedStatus cfg.minValidatorStake remainingStake validator.status
  let stakeCommitment := cfg.validatorStakeCommitment validatorId validator.operatorCommitment status
  let registry := { s.registry with
    validators := update s.registry.validators validatorId (some { validator with status, stakeCommitment })
    validatorLockedStake := update s.registry.validatorLockedStake validatorId (some remainingStake) }
  pure { s with registry, ledger, totals := s.totals.recordBurned }
end Qubitum
