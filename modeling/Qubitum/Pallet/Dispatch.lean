import Qubitum.Pallet.Settlement

/-!
# `Pallet.Dispatch` — the dispatchables

Each dispatchable of the pallet as a function from the state to the state after a success, or to the
error that is reported. Every one of them is transactional (or writes nothing before its last check), so
an error leaves no trace.

The proof verifier is an argument of each application, so that it may answer anything at any time.
-/

namespace Qubitum
open Scale Outcome Ledger Function

variable {A L : Type} {w : Nat} [Codec A] (cfg : Config A L w) (s : State L w) (origin : Origin A)

/-- The proof verifier a runtime is configured with. -/
abbrev ProofVerifier := InferenceProofSubmission → ProofVerificationPolicy → Except DispatchError VerificationOutcome

/-! ## Origins -/

omit [Codec A] in
def ensurePayloadSigner (origin : Origin A) : Except DispatchError A :=
  if cfg.shieldedCallPayloads then okOr (cfg.shieldedOrigin origin) (.module .publicCallPayloadDisallowed)
  else
    match origin with
    | .signed who => .ok who
    | _           => .error .badOrigin

omit [Codec A] in
def ensurePublicCallPayloadAllowed : Except DispatchError Unit :=
  ensure (¬ cfg.shieldedCallPayloads) (.module .publicCallPayloadDisallowed)

def ensureRoot : Origin A → Except DispatchError Unit
  | .root => .ok ()
  | _     => .error .badOrigin

/-! ## Registering subnets and participants -/

def nextSubnetId (reg : Registry w) : Except DispatchError (SubnetId × Registry w) := do
  let next ← okOr (Checked.add16 reg.subnetCount 1) (.module .arithmeticOverflow)
  pure (reg.subnetCount, { reg with subnetCount := next })

def nextMinerId (reg : Registry w) : Except DispatchError (MinerId × Registry w) := do
  let next ← okOr (Checked.add64 reg.minerCount 1) (.module .arithmeticOverflow)
  pure (reg.minerCount, { reg with minerCount := next })

def nextValidatorId (reg : Registry w) : Except DispatchError (ValidatorId × Registry w) := do
  let next ← okOr (Checked.add64 reg.validatorCount 1) (.module .arithmeticOverflow)
  pure (reg.validatorCount, { reg with validatorCount := next })

def createSubnet (domain : SubnetDomain) (proofSystem : ProofSystem) : Except DispatchError (State L w) := do
  let owner ← ensurePayloadSigner cfg origin
  ensureSupportedProofSystem proofSystem
  let s ← burnFree cfg s owner cfg.subnetCreationBurn
  let (subnetId, registry) ← nextSubnetId s.registry
  let subnet : ChainSubnet :=
    { id := subnetId, ownerCommitment := cfg.subnetOwnerCommitment owner, domain, proofSystem,
      policyCommitment := cfg.subnetPolicyCommitment subnetId domain proofSystem, active := true }
  let registry := { registry with subnets := update registry.subnets subnetId (some subnet) }
  pure ({ s with registry }.depositActivityEvents cfg [.subnetCreated])

def registerMiner (subnetId : SubnetId) (modelCommitment : Commitment)
    (proofSystem : ProofSystem) : Except DispatchError (State L w) := do
  let operator ← ensurePayloadSigner cfg origin
  ensureCommitment modelCommitment
  ensureSupportedProofSystem proofSystem
  let subnet ← okOr (s.registry.subnets subnetId) (.module .unknownSubnet)
  ensure (subnet.proofSystem = proofSystem) (.module .proofSystemMismatch)
  let s ← burnFree cfg s operator cfg.minerRegistrationBurn
  let (minerId, registry) ← nextMinerId s.registry
  let operatorCommitment := cfg.operatorCommitment operator
  let miner : ChainMiner :=
    { id := minerId, operatorCommitment, subnetId, modelCommitment, proofSystem,
      bondCommitment := cfg.minerBondCommitment minerId operatorCommitment .pending, status := .pending }
  let registry := { registry with miners := update registry.miners minerId (some miner) }
  pure ({ s with registry }.depositActivityEvents cfg [.minerRegistered])

def activateMiner (minerId : MinerId) (bond : BitVec w) : Except DispatchError (State L w) := do
  let operator ← ensurePayloadSigner cfg origin
  let miner ← okOr (s.registry.miners minerId) (.module .unknownMiner)
  ensureMinerOperator cfg miner operator
  ensure (miner.status = .pending) (.module .invalidMinerStatus)
  ensure ((s.registry.subnets miner.subnetId).isSome) (.module .unknownSubnet)
  ensure (cfg.minMinerBond ≤ bond ∧ bond ≤ cfg.maxMinerBond) (.module .invalidBond)
  ensureMinerSignatureBundleBound cfg s.registry minerId miner
  let ledger ← token (cfg.currency.hold s.ledger .minerBond operator bond)
  insertActiveMiner cfg s.registry miner.subnetId minerId
  let miner := { miner with
    status := .active, bondCommitment := cfg.minerBondCommitment minerId miner.operatorCommitment .active }
  let registry := { s.registry with
    miners := update s.registry.miners minerId (some miner)
    minerLockedBond := update s.registry.minerLockedBond minerId (some bond) }
  pure ({ s with registry, ledger }.depositActivityEvents cfg [.minerActivated])

def registerValidator (subnetId : SubnetId) (stake : BitVec w) : Except DispatchError (State L w) := do
  let operator ← ensurePayloadSigner cfg origin
  ensure ((s.registry.subnets subnetId).isSome) (.module .unknownSubnet)
  ensure (cfg.minValidatorStake ≤ stake) (.module .invalidStake)
  let (validatorId, registry) ← nextValidatorId s.registry
  ensureActiveValidatorCapacity cfg registry subnetId none
  let ledger ← token (cfg.currency.hold s.ledger .validatorStake operator stake)
  let operatorCommitment := cfg.operatorCommitment operator
  let validator : ChainValidator :=
    { id := validatorId, operatorCommitment, subnetId,
      stakeCommitment := cfg.validatorStakeCommitment validatorId operatorCommitment .pending
      status := .pending }
  let registry := { registry with
    validators := update registry.validators validatorId (some validator)
    validatorLockedStake := update registry.validatorLockedStake validatorId (some stake) }
  pure ({ s with registry, ledger }.depositActivityEvents cfg [.validatorRegistered])

/-! ## Proofs -/

def submitProof (verify : ProofVerifier) (s : State L w) (origin : Origin A)
    (submission : InferenceProofSubmission) (requestUser minerOperator : A)
    (assignmentBlinding : Commitment) (termsWitness : InferenceRequestTermsWitness w) :
    Except DispatchError (State L w) := do
  let validatorOperator ← ensurePayloadSigner cfg origin
  let policy ← validateSubmission cfg s submission validatorOperator minerOperator assignmentBlinding
  match ← verify submission policy with
  | .error => .error (.module .verifierError)
  | .invalid slashBps =>
      ensureRejectedRequestRefundable cfg s submission requestUser assignmentBlinding termsWitness
      let s ← slashMinerBond cfg s submission.minerId minerOperator slashBps
      let s ← slashValidatorStake cfg s submission.validatorId validatorOperator slashBps
      let s ← refundRejectedRequest cfg s submission requestUser assignmentBlinding termsWitness
      pure (s.depositActivityEvents cfg [.minerSlashed, .validatorSlashed, .proofRejected, .inferenceRefunded])
  | .valid =>
      let assignmentCommitment ← submissionAssignmentCommitment cfg s submission assignmentBlinding
      let auditCommitment := cfg.proofAuditCommitmentForAssignment submission s.currentBlock assignmentCommitment
      let s ← settleRequestPayment cfg s submission requestUser minerOperator validatorOperator
        assignmentBlinding termsWitness
      let record : ChainProofRecord :=
        { requestId := submission.requestId, subnetId := submission.subnetId, assignmentCommitment,
          auditCommitment, proofSystem := submission.proofSystem }
      let requests := { s.requests with
        proofRecords := update s.requests.proofRecords submission.requestId (some record) }
      pure ({ s with requests }.depositActivityEvents cfg [.proofAccepted, .inferenceSettled])

def challengeProof (verify : ProofVerifier) (s : State L w) (origin : Origin A)
    (submission : InferenceProofSubmission) (requestUser minerOperator : A)
    (assignmentBlinding : Commitment) (termsWitness : InferenceRequestTermsWitness w) :
    Except DispatchError (State L w) := do
  let _challenger ← ensurePayloadSigner cfg origin
  let policy ← validateChallengeSubmission cfg s submission minerOperator assignmentBlinding
  match ← verify submission policy with
  | .invalid slashBps =>
      ensureRejectedRequestRefundable cfg s submission requestUser assignmentBlinding termsWitness
      let s ← slashMinerBond cfg s submission.minerId minerOperator slashBps
      let s ← refundRejectedRequest cfg s submission requestUser assignmentBlinding termsWitness
      pure (s.depositActivityEvents cfg [.minerSlashed, .proofRejected, .proofChallengeAccepted, .inferenceRefunded])
  | .valid => .error (.module .challengeProofValid)
  | .error => .error (.module .verifierError)

def slashMiner (minerId : MinerId) (operator : A) (slashBps : UInt16) : Except DispatchError (State L w) := do
  ensurePublicCallPayloadAllowed cfg
  ensureRoot origin
  ensure (cfg.minInvalidProofSlashBps ≤ slashBps ∧ slashBps ≤ cfg.maxInvalidProofSlashBps)
    (.module .invalidSlashPercent)
  ensure (s.requests.pendingMiner minerId = 0) (.module .pendingAssignedRequests)
  let s ← slashMinerBond cfg s minerId operator slashBps
  pure (s.depositActivityEvents cfg [.minerSlashed])

def slashValidator (validatorId : ValidatorId) (operator : A)
    (slashBps : UInt16) : Except DispatchError (State L w) := do
  ensurePublicCallPayloadAllowed cfg
  ensureRoot origin
  ensure (cfg.minInvalidProofSlashBps ≤ slashBps ∧ slashBps ≤ cfg.maxInvalidProofSlashBps)
    (.module .invalidSlashPercent)
  ensure (s.requests.pendingValidator validatorId = 0) (.module .pendingAssignedRequests)
  let s ← slashValidatorStake cfg s validatorId operator slashBps
  pure (s.depositActivityEvents cfg [.validatorSlashed])

/-! ## Requests -/

def requestInferenceAutoRoute (requestId : RequestId)
    (params : AutoRouteInferenceRequestParams w) : Except DispatchError (State L w) := do
  let user ← ensurePayloadSigner cfg origin
  ensureInferenceRequestOpenable s requestId params
  let _ ← s.requests.ensureRequestIdCanAdvance requestId
  let assignment ← okOr (routeAssignment cfg s.registry params.subnetId requestId params.assignmentBlinding)
    (.module .noRouteAvailable)
  openInferenceRequest cfg s user requestId assignment.minerId assignment.validatorId params

/-- The routed part of the parameters of `request_inference`. -/
def InferenceRequestParams.toAutoRoute (params : InferenceRequestParams w) : AutoRouteInferenceRequestParams w := { params with }

/-- Assignment ids in the calldata are refused; the route is the chain's. -/
def requestInference (requestId : RequestId)
    (params : InferenceRequestParams w) : Except DispatchError (State L w) := do
  let user ← ensurePayloadSigner cfg origin
  ensure (params.minerId = 0 ∧ params.validatorId = 0) (.module .routeAssignmentMustBeHidden)
  ensureInferenceRequestOpenable s requestId params.toAutoRoute
  let _ ← s.requests.ensureRequestIdCanAdvance requestId
  let assignment ← okOr (routeAssignment cfg s.registry params.subnetId requestId params.assignmentBlinding)
    (.module .noRouteAvailable)
  openInferenceRequest cfg s user requestId assignment.minerId assignment.validatorId params.toAutoRoute

omit [Codec A] in
def requestInferenceCommitments (requestId : RequestId)
    (params : InferenceRequestCommitmentParams w) : Except DispatchError (State L w) := do
  let _user ← ensurePayloadSigner cfg origin
  ensureCommittedRequestPayloadPreflight cfg s requestId params
  .error (.module .unsupportedCommittedRequestPayload)

/-- The common body of `cancel_inference` and `expire_inference`: release the escrow of a pending request
    older than the cancellation delay back to its user. -/
def releaseStaleRequest (s : State L w) (requestId : RequestId) (user : A) (minerId : MinerId)
    (validatorId : ValidatorId) (assignmentBlinding : Commitment)
    (timingWitness : InferenceRequestTimingWitness) (termsWitness : InferenceRequestTermsWitness w)
    (status : InferenceRequestStatus) : Except DispatchError (State L w) := do
  let request ← okOr (s.requests.inferenceRequests requestId) (.module .unknownRequest)
  ensureRequestUser cfg request user
  ensureRequestAssignmentWitness cfg request minerId validatorId assignmentBlinding
  ensureRequestTimingWitness cfg request timingWitness
  ensureRequestTermsWitness cfg request termsWitness
  ensure (request.status = .pending) (.module .requestAlreadySettled)
  let cancelAvailableAt ← okOr (Checked.add64 timingWitness.createdAt cfg.requestCancelDelayBlocks)
    (.module .arithmeticOverflow)
  ensure (cancelAvailableAt ≤ s.currentBlock) (.module .requestCancelUnavailable)
  let ledger ← token (cfg.currency.release s.ledger .inferencePayment user termsWitness.terms.payment)
  let requests ← s.requests.close requestId request minerId validatorId status
  pure { s with requests, ledger, totals := s.totals.clearInference }

def cancelInference (requestId : RequestId) (minerId : MinerId)
    (validatorId : ValidatorId) (assignmentBlinding : Commitment)
    (timingWitness : InferenceRequestTimingWitness) (termsWitness : InferenceRequestTermsWitness w) :
    Except DispatchError (State L w) := do
  let user ← ensurePayloadSigner cfg origin
  let s ← releaseStaleRequest cfg s requestId user minerId validatorId assignmentBlinding timingWitness
    termsWitness .cancelled
  pure (s.depositActivityEvents cfg [.inferenceCancelled])

def expireInference (requestId : RequestId) (requestUser : A)
    (minerId : MinerId) (validatorId : ValidatorId) (assignmentBlinding : Commitment)
    (timingWitness : InferenceRequestTimingWitness) (termsWitness : InferenceRequestTermsWitness w) :
    Except DispatchError (State L w) := do
  let _keeper ← ensurePayloadSigner cfg origin
  let s ← releaseStaleRequest cfg s requestId requestUser minerId validatorId assignmentBlinding
    timingWitness termsWitness .expired
  pure (s.depositActivityEvents cfg [.inferenceExpired])

/-! ## Exits and withdrawals -/

def deactivateMiner (minerId : MinerId) : Except DispatchError (State L w) := do
  let operator ← ensurePayloadSigner cfg origin
  let exitAvailableAt ← okOr (Checked.add64 s.currentBlock cfg.minerExitCooldownBlocks) (.module .arithmeticOverflow)
  let miner ← okOr (s.registry.miners minerId) (.module .unknownMiner)
  ensureMinerOperator cfg miner operator
  ensure (miner.status = .active ∨ miner.status = .slashed) (.module .invalidMinerStatus)
  ensure (s.requests.pendingMiner minerId = 0) (.module .pendingAssignedRequests)
  let status := .exiting exitAvailableAt
  let bondCommitment := cfg.minerBondCommitment minerId miner.operatorCommitment status
  let registry := { s.registry with
    miners := update s.registry.miners minerId (some { miner with status, bondCommitment }) }
  pure ({ s with registry }.depositActivityEvents cfg [.minerExitStarted])

omit [Codec A] in
/-- Release what is left of a record; an empty record has nothing to release. -/
def releaseCapital (ledger : L) (reason : HoldReason) (operator : A) (capital : BitVec w) : Except DispatchError L :=
  if capital = 0 then .ok ledger else token (cfg.currency.release ledger reason operator capital)

def withdrawMinerBond (minerId : MinerId) : Except DispatchError (State L w) := do
  let operator ← ensurePayloadSigner cfg origin
  let miner ← okOr (s.registry.miners minerId) (.module .unknownMiner)
  ensureMinerOperator cfg miner operator
  match miner.status with
  | .exiting exitAvailableAt =>
      ensure (exitAvailableAt ≤ s.currentBlock) (.module .minerExitUnavailable)
      let bond ← lockedMinerBond cfg s.registry s.ledger minerId operator
      let ledger ← releaseCapital cfg s.ledger .minerBond operator bond
      let bondCommitment := cfg.minerBondCommitment minerId miner.operatorCommitment .disabled
      let registry := { s.registry with
        miners := update s.registry.miners minerId (some { miner with status := .disabled, bondCommitment })
        minerLockedBond := update s.registry.minerLockedBond minerId none }
      pure ({ s with registry, ledger }.depositActivityEvents cfg [.minerBondWithdrawn])
  | _ => .error (.module .invalidMinerStatus)

/-- A validator may also leave from `Pending`, where its stake is already locked. -/
def deactivateValidator (validatorId : ValidatorId) : Except DispatchError (State L w) := do
  let operator ← ensurePayloadSigner cfg origin
  let exitAvailableAt ← okOr (Checked.add64 s.currentBlock cfg.validatorExitCooldownBlocks)
    (.module .arithmeticOverflow)
  let validator ← okOr (s.registry.validators validatorId) (.module .unknownValidator)
  ensureValidatorOperator cfg validator operator
  ensure (validator.status = .pending ∨ validator.status = .active ∨ validator.status = .slashed)
    (.module .invalidValidatorStatus)
  ensure (s.requests.pendingValidator validatorId = 0) (.module .pendingAssignedRequests)
  let status := .exiting exitAvailableAt
  let stakeCommitment := cfg.validatorStakeCommitment validatorId validator.operatorCommitment status
  let registry := { s.registry with
    validators := update s.registry.validators validatorId (some { validator with status, stakeCommitment }) }
  pure ({ s with registry }.depositActivityEvents cfg [.validatorExitStarted])

def withdrawValidatorStake (validatorId : ValidatorId) : Except DispatchError (State L w) := do
  let operator ← ensurePayloadSigner cfg origin
  let validator ← okOr (s.registry.validators validatorId) (.module .unknownValidator)
  ensureValidatorOperator cfg validator operator
  match validator.status with
  | .exiting exitAvailableAt =>
      ensure (exitAvailableAt ≤ s.currentBlock) (.module .validatorExitUnavailable)
      let stake ← lockedValidatorStake cfg s.registry s.ledger validatorId operator
      let ledger ← releaseCapital cfg s.ledger .validatorStake operator stake
      let stakeCommitment := cfg.validatorStakeCommitment validatorId validator.operatorCommitment .disabled
      let registry := { s.registry with
        validators := update s.registry.validators validatorId
          (some { validator with status := .disabled, stakeCommitment })
        validatorLockedStake := update s.registry.validatorLockedStake validatorId none }
      pure ({ s with registry, ledger }.depositActivityEvents cfg [.validatorStakeWithdrawn])
  | _ => .error (.module .invalidValidatorStatus)

/-! ## Identities -/

omit [Codec A] in
/-- Clearing an identity that exists needs a bundle bound to the empty challenge. -/
def ensureIdentityClearable (identity : Identity) (emptyChallenge operatorCommitment : Commitment)
    (signatureBundle : SignatureBundle) : Except DispatchError Unit :=
  if identity.commitments.isSome || identity.signatureBundle.isSome || identity.signatureChallenge.isSome then
    ensureIdentitySignatureBundleBound cfg signatureBundle emptyChallenge operatorCommitment none none
  else .ok ()

def setMinerIdentityCommitments (minerId : MinerId)
    (shieldedIdentityCommitment endpointCommitment : Option Commitment) (signatureBundle : SignatureBundle) :
    Except DispatchError (State L w) := do
  let operator ← ensurePayloadSigner cfg origin
  let miner ← okOr (s.registry.miners minerId) (.module .unknownMiner)
  ensureMinerOperator cfg miner operator
  ensureOptionalCommitment shieldedIdentityCommitment
  ensureOptionalCommitment endpointCommitment
  ensure (s.requests.pendingMiner minerId = 0) (.module .pendingAssignedRequests)
  if shieldedIdentityCommitment.isSome || endpointCommitment.isSome then
    let challenge := cfg.minerIdentitySignatureChallenge minerId miner.operatorCommitment
      shieldedIdentityCommitment endpointCommitment
    ensureIdentitySignatureBundleBound cfg signatureBundle challenge miner.operatorCommitment
      shieldedIdentityCommitment endpointCommitment
    let registry := { s.registry with
      minerIdentity := s.registry.minerIdentity.set minerId
        ⟨some ⟨shieldedIdentityCommitment, endpointCommitment⟩, some signatureBundle, some challenge⟩ }
    if miner.status = .active then
      ensureMinerLockedBondRecord cfg registry minerId
      insertActiveMiner cfg registry miner.subnetId minerId
    pure ({ s with registry }.depositActivityEvents cfg [.minerIdentityCommitmentsUpdated])
  else
    ensureIdentityClearable cfg (s.registry.minerIdentity.get minerId)
      (cfg.minerIdentitySignatureChallenge minerId miner.operatorCommitment none none)
      miner.operatorCommitment signatureBundle
    let registry := { s.registry with
      minerIdentity := s.registry.minerIdentity.set minerId ⟨none, none, none⟩ }
    pure ({ s with registry }.depositActivityEvents cfg [.minerIdentityCommitmentsUpdated])

/-- Unlike for a miner, the identity carries the validator between `Pending` and `Active`. The capacity
    check still sees the stored record, with the status it had before. -/
def setValidatorIdentityCommitments (validatorId : ValidatorId)
    (shieldedIdentityCommitment endpointCommitment : Option Commitment) (signatureBundle : SignatureBundle) :
    Except DispatchError (State L w) := do
  let operator ← ensurePayloadSigner cfg origin
  let validator ← okOr (s.registry.validators validatorId) (.module .unknownValidator)
  ensureValidatorOperator cfg validator operator
  ensureOptionalCommitment shieldedIdentityCommitment
  ensureOptionalCommitment endpointCommitment
  ensure (s.requests.pendingValidator validatorId = 0) (.module .pendingAssignedRequests)
  if shieldedIdentityCommitment.isSome || endpointCommitment.isSome then
    let challenge := cfg.validatorIdentitySignatureChallenge validatorId validator.operatorCommitment
      shieldedIdentityCommitment endpointCommitment
    ensureIdentitySignatureBundleBound cfg signatureBundle challenge validator.operatorCommitment
      shieldedIdentityCommitment endpointCommitment
    if validator.status = .pending then
      ensureValidatorLockedStakeRecord cfg s.registry validatorId
    let registry := { s.registry with
      validatorIdentity := s.registry.validatorIdentity.set validatorId
        ⟨some ⟨shieldedIdentityCommitment, endpointCommitment⟩, some signatureBundle, some challenge⟩ }
    ensure (validator.status = .active ∨ validator.status = .pending) (.module .invalidValidatorStatus)
    insertActiveValidator cfg registry validator.subnetId validatorId
    let stakeCommitment := cfg.validatorStakeCommitment validatorId validator.operatorCommitment .active
    let registry := { registry with
      validators := update registry.validators validatorId
        (some { validator with status := .active, stakeCommitment }) }
    pure ({ s with registry }.depositActivityEvents cfg [.validatorIdentityCommitmentsUpdated])
  else
    ensureIdentityClearable cfg (s.registry.validatorIdentity.get validatorId)
      (cfg.validatorIdentitySignatureChallenge validatorId validator.operatorCommitment none none)
      validator.operatorCommitment signatureBundle
    let registry := { s.registry with
      validatorIdentity := s.registry.validatorIdentity.set validatorId ⟨none, none, none⟩ }
    let stakeCommitment := cfg.validatorStakeCommitment validatorId validator.operatorCommitment .pending
    let registry :=
      if validator.status = .active then
        { registry with
          validators := update registry.validators validatorId
            (some { validator with status := .pending, stakeCommitment }) }
      else registry
    pure ({ s with registry }.depositActivityEvents cfg [.validatorIdentityCommitmentsUpdated])

/-! ## Calls -/

/-- The dispatchables with their arguments. -/
inductive Call (A : Type) (w : Nat) where
  | createSubnet (domain : SubnetDomain) (proofSystem : ProofSystem)
  | registerMiner (subnetId : SubnetId) (modelCommitment : Commitment) (proofSystem : ProofSystem)
  | activateMiner (minerId : MinerId) (bond : BitVec w)
  | registerValidator (subnetId : SubnetId) (stake : BitVec w)
  | submitProof (submission : InferenceProofSubmission) (requestUser minerOperator : A)
      (assignmentBlinding : Commitment) (termsWitness : InferenceRequestTermsWitness w)
  | challengeProof (submission : InferenceProofSubmission) (requestUser minerOperator : A)
      (assignmentBlinding : Commitment) (termsWitness : InferenceRequestTermsWitness w)
  | slashMiner (minerId : MinerId) (operator : A) (slashBps : UInt16)
  | requestInference (requestId : RequestId) (params : InferenceRequestParams w)
  | requestInferenceAutoRoute (requestId : RequestId) (params : AutoRouteInferenceRequestParams w)
  | requestInferenceCommitments (requestId : RequestId) (params : InferenceRequestCommitmentParams w)
  | cancelInference (requestId : RequestId) (minerId : MinerId) (validatorId : ValidatorId)
      (assignmentBlinding : Commitment) (timingWitness : InferenceRequestTimingWitness)
      (termsWitness : InferenceRequestTermsWitness w)
  | deactivateMiner (minerId : MinerId)
  | withdrawMinerBond (minerId : MinerId)
  | deactivateValidator (validatorId : ValidatorId)
  | withdrawValidatorStake (validatorId : ValidatorId)
  | slashValidator (validatorId : ValidatorId) (operator : A) (slashBps : UInt16)
  | expireInference (requestId : RequestId) (requestUser : A) (minerId : MinerId)
      (validatorId : ValidatorId) (assignmentBlinding : Commitment)
      (timingWitness : InferenceRequestTimingWitness) (termsWitness : InferenceRequestTermsWitness w)
  | setMinerIdentityCommitments (minerId : MinerId)
      (shieldedIdentityCommitment endpointCommitment : Option Commitment) (signatureBundle : SignatureBundle)
  | setValidatorIdentityCommitments (validatorId : ValidatorId)
      (shieldedIdentityCommitment endpointCommitment : Option Commitment) (signatureBundle : SignatureBundle)

/-- Dispatch a call. -/
def dispatch (verify : ProofVerifier) (s : State L w) (origin : Origin A) : Call A w → Except DispatchError (State L w)
  | .createSubnet domain proofSystem => createSubnet cfg s origin domain proofSystem
  | .registerMiner subnetId modelCommitment proofSystem =>
      registerMiner cfg s origin subnetId modelCommitment proofSystem
  | .activateMiner minerId bond => activateMiner cfg s origin minerId bond
  | .registerValidator subnetId stake => registerValidator cfg s origin subnetId stake
  | .submitProof submission requestUser minerOperator assignmentBlinding termsWitness =>
      submitProof cfg verify s origin submission requestUser minerOperator assignmentBlinding termsWitness
  | .challengeProof submission requestUser minerOperator assignmentBlinding termsWitness =>
      challengeProof cfg verify s origin submission requestUser minerOperator assignmentBlinding termsWitness
  | .slashMiner minerId operator slashBps => slashMiner cfg s origin minerId operator slashBps
  | .requestInference requestId params => requestInference cfg s origin requestId params
  | .requestInferenceAutoRoute requestId params => requestInferenceAutoRoute cfg s origin requestId params
  | .requestInferenceCommitments requestId params =>
      requestInferenceCommitments cfg s origin requestId params
  | .cancelInference requestId minerId validatorId assignmentBlinding timingWitness termsWitness =>
      cancelInference cfg s origin requestId minerId validatorId assignmentBlinding timingWitness termsWitness
  | .deactivateMiner minerId => deactivateMiner cfg s origin minerId
  | .withdrawMinerBond minerId => withdrawMinerBond cfg s origin minerId
  | .deactivateValidator validatorId => deactivateValidator cfg s origin validatorId
  | .withdrawValidatorStake validatorId => withdrawValidatorStake cfg s origin validatorId
  | .slashValidator validatorId operator slashBps => slashValidator cfg s origin validatorId operator slashBps
  | .expireInference requestId requestUser minerId validatorId assignmentBlinding timingWitness termsWitness =>
      expireInference cfg s origin requestId requestUser minerId validatorId assignmentBlinding timingWitness
        termsWitness
  | .setMinerIdentityCommitments minerId shieldedIdentityCommitment endpointCommitment signatureBundle =>
      setMinerIdentityCommitments cfg s origin minerId shieldedIdentityCommitment endpointCommitment signatureBundle
  | .setValidatorIdentityCommitments validatorId shieldedIdentityCommitment endpointCommitment signatureBundle =>
      setValidatorIdentityCommitments cfg s origin validatorId shieldedIdentityCommitment endpointCommitment
        signatureBundle
end Qubitum
