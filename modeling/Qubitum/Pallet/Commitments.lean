import Qubitum.Pallet.State

/-!
# `Pallet.Commitments` — the hash preimages of the pallet

Every commitment is `blake2_256` of a SCALE tuple. The tuple is kept as its own definition
(`…Preimage`), so that what is hashed can be compared independently of the hash. Two conventions of the
source differ in bytes: a domain passed as `&'static [u8]` is encoded with its compact length, a domain
written as an array literal `b"…"` is not.

A domain-separated preimage and its **legacy** form never coincide: over fixed-width accounts and
balances they have different lengths (`Pallet.Binding`).
-/

namespace Qubitum
open Scale

variable {A L : Type} {w : Nat}

/-! ## Accounts -/

section Accounts
variable [Codec A]

def accountPreimage (who : A) : Bytes := encode who

def roleAccountPreimage (domain : String) (who : A) : Bytes := encodeSlice (ascii domain) ++ encode who

def operatorPreimage (who : A) : Bytes := roleAccountPreimage "qubitum.operator.v1" who

def requestUserPreimage (who : A) : Bytes := roleAccountPreimage "qubitum.request.user.v1" who

namespace Config
variable (cfg : Config A L w)

/-- The legacy account commitment. -/
def accountCommitment (who : A) : Commitment := cfg.blake2_256 (accountPreimage who)

def roleAccountCommitment (domain : String) (who : A) : Commitment := cfg.blake2_256 (roleAccountPreimage domain who)

def subnetOwnerCommitment (who : A) : Commitment := cfg.roleAccountCommitment "qubitum.subnet.owner.v1" who

def operatorCommitment (who : A) : Commitment := cfg.roleAccountCommitment "qubitum.operator.v1" who

def requestUserCommitment (who : A) : Commitment := cfg.roleAccountCommitment "qubitum.request.user.v1" who

/-- Authorization accepts the role commitment and the legacy account commitment. -/
def operatorCommitmentMatches (stored : Commitment) (operator : A) : Bool :=
  stored = cfg.operatorCommitment operator || stored = cfg.accountCommitment operator

def requestUserCommitmentMatches (stored : Commitment) (user : A) : Bool :=
  stored = cfg.requestUserCommitment user || stored = cfg.accountCommitment user
end Config
end Accounts

/-! ## Participants and subnets -/

namespace Config
variable (cfg : Config A L w)

def participantCapitalCommitment (domain : String) (participantId : UInt64)
    (operatorCommitment : Commitment) (status : RegistryStatus) : Commitment :=
  cfg.blake2_256 (encodeSlice (ascii domain) ++ encode (participantId, operatorCommitment, status))

def minerBondCommitment (minerId : MinerId) (operatorCommitment : Commitment) (status : RegistryStatus) : Commitment :=
  cfg.participantCapitalCommitment "qubitum.miner.bond.state.v1" minerId operatorCommitment status

def validatorStakeCommitment (validatorId : ValidatorId) (operatorCommitment : Commitment)
    (status : RegistryStatus) : Commitment :=
  cfg.participantCapitalCommitment "qubitum.validator.stake.state.v1" validatorId operatorCommitment status

def identitySignatureChallenge (domain : String) (subjectId : UInt64) (operatorCommitment : Commitment)
    (shieldedIdentityCommitment endpointCommitment : Option Commitment) : Commitment :=
  cfg.blake2_256 (encodeSlice (ascii domain) ++
    encode (subjectId, operatorCommitment, shieldedIdentityCommitment, endpointCommitment, cfg.signatureMode))

def minerIdentitySignatureChallenge (minerId : MinerId) (operatorCommitment : Commitment)
    (shieldedIdentityCommitment endpointCommitment : Option Commitment) : Commitment :=
  cfg.identitySignatureChallenge "qubitum.identity.miner.v1" minerId operatorCommitment
    shieldedIdentityCommitment endpointCommitment

def validatorIdentitySignatureChallenge (validatorId : ValidatorId) (operatorCommitment : Commitment)
    (shieldedIdentityCommitment endpointCommitment : Option Commitment) : Commitment :=
  cfg.identitySignatureChallenge "qubitum.identity.validator.v1" validatorId operatorCommitment
    shieldedIdentityCommitment endpointCommitment

def subnetPolicyCommitment (subnetId : SubnetId) (domain : SubnetDomain) (proofSystem : ProofSystem) : Commitment :=
  cfg.blake2_256 (encode (subnetId, domain, proofSystem, cfg.subnetCreationBurn,
    cfg.minerRegistrationBurn, cfg.minMinerBond, cfg.maxMinerBond, cfg.minValidatorStake,
    cfg.maxActiveMinersPerSubnet, cfg.maxActiveValidatorsPerSubnet))
end Config

/-! ## Requests -/

section Preimages
variable (requestId : RequestId) (subnetId : SubnetId) (minerId : MinerId) (validatorId : ValidatorId)
  (createdAt : BlockNumber) (payment : BitVec w) (validatorFeeBps treasuryFeeBps : UInt16)

def requestAssignmentPreimage (assignmentBlinding : Commitment) : Bytes :=
  ascii "qubitum.request.assignment.v1" ++ encode (requestId, subnetId, minerId, validatorId, assignmentBlinding)

def legacyRequestAssignmentPreimage : Bytes := encode (requestId, subnetId, minerId, validatorId)

def requestTimingPreimage (timingBlinding : Commitment) : Bytes :=
  ascii "qubitum.request.timing.v1" ++ encode (requestId, createdAt, timingBlinding)

def legacyRequestTimingPreimage : Bytes := encode (requestId, createdAt)

def requestTermsPreimage (termsBlinding : Commitment) : Bytes :=
  ascii "qubitum.request.terms.v1" ++ encode (requestId, payment, validatorFeeBps, treasuryFeeBps, termsBlinding)

def legacyRequestTermsPreimage : Bytes := encode (requestId, payment, validatorFeeBps, treasuryFeeBps)
end Preimages

namespace Config
variable (cfg : Config A L w) (requestId : RequestId) (subnetId : SubnetId) (minerId : MinerId) (validatorId : ValidatorId)
  (createdAt : BlockNumber) (payment : BitVec w) (validatorFeeBps treasuryFeeBps : UInt16)

def requestAssignmentCommitment (assignmentBlinding : Commitment) : Commitment :=
  cfg.blake2_256 (requestAssignmentPreimage requestId subnetId minerId validatorId assignmentBlinding)

def legacyRequestAssignmentCommitment : Commitment :=
  cfg.blake2_256 (legacyRequestAssignmentPreimage requestId subnetId minerId validatorId)

def requestTimingCommitment (timingBlinding : Commitment) : Commitment :=
  cfg.blake2_256 (requestTimingPreimage requestId createdAt timingBlinding)

def legacyRequestTimingCommitment : Commitment := cfg.blake2_256 (legacyRequestTimingPreimage requestId createdAt)

def requestTermsCommitment (termsBlinding : Commitment) : Commitment :=
  cfg.blake2_256 (requestTermsPreimage requestId payment validatorFeeBps treasuryFeeBps termsBlinding)

def legacyRequestTermsCommitment : Commitment :=
  cfg.blake2_256 (legacyRequestTermsPreimage requestId payment validatorFeeBps treasuryFeeBps)

/-! ## Proofs -/

def proofAuditCommitmentForAssignment (submission : InferenceProofSubmission) (acceptedAt : BlockNumber)
    (assignmentCommitment : Commitment) : Commitment :=
  cfg.blake2_256 (encode (submission.requestId, submission.subnetId, assignmentCommitment,
    submission.inputCommitment, submission.outputCommitment, submission.modelCommitment,
    submission.proof, submission.proofSystem, submission.proofSizeBytes,
    submission.verificationLatencyMs, submission.submittedAt, acceptedAt))

def proofTranscriptCommitment (submission : InferenceProofSubmission) : Commitment :=
  cfg.blake2_256 (encode (submission.requestId, submission.subnetId, submission.minerId,
    submission.validatorId, submission.inputCommitment, submission.outputCommitment,
    submission.modelCommitment, submission.proofSystem, submission.proof.proofCommitment,
    submission.proof.imageId, submission.proof.verifierVersion, submission.proofSizeBytes,
    submission.verificationLatencyMs, submission.submittedAt))
end Config
end Qubitum
