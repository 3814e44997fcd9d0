import Qubitum.Protocol
import Qubitum.Lib.Ledger

/-!
# `Pallet.Types` — records, errors, configuration and storage of the pallet

The state a dispatchable reads and writes, split along the pallet's own seams: the `Registry` (subnets,
miners, validators, their identities and locked capital), the `RequestBook` (inference requests, proof
records and the counters over them), the accounting totals, the currency's ledger and the block number.
A storage map is a function to `Option`; a `ValueQuery` read takes the default of an absent entry.

The routing indexes `ActiveMinersBySubnet` / `ActiveValidatorsBySubnet` are written by the storage
migrations only (`Migration.*`), so they are not part of the state of the dispatchables.
-/

namespace Qubitum
open Scale Ledger

/-! ## Stored records -/

/-- Why the pallet puts funds on hold. -/
inductive HoldReason where
  | minerBond
  | validatorStake
  | inferencePayment
  deriving DecidableEq, Repr

inductive InferenceRequestStatus where
  | pending
  | settled
  | cancelled
  | rejected
  | expired
  deriving DecidableEq, Repr

structure ChainSubnet where
  id : SubnetId
  ownerCommitment : Commitment
  domain : SubnetDomain
  proofSystem : ProofSystem
  policyCommitment : Commitment
  active : Bool
  deriving DecidableEq

structure ChainMiner where
  id : MinerId
  operatorCommitment : Commitment
  subnetId : SubnetId
  modelCommitment : Commitment
  proofSystem : ProofSystem
  bondCommitment : Commitment
  status : RegistryStatus
  deriving DecidableEq

structure ChainValidator where
  id : ValidatorId
  operatorCommitment : Commitment
  subnetId : SubnetId
  stakeCommitment : Commitment
  status : RegistryStatus
  deriving DecidableEq

structure ChainIdentityCommitments where
  shieldedIdentityCommitment : Option Commitment
  endpointCommitment : Option Commitment
  deriving DecidableEq

structure ChainProofRecord where
  requestId : RequestId
  subnetId : SubnetId
  assignmentCommitment : Commitment
  auditCommitment : Commitment
  proofSystem : ProofSystem
  deriving DecidableEq

structure ChainInferenceRequest where
  requestId : RequestId
  userCommitment : Commitment
  subnetId : SubnetId
  assignmentCommitment : Commitment
  inputCommitment : Commitment
  termsCommitment : Commitment
  timingCommitment : Commitment
  status : InferenceRequestStatus
  deriving DecidableEq

structure ChainAssignment where
  requestId : RequestId
  subnetId : SubnetId
  minerId : MinerId
  validatorId : ValidatorId
  deriving DecidableEq, Repr

/-! ## Call arguments -/

structure InferenceRequestParams (w : Nat) where
  subnetId : SubnetId
  minerId : MinerId
  validatorId : ValidatorId
  inputCommitment : Commitment
  assignmentBlinding : Commitment
  timingBlinding : Commitment
  termsBlinding : Commitment
  payment : BitVec w
  validatorFeeBps : UInt16
  treasuryFeeBps : UInt16

structure AutoRouteInferenceRequestParams (w : Nat) where
  subnetId : SubnetId
  inputCommitment : Commitment
  assignmentBlinding : Commitment
  timingBlinding : Commitment
  termsBlinding : Commitment
  payment : BitVec w
  validatorFeeBps : UInt16
  treasuryFeeBps : UInt16

structure InferenceRequestCommitmentParams (w : Nat) where
  subnetId : SubnetId
  inputCommitment : Commitment
  assignmentCommitment : Commitment
  createdAt : BlockNumber
  timingCommitment : Commitment
  termsCommitment : Commitment
  payment : BitVec w
  validatorFeeBps : UInt16
  treasuryFeeBps : UInt16

structure InferenceRequestTerms (w : Nat) where
  payment : BitVec w
  validatorFeeBps : UInt16
  treasuryFeeBps : UInt16
  deriving DecidableEq

structure InferenceRequestTermsWitness (w : Nat) where
  terms : InferenceRequestTerms w
  blinding : Commitment
  deriving DecidableEq

structure InferenceRequestTimingWitness where
  createdAt : BlockNumber
  blinding : Commitment
  deriving DecidableEq

/-- Minimal policy passed to the runtime proof verifier. -/
structure ProofVerificationPolicy where
  proofSystem : ProofSystem
  modelCommitment : Commitment
  minProofSizeBytes : UInt32
  maxProofSizeBytes : UInt32
  maxVerificationLatencyMs : UInt32
  deriving DecidableEq

/-- Minimal policy passed to the runtime identity-signature verifier. -/
structure IdentitySignatureVerificationPolicy where
  signatureMode : SignatureMode
  challenge : Commitment
  deriving DecidableEq

/-! ## Errors, events, origins -/

/-- The pallet's errors that a modelled function can raise. -/
inductive Error where
  | arithmeticOverflow
  | unknownSubnet
  | unknownMiner
  | unknownValidator
  | proofSystemMismatch
  | unsupportedProofSystem
  | invalidBond
  | invalidStake
  | notActive
  | invalidMinerStatus
  | minerExitUnavailable
  | notOperator
  | invalidValidatorStatus
  | validatorExitUnavailable
  | notValidatorOperator
  | missingCommitment
  | modelCommitmentMismatch
  | duplicateProof
  | duplicateRequest
  | invalidRequestId
  | unknownRequest
  | requestAlreadySettled
  | requestCancelUnavailable
  | notRequestOwner
  | requestMismatch
  | participantMismatch
  | selfValidation
  | noRouteAvailable
  | assignmentMismatch
  | pendingAssignedRequests
  | pendingAssignmentUnderflow
  | requestStatusCounterUnderflow
  | tooManyActiveMiners
  | tooManyActiveValidators
  | invalidPayment
  | invalidFeeSplit
  | routeAssignmentMustBeHidden
  | unsupportedCommittedRequestPayload
  | invalidProofSize
  | latencyExceeded
  | proofSubmittedFromFuture
  | proofSubmissionExpired
  | proofTranscriptMismatch
  | challengeProofValid
  | invalidSlashPercent
  | invalidSignatureBundle
  | missingSignatureBundle
  | missingCapitalRecord
  | verifierError
  | publicCallPayloadDisallowed
  deriving DecidableEq, Repr

/-- How a dispatch fails: a wrong origin, an error of this pallet, a refusal of the currency, or a text
    of a verifier. -/
inductive DispatchError where
  | badOrigin
  | module (error : Error)
  | token (error : TokenError)
  | other (message : String)
  deriving DecidableEq, Repr

instance : Coe Error DispatchError := ⟨.module⟩

inductive Event where
  | privateActivity
  | subnetCreated
  | minerRegistered
  | minerActivated
  | minerExitStarted
  | minerBondWithdrawn
  | validatorRegistered
  | validatorExitStarted
  | validatorStakeWithdrawn
  | minerIdentityCommitmentsUpdated
  | validatorIdentityCommitmentsUpdated
  | inferenceRequested
  | proofAccepted
  | proofChallengeAccepted
  | inferenceSettled
  | inferenceCancelled
  | inferenceRefunded
  | inferenceExpired
  | proofRejected
  | minerSlashed
  | validatorSlashed
  deriving DecidableEq, Repr

/-- Dispatch origins: the system origins and the origin of a decrypted shield-queue payload. -/
inductive Origin (A : Type) where
  | root
  | signed (who : A)
  | none
  | shielded (who : A)
  deriving DecidableEq
end Qubitum
