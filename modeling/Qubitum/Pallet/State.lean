import Qubitum.Pallet.Types
import Mathlib.Logic.Function.Basic

/-!
# `Pallet.State` — configuration and storage

`Config` carries the runtime constants together with what the pallet takes from outside: the currency,
the hash, the identity-signature verifier and the check that an origin is a decrypted shield-queue
payload. Accounts `A`, ledger states `L` and the balance width `w` stay abstract.
-/

namespace Qubitum
open Scale Ledger Function

/-- The runtime's configuration of the pallet. -/
structure Config (A L : Type) (w : Nat) where
  currency : Currency L HoldReason A w
  blake2_256 : Bytes → Commitment
  subnetCreationBurn : BitVec w
  minerRegistrationBurn : BitVec w
  minMinerBond : BitVec w
  maxMinerBond : BitVec w
  maxActiveMinersPerSubnet : UInt32
  maxActiveValidatorsPerSubnet : UInt32
  minValidatorStake : BitVec w
  minInvalidProofSlashBps : UInt16
  maxInvalidProofSlashBps : UInt16
  minProofSizeBytes : UInt32
  maxProofSizeBytes : UInt32
  maxVerificationLatencyMs : UInt32
  maxProofSubmissionAgeBlocks : BlockNumber
  signatureMode : SignatureMode
  identitySignatureVerifier : SignatureCommitment → IdentitySignatureVerificationPolicy → Bool
  shieldedCallPayloads : Bool
  privateEventMetadata : Bool
  /-- `ShieldedOrigin::try_origin` -/
  shieldedOrigin : Origin A → Option A
  protocolTreasury : A
  minerExitCooldownBlocks : BlockNumber
  validatorExitCooldownBlocks : BlockNumber
  requestCancelDelayBlocks : BlockNumber

/-- The three identity maps of one kind of participant. -/
structure IdentityStore where
  commitments : UInt64 → Option ChainIdentityCommitments
  signatureBundles : UInt64 → Option SignatureBundle
  signatureChallenges : UInt64 → Option Commitment

/-- What the identity maps hold for one participant. -/
structure Identity where
  commitments : Option ChainIdentityCommitments
  signatureBundle : Option SignatureBundle
  signatureChallenge : Option Commitment
  deriving DecidableEq

namespace IdentityStore

/-- The identity published by one participant. -/
def get (store : IdentityStore) (id : UInt64) : Identity :=
  ⟨store.commitments id, store.signatureBundles id, store.signatureChallenges id⟩

/-- The store with one participant's three entries replaced. -/
def set (store : IdentityStore) (id : UInt64) (identity : Identity) : IdentityStore where
  commitments := update store.commitments id identity.commitments
  signatureBundles := update store.signatureBundles id identity.signatureBundle
  signatureChallenges := update store.signatureChallenges id identity.signatureChallenge

@[simp] theorem get_set_self (store : IdentityStore) (id : UInt64) (identity : Identity) :
    (store.set id identity).get id = identity := by
  simp [get, set]

theorem get_set_of_ne (store : IdentityStore) {id id' : UInt64} (identity : Identity) (h : id' ≠ id) :
    (store.set id identity).get id' = store.get id' := by
  simp [get, set, update_of_ne h]
end IdentityStore

/-- Subnets, participants, their identities and their locked capital. -/
structure Registry (w : Nat) where
  subnetCount : SubnetId
  minerCount : MinerId
  validatorCount : ValidatorId
  subnets : SubnetId → Option ChainSubnet
  miners : MinerId → Option ChainMiner
  validators : ValidatorId → Option ChainValidator
  minerIdentity : IdentityStore
  validatorIdentity : IdentityStore
  minerLockedBond : MinerId → Option (BitVec w)
  validatorLockedStake : ValidatorId → Option (BitVec w)

/-- The five status counters. -/
structure RequestStatusCounts where
  pending : RequestId
  settled : RequestId
  cancelled : RequestId
  rejected : RequestId
  expired : RequestId
  deriving DecidableEq, Repr

/-- The counter of one status. -/
def RequestStatusCounts.get (counts : RequestStatusCounts) : InferenceRequestStatus → RequestId
  | .pending   => counts.pending
  | .settled   => counts.settled
  | .cancelled => counts.cancelled
  | .rejected  => counts.rejected
  | .expired   => counts.expired

/-- Inference requests, accepted proofs and the counters over them. -/
structure RequestBook where
  requestCount : RequestId
  inferenceRequests : RequestId → Option ChainInferenceRequest
  proofRecords : RequestId → Option ChainProofRecord
  pendingMinerRequests : MinerId → Option RequestId
  pendingValidatorRequests : ValidatorId → Option RequestId
  statusCounts : RequestStatusCounts

/-- Accounting totals. The public ones are redacted: every dispatchable that would record an amount
    clears them instead. -/
structure Totals (w : Nat) where
  burned : BitVec w
  inferenceEscrowed : BitVec w
  minerPayouts : BitVec w
  validatorFees : BitVec w
  treasuryFees : BitVec w
  inferenceRefunded : BitVec w
  deriving DecidableEq

/-- Storage of the pallet, the currency's ledger, the block number and the events deposited. -/
structure State (L : Type) (w : Nat) where
  registry : Registry w
  requests : RequestBook
  totals : Totals w
  ledger : L
  blockNumber : Nat
  events : List Event

/-! ## The empty pallet -/

def IdentityStore.empty : IdentityStore := ⟨fun _ => none, fun _ => none, fun _ => none⟩

def Registry.empty {w : Nat} : Registry w where
  subnetCount := 0
  minerCount := 0
  validatorCount := 0
  subnets := fun _ => none
  miners := fun _ => none
  validators := fun _ => none
  minerIdentity := .empty
  validatorIdentity := .empty
  minerLockedBond := fun _ => none
  validatorLockedStake := fun _ => none

def RequestBook.empty : RequestBook where
  requestCount := 0
  inferenceRequests := fun _ => none
  proofRecords := fun _ => none
  pendingMinerRequests := fun _ => none
  pendingValidatorRequests := fun _ => none
  statusCounts := ⟨0, 0, 0, 0, 0⟩

/-- The pallet before its first call, over a given ledger and block number. -/
def State.empty {L : Type} {w : Nat} (ledger : L) (blockNumber : Nat) : State L w where
  registry := .empty
  requests := .empty
  totals := ⟨0, 0, 0, 0, 0, 0⟩
  ledger := ledger
  blockNumber := blockNumber
  events := []
end Qubitum
