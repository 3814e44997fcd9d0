import Qubitum.Pallet.Requests
import Qubitum.Migration.Layouts
import Qubitum.Lib.RawMap

/-!
# `Migration.Storage` — the pallet's storage as an upgrade finds it

An upgrade meets storage written by an older runtime, so the maps it touches are bytes under two key
spaces (`Raw.RawMap`): `legacy` are the `Twox64Concat` keys, `current` the `Blake2_128` keys of today's
declarations. Keys of different maps, hashers and identifiers are taken to be different. A `ValueQuery`
counter or index is its value: bytes that do not decode read as the default.

The **routing indexes** hold `BoundedVec`s, whose bound is part of the value.

`Storage.registry` and `Storage.book` are what the dispatchables of today's runtime read in it.
-/

namespace Qubitum
open Scale Raw

/-- `BoundedVec<u64, max>` -/
structure BoundedVec (max : UInt32) where
  ids : List UInt64
  bounded : ids.length ≤ max.toNat

namespace BoundedVec

def empty {max : UInt32} : BoundedVec max := ⟨[], Nat.zero_le _⟩

/-- `insert_sorted_miner_id` / `insert_sorted_validator_id`: whether the identifier was new, and the
    sorted vector; an error when there is no room for it. -/
def insertSorted {max : UInt32} (error : Error) (vec : BoundedVec max) (id : UInt64) :
    Except DispatchError (Bool × BoundedVec max) :=
  if vec.ids.contains id then .ok (false, vec)
  else
    let sorted := (vec.ids ++ [id]).insertionSort (· ≤ ·)
    if h : sorted.length ≤ max.toNat then .ok (true, ⟨sorted, h⟩) else .error (.module error)
end BoundedVec

/-- The three identity maps of one kind of participant, as bytes. -/
structure RawIdentity where
  commitments : RawMap UInt64
  signatureBundles : RawMap UInt64
  signatureChallenges : RawMap UInt64

namespace RawIdentity

def empty : RawIdentity := ⟨.empty, .empty, .empty⟩

def store (raw : RawIdentity) : IdentityStore :=
  ⟨raw.commitments.get, raw.signatureBundles.get, raw.signatureChallenges.get⟩

def ofStore (store : IdentityStore) : RawIdentity :=
  ⟨.ofRecords store.commitments, .ofRecords store.signatureBundles, .ofRecords store.signatureChallenges⟩
end RawIdentity

/-- The counters of open requests per participant. -/
structure PendingCounters where
  miners : MinerId → Option RequestId
  validators : ValidatorId → Option RequestId

/-- The numbers of records a migration could not carry over. -/
structure MigrationFailures where
  accounting : UInt32
  routingIndex : UInt32
  capitalRecord : UInt32
  deriving DecidableEq

/-- Storage of the pallet under a runtime configured by `cfg`. -/
structure Storage {A L : Type} {w : Nat} (cfg : Config A L w) where
  version : Nat
  subnetCount : SubnetId
  minerCount : MinerId
  validatorCount : ValidatorId
  requestCount : RequestId
  subnets : RawMap SubnetId
  miners : RawMap MinerId
  validators : RawMap ValidatorId
  minerIdentity : RawIdentity
  validatorIdentity : RawIdentity
  minerLockedBond : RawMap MinerId
  validatorLockedStake : RawMap ValidatorId
  inferenceRequests : RawMap RequestId
  proofRecords : RawMap RequestId
  activeMinersBySubnet : SubnetId → BoundedVec cfg.maxActiveMinersPerSubnet
  activeValidatorsBySubnet : SubnetId → BoundedVec cfg.maxActiveValidatorsPerSubnet
  pending : PendingCounters
  statusCounts : RequestStatusCounts
  totals : Totals w
  failures : MigrationFailures

namespace Storage
variable {A L : Type} {w : Nat} {cfg : Config A L w}

/-- Nothing stored, at a given storage version. -/
def empty (version : Nat) : Storage cfg where
  version := version
  subnetCount := 0
  minerCount := 0
  validatorCount := 0
  requestCount := 0
  subnets := .empty
  miners := .empty
  validators := .empty
  minerIdentity := .empty
  validatorIdentity := .empty
  minerLockedBond := .empty
  validatorLockedStake := .empty
  inferenceRequests := .empty
  proofRecords := .empty
  activeMinersBySubnet := fun _ => .empty
  activeValidatorsBySubnet := fun _ => .empty
  pending := ⟨fun _ => none, fun _ => none⟩
  statusCounts := ⟨0, 0, 0, 0, 0⟩
  totals := ⟨0, 0, 0, 0, 0, 0⟩
  failures := ⟨0, 0, 0⟩

/-- The registry as today's runtime reads it. -/
def registry (s : Storage cfg) : Registry w where
  subnetCount := s.subnetCount
  minerCount := s.minerCount
  validatorCount := s.validatorCount
  subnets := s.subnets.get
  miners := s.miners.get
  validators := s.validators.get
  minerIdentity := s.minerIdentity.store
  validatorIdentity := s.validatorIdentity.store
  minerLockedBond := s.minerLockedBond.get
  validatorLockedStake := s.validatorLockedStake.get

/-- The request book as today's runtime reads it. -/
def book (s : Storage cfg) : RequestBook where
  requestCount := s.requestCount
  inferenceRequests := s.inferenceRequests.get
  proofRecords := s.proofRecords.get
  pendingMinerRequests := s.pending.miners
  pendingValidatorRequests := s.pending.validators
  statusCounts := s.statusCounts

/-- What the dispatchables leave in storage: current layouts under current keys, and no routing index. -/
def ofState (version : Nat) (state : State L w) : Storage cfg :=
  { empty version with
    subnetCount := state.registry.subnetCount
    minerCount := state.registry.minerCount
    validatorCount := state.registry.validatorCount
    requestCount := state.requests.requestCount
    subnets := .ofRecords state.registry.subnets
    miners := .ofRecords state.registry.miners
    validators := .ofRecords state.registry.validators
    minerIdentity := .ofStore state.registry.minerIdentity
    validatorIdentity := .ofStore state.registry.validatorIdentity
    minerLockedBond := .ofRecords state.registry.minerLockedBond
    validatorLockedStake := .ofRecords state.registry.validatorLockedStake
    inferenceRequests := .ofRecords state.requests.inferenceRequests
    proofRecords := .ofRecords state.requests.proofRecords
    pending := ⟨state.requests.pendingMinerRequests, state.requests.pendingValidatorRequests⟩
    statusCounts := state.requests.statusCounts
    totals := state.totals }

def requestRecords (s : Storage cfg) : List (RequestId × ChainInferenceRequest) :=
  Dense.recordsBelow s.requestCount s.inferenceRequests.get
end Storage
end Qubitum
