import Qubitum.Migration.Upgrade

/-!
# `Migration.Content` — what a storage version holds

The abstract side of an upgrade: a `Content` says which records are stored, each in some layout, and
`Storage.Holds` relates it to bytes. At a given version every record is in the layout of that version
(`writtenAt`), under the `Twox64Concat` key of its identifier until the version that moved its map, and
under the current key from there on.

`Preserved` is what an upgrade owes to a content. It is stated on the content and on what today's runtime
reads, without mention of any migration step.
-/

namespace Qubitum
open Scale Raw Dense

variable {A L : Type} {w : Nat}

/-! ## Records in some layout -/

inductive StoredSubnet (A : Type) (w : Nat) where
  | v15 (old : ChainSubnetV15 A w)
  | current (subnet : ChainSubnet)

inductive StoredMiner (A : Type) (w : Nat) where
  | v7 (old : ChainMinerV7 A w)
  | v9 (old : ChainMinerV9 w)
  | current (miner : ChainMiner)

inductive StoredValidator (A : Type) (w : Nat) where
  | v7 (old : ChainValidatorV7 A w)
  | v9 (old : ChainValidatorV9 w)
  | current (validator : ChainValidator)

inductive StoredRequest (A : Type) (w : Nat) where
  | v8 (old : ChainInferenceRequestV8 A w)
  | v10 (old : ChainInferenceRequestV10 w)
  | v12 (old : ChainInferenceRequestV12 w)
  | v13 (old : ChainInferenceRequestV13 w)
  | current (request : ChainInferenceRequest)

inductive StoredProof where
  | v11 (old : ChainProofRecordV11)
  | v14 (old : ChainProofRecordV14)
  | current (record : ChainProofRecord)

namespace StoredSubnet

/-- The versions that write this layout. -/
def writtenAt (v : Nat) : StoredSubnet A w → Prop
  | .v15 _     => v < 16
  | .current _ => 16 ≤ v

def bytes [Codec A] : StoredSubnet A w → Bytes
  | .v15 old        => encode old
  | .current subnet => encode subnet

def id : StoredSubnet A w → SubnetId
  | .v15 old        => old.id
  | .current subnet => subnet.id

def domain : StoredSubnet A w → SubnetDomain
  | .v15 old        => old.domain
  | .current subnet => subnet.domain

def proofSystem : StoredSubnet A w → ProofSystem
  | .v15 old        => old.proofSystem
  | .current subnet => subnet.proofSystem

def active : StoredSubnet A w → Bool
  | .v15 old        => old.active
  | .current subnet => subnet.active
end StoredSubnet

namespace StoredMiner

def writtenAt (v : Nat) : StoredMiner A w → Prop
  | .v7 _      => v = 7
  | .v9 _      => 8 ≤ v ∧ v < 10
  | .current _ => 10 ≤ v

def bytes [Codec A] : StoredMiner A w → Bytes
  | .v7 old        => encode old
  | .v9 old        => encode old
  | .current miner => encode miner

def id : StoredMiner A w → MinerId
  | .v7 old        => old.id
  | .v9 old        => old.id
  | .current miner => miner.id

def subnetId : StoredMiner A w → SubnetId
  | .v7 old        => old.subnetId
  | .v9 old        => old.subnetId
  | .current miner => miner.subnetId

def proofSystem : StoredMiner A w → ProofSystem
  | .v7 old        => old.proofSystem
  | .v9 old        => old.proofSystem
  | .current miner => miner.proofSystem

def status : StoredMiner A w → RegistryStatus
  | .v7 old        => old.status
  | .v9 old        => old.status
  | .current miner => miner.status
end StoredMiner

namespace StoredValidator

def writtenAt (v : Nat) : StoredValidator A w → Prop
  | .v7 _      => v = 7
  | .v9 _      => 8 ≤ v ∧ v < 10
  | .current _ => 10 ≤ v

def bytes [Codec A] : StoredValidator A w → Bytes
  | .v7 old            => encode old
  | .v9 old            => encode old
  | .current validator => encode validator

def id : StoredValidator A w → ValidatorId
  | .v7 old            => old.id
  | .v9 old            => old.id
  | .current validator => validator.id

def subnetId : StoredValidator A w → SubnetId
  | .v7 old            => old.subnetId
  | .v9 old            => old.subnetId
  | .current validator => validator.subnetId

def status : StoredValidator A w → RegistryStatus
  | .v7 old            => old.status
  | .v9 old            => old.status
  | .current validator => validator.status
end StoredValidator

namespace StoredRequest

def writtenAt (v : Nat) : StoredRequest A w → Prop
  | .v8 _      => 7 ≤ v ∧ v < 9
  | .v10 _     => 9 ≤ v ∧ v < 11
  | .v12 _     => 11 ≤ v ∧ v < 13
  | .v13 _     => v = 13
  | .current _ => 14 ≤ v

def bytes [Codec A] : StoredRequest A w → Bytes
  | .v8 old          => encode old
  | .v10 old         => encode old
  | .v12 old         => encode old
  | .v13 old         => encode old
  | .current request => encode request

def requestId : StoredRequest A w → RequestId
  | .v8 old          => old.requestId
  | .v10 old         => old.requestId
  | .v12 old         => old.requestId
  | .v13 old         => old.requestId
  | .current request => request.requestId

def subnetId : StoredRequest A w → SubnetId
  | .v8 old          => old.subnetId
  | .v10 old         => old.subnetId
  | .v12 old         => old.subnetId
  | .v13 old         => old.subnetId
  | .current request => request.subnetId

def status : StoredRequest A w → InferenceRequestStatus
  | .v8 old          => old.status
  | .v10 old         => old.status
  | .v12 old         => old.status
  | .v13 old         => old.status
  | .current request => request.status

/-- The assignment, where the layout stores it in the clear. -/
def assignment : StoredRequest A w → Option (MinerId × ValidatorId)
  | .v8 old  => some (old.minerId, old.validatorId)
  | .v10 old => some (old.minerId, old.validatorId)
  | _        => none

def createdAt : StoredRequest A w → Option BlockNumber
  | .v8 old  => some old.createdAt
  | .v10 old => some old.createdAt
  | .v12 old => some old.createdAt
  | _        => none

def terms : StoredRequest A w → Option (InferenceRequestTerms w)
  | .v8 old    => some ⟨old.payment, old.validatorFeeBps, old.treasuryFeeBps⟩
  | .v10 old   => some ⟨old.payment, old.validatorFeeBps, old.treasuryFeeBps⟩
  | .v12 old   => some ⟨old.payment, old.validatorFeeBps, old.treasuryFeeBps⟩
  | .v13 old   => some ⟨old.payment, old.validatorFeeBps, old.treasuryFeeBps⟩
  | .current _ => none

/-- Commitments the layout already stores. -/
def assignmentCommitment : StoredRequest A w → Option Commitment
  | .v12 old         => some old.assignmentCommitment
  | .v13 old         => some old.assignmentCommitment
  | .current request => some request.assignmentCommitment
  | _                => none

def timingCommitment : StoredRequest A w → Option Commitment
  | .v13 old         => some old.timingCommitment
  | .current request => some request.timingCommitment
  | _                => none

def termsCommitment : StoredRequest A w → Option Commitment
  | .current request => some request.termsCommitment
  | _                => none

/-- The account that opened the request: stored as such, or as a commitment to it. -/
def OwnedBy [Codec A] (cfg : Config A L w) (user : A) : StoredRequest A w → Prop
  | .v8 old          => old.user = user
  | .v10 old         => cfg.requestUserCommitmentMatches old.userCommitment user
  | .v12 old         => cfg.requestUserCommitmentMatches old.userCommitment user
  | .v13 old         => cfg.requestUserCommitmentMatches old.userCommitment user
  | .current request => cfg.requestUserCommitmentMatches request.userCommitment user
end StoredRequest

namespace StoredProof

def writtenAt (v : Nat) : StoredProof → Prop
  | .v11 _     => 5 ≤ v ∧ v < 12
  | .v14 _     => 12 ≤ v ∧ v < 15
  | .current _ => 15 ≤ v

def bytes : StoredProof → Bytes
  | .v11 old        => encode old
  | .v14 old        => encode old
  | .current record => encode record

def requestId : StoredProof → RequestId
  | .v11 old        => old.requestId
  | .v14 old        => old.requestId
  | .current record => record.requestId

def subnetId : StoredProof → SubnetId
  | .v11 old        => old.subnetId
  | .v14 old        => old.subnetId
  | .current record => record.subnetId

def proofSystem : StoredProof → ProofSystem
  | .v11 old        => old.proofSystem
  | .v14 old        => old.proofSystem
  | .current record => record.proofSystem
end StoredProof

/-! ## Contents -/

/-- The records of a storage version, by identifier. -/
structure Content (A : Type) (w : Nat) where
  subnets : SubnetId → Option (StoredSubnet A w)
  miners : MinerId → Option (StoredMiner A w)
  validators : ValidatorId → Option (StoredValidator A w)
  requests : RequestId → Option (StoredRequest A w)
  proofs : RequestId → Option StoredProof

/-- A map at version `v` holds the records, in the layout of that version; `moved` is the version that
    moved its keys. -/
structure MapHolds {κ R : Type} (v moved : Nat) (map : RawMap κ) (records : κ → Option R)
    (bytes : R → Bytes) (writtenAt : Nat → R → Prop) : Prop where
  layout : ∀ k r, records k = some r → writtenAt v r
  stored : ∀ k, (if v < moved then map.legacy k else map.current k) = (records k).map bytes
  unmoved : v < moved → ∀ k, map.current k = none

/-- The storage holds the content, as its version writes it. -/
structure Storage.Holds [Codec A] {cfg : Config A L w} (s : Storage cfg) (content : Content A w) :
    Prop where
  subnets : MapHolds s.version 22 s.subnets content.subnets StoredSubnet.bytes StoredSubnet.writtenAt
  miners : MapHolds s.version 24 s.miners content.miners StoredMiner.bytes StoredMiner.writtenAt
  validators : MapHolds s.version 24 s.validators content.validators StoredValidator.bytes StoredValidator.writtenAt
  requests : MapHolds s.version 25 s.inferenceRequests content.requests StoredRequest.bytes StoredRequest.writtenAt
  proofs : MapHolds s.version 25 s.proofRecords content.proofs StoredProof.bytes StoredProof.writtenAt

/-! ### Every content is held by some storage -/

/-- A map that holds given records at version `v`. -/
def keyedMap {κ R : Type} (v moved : Nat) (records : κ → Option R) (bytes : R → Bytes) : RawMap κ where
  legacy k := if v < moved then (records k).map bytes else none
  current k := if v < moved then none else (records k).map bytes

theorem MapHolds.of_keyedMap {κ R : Type} {v : Nat} (moved : Nat) {records : κ → Option R} (bytes : R → Bytes)
    {writtenAt : Nat → R → Prop} (h : ∀ k r, records k = some r → writtenAt v r) :
    MapHolds v moved (keyedMap v moved records bytes) records bytes writtenAt where
  layout := h
  stored k := by
    by_cases hv : v < moved
    · simp [keyedMap, hv]
    · simp [keyedMap, hv]
  unmoved hv k := by simp [keyedMap, hv]

namespace Content
variable (content : Content A w)

/-- The content is in the layouts of version `v`. -/
structure WrittenAt (v : Nat) : Prop where
  subnets : ∀ id r, content.subnets id = some r → r.writtenAt v
  miners : ∀ id r, content.miners id = some r → r.writtenAt v
  validators : ∀ id r, content.validators id = some r → r.writtenAt v
  requests : ∀ id r, content.requests id = some r → r.writtenAt v
  proofs : ∀ id r, content.proofs id = some r → r.writtenAt v

/-- A storage of version `v` with the content in place of the records of `s`. -/
def storeInto [Codec A] {cfg : Config A L w} (v : Nat) (s : Storage cfg) : Storage cfg :=
  { s with
    version := v
    subnets := keyedMap v 22 content.subnets StoredSubnet.bytes
    miners := keyedMap v 24 content.miners StoredMiner.bytes
    validators := keyedMap v 24 content.validators StoredValidator.bytes
    inferenceRequests := keyedMap v 25 content.requests StoredRequest.bytes
    proofRecords := keyedMap v 25 content.proofs StoredProof.bytes }

variable {v : Nat}

theorem holds_storeInto [Codec A] {cfg : Config A L w} (h : content.WrittenAt v) (s : Storage cfg) :
    (content.storeInto v s).Holds content where
  subnets := .of_keyedMap 22 _ h.subnets
  miners := .of_keyedMap 24 _ h.miners
  validators := .of_keyedMap 24 _ h.validators
  requests := .of_keyedMap 25 _ h.requests
  proofs := .of_keyedMap 25 _ h.proofs

/-- What the dispatchables leave in storage, as a content. -/
def ofState (state : State L w) : Content A w where
  subnets id := (state.registry.subnets id).map .current
  miners id := (state.registry.miners id).map .current
  validators id := (state.registry.validators id).map .current
  requests id := (state.requests.inferenceRequests id).map .current
  proofs id := (state.requests.proofRecords id).map .current

theorem ofState_writtenAt (h : 16 ≤ v) (state : State L w) : (ofState state : Content A w).WrittenAt v := by
  constructor <;> intro id r hr <;> obtain ⟨record, -, rfl⟩ := Option.map_eq_some_iff.mp hr
  · exact h
  · exact show 10 ≤ v by omega
  · exact show 10 ≤ v by omega
  · exact show 14 ≤ v by omega
  · exact show 15 ≤ v by omega

/-- The number of `Active` miners of a subnet that come before a miner when the routing indexes are rebuilt: those with
    open requests, and those with a smaller id. -/
def minersBefore (minerCount : MinerId) (subnetId : SubnetId) (pending : MinerId → RequestId) (id : MinerId) : Nat :=
  (idsBelow minerCount).countP fun x =>
    ((content.miners x).any fun r => r.subnetId = subnetId && r.status = .active) && (0 < pending x || x < id)

def validatorsBefore (validatorCount : ValidatorId) (subnetId : SubnetId) (pending : ValidatorId → RequestId)
    (id : ValidatorId) : Nat :=
  (idsBelow validatorCount).countP fun x =>
    ((content.validators x).any fun r => r.subnetId = subnetId && r.status = .active) && (0 < pending x || x < id)

/-- The number of `Pending` requests with a clear assignment of a given kind. -/
def pendingRequests (requestCount : RequestId) (p : MinerId × ValidatorId → Bool) : Nat :=
  (idsBelow requestCount).countP fun id =>
    (content.requests id).any fun r => r.status = .pending && r.assignment.any p
end Content

/-! ## What an upgrade owes to a content -/

section Preserved
variable [Codec A]

/-- A stored request as today's runtime reads it: same identity, still opened by the zero-blinding
    witnesses of the fields it stored in the clear, and by the account that opened it. -/
structure RequestKept (cfg : Config A L w) (r : StoredRequest A w) (request : ChainInferenceRequest) :
    Prop where
  requestId : request.requestId = r.requestId
  subnetId : request.subnetId = r.subnetId
  status : request.status = r.status
  assignment : ∀ minerId validatorId, r.assignment = some (minerId, validatorId) →
    ensureRequestAssignmentWitness cfg request minerId validatorId zeroCommitment = .ok ()
  timing : ∀ createdAt, r.createdAt = some createdAt →
    ensureRequestTimingWitness cfg request ⟨createdAt, zeroCommitment⟩ = .ok ()
  /-- A terms witness is never accepted for an empty payment or an impossible fee split. -/
  terms : ∀ terms, r.terms = some terms →
    (ensureRequestTermsWitness cfg request ⟨terms, zeroCommitment⟩ = .ok () ↔
      0 < terms.payment ∧ terms.validatorFeeBps.toNat + terms.treasuryFeeBps.toNat ≤ bpsDenominator.toNat)
  owner : ∀ user, r.OwnedBy cfg user → ensureRequestUser cfg request user = .ok ()
  assignmentCommitment : ∀ c, r.assignmentCommitment = some c → request.assignmentCommitment = c
  timingCommitment : ∀ c, r.timingCommitment = some c → request.timingCommitment = c
  termsCommitment : ∀ c, r.termsCommitment = some c → request.termsCommitment = c

/-- A participant's status is kept, or it was `Active` without open requests, those that come before it leave no room in
    the routing index, and it is now exiting. -/
def StatusKept (before after : RegistryStatus) (exitAvailableAt : BlockNumber) (pending : RequestId)
    (noRoom : Prop) : Prop :=
  after = before ∨ before = .active ∧ after = .exiting exitAvailableAt ∧ pending = 0 ∧ noRoom

/-- **An upgrade loses nothing.** `s` holds the content before it, `t` is the storage after it. -/
structure Preserved {cfg : Config A L w} (content : Content A w) (currentBlock : BlockNumber)
    (s t : Storage cfg) : Prop where
  subnets : ∀ id r, id < s.subnetCount → content.subnets id = some r →
    ∃ subnet, t.registry.subnets id = some subnet ∧ subnet.id = r.id ∧ subnet.domain = r.domain ∧
      subnet.proofSystem = r.proofSystem ∧ subnet.active = r.active
  miners : ∀ id r, id < s.minerCount → content.miners id = some r →
    ∃ miner, t.registry.miners id = some miner ∧ miner.id = r.id ∧ miner.subnetId = r.subnetId ∧
      miner.proofSystem = r.proofSystem ∧
      StatusKept r.status miner.status (Checked.saturatingAdd64 currentBlock cfg.minerExitCooldownBlocks)
        (t.book.pendingMiner id)
        (r.subnetId < s.subnetCount → cfg.maxActiveMinersPerSubnet.toNat ≤
          content.minersBefore s.minerCount r.subnetId t.book.pendingMiner id)
  validators : ∀ id r, id < s.validatorCount → content.validators id = some r →
    ∃ validator, t.registry.validators id = some validator ∧ validator.id = r.id ∧
      validator.subnetId = r.subnetId ∧
      StatusKept r.status validator.status
        (Checked.saturatingAdd64 currentBlock cfg.validatorExitCooldownBlocks)
        (t.book.pendingValidator id)
        (r.subnetId < s.subnetCount → cfg.maxActiveValidatorsPerSubnet.toNat ≤
          content.validatorsBefore s.validatorCount r.subnetId t.book.pendingValidator id)
  requests : ∀ id r, id < s.requestCount → content.requests id = some r →
    ∃ request, t.book.inferenceRequests id = some request ∧ RequestKept cfg r request
  proofs : ∀ id r, id < s.requestCount → content.proofs id = some r →
    ∃ record, t.book.proofRecords id = some record ∧ record.requestId = r.requestId ∧
      record.subnetId = r.subnetId ∧ record.proofSystem = r.proofSystem
  pendingMiners : s.version < 11 → ∀ id, id < s.minerCount → (content.miners id).isSome →
    (t.book.pendingMiner id).toNat = content.pendingRequests s.requestCount fun a => a.1 = id
  /-- The validator of a request is counted after its miner; the miner must be on record, so that the
      count of its requests starts at zero. -/
  pendingValidators : s.version < 11 → ∀ id, id < s.validatorCount → (content.validators id).isSome →
    (∀ requestId r minerId, requestId < s.requestCount → content.requests requestId = some r →
      r.status = .pending → r.assignment = some (minerId, id) →
        minerId < s.minerCount ∧ (content.miners minerId).isSome) →
    (t.book.pendingValidator id).toNat = content.pendingRequests s.requestCount fun a => a.2 = id
end Preserved
end Qubitum
