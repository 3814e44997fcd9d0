import Qubitum.Migration.Storage

/-!
# `Migration.Upgrade` — `on_runtime_upgrade`

The version-guarded migration steps, in the order the hook runs them. A step takes the storage version
found on chain (`onChain`) and either returns the storage as it is or rewrites the maps it is about.

Three kinds of steps:
- **key moves** take the bytes of a map from its `Twox64Concat` keys to its current ones;
- **re-encodings** turn the records of one old layout into current records, in place; a record whose bytes
  do not decode is skipped;
- **rebuilds** recompute derived data (routing indexes, status counters) and run at every upgrade.

Weights are not modelled.
-/

namespace Qubitum
open Scale Raw Dense Outcome Function RawMap

variable {A L : Type} {w : Nat} {cfg : Config A L w} (onChain : Nat) (s : Storage cfg)

namespace Storage

/-! ## Key moves -/

def migrateSubnetStorageKeys : Storage cfg :=
  if 22 ≤ onChain then s
  else { s with subnets := forEach (idsBelow16 s.subnetCount) moveKey s.subnets }

def migrateRegistryStorageKeys : Storage cfg :=
  if 24 ≤ onChain then s
  else
    { s with
      miners := forEach (idsBelow s.minerCount) moveKey s.miners
      validators := forEach (idsBelow s.validatorCount) moveKey s.validators }

-- The source moves request and proof of one identifier in the same round; they are different maps.
def migrateRequestAndProofStorageKeys : Storage cfg :=
  if 25 ≤ onChain then s
  else
    { s with
      inferenceRequests := forEach (idsBelow s.requestCount) moveKey s.inferenceRequests
      proofRecords := forEach (idsBelow s.requestCount) moveKey s.proofRecords }
end Storage

/-- One participant's identity maps, each entry on its own: an entry that does not decode stays behind. -/
def RawIdentity.moveKeys (id : UInt64) (raw : RawIdentity) : RawIdentity where
  commitments := raw.commitments.moveDecoded ChainIdentityCommitments id
  signatureBundles := raw.signatureBundles.moveDecoded SignatureBundle id
  signatureChallenges := raw.signatureChallenges.moveDecoded Commitment id

namespace Storage

def migrateIdentityStorageKeys : Storage cfg :=
  if 21 ≤ onChain then s
  else
    { s with
      minerIdentity := forEach ((minerRecords s.registry).map Prod.fst) RawIdentity.moveKeys s.minerIdentity
      validatorIdentity :=
        forEach ((validatorRecords s.registry).map Prod.fst) RawIdentity.moveKeys s.validatorIdentity }

def migrateCapitalRecordStorageKeys : Storage cfg :=
  if 20 ≤ onChain then s
  else
    { s with
      minerLockedBond := forEach ((minerRecords s.registry).map Prod.fst) (moveDecoded (BitVec w)) s.minerLockedBond
      validatorLockedStake :=
        forEach ((validatorRecords s.registry).map Prod.fst) (moveDecoded (BitVec w)) s.validatorLockedStake }

/-! ## Totals -/

def migrateInferenceAccountingTotals : Storage cfg :=
  if 26 ≤ onChain then s else { s with totals := s.totals.clearInference }

def migrateBurnedTotal : Storage cfg :=
  if 27 ≤ onChain then s else { s with totals := { s.totals with burned := 0 } }

/-! ## Subnets and participants -/

section Accounts
variable [Codec A]

def migrateOperatorCommitments (onChain : Nat) (s : Storage cfg) : Storage cfg :=
  if onChain ≠ 7 then s
  else
    { s with
      miners := forEach (idsBelow s.minerCount) (translate (ChainMinerV7.migrate cfg)) s.miners
      validators := forEach (idsBelow s.validatorCount) (translate (ChainValidatorV7.migrate cfg)) s.validators }

def migrateSubnetPolicyCommitments (onChain : Nat) (s : Storage cfg) : Storage cfg :=
  if 16 ≤ onChain then s
  else
    { s with
      subnets := forEach (idsBelow16 s.subnetCount) (translate (ChainSubnetV15.migrate cfg)) s.subnets }
end Accounts

def migrateParticipantCapitalCommitments : Storage cfg :=
  if onChain < 8 ∨ 10 ≤ onChain then s
  else
    { s with
      miners := forEach (idsBelow s.minerCount) (translate (ChainMinerV9.migrate cfg)) s.miners
      validators := forEach (idsBelow s.validatorCount) (translate (ChainValidatorV9.migrate cfg)) s.validators }
end Storage

/-! ## Requests -/

/-- What a request migration adds up. The sums are dropped at its end; only the failures are stored. -/
structure ChainAccounting (w : Nat) where
  totalInferenceEscrowed : BitVec w
  totalMinerPayouts : BitVec w
  totalValidatorFees : BitVec w
  totalTreasuryFees : BitVec w
  totalInferenceRefunded : BitVec w
  deriving DecidableEq

def ChainAccounting.zero : ChainAccounting w := ⟨0, 0, 0, 0, 0⟩

def checkedAccountingAdd (total amount : BitVec w) : Except DispatchError (BitVec w) :=
  okOr (Checked.add total amount) (.module .arithmeticOverflow)

def ChainAccounting.recordLegacyRequest (accounting : ChainAccounting w)
    (terms : InferenceRequestTerms w) (status : InferenceRequestStatus) : Except DispatchError (ChainAccounting w) := do
  let escrowed ← checkedAccountingAdd accounting.totalInferenceEscrowed terms.payment
  let next := { accounting with totalInferenceEscrowed := escrowed }
  match status with
  | .settled => do
      let (minerPayment, validatorFee, treasuryFee) ←
        paymentSplit terms.payment terms.validatorFeeBps terms.treasuryFeeBps
      let payouts ← checkedAccountingAdd next.totalMinerPayouts minerPayment
      let validatorFees ← checkedAccountingAdd next.totalValidatorFees validatorFee
      let treasuryFees ← checkedAccountingAdd next.totalTreasuryFees treasuryFee
      pure { next with
        totalMinerPayouts := payouts
        totalValidatorFees := validatorFees
        totalTreasuryFees := treasuryFees }
  | .cancelled | .rejected | .expired => do
      let refunded ← checkedAccountingAdd next.totalInferenceRefunded terms.payment
      pure { next with totalInferenceRefunded := refunded }
  | .pending => pure next

namespace PendingCounters

/-- The counters of the participants with a readable record are removed. -/
def clear (miners validators : List UInt64) (pending : PendingCounters) : PendingCounters where
  miners := forEach miners (fun id counts => update counts id none) pending.miners
  validators := forEach validators (fun id counts => update counts id none) pending.validators

/-- `let _ = increment_pending_assignment(..)`: an overflow is ignored, and what was counted before it
    stays counted. -/
def increment (pending : PendingCounters) (minerId : MinerId) (validatorId : ValidatorId) : PendingCounters :=
  match incrementPending pending.miners minerId with
  | .error _ => pending
  | .ok miners =>
      match incrementPending pending.validators validatorId with
      | .error _ => { pending with miners }
      | .ok validators => { miners, validators }
end PendingCounters

/-- The variables of a request migration. -/
structure RequestMigration (w : Nat) where
  requests : RawMap RequestId
  pending : PendingCounters
  accounting : ChainAccounting w
  failures : UInt32

/-- What a request migration needs to know of an old layout: its terms and status, the assignment if it is
    stored in the clear (only then is it counted), and the current record. -/
structure RequestLayout (Old : Type) (w : Nat) where
  terms : Old → InferenceRequestTerms w
  status : Old → InferenceRequestStatus
  assignment : Old → Option (MinerId × ValidatorId)
  migrate : Old → ChainInferenceRequest

namespace RequestMigration
variable {Old : Type}

/-- `if record_legacy_request_accounting(..).is_err() { note_legacy_accounting_failure(..) }` -/
def recordAccounting (loop : RequestMigration w) (terms : InferenceRequestTerms w)
    (status : InferenceRequestStatus) : RequestMigration w :=
  match loop.accounting.recordLegacyRequest terms status with
  | .ok accounting => { loop with accounting }
  | .error _       => { loop with failures := Checked.saturatingAdd32 loop.failures 1 }

def recordPending (loop : RequestMigration w) (assignment : Option (MinerId × ValidatorId))
    (status : InferenceRequestStatus) : RequestMigration w :=
  match assignment with
  | some (minerId, validatorId) =>
      if status = .pending then { loop with pending := loop.pending.increment minerId validatorId }
      else loop
  | none => loop

/-- One round of a request migration. -/
def round [Codec Old] (layout : RequestLayout Old w) (requestId : RequestId) (loop : RequestMigration w) :
    RequestMigration w :=
  match loop.requests.get (R := Old) requestId with
  | none => loop
  | some old =>
      let loop := loop.recordAccounting (layout.terms old) (layout.status old)
      let loop := loop.recordPending (layout.assignment old) (layout.status old)
      { loop with requests := loop.requests.insert requestId (layout.migrate old) }

/-- The loop over all requests. -/
def run [Codec Old] (layout : RequestLayout Old w) (requestCount : RequestId) (requests : RawMap RequestId)
    (pending : PendingCounters) : RequestMigration w :=
  forEach (idsBelow requestCount) (round layout) { requests, pending, accounting := .zero, failures := 0 }
end RequestMigration

section RequestLayouts
variable (cfg : Config A L w)

def requestLayoutV8 [Codec A] : RequestLayout (ChainInferenceRequestV8 A w) w where
  terms old := ⟨old.payment, old.validatorFeeBps, old.treasuryFeeBps⟩
  status old := old.status
  assignment old := some (old.minerId, old.validatorId)
  migrate := ChainInferenceRequestV8.migrate cfg

def requestLayoutV10 : RequestLayout (ChainInferenceRequestV10 w) w where
  terms old := ⟨old.payment, old.validatorFeeBps, old.treasuryFeeBps⟩
  status old := old.status
  assignment old := some (old.minerId, old.validatorId)
  migrate := ChainInferenceRequestV10.migrate cfg

def requestLayoutV12 : RequestLayout (ChainInferenceRequestV12 w) w where
  terms old := ⟨old.payment, old.validatorFeeBps, old.treasuryFeeBps⟩
  status old := old.status
  assignment _ := none
  migrate := ChainInferenceRequestV12.migrate cfg

def requestLayoutV13 : RequestLayout (ChainInferenceRequestV13 w) w where
  terms old := ⟨old.payment, old.validatorFeeBps, old.treasuryFeeBps⟩
  status old := old.status
  assignment _ := none
  migrate := ChainInferenceRequestV13.migrate cfg
end RequestLayouts

namespace Storage

def clearPendingAssignmentCounters (s : Storage cfg) : PendingCounters :=
  s.pending.clear ((minerRecords s.registry).map Prod.fst) ((validatorRecords s.registry).map Prod.fst)

/-- The loop of a request migration, and `put_inference_accounting`. -/
def migrateRequests {Old : Type} [Codec Old] (layout : RequestLayout Old w) (pending : PendingCounters)
    (s : Storage cfg) : Storage cfg :=
  let done := RequestMigration.run layout s.requestCount s.inferenceRequests pending
  { s with
    inferenceRequests := done.requests
    pending := done.pending
    totals := s.totals.clearInference
    failures := { s.failures with accounting := done.failures } }

def migrateRequestAssignmentCommitments : Storage cfg :=
  if onChain < 9 ∨ 11 ≤ onChain then s
  else s.migrateRequests (requestLayoutV10 cfg) s.clearPendingAssignmentCounters

def migrateRequestOwnerCommitments [Codec A] (onChain : Nat) (s : Storage cfg) : Storage cfg :=
  if onChain < 7 ∨ 9 ≤ onChain then s
  else s.migrateRequests (requestLayoutV8 cfg) s.clearPendingAssignmentCounters

def migrateRequestTimingCommitments : Storage cfg :=
  if onChain < 11 ∨ 13 ≤ onChain then s else s.migrateRequests (requestLayoutV12 cfg) s.pending

def migrateRequestTermsCommitments : Storage cfg :=
  if onChain < 13 ∨ 14 ≤ onChain then s else s.migrateRequests (requestLayoutV13 cfg) s.pending

/-! ## Identity challenges -/
end Storage

/-- A participant with a signature bundle and commitments gets the challenge they determine. -/
def RawIdentity.putChallenge (challenge : Option Commitment → Option Commitment → Commitment) (id : UInt64)
    (raw : RawIdentity) : RawIdentity :=
  -- `contains_key` looks at the key only, whether or not the bundle decodes
  if (raw.signatureBundles.current id).isSome then
    match raw.commitments.get (R := ChainIdentityCommitments) id with
    | some commitments =>
        { raw with
          signatureChallenges := raw.signatureChallenges.insert id
            (challenge commitments.shieldedIdentityCommitment commitments.endpointCommitment) }
    | none => raw
  else raw

namespace Storage

def migrateIdentitySignatureChallenges : Storage cfg :=
  if 17 ≤ onChain then s
  else
    { s with
      minerIdentity := forEach (minerRecords s.registry)
        (fun (minerId, miner) =>
          RawIdentity.putChallenge (cfg.minerIdentitySignatureChallenge minerId miner.operatorCommitment) minerId)
        s.minerIdentity
      validatorIdentity := forEach (validatorRecords s.registry)
        (fun (validatorId, validator) =>
          RawIdentity.putChallenge
            (cfg.validatorIdentitySignatureChallenge validatorId validator.operatorCommitment) validatorId)
        s.validatorIdentity }

/-! ## Routing indexes -/

def clearActiveRoutingIndexStoragePrefixes (s : Storage cfg) : Storage cfg :=
  { s with activeMinersBySubnet := fun _ => .empty, activeValidatorsBySubnet := fun _ => .empty }

def migrateActiveRoutingIndexKeys : Storage cfg :=
  if 19 ≤ onChain then s else s.clearActiveRoutingIndexStoragePrefixes

def migrateActiveRoutingIndexValues : Storage cfg :=
  if 23 ≤ onChain then s else s.clearActiveRoutingIndexStoragePrefixes
end Storage

/-- The variables of an index rebuild: the index, and the participants it had no room for. -/
structure IndexRebuild (max : UInt32) where
  index : SubnetId → BoundedVec max
  overflow : List UInt64

namespace IndexRebuild

/-- One round: index a participant on its subnet (`try_mutate`: an error leaves the entry unchanged). -/
def round {max : UInt32} (error : Error) (candidate : UInt64 × SubnetId) (loop : IndexRebuild max) : IndexRebuild max :=
  match (loop.index candidate.2).insertSorted error candidate.1 with
  | .ok (_, vec) => { loop with index := update loop.index candidate.2 vec }
  | .error _     => { loop with overflow := loop.overflow ++ [candidate.1] }

/-- `remove` the entry of every counted subnet. -/
def clear {max : UInt32} (subnetCount : SubnetId) (index : SubnetId → BoundedVec max) : SubnetId → BoundedVec max :=
  forEach (idsBelow16 subnetCount) (fun id index => update index id .empty) index

/-- Clear the index, then index the candidates. -/
def run {max : UInt32} (error : Error) (subnetCount : SubnetId) (candidates : List (UInt64 × SubnetId))
    (index : SubnetId → BoundedVec max) : IndexRebuild max :=
  forEach candidates (round error) { index := clear subnetCount index, overflow := [] }
end IndexRebuild

/-- Participants with open requests come first. -/
def pendingFirst (pending : UInt64 → Option RequestId) (eligible : List (UInt64 × SubnetId)) :
    List (UInt64 × SubnetId) :=
  (eligible.filter fun (id, _) => 0 < (pending id).getD 0) ++ eligible.filter fun (id, _) => ¬ 0 < (pending id).getD 0

namespace Storage

/-- The miners the rebuild indexes: `Active`, bonded and with a bound signature bundle. -/
def minerCandidates (s : Storage cfg) : List (MinerId × SubnetId) :=
  pendingFirst s.pending.miners
    (((minerRecords s.registry).filter fun (minerId, miner) =>
        minerIsRouteEligible cfg s.registry minerId miner).map fun (minerId, miner) =>
      (minerId, miner.subnetId))

def validatorCandidates (s : Storage cfg) : List (ValidatorId × SubnetId) :=
  pendingFirst s.pending.validators
    (((validatorRecords s.registry).filter fun (validatorId, validator) =>
        validatorIsRouteEligible cfg s.registry validatorId validator).map fun (validatorId, validator) =>
      (validatorId, validator.subnetId))

/-- An `Active` miner without open requests starts its exit. -/
def demoteMiner (cfg : Config A L w) (pending : MinerId → Option RequestId) (exitAvailableAt : BlockNumber)
    (minerId : MinerId) (miner : ChainMiner) : ChainMiner :=
  if miner.status = .active ∧ (pending minerId).getD 0 = 0 then
    let status := .exiting exitAvailableAt
    { miner with status, bondCommitment := cfg.minerBondCommitment minerId miner.operatorCommitment status }
  else miner

def demoteValidator (cfg : Config A L w) (pending : ValidatorId → Option RequestId)
    (exitAvailableAt : BlockNumber) (validatorId : ValidatorId) (validator : ChainValidator) : ChainValidator :=
  if validator.status = .active ∧ (pending validatorId).getD 0 = 0 then
    let status := .exiting exitAvailableAt
    { validator with
      status, stakeCommitment := cfg.validatorStakeCommitment validatorId validator.operatorCommitment status }
  else validator

def minerRebuild (s : Storage cfg) : IndexRebuild cfg.maxActiveMinersPerSubnet :=
  .run .tooManyActiveMiners s.subnetCount s.minerCandidates s.activeMinersBySubnet

def validatorRebuild (s : Storage cfg) : IndexRebuild cfg.maxActiveValidatorsPerSubnet :=
  .run .tooManyActiveValidators s.subnetCount s.validatorCandidates s.activeValidatorsBySubnet

def rebuildActiveRoutingIndexes (currentBlock : BlockNumber) (s : Storage cfg) : Storage cfg :=
  let minerExitAvailableAt := Checked.saturatingAdd64 currentBlock cfg.minerExitCooldownBlocks
  let validatorExitAvailableAt := Checked.saturatingAdd64 currentBlock cfg.validatorExitCooldownBlocks
  { s with
    activeMinersBySubnet := s.minerRebuild.index
    activeValidatorsBySubnet := s.validatorRebuild.index
    miners := forEach s.minerRebuild.overflow
      (fun minerId miners => miners.mutate minerId
        (Option.map (demoteMiner cfg s.pending.miners minerExitAvailableAt minerId)))
      s.miners
    validators := forEach s.validatorRebuild.overflow
      (fun validatorId validators => validators.mutate validatorId
        (Option.map (demoteValidator cfg s.pending.validators validatorExitAvailableAt validatorId)))
      s.validators
    failures := { s.failures with
      routingIndex := saturatingCount (s.minerRebuild.overflow ++ s.validatorRebuild.overflow) } }

/-! ## Records without capital, status counters, proofs -/

def migrateParticipantCapitalRecords : Storage cfg :=
  if 18 ≤ onChain then s
  else
    let miners := (minerRecords s.registry).filter fun (minerId, miner) =>
      minerCapitalBearingStatus miner.status && (s.minerLockedBond.current minerId).isNone
    let validators := (validatorRecords s.registry).filter fun (validatorId, validator) =>
      validatorCapitalBearingStatus validator.status && (s.validatorLockedStake.current validatorId).isNone
    { s with failures := { s.failures with
        capitalRecord := saturatingCount (miners.map Prod.fst ++ validators.map Prod.fst) } }
end Storage

/-- Count one request under its status; a counter saturates. -/
def RequestStatusCounts.count (counts : RequestStatusCounts) : InferenceRequestStatus → RequestStatusCounts
  | .pending   => { counts with pending := Checked.saturatingAdd64 counts.pending 1 }
  | .settled   => { counts with settled := Checked.saturatingAdd64 counts.settled 1 }
  | .cancelled => { counts with cancelled := Checked.saturatingAdd64 counts.cancelled 1 }
  | .rejected  => { counts with rejected := Checked.saturatingAdd64 counts.rejected 1 }
  | .expired   => { counts with expired := Checked.saturatingAdd64 counts.expired 1 }

namespace Storage

def rebuildRequestStatusCounts (s : Storage cfg) : Storage cfg :=
  { s with
    statusCounts := forEach s.requestRecords (fun (_, request) counts => counts.count request.status) ⟨0, 0, 0, 0, 0⟩ }

def migrateProofRecordTimestamps : Storage cfg :=
  if 5 ≤ onChain then s
  else
    { s with
      proofRecords := forEach (idsBelow s.requestCount) (translate (ChainProofRecordV4.migrate cfg)) s.proofRecords }

def migrateProofRecordAssignmentCommitments : Storage cfg :=
  if onChain < 5 ∨ 12 ≤ onChain then s
  else
    { s with
      proofRecords := forEach (idsBelow s.requestCount) (translate (ChainProofRecordV11.migrate cfg)) s.proofRecords }

def migrateProofRecordAuditCommitments : Storage cfg :=
  if onChain < 12 ∨ 15 ≤ onChain then s
  else
    { s with
      proofRecords := forEach (idsBelow s.requestCount) (translate (ChainProofRecordV14.migrate cfg)) s.proofRecords }

/-! ## The hook -/

/-- The first steps: keys of subnets, participants, requests and proofs, totals, then the records of subnets
    and participants. -/
def registrySteps [Codec A] (onChain : Nat) (s : Storage cfg) : Storage cfg :=
  s |>.migrateSubnetStorageKeys onChain
    |>.migrateRegistryStorageKeys onChain
    |>.migrateRequestAndProofStorageKeys onChain
    |>.migrateInferenceAccountingTotals onChain
    |>.migrateBurnedTotal onChain
    |>.migrateOperatorCommitments onChain
    |>.migrateSubnetPolicyCommitments onChain
    |>.migrateParticipantCapitalCommitments onChain

/-- Then the requests. -/
def requestSteps [Codec A] (onChain : Nat) (s : Storage cfg) : Storage cfg :=
  s |>.migrateRequestAssignmentCommitments onChain
    |>.migrateRequestOwnerCommitments onChain
    |>.migrateRequestTimingCommitments onChain
    |>.migrateRequestTermsCommitments onChain

/-- Then what the rebuild of the routing indexes reads besides. -/
def routingSteps : Storage cfg :=
  s |>.migrateIdentityStorageKeys onChain
    |>.migrateIdentitySignatureChallenges onChain
    |>.migrateActiveRoutingIndexKeys onChain
    |>.migrateCapitalRecordStorageKeys onChain

/-- All steps before the routing indexes are rebuilt. -/
def beforeRebuild [Codec A] (onChain : Nat) (s : Storage cfg) : Storage cfg :=
  ((s.registrySteps onChain).requestSteps onChain).routingSteps onChain

/-- The steps after it. -/
def afterRebuild : Storage cfg :=
  s |>.migrateActiveRoutingIndexValues onChain
    |>.migrateParticipantCapitalRecords onChain
    |>.rebuildRequestStatusCounts
    |>.migrateProofRecordTimestamps onChain
    |>.migrateProofRecordAssignmentCommitments onChain
    |>.migrateProofRecordAuditCommitments onChain

/-- `on_runtime_upgrade`, at a given block. -/
def onRuntimeUpgrade [Codec A] (currentBlock : BlockNumber) (s : Storage cfg) : Storage cfg :=
  if 27 ≤ s.version then s
  else
    let upgraded := (s.beforeRebuild s.version).rebuildActiveRoutingIndexes currentBlock
    { upgraded.afterRebuild s.version with version := 27 }
end Storage
end Qubitum
