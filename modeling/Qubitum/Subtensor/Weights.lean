import Qubitum.Subtensor.State

/-!
# `Subtensor.Weights` — committing to weights and revealing them

A model of `weights.rs`. A hotkey commits to the hash of weights and reveals the weights a fixed number of epochs
later. Its commits wait in a queue, one for each mechanism of a subnet; expired ones leave at the front. A reveal sets
the weights with `internal_set_weights`, all of whose checks are here.

Tempo and reveal period are constant; `WeightsEnv` is what a call reads of the rest of the pallet and may be another
one for every call. Block numbers are natural numbers: a sum saturates at `u64::MAX`, which no block number comes
near. A call that fails leaves the storage as it was.
-/

namespace Qubitum.Subtensor
open Outcome Function

/-- `MechId`; `MechId::MAIN` is 0. -/
abbrev MechId := UInt8

abbrev MechId.main : MechId := 0

/-- `NetUidStorageIndex` -/
abbrev MechanismIndex := UInt16

/-- `get_mechanism_storage_index`, with `GLOBAL_MAX_SUBNET_COUNT` 4096 and saturating arithmetic. -/
def getMechanismStorageIndex (netuid : NetUid) (mecid : MechId) : MechanismIndex :=
  UInt16.ofNat (min (min (mecid.toNat * 4096) 65535 + netuid.toNat) 65535)

/-- The data a hotkey commits to and reveals. -/
structure WeightsData where
  uids : List UInt16
  values : List UInt16
  salt : List UInt16
  versionKey : UInt64
  deriving DecidableEq

/-- An entry of a queue of `WeightCommits`. -/
structure Commit (H : Type) where
  hash : H
  commitBlock : Nat
  firstRevealBlock : Nat
  lastRevealBlock : Nat
  deriving DecidableEq

/-- `vec_u16_max_upscale_to_u16`. The entries are `I32F32`: a quotient is rounded down to 32 bits after the point and
    the result to the nearest integer. -/
def vecU16MaxUpscaleToU16 (vec : List UInt16) : List UInt16 :=
  let val := vec.foldl (fun val e => max val e.toNat) 0
  let upscale (e : Nat) : Nat :=
    -- where the largest entry is 0, so are all
    if val = 0 then 0
    else if 32768 < val then e * (65535 * 2 ^ 32 / val)
    else e * 65535 * 2 ^ 32 / val
  vec.map fun e => UInt16.ofNat (min ((upscale e.toNat + 2 ^ 31) / 2 ^ 32) 65535)

structure WeightsConfig (A H : Type) where
  /-- `get_commit_hash`. A `NetUid` and a `NetUidStorageIndex` with the same number have the same encoding. -/
  commitHash : A × MechanismIndex × WeightsData → H
  tempo : NetUid → UInt16
  revealPeriodEpochs : NetUid → Nat
  /-- `check_vec_max_limited` -/
  checkVecMaxLimited : List UInt16 → UInt16 → Bool

structure WeightsEnv (A : Type) where
  neurons : Neurons A
  networksAdded : NetUid → Bool
  mechanismCountCurrent : NetUid → MechId
  commitRevealWeightsEnabled : NetUid → Bool
  /-- Does the stake weight of the hotkey reach the stake threshold? -/
  stakeReachesThreshold : NetUid → A → Bool
  weightsVersionKey : NetUid → UInt64
  weightsSetRateLimit : NetUid → Nat
  validatorPermit : NetUid → List Bool
  minAllowedWeights : NetUid → UInt16

structure WeightsState (A H : Type) where
  block : Nat
  weightCommits : MechanismIndex → A → Option (List (Commit H))
  lastUpdate : MechanismIndex → List Nat
  weights : MechanismIndex → UInt16 → List (UInt16 × UInt16)

variable {A H : Type} [DecidableEq A] [DecidableEq H]

/-! ## Epochs -/

section Epochs
variable (cfg : WeightsConfig A H) (netuid : NetUid)

/-- `get_epoch_index` -/
def getEpochIndex (block : Nat) : Nat := (block + (netuid.toNat + 1)) / ((cfg.tempo netuid).toNat + 1)

/-- `is_reveal_block_range` -/
def isRevealBlockRange (block commitBlock : Nat) : Bool :=
  getEpochIndex cfg netuid block = getEpochIndex cfg netuid commitBlock + cfg.revealPeriodEpochs netuid

/-- `is_commit_expired` -/
def isCommitExpired (block commitBlock : Nat) : Bool :=
  getEpochIndex cfg netuid commitBlock + cfg.revealPeriodEpochs netuid < getEpochIndex cfg netuid block

/-- `get_reveal_blocks` -/
def getRevealBlocks (commitBlock : Nat) : Nat × Nat :=
  let revealEpoch := getEpochIndex cfg netuid commitBlock + cfg.revealPeriodEpochs netuid
  let firstRevealBlock := revealEpoch * ((cfg.tempo netuid).toNat + 1) - (netuid.toNat + 1)
  (firstRevealBlock, firstRevealBlock + (cfg.tempo netuid).toNat)

/-- What `internal_commit_weights` puts into the queue. -/
def newCommit (block : Nat) (hash : H) : Commit H :=
  let (firstRevealBlock, lastRevealBlock) := getRevealBlocks cfg netuid block
  ⟨hash, block, firstRevealBlock, lastRevealBlock⟩

/-- The queue without the expired commits at its front. -/
def unexpired (block : Nat) (commits : List (Commit H)) : List (Commit H) :=
  commits.dropWhile (isCommitExpired cfg netuid block ·.commitBlock)

def expiredHashes (block : Nat) (commits : List (Commit H)) : List H :=
  (commits.takeWhile (isCommitExpired cfg netuid block ·.commitBlock)).map (·.hash)
end Epochs

/-! ## Setting weights -/

/-- `is_self_weight` -/
def isSelfWeight (uid : UInt16) (uids weights : List UInt16) : Bool := weights.length = 1 && uids.head? = some uid

/-- `get_max_weight_limit` -/
def getMaxWeightLimit : UInt16 := 65535

/-- `max_weight_limited` -/
def maxWeightLimited (cfg : WeightsConfig A H) (uid : UInt16) (uids weights : List UInt16) : Bool :=
  isSelfWeight uid uids weights || getMaxWeightLimit = 65535 || cfg.checkVecMaxLimited weights getMaxWeightLimit

namespace WeightsEnv
variable (env : WeightsEnv A)

/-- `ensure_mechanism_exists` -/
def ensureMechanismExists (netuid : NetUid) (mecid : MechId) : Except DispatchError Unit := do
  ensure (env.networksAdded netuid) .mechanismDoesNotExist
  ensure (mecid < env.mechanismCountCurrent netuid) .mechanismDoesNotExist

/-- `get_netuid_and_subid`, of which only the netuid is used. -/
def getNetuid (index : MechanismIndex) : Option NetUid :=
  let netuid := index % 4096
  if env.networksAdded netuid ∧ (index / 4096).toNat < (env.mechanismCountCurrent netuid).toNat then some netuid
  else none

/-- `get_owner_uid` -/
def getOwnerUid (netuid : NetUid) : Option UInt16 :=
  (env.neurons.subnetOwnerHotkey netuid).bind (env.neurons.uids netuid)

/-- `check_weights_min_stake` -/
def checkWeightsMinStake (hotkey : A) (netuid : NetUid) : Bool :=
  (env.getOwnerUid netuid).isSome && env.neurons.uids netuid hotkey = env.getOwnerUid netuid ||
    env.stakeReachesThreshold netuid hotkey

/-- `check_version_key` -/
def checkVersionKey (netuid : NetUid) (versionKey : UInt64) : Bool :=
  env.weightsVersionKey netuid = 0 || env.weightsVersionKey netuid ≤ versionKey

/-- `check_validator_permit` -/
def checkValidatorPermit (netuid : NetUid) (uid : UInt16) (uids weights : List UInt16) : Bool :=
  isSelfWeight uid uids weights || env.getOwnerUid netuid = some uid ||
    (env.validatorPermit netuid).getD uid.toNat false

/-- `contains_invalid_uids` -/
def containsInvalidUids (netuid : NetUid) (uids : List UInt16) : Bool :=
  uids.any fun uid => (env.neurons.keys netuid uid).isNone

/-- `check_length` -/
def checkLength (netuid : NetUid) (uid : UInt16) (uids weights : List UInt16) : Bool :=
  let minAllowed := min (env.neurons.subnetworkN netuid).toNat (env.minAllowedWeights netuid).toNat
  (netuid ≠ .root && isSelfWeight uid uids weights) || minAllowed ≤ weights.length
end WeightsEnv

namespace WeightsState

/-- What `try_mutate_exists` leaves of a queue: an empty one is removed. -/
def storeCommits (s : WeightsState A H) (index : MechanismIndex) (who : A) (commits : List (Commit H)) :
    WeightsState A H :=
  { s with
    weightCommits := update s.weightCommits index
      (update (s.weightCommits index) who (if commits.isEmpty then none else some commits)) }

def insertWeights (s : WeightsState A H) (index : MechanismIndex) (uid : UInt16) (zipped : List (UInt16 × UInt16)) :
    WeightsState A H :=
  { s with weights := update s.weights index (update (s.weights index) uid zipped) }

/-- `set_last_update_for_uid` -/
def setLastUpdateForUid (s : WeightsState A H) (index : MechanismIndex) (uid : UInt16) (block : Nat) :
    WeightsState A H :=
  { s with lastUpdate := update s.lastUpdate index ((s.lastUpdate index).set uid.toNat block) }

/-- `check_rate_limit` -/
def checkRateLimit (s : WeightsState A H) (env : WeightsEnv A) (index : MechanismIndex) (uid : UInt16) : Bool :=
  match env.getNetuid index with
  | none        => false
  | some netuid =>
      let lastSetWeights := (s.lastUpdate index).getD uid.toNat 0
      (env.neurons.keys netuid uid).isSome &&
        (lastSetWeights = 0 || env.weightsSetRateLimit netuid ≤ s.block - lastSetWeights)
end WeightsState

section Calls
variable (cfg : WeightsConfig A H) (env : WeightsEnv A) (who : A) (netuid : NetUid)

/-- `internal_set_weights` -/
def internalSetWeights (mecid : MechId) (uids values : List UInt16) (versionKey : UInt64) (s : WeightsState A H) :
    Except DispatchError (WeightsState A H) := do
  let index := getMechanismStorageIndex netuid mecid
  ensure (netuid ≠ .root) .canNotSetRootNetworkWeights
  ensure (uids.length = values.length) .weightVecNotEqualSize
  env.ensureMechanismExists netuid mecid
  ensure (uids.length ≤ (env.neurons.subnetworkN netuid).toNat) .uidsLengthExceedUidsInSubNet
  let uid ← okOr (env.neurons.uids netuid who) .hotKeyNotRegisteredInSubNet
  ensure (env.checkWeightsMinStake who netuid) .notEnoughStakeToSetWeights
  ensure (env.checkVersionKey netuid versionKey) .incorrectWeightVersionKey
  ensure (env.commitRevealWeightsEnabled netuid ∨ s.checkRateLimit env index uid) .settingWeightsTooFast
  ensure (env.checkValidatorPermit netuid uid uids values) .neuronNoValidatorPermit
  ensure uids.Nodup .duplicateUids
  ensure (¬ env.containsInvalidUids netuid uids) .uidVecContainInvalidOne
  ensure (env.checkLength netuid uid uids values) .weightVecLengthIsLow
  let upscaled := vecU16MaxUpscaleToU16 values
  ensure (maxWeightLimited cfg uid uids upscaled) .maxWeightExceeded
  let s := s.insertWeights index uid (uids.zip upscaled)
  pure (if env.commitRevealWeightsEnabled netuid then s else s.setLastUpdateForUid index uid s.block)

/-- `internal_commit_weights` -/
def internalCommitWeights (mecid : MechId) (hash : H) (s : WeightsState A H) :
    Except DispatchError (WeightsState A H) := do
  env.ensureMechanismExists netuid mecid
  let index := getMechanismStorageIndex netuid mecid
  ensure (env.commitRevealWeightsEnabled netuid) .commitRevealDisabled
  let uid ← okOr (env.neurons.uids netuid who) .hotKeyNotRegisteredInSubNet
  ensure (s.checkRateLimit env index uid) .committingWeightsTooFast
  let commits := unexpired cfg netuid s.block ((s.weightCommits index who).getD [])
  ensure (commits.length < 10) .tooManyUnrevealedCommits
  pure ((s.storeCommits index who (commits ++ [newCommit cfg netuid s.block hash])).setLastUpdateForUid index uid
    s.block)

/-- `internal_reveal_weights` -/
def internalRevealWeights (mecid : MechId) (data : WeightsData) (s : WeightsState A H) :
    Except DispatchError (WeightsState A H) := do
  let index := getMechanismStorageIndex netuid mecid
  ensure (env.commitRevealWeightsEnabled netuid) .commitRevealDisabled
  let stored ← okOr (s.weightCommits index who) .noWeightsCommitFound
  let expired := expiredHashes cfg netuid s.block stored
  let commits := unexpired cfg netuid s.block stored
  let providedHash := cfg.commitHash (who, index, data)
  ensure (commits ≠ [] ∨ providedHash ∉ expired) .expiredWeightCommit
  ensure (commits ≠ []) .noWeightsCommitFound
  match commits.findIdx? (·.hash = providedHash) with
  | some position =>
      let commit ← okOr commits[position]? .noWeightsCommitFound
      ensure (isRevealBlockRange cfg netuid s.block commit.commitBlock) .revealTooEarly
      -- everything up to the commit that is revealed leaves the queue
      let s := s.storeCommits index who (commits.drop (position + 1))
      internalSetWeights cfg env who netuid mecid data.uids data.values data.versionKey s
  | none =>
      throw (if providedHash ∈ expired then .expiredWeightCommit else .invalidRevealCommitHashNotMatch)

/-- The items of a batch, from its four lists. -/
def batchItems (uidsList valuesList saltsList : List (List UInt16)) (versionKeys : List UInt64) : List WeightsData :=
  ((uidsList.zip valuesList).zip (saltsList.zip versionKeys)).map fun ((uids, values), (salt, versionKey)) =>
    ⟨uids, values, salt, versionKey⟩

/-- The first loop over a batch. -/
def validateReveal (block : Nat) (expired : List H) (commits : List (Commit H)) (providedHash : H) :
    Except DispatchError Unit := do
  ensure (commits.any (·.hash = providedHash) ∨ providedHash ∉ expired) .expiredWeightCommit
  ensure (commits.any (·.hash = providedHash)) .invalidRevealCommitHashNotMatch
  let commit ← okOr (commits.find? (·.hash = providedHash)) .noWeightsCommitFound
  ensure (isRevealBlockRange cfg netuid block commit.commitBlock) .revealTooEarly

/-- The second loop over a batch: the queue is a variable of the call and changes with every item. -/
def processReveals (expired : List H) : List (WeightsData × H) → List (Commit H) → WeightsState A H →
    Except DispatchError (List (Commit H) × WeightsState A H)
  | [], commits, s => pure (commits, s)
  | (data, providedHash) :: reveals, commits, s =>
      match commits.findIdx? (·.hash = providedHash) with
      | some position => do
          let s ← internalSetWeights cfg env who netuid .main data.uids data.values data.versionKey s
          processReveals expired reveals (commits.eraseIdx position) s
      | none =>
          throw (if providedHash ∈ expired then .expiredWeightCommit else .invalidRevealCommitHashNotMatch)

/-- `do_batch_reveal_weights`, on the main mechanism. The hash is taken of the netuid itself. -/
def doBatchRevealWeights (uidsList valuesList saltsList : List (List UInt16)) (versionKeys : List UInt64)
    (s : WeightsState A H) : Except DispatchError (WeightsState A H) := do
  let index := getMechanismStorageIndex netuid .main
  ensure (uidsList.length = valuesList.length ∧ uidsList.length = saltsList.length ∧
    uidsList.length = versionKeys.length) .inputLengthsUnequal
  ensure (env.commitRevealWeightsEnabled netuid) .commitRevealDisabled
  let stored ← okOr (s.weightCommits index who) .noWeightsCommitFound
  let expired := expiredHashes cfg netuid s.block stored
  let commits := unexpired cfg netuid s.block stored
  let reveals := (batchItems uidsList valuesList saltsList versionKeys).map fun data =>
    (data, cfg.commitHash (who, netuid, data))
  reveals.forM fun reveal => validateReveal cfg netuid s.block expired commits reveal.2
  let (commits, s) ← processReveals cfg env who netuid expired reveals commits s
  pure (s.storeCommits index who commits)
end Calls
end Qubitum.Subtensor
