import Qubitum.Migration.Content

/-!
# `Migration.RegistrySteps` — the first segment of an upgrade

The steps before the request migrations move the keys of the record maps and translate the subnets and
participants. `registrySteps_maps` says what becomes of each map; the lemmas after it follow a record of the
content through it: its key is moved once, its layout is translated once, and nothing else touches it.
-/

namespace Qubitum
open Scale Raw Dense Outcome RawMap

variable {A L : Type} {w : Nat} {cfg : Config A L w}

/-! ## Keys and layouts -/

@[simp] theorem translated_none {Old New : Type} [Codec Old] [Codec New] (f : Old → New) :
    translated f none = none := rfl

/-- After the key move, a map's records lie under their current keys. -/
theorem MapHolds.rekeyed {κ R : Type} [DecidableEq κ] {v moved : Nat} {map : RawMap κ}
    {records : κ → Option R} {bytes : R → Bytes} {writtenAt : Nat → R → Prop}
    (h : MapHolds v moved map records bytes writtenAt) {keys : List κ} (hn : keys.Nodup) {k : κ} (hk : k ∈ keys) :
    (if moved ≤ v then map else forEach keys moveKey map).current k = (records k).map bytes := by
  have hstored := h.stored k
  by_cases hv : moved ≤ v
  · rw [if_pos hv]
    rwa [if_neg (by omega)] at hstored
  · rw [if_neg hv, forEach_moveKey_current hn, if_pos hk, h.unmoved (by omega) k, Option.or_none]
    rwa [if_pos (by omega)] at hstored

section Migrate
variable [Codec A]

/-- The current record of a stored one. -/
def StoredSubnet.migrate (cfg : Config A L w) : StoredSubnet A w → ChainSubnet
  | .v15 old        => old.migrate cfg
  | .current subnet => subnet

def StoredMiner.migrate (cfg : Config A L w) : StoredMiner A w → ChainMiner
  | .v7 old        => old.migrate cfg
  | .v9 old        => old.migrate cfg
  | .current miner => miner

def StoredValidator.migrate (cfg : Config A L w) : StoredValidator A w → ChainValidator
  | .v7 old            => old.migrate cfg
  | .v9 old            => old.migrate cfg
  | .current validator => validator

def StoredRequest.migrate (cfg : Config A L w) : StoredRequest A w → ChainInferenceRequest
  | .v8 old          => old.migrate cfg
  | .v10 old         => old.migrate cfg
  | .v12 old         => old.migrate cfg
  | .v13 old         => old.migrate cfg
  | .current request => request
end Migrate

def StoredProof.migrate (cfg : Config A L w) : StoredProof → ChainProofRecord
  | .v11 old        => old.migrate cfg
  | .v14 old        => old.migrate cfg
  | .current record => record

namespace Storage

/-! ## The first segment: keys, subnets, participants -/

section Registry
variable [Codec A]

/-- What the first segment makes of each map. -/
theorem registrySteps_maps (s : Storage cfg) (v : Nat) :
    ((s.registrySteps v).subnetCount = s.subnetCount ∧ (s.registrySteps v).minerCount = s.minerCount ∧
      (s.registrySteps v).validatorCount = s.validatorCount ∧
      (s.registrySteps v).requestCount = s.requestCount) ∧
    (s.registrySteps v).subnets =
      (let keyed := if 22 ≤ v then s.subnets else forEach (idsBelow16 s.subnetCount) moveKey s.subnets
       if 16 ≤ v then keyed
       else forEach (idsBelow16 s.subnetCount) (translate (ChainSubnetV15.migrate cfg)) keyed) ∧
    (s.registrySteps v).miners =
      (let keyed := if 24 ≤ v then s.miners else forEach (idsBelow s.minerCount) moveKey s.miners
       let named := if v ≠ 7 then keyed
        else forEach (idsBelow s.minerCount) (translate (ChainMinerV7.migrate cfg)) keyed
       if v < 8 ∨ 10 ≤ v then named
       else forEach (idsBelow s.minerCount) (translate (ChainMinerV9.migrate cfg)) named) ∧
    (s.registrySteps v).validators =
      (let keyed := if 24 ≤ v then s.validators
        else forEach (idsBelow s.validatorCount) moveKey s.validators
       let named := if v ≠ 7 then keyed
        else forEach (idsBelow s.validatorCount) (translate (ChainValidatorV7.migrate cfg)) keyed
       if v < 8 ∨ 10 ≤ v then named
       else forEach (idsBelow s.validatorCount) (translate (ChainValidatorV9.migrate cfg)) named) ∧
    (s.registrySteps v).inferenceRequests =
      (if 25 ≤ v then s.inferenceRequests
        else forEach (idsBelow s.requestCount) moveKey s.inferenceRequests) ∧
    (s.registrySteps v).proofRecords =
      (if 25 ≤ v then s.proofRecords
        else forEach (idsBelow s.requestCount) moveKey s.proofRecords) := by
  refine ⟨⟨?_, ?_, ?_, ?_⟩, ?_, ?_, ?_, ?_, ?_⟩ <;>
  simp only [registrySteps, migrateSubnetStorageKeys, migrateRegistryStorageKeys,
    migrateRequestAndProofStorageKeys, migrateInferenceAccountingTotals, migrateBurnedTotal,
    migrateOperatorCommitments, migrateSubnetPolicyCommitments, migrateParticipantCapitalCommitments,
    apply_ite subnetCount, apply_ite minerCount, apply_ite validatorCount, apply_ite requestCount,
    apply_ite subnets, apply_ite miners, apply_ite validators, apply_ite inferenceRequests, apply_ite proofRecords,
    ite_self]

variable {s : Storage cfg} {content : Content A w}

theorem Holds.registrySteps_subnets (h : s.Holds content) {id : SubnetId} (hlt : id < s.subnetCount) :
    (s.registrySteps s.version).subnets.current id = (content.subnets id).map fun r => encode (r.migrate cfg) := by
  have hkeyed := h.subnets.rekeyed (idsBelow16_nodup s.subnetCount) (mem_idsBelow16.mpr hlt)
  rw [(s.registrySteps_maps s.version).2.1]
  by_cases hv : 16 ≤ s.version
  · rw [if_pos hv, hkeyed]
    cases hc : content.subnets id with
    | none => rfl
    | some r =>
      have hr := h.subnets.layout id r hc
      cases r with
      | v15 old => exact absurd hr (Nat.not_lt.mpr hv)
      | current subnet => rfl
  · rw [if_neg hv, forEach_translate_current (idsBelow16_nodup _), if_pos (mem_idsBelow16.mpr hlt),
      hkeyed]
    cases hc : content.subnets id with
    | none => rfl
    | some r =>
      have hr := h.subnets.layout id r hc
      cases r with
      | v15 old => exact translated_encode
      | current subnet => exact absurd hr hv

omit [Codec A] in
/-- The two layouts of participants are translated at different versions. -/
theorem participants_current {Old7 Old9 New : Type} [Codec Old7] [Codec Old9] [Codec New] (f7 : Old7 → New)
    (f9 : Old9 → New) (v : Nat) (count : UInt64) (map : RawMap UInt64) {id : UInt64} (hlt : id < count) :
    (let named := if v ≠ 7 then map else forEach (idsBelow count) (translate f7) map
     if v < 8 ∨ 10 ≤ v then named else forEach (idsBelow count) (translate f9) named).current id =
      if v = 7 then translated f7 (map.current id)
      else if 8 ≤ v ∧ v < 10 then translated f9 (map.current id)
      else map.current id := by
  have hid := mem_idsBelow.mpr hlt
  by_cases h7 : v = 7
  · rw [if_pos (by omega), if_neg (by omega), if_pos h7,
      forEach_translate_current (idsBelow_nodup _), if_pos hid]
  · rw [if_neg h7, if_pos h7]
    by_cases h9 : 8 ≤ v ∧ v < 10
    · rw [if_neg (by omega), if_pos h9, forEach_translate_current (idsBelow_nodup _), if_pos hid]
    · rw [if_pos (by omega), if_neg h9]

theorem Holds.registrySteps_miners (h : s.Holds content) {id : MinerId} (hlt : id < s.minerCount) :
    (s.registrySteps s.version).miners.current id = (content.miners id).map fun r => encode (r.migrate cfg) := by
  rw [(s.registrySteps_maps s.version).2.2.1, participants_current _ _ _ _ _ hlt,
    h.miners.rekeyed (idsBelow_nodup s.minerCount) (mem_idsBelow.mpr hlt)]
  cases hc : content.miners id with
  | none => simp
  | some r =>
    have hr := h.miners.layout id r hc
    cases r with
    | v7 old =>
      rw [if_pos (show s.version = 7 from hr)]
      exact translated_encode
    | v9 old =>
      obtain ⟨hge, hlt'⟩ : 8 ≤ s.version ∧ s.version < 10 := hr
      rw [if_neg (by omega), if_pos ⟨hge, hlt'⟩]
      exact translated_encode
    | current miner =>
      have hge : 10 ≤ s.version := hr
      rw [if_neg (by omega), if_neg (by omega)]
      rfl

theorem Holds.registrySteps_validators (h : s.Holds content) {id : ValidatorId} (hlt : id < s.validatorCount) :
    (s.registrySteps s.version).validators.current id =
      (content.validators id).map fun r => encode (r.migrate cfg) := by
  rw [(s.registrySteps_maps s.version).2.2.2.1, participants_current _ _ _ _ _ hlt,
    h.validators.rekeyed (idsBelow_nodup s.validatorCount) (mem_idsBelow.mpr hlt)]
  cases hc : content.validators id with
  | none => simp
  | some r =>
    have hr := h.validators.layout id r hc
    cases r with
    | v7 old =>
      rw [if_pos (show s.version = 7 from hr)]
      exact translated_encode
    | v9 old =>
      obtain ⟨hge, hlt'⟩ : 8 ≤ s.version ∧ s.version < 10 := hr
      rw [if_neg (by omega), if_pos ⟨hge, hlt'⟩]
      exact translated_encode
    | current validator =>
      have hge : 10 ≤ s.version := hr
      rw [if_neg (by omega), if_neg (by omega)]
      rfl

variable {id : RequestId}

theorem Holds.registrySteps_requests (h : s.Holds content) (hlt : id < s.requestCount) :
    (s.registrySteps s.version).inferenceRequests.current id = (content.requests id).map StoredRequest.bytes := by
  rw [(s.registrySteps_maps s.version).2.2.2.2.1]
  exact h.requests.rekeyed (idsBelow_nodup s.requestCount) (mem_idsBelow.mpr hlt)

theorem Holds.registrySteps_proofs (h : s.Holds content) (hlt : id < s.requestCount) :
    (s.registrySteps s.version).proofRecords.current id = (content.proofs id).map StoredProof.bytes := by
  rw [(s.registrySteps_maps s.version).2.2.2.2.2]
  exact h.proofs.rekeyed (idsBelow_nodup s.requestCount) (mem_idsBelow.mpr hlt)
end Registry
end Storage
end Qubitum
