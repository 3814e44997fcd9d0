import Qubitum.Migration.Upgrade
import Qubitum.Pallet.Custody

/-!
# `Migration.RoutingIndexes` — what an upgrade leaves in the routing indexes

`rebuild_active_routing_indexes` runs at every upgrade and fills the index of each subnet with its
route-eligible participants; `migrate_active_routing_index_values` clears both indexes again, but only
below version 23. So what is left depends on the version the upgrade starts from
(`indexes_empty_iff_unpublished`).

The rebuild's loop has one invariant (`Indexed`): an index of a counted subnet holds candidates of that
subnet, each once, and a candidate that overflowed met a full index.
-/

namespace Qubitum
open Scale Raw Dense Outcome Function

variable {A L : Type} {w : Nat} {cfg : Config A L w} {max : UInt32} {error : Error} {subnetId : SubnetId}

/-! ## One insertion -/

namespace BoundedVec
variable {vec vec' : BoundedVec max} {id : UInt64} {new : Bool}

theorem insertSorted_ok (h : vec.insertSorted error id = .ok (new, vec')) :
    (∀ x, x ∈ vec'.ids ↔ x ∈ vec.ids ∨ x = id) ∧ (vec.ids.Nodup → vec'.ids.Nodup) := by
  unfold insertSorted at h
  split at h
  · rename_i hmem
    obtain ⟨-, rfl⟩ := Prod.mk.inj (Except.ok.inj h)
    have hid : id ∈ vec.ids := by simpa using hmem
    refine ⟨fun x => ⟨Or.inl, ?_⟩, fun hn => hn⟩
    rintro (hx | rfl)
    · exact hx
    · exact hid
  · rename_i hmem
    have hid : id ∉ vec.ids := by simpa using hmem
    simp only at h
    split at h
    · obtain ⟨-, rfl⟩ := Prod.mk.inj (Except.ok.inj h)
      refine ⟨fun x => ?_, fun hn => ?_⟩
      · rw [List.mem_insertionSort, List.mem_append, List.mem_singleton]
      · rw [(List.perm_insertionSort _ _).nodup_iff]
        exact hn.append (List.nodup_singleton id) (by simpa using hid)
    · cases h

theorem insertSorted_error {e : DispatchError} (h : vec.insertSorted error id = .error e) :
    id ∉ vec.ids ∧ vec.ids.length = max.toNat := by
  unfold insertSorted at h
  split at h
  · cases h
  · rename_i hmem
    simp only at h
    split at h
    · cases h
    · rename_i hfull
      rw [List.length_insertionSort, List.length_append, List.length_singleton] at hfull
      have hbound := vec.bounded
      exact ⟨by simpa using hmem, by omega⟩
end BoundedVec

/-! ## The rebuild loop -/

namespace IndexRebuild
variable {subnetCount : SubnetId} {candidates : List (UInt64 × SubnetId)}

/-- What a round does to the index of one subnet: it stays, unless the candidate is of that subnet and
    fits. -/
theorem round_index (error : Error) (c : UInt64 × SubnetId) (loop : IndexRebuild max) (subnetId : SubnetId) :
    (round error c loop).index subnetId = loop.index subnetId ∨
      c.2 = subnetId ∧ ∃ new,
        (loop.index subnetId).insertSorted error c.1 = .ok (new, (round error c loop).index subnetId) := by
  unfold round
  cases h : (loop.index c.2).insertSorted error c.1 with
  | error e => exact Or.inl rfl
  | ok r =>
    by_cases hs : subnetId = c.2
    · subst hs
      refine Or.inr ⟨rfl, r.1, ?_⟩
      simp [h]
    · exact Or.inl (by simp [update_of_ne hs])

variable {loop : IndexRebuild max}

/-- Where there is any room, a candidate's subnet has a non-empty index after its round: it went in, or it
    found the index full. -/
theorem round_index_self (c : UInt64 × SubnetId) (loop : IndexRebuild max) (hmax : 0 < max.toNat) :
    ((round error c loop).index c.2).ids ≠ [] := by
  unfold round
  cases h : (loop.index c.2).insertSorted error c.1 with
  | error e =>
    have hfull := (BoundedVec.insertSorted_error h).2
    exact List.ne_nil_of_length_pos (hfull.symm ▸ hmax)
  | ok r =>
    have hmem := ((BoundedVec.insertSorted_ok h).1 c.1).mpr (Or.inr rfl)
    simp only [update_self]
    exact List.ne_nil_of_mem hmem

section
variable (index : SubnetId → BoundedVec max) (h : subnetId < subnetCount)
include h

/-- The starting point of the loop: every counted subnet has an empty index. -/
theorem clear_of_lt :
    clear subnetCount index subnetId = .empty :=
  forEach_at (fun index : SubnetId → BoundedVec max => index subnetId) (fun _ => .empty)
    (idsBelow16_nodup _) (mem_idsBelow16.mpr h) (fun _ => update_self ..)
    fun _ _ hne _ => update_of_ne hne.symm _ _

/-- **What the rebuild leaves empty.** The index of a counted subnet is empty unless it has room and the subnet has
    a candidate. -/
theorem run_index_eq_nil :
    ((run error subnetCount candidates index).index subnetId).ids = [] ↔
      ¬ (0 < max.toNat ∧ ∃ id, (id, subnetId) ∈ candidates) := by
  constructor
  · rintro hnil ⟨hmax, id, hc⟩
    -- from the candidate's own round on, the index is non-empty
    obtain ⟨front, back, rfl⟩ := List.append_of_mem hc
    rw [run, forEach_append, forEach_cons] at hnil
    refine forEach_invariant (fun loop : IndexRebuild max => (loop.index subnetId).ids ≠ [])
      (round_index_self _ _ hmax) (fun b _ loop hloop => ?_) hnil
    obtain heq | ⟨-, new, hok⟩ := round_index error b loop subnetId
    · rwa [heq]
    · obtain ⟨x, hx⟩ := List.exists_mem_of_ne_nil _ hloop
      exact List.ne_nil_of_mem (((BoundedVec.insertSorted_ok hok).1 x).mpr (Or.inl hx))
  · intro hnone
    by_cases hmax : 0 < max.toNat
    · rw [run, forEach_frame (fun loop : IndexRebuild max => loop.index subnetId)]
      · show (clear subnetCount index subnetId).ids = []
        rw [clear_of_lt index h, BoundedVec.empty]
      · intro c hc loop
        refine (round_index error c loop subnetId).resolve_right ?_
        rintro ⟨rfl, -⟩
        exact hnone ⟨hmax, c.1, hc⟩
    · have hbound := ((run error subnetCount candidates index).index subnetId).bounded
      exact List.eq_nil_of_length_eq_zero (by omega)
end

/-- The invariant of the loop, with the candidates it has seen. -/
structure Indexed (subnetCount : SubnetId) (seen : List (UInt64 × SubnetId)) (loop : IndexRebuild max) : Prop where
  nodup : ∀ subnetId, subnetId < subnetCount → (loop.index subnetId).ids.Nodup
  mem : ∀ subnetId, subnetId < subnetCount → ∀ id ∈ (loop.index subnetId).ids, (id, subnetId) ∈ seen
  /-- Who overflowed met an index of its subnet that was full with candidates from before it. -/
  full : ∀ id ∈ loop.overflow, ∃ subnetId front back, seen = front ++ (id, subnetId) :: back ∧
    (subnetId < subnetCount → ∃ ids : List UInt64, ids.Nodup ∧ ids.length = max.toNat ∧
      ∀ x ∈ ids, (x, subnetId) ∈ front)

theorem Indexed.round {seen : List (UInt64 × SubnetId)} (h : Indexed subnetCount seen loop) (c : UInt64 × SubnetId) :
    Indexed subnetCount (seen ++ [c]) (round error c loop) where
  nodup subnetId hlt := by
    obtain heq | ⟨-, new, hok⟩ := round_index error c loop subnetId
    · rw [heq]; exact h.nodup subnetId hlt
    · exact (BoundedVec.insertSorted_ok hok).2 (h.nodup subnetId hlt)
  mem subnetId hlt id hid := by
    obtain heq | ⟨rfl, new, hok⟩ := round_index error c loop subnetId
    · rw [heq] at hid
      exact List.mem_append_left _ (h.mem subnetId hlt id hid)
    · obtain hold | rfl := ((BoundedVec.insertSorted_ok hok).1 id).mp hid
      · exact List.mem_append_left _ (h.mem c.2 hlt id hold)
      · exact List.mem_append_right _ (List.mem_singleton.mpr rfl)
  full id hid := by
    have hold : id ∈ loop.overflow → ∃ subnetId front back, seen ++ [c] = front ++ (id, subnetId) :: back ∧
        (subnetId < subnetCount → ∃ ids : List UInt64, ids.Nodup ∧ ids.length = max.toNat ∧
          ∀ x ∈ ids, (x, subnetId) ∈ front) := by
      intro hid
      obtain ⟨subnetId, front, back, rfl, hfull⟩ := h.full id hid
      exact ⟨subnetId, front, back ++ [c], by rw [List.append_assoc, List.cons_append], hfull⟩
    unfold IndexRebuild.round at hid
    cases hins : (loop.index c.2).insertSorted error c.1 with
    | ok r =>
      rw [hins] at hid
      exact hold hid
    | error e =>
      rw [hins] at hid
      obtain hid | hnew := List.mem_append.mp hid
      · exact hold hid
      · rw [List.mem_singleton] at hnew
        subst hnew
        have hlen := (BoundedVec.insertSorted_error hins).2
        exact ⟨c.2, seen, [], rfl, fun hlt => ⟨_, h.nodup c.2 hlt, hlen, h.mem c.2 hlt⟩⟩

theorem Indexed.rounds {seen : List (UInt64 × SubnetId)} (h : Indexed subnetCount seen loop)
    (candidates : List (UInt64 × SubnetId)) :
    Indexed subnetCount (seen ++ candidates) (forEach candidates (IndexRebuild.round error) loop) := by
  induction candidates generalizing seen loop with
  | nil =>
    rw [List.append_nil]
    exact h
  | cons c rest ih =>
    rw [List.append_cons, forEach_cons]
    exact ih (h.round c)

theorem run_indexed (error : Error) (subnetCount : SubnetId) (candidates : List (UInt64 × SubnetId))
    (index : SubnetId → BoundedVec max) : Indexed subnetCount candidates (run error subnetCount candidates index) := by
  suffices hclear : Indexed subnetCount [] ⟨clear subnetCount index, []⟩ from hclear.rounds candidates
  refine ⟨?_, ?_, ?_⟩
  · intro subnetId hlt
    show (clear subnetCount index subnetId).ids.Nodup
    rw [clear_of_lt index hlt]
    exact List.nodup_nil
  · intro subnetId hlt id hid
    change id ∈ (clear subnetCount index subnetId).ids at hid
    rw [clear_of_lt index hlt] at hid
    exact absurd hid List.not_mem_nil
  · intro id hid
    exact absurd hid List.not_mem_nil
end IndexRebuild

/-! ## Who is indexed -/

theorem mem_pendingFirst {pending : UInt64 → Option RequestId} {eligible : List (UInt64 × SubnetId)}
    {c : UInt64 × SubnetId} : c ∈ pendingFirst pending eligible ↔ c ∈ eligible := by
  simp only [pendingFirst, List.mem_append, List.mem_filter, decide_eq_true_eq]
  tauto

/-- Those with open requests come first, and the others are in the order of their ids. -/
theorem pendingFirst_sorted {pending : UInt64 → Option RequestId} {eligible : List (UInt64 × SubnetId)}
    (h : eligible.Pairwise fun a b => a.1 < b.1) :
    (pendingFirst pending eligible).Pairwise fun a b => 0 < (pending a.1).getD 0 ∨ a.1 < b.1 := by
  unfold pendingFirst
  rw [List.pairwise_append]
  refine ⟨?_, (h.filter _).imp Or.inr, fun a ha _ _ => .inl ?_⟩
  · exact (h.filter _).imp Or.inr
  · simpa using (List.mem_filter.mp ha).2

theorem eligible_records_sorted {R : Type} (records : UInt64 → Option R) (eligible : UInt64 × R → Bool)
    (subnetOf : R → SubnetId) (n : UInt64) :
    (((recordsBelow n records).filter eligible).map fun r => (r.1, subnetOf r.2)).Pairwise fun a b => a.1 < b.1 := by
  rw [List.pairwise_map]
  exact (recordsBelow_sorted n records).filter _

theorem mem_eligible_records {R : Type} {records : UInt64 → Option R} {eligible : UInt64 × R → Bool}
    {subnetOf : R → SubnetId} {n id : UInt64} {subnetId : SubnetId} :
    (id, subnetId) ∈ ((recordsBelow n records).filter eligible).map (fun r => (r.1, subnetOf r.2)) ↔
      id < n ∧ ∃ r, records id = some r ∧ subnetOf r = subnetId ∧ eligible (id, r) := by
  simp only [List.mem_map, List.mem_filter, Prod.exists, Prod.mk.injEq, mem_recordsBelow]
  constructor
  · rintro ⟨id, r, ⟨⟨hlt, hget⟩, helig⟩, rfl, rfl⟩
    exact ⟨hlt, r, hget, rfl, helig⟩
  · rintro ⟨hlt, r, hget, rfl, helig⟩
    exact ⟨id, r, ⟨⟨hlt, hget⟩, helig⟩, rfl, rfl⟩

namespace Storage
variable {s : Storage cfg} {v : Nat}

theorem mem_minerCandidates {id : MinerId} :
    (id, subnetId) ∈ s.minerCandidates ↔ id < s.minerCount ∧ ∃ miner, s.miners.get id = some miner ∧
      miner.subnetId = subnetId ∧ minerIsRouteEligible cfg s.registry id miner :=
  mem_pendingFirst.trans mem_eligible_records

theorem minerCandidates_sorted (s : Storage cfg) :
    s.minerCandidates.Pairwise fun a b => 0 < (s.pending.miners a.1).getD 0 ∨ a.1 < b.1 :=
  pendingFirst_sorted (eligible_records_sorted ..)

theorem validatorCandidates_sorted (s : Storage cfg) :
    s.validatorCandidates.Pairwise fun a b => 0 < (s.pending.validators a.1).getD 0 ∨ a.1 < b.1 :=
  pendingFirst_sorted (eligible_records_sorted ..)

theorem mem_validatorCandidates {id : ValidatorId} :
    (id, subnetId) ∈ s.validatorCandidates ↔ id < s.validatorCount ∧ ∃ validator,
      s.validators.get id = some validator ∧ validator.subnetId = subnetId ∧
      validatorIsRouteEligible cfg s.registry id validator :=
  mem_pendingFirst.trans mem_eligible_records

/-! ## The upgrade -/

/-- Both indexes of every counted subnet are empty: what `try_state` and `post_upgrade` assert. -/
def IndexesEmpty (s : Storage cfg) : Prop :=
  ∀ subnetId, subnetId < s.subnetCount →
    (s.activeMinersBySubnet subnetId).ids = [] ∧ (s.activeValidatorsBySubnet subnetId).ids = []

/-- The bytes of a participant's record; until version 24 they may lie under the old key. -/
def participantBytes (s : Storage cfg) (m : RawMap UInt64) (id : UInt64) : Option Bytes :=
  if s.version < 24 then (m.legacy id).or (m.current id) else m.current id

/-- A subnet with a route-eligible miner, and room to index it. -/
def PublishesMiner (s : Storage cfg) (subnetId : SubnetId) : Prop :=
  0 < cfg.maxActiveMinersPerSubnet.toNat ∧ ∃ id < s.minerCount, ∃ miner,
    (s.participantBytes s.miners id).bind decodeValue = some miner ∧ miner.subnetId = subnetId ∧
    minerIsRouteEligible cfg s.registry id miner

/-- A subnet with a route-eligible validator, and room to index it. -/
def PublishesValidator (s : Storage cfg) (subnetId : SubnetId) : Prop :=
  0 < cfg.maxActiveValidatorsPerSubnet.toNat ∧ ∃ id < s.validatorCount, ∃ validator,
    (s.participantBytes s.validators id).bind decodeValue = some validator ∧
    validator.subnetId = subnetId ∧ validatorIsRouteEligible cfg s.registry id validator

variable [Codec A]

section
variable (s : Storage cfg)

/-- From version 23 on, what runs before the rebuild moves keys and clears totals. -/
theorem beforeRebuild_of_ge (h : 23 ≤ v) :
    s.beforeRebuild v = (((s.migrateRegistryStorageKeys v).migrateRequestAndProofStorageKeys
      v).migrateInferenceAccountingTotals v).migrateBurnedTotal v := by
  rw [beforeRebuild, routingSteps, migrateCapitalRecordStorageKeys, if_pos (by omega),
    migrateActiveRoutingIndexKeys, if_pos (by omega), migrateIdentitySignatureChallenges, if_pos (by omega),
    migrateIdentityStorageKeys, if_pos (by omega)]
  rw [requestSteps, migrateRequestTermsCommitments, if_pos (by omega), migrateRequestTimingCommitments,
    if_pos (by omega), migrateRequestOwnerCommitments, if_pos (by omega),
    migrateRequestAssignmentCommitments, if_pos (by omega)]
  rw [registrySteps, migrateParticipantCapitalCommitments, if_pos (by omega),
    migrateSubnetPolicyCommitments, if_pos (by omega), migrateOperatorCommitments, if_pos (by omega),
    migrateSubnetStorageKeys, if_pos (by omega)]

/-- No later step looks at the counters or the records of the registry. -/
theorem beforeRebuild_ge_fields (h : 23 ≤ v) :
    (s.beforeRebuild v).subnetCount = s.subnetCount ∧ (s.beforeRebuild v).minerCount = s.minerCount ∧
      (s.beforeRebuild v).validatorCount = s.validatorCount ∧
      (s.beforeRebuild v).miners = (s.migrateRegistryStorageKeys v).miners ∧
      (s.beforeRebuild v).validators = (s.migrateRegistryStorageKeys v).validators ∧
      (s.beforeRebuild v).minerIdentity = s.minerIdentity ∧
      (s.beforeRebuild v).validatorIdentity = s.validatorIdentity ∧
      (s.beforeRebuild v).minerLockedBond = s.minerLockedBond ∧
      (s.beforeRebuild v).validatorLockedStake = s.validatorLockedStake := by
  rw [beforeRebuild_of_ge s h]
  unfold migrateBurnedTotal migrateInferenceAccountingTotals migrateRequestAndProofStorageKeys
    migrateRegistryStorageKeys
  split_ifs <;> exact ⟨rfl, rfl, rfl, rfl, rfl, rfl, rfl, rfl, rfl⟩

omit [Codec A] in
/-- The participants of the registry under their current keys, after the key move. -/
theorem migrateRegistryStorageKeys_current (id : UInt64) :
    (id < s.minerCount → (s.migrateRegistryStorageKeys s.version).miners.current id = s.participantBytes s.miners id) ∧
    (id < s.validatorCount →
      (s.migrateRegistryStorageKeys s.version).validators.current id = s.participantBytes s.validators id) := by
  unfold migrateRegistryStorageKeys participantBytes
  by_cases hv : 24 ≤ s.version
  · rw [if_pos hv, if_neg (by omega), if_neg (by omega)]
    exact ⟨fun _ => rfl, fun _ => rfl⟩
  · rw [if_neg hv, if_pos (by omega), if_pos (by omega)]
    refine ⟨fun hlt => ?_, fun hlt => ?_⟩
    · rw [RawMap.forEach_moveKey_current (idsBelow_nodup _), if_pos (mem_idsBelow.mpr hlt)]
    · rw [RawMap.forEach_moveKey_current (idsBelow_nodup _), if_pos (mem_idsBelow.mpr hlt)]

/-- From version 23 on, the rebuild leaves a counted subnet's miner index empty unless the subnet
    publishes a miner. -/
theorem minerRebuild_eq_nil (h : 23 ≤ s.version) (hlt : subnetId < s.subnetCount) :
    ((s.beforeRebuild s.version).minerRebuild.index subnetId).ids = [] ↔ ¬ s.PublishesMiner subnetId := by
  obtain ⟨hsubnets, hcount, -, hminers, -, hidentity, -, hlocked, -⟩ := s.beforeRebuild_ge_fields h
  rw [minerRebuild, IndexRebuild.run_index_eq_nil _ (hsubnets ▸ hlt)]
  refine not_congr (and_congr_right fun _ => exists_congr fun id => ?_)
  rw [mem_minerCandidates, hcount]
  refine and_congr_right fun hid => exists_congr fun miner => ?_
  rw [hminers, RawMap.get, (s.migrateRegistryStorageKeys_current id).1 hid]
  simp only [minerIsRouteEligible, minerHasActiveLockedBondRecord, ensureMinerSignatureBundleBound, registry, hidentity,
    hlocked]

theorem validatorRebuild_eq_nil (h : 23 ≤ s.version) (hlt : subnetId < s.subnetCount) :
    ((s.beforeRebuild s.version).validatorRebuild.index subnetId).ids = [] ↔ ¬ s.PublishesValidator subnetId := by
  obtain ⟨hsubnets, -, hcount, -, hvalidators, -, hidentity, -, hlocked⟩ := s.beforeRebuild_ge_fields h
  rw [validatorRebuild, IndexRebuild.run_index_eq_nil _ (hsubnets ▸ hlt)]
  refine not_congr (and_congr_right fun _ => exists_congr fun id => ?_)
  rw [mem_validatorCandidates, hcount]
  refine and_congr_right fun hid => exists_congr fun validator => ?_
  rw [hvalidators, RawMap.get, (s.migrateRegistryStorageKeys_current id).2 hid]
  simp only [validatorIsRouteEligible, validatorHasActiveLockedStakeRecord, ensureValidatorSignatureBundleBound,
    registry, hidentity, hlocked]

omit [Codec A] in
/-- After the rebuild the indexes are cleared below version 23, and kept from there on. -/
theorem afterRebuild_indexes (v : Nat) :
    (s.afterRebuild v).subnetCount = s.subnetCount ∧
      (s.afterRebuild v).activeMinersBySubnet = (if 23 ≤ v then s.activeMinersBySubnet else fun _ => .empty) ∧
      (s.afterRebuild v).activeValidatorsBySubnet =
        (if 23 ≤ v then s.activeValidatorsBySubnet else fun _ => .empty) := by
  unfold afterRebuild migrateProofRecordAuditCommitments migrateProofRecordAssignmentCommitments
    migrateProofRecordTimestamps rebuildRequestStatusCounts migrateParticipantCapitalRecords
    migrateActiveRoutingIndexValues
  split_ifs <;> exact ⟨rfl, rfl, rfl⟩
end

/-- **The indexes an upgrade leaves.** They are empty exactly when the upgrade starts below version 23, or
    no counted subnet has a route-eligible participant to publish. -/
theorem indexes_empty_iff_unpublished (s : Storage cfg) (hversion : s.version < 27) (currentBlock : BlockNumber) :
    (s.onRuntimeUpgrade currentBlock).IndexesEmpty ↔
      s.version < 23 ∨ ∀ subnetId, subnetId < s.subnetCount →
        ¬ s.PublishesMiner subnetId ∧ ¬ s.PublishesValidator subnetId := by
  rw [onRuntimeUpgrade, if_neg (by omega)]
  obtain ⟨hcount, hminers, hvalidators⟩ :=
    ((s.beforeRebuild s.version).rebuildActiveRoutingIndexes currentBlock).afterRebuild_indexes s.version
  simp only [IndexesEmpty, hcount, hminers, hvalidators]
  by_cases hv : 23 ≤ s.version
  · simp only [if_pos hv, Nat.not_lt.mpr hv, false_or]
    show (∀ subnetId, subnetId < (s.beforeRebuild s.version).subnetCount →
      ((s.beforeRebuild s.version).minerRebuild.index subnetId).ids = [] ∧
        ((s.beforeRebuild s.version).validatorRebuild.index subnetId).ids = []) ↔ _
    rw [(s.beforeRebuild_ge_fields hv).1]
    refine forall_congr' fun subnetId => imp_congr_right fun hlt => ?_
    rw [s.minerRebuild_eq_nil hv hlt, s.validatorRebuild_eq_nil hv hlt]
  · rw [if_neg hv, if_neg hv]
    exact ⟨fun _ => Or.inl (by omega), fun _ subnetId _ => ⟨rfl, rfl⟩⟩
end Storage
open Sample

/-- Storage at version 26 with a routable miner and a routable validator: the upgrade publishes both. -/
theorem indexes_published_at_26 :
    (Storage.ofState 26 opened.state : Storage config).version < 27 ∧
      ¬ ((Storage.ofState 26 opened.state : Storage config).onRuntimeUpgrade 2).IndexesEmpty := by
  refine ⟨by decide, fun h => ?_⟩
  have hminers := (h 0 (by decide +kernel)).1
  have hids : (((Storage.ofState 26 opened.state : Storage config).onRuntimeUpgrade
      2).activeMinersBySubnet 0).ids = [0] := by decide +kernel
  rw [hids] at hminers
  cases hminers

theorem indexes_empty_iff_unpublished_at_22 :
    ((Storage.ofState 22 opened.state : Storage config).onRuntimeUpgrade 2).IndexesEmpty :=
  (Storage.indexes_empty_iff_unpublished (Storage.ofState 22 opened.state) (by decide) 2).mpr (Or.inl (by decide))
end Qubitum
