import Qubitum.Migration.RequestSteps
import Qubitum.Migration.RoutingIndexes

/-!
# `Migration.Preservation` — an upgrade keeps the content of storage

The path of a record through an upgrade: its key is moved, its layout is translated, and nothing else
touches it, except that the index rebuild may start the exit of a participant it has no room for. The
three segments of the hook are taken one by one (`registrySteps_maps`, `requestSteps_cases`,
`Migrated.routingSteps`); each lemma says what a segment makes of the maps it is about and that it leaves the
others alone.

The counters of open requests are recomputed by the request migrations of versions 7 to 10 from the clear
assignments (`Holds.requestSteps_requests`).
-/

namespace Qubitum
open Scale Raw Dense Outcome

variable {A L : Type} {w : Nat} {cfg : Config A L w}

/-! ## The third segment, the rebuild, and what follows it -/

namespace Storage

/-- The steps after the rebuild touch indexes, counters over requests, and proof records only. -/
theorem afterRebuild_maps (s : Storage cfg) (v : Nat) :
    (s.afterRebuild v).subnets = s.subnets ∧ (s.afterRebuild v).miners = s.miners ∧
      (s.afterRebuild v).validators = s.validators ∧
      (s.afterRebuild v).inferenceRequests = s.inferenceRequests ∧
      (s.afterRebuild v).pending = s.pending ∧
      (s.afterRebuild v).proofRecords =
        (let timed := if 5 ≤ v then s.proofRecords
          else forEach (idsBelow s.requestCount) (RawMap.translate (ChainProofRecordV4.migrate cfg))
            s.proofRecords
         let assigned := if v < 5 ∨ 12 ≤ v then timed
          else forEach (idsBelow s.requestCount) (RawMap.translate (ChainProofRecordV11.migrate cfg)) timed
         if v < 12 ∨ 15 ≤ v then assigned
         else forEach (idsBelow s.requestCount) (RawMap.translate (ChainProofRecordV14.migrate cfg))
          assigned) := by
  refine ⟨?_, ?_, ?_, ?_, ?_, ?_⟩ <;>
  simp only [afterRebuild, migrateActiveRoutingIndexValues, clearActiveRoutingIndexStoragePrefixes,
    migrateParticipantCapitalRecords, rebuildRequestStatusCounts, migrateProofRecordTimestamps,
    migrateProofRecordAssignmentCommitments, migrateProofRecordAuditCommitments, apply_ite subnets,
    apply_ite miners, apply_ite validators, apply_ite inferenceRequests, apply_ite pending,
    apply_ite proofRecords, apply_ite requestCount, ite_self]

/-- Before a participant that overflowed there were as many candidates of its subnet as fit. -/
theorem overflow_noRoom {R : Type} {max : UInt32} {subnetCount : SubnetId} {candidates : List (UInt64 × SubnetId)}
    {loop : IndexRebuild max} (h : IndexRebuild.Indexed subnetCount candidates loop) {id : UInt64}
    (hid : id ∈ loop.overflow) (pending : UInt64 → RequestId)
    (hsorted : candidates.Pairwise fun a b => 0 < pending a.1 ∨ a.1 < b.1) {count : UInt64}
    {records : UInt64 → Option R} (subnetOf : R → SubnetId)
    (statusOf : R → RegistryStatus) (hcandidate : ∀ x subnetId, (x, subnetId) ∈ candidates →
      x < count ∧ ∃ r, records x = some r ∧ subnetOf r = subnetId ∧ statusOf r = .active)
    {r : R} (hr : records id = some r) (hlt : subnetOf r < subnetCount) :
    max.toNat ≤ (idsBelow count).countP fun x =>
      ((records x).any fun r' => subnetOf r' = subnetOf r && statusOf r' = .active) && (0 < pending x || x < id) := by
  obtain ⟨subnetId, front, back, rfl, hfull⟩ := h.full id hid
  obtain ⟨-, r', hr', rfl, -⟩ := hcandidate id subnetId (List.mem_append_right _ (List.mem_cons_self ..))
  obtain rfl : r = r' := Option.some.inj (hr.symm.trans hr')
  obtain ⟨ids, hnodup, hlen, hids⟩ := hfull hlt
  -- those that were in its way are distinct, and come before it
  have hsub : ids ⊆ (idsBelow count).filter fun x =>
      ((records x).any fun r' => subnetOf r' = subnetOf r && statusOf r' = .active) && (0 < pending x || x < id) := by
    intro x hx
    obtain ⟨hxlt, r', hxr, hxsub, hxactive⟩ := hcandidate x _ (List.mem_append_left _ (hids x hx))
    have hbefore := (List.pairwise_append.mp hsorted).2.2 _ (hids x hx) _ (List.mem_cons_self ..)
    refine List.mem_filter.mpr ⟨mem_idsBelow.mpr hxlt, ?_⟩
    rw [hxr, Bool.and_eq_true, Bool.or_eq_true, decide_eq_true_eq, decide_eq_true_eq]
    exact ⟨by simp [hxsub, hxactive], hbefore⟩
  have hle := (List.subperm_of_subset hnodup hsub).length_le
  rw [hlen, ← List.countP_eq_length_filter] at hle
  exact hle
end Storage

/-! ## Opening a migrated request -/

/-- A legacy commitment is opened under the zero blinding. -/
theorem ensureOpens_legacy (blinded legacy : Commitment) (mismatch : Error) :
    ensureOpens legacy blinded legacy zeroCommitment mismatch = .ok () :=
  ensure_bind_eq_ok.mpr ⟨Or.inr ⟨rfl, rfl⟩, ensure_eq_ok.mpr (Or.inr rfl)⟩

variable {request : ChainInferenceRequest}

/-- Terms that are stored as their legacy commitment are opened, if they are terms at all. -/
theorem ensureRequestTermsWitness_legacy {terms : InferenceRequestTerms w}
    (h : request.termsCommitment = cfg.legacyRequestTermsCommitment request.requestId terms.payment
      terms.validatorFeeBps terms.treasuryFeeBps) :
    ensureRequestTermsWitness cfg request ⟨terms, zeroCommitment⟩ = .ok () ↔
      0 < terms.payment ∧ terms.validatorFeeBps.toNat + terms.treasuryFeeBps.toNat ≤ bpsDenominator.toNat := by
  rw [ensureRequestTermsWitness, ensure_bind_eq_ok, bind_eq_ok, h]
  refine and_congr_right fun _ => ⟨?_, fun hsplit => ?_⟩
  · rintro ⟨⟨⟩, hsplit, -⟩
    exact validateFeeSplit_eq_ok.mp hsplit
  · exact ⟨(), validateFeeSplit_eq_ok.mpr hsplit, ensureOpens_legacy _ _ _⟩

theorem ensureRequestTimingWitness_legacy {createdAt : BlockNumber}
    (h : request.timingCommitment = cfg.legacyRequestTimingCommitment request.requestId createdAt) :
    ensureRequestTimingWitness cfg request ⟨createdAt, zeroCommitment⟩ = .ok () := by
  rw [ensureRequestTimingWitness, h]
  exact ensureOpens_legacy _ _ _

theorem ensureRequestAssignmentWitness_legacy {minerId : MinerId} {validatorId : ValidatorId}
    (h : request.assignmentCommitment =
      cfg.legacyRequestAssignmentCommitment request.requestId request.subnetId minerId validatorId) :
    ensureRequestAssignmentWitness cfg request minerId validatorId zeroCommitment = .ok () := by
  rw [ensureRequestAssignmentWitness, resolveRequestAssignmentCommitment, h, ensureOpens_legacy]
  rfl

section Kept
variable [Codec A]

/-- **A migrated request is operable.** Each of its commitments is the legacy form of what the layout stored
    in the clear, or the one the layout stored. -/
theorem StoredRequest.kept (r : StoredRequest A w) : RequestKept cfg r (r.migrate cfg) where
  requestId := by cases r <;> rfl
  subnetId := by cases r <;> rfl
  status := by cases r <;> rfl
  assignment minerId validatorId h := by
    cases r with
    | v8 old => cases h; exact ensureRequestAssignmentWitness_legacy rfl
    | v10 old => cases h; exact ensureRequestAssignmentWitness_legacy rfl
    | v12 old | v13 old | current request => cases h
  timing createdAt h := by
    cases r with
    | v8 old => cases h; exact ensureRequestTimingWitness_legacy rfl
    | v10 old => cases h; exact ensureRequestTimingWitness_legacy rfl
    | v12 old => cases h; exact ensureRequestTimingWitness_legacy rfl
    | v13 old | current request => cases h
  terms terms h := by
    cases r with
    | v8 old => cases h; exact ensureRequestTermsWitness_legacy rfl
    | v10 old => cases h; exact ensureRequestTermsWitness_legacy rfl
    | v12 old => cases h; exact ensureRequestTermsWitness_legacy rfl
    | v13 old => cases h; exact ensureRequestTermsWitness_legacy rfl
    | current request => cases h
  owner user h := by
    cases r with
    | v8 old =>
      obtain rfl : old.user = user := h
      rw [ensureRequestUser, ensure_eq_ok]
      simp [Config.requestUserCommitmentMatches, StoredRequest.migrate, ChainInferenceRequestV8.migrate]
    | v10 old | v12 old | v13 old | current request => exact ensure_eq_ok.mpr h
  assignmentCommitment c h := by cases r <;> cases h <;> rfl
  timingCommitment c h := by cases r <;> cases h <;> rfl
  termsCommitment c h := by
    cases r <;> cases h
    rfl
end Kept

/-! ## The whole upgrade -/

namespace Storage
variable [Codec A] {s t : Storage cfg} {content : Content A w}

/-- The storage the rebuild starts from: every record of the content, migrated. -/
structure Migrated (content : Content A w) (s t : Storage cfg) : Prop where
  counts : t.subnetCount = s.subnetCount ∧ t.minerCount = s.minerCount ∧
    t.validatorCount = s.validatorCount ∧ t.requestCount = s.requestCount
  subnets : ∀ id, id < s.subnetCount → t.subnets.current id = (content.subnets id).map fun r => encode (r.migrate cfg)
  miners : ∀ id, id < s.minerCount → t.miners.current id = (content.miners id).map fun r => encode (r.migrate cfg)
  validators : ∀ id, id < s.validatorCount →
    t.validators.current id = (content.validators id).map fun r => encode (r.migrate cfg)
  requests : ∀ id, id < s.requestCount →
    t.inferenceRequests.current id = (content.requests id).map fun r => encode (r.migrate cfg)
  proofs : ∀ id, id < s.requestCount → t.proofRecords.current id = (content.proofs id).map StoredProof.bytes
  pending : s.version < 11 → t.pending = RequestMigration.countAll
    ((idsBelow s.requestCount).filterMap fun id => (content.requests id).bind StoredRequest.openAssignment)
    (s.registrySteps s.version).clearPendingAssignmentCounters

/-- The third segment touches identities, capital records and indexes only. -/
theorem Migrated.routingSteps (h : Migrated content s t) (v : Nat) : Migrated content s (t.routingSteps v) := by
  unfold Storage.routingSteps migrateCapitalRecordStorageKeys migrateActiveRoutingIndexKeys
    migrateIdentitySignatureChallenges migrateIdentityStorageKeys
  split_ifs <;> exact ⟨h.counts, h.subnets, h.miners, h.validators, h.requests, h.proofs, h.pending⟩

theorem Holds.migrated (h : s.Holds content) (h7 : 7 ≤ s.version) : Migrated content s (s.beforeRebuild s.version) := by
  refine Migrated.routingSteps ?_ _
  obtain ⟨hrequests, hpending⟩ := h.requestSteps_requests h7
  -- the second segment touches requests, counters and totals only
  rcases (s.registrySteps s.version).requestSteps_cases h7 with
    ⟨-, hsteps⟩ | ⟨-, -, hsteps⟩ | ⟨-, -, hsteps⟩ | ⟨-, hsteps⟩ | ⟨-, hsteps⟩ <;>
  · rw [hsteps] at hrequests hpending ⊢
    exact ⟨(s.registrySteps_maps s.version).1, fun _ => h.registrySteps_subnets, fun _ => h.registrySteps_miners,
      fun _ => h.registrySteps_validators, hrequests, fun _ => h.registrySteps_proofs, hpending⟩

variable {id : MinerId} {subnetId : SubnetId} {r : StoredMiner A w}

section
variable (h : Migrated content s t)
include h

/-- A miner the rebuild could index is one of the content, `Active` on its subnet. -/
theorem Migrated.candidate_miner (hc : (id, subnetId) ∈ t.minerCandidates) :
    id < s.minerCount ∧ ∃ r, content.miners id = some r ∧ r.subnetId = subnetId ∧ r.status = .active := by
  obtain ⟨hlt, miner, hget, hsub, helig⟩ := mem_minerCandidates.mp hc
  rw [h.counts.2.1] at hlt
  rw [RawMap.get_of_current (h.miners id hlt)] at hget
  obtain ⟨r, hr, rfl⟩ := Option.map_eq_some_iff.mp hget
  simp only [minerIsRouteEligible, Bool.and_eq_true, decide_eq_true_eq] at helig
  cases r <;> exact ⟨hlt, _, hr, hsub, helig.1.1⟩

theorem Migrated.candidate_validator {id : ValidatorId} (hc : (id, subnetId) ∈ t.validatorCandidates) :
    id < s.validatorCount ∧ ∃ r, content.validators id = some r ∧ r.subnetId = subnetId ∧ r.status = .active := by
  obtain ⟨hlt, validator, hget, hsub, helig⟩ := mem_validatorCandidates.mp hc
  rw [h.counts.2.2.1] at hlt
  rw [RawMap.get_of_current (h.validators id hlt)] at hget
  obtain ⟨r, hr, rfl⟩ := Option.map_eq_some_iff.mp hget
  simp only [validatorIsRouteEligible, Bool.and_eq_true, decide_eq_true_eq] at helig
  cases r <;> exact ⟨hlt, _, hr, hsub, helig.1.1⟩

/-- The miners that come before one that overflowed leave no room for it. -/
theorem Migrated.noRoom_miners (hr : content.miners id = some r) (hover : id ∈ t.minerRebuild.overflow) :
    r.subnetId < s.subnetCount → cfg.maxActiveMinersPerSubnet.toNat ≤
      content.minersBefore s.minerCount r.subnetId (fun x => (t.pending.miners x).getD 0) id := by
  have hfull := overflow_noRoom
    (IndexRebuild.run_indexed _ t.subnetCount t.minerCandidates t.activeMinersBySubnet) hover
    (fun x => (t.pending.miners x).getD 0) t.minerCandidates_sorted StoredMiner.subnetId StoredMiner.status
    (fun _ _ => h.candidate_miner) hr
  rwa [h.counts.1] at hfull

theorem Migrated.noRoom_validators {id : ValidatorId} {r : StoredValidator A w}
    (hr : content.validators id = some r) (hover : id ∈ t.validatorRebuild.overflow) :
    r.subnetId < s.subnetCount → cfg.maxActiveValidatorsPerSubnet.toNat ≤
      content.validatorsBefore s.validatorCount r.subnetId (fun x => (t.pending.validators x).getD 0) id := by
  have hfull := overflow_noRoom
    (IndexRebuild.run_indexed _ t.subnetCount t.validatorCandidates t.activeValidatorsBySubnet) hover
    (fun x => (t.pending.validators x).getD 0) t.validatorCandidates_sorted StoredValidator.subnetId StoredValidator.status
    (fun _ _ => h.candidate_validator) hr
  rwa [h.counts.1] at hfull

/-- A miner after the rebuild. -/
theorem Migrated.rebuilt_miner (currentBlock : BlockNumber) (hlt : id < s.minerCount)
    (hr : content.miners id = some r) :
    ∃ miner : ChainMiner, (t.rebuildActiveRoutingIndexes currentBlock).miners.get id = some miner ∧
      miner.id = r.id ∧ miner.subnetId = r.subnetId ∧ miner.proofSystem = r.proofSystem ∧
      StatusKept r.status miner.status (Checked.saturatingAdd64 currentBlock cfg.minerExitCooldownBlocks)
        ((t.pending.miners id).getD 0)
        (r.subnetId < s.subnetCount → cfg.maxActiveMinersPerSubnet.toNat ≤
          content.minersBefore s.minerCount r.subnetId (fun x => (t.pending.miners x).getD 0) id) := by
  have hfields : (r.migrate cfg).id = r.id ∧ (r.migrate cfg).subnetId = r.subnetId ∧
      (r.migrate cfg).proofSystem = r.proofSystem ∧ (r.migrate cfg).status = r.status := by
    cases r <;> exact ⟨rfl, rfl, rfl, rfl⟩
  obtain ⟨hid, hsub, hproof, hstatus⟩ := hfields
  rw [rebuildActiveRoutingIndexes, RawMap.forEach_mutate_get, RawMap.get_of_current (h.miners id hlt), hr]
  swap
  · -- demoting twice is demoting once
    intro id miner
    unfold demoteMiner
    split_ifs <;> simp_all
  simp only [Option.map_some]
  split_ifs with hover
  · unfold demoteMiner
    split_ifs with hdemote
    · exact ⟨_, rfl, hid, hsub, hproof,
        Or.inr ⟨hstatus ▸ hdemote.1, rfl, hdemote.2, h.noRoom_miners hr hover⟩⟩
    · exact ⟨_, rfl, hid, hsub, hproof, Or.inl hstatus⟩
  · exact ⟨_, rfl, hid, hsub, hproof, Or.inl hstatus⟩

/-- A validator after the rebuild. -/
theorem Migrated.rebuilt_validator (currentBlock : BlockNumber) {id : ValidatorId} {r : StoredValidator A w}
    (hlt : id < s.validatorCount) (hr : content.validators id = some r) :
    ∃ validator : ChainValidator,
      (t.rebuildActiveRoutingIndexes currentBlock).validators.get id = some validator ∧
      validator.id = r.id ∧ validator.subnetId = r.subnetId ∧
      StatusKept r.status validator.status (Checked.saturatingAdd64 currentBlock cfg.validatorExitCooldownBlocks)
        ((t.pending.validators id).getD 0)
        (r.subnetId < s.subnetCount → cfg.maxActiveValidatorsPerSubnet.toNat ≤
          content.validatorsBefore s.validatorCount r.subnetId (fun x => (t.pending.validators x).getD 0) id) := by
  have hfields : (r.migrate cfg).id = r.id ∧ (r.migrate cfg).subnetId = r.subnetId ∧
      (r.migrate cfg).status = r.status := by
    cases r <;> exact ⟨rfl, rfl, rfl⟩
  obtain ⟨hid, hsub, hstatus⟩ := hfields
  rw [rebuildActiveRoutingIndexes, RawMap.forEach_mutate_get, RawMap.get_of_current (h.validators id hlt), hr]
  swap
  · intro id validator
    unfold demoteValidator
    split_ifs <;> simp_all
  simp only [Option.map_some]
  split_ifs with hover
  · unfold demoteValidator
    split_ifs with hdemote
    · exact ⟨_, rfl, hid, hsub,
        Or.inr ⟨hstatus ▸ hdemote.1, rfl, hdemote.2, h.noRoom_validators hr hover⟩⟩
    · exact ⟨_, rfl, hid, hsub, Or.inl hstatus⟩
  · exact ⟨_, rfl, hid, hsub, Or.inl hstatus⟩
end

omit [Codec A] in
/-- The proof migrations read the layout of their versions. -/
theorem afterRebuild_proof {v : Nat} (h5 : 5 ≤ v) {id : RequestId} (hlt : id < t.requestCount)
    {stored : Option StoredProof} (hwritten : ∀ r, stored = some r → r.writtenAt v)
    (hraw : t.proofRecords.current id = stored.map StoredProof.bytes) :
    (t.afterRebuild v).proofRecords.get id = stored.map (StoredProof.migrate cfg) := by
  have hid := mem_idsBelow.mpr hlt
  rw [(t.afterRebuild_maps v).2.2.2.2.2, if_pos h5, RawMap.get]
  cases hs : stored with
  | none =>
    rw [hs] at hraw
    have hnone : t.proofRecords.current id = none := hraw
    split_ifs <;> simp [RawMap.forEach_translate_current (idsBelow_nodup _), hid, hnone]
  | some r =>
    have hw := hwritten r hs
    rw [hs, Option.map_some] at hraw
    cases r with
    | v11 old =>
      obtain ⟨hge, hlt'⟩ : 5 ≤ v ∧ v < 12 := hw
      rw [if_pos (by omega), if_neg (by omega), RawMap.forEach_translate_current (idsBelow_nodup _),
        if_pos hid, hraw, StoredProof.bytes, translated_encode]
      exact decodeValue_encode _
    | v14 old =>
      obtain ⟨hge, hlt'⟩ : 12 ≤ v ∧ v < 15 := hw
      rw [if_neg (by omega), if_pos (by omega), RawMap.forEach_translate_current (idsBelow_nodup _),
        if_pos hid, hraw, StoredProof.bytes, translated_encode]
      exact decodeValue_encode _
    | current record =>
      have hge : 15 ≤ v := hw
      rw [if_pos (by omega), if_pos (by omega), hraw]
      exact decodeValue_encode record

/-! ### Counters -/

/-- The counters start from zero for every participant on record. -/
theorem Holds.cleared_miner (h : s.Holds content) (hlt : id < s.minerCount) (hsome : (content.miners id).isSome) :
    (s.registrySteps s.version).clearPendingAssignmentCounters.minerCount id = 0 := by
  obtain ⟨r, hr⟩ := Option.isSome_iff_exists.mp hsome
  refine PendingCounters.clear_miners (recordsBelow_fst_nodup _ _) (List.mem_map.mpr ?_)
  refine ⟨(id, r.migrate cfg), mem_recordsBelow.mpr ⟨?_, ?_⟩, rfl⟩
  · show id < (s.registrySteps s.version).minerCount
    rwa [(s.registrySteps_maps s.version).1.2.1]
  · show (s.registrySteps s.version).miners.get id = _
    rw [RawMap.get_of_current (h.registrySteps_miners hlt), hr]
    rfl

theorem Holds.cleared_validator (h : s.Holds content) {id : ValidatorId} (hlt : id < s.validatorCount)
    (hsome : (content.validators id).isSome) :
    (s.registrySteps s.version).clearPendingAssignmentCounters.validatorCount id = 0 := by
  obtain ⟨r, hr⟩ := Option.isSome_iff_exists.mp hsome
  refine PendingCounters.clear_validators (recordsBelow_fst_nodup _ _) (List.mem_map.mpr ?_)
  refine ⟨(id, r.migrate cfg), mem_recordsBelow.mpr ⟨?_, ?_⟩, rfl⟩
  · show id < (s.registrySteps s.version).validatorCount
    rwa [(s.registrySteps_maps s.version).1.2.2.1]
  · show (s.registrySteps s.version).validators.get id = _
    rw [RawMap.get_of_current (h.registrySteps_validators hlt), hr]
    rfl

section
omit [Codec A]
variable (content : Content A w) (requestCount : RequestId)

/-- The open assignments of a kind are the pending requests of that kind. -/
theorem countP_openAssignments (p : MinerId × ValidatorId → Bool) :
    ((idsBelow requestCount).filterMap fun id =>
      (content.requests id).bind StoredRequest.openAssignment).countP p =
      content.pendingRequests requestCount p := by
  rw [List.countP_filterMap, Content.pendingRequests]
  refine List.countP_congr fun id _ => ?_
  cases content.requests id with
  | none => simp
  | some r =>
    by_cases hs : r.status = .pending
    · cases hassigned : r.assignment <;> simp [StoredRequest.openAssignment, hs, hassigned]
    · simp [StoredRequest.openAssignment, hs]

theorem openAssignments_length_lt :
    ((idsBelow requestCount).filterMap fun id =>
      (content.requests id).bind StoredRequest.openAssignment).length < 2 ^ 64 := by
  refine lt_of_le_of_lt (List.length_filterMap_le _ _) ?_
  rw [idsBelow_length]
  exact requestCount.toNat_lt
end

theorem Migrated.pending_validator (hmig : Migrated content s t) (h : s.Holds content)
    (h11 : s.version < 11) {id : ValidatorId} (hlt : id < s.validatorCount) (hsome : (content.validators id).isSome)
    (hassigned : ∀ requestId r minerId, requestId < s.requestCount → content.requests requestId = some r →
      r.status = .pending → r.assignment = some (minerId, id) →
        minerId < s.minerCount ∧ (content.miners minerId).isSome) :
    t.pending.validatorCount id = content.pendingRequests s.requestCount fun a => a.2 = id := by
  have hlen := openAssignments_length_lt content s.requestCount
  have hzero := h.cleared_validator hlt hsome
  rw [hmig.pending h11, RequestMigration.countAll_validatorCount (by rwa [hzero, zero_add]), hzero, zero_add,
    countP_openAssignments]
  -- each of its requests names a miner whose counter started from zero
  rintro ⟨minerId, validatorId⟩ ha rfl
  obtain ⟨requestId, hid, hopen⟩ := List.mem_filterMap.mp ha
  obtain ⟨r, hr, hopen⟩ := Option.bind_eq_some_iff.mp hopen
  obtain ⟨hstatus, hassignment⟩ := StoredRequest.openAssignment_eq_some.mp hopen
  obtain ⟨hmlt, hmsome⟩ := hassigned requestId r minerId (mem_idsBelow.mp hid) hr hstatus hassignment
  rwa [h.cleared_miner hmlt hmsome, zero_add]

/-! ### The theorem -/

end Storage

namespace Sample

/-- Two `Active` miners on one subnet. -/
def crowdedActions : List (Action UInt64 64) :=
  [signed 1 (.createSubnet .general .stark),
    signed 1 (.registerMiner 0 (commitment 50) .stark),
    signed 1 (.setMinerIdentityCommitments 0 (some (commitment 20)) none (bundle 21)),
    signed 1 (.activateMiner 0 50),
    signed 3 (.registerMiner 0 (commitment 51) .stark),
    signed 3 (.setMinerIdentityCommitments 1 (some (commitment 25)) none (bundle 26)),
    signed 3 (.activateMiner 1 50)]

def crowded : State Ledger 64 := (start.run config crowdedActions).state

/-- A runtime that routes to one miner per subnet. -/
def tightConfig : Config UInt64 Ledger 64 := { config with maxActiveMinersPerSubnet := 1 }

def crowdedStorage : Storage tightConfig := (Content.ofState crowded).storeInto 26 (Storage.ofState 26 crowded)

/-- One record of each kind, as version 7 writes them. -/
def content7 : Content UInt64 64 where
  subnets id := if id = 0 then some (.v15 ⟨0, 1, .general, .stark, 5, 10, 1000, 10, true⟩) else none
  miners id := if id = 0 then some (.v7 ⟨0, 1, 0, commitment 50, .stark, 50, .active⟩) else none
  validators id := if id = 0 then some (.v7 ⟨0, 2, 0, 60, .active⟩) else none
  requests id :=
    if id = 0 then some (.v8 ⟨0, 7, 0, 0, 0, commitment 40, 100, 500, 100, 1, .pending⟩) else none
  proofs id :=
    if id = 0 then
      some (.v11 ⟨⟨0, 0, 0, 0, commitment 40, commitment 41, commitment 50,
        ⟨commitment 60, commitment 61, commitment 62, .starkV1⟩, .stark, 100, 10, 2⟩, 3⟩)
    else none

def storage7 : Storage config :=
  content7.storeInto 7
    { Storage.empty 7 with subnetCount := 1, minerCount := 1, validatorCount := 1, requestCount := 1 }

/-- The same, but the request was free and names miner 5, of which only a full counter is stored. -/
def strayContent : Content UInt64 64 :=
  { content7 with
    requests := fun id =>
      if id = 0 then some (.v8 ⟨0, 7, 0, 5, 0, commitment 40, 0, 500, 100, 1, .pending⟩) else none }

def strayStorage : Storage config :=
  strayContent.storeInto 7
    { Storage.empty 7 with
      subnetCount := 1, minerCount := 1, validatorCount := 1, requestCount := 1
      pending := ⟨fun id => if id = 5 then some (0 - 1) else none, fun _ => none⟩ }

theorem content7_writtenAt : content7.WrittenAt 7 := by
  constructor <;> intro id r hr <;> simp only [content7, Option.ite_none_right_eq_some, Option.some.injEq] at hr <;>
    obtain ⟨-, rfl⟩ := hr
  · exact show 7 < 16 by decide
  · exact show 7 = 7 from rfl
  · exact show 7 = 7 from rfl
  · exact show 7 ≤ 7 ∧ 7 < 9 by decide
  · exact show 5 ≤ 7 ∧ 7 < 12 by decide

theorem strayContent_writtenAt : strayContent.WrittenAt 7 :=
  { content7_writtenAt with
    requests := by
      intro id r hr
      simp only [strayContent, Option.ite_none_right_eq_some, Option.some.injEq] at hr
      obtain ⟨-, rfl⟩ := hr
      exact show 7 ≤ 7 ∧ 7 < 9 by decide }
end Sample
open Sample

end Qubitum
