import Qubitum.Migration.RegistrySteps
import Qubitum.Pallet.Book

/-!
# `Migration.RequestSteps` — the second segment of an upgrade

At most one of the request migrations runs (`requestSteps_cases`): a loop over the requests that translates
each record and, where the old layout still names the assignment in the clear, counts it for its miner and
validator. One round of the loop is about one request; a whole run translates every request
(`run_current`) and counts every open assignment (`forEach_round_pending`, `countAll_minerCount`,
`countAll_validatorCount`).
-/

namespace Qubitum
open Scale Raw Dense Outcome Function

variable {A L : Type} {w : Nat} {cfg : Config A L w} {pending : PendingCounters}

/-! ## The loop over requests -/

namespace RequestMigration
variable {Old : Type} {loop : RequestMigration w} {terms : InferenceRequestTerms w} {status : InferenceRequestStatus}
  {assignment : Option (MinerId × ValidatorId)}

@[simp] theorem recordAccounting_requests : (loop.recordAccounting terms status).requests = loop.requests := by
  unfold recordAccounting
  split <;> rfl

@[simp] theorem recordAccounting_pending : (loop.recordAccounting terms status).pending = loop.pending := by
  unfold recordAccounting
  split <;> rfl

@[simp] theorem recordPending_requests : (loop.recordPending assignment status).requests = loop.requests := by
  unfold recordPending
  split
  · split <;> rfl
  · rfl

variable [Codec Old] (layout : RequestLayout Old w) {id : RequestId}

theorem round_current_self : (round layout id loop).requests.current id =
    translated layout.migrate (loop.requests.current id) := by
  unfold round translated RawMap.get
  cases (loop.requests.current id).bind (decodeValue (α := Old)) with
  | none => rfl
  | some old => simp [RawMap.insert_current_self]

theorem round_current_of_ne {id' : RequestId} (h : id' ≠ id) :
    (round layout id loop).requests.current id' = loop.requests.current id' := by
  unfold round
  cases loop.requests.get (R := Old) id with
  | none => rfl
  | some old => simp [RawMap.insert_current_of_ne h]

/-- Every request is translated. -/
theorem run_current {requestCount : RequestId} (hlt : id < requestCount) (requests : RawMap RequestId)
    (pending : PendingCounters) :
    (run layout requestCount requests pending).requests.current id = translated layout.migrate (requests.current id) :=
  forEach_at (fun loop : RequestMigration w => loop.requests.current id) (translated layout.migrate)
    (idsBelow_nodup _) (mem_idsBelow.mpr hlt) (fun _ => round_current_self layout)
    fun _ _ hne _ => round_current_of_ne layout hne.symm

/-- The clear assignment of an open request. -/
def assigned (raw : Option Bytes) : Option (MinerId × ValidatorId) :=
  (raw.bind decodeValue).bind fun old => if layout.status old = .pending then layout.assignment old else none

/-- Count a list of assignments. -/
def countAll (assignments : List (MinerId × ValidatorId)) (pending : PendingCounters) : PendingCounters :=
  forEach assignments (fun a pending => pending.increment a.1 a.2) pending

theorem round_pending : (round layout id loop).pending =
    countAll (assigned layout (loop.requests.current id)).toList loop.pending := by
  unfold round assigned RawMap.get
  cases (loop.requests.current id).bind (decodeValue (α := Old)) with
  | none => rfl
  | some old =>
    simp only [Option.bind_some, recordPending]
    cases layout.assignment old with
    | none => simp [countAll]
    | some a =>
      by_cases hs : layout.status old = .pending
      · simp [hs, countAll]
      · simp [hs, countAll]

/-- **What the loop counts.** Each open request's assignment, in order. -/
theorem forEach_round_pending {ids : List RequestId} (hn : ids.Nodup) :
    (forEach ids (round layout) loop).pending =
      countAll (ids.filterMap fun id => assigned layout (loop.requests.current id)) loop.pending := by
  induction ids generalizing loop with
  | nil => rfl
  | cons id ids ih =>
    obtain ⟨hid, hn'⟩ := List.nodup_cons.mp hn
    -- the requests still to come are as they were
    have hrest : ids.filterMap (fun id' => assigned layout ((round layout id loop).requests.current id')) =
        ids.filterMap fun id' => assigned layout (loop.requests.current id') := by
      refine List.filterMap_congr fun id' hid' => ?_
      rw [round_current_of_ne layout (ne_of_mem_of_not_mem hid' hid)]
    rw [forEach_cons, ih hn', hrest, round_pending, List.filterMap_cons]
    cases assigned layout (loop.requests.current id) <;> rfl
end RequestMigration

/-! ## Counting assignments -/

namespace PendingCounters

/-- `PendingMinerRequests::get` and `PendingValidatorRequests::get`, as numbers. -/
def minerCount (pending : PendingCounters) (id : MinerId) : Nat := ((pending.miners id).getD 0).toNat

def validatorCount (pending : PendingCounters) (id : ValidatorId) : Nat := ((pending.validators id).getD 0).toNat
end PendingCounters

/-- A counter is refused only when it is full. -/
theorem incrementPending_error {counts : UInt64 → Option RequestId} {id : UInt64} {e : DispatchError}
    (h : incrementPending counts id = .error e) : 2 ^ 64 ≤ ((counts id).getD 0).toNat + 1 := by
  by_contra hroom
  have hadd : Checked.add64 ((counts id).getD 0) 1 = some ((counts id).getD 0 + 1) := by
    exact if_pos (Nat.not_le.mp hroom)
  rw [incrementPending, hadd] at h
  cases h

namespace PendingCounters

theorem increment_minerCount {id : MinerId} (h : pending.minerCount id + 1 < 2 ^ 64) (minerId : MinerId)
    (validatorId : ValidatorId) :
    (pending.increment minerId validatorId).minerCount id = pending.minerCount id + if id = minerId then 1 else 0 := by
  unfold increment
  cases hm : incrementPending pending.miners minerId with
  | error e =>
    have hfull := incrementPending_error hm
    have hne : id ≠ minerId := by
      rintro rfl
      exact absurd h (Nat.not_lt.mpr hfull)
    simp [hne]
  | ok miners =>
    have hbump := incrementPending_ok hm id
    cases incrementPending pending.validators validatorId with
    | error e => exact hbump
    | ok validators => exact hbump

/-- The validator's counter is reached only if the miner's had room. -/
theorem increment_validatorCount {id validatorId : ValidatorId} {minerId : MinerId}
    (h : pending.validatorCount id + 1 < 2 ^ 64) (hminer : validatorId = id → pending.minerCount minerId + 1 < 2 ^ 64) :
    (pending.increment minerId validatorId).validatorCount id =
      pending.validatorCount id + if id = validatorId then 1 else 0 := by
  unfold increment
  cases hm : incrementPending pending.miners minerId with
  | error e =>
    have hne : id ≠ validatorId := by
      rintro rfl
      exact absurd (hminer rfl) (Nat.not_lt.mpr (incrementPending_error hm))
    simp [hne]
  | ok miners =>
    cases hv : incrementPending pending.validators validatorId with
    | error e =>
      have hne : id ≠ validatorId := by
        rintro rfl
        exact absurd h (Nat.not_lt.mpr (incrementPending_error hv))
      simp [hne, validatorCount]
    | ok validators => exact incrementPending_ok hv id

variable {miners validators : List UInt64} {id : UInt64}

theorem clear_miners (hn : miners.Nodup) (h : id ∈ miners) : (pending.clear miners validators).minerCount id = 0 := by
  have hnone : (pending.clear miners validators).miners id = none :=
    forEach_at (fun counts : UInt64 → Option RequestId => counts id) (fun _ => none) hn h
      (fun _ => update_self ..) fun _ _ hne _ => update_of_ne hne.symm _ _
  rw [minerCount, hnone]
  rfl

theorem clear_validators (hn : validators.Nodup) (h : id ∈ validators) :
    (pending.clear miners validators).validatorCount id = 0 := by
  have hnone : (pending.clear miners validators).validators id = none :=
    forEach_at (fun counts : UInt64 → Option RequestId => counts id) (fun _ => none) hn h
      (fun _ => update_self ..) fun _ _ hne _ => update_of_ne hne.symm _ _
  rw [validatorCount, hnone]
  rfl
end PendingCounters

namespace RequestMigration
variable {assignments : List (MinerId × ValidatorId)}

/-- **Miners are counted** as often as they are assigned. -/
theorem countAll_minerCount {id : MinerId} (h : pending.minerCount id + assignments.length < 2 ^ 64) :
    (countAll assignments pending).minerCount id = pending.minerCount id + assignments.countP fun a => a.1 = id := by
  induction assignments generalizing pending with
  | nil => rfl
  | cons a assignments ih =>
    rw [List.length_cons] at h
    have hstep := PendingCounters.increment_minerCount (show pending.minerCount id + 1 < 2 ^ 64 by omega) a.1 a.2
    have hle : (pending.increment a.1 a.2).minerCount id ≤ pending.minerCount id + 1 := by
      rw [hstep]; split <;> omega
    show (countAll assignments (pending.increment a.1 a.2)).minerCount id = _
    rw [ih (by omega), hstep, List.countP_cons]
    simp only [decide_eq_true_eq, eq_comm (a := id)]
    omega

/-- **Validators are counted** as often as they are assigned, where the miners' counters have room. -/
theorem countAll_validatorCount {id : ValidatorId} (h : pending.validatorCount id + assignments.length < 2 ^ 64)
    (hminers : ∀ a ∈ assignments, a.2 = id → pending.minerCount a.1 + assignments.length < 2 ^ 64) :
    (countAll assignments pending).validatorCount id =
      pending.validatorCount id + assignments.countP fun a => a.2 = id := by
  induction assignments generalizing pending with
  | nil => rfl
  | cons a assignments ih =>
    rw [List.length_cons] at h
    have hroom : ∀ b ∈ a :: assignments, b.2 = id →
        pending.minerCount b.1 + (assignments.length + 1) < 2 ^ 64 := by
      simpa only [List.length_cons] using hminers
    have hstep : (pending.increment a.1 a.2).validatorCount id =
        pending.validatorCount id + if id = a.2 then 1 else 0 := by
      refine PendingCounters.increment_validatorCount (by omega) fun heq => ?_
      have := hroom a List.mem_cons_self heq
      omega
    have hle : (pending.increment a.1 a.2).validatorCount id ≤ pending.validatorCount id + 1 := by
      rw [hstep]; split <;> omega
    show (countAll assignments (pending.increment a.1 a.2)).validatorCount id = _
    rw [ih (by omega), hstep, List.countP_cons]
    · simp only [decide_eq_true_eq, eq_comm (a := id)]
      omega
    · intro b hb heq
      have hb' := hroom b (List.mem_cons_of_mem a hb) heq
      rw [PendingCounters.increment_minerCount (by omega)]
      split <;> omega
end RequestMigration

/-! ## The second segment: requests -/

section Requests
variable [Codec A]

/-- The clear assignment of a stored request that is open. -/
def StoredRequest.openAssignment (r : StoredRequest A w) : Option (MinerId × ValidatorId) :=
  if r.status = .pending then r.assignment else none

omit [Codec A] in
theorem StoredRequest.openAssignment_eq_some {r : StoredRequest A w} {a : MinerId × ValidatorId} :
    r.openAssignment = some a ↔ r.status = .pending ∧ r.assignment = some a := by
  unfold openAssignment
  by_cases hstatus : r.status = .pending
  · rw [if_pos hstatus]
    exact ⟨fun h => ⟨hstatus, h⟩, And.right⟩
  · rw [if_neg hstatus]
    exact ⟨nofun, fun h => absurd h.1 hstatus⟩

/-- A layout reads a stored request: its bytes decode, to the same current record and assignment. -/
def RequestLayout.Reads {Old : Type} [Codec Old] (layout : RequestLayout Old w) (cfg : Config A L w)
    (r : StoredRequest A w) : Prop :=
  ∃ old : Old, r.bytes = encode old ∧ r.migrate cfg = layout.migrate old ∧
    r.openAssignment = if layout.status old = .pending then layout.assignment old else none

/-- **A request migration over a content it reads.** -/
theorem RequestMigration.run_content {Old : Type} [Codec Old] {layout : RequestLayout Old w}
    {requestCount : RequestId} {requests : RawMap RequestId} {stored : RequestId → Option (StoredRequest A w)}
    (hraw : ∀ id, id < requestCount → requests.current id = (stored id).map StoredRequest.bytes)
    (hreads : ∀ id r, stored id = some r → layout.Reads cfg r) (pending : PendingCounters) :
    (∀ id, id < requestCount → (run layout requestCount requests pending).requests.current id =
      (stored id).map fun r => encode (r.migrate cfg)) ∧
    (run layout requestCount requests pending).pending =
      countAll ((idsBelow requestCount).filterMap fun id => (stored id).bind StoredRequest.openAssignment) pending := by
  constructor
  · intro id hlt
    rw [run_current layout hlt, hraw id hlt]
    cases hc : stored id with
    | none => rfl
    | some r =>
      obtain ⟨old, hbytes, hmigrate, -⟩ := hreads id r hc
      rw [Option.map_some, hbytes, translated_encode, Option.map_some, hmigrate]
  · rw [run, forEach_round_pending layout (idsBelow_nodup _)]
    congr 1
    refine List.filterMap_congr fun id hid => ?_
    rw [hraw id (mem_idsBelow.mp hid)]
    cases hc : stored id with
    | none => rfl
    | some r =>
      obtain ⟨old, hbytes, -, hopen⟩ := hreads id r hc
      simp [assigned, hbytes, hopen]

namespace Storage
variable {v : Nat}

/-- One migration runs below version 14, and it reads the layout of that version. -/
theorem requestSteps_cases (s : Storage cfg) (h7 : 7 ≤ v) :
    (v < 9 ∧ s.requestSteps v = s.migrateRequests (requestLayoutV8 cfg) s.clearPendingAssignmentCounters) ∨
    (9 ≤ v ∧ v < 11 ∧ s.requestSteps v = s.migrateRequests (requestLayoutV10 cfg) s.clearPendingAssignmentCounters) ∨
    (11 ≤ v ∧ v < 13 ∧ s.requestSteps v = s.migrateRequests (requestLayoutV12 cfg) s.pending) ∨
    (v = 13 ∧ s.requestSteps v = s.migrateRequests (requestLayoutV13 cfg) s.pending) ∨
    (14 ≤ v ∧ s.requestSteps v = s) := by
  unfold requestSteps migrateRequestTermsCommitments migrateRequestTimingCommitments migrateRequestOwnerCommitments
    migrateRequestAssignmentCommitments
  have hversion : v < 9 ∨ 9 ≤ v ∧ v < 11 ∨ 11 ≤ v ∧ v < 13 ∨ v = 13 ∨ 14 ≤ v := by omega
  rcases hversion with hv | ⟨hge, hlt⟩ | ⟨hge, hlt⟩ | hv | hv
  · refine Or.inl ⟨hv, ?_⟩
    rw [if_pos (by omega), if_pos (by omega), if_neg (by omega), if_pos (by omega)]
  · refine Or.inr (Or.inl ⟨hge, hlt, ?_⟩)
    rw [if_pos (by omega), if_pos (by omega), if_pos (by omega), if_neg (by omega)]
  · refine Or.inr (Or.inr (Or.inl ⟨hge, hlt, ?_⟩))
    rw [if_pos (by omega), if_neg (by omega), if_pos (by omega), if_pos (by omega)]
  · refine Or.inr (Or.inr (Or.inr (Or.inl ⟨hv, ?_⟩)))
    rw [if_neg (by omega), if_pos (by omega), if_pos (by omega), if_pos (by omega)]
  · refine Or.inr (Or.inr (Or.inr (Or.inr ⟨hv, ?_⟩)))
    rw [if_pos (by omega), if_pos (by omega), if_pos (by omega), if_pos (by omega)]

variable {s : Storage cfg} {content : Content A w}

/-- The layout a request is stored in is read by the migration of its version. -/
theorem Holds.reads (h : s.Holds content) {id : RequestId} {r : StoredRequest A w} (hr : content.requests id = some r) :
    (s.version < 9 → 7 ≤ s.version → (requestLayoutV8 cfg).Reads cfg r) ∧
    (9 ≤ s.version → s.version < 11 → (requestLayoutV10 cfg).Reads cfg r) ∧
    (11 ≤ s.version → s.version < 13 → (requestLayoutV12 cfg).Reads cfg r) ∧
    (s.version = 13 → (requestLayoutV13 cfg).Reads cfg r) := by
  have hw := h.requests.layout id r hr
  cases r with
  | v8 old =>
    obtain ⟨hge, hlt⟩ : 7 ≤ s.version ∧ s.version < 9 := hw
    exact ⟨fun _ _ => ⟨old, rfl, rfl, rfl⟩, fun _ _ => by omega, fun _ _ => by omega, fun _ => by omega⟩
  | v10 old =>
    obtain ⟨hge, hlt⟩ : 9 ≤ s.version ∧ s.version < 11 := hw
    exact ⟨fun _ _ => by omega, fun _ _ => ⟨old, rfl, rfl, rfl⟩, fun _ _ => by omega, fun _ => by omega⟩
  | v12 old =>
    obtain ⟨hge, hlt⟩ : 11 ≤ s.version ∧ s.version < 13 := hw
    exact ⟨fun _ _ => by omega, fun _ _ => by omega, fun _ _ => ⟨old, rfl, rfl, rfl⟩, fun _ => by omega⟩
  | v13 old =>
    have hv : s.version = 13 := hw
    exact ⟨fun _ _ => by omega, fun _ _ => by omega, fun _ _ => by omega, fun _ => ⟨old, rfl, rfl, rfl⟩⟩
  | current request =>
    have hv : 14 ≤ s.version := hw
    exact ⟨fun _ _ => by omega, fun _ _ => by omega, fun _ _ => by omega, fun _ => by omega⟩

/-- The requests after the second segment, and the counters it leaves at versions 7 to 10. -/
theorem Holds.requestSteps_requests (h : s.Holds content) (h7 : 7 ≤ s.version) :
    (∀ id, id < s.requestCount →
      ((s.registrySteps s.version).requestSteps s.version).inferenceRequests.current id =
        (content.requests id).map fun r => encode (r.migrate cfg)) ∧
    (s.version < 11 → ((s.registrySteps s.version).requestSteps s.version).pending =
      RequestMigration.countAll
        ((idsBelow s.requestCount).filterMap fun id =>
          (content.requests id).bind StoredRequest.openAssignment)
        (s.registrySteps s.version).clearPendingAssignmentCounters) := by
  have hcount : (s.registrySteps s.version).requestCount = s.requestCount := (s.registrySteps_maps s.version).1.2.2.2
  have hraw := fun id (hlt : id < s.requestCount) => h.registrySteps_requests hlt
  rcases (s.registrySteps s.version).requestSteps_cases h7 with
    ⟨hv, heq⟩ | ⟨hge, hlt, heq⟩ | ⟨hge, hlt, heq⟩ | ⟨hv, heq⟩ | ⟨hv, heq⟩
  · have hrun := RequestMigration.run_content hraw (fun id r hr => (h.reads hr).1 hv h7)
      (s.registrySteps s.version).clearPendingAssignmentCounters
    rw [heq, migrateRequests, hcount]
    exact ⟨hrun.1, fun _ => hrun.2⟩
  · have hrun := RequestMigration.run_content hraw (fun id r hr => (h.reads hr).2.1 hge hlt)
      (s.registrySteps s.version).clearPendingAssignmentCounters
    rw [heq, migrateRequests, hcount]
    exact ⟨hrun.1, fun _ => hrun.2⟩
  · have hrun := RequestMigration.run_content hraw (fun id r hr => (h.reads hr).2.2.1 hge hlt)
      (s.registrySteps s.version).pending
    rw [heq, migrateRequests, hcount]
    exact ⟨hrun.1, fun _ => by omega⟩
  · have hrun := RequestMigration.run_content hraw (fun id r hr => (h.reads hr).2.2.2 hv)
      (s.registrySteps s.version).pending
    rw [heq, migrateRequests, hcount]
    exact ⟨hrun.1, fun _ => by omega⟩
  · rw [heq]
    refine ⟨fun id hlt => ?_, fun _ => by omega⟩
    rw [hraw id hlt]
    cases hc : content.requests id with
    | none => rfl
    | some r =>
      have hw := h.requests.layout id r hc
      cases r with
      | v8 old => exact absurd hw.2 (by omega)
      | v10 old => exact absurd hw.2 (by omega)
      | v12 old => exact absurd hw.2 (by omega)
      | v13 old => exact absurd (show s.version = 13 from hw) (by omega)
      | current request => rfl
end Storage
end Requests
end Qubitum
