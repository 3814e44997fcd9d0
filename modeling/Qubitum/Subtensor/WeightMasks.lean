import Qubitum.Subtensor.CommitReveal
import Qubitum.Subtensor.NeuronRuns

/-!
# `Subtensor.WeightMasks` — weights for a neuron and the age of the neuron

`epoch_mechanism` drops a weight for a neuron that registered after the weight was submitted. It does not know when
that was: it looks at `LastUpdate`, which every commit overwrites, and at the oldest commit that still waits.

A replaced neuron loses the weights set for it, so no weight was set or revealed before its neuron registered; and a
weight that was set directly is newer (`Sound`). But a vector can be committed before and revealed after a replacement,
and the next commit of the validator hides it from both masks.

The queue of timelocked commits is left out: one is revealed with whatever it decrypts to, and only commit-reveal lets
one in. Batches of reveals set weights in the same way.
-/

namespace Qubitum.Subtensor
open Outcome Function

structure Mechanism (A H : Type) where
  cfg : WeightsConfig A H
  netuid : NetUid
  mecid : MechId
  /-- `CommitRevealWeightsEnabled`, throughout -/
  commitReveal : Bool

structure MechanismState (A H : Type) where
  core : WeightsState A H
  neurons : Neurons A
  table : NeuronTable
  /-- when the weights of a neuron were set or revealed; not stored by the pallet -/
  writtenAt : UInt16 → Nat

inductive MechanismAction (A H : Type) where
  | nextBlock
  /-- `register_neuron`; `prune` is replaced when the subnet is full -/
  | register (hotkey : A) (prune : UInt16)
  | setWeights (env : WeightsEnv A) (who : A) (uids values : List UInt16) (versionKey : UInt64)
  | commit (env : WeightsEnv A) (who : A) (hash : H)
  | reveal (env : WeightsEnv A) (who : A) (data : WeightsData)
  | commitTimelocked (env : WeightsEnv A) (who : A)
  | revealTimelocked (env : WeightsEnv A) (who : A) (uids values : List UInt16) (versionKey : UInt64)

variable {A H : Type}

abbrev Mechanism.index (m : Mechanism A H) : MechanismIndex := getMechanismStorageIndex m.netuid m.mecid

namespace MechanismState
variable (s : MechanismState A H) (m : Mechanism A H)

/-- The weights set by a neuron. -/
abbrev row (uid : UInt16) : List (UInt16 × UInt16) := s.core.weights m.index uid

abbrev registeredAt (uid : UInt16) : Nat := s.table.blockAtRegistration m.netuid uid

abbrev lastUpdate : List Nat := s.core.lastUpdate m.index
end MechanismState

namespace Mechanism
variable [DecidableEq A] (m : Mechanism A H) (s : MechanismState A H)

/-- `set_last_update_for_uid` of a registration, for which the vector is made `n` long, after `clear_neuron` if a neuron
    was replaced. -/
def coreAfter (n : Nat) (uid : UInt16) (replaced : Bool) : WeightsState A H :=
  { s.core with
    weights := update s.core.weights m.index fun i =>
      if ¬ replaced then s.row m i
      else if i = uid then []
      else (s.row m i).map fun e => (e.1, if e.1 = uid then 0 else e.2)
    lastUpdate := update s.core.lastUpdate m.index
      ((s.lastUpdate m ++ List.replicate (n - (s.lastUpdate m).length) 0).set uid.toNat s.core.block) }

def register (hotkey : A) (prune : UInt16) : MechanismState A H :=
  let n := s.neurons.subnetworkN m.netuid
  if (s.neurons.uids m.netuid hotkey).isSome then s
  else if n < s.table.maxAllowedUids m.netuid then
    { s with
      core := m.coreAfter s (n.toNat + 1) n false
      neurons := s.neurons.append m.netuid hotkey
      table := s.table.append m.netuid n s.core.block }
  else
    match s.neurons.keys m.netuid prune with
    | none     => s
    | some old =>
        if s.neurons.subnetOwnerHotkey m.netuid = some old then s
        else
          { s with
            core := m.coreAfter s n.toNat prune true
            neurons := s.neurons.replace m.netuid prune old hotkey
            table := s.table.replace m.netuid prune s.core.block }

/-- What a call reads, with the neurons there are. -/
def envOf (env : WeightsEnv A) : WeightsEnv A :=
  { env with neurons := s.neurons, commitRevealWeightsEnabled := fun _ => m.commitReveal }

/-- A call that fails changes nothing. -/
def accept (who : A) (writes : Bool) : Except DispatchError (WeightsState A H) → MechanismState A H
  | .error _ => s
  | .ok core =>
      match s.neurons.uids m.netuid who, writes with
      | some uid, true => { s with core, writtenAt := update s.writtenAt uid s.core.block }
      | _, _           => { s with core }

/-- `internal_commit_timelocked_weights`, without the queue -/
def commitTimelocked (env : WeightsEnv A) (who : A) : Except DispatchError (WeightsState A H) := do
  env.ensureMechanismExists m.netuid m.mecid
  ensure (env.commitRevealWeightsEnabled m.netuid) .commitRevealDisabled
  let uid ← okOr (env.neurons.uids m.netuid who) .hotKeyNotRegisteredInSubNet
  ensure (s.core.checkRateLimit env m.index uid) .committingWeightsTooFast
  pure (s.core.setLastUpdateForUid m.index uid s.core.block)

/-- Weights are set directly without commit-reveal, and timelocked ones revealed with it. -/
def setWhen (commitReveal : Bool) (env : WeightsEnv A) (who : A) (uids values : List UInt16) (versionKey : UInt64) :
    MechanismState A H :=
  if m.commitReveal = commitReveal then
    m.accept s who true (internalSetWeights m.cfg (m.envOf s env) who m.netuid m.mecid uids values versionKey s.core)
  else s

def step [DecidableEq H] (m : Mechanism A H) (s : MechanismState A H) : MechanismAction A H → MechanismState A H
  | .nextBlock => { s with core := { s.core with block := s.core.block + 1 } }
  | .register hotkey prune => m.register s hotkey prune
  | .setWeights env who uids values versionKey => m.setWhen s false env who uids values versionKey
  | .commit env who hash =>
      m.accept s who false (internalCommitWeights m.cfg (m.envOf s env) who m.netuid m.mecid hash s.core)
  | .reveal env who data =>
      m.accept s who true (internalRevealWeights m.cfg (m.envOf s env) who m.netuid m.mecid data s.core)
  | .commitTimelocked env who => m.accept s who false (m.commitTimelocked s (m.envOf s env) who)
  | .revealTimelocked env who uids values versionKey => m.setWhen s true env who uids values versionKey

/-- The oldest commit of a hotkey that is not expired. -/
def oldestCommit (who : A) : Option Nat :=
  ((s.core.queue m.index who).map (·.commitBlock)).find? fun block => ¬ isCommitExpired m.cfg m.netuid s.core.block block

/-- The row of a neuron in `epoch_mechanism` after the masks for permits, for the diagonal, for outdated weights and for
    commits. `timelocked` are the timelocked commits of the neuron that are not expired. -/
def maskedRow (validatorForbids : UInt16 → Bool) (ownerUid : Option UInt16) (timelocked : List Nat) (i : UInt16) :
    List (UInt16 × UInt16) :=
  if validatorForbids i then []
  else (s.row m i).filter fun e =>
    e.1 < s.neurons.subnetworkN m.netuid && (i ≠ e.1 || ownerUid = some i) &&
      s.registeredAt m e.1 < (s.lastUpdate m).getD i.toNat 0 &&
      (!m.commitReveal || (((s.neurons.keys m.netuid i).bind (m.oldestCommit s)).toList ++ timelocked).all
        (s.registeredAt m e.1 ≤ ·))

/-! ## What every run keeps -/

/-- Weights are no older than the neurons they are for, and without commit-reveal `LastUpdate` says how old they are. -/
structure Sound : Prop where
  registry : Registry m.netuid s.neurons s.table
  past : ∀ uid, s.registeredAt m uid ≤ s.core.block
  known : ∀ i, s.row m i ≠ [] → (s.neurons.keys m.netuid i).isSome
  entries : ∀ i j w, (j, w) ∈ s.row m i →
    (s.neurons.keys m.netuid j).isSome ∧ (w ≠ 0 → s.registeredAt m j ≤ s.writtenAt i)
  length : (s.neurons.subnetworkN m.netuid).toNat ≤ (s.lastUpdate m).length
  direct : m.commitReveal = false → ∀ i, s.row m i ≠ [] → (s.lastUpdate m).getD i.toNat 0 = s.writtenAt i

variable {m s} {who : A} {env : WeightsEnv A} {core : WeightsState A H}

/-- A call that wrote the weights of its signer. -/
def Written (m : Mechanism A H) (s : MechanismState A H) (who : A) (core : WeightsState A H) : Prop :=
  ∃ uid row, s.neurons.uids m.netuid who = some uid ∧ (∀ e ∈ row, (s.neurons.keys m.netuid e.1).isSome) ∧
    core.block = s.core.block ∧ core.weights m.index = update (s.core.weights m.index) uid row ∧
    core.lastUpdate m.index =
      if m.commitReveal then s.lastUpdate m else (s.lastUpdate m).set uid.toNat s.core.block

omit [DecidableEq A] in
theorem internalSetWeights_written {uids values : List UInt16} {versionKey : UInt64}
    (h : internalSetWeights m.cfg (m.envOf s env) who m.netuid m.mecid uids values versionKey s.core = .ok core) :
    Written m s who core := by
  unfold internalSetWeights WeightsEnv.ensureMechanismExists at h
  simp only [bind_assoc, ensure_bind_eq_ok, okOr_bind_eq_ok, pure_eq_ok] at h
  obtain ⟨-, -, -, -, -, uid, huid, -, -, -, -, -, hvalid, -, -, rfl⟩ := h
  refine ⟨uid, uids.zip (vecU16MaxUpscaleToU16 values), huid, fun e he => ?_, ?_⟩
  · -- an invalid uid would have been found
    by_contra hnone
    refine hvalid (List.any_eq_true.mpr ⟨e.1, (List.of_mem_zip he).1, ?_⟩)
    rw [Option.isNone_iff_eq_none]
    exact Option.not_isSome_iff_eq_none.mp hnone
  · have henabled : (m.envOf s env).commitRevealWeightsEnabled m.netuid = m.commitReveal := rfl
    rw [henabled]
    cases m.commitReveal <;> simp [WeightsState.insertWeights, WeightsState.setLastUpdateForUid]

theorem internalRevealWeights_written [DecidableEq H] {data : WeightsData}
    (h : internalRevealWeights m.cfg (m.envOf s env) who m.netuid m.mecid data s.core = .ok core) :
    Written m s who core := by
  obtain ⟨-, h⟩ := ensure_ok h
  obtain ⟨stored, -, h⟩ := okOr_ok h
  obtain ⟨-, h⟩ := ensure_ok h
  obtain ⟨-, h⟩ := ensure_ok h
  split at h
  · obtain ⟨commit, -, h⟩ := okOr_ok h
    obtain ⟨-, h⟩ := ensure_ok h
    exact internalSetWeights_written (s := { s with core := s.core.storeCommits _ _ _ }) h
  · cases h

/-- **Writing weights** keeps everything in order: no neuron registers later than now. -/
theorem Sound.write (h : m.Sound s) (hwritten : Written m s who core) : m.Sound (m.accept s who true (.ok core)) := by
  obtain ⟨uid, row, huid, hrow, hblock, hweights, hlast⟩ := hwritten
  have haccept : m.accept s who true (.ok core) =
      { s with core, writtenAt := update s.writtenAt uid s.core.block } := by
    unfold accept
    rw [huid]
  have hkey : (s.neurons.keys m.netuid uid).isSome := by
    rw [(h.registry.mirrored uid who).mpr huid]
    rfl
  have hlt : uid.toNat < (s.lastUpdate m).length :=
    lt_of_lt_of_le (UInt16.lt_iff_toNat_lt.mp ((h.registry.filled uid).mp hkey)) h.length
  rw [haccept]
  refine ⟨h.registry, ?_, ?_, ?_, ?_, ?_⟩
  · exact fun uid' => (h.past uid').trans_eq hblock.symm
  · intro i hi
    by_cases hself : i = uid
    · exact hself ▸ hkey
    · refine h.known i ?_
      simpa [MechanismState.row, hweights, update_of_ne hself] using hi
  · intro i j w hj
    by_cases hself : i = uid
    · subst hself
      simp only [MechanismState.row, hweights, update_self] at hj ⊢
      exact ⟨hrow _ hj, fun _ => h.past j⟩
    · simp only [MechanismState.row, hweights, update_of_ne hself] at hj ⊢
      exact h.entries i j w hj
  · show _ ≤ (core.lastUpdate m.index).length
    rw [hlast]
    split_ifs
    · exact h.length
    · simpa using h.length
  · intro hoff i hi
    show (core.lastUpdate m.index).getD i.toNat 0 = _
    rw [hlast, hoff, if_neg (by decide)]
    by_cases hself : i = uid
    · subst hself
      simp [hlt]
    · have hne : uid.toNat ≠ i.toNat := fun heq => hself (UInt16.toNat_inj.mp heq.symm)
      have hrow' : s.row m i ≠ [] := by
        simpa [MechanismState.row, hweights, update_of_ne hself] using hi
      simpa [update_of_ne hself, List.getElem?_set_ne hne] using h.direct hoff i hrow'

/-- With commit-reveal, a commit changes nothing that matters here. -/
theorem Sound.committed (h : m.Sound s) (hon : m.commitReveal = true) (hblock : core.block = s.core.block)
    (hweights : core.weights = s.core.weights) (hlength : (core.lastUpdate m.index).length = (s.lastUpdate m).length) :
    m.Sound (m.accept s who false (.ok core)) := by
  have haccept : m.accept s who false (.ok core) = { s with core } := by
    unfold accept
    cases s.neurons.uids m.netuid who <;> rfl
  rw [haccept]
  refine ⟨h.registry, fun uid => (h.past uid).trans_eq hblock.symm, ?_, ?_, h.length.trans_eq hlength.symm, ?_⟩
  · simpa [MechanismState.row, hweights] using h.known
  · simpa [MechanismState.row, hweights] using h.entries
  · intro hoff
    rw [hon] at hoff
    cases hoff

section Registering
variable {uid : UInt16} {n : Nat} {replaced : Bool}
  (h : m.Sound s) (hcleared : replaced = true ∨ ¬ (s.neurons.keys m.netuid uid).isSome)
include h hcleared

/-- The weights that are left belong to other neurons, and those that are not zero are for other neurons. -/
theorem row_coreAfter (i : UInt16) :
    ((m.coreAfter s n uid replaced).weights m.index i ≠ [] → i ≠ uid ∧ s.row m i ≠ []) ∧
      ∀ j w, (j, w) ∈ (m.coreAfter s n uid replaced).weights m.index i →
        ∃ w', (j, w') ∈ s.row m i ∧ (w ≠ 0 → j ≠ uid ∧ w = w') := by
  unfold coreAfter
  cases replaced with
  | true =>
    by_cases hself : i = uid
    · simp [hself]
    · simp only [update_self, not_true, if_false, hself, ne_eq, List.map_eq_nil_iff, not_false_eq_true,
        true_and, imp_self, List.mem_map, Prod.mk.injEq]
      rintro j w ⟨⟨j, w'⟩, hmem, rfl, rfl⟩
      refine ⟨w', hmem, fun hw => ?_⟩
      by_cases hj : j = uid
      · simp [hj] at hw
      · exact ⟨hj, if_neg hj⟩
  | false =>
    have hnone := hcleared.resolve_left (by decide)
    simp only [update_self, Bool.false_eq_true, not_false_eq_true, if_true]
    refine ⟨fun hi => ⟨?_, hi⟩, fun j w hj => ⟨w, hj, fun _ => ⟨?_, rfl⟩⟩⟩
    · rintro rfl
      exact hnone (h.known i hi)
    · rintro rfl
      exact hnone (h.entries i j w hj).1

/-- **A registration**: the weights of the neuron before, and those for it, are gone. -/
theorem Sound.registered {neurons : Neurons A} {table : NeuronTable} (hregistry : Registry m.netuid neurons table)
    (hkeys : ∀ i, (s.neurons.keys m.netuid i).isSome → (neurons.keys m.netuid i).isSome)
    (hat : table.blockAtRegistration m.netuid = update (s.table.blockAtRegistration m.netuid) uid s.core.block)
    (hn : (neurons.subnetworkN m.netuid).toNat ≤ n) :
    m.Sound { s with core := m.coreAfter s n uid replaced, neurons, table } := by
  have hrow := row_coreAfter (n := n) h hcleared
  have hothers : ∀ j, j ≠ uid → table.blockAtRegistration m.netuid j = s.registeredAt m j := by
    intro j hj
    rw [hat, update_of_ne hj]
  have hlast : (m.coreAfter s n uid replaced).lastUpdate m.index =
      (s.lastUpdate m ++ List.replicate (n - (s.lastUpdate m).length) 0).set uid.toNat s.core.block :=
    update_self ..
  refine ⟨hregistry, ?_, fun i hi => hkeys i (h.known i ((hrow i).1 hi).2), ?_, ?_, ?_⟩
  · intro j
    show table.blockAtRegistration m.netuid j ≤ s.core.block
    by_cases hj : j = uid
    · rw [hat, hj, update_self]
    · exact (hothers j hj).trans_le (h.past j)
  · intro i j w hj
    obtain ⟨w', hmem, hsame⟩ := (hrow i).2 j w hj
    obtain ⟨hkey, hage⟩ := h.entries i j w' hmem
    refine ⟨hkeys j hkey, fun hw => ?_⟩
    obtain ⟨hne, rfl⟩ := hsame hw
    exact (hothers j hne).trans_le (hage hw)
  · show (neurons.subnetworkN m.netuid).toNat ≤ ((m.coreAfter s n uid replaced).lastUpdate m.index).length
    rw [hlast, List.length_set, List.length_append, List.length_replicate]
    omega
  · intro hoff i hi
    obtain ⟨hne, hold⟩ := (hrow i).1 hi
    have hne' : uid.toNat ≠ i.toNat := fun heq => hne (UInt16.toNat_inj.mp heq.symm)
    show ((m.coreAfter s n uid replaced).lastUpdate m.index).getD i.toNat 0 = s.writtenAt i
    have hlt : i.toNat < (s.lastUpdate m).length :=
      lt_of_lt_of_le (UInt16.lt_iff_toNat_lt.mp ((h.registry.filled i).mp (h.known i hold))) h.length
    rw [hlast, List.getD_eq_getElem?_getD, List.getElem?_set_ne hne', List.getElem?_append_left hlt,
      ← List.getD_eq_getElem?_getD]
    exact h.direct hoff i hold
end Registering

theorem register_sound (h : m.Sound s) (hotkey : A) (prune : UInt16) : m.Sound (m.register s hotkey prune) := by
  unfold register
  dsimp only
  split_ifs with hthere hroom
  · exact h
  · have hnone : s.neurons.uids m.netuid hotkey = none := Option.not_isSome_iff_eq_none.mp hthere
    have hfits : (s.neurons.subnetworkN m.netuid).toNat + 1 < 2 ^ 16 := by
      have := UInt16.lt_iff_toNat_lt.mp hroom
      have := (s.table.maxAllowedUids m.netuid).toNat_lt
      omega
    refine h.registered (.inr ?_) (h.registry.append hnone hfits) ?_ (update_self ..) (append_count hotkey hfits).le
    · rw [h.registry.filled]
      exact UInt16.lt_irrefl _
    · intro i hi
      simp only [Neurons.append, update_self, update_apply]
      split_ifs
      · rfl
      · exact hi
  · have hnone : s.neurons.uids m.netuid hotkey = none := Option.not_isSome_iff_eq_none.mp hthere
    split
    · exact h
    · rename_i old hold
      split_ifs
      · exact h
      · refine h.registered (.inl rfl) (h.registry.replace hold hnone) ?_ (update_self ..) le_rfl
        intro i hi
        simp only [Neurons.replace, update_self, update_apply]
        split_ifs
        · rfl
        · exact hi

theorem accept_sound (h : m.Sound s) {writes : Bool} {result : Except DispatchError (WeightsState A H)}
    (hok : ∀ core, result = .ok core → m.Sound (m.accept s who writes (.ok core))) :
    m.Sound (m.accept s who writes result) := by
  cases result with
  | error _ => exact h
  | ok core => exact hok core rfl

/-- **Every step** keeps everything in order. -/
theorem step_sound [DecidableEq H] (h : m.Sound s) (action : MechanismAction A H) : m.Sound (m.step s action) := by
  cases action with
  | nextBlock => exact ⟨h.registry, fun uid => Nat.le_succ_of_le (h.past uid), h.known, h.entries, h.length, h.direct⟩
  | register hotkey prune => exact register_sound h hotkey prune
  | setWeights env who uids values versionKey | revealTimelocked env who uids values versionKey =>
    simp only [step, setWhen]
    split_ifs
    · exact accept_sound h fun core hok => h.write (internalSetWeights_written hok)
    · exact h
  | reveal env who data => exact accept_sound h fun core hok => h.write (internalRevealWeights_written hok)
  | commit env who hash =>
    refine accept_sound h fun core hok => ?_
    obtain ⟨-, -, hok⟩ := bind_ok hok
    obtain ⟨hon, hok⟩ := ensure_ok hok
    obtain ⟨uid, -, hok⟩ := okOr_ok hok
    obtain ⟨-, hok⟩ := ensure_ok hok
    obtain ⟨-, hok⟩ := ensure_ok hok
    cases pure_ok hok
    exact h.committed hon rfl rfl (by simp [WeightsState.setLastUpdateForUid, WeightsState.storeCommits])
  | commitTimelocked env who =>
    refine accept_sound h fun core hok => ?_
    obtain ⟨-, -, hok⟩ := bind_ok hok
    obtain ⟨hon, hok⟩ := ensure_ok hok
    obtain ⟨uid, -, hok⟩ := okOr_ok hok
    obtain ⟨-, hok⟩ := ensure_ok hok
    cases pure_ok hok
    exact h.committed hon rfl rfl (by simp [WeightsState.setLastUpdateForUid])
end Mechanism

/-- **Weights for newcomers.** Whatever has happened, a weight that survives the masks was set or revealed after its
    neuron registered, and after the block of the registration if weights are set directly. -/
theorem newcomer_weights [DecidableEq A] [DecidableEq H] (m : Mechanism A H) (s : MechanismState A H)
    (hempty : EmptySubnet m.netuid s.neurons s.table) (hnever : ∀ uid, s.registeredAt m uid = 0)
    (hnone : ∀ uid, s.row m uid = []) (run : List (MechanismAction A H)) (validatorForbids : UInt16 → Bool)
    (ownerUid : Option UInt16) (timelocked : List Nat) (i j w : UInt16) (hw : w ≠ 0) : let t := run.foldl m.step s
    (j, w) ∈ m.maskedRow t validatorForbids ownerUid timelocked i →
      t.registeredAt m j ≤ t.writtenAt i ∧ (m.commitReveal = false → t.registeredAt m j < t.writtenAt i) := by
  intro t hsurvives
  have hstart : m.Sound s := by
    refine ⟨hempty.registry, fun uid => by rw [hnever]; exact Nat.zero_le _, fun i hi => absurd (hnone i) hi, ?_, ?_,
      fun _ i hi => absurd (hnone i) hi⟩
    · intro i j w hj
      rw [hnone] at hj
      cases hj
    · rw [hempty.count]
      exact Nat.zero_le _
  have hsound : m.Sound t := List.foldlRecOn run m.step hstart fun _ hs action _ => Mechanism.step_sound hs action
  unfold Mechanism.maskedRow at hsurvives
  split_ifs at hsurvives
  · cases hsurvives
  · obtain ⟨hmem, hmasks⟩ := List.mem_filter.mp hsurvives
    simp only [Bool.and_eq_true, decide_eq_true_eq] at hmasks
    refine ⟨(hsound.entries i j w hmem).2 hw, fun hoff => ?_⟩
    -- the mask compares with `LastUpdate`
    rw [← hsound.direct hoff i (List.ne_nil_of_mem hmem)]
    exact hmasks.1.2

namespace Sample

def mechanism (commitReveal : Bool) : Mechanism Account (Account × MechanismIndex × WeightsData) :=
  ⟨⟨id, fun _ => 9, fun _ => 1, fun _ _ => true⟩, 1, .main, commitReveal⟩

def noWeights : MechanismState Account (Account × MechanismIndex × WeightsData) :=
  ⟨⟨1, fun _ _ => none, fun _ => [], fun _ _ => []⟩, emptySubnet.neurons, emptyTable, fun _ => 0⟩

def permissive : WeightsEnv Account :=
  ⟨fresh.neurons, fun _ => true, fun _ => 1, fun _ => true, fun _ _ => true, fun _ => 0, fun _ => 0, fun _ => [true],
    fun _ => 1⟩

/-- At block 2, hotkey 1 sets weights for hotkey 2. -/
def setDirectly : List (MechanismAction Account (Account × MechanismIndex × WeightsData)) :=
  [.register 1 0, .register 2 0, .nextBlock, .setWeights permissive 1 [1] [65535] 0]

/-- At block 1, hotkey 1 commits to weights for hotkey 2. -/
def committed : List (MechanismAction Account (Account × MechanismIndex × WeightsData)) :=
  [.register 1 0, .register 2 0, .commit permissive 1 (1, 1, ⟨[1], [65535], [], 0⟩)]

/-- At block 2, hotkey 3 replaces hotkey 2. Then the weights are revealed, and others committed to. -/
def replaced : List (MechanismAction Account (Account × MechanismIndex × WeightsData)) :=
  [.nextBlock, .register 3 1] ++ List.replicate 6 .nextBlock ++
    [.reveal permissive 1 ⟨[1], [65535], [], 0⟩, .nextBlock, .commit permissive 1 (1, 1, ⟨[], [], [], 0⟩)]
end Sample
open Sample

/-- The weights count for hotkey 2. -/
theorem newcomer_weights_set : let m := mechanism false
    let t := setDirectly.foldl m.step noWeights
    m.maskedRow t (fun _ => false) none [] 0 = [(1, 65535)] ∧ t.registeredAt m 1 < t.writtenAt 0 := by
  intro m t
  have hrow : m.maskedRow t (fun _ => false) none [] 0 = [(1, 65535)] := by decide +kernel
  have hmem : (1, 65535) ∈ m.maskedRow t (fun _ => false) none [] 0 := by
    rw [hrow]
    exact List.mem_singleton.mpr rfl
  exact ⟨hrow, (newcomer_weights m noWeights emptySubnet_empty (fun _ => rfl) (fun _ => rfl)
    setDirectly _ none [] 0 1 65535 (by decide) hmem).2 rfl⟩

/-- The weights that were committed at block 1 for hotkey 2 count for hotkey 3, registered at block 2. -/
theorem newcomer_inherits_weights : let m := mechanism true
    let t := (committed ++ replaced).foldl m.step noWeights
    (committed.foldl m.step noWeights).core.block = 1 ∧ t.neurons.keys 1 1 = some 3 ∧
      t.registeredAt m 1 = 2 ∧ m.maskedRow t (fun _ => false) none [] 0 = [(1, 65535)] := by
  decide +kernel
end Qubitum.Subtensor
