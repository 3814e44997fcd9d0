import Qubitum.Subtensor.Succession

/-!
# `Subtensor.CommitSwap` — pending commits and the swap of a hotkey

A hotkey swap hands the queues of commits to the new hotkey. What was hashed for them includes the old one, and a
reveal hashes the account that reveals: after the swap no commit from before it can be revealed, and a reveal ends as
without the swap only if the data could not be revealed then (`reveal_after_swap_iff`).
-/

namespace Qubitum.Subtensor
open Function Outcome

variable {A H : Type} [DecidableEq A]

/-- Step 3.5 of `perform_hotkey_swap_on_one_subnet`, for a member of the subnet. -/
def WeightsState.swapWeightCommits (s : WeightsState A H) (count : MechId) (netuid : NetUid) (oldHotkey newHotkey : A) :
    WeightsState A H :=
  { s with
    weightCommits := onMechanisms count netuid s.weightCommits fun _ queues =>
      match queues oldHotkey with
      | some commits => update (update queues oldHotkey none) newHotkey (some commits)
      | none         => queues }

theorem queue_swapWeightCommits {s : WeightsState A H} {count mecid : MechId} {netuid : NetUid} {oldHotkey newHotkey : A}
    {commits : List (Commit H)} (hmec : mecid < count)
    (hcommits : s.weightCommits (getMechanismStorageIndex netuid mecid) oldHotkey = some commits) :
    (s.swapWeightCommits count netuid oldHotkey newHotkey).queue (getMechanismStorageIndex netuid mecid) newHotkey =
      commits := by
  have hany : (List.range count.toNat).any (fun m =>
      getMechanismStorageIndex netuid mecid = getMechanismStorageIndex netuid (.ofNat m)) = true := by
    rw [List.any_eq_true]
    exact ⟨mecid.toNat, List.mem_range.mpr hmec, by simp⟩
  unfold WeightsState.queue WeightsState.swapWeightCommits onMechanisms
  simp only [if_pos hany, hcommits, update_self, Option.getD_some]

section Reveal
variable [DecidableEq H] {cfg : WeightsConfig A H} {env : WeightsEnv A} {who : A} {netuid : NetUid} {mecid : MechId}
  {data : WeightsData} {s : WeightsState A H}

/-- What a reveal needs in the state before it: a commit to its data in its window, and weights that may be set. -/
structure Revealable (cfg : WeightsConfig A H) (env : WeightsEnv A) (who : A) (netuid : NetUid) (mecid : MechId)
    (data : WeightsData) (s : WeightsState A H) : Prop where
  enabled : env.commitRevealWeightsEnabled netuid
  commit : ∃ stored c, s.weightCommits (getMechanismStorageIndex netuid mecid) who = some stored ∧
    (unexpired cfg netuid s.block stored).find? (·.hash =
      cfg.commitHash (who, getMechanismStorageIndex netuid mecid, data)) = some c ∧
    isRevealBlockRange cfg netuid s.block c.commitBlock
  notRoot : netuid ≠ .root
  sizes : data.uids.length = data.values.length
  network : env.networksAdded netuid
  mechanism : mecid < env.mechanismCountCurrent netuid
  few : data.uids.length ≤ (env.neurons.subnetworkN netuid).toNat
  stake : env.checkWeightsMinStake who netuid
  version : env.checkVersionKey netuid data.versionKey
  neuron : ∃ uid, env.neurons.uids netuid who = some uid ∧
    env.checkValidatorPermit netuid uid data.uids data.values ∧ env.checkLength netuid uid data.uids data.values
  distinct : data.uids.Nodup
  valid : ¬ env.containsInvalidUids netuid data.uids

omit [DecidableEq A] [DecidableEq H] in
theorem maxWeightLimited_always (uid : UInt16) (uids weights : List UInt16) : maxWeightLimited cfg uid uids weights := by
  unfold maxWeightLimited getMaxWeightLimit
  simp

theorem isOk_iff_exists {ε α : Type} {x : Except ε α} : x.isOk = true ↔ ∃ a, x = .ok a := by
  cases x with
  | error e => exact ⟨fun h => (by cases h), fun ⟨_, h⟩ => by cases h⟩
  | ok a => exact ⟨fun _ => ⟨a, rfl⟩, fun _ => rfl⟩

theorem internalRevealWeights_isOk :
    (internalRevealWeights cfg env who netuid mecid data s).isOk = true ↔ Revealable cfg env who netuid mecid data s := by
  rw [isOk_iff_exists]
  unfold internalRevealWeights
  simp only [ensure_bind_eq_ok, okOr_bind_eq_ok]
  constructor
  · rintro ⟨s', henabled, stored, hstored, -, -, h⟩
    split at h
    · rename_i position hposition
      obtain ⟨c, hc, -, hfind, -⟩ := split_at_first hposition
      simp only [okOr_bind_eq_ok, ensure_bind_eq_ok, hc, Option.some.injEq, exists_eq_left', internalSetWeights,
        WeightsEnv.ensureMechanismExists, bind_assoc] at h
      obtain ⟨hrange, hroot, hsizes, hnetwork, hmechanism, hfew, uid, huid, hstake, hversion, -, hpermit, hdistinct,
        hvalid, hlength, -⟩ := h
      exact ⟨henabled, ⟨stored, c, hstored, hfind, hrange⟩, hroot, hsizes, hnetwork, hmechanism, hfew, hstake, hversion,
        ⟨uid, huid, hpermit, hlength⟩, hdistinct, hvalid⟩
    · cases h
  · rintro ⟨henabled, ⟨stored, c, hstored, hfind, hrange⟩, hroot, hsizes, hnetwork, hmechanism, hfew, hstake, hversion,
      ⟨uid, huid, hpermit, hlength⟩, hdistinct, hvalid⟩
    have hpending : unexpired cfg netuid s.block stored ≠ [] := by
      rintro hnil
      rw [hnil] at hfind
      cases hfind
    obtain ⟨position, hposition⟩ : ∃ i, (unexpired cfg netuid s.block stored).findIdx? (·.hash =
        cfg.commitHash (who, getMechanismStorageIndex netuid mecid, data)) = some i := by
      cases hposition : (unexpired cfg netuid s.block stored).findIdx? _ with
      | some i => exact ⟨i, rfl⟩
      | none =>
        have hno := List.findIdx?_eq_none_iff.mp hposition c (List.mem_of_find?_eq_some hfind)
        rw [List.find?_some hfind] at hno
        cases hno
    obtain ⟨c', hc, -, hfind', -⟩ := split_at_first hposition
    obtain rfl := Option.some.inj (hfind.symm.trans hfind')
    simp only [hstored, Option.some.injEq, exists_eq_left', hposition, okOr_bind_eq_ok, ensure_bind_eq_ok, hc,
      internalSetWeights, WeightsEnv.ensureMechanismExists, bind_assoc]
    exact ⟨_, henabled, .inl hpending, hpending, hrange, hroot, hsizes, hnetwork, hmechanism, hfew, uid, huid, hstake,
      hversion, .inl henabled, hpermit, hdistinct, hvalid, hlength, maxWeightLimited_always _ _ _, rfl⟩
end Reveal

/-- **No commit survives a swap.** After the swap, with whatever else it changed, no data of commits that were made with
    the old hotkey can be revealed. So a reveal ends as it would have ended with the old hotkey without a swap if and
    only if the data could not be revealed before. -/
theorem reveal_after_swap_iff [DecidableEq H] (cfg : WeightsConfig A H) (hinj : Injective cfg.commitHash)
    (env env' : WeightsEnv A) (netuid : NetUid) (mecid : MechId) (hmec : mecid < env.mechanismCountCurrent netuid)
    (oldHotkey newHotkey : A) (hne : oldHotkey ≠ newHotkey) (s : WeightsState A H) (commits : List (Commit H))
    (hcommits : s.weightCommits (getMechanismStorageIndex netuid mecid) oldHotkey = some commits)
    (hmade : ∀ c ∈ commits, ∃ index data, c.hash = cfg.commitHash (oldHotkey, index, data)) (data : WeightsData) :
    let swapped := s.swapWeightCommits (env.mechanismCountCurrent netuid) netuid oldHotkey newHotkey
    (internalRevealWeights cfg env' newHotkey netuid mecid data swapped).isOk = false ∧
      ((internalRevealWeights cfg env' newHotkey netuid mecid data swapped).isOk =
          (internalRevealWeights cfg env oldHotkey netuid mecid data s).isOk ↔
        ¬ Revealable cfg env oldHotkey netuid mecid data s) := by
  intro swapped
  have hfails : (internalRevealWeights cfg env' newHotkey netuid mecid data swapped).isOk = false := by
    cases hreveal : internalRevealWeights cfg env' newHotkey netuid mecid data swapped with
    | error _ => rfl
    | ok s' =>
      obtain ⟨front, c, rest, hsuffix, hhash, -⟩ := internalRevealWeights_ok hreveal
      rw [queue_swapWeightCommits hmec hcommits] at hsuffix
      obtain ⟨index, committed, hold⟩ := hmade c (hsuffix.subset (by simp))
      exact absurd (Prod.mk.inj (hinj (hold.symm.trans hhash))).1 hne
  refine ⟨hfails, ?_⟩
  rw [hfails, ← internalRevealWeights_isOk, Bool.not_eq_true, eq_comm]

namespace Sample

/-- The commit of block 1, at block 9. -/
def waiting : WeightsState Bool (Bool × MechanismIndex × WeightsData) :=
  ((commitSelfWeight :: List.replicate 8 .nextBlock).foldl (WeightsAction.step weightsConfig 1) (noCommits, [])).1

/-- The hotkey `false` has taken the place of `true`. -/
def swappedEnv : WeightsEnv Bool :=
  { weightsEnv with
    neurons := { weightsEnv.neurons with
      uids := fun _ hotkey => if hotkey then none else some 0
      keys := fun _ uid => if uid = 0 then some false else none } }
end Sample
open Sample

/-- The data that were committed to, in their window, after the subnet has asked for a newer version of the weights. -/
theorem reveal_after_swap_iff_outdated : let env := { weightsEnv with weightsVersionKey := fun _ => 1 }
    (internalRevealWeights weightsConfig swappedEnv false 1 .main selfWeight
        (waiting.swapWeightCommits 1 1 true false)).isOk =
      (internalRevealWeights weightsConfig env true 1 .main selfWeight waiting).isOk := by
  intro env
  refine (reveal_after_swap_iff weightsConfig injective_id env swappedEnv 1 .main (by decide) true false (by decide)
    waiting [newCommit weightsConfig 1 1 (true, 1, selfWeight)] (by decide +kernel) ?_ selfWeight).2.mpr
    fun hrevealable => absurd hrevealable.version (by decide +kernel)
  intro c hc
  rw [List.mem_singleton.mp hc]
  exact ⟨1, selfWeight, rfl⟩

/-- With the swap the data that were committed to cannot be revealed, without it they can. -/
theorem commit_lost_by_swap :
    (internalRevealWeights weightsConfig weightsEnv true 1 .main selfWeight waiting).isOk = true ∧
      (internalRevealWeights weightsConfig swappedEnv false 1 .main selfWeight
        (waiting.swapWeightCommits 1 1 true false)).isOk = false := by
  decide +kernel
end Qubitum.Subtensor
