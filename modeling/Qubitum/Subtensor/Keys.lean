import Qubitum.Subtensor.State

/-!
# `Subtensor.Keys` — hotkeys, coldkeys and what is staked under them

The writes to `Owner`, `OwnedHotkeys`, `StakingHotkeys` and to the share pools, as functions of the part of
the storage they touch. `move` is the loop body of both key swaps: all that one coldkey has on one hotkey
goes to another hotkey or to another coldkey.

A share pool is an exact ledger of what each coldkey has on a hotkey: the rounding of `share-pool` is left out, here
and in every module that stakes.
-/

namespace Qubitum.Subtensor
open Function

variable {A B X R : Type} [DecidableEq A]

/-- `if !v.contains(x) { v.push(x) }` -/
def pushNew (l : List A) (x : A) : List A := if x ∈ l then l else l ++ [x]

variable {l new : List A} {x y : A}

theorem mem_pushNew : y ∈ pushNew l x ↔ y ∈ l ∨ y = x := by
  unfold pushNew
  split
  · rename_i hmem
    exact ⟨.inl, fun h => h.elim id fun heq => heq ▸ hmem⟩
  · simp

theorem nodup_pushNew (h : l.Nodup) : (pushNew l x).Nodup := by
  unfold pushNew
  split
  · exact h
  · rename_i hmem
    exact List.nodup_append.mpr ⟨h, List.nodup_singleton x, fun y hy z hz heq =>
      hmem (by rw [← List.mem_singleton.mp hz, ← heq]; exact hy)⟩

theorem mem_foldl_pushNew : y ∈ new.foldl pushNew l ↔ y ∈ l ∨ y ∈ new := by
  induction new generalizing l with
  | nil => simp
  | cons x rest ih => rw [List.foldl_cons, ih, mem_pushNew, List.mem_cons, or_assoc]

theorem nodup_foldl_pushNew (h : l.Nodup) : (new.foldl pushNew l).Nodup := by
  induction new generalizing l with
  | nil => exact h
  | cons x rest ih => exact ih (nodup_pushNew h)

/-! ## Ownership -/

namespace Ownership

/-- `Owner(hotkey) := coldkey`, and the hotkey is listed under the coldkey. -/
def assign (o : Ownership A) (coldkey hotkey : A) : Ownership A where
  owner := update o.owner hotkey (some coldkey)
  ownedHotkeys := update o.ownedHotkeys coldkey (pushNew (o.ownedHotkeys coldkey) hotkey)

/-- Steps 2 to 4 of `perform_hotkey_swap_on_all_subnets`. -/
def swapHotkey (o : Ownership A) (oldHotkey newHotkey coldkey : A) : Ownership A where
  owner := update (update o.owner oldHotkey none) newHotkey (some coldkey)
  ownedHotkeys := update o.ownedHotkeys coldkey ((pushNew (o.ownedHotkeys coldkey) newHotkey).filter (· ≠ oldHotkey))

/-- `transfer_hotkeys_ownership` -/
def transferHotkeysOwnership (o : Ownership A) (oldColdkey newColdkey : A) : Ownership A :=
  let (owner, newOwned) := (o.ownedHotkeys oldColdkey).foldl
    (fun (owner, newOwned) hotkey =>
      (update (update owner hotkey none) hotkey (some newColdkey), pushNew newOwned hotkey))
    (o.owner, o.ownedHotkeys newColdkey)
  { owner, ownedHotkeys := update (update o.ownedHotkeys oldColdkey []) newColdkey newOwned }
end Ownership

/-! ## Stakes -/

namespace Stakes
variable {st : Stakes A} {h h' c c' : A} {n n' : NetUid} {amount : Nat}

section
variable (st : Stakes A)

/-- List a hotkey under a coldkey that stakes on it. -/
def addStakingHotkey (coldkey hotkey : A) : Stakes A :=
  { st with
    stakingHotkeys := update st.stakingHotkeys coldkey (pushNew (st.stakingHotkeys coldkey) hotkey) }

/-- What one coldkey has in a pool set to `value`, and the pool's total to `total`. -/
def put (hotkey coldkey : A) (netuid : NetUid) (value total : Nat) : Stakes A :=
  { st with
    alpha := if value = 0 then st.alpha.erase (hotkey, coldkey, netuid)
      else st.alpha.insert (hotkey, coldkey, netuid) value
    totalHotkeyAlpha := update st.totalHotkeyAlpha hotkey (update (st.totalHotkeyAlpha hotkey) netuid total) }

/-- `increase_stake_for_hotkey_and_coldkey_on_subnet` -/
def increase (hotkey coldkey : A) (netuid : NetUid) (amount : Nat) : Stakes A :=
  let st := if amount = 0 then st else st.addStakingHotkey coldkey hotkey
  st.put hotkey coldkey netuid (st.stake hotkey coldkey netuid + amount) (st.totalHotkeyAlpha hotkey netuid + amount)

/-- `decrease_stake_for_hotkey_and_coldkey_on_subnet`: nothing happens if there is less. -/
def decrease (hotkey coldkey : A) (netuid : NetUid) (amount : Nat) : Stakes A :=
  if amount ≤ st.stake hotkey coldkey netuid then
    st.put hotkey coldkey netuid (st.stake hotkey coldkey netuid - amount) (st.totalHotkeyAlpha hotkey netuid - amount)
  else st

/-- The coldkeys with an entry under a hotkey on a subnet. -/
def coldkeysOn (hotkey : A) (netuid : NetUid) : List A :=
  st.alpha.keys.filterMap fun (h, c, n) => if h = hotkey ∧ n = netuid then some c else none

/-- `alpha_iter_single_prefix` -/
def alphaIterSinglePrefix (hotkey : A) : List (A × NetUid × Nat) :=
  st.alpha.entries.filterMap fun e => if e.1.1 = hotkey then some (e.1.2.1, e.1.2.2, e.2) else none

/-- All that one coldkey has on one hotkey goes to another hotkey and coldkey on the same subnet. -/
def move (oldHotkey oldColdkey newHotkey newColdkey : A) (netuid : NetUid) : Stakes A :=
  let alphaOld := st.stake oldHotkey oldColdkey netuid
  (st.decrease oldHotkey oldColdkey netuid alphaOld).increase newHotkey newColdkey netuid alphaOld

/-- The stake of every coldkey on the old hotkey goes to the new one; a coldkey that has the old hotkey
    listed gets the new one listed too. -/
def swapHotkey (oldHotkey newHotkey : A) (netuid : NetUid) : Stakes A :=
  (st.coldkeysOn oldHotkey netuid).foldl
    (fun st coldkey =>
      let st := st.move oldHotkey coldkey newHotkey coldkey netuid
      if oldHotkey ∈ st.stakingHotkeys coldkey then st.addStakingHotkey coldkey newHotkey else st)
    st

/-- Step 10 of `perform_hotkey_swap_on_all_subnets`: the new hotkey takes the place of the old one in the
    lists of the coldkeys that had a share. -/
def renameStakingHotkeys (oldHotkey newHotkey : A) (oldAlphaValues : List (A × NetUid × Nat)) : Stakes A :=
  oldAlphaValues.foldl
    (fun st (coldkey, _, share) =>
      let stakingHotkeys := st.stakingHotkeys coldkey
      if share ≠ 0 ∧ oldHotkey ∈ stakingHotkeys then
        let kept := stakingHotkeys.filter fun hk => hk ≠ oldHotkey ∧ hk ≠ newHotkey
        { st with stakingHotkeys := update st.stakingHotkeys coldkey (pushNew kept newHotkey) }
      else st)
    st

/-- `transfer_staking_hotkeys` -/
def transferStakingHotkeys (oldColdkey newColdkey : A) : Stakes A :=
  let newStakingHotkeys := (st.stakingHotkeys oldColdkey).foldl pushNew (st.stakingHotkeys newColdkey)
  { st with
    stakingHotkeys := update (update st.stakingHotkeys oldColdkey []) newColdkey newStakingHotkeys }
end

/-! ### What the writes do -/

@[simp] theorem stake_addStakingHotkey : (st.addStakingHotkey c' h').stake h c n = st.stake h c n := rfl

theorem stake_put {value total : Nat} :
    (st.put h' c' n' value total).stake h c n =
      if h = h' ∧ c = c' ∧ n = n' then value else st.stake h c n := by
  unfold put stake StorageMap.getD
  by_cases hkey : (h, c, n) = (h', c', n')
  · obtain ⟨rfl, rfl, rfl⟩ := by simpa using hkey
    by_cases hzero : value = 0 <;> simp [hzero]
  · have hne : ¬(h = h' ∧ c = c' ∧ n = n') := by simpa using hkey
    rw [if_neg hne]
    by_cases hzero : value = 0
    · simp only [hzero, if_true]
      rw [AList.lookup_erase_ne hkey]
    · simp only [hzero, if_false]
      rw [AList.lookup_insert_ne hkey]

theorem stake_increase :
    (st.increase h' c' n' amount).stake h c n = st.stake h c n + if h = h' ∧ c = c' ∧ n = n' then amount else 0 := by
  unfold increase
  rw [stake_put]
  by_cases hkey : h = h' ∧ c = c' ∧ n = n'
  · obtain ⟨rfl, rfl, rfl⟩ := hkey
    split_ifs <;> simp
  · rw [if_neg hkey, if_neg hkey]
    split_ifs <;> simp

theorem stake_decrease :
    (st.decrease h' c' n' amount).stake h c n =
      if h = h' ∧ c = c' ∧ n = n' ∧ amount ≤ st.stake h c n then st.stake h c n - amount else st.stake h c n := by
  unfold decrease
  by_cases hkey : h = h' ∧ c = c' ∧ n = n'
  · obtain ⟨rfl, rfl, rfl⟩ := hkey
    split_ifs <;> simp_all [stake_put]
  · have hne : ¬(h = h' ∧ c = c' ∧ n = n' ∧ amount ≤ st.stake h c n) :=
      fun hall => hkey ⟨hall.1, hall.2.1, hall.2.2.1⟩
    rw [if_neg hne]
    split_ifs
    · rw [stake_put, if_neg hkey]
    · rfl

theorem stake_decrease_le : (st.decrease h' c' n' amount).stake h c n ≤ st.stake h c n := by
  rw [stake_decrease]
  split_ifs
  · exact Nat.sub_le _ _
  · exact le_refl _

variable {oldHotkey oldColdkey newHotkey newColdkey : A}

/-- Moving a stake between different keys. -/
theorem stake_move (hne : ¬(oldHotkey = newHotkey ∧ oldColdkey = newColdkey)) :
    (st.move oldHotkey oldColdkey newHotkey newColdkey n').stake h c n =
      if h = oldHotkey ∧ c = oldColdkey ∧ n = n' then 0
      else st.stake h c n +
        if h = newHotkey ∧ c = newColdkey ∧ n = n' then st.stake oldHotkey oldColdkey n' else 0 := by
  unfold move
  rw [stake_increase, stake_decrease]
  by_cases hold : h = oldHotkey ∧ c = oldColdkey ∧ n = n'
  · obtain ⟨rfl, rfl, rfl⟩ := hold
    have hnew : ¬(h = newHotkey ∧ c = newColdkey ∧ n = n) := fun hall => hne ⟨hall.1, hall.2.1⟩
    rw [if_pos ⟨rfl, rfl, rfl, le_refl _⟩, if_neg hnew, if_pos ⟨rfl, rfl, rfl⟩, Nat.sub_self]
  · have hkeep : ¬(h = oldHotkey ∧ c = oldColdkey ∧ n = n' ∧
        st.stake oldHotkey oldColdkey n' ≤ st.stake h c n) :=
      fun hall => hold ⟨hall.1, hall.2.1, hall.2.2.1⟩
    rw [if_neg hold, if_neg hkeep]

theorem mem_addStakingHotkey :
    h ∈ (st.addStakingHotkey c' h').stakingHotkeys c ↔ h ∈ st.stakingHotkeys c ∨ (c = c' ∧ h = h') := by
  unfold addStakingHotkey
  by_cases hc : c = c'
  · subst hc
    simp [mem_pushNew]
  · simp [hc]

theorem stakingHotkeys_decrease : (st.decrease h' c' n' amount).stakingHotkeys = st.stakingHotkeys := by
  unfold decrease
  split_ifs <;> rfl

theorem mem_stakingHotkeys_increase :
    h ∈ (st.increase h' c' n' amount).stakingHotkeys c ↔ h ∈ st.stakingHotkeys c ∨ (amount ≠ 0 ∧ c = c' ∧ h = h') := by
  unfold increase put
  by_cases hzero : amount = 0
  · simp [hzero]
  · simp only [hzero, if_false, ne_eq, not_false_eq_true, true_and]
    exact mem_addStakingHotkey

theorem mem_stakingHotkeys_move :
    h ∈ (st.move oldHotkey oldColdkey newHotkey newColdkey n').stakingHotkeys c ↔
      h ∈ st.stakingHotkeys c ∨ (st.stake oldHotkey oldColdkey n' ≠ 0 ∧ c = newColdkey ∧ h = newHotkey) := by
  unfold move
  rw [mem_stakingHotkeys_increase, stakingHotkeys_decrease]

/-- A coldkey with stake on a hotkey is found by the iteration. -/
theorem mem_coldkeysOn_of_stake (hstake : st.stake h c n ≠ 0) : c ∈ st.coldkeysOn h n := by
  have hmem : (h, c, n) ∈ st.alpha.keys := by
    rw [← AList.mem_keys, ← AList.lookup_isSome]
    unfold stake StorageMap.getD at hstake
    cases hlookup : st.alpha.lookup (h, c, n) with
    | none => simp [hlookup] at hstake
    | some v => rfl
  exact List.mem_filterMap.mpr ⟨(h, c, n), hmem, by simp⟩
end Stakes

/-! ## Accounts -/

/-- `create_account_if_non_existent` -/
def State.createAccountIfNonExistent (s : State A B X R) (coldkey hotkey : A) : State A B X R :=
  if s.ownership.hotkeyAccountExists hotkey then s
  else
    { s with
      ownership := s.ownership.assign coldkey hotkey
      stakes := s.stakes.addStakingHotkey coldkey hotkey }
end Qubitum.Subtensor
