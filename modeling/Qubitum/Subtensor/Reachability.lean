import Qubitum.Subtensor.Ownership
import Qubitum.Subtensor.StakeMoves
import Qubitum.Subtensor.StakingEffects

/-!
# `Subtensor.Reachability` — stake that its coldkey can get at

A coldkey gets at its stake through two other maps: `Owner` must know the hotkey, or every call that takes
stake off it is refused with `HotKeyAccountNotExists`, and `StakingHotkeys` of the coldkey must list it. The
three maps are written by different functions (`Reach` says that they fit together).

`reach_iff` goes through whole runs. What breaks `Reach` is `Strands`: a swap of a hotkey on *all* subnets
removes its owner, whatever happens to the stake on it, and so strands the stake it does not move. That is all
of it if the swap keeps the stake, and otherwise what is on subnets that are gone from `NetworksAdded`. Calls
that credit a hotkey do not ask for its owner either; their callers do.
-/

namespace Qubitum.Subtensor
open Outcome Mutation

variable {A B X R : Type} [DecidableEq A]

/-! ## The invariant -/

namespace Stakes
variable {st : Stakes A} {o : Ownership A} {h c : A} {n : NetUid} {amount : Nat}

/-- Every hotkey with stake has an owner. -/
def OwnedIn (st : Stakes A) (o : Ownership A) : Prop := ∀ h c n, st.stake h c n ≠ 0 → o.owner h ≠ none

theorem OwnedIn.decrease (hst : st.OwnedIn o) : (st.decrease h c n amount).OwnedIn o := by
  intro h' c' n' hstake
  refine hst h' c' n' fun hzero => hstake ?_
  exact Nat.le_zero.mp (hzero ▸ stake_decrease_le)

/-- An addition asks for the owner of its hotkey. -/
theorem OwnedIn.increase_iff (hst : st.OwnedIn o) :
    (st.increase h c n amount).OwnedIn o ↔ (amount ≠ 0 → o.owner h ≠ none) := by
  constructor
  · intro hst' hamount
    refine hst' h c n ?_
    rw [stake_increase, if_pos ⟨rfl, rfl, rfl⟩]
    omega
  · intro hown h' c' n' hstake
    rw [stake_increase] at hstake
    by_cases hkey : h' = h ∧ c' = c ∧ n' = n
    · obtain ⟨rfl, rfl, rfl⟩ := hkey
      by_cases hamount : amount = 0
      · rw [hamount, ite_self, Nat.add_zero] at hstake
        exact hst h' c' n' hstake
      · exact hown hamount
    · rw [if_neg hkey, Nat.add_zero] at hstake
      exact hst h' c' n' hstake
end Stakes

/-- Every stake is on a hotkey that has an owner and that the coldkey lists. -/
structure Reach (s : State A B X R) : Prop where
  owned : s.stakes.OwnedIn s.ownership
  listed : s.stakes.Listed

/-! ## Calls -/

/-- The functions that move stake or keys, and the passing of blocks. -/
inductive Call (A : Type) where
  | createAccountIfNonExistent (coldkey hotkey : A)
  | stakeIntoSubnet (hotkey coldkey : A) (netuid : NetUid) (tao priceLimit : Nat) (setLimit dropFees : Bool)
  | unstakeFromSubnet (hotkey coldkey : A) (netuid : NetUid) (alpha priceLimit : Nat) (dropFees : Bool)
  | transferStakeWithinSubnet (originColdkey originHotkey destinationColdkey destinationHotkey : A)
      (netuid : NetUid) (alpha : Nat)
  | doSwapHotkey (origin : Origin A) (oldHotkey newHotkey : A) (netuid : Option NetUid) (keepStake : Bool)
  | doSwapColdkey (oldColdkey newColdkey : A)
  | nextBlock (author : Option A)

namespace Call
variable (cfg : Config A B X R)

def run : Call A → Run A B X R Unit
  | .createAccountIfNonExistent coldkey hotkey => modify (·.createAccountIfNonExistent coldkey hotkey)
  | .stakeIntoSubnet hotkey coldkey netuid tao priceLimit setLimit dropFees => do
      let _ ← Subtensor.stakeIntoSubnet cfg hotkey coldkey netuid tao priceLimit setLimit dropFees
  | .unstakeFromSubnet hotkey coldkey netuid alpha priceLimit dropFees => do
      let _ ← Subtensor.unstakeFromSubnet cfg hotkey coldkey netuid alpha priceLimit dropFees
  | .transferStakeWithinSubnet originColdkey originHotkey destinationColdkey destinationHotkey netuid alpha => do
      let _ ← Subtensor.transferStakeWithinSubnet cfg originColdkey originHotkey destinationColdkey
        destinationHotkey netuid alpha
  | .doSwapHotkey origin oldHotkey newHotkey netuid keepStake =>
      Subtensor.doSwapHotkey cfg origin oldHotkey newHotkey netuid keepStake
  | .doSwapColdkey oldColdkey newColdkey => Subtensor.doSwapColdkey cfg oldColdkey newColdkey
  | .nextBlock author => modify fun s => { s with block := s.block + 1, author }

/-- A call that fails is rolled back. -/
def exec (s : State A B X R) (call : Call A) : State A B X R :=
  match call.run cfg s with
  | .ok _ s'   => s'
  | .error _ _ => s

/-- The state after a list of calls. -/
def execAll (s : State A B X R) (calls : List (Call A)) : State A B X R := calls.foldl (exec cfg) s

/-- What a call would leave out of reach. -/
def Leaves (s : State A B X R) : Call A → Prop
  | .createAccountIfNonExistent _ _ => False
  | .stakeIntoSubnet hotkey .. => s.ownership.owner hotkey = none
  | .unstakeFromSubnet hotkey _ netuid alpha priceLimit dropFees =>
      s.ownership.owner hotkey = none ∧ ∃ r, s.soldAt cfg netuid alpha priceLimit dropFees = .ok r ∧ unsold alpha r ≠ 0
  | .transferStakeWithinSubnet _ _ _ destinationHotkey _ _ => s.ownership.owner destinationHotkey = none
  | .doSwapHotkey _ _ _ (some _) _ => False
  | .doSwapHotkey _ oldHotkey _ none keepStake =>
      ∃ c n, s.stakes.stake oldHotkey c n ≠ 0 ∧ (keepStake = true ∨ n ∉ s.pools.allSubnetNetuids)
  | .doSwapColdkey oldColdkey _ => ∃ h n, s.stakes.stake h oldColdkey n ≠ 0 ∧ n ∉ s.pools.allSubnetNetuids
  | .nextBlock _ => False

/-- The call succeeds and leaves stake out of reach. -/
def Strands (s : State A B X R) (call : Call A) : Prop := (∃ s', call.run cfg s = .ok () s') ∧ call.Leaves cfg s
end Call

/-! ## One call -/

section Steps
variable {cfg : Config A B X R} {s s' : State A B X R}
variable {coldkey hotkey oldHotkey newHotkey : A} {netuid : NetUid} {keepStake : Bool}

theorem reach_createAccount (hs : Reach s) : Reach (s.createAccountIfNonExistent coldkey hotkey) := by
  unfold State.createAccountIfNonExistent
  split
  · exact hs
  · refine ⟨fun h c n hstake => ?_, hs.listed.addStakingHotkey⟩
    by_cases hh : h = hotkey
    · simp [Ownership.assign, hh]
    · simpa [Ownership.assign, hh] using hs.owned h c n hstake

variable {r : SwapResult} {alpha : Nat} {oldColdkey newColdkey : A}

theorem reach_iff_owned (hlisted : s'.stakes.Listed) (hown : s'.ownership = s.ownership) :
    Reach s' ↔ s'.stakes.OwnedIn s.ownership :=
  ⟨fun h => hown ▸ h.owned, fun h => ⟨hown ▸ h, hlisted⟩⟩

theorem reach_unstakedFrom {priceLimit : Nat} {dropFees : Bool} (hs : Reach s)
    (h : UnstakedFrom cfg s s' hotkey coldkey netuid alpha priceLimit dropFees r) :
    Reach s' ↔ ¬(s.ownership.owner hotkey = none ∧ unsold alpha r ≠ 0) := by
  have hstakes := h.stakes
  unfold Stakes.unstake at hstakes
  by_cases hzero : unsold alpha r = 0
  · rw [if_pos hzero] at hstakes
    rw [reach_iff_owned (hstakes ▸ hs.listed.decrease) h.ownership, hstakes]
    exact iff_of_true hs.owned.decrease fun hall => hall.2 hzero
  · rw [if_neg hzero] at hstakes
    rw [reach_iff_owned (hstakes ▸ hs.listed.decrease.increase) h.ownership, hstakes, hs.owned.decrease.increase_iff]
    tauto

/-- On one subnet nothing is lost: the old hotkey keeps its owner. -/
theorem reach_hotkeySwapped_some (hs : Reach s)
    (h : HotkeySwapped s s' coldkey oldHotkey newHotkey (some netuid) keepStake) : Reach s' := by
  have howner : ∀ hotkey, s.ownership.owner hotkey ≠ none → s'.ownership.owner hotkey ≠ none := by
    intro hotkey hsome
    rw [h.ownership]
    by_cases hh : hotkey = newHotkey
    · simp [Ownership.hotkeySwapped, Ownership.assign, hh]
    · simpa [Ownership.hotkeySwapped, Ownership.assign, hh] using hsome
  have hstakes := h.stakes
  cases keepStake with
  | true =>
    have hsame : s'.stakes = s.stakes := hstakes
    refine ⟨fun hotkey c n hstake => howner hotkey (hs.owned hotkey c n (hsame ▸ hstake)), ?_⟩
    rw [hsame]
    exact hs.listed
  | false =>
    have hswap : s'.stakes = s.stakes.swapHotkey oldHotkey newHotkey netuid := hstakes
    refine ⟨fun hotkey c n hstake => ?_, hswap ▸ hs.listed.swapHotkey⟩
    have hmoved := Stakes.moved_swapHotkey h.ne s.stakes netuid
    have hpos : (s.stakes.swapHotkey oldHotkey newHotkey netuid).stakeAt (hotkey, c) n ≠ 0 := hswap ▸ hstake
    rcases hmoved.pos hpos with hbefore | ⟨i, -, hkeys, -⟩
    · exact howner hotkey (hs.owned hotkey c n hbefore)
    · obtain rfl : hotkey = newHotkey := (Prod.mk.inj hkeys).1
      simp [h.owner_new]

section
variable (h : HotkeySwapped s s' coldkey oldHotkey newHotkey none keepStake)
include h

/-- On all subnets, every other owned hotkey keeps an owner. -/
theorem owner_hotkeySwapped
    (hold : hotkey ≠ oldHotkey) (hsome : s.ownership.owner hotkey ≠ none) : s'.ownership.owner hotkey ≠ none := by
  by_cases hnew : hotkey = newHotkey
  · subst hnew
    simp [h.owner_new]
  · rw [h.owner_other hold hnew]
    exact hsome

theorem owner_old_hotkeySwapped :
    s'.ownership.owner oldHotkey = none := by
  rw [h.ownership]
  simp [Ownership.hotkeySwapped, Ownership.swapHotkey, h.ne]
end

/-- On all subnets, what stays on the old hotkey is lost. -/
theorem reach_hotkeySwapped_none (hs : Reach s) (h : HotkeySwapped s s' coldkey oldHotkey newHotkey none keepStake) :
    Reach s' ↔ ¬∃ c n, s.stakes.stake oldHotkey c n ≠ 0 ∧ (keepStake = true ∨ n ∉ s.pools.allSubnetNetuids) := by
  cases keepStake with
  | true =>
    have hsame : s'.stakes = s.stakes := h.stakes
    constructor
    · rintro hs' ⟨c, n, hstake, -⟩
      exact hs'.owned oldHotkey c n (hsame ▸ hstake) (owner_old_hotkeySwapped h)
    · intro hnot
      refine ⟨fun hotkey c n hstake => ?_, hsame ▸ hs.listed⟩
      rw [hsame] at hstake
      refine owner_hotkeySwapped h ?_ (hs.owned hotkey c n hstake)
      rintro rfl
      exact hnot ⟨c, n, hstake, .inl rfl⟩
  | false =>
    have hstakes : s'.stakes =
        (s.stakes.swapHotkeyOn oldHotkey newHotkey s.pools.allSubnetNetuids).renameStakingHotkeys oldHotkey
          newHotkey (s.stakes.alphaIterSinglePrefix oldHotkey) := h.stakes
    have hmoved := Stakes.moved_swapHotkeyOn h.ne s.stakes s.pools.allSubnetNetuids
    have hrenamed : ∀ hotkey c n, s'.stakes.stake hotkey c n =
        (s.stakes.swapHotkeyOn oldHotkey newHotkey s.pools.allSubnetNetuids).stake hotkey c n := by
      rw [hstakes]
      exact (Stakes.renameStakingHotkeys_spec ..).1
    constructor
    · rintro hs' ⟨c, n, hstake, hkeep | hgone⟩
      · cases hkeep
      · refine hs'.owned oldHotkey c n ?_ (owner_old_hotkeySwapped h)
        rw [hrenamed]
        have hsame := hmoved.source_of_not (i := c) hgone
        exact fun hzero => hstake (hsame.symm.trans hzero)
    · intro hnot
      -- nothing is left on the old hotkey, so its name may be dropped from the lists
      have hnone : ∀ c n, (s.stakes.swapHotkeyOn oldHotkey newHotkey s.pools.allSubnetNetuids).stake
          oldHotkey c n = 0 := by
        intro c n
        by_cases hn : n ∈ s.pools.allSubnetNetuids
        · exact hmoved.source (i := c) hn
        · by_contra hstake
          refine hnot ⟨c, n, fun hzero => hstake ?_, .inr hn⟩
          exact (hmoved.source_of_not (i := c) hn).trans hzero
      refine ⟨fun hotkey c n hstake => ?_, ?_⟩
      · rw [hrenamed] at hstake
        have hold : hotkey ≠ oldHotkey := by
          rintro rfl
          exact hstake (hnone c n)
        have hpos : (s.stakes.swapHotkeyOn oldHotkey newHotkey s.pools.allSubnetNetuids).stakeAt (hotkey, c) n ≠ 0 :=
          hstake
        rcases hmoved.pos hpos with hbefore | ⟨i, -, hkeys, -⟩
        · exact owner_hotkeySwapped h hold (hs.owned hotkey c n hbefore)
        · obtain rfl : hotkey = newHotkey := (Prod.mk.inj hkeys).1
          simp [h.owner_new]
      · rw [hstakes]
        exact hs.listed.swapHotkeyOn.renameStakingHotkeys hnone

theorem owner_coldkeySwapped (h : ColdkeySwapped cfg s s' oldColdkey newColdkey)
    (hsome : s.ownership.owner hotkey ≠ none) : s'.ownership.owner hotkey ≠ none := by
  rw [h.ownership, Ownership.owner_transferHotkeysOwnership]
  split
  · simp
  · exact hsome

/-- A coldkey swap leaves behind what is on subnets that do not exist any more. -/
theorem reach_coldkeySwapped (hs : Reach s) (h : ColdkeySwapped cfg s s' oldColdkey newColdkey) :
    Reach s' ↔ ¬∃ hotkey n, s.stakes.stake hotkey oldColdkey n ≠ 0 ∧ n ∉ s.pools.allSubnetNetuids := by
  by_cases hne : oldColdkey = newColdkey
  · subst hne
    -- a coldkey without staking hotkeys can be swapped with itself, and nothing is done
    have hsame : s'.stakes = s.stakes := by
      rw [h.stakes, State.stakes_coldkeyMoved, Stakes.transferColdkeyStakes_of_nil h.noStakingHotkeys,
        Stakes.transferStakingHotkeys_self h.noStakingHotkeys]
    constructor
    · rintro - ⟨hotkey, n, hstake, -⟩
      have hlisted := hs.listed hotkey oldColdkey n hstake
      rw [h.noStakingHotkeys] at hlisted
      cases hlisted
    · intro _
      refine ⟨fun hotkey c n hstake => ?_, hsame ▸ hs.listed⟩
      rw [hsame] at hstake
      exact owner_coldkeySwapped h (hs.owned hotkey c n hstake)
  have hmoved := Stakes.moved_transferColdkeyStakes hne s.pools.allSubnetNetuids s.stakes
  have hlisted := hs.listed.transferColdkeyStakes oldColdkey newColdkey s.pools.allSubnetNetuids
  have hstakes := h.stakes
  rw [State.stakes_coldkeyMoved] at hstakes
  generalize s.pools.allSubnetNetuids.foldl (·.transferColdkeyStake oldColdkey newColdkey ·) s.stakes =
    after at hstakes hmoved hlisted
  have hafter : ∀ hotkey c n, s'.stakes.stake hotkey c n = after.stake hotkey c n := by
    rw [hstakes]
    exact fun _ _ _ => rfl
  constructor
  · rintro hs' ⟨hotkey, n, hstake, hgone⟩
    -- the stake is still under the old coldkey, whose list is empty now
    have hsame := hmoved.source_of_not (i := hotkey) fun hon => hgone hon.2
    have hstake' : s'.stakes.stake hotkey oldColdkey n ≠ 0 := by
      rw [hafter]
      exact fun hzero => hstake (hsame.symm.trans hzero)
    have hleft := hs'.listed hotkey oldColdkey n hstake'
    rw [hstakes, Stakes.mem_transferStakingHotkeys] at hleft
    rcases hleft with ⟨heq, -⟩ | ⟨-, hself, -⟩
    · exact hne heq
    · exact hself rfl
  · intro hnot
    have hnone : ∀ hotkey n, after.stake hotkey oldColdkey n = 0 := by
      intro hotkey n
      by_cases hon : hotkey ∈ s.stakes.stakingHotkeys oldColdkey ∧ n ∈ s.pools.allSubnetNetuids
      · exact hmoved.source hon
      · refine (hmoved.source_of_not hon).trans ?_
        by_contra hstake
        by_cases hn : n ∈ s.pools.allSubnetNetuids
        · exact hon ⟨hs.listed hotkey oldColdkey n hstake, hn⟩
        · exact hnot ⟨hotkey, n, hstake, hn⟩
    refine ⟨fun hotkey c n hstake => ?_, ?_⟩
    · rw [hafter] at hstake
      have hpos : after.stakeAt (hotkey, c) n ≠ 0 := hstake
      rcases hmoved.pos hpos with hbefore | ⟨i, -, hkeys, hsrc⟩
      · exact owner_coldkeySwapped h (hs.owned hotkey c n hbefore)
      · obtain rfl : hotkey = i := (Prod.mk.inj hkeys).1
        exact owner_coldkeySwapped h (hs.owned hotkey oldColdkey n hsrc)
    · rw [hstakes]
      exact hlisted.transferStakingHotkeys hnone

/-- **One call.** A call that succeeds keeps every stake within reach exactly if it leaves none behind. -/
theorem reach_call_iff {call : Call A} (hs : Reach s) (hok : call.run cfg s = .ok () s') :
    Reach s' ↔ ¬ call.Leaves cfg s := by
  cases call with
  | createAccountIfNonExistent coldkey hotkey =>
    obtain rfl : s.createAccountIfNonExistent coldkey hotkey = s' := by cases hok; rfl
    exact ⟨fun _ => id, fun _ => reach_createAccount hs⟩
  | stakeIntoSubnet hotkey coldkey netuid tao priceLimit setLimit dropFees =>
    have hends : Returns (Call.run cfg (.stakeIntoSubnet hotkey coldkey netuid tao priceLimit setLimit dropFees)) s
        (fun _ t => ∃ r, StakedInto cfg s t hotkey coldkey netuid tao r) := by
      simp only [Call.run, ends_bind, ends_pure]
      refine stakeIntoSubnet_ends.mono ?_ fun _ _ h => h
      rintro _ _ ⟨r, -, h⟩
      exact ⟨r, h⟩
    obtain ⟨r, hstaked⟩ := of_ends hends hok
    rw [reach_iff_owned (hstaked.stakes ▸ hs.listed.increase.addStakingHotkey) hstaked.ownership, hstaked.stakes]
    exact hs.owned.increase_iff.trans (imp_iff_right hstaked.gave)
  | unstakeFromSubnet hotkey coldkey netuid alpha priceLimit dropFees =>
    have hends : Returns (Call.run cfg (.unstakeFromSubnet hotkey coldkey netuid alpha priceLimit dropFees)) s
        (fun _ t => ∃ r, UnstakedFrom cfg s t hotkey coldkey netuid alpha priceLimit dropFees r) := by
      simp only [Call.run, ends_bind, ends_pure]
      refine unstakeFromSubnet_ends.weaken ?_
      rintro _ _ ⟨r, -, h⟩
      exact ⟨r, h⟩
    obtain ⟨r, hunstaked⟩ := of_ends hends hok
    rw [reach_unstakedFrom hs hunstaked]
    simp only [Call.Leaves, hunstaked.sold, Except.ok.injEq, exists_eq_left']
  | transferStakeWithinSubnet originColdkey originHotkey destinationColdkey destinationHotkey netuid alpha =>
    have hends : Returns (Call.run cfg (.transferStakeWithinSubnet originColdkey originHotkey destinationColdkey
        destinationHotkey netuid alpha)) s (fun _ t => Reach t ↔ s.ownership.owner destinationHotkey ≠ none) := by
      simp only [Call.run, ends_bind, ends_pure]
      refine transferStakeWithinSubnet_ends.mono ?_ fun _ _ h => h
      rintro _ t ⟨halpha, hown, -, -, hstakes⟩
      rw [reach_iff_owned (hstakes ▸ hs.listed.decrease.increase) hown, hstakes, hs.owned.decrease.increase_iff]
      exact imp_iff_right halpha
    have hreach := of_ends hends hok
    exact hreach
  | doSwapHotkey origin oldHotkey newHotkey netuid keepStake =>
    obtain ⟨coldkey, -, hswapped⟩ := hotkeySwapped_of_ok hok
    cases netuid with
    | some netuid => exact ⟨fun _ => id, fun _ => reach_hotkeySwapped_some hs hswapped⟩
    | none => exact reach_hotkeySwapped_none hs hswapped
  | doSwapColdkey oldColdkey newColdkey => exact reach_coldkeySwapped hs (coldkeySwapped_of_ok hok)
  | nextBlock author =>
    obtain rfl : { s with block := s.block + 1, author } = s' := by cases hok; rfl
    exact ⟨fun _ => id, fun _ => ⟨hs.owned, hs.listed⟩⟩
end Steps

/-! ## Runs -/

section Runs
variable {cfg : Config A B X R} {s : State A B X R}

theorem reach_exec_iff {call : Call A} (hs : Reach s) : Reach (call.exec cfg s) ↔ ¬ call.Strands cfg s := by
  unfold Call.exec Call.Strands
  cases hrun : call.run cfg s with
  | ok u s' =>
    rw [reach_call_iff hs hrun, and_iff_right ⟨s', rfl⟩]
  | error e s' =>
    refine iff_of_true hs ?_
    rintro ⟨⟨_, hok⟩, -⟩
    cases hok

/-- Along a run, stake is in reach as long as no call strands any. -/
theorem reach_execAll_iff (calls : List (Call A)) (hs : Reach s) :
    (∀ pre, pre <+: calls → Reach (Call.execAll cfg s pre)) ↔
      ∀ pre call, pre ++ [call] <+: calls → ¬ call.Strands cfg (Call.execAll cfg s pre) := by
  constructor
  · intro hall pre call hpre
    have hbefore := hall pre ((List.prefix_append pre [call]).trans hpre)
    have hafter := hall (pre ++ [call]) hpre
    rw [Call.execAll, List.foldl_append] at hafter
    exact (reach_exec_iff hbefore).mp hafter
  · -- induction on the prefix, from its end
    intro hnone pre
    induction pre using List.reverseRecOn with
    | nil => exact fun _ => hs
    | append_singleton pre call ih =>
      intro hpre
      have hbefore := ih ((List.prefix_append pre [call]).trans hpre)
      rw [Call.execAll, List.foldl_append]
      exact (reach_exec_iff hbefore).mpr (hnone pre call hpre)
end Runs

/-- **Whose stake stays in reach.** From a state without stake, in every state of a run each positive stake
    is on a hotkey that has an owner and that its coldkey lists, exactly if no call of the run strands stake. -/
theorem reach_iff (cfg : Config A B X R) (s : State A B X R) (hempty : s.stakes.alpha = ∅) (calls : List (Call A)) :
    (∀ pre, pre <+: calls → ∀ h c n, 0 < (Call.execAll cfg s pre).stakes.stake h c n →
      (Call.execAll cfg s pre).ownership.hotkeyAccountExists h = true ∧
        h ∈ (Call.execAll cfg s pre).stakes.stakingHotkeys c) ↔
      ∀ pre call, pre ++ [call] <+: calls → ¬ call.Strands cfg (Call.execAll cfg s pre) := by
  have hs : Reach s := by
    have hzero : ∀ h c n, s.stakes.stake h c n = 0 := by
      intro h c n
      simp [Stakes.stake, StorageMap.getD, hempty]
    exact ⟨fun h c n hstake => absurd (hzero h c n) hstake, fun h c n hstake => absurd (hzero h c n) hstake⟩
  rw [← reach_execAll_iff calls hs]
  refine forall₂_congr fun pre _ => ?_
  constructor
  · intro hall
    refine ⟨fun h c n hstake hnone => ?_, fun h c n hstake => (hall h c n (Nat.pos_of_ne_zero hstake)).2⟩
    have hexists := (hall h c n (Nat.pos_of_ne_zero hstake)).1
    rw [Ownership.hotkeyAccountExists, hnone] at hexists
    cases hexists
  · intro hreach h c n hstake
    refine ⟨Option.isSome_iff_ne_none.mpr (hreach.owned h c n hstake.ne'), hreach.listed h c n hstake.ne'⟩

/-! ## Stranding a nominator -/

namespace Sample

/-- Account 0 creates hotkey 1, and account 2 stakes on it. -/
def nominated : List (Call Account) := [.createAccountIfNonExistent 0 1, .stakeIntoSubnet 1 2 1 5000000 0 false false]

/-- Then account 0 swaps hotkey 1 for another one on all subnets, and keeps the stake where it is. -/
def swapped : List (Call Account) := nominated ++ [.doSwapHotkey (.signed 0) 1 3 none true]
end Sample
open Sample

/-- Staking on a hotkey that has an owner strands nothing. -/
theorem reach_nominated :
    fresh.stakes.alpha = ∅ ∧
      (Call.execAll config fresh nominated).stakes.stake 1 2 1 = 4950000 ∧
      ∀ pre, pre <+: nominated →
        ∀ h c n, 0 < (Call.execAll config fresh pre).stakes.stake h c n →
          (Call.execAll config fresh pre).ownership.hotkeyAccountExists h = true ∧
            h ∈ (Call.execAll config fresh pre).stakes.stakingHotkeys c := by
  refine ⟨rfl, by decide, (reach_iff config fresh rfl nominated).mpr ?_⟩
  rintro pre call hpre ⟨-, hleaves⟩
  rcases pre with _ | ⟨first, _ | ⟨second, rest⟩⟩
  · obtain rfl : call = .createAccountIfNonExistent 0 1 := by simpa [nominated] using hpre
    exact hleaves
  · obtain ⟨rfl, rfl⟩ : first = .createAccountIfNonExistent 0 1 ∧
        call = .stakeIntoSubnet 1 2 1 5000000 0 false false := by
      simpa [nominated] using hpre
    cases (show some (0 : Account) = none from hleaves)
  · simpa [nominated] using hpre.length_le

/-- Swapping the hotkey on all subnets without the stake takes its owner away and leaves the nominator's stake. -/
theorem reach_stranded :
    fresh.stakes.alpha = ∅ ∧
      (Call.execAll config fresh swapped).stakes.stake 1 2 1 = 4950000 ∧
      (Call.execAll config fresh swapped).ownership.owner 1 = none := by
  refine ⟨rfl, by decide, by decide⟩
end Qubitum.Subtensor
