import Qubitum.Subtensor.SwapEffects

/-!
# `Subtensor.StakeMoves` — where the stake is after a key swap

Both swaps are loops whose body moves all that one coldkey has on one hotkey: a hotkey swap goes through the
coldkeys of the old hotkey, a coldkey swap through the hotkeys of the old coldkey. `Moved` describes such a
loop by what it goes through, `on`, and by the keys it moves from and to. Two loops in a row are one loop
(`Moved.trans`), so a whole swap is described by the subnets it visits.

The lists of staking hotkeys follow the stake: `Listed` holds through every move, and breaks only where a
list is cut.
-/

namespace Qubitum.Subtensor
variable {A B X R : Type} [DecidableEq A]

namespace Stakes

/-- What the keys have staked: hotkey first, then coldkey. -/
def stakeAt (st : Stakes A) (keys : A × A) (netuid : NetUid) : Nat := st.stake keys.1 keys.2 netuid

/-- Keys to move from and to, for every member of what a loop goes through. -/
structure Route (A I : Type) where
  src : I → A × A
  tgt : I → A × A
  src_injective : Function.Injective src
  tgt_injective : Function.Injective tgt
  src_ne_tgt : ∀ i j, src i ≠ tgt j

/-- From the old hotkey to the new one, for every coldkey. -/
def Route.hotkey (oldHotkey newHotkey : A) (hne : oldHotkey ≠ newHotkey) : Route A A where
  src coldkey := (oldHotkey, coldkey)
  tgt coldkey := (newHotkey, coldkey)
  src_injective _ _ h := (Prod.mk.inj h).2
  tgt_injective _ _ h := (Prod.mk.inj h).2
  src_ne_tgt _ _ h := hne (Prod.mk.inj h).1

/-- From the old coldkey to the new one, for every hotkey. -/
def Route.coldkey (oldColdkey newColdkey : A) (hne : oldColdkey ≠ newColdkey) : Route A A where
  src hotkey := (hotkey, oldColdkey)
  tgt hotkey := (hotkey, newColdkey)
  src_injective _ _ h := (Prod.mk.inj h).1
  tgt_injective _ _ h := (Prod.mk.inj h).1
  src_ne_tgt _ _ h := hne (Prod.mk.inj h).2

variable {I : Type} {r : Route A I} {on on' : I → NetUid → Prop} {st st1 st2 : Stakes A}

/-- `st1` is `st` with the stake moved along `r` for the members and subnets in `on`. -/
structure Moved (r : Route A I) (on : I → NetUid → Prop) (st st1 : Stakes A) : Prop where
  source : ∀ {i n}, on i n → st1.stakeAt (r.src i) n = 0
  target : ∀ {i n}, on i n → st1.stakeAt (r.tgt i) n = st.stakeAt (r.tgt i) n + st.stakeAt (r.src i) n
  other : ∀ {keys n}, (∀ i, on i n → keys ≠ r.src i ∧ keys ≠ r.tgt i) → st1.stakeAt keys n = st.stakeAt keys n

namespace Moved

theorem refl : Moved r (fun _ _ => False) st st := ⟨False.elim, False.elim, fun _ => rfl⟩

variable {i : I} {n : NetUid}

theorem source_of_not (h : Moved r on st st1) (hi : ¬ on i n) : st1.stakeAt (r.src i) n = st.stakeAt (r.src i) n := by
  refine h.other fun j hj => ⟨fun heq => ?_, r.src_ne_tgt i j⟩
  exact hi (r.src_injective heq ▸ hj)

theorem target_of_not (h : Moved r on st st1) (hi : ¬ on i n) : st1.stakeAt (r.tgt i) n = st.stakeAt (r.tgt i) n := by
  refine h.other fun j hj => ⟨(r.src_ne_tgt j i).symm, fun heq => ?_⟩
  exact hi (r.tgt_injective heq ▸ hj)

/-- **Loops compose.** A member that both go through is moved by the first; the second finds nothing. -/
theorem trans (h1 : Moved r on st st1) (h2 : Moved r on' st1 st2) : Moved r (fun i n => on i n ∨ on' i n) st st2 where
  source := by
    intro i n hi
    by_cases hi' : on' i n
    · exact h2.source hi'
    · rw [h2.source_of_not hi', h1.source (hi.resolve_right hi')]
  target := by
    intro i n hi
    by_cases hi' : on' i n
    · rw [h2.target hi']
      by_cases hfirst : on i n
      · rw [h1.target hfirst, h1.source hfirst, Nat.add_zero]
      · rw [h1.target_of_not hfirst, h1.source_of_not hfirst]
    · rw [h2.target_of_not hi', h1.target (hi.resolve_right hi')]
  other := by
    intro keys n hkeys
    rw [h2.other fun i hi => hkeys i (.inr hi), h1.other fun i hi => hkeys i (.inl hi)]

section
variable (h : Moved r on st st1)
include h

/-- Members without stake may be counted in. -/
theorem widen (hle : ∀ i n, on i n → on' i n)
    (hzero : ∀ i n, on' i n → ¬ on i n → st.stakeAt (r.src i) n = 0) : Moved r on' st st1 where
  source := by
    intro i n hi
    by_cases hin : on i n
    · exact h.source hin
    · rw [h.source_of_not hin, hzero i n hi hin]
  target := by
    intro i n hi
    by_cases hin : on i n
    · exact h.target hin
    · rw [h.target_of_not hin, hzero i n hi hin, Nat.add_zero]
  other := fun hkeys => h.other fun i hi => hkeys i (hle i _ hi)

/-- Stake that is there afterwards was there before, or was moved there. -/
theorem pos {keys : A × A} (hstake : st1.stakeAt keys n ≠ 0) :
    st.stakeAt keys n ≠ 0 ∨ ∃ i, on i n ∧ keys = r.tgt i ∧ st.stakeAt (r.src i) n ≠ 0 := by
  by_cases htgt : ∃ i, on i n ∧ keys = r.tgt i
  · obtain ⟨i, hi, rfl⟩ := htgt
    rw [h.target hi] at hstake
    by_cases hsrc : st.stakeAt (r.src i) n = 0
    · rw [hsrc, Nat.add_zero] at hstake
      exact .inl hstake
    · exact .inr ⟨i, hi, rfl, hsrc⟩
  · rw [h.other fun i hi => ⟨fun heq => ?_, fun heq => htgt ⟨i, hi, heq⟩⟩] at hstake
    · exact .inl hstake
    · rw [heq, h.source hi] at hstake
      exact hstake rfl

theorem congr (heq : ∀ i n, on i n ↔ on' i n) : Moved r on' st st1 :=
  h.widen (fun i n => (heq i n).mp) fun i n hi hin => absurd ((heq i n).mpr hi) hin
end
end Moved

/-! ## The loops -/

theorem moved_move (r : Route A I) (st : Stakes A) (i0 : I) (n0 : NetUid) : Moved r (fun i n => i = i0 ∧ n = n0) st
      (st.move (r.src i0).1 (r.src i0).2 (r.tgt i0).1 (r.tgt i0).2 n0) := by
  have hne : ¬((r.src i0).1 = (r.tgt i0).1 ∧ (r.src i0).2 = (r.tgt i0).2) :=
    fun hall => r.src_ne_tgt i0 i0 (Prod.ext hall.1 hall.2)
  refine ⟨?_, ?_, ?_⟩
  · rintro i n ⟨rfl, rfl⟩
    unfold stakeAt
    rw [stake_move hne, if_pos ⟨rfl, rfl, rfl⟩]
  · rintro i n ⟨rfl, rfl⟩
    unfold stakeAt
    rw [stake_move hne, if_neg fun hall => hne ⟨hall.1.symm, hall.2.1.symm⟩, if_pos ⟨rfl, rfl, rfl⟩]
  · intro keys n hkeys
    unfold stakeAt
    by_cases hn : n = n0
    · obtain ⟨hsrc, htgt⟩ := hkeys i0 ⟨rfl, hn⟩
      rw [stake_move hne, if_neg fun hall => hsrc (Prod.ext hall.1 hall.2.1),
        if_neg fun hall => htgt (Prod.ext hall.1 hall.2.1), Nat.add_zero]
    · rw [stake_move hne, if_neg fun hall => hn hall.2.2, if_neg fun hall => hn hall.2.2, Nat.add_zero]

/-- A loop whose body moves the stake of its own element. -/
theorem moved_foldl {J : Type} {f : Stakes A → J → Stakes A} (onOf : J → I → NetUid → Prop)
    (hbody : ∀ st j, Moved r (onOf j) st (f st j)) (l : List J) (st : Stakes A) :
    Moved r (fun i n => ∃ j ∈ l, onOf j i n) st (l.foldl f st) := by
  induction l generalizing st with
  | nil => exact Moved.refl.congr fun i n => by simp
  | cons j rest ih =>
    refine ((hbody st j).trans (ih (f st j))).congr fun i n => ?_
    simp

variable {oldHotkey newHotkey : A}

/-- **One subnet of a hotkey swap**: every coldkey is moved. -/
theorem moved_swapHotkey (hne : oldHotkey ≠ newHotkey) (st : Stakes A) (n0 : NetUid) :
    Moved (.hotkey oldHotkey newHotkey hne) (fun _ n => n = n0) st (st.swapHotkey oldHotkey newHotkey n0) := by
  refine (moved_foldl (fun c i n => i = c ∧ n = n0) ?_ _ st).widen ?_ ?_
  · intro st coldkey
    have hmove := moved_move (.hotkey oldHotkey newHotkey hne) st coldkey n0
    -- the list of the coldkey changes, not its stake
    dsimp only
    split
    · exact ⟨hmove.source, hmove.target, hmove.other⟩
    · exact hmove
  · rintro i n ⟨_, _, -, hn⟩
    exact hn
  · rintro c n rfl hnot
    by_contra hstake
    exact hnot ⟨c, mem_coldkeysOn_of_stake hstake, rfl, rfl⟩

theorem moved_swapHotkeyOn (hne : oldHotkey ≠ newHotkey) (st : Stakes A) (netuids : List NetUid) :
    Moved (.hotkey oldHotkey newHotkey hne) (fun _ n => n ∈ netuids) st (st.swapHotkeyOn oldHotkey newHotkey netuids) :=
  (moved_foldl (fun n0 _ n => n = n0) (fun st n0 => moved_swapHotkey hne st n0) netuids st).congr fun i n => by simp

/-! ## The lists -/

/-- Every hotkey with stake of a coldkey is in the coldkey's list. -/
def Listed (st : Stakes A) : Prop := ∀ h c n, st.stake h c n ≠ 0 → h ∈ st.stakingHotkeys c

variable {h c : A} {n : NetUid} {amount : Nat}

section
variable (hl : st.Listed)
include hl

theorem Listed.increase : (st.increase h c n amount).Listed := by
  intro h' c' n' hstake
  rw [stake_increase] at hstake
  rw [mem_stakingHotkeys_increase]
  by_cases hkey : h' = h ∧ c' = c ∧ n' = n
  · by_cases hamount : amount = 0
    · rw [if_pos hkey, hamount] at hstake
      exact .inl (hl h' c' n' hstake)
    · exact .inr ⟨hamount, hkey.2.1, hkey.1⟩
  · rw [if_neg hkey] at hstake
    exact .inl (hl h' c' n' hstake)

theorem Listed.decrease : (st.decrease h c n amount).Listed := by
  intro h' c' n' hstake
  rw [stakingHotkeys_decrease]
  refine hl h' c' n' fun hzero => hstake ?_
  exact Nat.le_zero.mp (hzero ▸ stake_decrease_le)

theorem Listed.addStakingHotkey : (st.addStakingHotkey c h).Listed :=
  fun h' c' n' hstake => mem_addStakingHotkey.mpr (.inl (hl h' c' n' hstake))

theorem Listed.move {oldHotkey oldColdkey newHotkey newColdkey : A} :
    (st.move oldHotkey oldColdkey newHotkey newColdkey n).Listed :=
  hl.decrease.increase

theorem Listed.swapHotkey : (st.swapHotkey oldHotkey newHotkey n).Listed := by
  refine List.foldlRecOn (motive := fun st : Stakes A => st.Listed) _ _ hl ?_
  intro st hst coldkey _
  dsimp only
  split
  · exact hst.move.addStakingHotkey
  · exact hst.move

theorem Listed.swapHotkeyOn {netuids : List NetUid} :
    (st.swapHotkeyOn oldHotkey newHotkey netuids).Listed :=
  List.foldlRecOn (motive := fun st : Stakes A => st.Listed) _ _ hl fun _ hst _ _ => hst.swapHotkey
end

/-- Renaming does not touch the stake and drops nothing but the old hotkey. -/
theorem renameStakingHotkeys_spec (st : Stakes A) (oldHotkey newHotkey : A) (values : List (A × NetUid × Nat)) :
    (∀ h c n, (st.renameStakingHotkeys oldHotkey newHotkey values).stake h c n = st.stake h c n) ∧
      ∀ h c, h ≠ oldHotkey → h ∈ st.stakingHotkeys c →
        h ∈ (st.renameStakingHotkeys oldHotkey newHotkey values).stakingHotkeys c := by
  refine List.foldlRecOn (motive := fun t : Stakes A => (∀ h c n, t.stake h c n = st.stake h c n) ∧
    ∀ h c, h ≠ oldHotkey → h ∈ st.stakingHotkeys c → h ∈ t.stakingHotkeys c) _ _ ⟨fun _ _ _ => rfl,
    fun _ _ _ hmem => hmem⟩ ?_
  rintro t ⟨hstake, hlisted⟩ ⟨coldkey, n, share⟩ _
  dsimp only
  split
  · refine ⟨hstake, fun h c hold hmem => ?_⟩
    have hmem' := hlisted h c hold hmem
    by_cases hc : c = coldkey
    · subst hc
      -- the new hotkey leaves the list and comes back at its end
      by_cases hnew : h = newHotkey <;> simp [mem_pushNew, hold, hnew, hmem']
    · simpa [hc] using hmem'
  · exact ⟨hstake, hlisted⟩

theorem Listed.renameStakingHotkeys (hl : st.Listed) {values : List (A × NetUid × Nat)}
    (hnone : ∀ c n, st.stake oldHotkey c n = 0) : (st.renameStakingHotkeys oldHotkey newHotkey values).Listed := by
  obtain ⟨hstake, hlisted⟩ := renameStakingHotkeys_spec st oldHotkey newHotkey values
  intro h c n hpos
  rw [hstake] at hpos
  refine hlisted h c ?_ (hl h c n hpos)
  rintro rfl
  exact hpos (hnone c n)

/-! ## Coldkey swaps -/

/-- `transfer_coldkey_stake` on the stakes alone. -/
def transferColdkeyStake (st : Stakes A) (oldColdkey newColdkey : A) (netuid : NetUid) : Stakes A :=
  (st.stakingHotkeys oldColdkey).foldl (fun st hotkey => st.move hotkey oldColdkey hotkey newColdkey netuid) st

variable {oldColdkey newColdkey : A}

theorem moved_transferColdkeyStake (hne : oldColdkey ≠ newColdkey) (st : Stakes A) (n0 : NetUid) :
    Moved (.coldkey oldColdkey newColdkey hne) (fun h n => h ∈ st.stakingHotkeys oldColdkey ∧ n = n0) st
      (st.transferColdkeyStake oldColdkey newColdkey n0) := by
  refine (moved_foldl (fun hotkey h n => h = hotkey ∧ n = n0) ?_ _ st).congr fun h n => by simp
  intro t hotkey
  exact moved_move (.coldkey oldColdkey newColdkey hne) t hotkey n0

/-- **The loop over the subnets of a coldkey swap.** It reads the same list of hotkeys on every subnet. -/
theorem moved_transferColdkeyStakes (hne : oldColdkey ≠ newColdkey) (netuids : List NetUid) (st : Stakes A) :
    Moved (.coldkey oldColdkey newColdkey hne) (fun h n => h ∈ st.stakingHotkeys oldColdkey ∧ n ∈ netuids) st
      (netuids.foldl (·.transferColdkeyStake oldColdkey newColdkey ·) st) := by
  induction netuids generalizing st with
  | nil => exact Moved.refl.congr fun h n => by simp
  | cons n0 rest ih =>
    refine ((moved_transferColdkeyStake hne st n0).trans (ih _)).congr fun h n => ?_
    have hlist : h ∈ (st.transferColdkeyStake oldColdkey newColdkey n0).stakingHotkeys oldColdkey ↔
        h ∈ st.stakingHotkeys oldColdkey := by
      refine List.foldlRecOn (motive := fun t : Stakes A => h ∈ t.stakingHotkeys oldColdkey ↔ _) _ _ Iff.rfl ?_
      intro t ht hotkey _
      rw [mem_stakingHotkeys_move]
      simpa [hne] using ht
    rw [hlist, ← and_or_left, List.mem_cons]

theorem Listed.transferColdkeyStakes (hl : st.Listed) (oldColdkey newColdkey : A) (netuids : List NetUid) :
    (netuids.foldl (·.transferColdkeyStake oldColdkey newColdkey ·) st).Listed := by
  refine List.foldlRecOn (motive := fun st : Stakes A => st.Listed) _ _ hl ?_
  intro st hst n _
  exact List.foldlRecOn (motive := fun st : Stakes A => st.Listed) _ _ hst fun _ ht _ _ => ht.move

theorem transferColdkeyStakes_of_nil (hnil : st.stakingHotkeys oldColdkey = []) (netuids : List NetUid) :
    netuids.foldl (·.transferColdkeyStake oldColdkey newColdkey ·) st = st := by
  induction netuids with
  | nil => rfl
  | cons n rest ih =>
    have hsame : st.transferColdkeyStake oldColdkey newColdkey n = st := by
      unfold transferColdkeyStake
      rw [hnil]
      rfl
    rw [List.foldl_cons, hsame, ih]

theorem mem_transferStakingHotkeys :
    h ∈ (st.transferStakingHotkeys oldColdkey newColdkey).stakingHotkeys c ↔
      (c = newColdkey ∧ (h ∈ st.stakingHotkeys newColdkey ∨ h ∈ st.stakingHotkeys oldColdkey)) ∨
      (c ≠ newColdkey ∧ c ≠ oldColdkey ∧ h ∈ st.stakingHotkeys c) := by
  unfold transferStakingHotkeys
  by_cases hnew : c = newColdkey
  · subst hnew
    simp [mem_foldl_pushNew]
  · by_cases hold : c = oldColdkey
    · subst hold
      simp [hnew]
    · simp [hnew, hold]

/-- The old list may be cut when nothing is staked by the old coldkey any more. -/
theorem Listed.transferStakingHotkeys (hl : st.Listed) (hnone : ∀ h n, st.stake h oldColdkey n = 0) :
    (st.transferStakingHotkeys oldColdkey newColdkey).Listed := by
  intro h c n hstake
  have hmem := hl h c n hstake
  have hold : c ≠ oldColdkey := by
    rintro rfl
    exact hstake (hnone h n)
  rw [mem_transferStakingHotkeys]
  by_cases hnew : c = newColdkey
  · subst hnew
    exact .inl ⟨rfl, .inl hmem⟩
  · exact .inr ⟨hnew, hold, hmem⟩

/-- A coldkey without staking hotkeys can be swapped with itself. -/
theorem transferStakingHotkeys_self (hnil : st.stakingHotkeys oldColdkey = []) :
    st.transferStakingHotkeys oldColdkey oldColdkey = st := by
  have hlists : Function.update (Function.update st.stakingHotkeys oldColdkey []) oldColdkey [] =
      st.stakingHotkeys := by
    rw [Function.update_idem, ← hnil, Function.update_eq_self]
  unfold transferStakingHotkeys
  simp only [hnil, List.foldl_nil, hlists]
end Stakes

theorem State.stakes_transferColdkeyStake (s : State A B X R) (netuid : NetUid) (oldColdkey newColdkey : A) :
    (s.transferColdkeyStake netuid oldColdkey newColdkey).stakes =
      s.stakes.transferColdkeyStake oldColdkey newColdkey netuid := by
  refine (List.foldl_hom State.stakes ?_).symm
  intro t hotkey
  rfl

/-- What a coldkey swap does to the stakes depends on nothing else. -/
theorem State.stakes_coldkeyMoved (cfg : Config A B X R) (s : State A B X R) (oldColdkey newColdkey : A) :
    (s.coldkeyMoved cfg oldColdkey newColdkey).stakes =
      s.pools.allSubnetNetuids.foldl (·.transferColdkeyStake oldColdkey newColdkey ·) s.stakes := by
  refine (List.foldl_hom State.stakes ?_).symm
  intro t n
  unfold State.swapColdkeyOnSubnet
  rw [State.stakes_transferColdkeyStake]
end Qubitum.Subtensor
