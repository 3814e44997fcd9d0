import Qubitum.Subtensor.StakeMoves

/-!
# `Subtensor.RootDividends` — what root stakers are owed after a coldkey swap

Dividends of root stake are kept as a rate per hotkey and subnet. A coldkey is owed the rate times its stake
*on root*, less what it has claimed of the dividends of *that subnet*. A coldkey swap moves the two in one
loop over the subnets, and moves what was claimed on a subnet only if there is stake on that subnet.

So a coldkey that has claimed dividends of a subnet and holds no stake there starts again from zero under its
new key, and is owed everything once more. `owed_swapped` has the exact amounts.
-/

namespace Qubitum.Subtensor
open Fixed Mutation

variable {A B X R : Type} [DecidableEq A]

namespace RootClaims
variable {rc : RootClaims A} {netuid n : NetUid} {hotkey h c oldColdkey newColdkey : A}

/-- What is owed for a rate, an amount of root stake and what was claimed. -/
def owedOf (rate : I96F32) (rootStake claimed : Nat) : Nat :=
  let owed := (rate.saturatingMul (I96F32.ofNat rootStake)).saturatingSub (I96F32.ofNat claimed)
  if owed.isNegative then 0 else owed.toUnsigned 64

/-- What root stake has earned at a rate, in whole units. -/
def earned (rate : I96F32) (rootStake : Nat) : Nat := ((rate.saturatingMul (I96F32.ofNat rootStake)).bits / 2 ^ 32).toNat

/-- While it fits `u64`, what is owed is what was earned less what was claimed. -/
theorem owedOf_eq {rate : I96F32} {rootStake claimed : Nat} (hrate : 0 ≤ rate.bits)
    (hfits : earned rate rootStake < 2 ^ 64) (hclaimed : claimed < 2 ^ 95) :
    owedOf rate rootStake claimed = earned rate rootStake - claimed := by
  have hstake : 0 ≤ (I96F32.ofNat rootStake).bits := I96F32.le_bits_saturate (by decide) (by omega)
  have hge : 0 ≤ (rate.saturatingMul (I96F32.ofNat rootStake)).bits :=
    I96F32.le_bits_saturate (by decide) (Int.ediv_nonneg (Int.mul_nonneg hrate hstake) (by decide))
  unfold owedOf earned at *
  generalize rate.saturatingMul (I96F32.ofNat rootStake) = due at *
  have hlt := due.lt
  have hbits : (due.saturatingSub (I96F32.ofNat claimed)).bits = due.bits - claimed * 2 ^ 32 := by
    unfold I96F32.saturatingSub
    rw [I96F32.bits_ofNat hclaimed]
    exact I96F32.bits_saturate (by omega) (by omega)
  simp only [I96F32.isNegative, I96F32.toUnsigned, hbits, decide_eq_true_eq]
  split_ifs with hneg <;> omega

@[simp] theorem earned_zero (rate : I96F32) : earned rate 0 = 0 := by
  simp [earned, I96F32.saturatingMul, I96F32.ofNat, I96F32.saturate]

/-- The rate of a hotkey's dividends on a subnet. -/
def rateOf (rc : RootClaims A) (hotkey : A) (netuid : NetUid) : I96F32 :=
  ((rc.rootClaimable hotkey).lookup netuid).getD (I96F32.ofNat 0)

omit [DecidableEq A] in
theorem rateOf_congr {rc' : RootClaims A} (hsame : rc'.rootClaimable = rc.rootClaimable) :
    rc'.rateOf hotkey netuid = rc.rateOf hotkey netuid := by
  unfold rateOf
  rw [hsame]

theorem owed_eq (rc : RootClaims A) (st : Stakes A) (hotkey coldkey : A) (netuid : NetUid) :
    rc.owed st hotkey coldkey netuid =
      owedOf (rc.rateOf hotkey netuid) (st.stake hotkey coldkey NetUid.root) (rc.claimed netuid hotkey coldkey) :=
  rfl

variable {coldkey : A}

theorem claimed_setClaimed {value : Nat} :
    (rc.setClaimed netuid hotkey coldkey value).claimed n h c =
      if n = netuid ∧ h = hotkey ∧ c = coldkey then value else rc.claimed n h c := by
  unfold setClaimed claimed StorageMap.getD
  by_cases hkey : (n, h, c) = (netuid, hotkey, coldkey)
  · obtain ⟨rfl, rfl, rfl⟩ := by simpa using hkey
    simp
  · have hne : ¬(n = netuid ∧ h = hotkey ∧ c = coldkey) := by simpa using hkey
    rw [if_neg hne]
    simp only [AList.lookup_insert_ne hkey]

/-- What was claimed by one coldkey goes to another. -/
theorem claimed_transferClaimed (hne : oldColdkey ≠ newColdkey) :
    (rc.transferClaimed netuid hotkey hotkey oldColdkey newColdkey).claimed n h c =
      if n = netuid ∧ h = hotkey ∧ c = newColdkey then
        rc.claimed netuid hotkey oldColdkey + rc.claimed netuid hotkey newColdkey
      else if n = netuid ∧ h = hotkey ∧ c = oldColdkey then 0 else rc.claimed n h c := by
  have herase : ∀ n h c,
      ({ rc with rootClaimed := rc.rootClaimed.erase (netuid, hotkey, oldColdkey) } : RootClaims A).claimed n h c =
        if n = netuid ∧ h = hotkey ∧ c = oldColdkey then 0 else rc.claimed n h c := by
    intro n h c
    unfold claimed StorageMap.getD
    by_cases hkey : (n, h, c) = (netuid, hotkey, oldColdkey)
    · obtain ⟨rfl, rfl, rfl⟩ := by simpa using hkey
      simp
    · have hnot : ¬(n = netuid ∧ h = hotkey ∧ c = oldColdkey) := by simpa using hkey
      rw [if_neg hnot]
      simp only [AList.lookup_erase_ne hkey]
  unfold transferClaimed
  simp only [claimed_setClaimed, herase]
  by_cases hnew : n = netuid ∧ h = hotkey ∧ c = newColdkey
  · simp [hnew, hne.symm]
  · simp [hnew]

theorem claimed_maybeAddColdkeyIndex : (rc.maybeAddColdkeyIndex coldkey).claimed n h c = rc.claimed n h c := by
  unfold maybeAddColdkeyIndex
  split <;> rfl
end RootClaims

/-! ## One hotkey on one subnet -/

section Moves
variable {cfg : Config A B X R} {s t : State A B X R} {oldColdkey newColdkey hotkey : A} {netuid : NetUid}
  {stake claimed : Nat}

/-- Before the loop comes to the hotkey and the subnet: the old coldkey has everything. -/
structure Unmoved (oldColdkey newColdkey hotkey : A) (netuid : NetUid) (stake claimed : Nat)
    (t : State A B X R) : Prop where
  listed : hotkey ∈ t.stakes.stakingHotkeys oldColdkey
  oldStake : t.stakes.stake hotkey oldColdkey netuid = stake
  newStake : t.stakes.stake hotkey newColdkey netuid = 0
  oldClaimed : t.rootClaims.claimed netuid hotkey oldColdkey = claimed
  newClaimed : t.rootClaims.claimed netuid hotkey newColdkey = 0

/-- Afterwards: what was claimed has gone with the stake, if there was any. -/
structure Handed (oldColdkey newColdkey hotkey : A) (netuid : NetUid) (stake claimed : Nat)
    (t : State A B X R) : Prop where
  listed : hotkey ∈ t.stakes.stakingHotkeys oldColdkey
  oldStake : t.stakes.stake hotkey oldColdkey netuid = 0
  newStake : t.stakes.stake hotkey newColdkey netuid = stake
  oldClaimed : stake ≠ 0 → t.rootClaims.claimed netuid hotkey oldColdkey = 0
  newClaimed : t.rootClaims.claimed netuid hotkey newColdkey = if stake = 0 then 0 else claimed

variable {n0 n : NetUid} {h0 h c : A}

section
variable (hne : oldColdkey ≠ newColdkey)
include hne

theorem stake_transferHotkeyStake :
    (t.transferHotkeyStake n0 oldColdkey newColdkey h0).stakes.stake h c n =
      if h = h0 ∧ c = oldColdkey ∧ n = n0 then 0
      else t.stakes.stake h c n + if h = h0 ∧ c = newColdkey ∧ n = n0 then t.stakes.stake h0 oldColdkey n0 else 0 :=
  Stakes.stake_move fun hall => hne hall.2

theorem listed_transferHotkeyStake :
    h ∈ (t.transferHotkeyStake n0 oldColdkey newColdkey h0).stakes.stakingHotkeys oldColdkey ↔
      h ∈ t.stakes.stakingHotkeys oldColdkey := by
  refine Stakes.mem_stakingHotkeys_move.trans ⟨fun h => h.resolve_right ?_, .inl⟩
  exact fun hall => hne hall.2.1

theorem claimed_transferHotkeyStake :
    (t.transferHotkeyStake n0 oldColdkey newColdkey h0).rootClaims.claimed n h c =
      if t.stakes.stake h0 newColdkey n0 + t.stakes.stake h0 oldColdkey n0 = 0 then t.rootClaims.claimed n h c
      else if n = n0 ∧ h = h0 ∧ c = newColdkey then
        t.rootClaims.claimed n0 h0 oldColdkey + t.rootClaims.claimed n0 h0 newColdkey
      else if n = n0 ∧ h = h0 ∧ c = oldColdkey then 0 else t.rootClaims.claimed n h c := by
  have hstake : (t.stakes.move h0 oldColdkey h0 newColdkey n0).stake h0 newColdkey n0 =
      t.stakes.stake h0 newColdkey n0 + t.stakes.stake h0 oldColdkey n0 := by
    rw [Stakes.stake_move fun hall => hne hall.2]
    simp [hne.symm]
  unfold State.transferHotkeyStake
  simp only [hstake]
  by_cases hzero : t.stakes.stake h0 newColdkey n0 + t.stakes.stake h0 oldColdkey n0 = 0
  · simp only [hzero, ne_eq, not_true_eq_false, if_false, if_true]
  · rw [if_pos hzero, if_neg hzero, ← RootClaims.claimed_transferClaimed hne]
    split
    · exact RootClaims.claimed_maybeAddColdkeyIndex
    · rfl

/-- Another hotkey or another subnet changes nothing for this one. -/
theorem transferHotkeyStake_miss (hmiss : ¬(h0 = hotkey ∧ n0 = netuid)) (c : A) :
    (t.transferHotkeyStake n0 oldColdkey newColdkey h0).stakes.stake hotkey c netuid =
        t.stakes.stake hotkey c netuid ∧
      (t.transferHotkeyStake n0 oldColdkey newColdkey h0).rootClaims.claimed netuid hotkey c =
        t.rootClaims.claimed netuid hotkey c := by
  constructor
  · rw [stake_transferHotkeyStake hne, if_neg fun hall => hmiss ⟨hall.1.symm, hall.2.2.symm⟩,
      if_neg fun hall => hmiss ⟨hall.1.symm, hall.2.2.symm⟩, Nat.add_zero]
  · have hkey : ∀ c', ¬(netuid = n0 ∧ hotkey = h0 ∧ c = c') := fun _ hall => hmiss ⟨hall.2.1.symm, hall.1.symm⟩
    rw [claimed_transferHotkeyStake hne, if_neg (hkey newColdkey), if_neg (hkey oldColdkey), ite_self]

theorem Unmoved.miss (hmiss : ¬(h0 = hotkey ∧ n0 = netuid))
    (h : Unmoved oldColdkey newColdkey hotkey netuid stake claimed t) :
    Unmoved oldColdkey newColdkey hotkey netuid stake claimed (t.transferHotkeyStake n0 oldColdkey newColdkey h0) := by
  obtain ⟨hstake, hclaimed⟩ := forall_and.mp (transferHotkeyStake_miss (t := t) hne hmiss)
  refine ⟨(listed_transferHotkeyStake hne).mpr h.listed, ?_, ?_, ?_, ?_⟩
  · rw [hstake, h.oldStake]
  · rw [hstake, h.newStake]
  · rw [hclaimed, h.oldClaimed]
  · rw [hclaimed, h.newClaimed]

/-- The loop comes to the hotkey and the subnet. -/
theorem Unmoved.hit (h : Unmoved oldColdkey newColdkey hotkey netuid stake claimed t) :
    Handed oldColdkey newColdkey hotkey netuid stake claimed
      (t.transferHotkeyStake netuid oldColdkey newColdkey hotkey) where
  listed := (listed_transferHotkeyStake hne).mpr h.listed
  oldStake := by simp [stake_transferHotkeyStake hne]
  newStake := by simp [stake_transferHotkeyStake hne, hne.symm, h.oldStake, h.newStake]
  oldClaimed hstake := by
    rw [claimed_transferHotkeyStake hne, h.oldStake, h.newStake]
    simp [hstake, hne]
  newClaimed := by
    rw [claimed_transferHotkeyStake hne, h.oldStake, h.newStake, h.oldClaimed, h.newClaimed]
    simp

/-- A hotkey may be listed twice: the second time there is nothing to hand over. -/
theorem Handed.step (n0 : NetUid) (h0 : A) (h : Handed oldColdkey newColdkey hotkey netuid stake claimed t) :
    Handed oldColdkey newColdkey hotkey netuid stake claimed (t.transferHotkeyStake n0 oldColdkey newColdkey h0) := by
  by_cases hhit : h0 = hotkey ∧ n0 = netuid
  · obtain ⟨rfl, rfl⟩ := hhit
    refine ⟨(listed_transferHotkeyStake hne).mpr h.listed, ?_, ?_, fun hstake => ?_, ?_⟩
    · simp [stake_transferHotkeyStake hne]
    · simp [stake_transferHotkeyStake hne, hne.symm, h.oldStake, h.newStake]
    · rw [claimed_transferHotkeyStake hne, h.oldStake, h.newStake]
      simp [hstake, hne]
    · rw [claimed_transferHotkeyStake hne, h.oldStake, h.newStake, h.newClaimed, Nat.add_zero]
      by_cases hstake : stake = 0
      · simp [hstake]
      · simp [hstake, h.oldClaimed hstake]
  · obtain ⟨hstake, hclaimed⟩ := forall_and.mp (transferHotkeyStake_miss (t := t) hne hhit)
    refine ⟨(listed_transferHotkeyStake hne).mpr h.listed, ?_, ?_, fun hpos => ?_, ?_⟩
    · rw [hstake, h.oldStake]
    · rw [hstake, h.newStake]
    · rw [hclaimed, h.oldClaimed hpos]
    · rw [hclaimed, h.newClaimed]

/-! ## The loops -/

/-- The loop over the hotkeys on one subnet. -/
theorem transferColdkeyStake_hit (n0 : NetUid) (h : Unmoved oldColdkey newColdkey hotkey netuid stake claimed t) :
    (n0 = netuid → Handed oldColdkey newColdkey hotkey netuid stake claimed
        (t.transferColdkeyStake n0 oldColdkey newColdkey)) ∧
      (n0 ≠ netuid → Unmoved oldColdkey newColdkey hotkey netuid stake claimed
        (t.transferColdkeyStake n0 oldColdkey newColdkey)) := by
  have hloop := foldl_hit (fun h0 => h0 = hotkey ∧ n0 = netuid)
    (U := Unmoved oldColdkey newColdkey hotkey netuid stake claimed)
    (V := Handed oldColdkey newColdkey hotkey netuid stake claimed)
    (f := (·.transferHotkeyStake n0 oldColdkey newColdkey ·)) ?_ (fun _ _ hmiss hu => hu.miss hne hmiss)
    (fun h0 _ hv => hv.step hne n0 h0) (t.stakes.stakingHotkeys oldColdkey) t h
  · exact ⟨fun hn => hloop.1 ⟨hotkey, h.listed, rfl, hn⟩, fun hn => hloop.2 fun _ _ hhit => hn hhit.2⟩
  · rintro _ u ⟨rfl, rfl⟩ hu
    exact hu.hit hne
end

section
variable (cfg) (hne : oldColdkey ≠ newColdkey) (hunmoved : Unmoved oldColdkey newColdkey hotkey netuid stake claimed s)
include hne hunmoved

/-- **The loop over the subnets** hands over the subnets it visits. -/
theorem coldkeyMoved_hit :
    (netuid ∈ s.pools.allSubnetNetuids → Handed oldColdkey newColdkey hotkey netuid stake claimed
        (s.coldkeyMoved cfg oldColdkey newColdkey)) ∧
      (netuid ∉ s.pools.allSubnetNetuids → Unmoved oldColdkey newColdkey hotkey netuid stake claimed
        (s.coldkeyMoved cfg oldColdkey newColdkey)) := by
  have hloop := foldl_hit (fun n0 => n0 = netuid)
    (U := Unmoved oldColdkey newColdkey hotkey netuid stake claimed)
    (V := Handed oldColdkey newColdkey hotkey netuid stake claimed)
    (f := (·.swapColdkeyOnSubnet oldColdkey newColdkey ·)) ?_ ?_ ?_ s.pools.allSubnetNetuids
    { s with rest := cfg.other.moveIdentity s.rest oldColdkey newColdkey }
    ⟨hunmoved.listed, hunmoved.oldStake, hunmoved.newStake, hunmoved.oldClaimed, hunmoved.newClaimed⟩
  · exact ⟨fun hmem => hloop.1 ⟨netuid, hmem, rfl⟩, fun hnot => hloop.2 fun n0 hmem heq => hnot (heq ▸ hmem)⟩
  -- the subnet's owner and its automatic stakers are also handed over, which does not matter here
  · intro n0 t hn ht
    refine (transferColdkeyStake_hit hne n0 ?_).1 hn
    exact ⟨ht.listed, ht.oldStake, ht.newStake, ht.oldClaimed, ht.newClaimed⟩
  · intro n0 t hn ht
    refine (transferColdkeyStake_hit hne n0 ?_).2 hn
    exact ⟨ht.listed, ht.oldStake, ht.newStake, ht.oldClaimed, ht.newClaimed⟩
  · intro n0 t ht
    refine List.foldlRecOn (motive := Handed oldColdkey newColdkey hotkey netuid stake claimed) _ _ ?_
      fun _ ht h0 _ => ht.step hne n0 h0
    exact ⟨ht.listed, ht.oldStake, ht.newStake, ht.oldClaimed, ht.newClaimed⟩
end

theorem rootClaimable_coldkeyMoved :
    (s.coldkeyMoved cfg oldColdkey newColdkey).rootClaims.rootClaimable = s.rootClaims.rootClaimable := by
  refine List.foldlRecOn
    (motive := fun t : State A B X R => t.rootClaims.rootClaimable = s.rootClaims.rootClaimable) _ _ rfl ?_
  intro t ht n0 _
  refine List.foldlRecOn
    (motive := fun t : State A B X R => t.rootClaims.rootClaimable = s.rootClaims.rootClaimable) _ _ ht ?_
  intro t ht h0 _
  rw [← ht]
  unfold State.transferHotkeyStake RootClaims.maybeAddColdkeyIndex
  dsimp only
  split_ifs <;> rfl
end Moves

/-- **What is owed after a coldkey swap**, to a new coldkey that had neither stake nor claims: what was claimed
    on a subnet counts only if the swap came through the subnet and found stake there, and the stake on root
    only if it came through root. If both do, or there is nothing to lose, the amount is what it was. While amounts
    fit, it is what it was only then, or if nothing was earned, or if root is no network and all was claimed. -/
theorem owed_swapped (cfg : Config A B X R) (s s' : State A B X R) (oldColdkey newColdkey : A)
    (hok : doSwapColdkey cfg oldColdkey newColdkey s = .ok () s') (hnoStake : ∀ h n, s.stakes.stake h newColdkey n = 0)
    (hnoClaims : ∀ n h, s.rootClaims.rootClaimed.lookup (n, h, newColdkey) = none)
    (hotkey : A) (hlisted : hotkey ∈ s.stakes.stakingHotkeys oldColdkey) (netuid : NetUid) :
    s'.rootClaims.owed s'.stakes hotkey newColdkey netuid = RootClaims.owedOf (s.rootClaims.rateOf hotkey netuid)
          (if NetUid.root ∈ s.pools.allSubnetNetuids then s.stakes.stake hotkey oldColdkey NetUid.root else 0)
          (if netuid ∈ s.pools.allSubnetNetuids ∧ s.stakes.stake hotkey oldColdkey netuid ≠ 0 then
            s.rootClaims.claimed netuid hotkey oldColdkey else 0) ∧
      ((NetUid.root ∈ s.pools.allSubnetNetuids ∨ s.stakes.stake hotkey oldColdkey NetUid.root = 0) →
        (netuid ∈ s.pools.allSubnetNetuids ∧ s.stakes.stake hotkey oldColdkey netuid ≠ 0 ∨
          s.rootClaims.claimed netuid hotkey oldColdkey = 0) →
        s'.rootClaims.owed s'.stakes hotkey newColdkey netuid =
          s.rootClaims.owed s.stakes hotkey oldColdkey netuid) ∧
      let due := RootClaims.earned (s.rootClaims.rateOf hotkey netuid) (s.stakes.stake hotkey oldColdkey NetUid.root)
      (0 ≤ (s.rootClaims.rateOf hotkey netuid).bits → due < 2 ^ 64 →
        s.rootClaims.claimed netuid hotkey oldColdkey < 2 ^ 95 →
        (s'.rootClaims.owed s'.stakes hotkey newColdkey netuid = s.rootClaims.owed s.stakes hotkey oldColdkey netuid ↔
          if NetUid.root ∈ s.pools.allSubnetNetuids then
            netuid ∈ s.pools.allSubnetNetuids ∧ s.stakes.stake hotkey oldColdkey netuid ≠ 0 ∨
              s.rootClaims.claimed netuid hotkey oldColdkey = 0 ∨ due = 0
          else due ≤ s.rootClaims.claimed netuid hotkey oldColdkey)) := by
  have hswapped := coldkeySwapped_of_ok hok
  have hne : oldColdkey ≠ newColdkey := by
    rintro rfl
    rw [hswapped.noStakingHotkeys] at hlisted
    cases hlisted
  have hunmoved : ∀ n, Unmoved oldColdkey newColdkey hotkey n (s.stakes.stake hotkey oldColdkey n)
      (s.rootClaims.claimed n hotkey oldColdkey) s := by
    intro n
    refine ⟨hlisted, rfl, hnoStake hotkey n, rfl, ?_⟩
    rw [RootClaims.claimed, StorageMap.getD, hnoClaims]
    rfl
  have hroot : s'.stakes.stake hotkey newColdkey NetUid.root =
      if NetUid.root ∈ s.pools.allSubnetNetuids then s.stakes.stake hotkey oldColdkey NetUid.root else 0 := by
    have hphases := coldkeyMoved_hit cfg hne (hunmoved NetUid.root)
    rw [hswapped.stakes]
    split_ifs with hmem
    · exact (hphases.1 hmem).newStake
    · exact (hphases.2 hmem).newStake
  have hclaimed : s'.rootClaims.claimed netuid hotkey newColdkey =
      if netuid ∈ s.pools.allSubnetNetuids ∧ s.stakes.stake hotkey oldColdkey netuid ≠ 0 then
        s.rootClaims.claimed netuid hotkey oldColdkey else 0 := by
    have hphases := coldkeyMoved_hit cfg hne (hunmoved netuid)
    rw [hswapped.rootClaims]
    by_cases hmem : netuid ∈ s.pools.allSubnetNetuids
    · rw [(hphases.1 hmem).newClaimed]
      by_cases hzero : s.stakes.stake hotkey oldColdkey netuid = 0 <;> simp [hmem, hzero]
    · rw [(hphases.2 hmem).newClaimed, if_neg fun hall => hmem hall.1]
  have hrate : s'.rootClaims.rateOf hotkey netuid = s.rootClaims.rateOf hotkey netuid := by
    rw [hswapped.rootClaims]
    exact RootClaims.rateOf_congr rootClaimable_coldkeyMoved
  have hamount := RootClaims.owed_eq s'.rootClaims s'.stakes hotkey newColdkey netuid
  rw [hrate, hroot, hclaimed] at hamount
  refine ⟨hamount, fun hfollows hcounts => ?_, fun hnonneg hfits hclaimed => ?_⟩
  · rw [hamount, RootClaims.owed_eq]
    congr 1
    · rcases hfollows with hmem | hzero
      · rw [if_pos hmem]
      · rw [hzero, ite_self]
    · rcases hcounts with hmoved | hzero
      · rw [if_pos hmoved]
      · rw [hzero, ite_self]
  · rw [hamount, RootClaims.owed_eq, RootClaims.owedOf_eq hnonneg hfits hclaimed]
    by_cases hroot : NetUid.root ∈ s.pools.allSubnetNetuids
    · rw [if_pos hroot, if_pos hroot, RootClaims.owedOf_eq hnonneg hfits (by split_ifs <;> omega)]
      split_ifs with hmoved
      · simp [hmoved]
      · simp only [hmoved, false_or]
        omega
    · rw [if_neg hroot, if_neg hroot, RootClaims.owedOf_eq hnonneg (by simp) (by split_ifs <;> omega),
        RootClaims.earned_zero]
      omega

/-! ## Owed twice -/

namespace Sample

/-- Coldkey 0 has root stake on its hotkey 1, has claimed 2000000 of the 2500000 it has earned on subnet 1, and
    holds `held` alpha there. -/
def claimed (held : Nat) : State Account (Account → Nat) Unit Unit :=
  let s := fresh.createAccountIfNonExistent 0 1
  { s with
    stakes := (s.stakes.increase 1 0 NetUid.root 5000000).increase 1 0 1 held
    rootClaims := { s.rootClaims with
      rootClaimable := Function.update (fun _ => ∅) 1 (AList.insert 1 (I96F32.saturate (2 ^ 31)) ∅)
      rootClaimed := AList.insert (1, 1, 0) 2000000 ∅ } }

/-- What `do_swap_coldkey` to coldkey 2 makes of it. -/
def handedOver (held : Nat) : State Account (Account → Nat) Unit Unit := left (doSwapColdkey config 0 2 (claimed held))

theorem claimed_noStake (held : Nat) (h : Account) (n : NetUid) : (claimed held).stakes.stake h 2 n = 0 := by
  have hfresh : (fresh.createAccountIfNonExistent 0 1).stakes.stake h 2 n = 0 := rfl
  simp [claimed, Stakes.stake_increase, hfresh]

theorem claimed_noClaims (held : Nat) (n : NetUid) (h : Account) :
    (claimed held).rootClaims.rootClaimed.lookup (n, h, 2) = none := by
  have hother : (n, h, (2 : Account)) ≠ (1, 1, 0) := by simp
  unfold claimed
  simp only [AList.lookup_insert_ne hother, AList.lookup_empty]
end Sample
open Sample

/-- With stake on the subnet the new coldkey is owed what the old one was, -/
theorem owed_handedOver :
    doSwapColdkey config 0 2 (claimed 7) = .ok () (handedOver 7) ∧
      (claimed 7).rootClaims.owed (claimed 7).stakes 1 0 1 = 500000 ∧
      (handedOver 7).rootClaims.owed (handedOver 7).stakes 1 2 1 =
        (claimed 7).rootClaims.owed (claimed 7).stakes 1 0 1 := by
  refine ⟨rfl, by decide, ?_⟩
  exact ((owed_swapped config (claimed 7) (handedOver 7) 0 2 rfl (claimed_noStake 7)
    (claimed_noClaims 7) 1 (by decide) 1).2.2 (by decide) (by decide) (by decide)).mpr (by decide)

/-- and without it everything again. -/
theorem owed_twice :
    doSwapColdkey config 0 2 (claimed 0) = .ok () (handedOver 0) ∧
      (∀ h n, (claimed 0).stakes.stake h 2 n = 0) ∧
      (∀ n h, (claimed 0).rootClaims.rootClaimed.lookup (n, h, 2) = none) ∧
      1 ∈ (claimed 0).stakes.stakingHotkeys 0 ∧
      (claimed 0).rootClaims.owed (claimed 0).stakes 1 0 1 = 500000 ∧
      (handedOver 0).rootClaims.owed (handedOver 0).stakes 1 2 1 = 2500000 := by
  exact ⟨rfl, claimed_noStake 0, claimed_noClaims 0, by decide, by decide, by decide⟩
end Qubitum.Subtensor
