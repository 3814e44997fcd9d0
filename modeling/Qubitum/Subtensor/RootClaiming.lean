import Qubitum.Subtensor.RootDividends
import Qubitum.Subtensor.StakingEffects

/-!
# `Subtensor.RootClaiming` — dividends of root stake, and what happens to them when the stake changes

`increase_root_claimable_for_hotkey_and_subnet` raises the rate of a hotkey on a subnet, and
`root_claim_on_subnet` pays what a coldkey is owed: the rate times its root stake, less `RootClaimed`. When root
stake is added, `RootClaimed` is raised by the rate times the addition, so that nothing is owed for it. When it is
removed, `RootClaimed` is lowered by the rate times what is removed, but not below zero: what was earned with the
removed stake and not claimed before is lost.
-/

namespace Qubitum.Subtensor
open Fixed Outcome Mutation I96F32 RootClaims
open NetUid (root)

variable {A B X R : Type} [DecidableEq A]

/-! ## Distributing and claiming -/

/-- `RootClaimTypeEnum` -/
inductive RootClaimType where
  | swap
  | keep
  | keepSubnets (subnets : List NetUid)
  deriving DecidableEq, Repr

/-- Whether the dividends of a subnet are sold. -/
def RootClaimType.swaps (netuid : NetUid) : RootClaimType → Bool
  | swap                => true
  | keep                => false
  | keepSubnets subnets => !subnets.contains netuid

/-- What the functions read of the rest of the storage: `RootClaimableThreshold`, and the account that `Owner` has
    for a hotkey without an owner. -/
structure RootClaimConfig (A : Type) where
  rootClaimableThreshold : NetUid → I96F32
  defaultAccount : A

/-- `RootClaimable(hotkey)[netuid] += increment` -/
def RootClaims.raiseRate (rc : RootClaims A) (hotkey : A) (netuid : NetUid) (increment : I96F32) : RootClaims A :=
  { rc with
    rootClaimable := Function.update rc.rootClaimable hotkey
      ((rc.rootClaimable hotkey).insert netuid (match (rc.rootClaimable hotkey).lookup netuid with
        | some claimTotal => claimTotal.saturatingAdd increment
        | none            => increment)) }

/-- The share of each unit of a hotkey's root stake in an amount. -/
def State.rootIncrement (s : State A B X R) (hotkey : A) (amount : Nat) : I96F32 :=
  ((ofNat amount).checkedDiv (ofNat (s.stakes.totalHotkeyAlpha hotkey root))).getD (ofNat 0)

/-- Whether an amount is more than the root stake of a hotkey. -/
def State.exceedsRootStake (s : State A B X R) (hotkey : A) (amount : Nat) : Bool :=
  (ofNat (s.stakes.totalHotkeyAlpha hotkey root)).toUnsigned 64 < amount

/-- With too little root stake the owner of the hotkey gets it all, as stake on the subnet. -/
def increaseRootClaimableForHotkeyAndSubnet (rcfg : RootClaimConfig A) (s : State A B X R) (hotkey : A)
    (netuid : NetUid) (amount : Nat) : State A B X R :=
  if s.exceedsRootStake hotkey amount then
    { s with
      stakes := s.stakes.increase hotkey ((s.ownership.owner hotkey).getD rcfg.defaultAccount) netuid amount }
  else { s with rootClaims := s.rootClaims.raiseRate hotkey netuid (s.rootIncrement hotkey amount) }

/-- What a claim is for; nothing if it is below the threshold. -/
def State.claimDue (rcfg : RootClaimConfig A) (s : State A B X R) (hotkey coldkey : A) (netuid : NetUid)
    (ignoreMinimumCondition : Bool) : Nat :=
  if !ignoreMinimumCondition ∧
      s.rootClaims.owedFloat s.stakes hotkey coldkey netuid < rcfg.rootClaimableThreshold netuid then 0
  else s.rootClaims.owed s.stakes hotkey coldkey netuid

/-- `RootClaimed(netuid, hotkey, coldkey) += amount` -/
def RootClaims.countClaimed (rc : RootClaims A) (netuid : NetUid) (hotkey coldkey : A) (amount : Nat) : RootClaims A :=
  rc.setClaimed netuid hotkey coldkey (rc.claimed netuid hotkey coldkey + amount)

variable (cfg : Config A B X R)

def rootClaimOnSubnet (rcfg : RootClaimConfig A) (hotkey coldkey : A) (netuid : NetUid)
    (rootClaimType : RootClaimType) (ignoreMinimumCondition : Bool) : Run A B X R Unit := do
  let owed := (← get).claimDue rcfg hotkey coldkey netuid ignoreMinimumCondition
  if owed = 0 then pure ()
  else if rootClaimType.swaps netuid then
    match ← attempt (swapAlphaForTao cfg netuid owed cfg.swapInterface.minPrice true) with
    | .ok owedTao =>
        modify fun s => { s with
          stakes := s.stakes.increase hotkey coldkey root owedTao.amountPaidOut
          rootClaims := (s.rootClaims.addStakeAdjust hotkey coldkey owedTao.amountPaidOut).countClaimed
            netuid hotkey coldkey owed }
    -- the swap failed: nothing is claimed
    | .error _ => pure ()
  else
    modify fun s => { s with
      stakes := s.stakes.increase hotkey coldkey netuid owed
      rootClaims := s.rootClaims.countClaimed netuid hotkey coldkey owed }

/-! ## The adjustments -/

namespace RootClaims
variable {rc : RootClaims A} {hotkey coldkey h c : A} {n : NetUid} {amount : Nat}

/-- A loop over the subnets with a rate, which changes what one coldkey has claimed on each of them by `g`. -/
theorem claimed_foldl (hotkey coldkey : A) {g : NetUid → I96F32 → Nat → Nat}
    {step : RootClaims A → (Sigma fun _ : NetUid => I96F32) → RootClaims A}
    (hstep : ∀ rc e n h c, (step rc e).claimed n h c =
      if n = e.1 ∧ h = hotkey ∧ c = coldkey then g n e.2 (rc.claimed n h c) else rc.claimed n h c)
    (es : List (Sigma fun _ : NetUid => I96F32)) (hnodup : es.NodupKeys) (n : NetUid) (h c : A) :
    (es.foldl step rc).claimed n h c = match es.dlookup n with
      | some rate => if h = hotkey ∧ c = coldkey then g n rate (rc.claimed n h c) else rc.claimed n h c
      | none      => rc.claimed n h c := by
  induction es generalizing rc with
  | nil => rfl
  | cons e rest ih =>
    obtain ⟨netuid, rate⟩ := e
    rw [List.nodupKeys_cons] at hnodup
    rw [List.foldl_cons, ih hnodup.2, hstep]
    by_cases hn : n = netuid
    · subst hn
      -- the subnet does not occur again
      have hnone : rest.dlookup n = none := List.dlookup_eq_none.mpr hnodup.1
      rw [hnone, List.dlookup_cons_eq]
      simp
    · have hrest : (⟨netuid, rate⟩ :: rest : List (Sigma fun _ : NetUid => I96F32)).dlookup n = rest.dlookup n :=
        List.dlookup_cons_ne rest ⟨netuid, rate⟩ hn
      rw [hrest]
      simp [hn]

theorem claimableFor_zero (amount : Nat) : claimableFor (ofNat 0) amount = 0 := by
  simp [claimableFor, saturatingMul, ofNat, saturate, toUnsigned]

omit [DecidableEq A] in
theorem rateOf_eq_dlookup : rc.rateOf hotkey n = ((rc.rootClaimable hotkey).entries.dlookup n).getD (ofNat 0) := rfl

theorem claimed_addStakeAdjust :
    (rc.addStakeAdjust hotkey coldkey amount).claimed n h c =
      rc.claimed n h c + if h = hotkey ∧ c = coldkey then claimableFor (rc.rateOf hotkey n) amount else 0 := by
  have hstep : ∀ (rc : RootClaims A) (e : Sigma fun _ : NetUid => I96F32) n h c,
      (rc.setClaimed e.1 hotkey coldkey (rc.claimed e.1 hotkey coldkey + claimableFor e.2 amount)).claimed n h c =
        if n = e.1 ∧ h = hotkey ∧ c = coldkey then rc.claimed n h c + claimableFor e.2 amount
        else rc.claimed n h c := by
    intro rc e n h c
    rw [claimed_setClaimed]
    by_cases hkey : n = e.1 ∧ h = hotkey ∧ c = coldkey
    · obtain ⟨rfl, rfl, rfl⟩ := hkey
      rfl
    · rw [if_neg hkey, if_neg hkey]
  unfold addStakeAdjust
  rw [claimed_foldl hotkey coldkey (g := fun _ rate x => x + claimableFor rate amount) hstep _
    (rc.rootClaimable hotkey).nodupKeys, rateOf_eq_dlookup]
  cases (rc.rootClaimable hotkey).entries.dlookup n with
  | some rate => by_cases hkey : h = hotkey ∧ c = coldkey <;> simp [hkey]
  | none => simp [claimableFor_zero]

theorem claimed_removeStakeAdjust (hn : n ≠ root) :
    (rc.removeStakeAdjust hotkey coldkey amount).claimed n h c =
      rc.claimed n h c - if h = hotkey ∧ c = coldkey then claimableFor (rc.rateOf hotkey n) amount else 0 := by
  have hstep : ∀ (rc : RootClaims A) (e : Sigma fun _ : NetUid => I96F32) n h c,
      (if e.1 = root then rc else rc.setClaimed e.1 hotkey coldkey
        (rc.claimed e.1 hotkey coldkey - claimableFor e.2 amount)).claimed n h c =
        if n = e.1 ∧ h = hotkey ∧ c = coldkey then
          if n = root then rc.claimed n h c else rc.claimed n h c - claimableFor e.2 amount
        else rc.claimed n h c := by
    intro rc e n h c
    by_cases hkey : n = e.1 ∧ h = hotkey ∧ c = coldkey
    · obtain ⟨rfl, rfl, rfl⟩ := hkey
      by_cases hroot : e.1 = root
      · simp [hroot]
      · simp [hroot, claimed_setClaimed]
    · rw [if_neg hkey]
      split_ifs
      · rfl
      · rw [claimed_setClaimed, if_neg hkey]
  unfold removeStakeAdjust
  rw [claimed_foldl hotkey coldkey
    (g := fun n rate x => if n = root then x else x - claimableFor rate amount) hstep _
    (rc.rootClaimable hotkey).nodupKeys, rateOf_eq_dlookup]
  cases (rc.rootClaimable hotkey).entries.dlookup n with
  | some rate => by_cases hkey : h = hotkey ∧ c = coldkey <;> simp [hkey, hn]
  | none => simp [claimableFor_zero]

/-- The adjustments leave the rates alone. -/
theorem rateOf_addStakeAdjust : (rc.addStakeAdjust hotkey coldkey amount).rateOf h n = rc.rateOf h n := by
  refine rateOf_congr ?_
  exact List.foldlRecOn (motive := fun rc' : RootClaims A => rc'.rootClaimable = rc.rootClaimable) _ _ rfl
    fun _ hrc _ _ => hrc

theorem rateOf_removeStakeAdjust : (rc.removeStakeAdjust hotkey coldkey amount).rateOf h n = rc.rateOf h n := by
  refine rateOf_congr ?_
  refine List.foldlRecOn (motive := fun rc' : RootClaims A => rc'.rootClaimable = rc.rootClaimable) _ _ rfl ?_
  intro rc' hrc e _
  split_ifs
  · exact hrc
  · exact hrc
end RootClaims

/-! ## Root stake added and removed -/

section Effects
variable {cfg : Config A B X R} {s s' : State A B X R} {hotkey coldkey : A} {alpha : Nat}

/-- Root stake was added, and the claims were adjusted for it. -/
structure RootAdded (s s' : State A B X R) (hotkey coldkey : A) (alpha : Nat) : Prop where
  stake : ∀ h c, s'.stakes.stake h c root = s.stakes.stake h c root + if h = hotkey ∧ c = coldkey then alpha else 0
  total : ∀ h, s'.stakes.totalHotkeyAlpha h root = s.stakes.totalHotkeyAlpha h root + if h = hotkey then alpha else 0
  claimed : ∀ n h c, s'.rootClaims.claimed n h c = s.rootClaims.claimed n h c +
    if h = hotkey ∧ c = coldkey then claimableFor (s.rootClaims.rateOf hotkey n) alpha else 0
  rate : ∀ h n, s'.rootClaims.rateOf h n = s.rootClaims.rateOf h n
  mechanism : s'.pools.subnetMechanism = s.pools.subnetMechanism

/-- Root stake was removed, and the claims were adjusted for it as far as there were any. -/
structure RootRemoved (s s' : State A B X R) (hotkey coldkey : A) (alpha : Nat) : Prop where
  stake : ∀ h c, s'.stakes.stake h c root = s.stakes.stake h c root - if h = hotkey ∧ c = coldkey then alpha else 0
  total : ∀ h, s'.stakes.totalHotkeyAlpha h root = s.stakes.totalHotkeyAlpha h root - if h = hotkey then alpha else 0
  claimed : ∀ n h c, n ≠ root → s'.rootClaims.claimed n h c = s.rootClaims.claimed n h c -
    if h = hotkey ∧ c = coldkey then claimableFor (s.rootClaims.rateOf hotkey n) alpha else 0
  rate : ∀ h n, s'.rootClaims.rateOf h n = s.rootClaims.rateOf h n
  mechanism : s'.pools.subnetMechanism = s.pools.subnetMechanism

variable {st : Stakes A} {h h' c' : A} {n n' : NetUid} {amount priceLimit : Nat} {dropFees : Bool}

theorem totalHotkeyAlpha_put {value total : Nat} :
    (st.put h' c' n' value total).totalHotkeyAlpha h n =
      if h = h' ∧ n = n' then total else st.totalHotkeyAlpha h n := by
  unfold Stakes.put
  by_cases hh : h = h'
  · subst hh
    by_cases hn : n = n' <;> simp [hn]
  · simp [hh]

theorem totalHotkeyAlpha_increase :
    (st.increase h' c' n' amount).totalHotkeyAlpha h n =
      st.totalHotkeyAlpha h n + if h = h' ∧ n = n' then amount else 0 := by
  unfold Stakes.increase
  rw [totalHotkeyAlpha_put]
  by_cases hkey : h = h' ∧ n = n'
  · obtain ⟨rfl, rfl⟩ := hkey
    by_cases hzero : amount = 0 <;> simp [hzero, Stakes.addStakingHotkey]
  · by_cases hzero : amount = 0 <;> simp [hkey, hzero, Stakes.addStakingHotkey]

theorem totalHotkeyAlpha_decrease (hstake : amount ≤ st.stake h' c' n') :
    (st.decrease h' c' n' amount).totalHotkeyAlpha h n =
      st.totalHotkeyAlpha h n - if h = h' ∧ n = n' then amount else 0 := by
  unfold Stakes.decrease
  rw [if_pos hstake, totalHotkeyAlpha_put]
  by_cases hkey : h = h' ∧ n = n'
  · obtain ⟨rfl, rfl⟩ := hkey
    simp
  · simp [hkey]

/-- Adding to the stakes and adjusting the claims, in one state. -/
theorem RootAdded.of_increase (hstakes : ∀ h c, s'.stakes.stake h c root =
      (s.stakes.increase hotkey coldkey root alpha).stake h c root)
    (htotal : s'.stakes.totalHotkeyAlpha = (s.stakes.increase hotkey coldkey root alpha).totalHotkeyAlpha)
    (hclaimed : ∀ n h c, s'.rootClaims.claimed n h c = (s.rootClaims.addStakeAdjust hotkey coldkey alpha).claimed n h c)
    (hrate : ∀ h n, s'.rootClaims.rateOf h n = (s.rootClaims.addStakeAdjust hotkey coldkey alpha).rateOf h n)
    (hmechanism : s'.pools.subnetMechanism = s.pools.subnetMechanism) : RootAdded s s' hotkey coldkey alpha where
  stake h c := by
    rw [hstakes, Stakes.stake_increase]
    simp
  total h := by
    rw [htotal, totalHotkeyAlpha_increase]
    simp
  claimed n h c := by rw [hclaimed, claimed_addStakeAdjust]
  rate h n := by rw [hrate, rateOf_addStakeAdjust]
  mechanism := hmechanism

theorem RootRemoved.of_decrease (hstake : alpha ≤ s.stakes.stake hotkey coldkey root)
    (hstakes : s'.stakes = s.stakes.decrease hotkey coldkey root alpha)
    (hclaims : s'.rootClaims = s.rootClaims.removeStakeAdjust hotkey coldkey alpha)
    (hmechanism : s'.pools.subnetMechanism = s.pools.subnetMechanism) : RootRemoved s s' hotkey coldkey alpha where
  stake h c := by
    rw [hstakes, Stakes.stake_decrease]
    by_cases hkey : h = hotkey ∧ c = coldkey
    · obtain ⟨rfl, rfl⟩ := hkey
      simp [hstake]
    · rw [if_neg fun hall => hkey ⟨hall.1, hall.2.1⟩, if_neg hkey, Nat.sub_zero]
  total h := by
    rw [hstakes, totalHotkeyAlpha_decrease hstake]
    simp
  claimed n h c hn := by rw [hclaims, claimed_removeStakeAdjust hn]
  rate h n := by rw [hclaims, rateOf_removeStakeAdjust]
  mechanism := hmechanism

theorem stakeIntoRoot_ends {tao : Nat} {setLimit : Bool} :
    Returns (stakeIntoSubnet cfg hotkey coldkey root tao priceLimit setLimit dropFees) s
      (fun alpha s' => RootAdded s s' hotkey coldkey alpha) := by
  unfold stakeIntoSubnet
  simp only [ends_bind, ends_get, ends_lift_ensure, ends_modify, ends_pure, implies_true, and_true]
  refine swapTaoForAlpha_ends.weaken ?_
  rintro r t ⟨-, rfl⟩ _ _
  simp only [payAuthorTao_eq, if_true]
  refine .of_increase (fun h c => rfl) rfl (fun n h c => claimed_maybeAddColdkeyIndex) (fun h n => ?_) rfl
  unfold RootClaims.maybeAddColdkeyIndex
  split <;> rfl

omit [DecidableEq A] in
/-- The author's share is sold, which is neither about stakes nor about claims. -/
theorem payAuthorAlpha_keeps {netuid : NetUid} {fee : Nat} : Returns (payAuthorAlpha cfg netuid fee) s
      (fun _ s' => s'.stakes = s.stakes ∧ s'.rootClaims = s.rootClaims ∧
        s'.pools.subnetMechanism = s.pools.subnetMechanism) := by
  unfold payAuthorAlpha
  simp only [ends_bind, ends_get]
  split
  · simp only [ends_bind, ends_modify, ends_pure]
    refine swapAlphaForTao_ends.weaken ?_
    rintro r t ⟨-, rfl⟩
    exact ⟨rfl, rfl, rfl⟩
  · exact ⟨rfl, rfl, rfl⟩

/-- Root stake is sold one for one, so nothing is left over. -/
theorem unstakeFromRoot_ends (hroot : s.pools.subnetMechanism root ≠ 1)
    (hstake : alpha ≤ s.stakes.stake hotkey coldkey root) :
    Returns (unstakeFromSubnet cfg hotkey coldkey root alpha priceLimit dropFees) s
      (fun _ s' => RootRemoved s s' hotkey coldkey alpha) := by
  unfold unstakeFromSubnet
  simp only [ends_bind, ends_modify, ends_pure]
  refine swapAlphaForTao_ends.weaken ?_
  rintro r t ⟨hr, rfl⟩
  have hstable : r = SwapResult.stable alpha := by
    unfold State.soldAt State.pool at hr
    rw [if_neg hroot] at hr
    exact (Except.ok.inj hr).symm
  refine payAuthorAlpha_keeps.weaken ?_
  rintro _ t ⟨hstakes, hclaims, hmechanism⟩
  have hall : unsold alpha r = 0 := by
    rw [hstable]
    simp [unsold, SwapResult.stable]
  refine .of_decrease hstake ?_ ?_ hmechanism
  · rw [hstakes]
    simp only [hall, if_true]
    rfl
  · simp only [if_true, hclaims]
    rfl

theorem transferOnRoot_ends {destinationColdkey destinationHotkey : A}
    (hstake : alpha ≤ s.stakes.stake hotkey coldkey root) :
    Returns (transferStakeWithinSubnet cfg coldkey hotkey destinationColdkey destinationHotkey root alpha) s
      (fun _ s' => ∃ t, RootRemoved s t hotkey coldkey alpha ∧
        RootAdded t s' destinationHotkey destinationColdkey alpha) := by
  unfold transferStakeWithinSubnet
  simp only [ends_bind, ends_get, ends_modify, ends_lift_ensure, ends_pure, implies_true, and_true, if_true]
  intro _
  refine ⟨{ s with
    stakes := s.stakes.decrease hotkey coldkey root alpha
    rootClaims := s.rootClaims.removeStakeAdjust hotkey coldkey alpha }, .of_decrease hstake rfl rfl rfl, ?_⟩
  exact .of_increase (fun _ _ => rfl) rfl (fun _ _ _ => rfl) (fun _ _ => rfl) rfl
end Effects

/-! ## What is owed across a change of stake -/

section Owed
variable {cfg : Config A B X R} {s s' t : State A B X R} {hotkey coldkey h c : A} {n : NetUid} {alpha : Nat}

/-- What a coldkey is owed, in units of `2 ^ -32`. -/
def State.owedBits (s : State A B X R) (hotkey coldkey : A) (netuid : NetUid) : Int :=
  (s.rootClaims.owedFloat s.stakes hotkey coldkey netuid).bits

/-- The numbers that it is made of are within their ranges. -/
structure State.OwedFits (s : State A B X R) (hotkey coldkey : A) (netuid : NetUid) : Prop where
  rate : 0 ≤ (s.rootClaims.rateOf hotkey netuid).bits
  stake : s.stakes.stake hotkey coldkey root < 2 ^ 64
  claimable : (s.rootClaims.rateOf hotkey netuid).bits * s.stakes.stake hotkey coldkey root < 2 ^ 127
  claimed : s.rootClaims.claimed netuid hotkey coldkey < 2 ^ 95

theorem State.OwedFits.owedBits_eq (hfits : s.OwedFits hotkey coldkey n) :
    s.owedBits hotkey coldkey n = (s.rootClaims.rateOf hotkey n).bits * s.stakes.stake hotkey coldkey root -
        s.rootClaims.claimed n hotkey coldkey * 2 ^ 32 := by
  have hclaimable : (s.rootClaims.claimableOf s.stakes hotkey coldkey n).bits =
      (s.rootClaims.rateOf hotkey n).bits * s.stakes.stake hotkey coldkey root :=
    bits_saturatingMul_ofNat (lt_trans hfits.stake (by decide)) hfits.rate hfits.claimable
  have hpos : 0 ≤ (s.rootClaims.rateOf hotkey n).bits * s.stakes.stake hotkey coldkey root :=
    Int.mul_nonneg hfits.rate (by omega)
  have hlt := hfits.claimable
  have hclaimed := hfits.claimed
  unfold State.owedBits owedFloat saturatingSub
  rw [hclaimable, bits_ofNat hclaimed]
  exact bits_saturate (by omega) (by omega)

theorem claimableFor_eq {rate : I96F32} {amount : Nat} (hrate : 0 ≤ rate.bits) (hamount : amount < 2 ^ 95)
    (hlt : rate.bits * amount < 2 ^ 127) : (claimableFor rate amount : Int) = rate.bits * amount / 2 ^ 32 := by
  have hpos : 0 ≤ rate.bits * amount := Int.mul_nonneg hrate (by omega)
  unfold claimableFor toUnsigned
  rw [bits_saturatingMul_ofNat hamount hrate hlt]
  omega

/-- **Added stake** earns nothing for the past, but for what the rounding of the claims leaves. -/
theorem RootAdded.owedBits (hadded : RootAdded s s' hotkey coldkey alpha) (hfits : s.OwedFits hotkey coldkey n)
    (hfits' : s'.OwedFits hotkey coldkey n) :
    0 ≤ s'.owedBits hotkey coldkey n - s.owedBits hotkey coldkey n ∧
      s'.owedBits hotkey coldkey n - s.owedBits hotkey coldkey n < 2 ^ 32 := by
  have hstake := hadded.stake hotkey coldkey
  have hclaimed := hadded.claimed n hotkey coldkey
  have hlt := hfits'.claimable
  have hsmall := hfits'.stake
  rw [hadded.rate] at hlt
  rw [hfits.owedBits_eq, hfits'.owedBits_eq, hadded.rate, hclaimed, hstake]
  rw [hstake] at hlt hsmall
  simp only [and_self, if_true] at hlt hsmall ⊢
  set rate := s.rootClaims.rateOf hotkey n
  have hrate : 0 ≤ rate.bits := hfits.rate
  push_cast at hlt ⊢
  rw [Int.mul_add] at hlt ⊢
  have hpos : 0 ≤ rate.bits * s.stakes.stake hotkey coldkey root := Int.mul_nonneg hrate (by omega)
  rw [claimableFor_eq hrate (by omega) (by omega)]
  omega

/-- **Removed stake** takes with it what it has earned, but for what had been claimed already. -/
theorem RootRemoved.owedBits (hremoved : RootRemoved s s' hotkey coldkey alpha) (hn : n ≠ root)
    (hle : alpha ≤ s.stakes.stake hotkey coldkey root) (hfits : s.OwedFits hotkey coldkey n) :
    |s'.owedBits hotkey coldkey n - s.owedBits hotkey coldkey n| < 2 ^ 32 ↔
      claimableFor (s.rootClaims.rateOf hotkey n) alpha ≤ s.rootClaims.claimed n hotkey coldkey := by
  have hstake := hremoved.stake hotkey coldkey
  have hclaimed := hremoved.claimed n hotkey coldkey hn
  simp only [and_self, if_true] at hstake hclaimed
  have hsmall := hfits.stake
  have hlt := hfits.claimable
  have hmono : (s.rootClaims.rateOf hotkey n).bits * alpha ≤
      (s.rootClaims.rateOf hotkey n).bits * s.stakes.stake hotkey coldkey root :=
    Int.mul_le_mul_of_nonneg_left (by omega) hfits.rate
  have hrest : (s.rootClaims.rateOf hotkey n).bits * ((s.stakes.stake hotkey coldkey root - alpha : Nat) : Int) =
      (s.rootClaims.rateOf hotkey n).bits * s.stakes.stake hotkey coldkey root -
        (s.rootClaims.rateOf hotkey n).bits * alpha := by
    rw [Int.ofNat_sub hle, Int.mul_sub]
  have hpos : 0 ≤ (s.rootClaims.rateOf hotkey n).bits * alpha := Int.mul_nonneg hfits.rate (by omega)
  have hfits' : s'.OwedFits hotkey coldkey n := by
    refine ⟨by rw [hremoved.rate]; exact hfits.rate, by omega, ?_, ?_⟩
    · rw [hremoved.rate, hstake, hrest]
      omega
    · have := hfits.claimed
      omega
  have hfor := claimableFor_eq hfits.rate (show alpha < 2 ^ 95 by omega) (by omega)
  rw [hfits.owedBits_eq, hfits'.owedBits_eq, hremoved.rate, hclaimed, hstake, hrest, abs_lt]
  omega

/-- The same rate, root stake and claims. -/
structure SameOwed (s s' : State A B X R) (hotkey coldkey : A) (n : NetUid) : Prop where
  rate : s'.rootClaims.rateOf hotkey n = s.rootClaims.rateOf hotkey n
  stake : s'.stakes.stake hotkey coldkey root = s.stakes.stake hotkey coldkey root
  claimed : s'.rootClaims.claimed n hotkey coldkey = s.rootClaims.claimed n hotkey coldkey

theorem SameOwed.owedBits_eq (hsame : SameOwed s s' hotkey coldkey n) :
    s'.owedBits hotkey coldkey n = s.owedBits hotkey coldkey n := by
  show (((s'.rootClaims.rateOf hotkey n).saturatingMul (ofNat (s'.stakes.stake hotkey coldkey root))).saturatingSub
    (ofNat (s'.rootClaims.claimed n hotkey coldkey))).bits = _
  rw [hsame.rate, hsame.stake, hsame.claimed]
  rfl

theorem SameOwed.fits (hsame : SameOwed s s' hotkey coldkey n) (hfits : s.OwedFits hotkey coldkey n) :
    s'.OwedFits hotkey coldkey n := by
  refine ⟨?_, ?_, ?_, ?_⟩
  · rw [hsame.rate]
    exact hfits.rate
  · rw [hsame.stake]
    exact hfits.stake
  · rw [hsame.rate, hsame.stake]
    exact hfits.claimable
  · rw [hsame.claimed]
    exact hfits.claimed

/-- Stake that is added elsewhere does not matter, -/
theorem RootAdded.sameOwed (hadded : RootAdded s s' hotkey coldkey alpha) (hne : ¬(h = hotkey ∧ c = coldkey)) :
    SameOwed s s' h c n := by
  refine ⟨hadded.rate h n, ?_, ?_⟩
  · rw [hadded.stake, if_neg hne, Nat.add_zero]
  · rw [hadded.claimed, if_neg hne, Nat.add_zero]

/-- nor does stake that is removed elsewhere. -/
theorem RootRemoved.sameOwed (hremoved : RootRemoved s s' hotkey coldkey alpha) (hn : n ≠ root)
    (hne : ¬(h = hotkey ∧ c = coldkey)) : SameOwed s s' h c n := by
  refine ⟨hremoved.rate h n, ?_, ?_⟩
  · rw [hremoved.stake, if_neg hne, Nat.sub_zero]
  · rw [hremoved.claimed n h c hn, if_neg hne, Nat.sub_zero]

/-- **What is owed when root stake changes.** It changes by less than one unit when stake is added; when it is
    removed or moved away, if and only if the claims so far cover what the rate makes of the removed stake. -/
theorem root_owed_kept_iff (cfg : Config A B X R) (s : State A B X R) (hotkey coldkey : A) (n : NetUid)
    (hn : n ≠ root) (hfits : s.OwedFits hotkey coldkey n) :
    (∀ tao priceLimit setLimit dropFees alpha s',
      stakeIntoSubnet cfg hotkey coldkey root tao priceLimit setLimit dropFees s = .ok alpha s' →
      s'.OwedFits hotkey coldkey n →
      |s'.owedBits hotkey coldkey n - s.owedBits hotkey coldkey n| < 2 ^ 32) ∧
    (∀ alpha priceLimit dropFees tao s',
      unstakeFromSubnet cfg hotkey coldkey root alpha priceLimit dropFees s = .ok tao s' →
      s.pools.subnetMechanism root ≠ 1 → alpha ≤ s.stakes.stake hotkey coldkey root →
      (|s'.owedBits hotkey coldkey n - s.owedBits hotkey coldkey n| < 2 ^ 32 ↔
        claimableFor (s.rootClaims.rateOf hotkey n) alpha ≤ s.rootClaims.claimed n hotkey coldkey)) ∧
    (∀ destinationColdkey destinationHotkey alpha tao s',
      transferStakeWithinSubnet cfg coldkey hotkey destinationColdkey destinationHotkey root alpha s = .ok tao s' →
      alpha ≤ s.stakes.stake hotkey coldkey root →
      (destinationHotkey, destinationColdkey) ≠ (hotkey, coldkey) →
      (|s'.owedBits hotkey coldkey n - s.owedBits hotkey coldkey n| < 2 ^ 32 ↔
        claimableFor (s.rootClaims.rateOf hotkey n) alpha ≤ s.rootClaims.claimed n hotkey coldkey) ∧
      (s.OwedFits destinationHotkey destinationColdkey n → s'.OwedFits destinationHotkey destinationColdkey n →
        |s'.owedBits destinationHotkey destinationColdkey n - s.owedBits destinationHotkey destinationColdkey n| <
          2 ^ 32)) := by
  refine ⟨?_, ?_, ?_⟩
  · intro tao priceLimit setLimit dropFees alpha s' hok hfits'
    have howed := (of_ends stakeIntoRoot_ends hok).owedBits hfits hfits'
    rw [abs_lt]
    omega
  · intro alpha priceLimit dropFees tao s' hok hroot hle
    exact (of_ends (unstakeFromRoot_ends hroot hle) hok).owedBits hn hle hfits
  · intro destinationColdkey destinationHotkey alpha tao s' hok hle hne
    obtain ⟨t, hremoved, hadded⟩ := of_ends (transferOnRoot_ends hle) hok
    have horigin : ¬(hotkey = destinationHotkey ∧ coldkey = destinationColdkey) :=
      fun hall => hne (by rw [hall.1, hall.2])
    have hdestination : ¬(destinationHotkey = hotkey ∧ destinationColdkey = coldkey) :=
      fun hall => hne (by rw [hall.1, hall.2])
    constructor
    · rw [(hadded.sameOwed horigin).owedBits_eq]
      exact hremoved.owedBits hn hle hfits
    · intro hfrom hto
      have hsame : SameOwed s t destinationHotkey destinationColdkey n := hremoved.sameOwed hn hdestination
      have howed := hadded.owedBits (hsame.fits hfrom) hto
      rw [← hsame.owedBits_eq, abs_lt]
      omega
end Owed

/-- Coldkey 0 has claimed 2000000 of the 2500000 it has earned. It is still owed the rest, to the unit, when it
    has unstaked three fifths of its root stake, -/
theorem root_owed_kept_partly :
    ∃ tao s', unstakeFromSubnet Sample.config 1 0 root 3000000 0 true (Sample.claimed 0) = .ok tao s' ∧
      |s'.owedBits 1 0 1 - (Sample.claimed 0).owedBits 1 0 1| < 2 ^ 32 :=
  ⟨_, _, rfl, ((root_owed_kept_iff Sample.config (Sample.claimed 0) 1 0 1 (by decide)
    ⟨by decide, by decide, by decide, by decide⟩).2.1 3000000 0 true _ _ rfl (by decide) (by decide)).mpr (by decide)⟩

/-- but not when it has unstaked all of it. -/
theorem root_owed_lost :
    (Sample.claimed 0).owedBits 1 0 1 = 500000 * 2 ^ 32 ∧
      ∃ tao s', unstakeFromSubnet Sample.config 1 0 root 5000000 0 true (Sample.claimed 0) = .ok tao s' ∧
        s'.stakes.stake 1 0 root = 0 ∧ s'.owedBits 1 0 1 = 0 :=
  ⟨by decide, _, _, rfl, by decide, by decide⟩
end Qubitum.Subtensor
