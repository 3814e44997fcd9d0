import Qubitum.Lib.RewardIndex
import Qubitum.Subtensor.RootClaiming

/-!
# `Subtensor.RootClaimBound` — root claims against what was distributed

For one hotkey and one subnet, the rate, the root stakes and the claims are a reward index (`Lib.RewardIndex`), and
everything that changes them is made of its changes: a distribution, deposits and withdrawals of root stake, and
claims. Every function that adds root stake counts as a deposit, so also one that moves it here from somewhere
else, and a claim that is paid in root stake.
-/

namespace Qubitum.Subtensor
open Fixed Outcome Mutation RewardIndex Function I96F32 RootClaims
open NetUid (root)

variable {A B X R : Type} [DecidableEq A]

/-! ## Runs -/

/-- The functions that change root stake or root claims. -/
inductive RootEvent (A : Type) where
  | increaseRootClaimable (hotkey : A) (netuid : NetUid) (amount : Nat)
  | stakeIntoSubnet (hotkey coldkey : A) (tao priceLimit : Nat) (setLimit dropFees : Bool)
  | unstakeFromSubnet (hotkey coldkey : A) (alpha priceLimit : Nat) (dropFees : Bool)
  | transferStakeWithinSubnet (originColdkey originHotkey destinationColdkey destinationHotkey : A) (alpha : Nat)
  | rootClaimOnSubnet (hotkey coldkey : A) (netuid : NetUid) (rootClaimType : RootClaimType)
      (ignoreMinimumCondition : Bool)

section Runs
variable (cfg : Config A B X R) (rcfg : RootClaimConfig A)

namespace RootEvent

def apply (s : State A B X R) : RootEvent A → State A B X R
  | increaseRootClaimable hotkey netuid amount => increaseRootClaimableForHotkeyAndSubnet rcfg s hotkey netuid amount
  | stakeIntoSubnet hotkey coldkey tao priceLimit setLimit dropFees =>
      committed (Subtensor.stakeIntoSubnet cfg hotkey coldkey root tao priceLimit setLimit dropFees) s
  | unstakeFromSubnet hotkey coldkey alpha priceLimit dropFees =>
      committed (Subtensor.unstakeFromSubnet cfg hotkey coldkey root alpha priceLimit dropFees) s
  | transferStakeWithinSubnet originColdkey originHotkey destinationColdkey destinationHotkey alpha =>
      committed (Subtensor.transferStakeWithinSubnet cfg originColdkey originHotkey destinationColdkey
        destinationHotkey root alpha) s
  | rootClaimOnSubnet hotkey coldkey netuid rootClaimType ignoreMinimumCondition =>
      committed (Subtensor.rootClaimOnSubnet cfg rcfg hotkey coldkey netuid rootClaimType ignoreMinimumCondition) s

/-- Whether the alpha of a claim can be sold, if that is what is to be done with it. -/
def sells (s : State A B X R) (netuid : NetUid) (rootClaimType : RootClaimType) (owed : Nat) : Bool :=
  match rootClaimType.swaps netuid, s.soldAt cfg netuid owed cfg.swapInterface.minPrice true with
  | true, .error _ => false
  | _, _           => true

/-- The alpha that is paid out for a hotkey and a subnet. -/
def paid (h : A) (n : NetUid) (s : State A B X R) : RootEvent A → Nat
  | rootClaimOnSubnet hotkey coldkey netuid rootClaimType ignoreMinimumCondition =>
      let owed := s.claimDue rcfg hotkey coldkey netuid ignoreMinimumCondition
      if hotkey = h ∧ netuid = n ∧ sells cfg s netuid rootClaimType owed then owed else 0
  | _ => 0

/-- The amount that is distributed to a hotkey and a subnet through `RootClaimable`. -/
def distributed (h : A) (n : NetUid) (s : State A B X R) : RootEvent A → Nat
  | increaseRootClaimable hotkey netuid amount =>
      if hotkey = h ∧ netuid = n ∧ s.exceedsRootStake hotkey amount = false then amount else 0
  | _ => 0

/-- The number of additions to the root stake of a hotkey. -/
def additions (h : A) (s : State A B X R) : RootEvent A → Nat
  | stakeIntoSubnet hotkey coldkey tao priceLimit setLimit dropFees =>
      if hotkey = h ∧
          commits (Subtensor.stakeIntoSubnet cfg hotkey coldkey root tao priceLimit setLimit dropFees) s
      then 1 else 0
  | transferStakeWithinSubnet originColdkey originHotkey destinationColdkey destinationHotkey alpha =>
      if destinationHotkey = h ∧ commits (Subtensor.transferStakeWithinSubnet cfg originColdkey originHotkey
        destinationColdkey destinationHotkey root alpha) s
      then 1 else 0
  | rootClaimOnSubnet hotkey coldkey netuid rootClaimType ignoreMinimumCondition =>
      let owed := s.claimDue rcfg hotkey coldkey netuid ignoreMinimumCondition
      if hotkey = h ∧ owed ≠ 0 ∧ rootClaimType.swaps netuid ∧ sells cfg s netuid rootClaimType owed then 1 else 0
  | _ => 0
end RootEvent

/-- What is paid out, distributed and added in a run. -/
structure RootTotals where
  paid : Nat
  distributed : Nat
  additions : Nat
  deriving DecidableEq, Repr

def rootTotals (h : A) (n : NetUid) (s : State A B X R) : List (RootEvent A) → RootTotals
  | [] => ⟨0, 0, 0⟩
  | e :: rest =>
      let t := rootTotals h n (e.apply cfg rcfg s) rest
      ⟨e.paid cfg rcfg h n s + t.paid, e.distributed h n s + t.distributed, e.additions cfg rcfg h s + t.additions⟩
end Runs

/-! ## The reward index of a hotkey on a subnet -/

section Index
variable {cfg : Config A B X R} {rcfg : RootClaimConfig A} {s s' t : State A B X R} {hotkey coldkey h : A} {n : NetUid}
  {alpha : Nat}

def State.rootIndex (s : State A B X R) (hotkey : A) (netuid : NetUid) : Index A where
  rate := (s.rootClaims.rateOf hotkey netuid).bits.toNat
  stake := fun coldkey => s.stakes.stake hotkey coldkey root
  claimed := fun coldkey => s.rootClaims.claimed netuid hotkey coldkey

theorem unchanged (hrate : s'.rootClaims.rateOf h n = s.rootClaims.rateOf h n)
    (hstake : ∀ c, s'.stakes.stake h c root = s.stakes.stake h c root)
    (hclaimed : ∀ c, s'.rootClaims.claimed n h c = s.rootClaims.claimed n h c) :
    Changes (2 ^ 32) (s.rootIndex h n) (s'.rootIndex h n) 0 0 0 := by
  unfold State.rootIndex
  rw [hrate, funext hstake, funext hclaimed]
  exact .refl

/-- What holds of the stakes and the rates in every run. -/
structure RootSound (s : State A B X R) : Prop where
  rates : ∀ h n, 0 ≤ (s.rootClaims.rateOf h n).bits
  noRoot : ∀ h, (s.rootClaims.rateOf h root).bits = 0
  exact : ∀ h (C : Finset A), ∑ c ∈ C, s.stakes.stake h c root ≤ s.stakes.totalHotkeyAlpha h root

variable {rate : I96F32} {amount : Nat} {rc : RootClaims A} {netuid : NetUid}

section
variable (hrate : 0 ≤ rate.bits) (amount : Nat)
include hrate

/-- What a rate makes of an amount, at most. -/
theorem bits_claimable_le :
    0 ≤ (rate.saturatingMul (ofNat amount)).bits ∧ (rate.saturatingMul (ofNat amount)).bits ≤ rate.bits * amount := by
  have hamount : (ofNat amount).bits ≤ amount * 2 ^ 32 := bits_saturate_le (by omega)
  have hwhole : rate.bits * (amount * 2 ^ 32) / 2 ^ 32 = rate.bits * amount := by
    rw [← Int.mul_assoc]
    exact Int.mul_ediv_cancel _ (by decide)
  have hmul : rate.bits * (ofNat amount).bits / 2 ^ 32 ≤ rate.bits * amount := by
    rw [← hwhole]
    exact Int.ediv_le_ediv (by decide) (Int.mul_le_mul_of_nonneg_left hamount hrate)
  have hpos : 0 ≤ (ofNat amount).bits := by
    show 0 ≤ max (-(2 ^ 127)) (min ((amount : Int) * 2 ^ 32) (2 ^ 127 - 1))
    omega
  have hpos' : 0 ≤ rate.bits * (ofNat amount).bits / 2 ^ 32 := Int.ediv_nonneg (Int.mul_nonneg hrate hpos) (by decide)
  exact ⟨le_bits_saturate (by decide) hpos', le_trans (bits_saturate_le (by omega)) hmul⟩

theorem toNat_mul :
    ((rate.bits.toNat * amount : Nat) : Int) = rate.bits * amount := by
  rw [Int.natCast_mul, Int.toNat_of_nonneg hrate]

theorem claimableFor_le :
    2 ^ 32 * claimableFor rate amount ≤ rate.bits.toNat * amount := by
  have hbits := bits_claimable_le hrate amount
  have hproduct := toNat_mul hrate amount
  unfold claimableFor toUnsigned
  omega
end

/-- An amount that the claims can be adjusted for: it is a `u64`, and its product with the rate is in range. -/
def State.Adjustable (s : State A B X R) (hotkey : A) (n : NetUid) (amount : Nat) : Prop :=
  amount < 2 ^ 64 ∧ (s.rootClaims.rateOf hotkey n).bits * amount < 2 ^ 127

instance {amount : Nat} : Decidable (s.Adjustable hotkey n amount) := inferInstanceAs (Decidable (_ ∧ _))

/-- The index of a hotkey with which only one coldkey's stake and claims have changed. -/
theorem rootIndex_moved (hrate : s'.rootClaims.rateOf h n = s.rootClaims.rateOf h n)
    (hother : ∀ c, c ≠ coldkey → SameOwed s s' h c n) :
    s'.rootIndex h n =
      ⟨(s.rootIndex h n).rate, update (s.rootIndex h n).stake coldkey (s'.stakes.stake h coldkey root),
        update (s.rootIndex h n).claimed coldkey (s'.rootClaims.claimed n h coldkey)⟩ := by
  unfold State.rootIndex
  rw [hrate]
  congr 1
  · funext c
    by_cases hc : c = coldkey
    · simp [hc]
    · simp [hc, (hother c hc).stake]
  · funext c
    by_cases hc : c = coldkey
    · simp [hc]
    · simp [hc, (hother c hc).claimed]

/-- **Added root stake** is a deposit. -/
theorem RootAdded.changes (hadded : RootAdded s s' hotkey coldkey alpha) (hsound : RootSound s)
    (hadjustable : s.Adjustable hotkey n alpha) :
    Changes (2 ^ 32) (s.rootIndex h n) (s'.rootIndex h n) 0 0 (if hotkey = h then 1 else 0) := by
  by_cases hh : hotkey = h
  · subst hh
    rw [if_pos rfl]
    rw [rootIndex_moved (hadded.rate _ _) fun c hc => hadded.sameOwed fun hall => hc hall.2, hadded.stake,
      hadded.claimed]
    simp only [and_self, if_true]
    have hrate := hsound.rates hotkey n
    have hfor := claimableFor_eq hrate (lt_trans hadjustable.1 (by decide)) hadjustable.2
    have hproduct := toNat_mul hrate alpha
    refine (Change.deposit coldkey alpha _ ?_).changes
    show (s.rootClaims.rateOf hotkey n).bits.toNat * alpha < _
    omega
  · have hne : ∀ c, ¬(h = hotkey ∧ c = coldkey) := fun c hall => hh hall.1.symm
    rw [if_neg hh]
    exact unchanged (hadded.rate h n) (fun c => (hadded.sameOwed (n := n) (hne c)).stake)
      fun c => (hadded.sameOwed (hne c)).claimed

/-- **Removed root stake** is a withdrawal. -/
theorem RootRemoved.changes (hremoved : RootRemoved s s' hotkey coldkey alpha) (hsound : RootSound s)
    (hn : n ≠ root) (hle : alpha ≤ s.stakes.stake hotkey coldkey root) :
    Changes (2 ^ 32) (s.rootIndex h n) (s'.rootIndex h n) 0 0 0 := by
  by_cases hh : hotkey = h
  · subst hh
    rw [rootIndex_moved (hremoved.rate _ _) fun c hc => hremoved.sameOwed hn fun hall => hc hall.2, hremoved.stake,
      hremoved.claimed n _ _ hn]
    simp only [and_self, if_true]
    exact (Change.withdraw coldkey alpha _ hle (claimableFor_le (hsound.rates hotkey n) alpha)).changes
  · have hne : ∀ c, ¬(h = hotkey ∧ c = coldkey) := fun c hall => hh hall.1.symm
    exact unchanged (hremoved.rate h n) (fun c => (hremoved.sameOwed hn (hne c)).stake)
      fun c => (hremoved.sameOwed hn (hne c)).claimed

theorem RootAdded.sound (hadded : RootAdded s s' hotkey coldkey alpha) (hsound : RootSound s) : RootSound s' := by
  refine ⟨fun h n => ?_, fun h => ?_, fun h C => ?_⟩
  · rw [hadded.rate]
    exact hsound.rates h n
  · rw [hadded.rate]
    exact hsound.noRoot h
  · rw [hadded.total]
    have hbefore := hsound.exact h C
    by_cases hh : h = hotkey
    · subst hh
      have hsum := sum_le_sum_add (f := fun c => s.stakes.stake h c root)
        (g := fun c => s'.stakes.stake h c root) (k := coldkey) (e := alpha)
        (fun c hc => by simp [hadded.stake, hc]) (by simp [hadded.stake]) C
      rw [if_pos rfl]
      omega
    · simp only [hadded.stake, hh, false_and, if_false, Nat.add_zero]
      exact hbefore

theorem RootRemoved.sound (hremoved : RootRemoved s s' hotkey coldkey alpha) (hsound : RootSound s)
    (hle : alpha ≤ s.stakes.stake hotkey coldkey root) : RootSound s' := by
  refine ⟨fun h n => ?_, fun h => ?_, fun h C => ?_⟩
  · rw [hremoved.rate]
    exact hsound.rates h n
  · rw [hremoved.rate]
    exact hsound.noRoot h
  · rw [hremoved.total]
    by_cases hh : h = hotkey
    · subst hh
      -- the coldkey's stake is part of the total, whether or not the sum is about it
      have hbefore := hsound.exact h (insert coldkey (C.erase coldkey))
      rw [Finset.sum_insert (Finset.notMem_erase coldkey C)] at hbefore
      have hrest : ∑ c ∈ C.erase coldkey, s'.stakes.stake h c root =
          ∑ c ∈ C.erase coldkey, s.stakes.stake h c root := by
        refine Finset.sum_congr rfl fun c hc => ?_
        simp [hremoved.stake, Finset.ne_of_mem_erase hc]
      have hself : s'.stakes.stake h coldkey root = s.stakes.stake h coldkey root - alpha := by
        simp [hremoved.stake]
      have hall := sum_le_add_sum_erase (fun c => s'.stakes.stake h c root) coldkey C
      rw [if_pos rfl]
      omega
    · simp only [hremoved.stake, hh, false_and, if_false, Nat.sub_zero]
      exact hsound.exact h C

/-! ## Distributions -/

omit [DecidableEq A] in
/-- The increment, for all the root stake, is at most the amount. -/
theorem rootIncrement_le (hsmall : s.stakes.totalHotkeyAlpha hotkey root < 2 ^ 64)
    (hexceeds : s.exceedsRootStake hotkey amount = false) :
    0 ≤ (s.rootIncrement hotkey amount).bits ∧
      (s.rootIncrement hotkey amount).bits * s.stakes.totalHotkeyAlpha hotkey root ≤ 2 ^ 32 * amount := by
  unfold State.exceedsRootStake at hexceeds
  unfold State.rootIncrement
  generalize s.stakes.totalHotkeyAlpha hotkey root = total at hsmall hexceeds ⊢
  have htotal : (ofNat total).bits = total * 2 ^ 32 := bits_ofNat (by omega)
  have hle : amount ≤ total := by
    have hnot := of_decide_eq_false hexceeds
    unfold toUnsigned at hnot
    rw [htotal] at hnot
    omega
  have hamount : (ofNat amount).bits = amount * 2 ^ 32 := bits_ofNat (by omega)
  unfold checkedDiv
  simp only [htotal, hamount]
  split_ifs with hdiv
  · -- the quotient of two numbers that are not negative is rounded down
    have hcast : ((amount : Int) * 2 ^ 32 * 2 ^ 32).tdiv (total * 2 ^ 32) = (amount * 2 ^ 32 : Int) / total := by
      rw [Int.tdiv_eq_ediv_of_nonneg (by omega), Int.mul_ediv_mul_of_pos_left _ _ (by decide)]
    simp only [Option.getD_some, hcast]
    refine ⟨Int.ediv_nonneg (by omega) (by omega), ?_⟩
    rw [mul_comm (2 ^ 32 : Int)]
    exact Int.ediv_mul_le _ (by rintro hzero; exact hdiv.1 (by rw [hzero, Int.zero_mul]))
  · have hzero : (ofNat 0).bits = 0 := by decide
    simp only [Option.getD_none, hzero, Int.zero_mul, le_refl, true_and]
    omega

variable {increment : I96F32} {owed : Nat}

theorem rateOf_raiseRate :
    (rc.raiseRate hotkey netuid increment).rateOf h n =
      if h = hotkey ∧ n = netuid then match (rc.rootClaimable hotkey).lookup netuid with
        | some claimTotal => claimTotal.saturatingAdd increment
        | none            => increment
      else rc.rateOf h n := by
  unfold raiseRate rateOf
  by_cases hh : h = hotkey
  · subst hh
    by_cases hn : n = netuid
    · subst hn
      cases (rc.rootClaimable h).lookup n <;> simp
    · simp [hn]
  · simp [hh]

/-- A rate grows by at most the increment, and does not become smaller. -/
theorem rateOf_raised (hincrement : 0 ≤ increment.bits) :
    (rc.rateOf hotkey netuid).bits ≤ ((rc.raiseRate hotkey netuid increment).rateOf hotkey netuid).bits ∧
      ((rc.raiseRate hotkey netuid increment).rateOf hotkey netuid).bits ≤
        (rc.rateOf hotkey netuid).bits + increment.bits := by
  rw [rateOf_raiseRate, if_pos ⟨rfl, rfl⟩]
  unfold rateOf
  cases (rc.rootClaimable hotkey).lookup netuid with
  | some claimTotal =>
    have hge := claimTotal.ge
    exact ⟨le_bits_saturate claimTotal.lt (Int.le_add_of_nonneg_right hincrement), bits_saturate_le (by omega)⟩
  | none =>
    have hzero : (ofNat 0).bits = 0 := by decide
    simp only [Option.getD_none, hzero, Int.zero_add, le_refl, and_true]
    exact hincrement

theorem distribute_changes (hsound : RootSound s) (hnetuid : netuid ≠ root)
    (hsmall : s.stakes.totalHotkeyAlpha hotkey root < 2 ^ 64) : Changes (2 ^ 32) (s.rootIndex h n)
        ((increaseRootClaimableForHotkeyAndSubnet rcfg s hotkey netuid amount).rootIndex h n) 0
        (if hotkey = h ∧ netuid = n ∧ s.exceedsRootStake hotkey amount = false then amount else 0) 0 ∧
      RootSound (increaseRootClaimableForHotkeyAndSubnet rcfg s hotkey netuid amount) := by
  unfold increaseRootClaimableForHotkeyAndSubnet
  cases hexceeds : s.exceedsRootStake hotkey amount with
  | true =>
    -- the stake of the owner grows on the subnet, which is not root
    have hstake : ∀ h c, (s.stakes.increase hotkey ((s.ownership.owner hotkey).getD rcfg.defaultAccount) netuid
        amount).stake h c root = s.stakes.stake h c root := by
      intro h c
      rw [Stakes.stake_increase, if_neg fun hall => hnetuid hall.2.2.symm, Nat.add_zero]
    simp only [if_true, Bool.true_eq_false, and_false, if_false]
    refine ⟨?_, hsound.rates, hsound.noRoot, fun h C => ?_⟩
    · exact unchanged rfl (hstake h) fun _ => rfl
    · simp only [hstake, totalHotkeyAlpha_increase, if_neg fun hall : h = hotkey ∧ root = netuid =>
        hnetuid hall.2.symm, Nat.add_zero]
      exact hsound.exact h C
  | false =>
    obtain ⟨hpos, hamount⟩ := rootIncrement_le hsmall hexceeds
    have hraised := @rateOf_raised _ _ hotkey s.rootClaims netuid _ hpos
    simp only [Bool.false_eq_true, if_false, and_true]
    refine ⟨?_, fun h' n' => ?_, fun h' => ?_, hsound.exact⟩
    · by_cases hkey : hotkey = h ∧ netuid = n
      · obtain ⟨rfl, rfl⟩ := hkey
        rw [if_pos ⟨rfl, rfl⟩]
        refine (Change.distribute (x := s.rootIndex hotkey netuid) ?_ fun C => ?_).changes
        · exact Int.toNat_le_toNat hraised.1
        · have hexact := hsound.exact hotkey C
          have hstep : ((s.rootClaims.raiseRate hotkey netuid (s.rootIncrement hotkey amount)).rateOf hotkey
              netuid).bits.toNat - (s.rootClaims.rateOf hotkey netuid).bits.toNat ≤
              (s.rootIncrement hotkey amount).bits.toNat := by omega
          have hbits : (s.rootIncrement hotkey amount).bits.toNat *
              s.stakes.totalHotkeyAlpha hotkey root ≤ 2 ^ 32 * amount := by
            zify
            rw [Int.toNat_of_nonneg hpos]
            exact_mod_cast hamount
          exact le_trans (Nat.mul_le_mul hstep hexact) hbits
      · rw [if_neg hkey]
        have hother : ¬(h = hotkey ∧ n = netuid) := fun hall => hkey ⟨hall.1.symm, hall.2.symm⟩
        refine unchanged ?_ (fun _ => rfl) fun _ => rfl
        rw [rateOf_raiseRate, if_neg hother]
    · by_cases hkey : h' = hotkey ∧ n' = netuid
      · obtain ⟨rfl, rfl⟩ := hkey
        exact le_trans (hsound.rates h' n') hraised.1
      · rw [rateOf_raiseRate, if_neg hkey]
        exact hsound.rates h' n'
    · rw [rateOf_raiseRate, if_neg fun hall => hnetuid hall.2.symm]
      exact hsound.noRoot h'

/-! ## Claims -/

/-- What is due is owed: the rounding, the threshold and every saturation only make it less. -/
theorem claimDue_le (rcfg : RootClaimConfig A) (hotkey coldkey : A) (netuid : NetUid) (ignoreMinimumCondition : Bool)
    (hsound : RootSound s) :
    2 ^ 32 * s.claimDue rcfg hotkey coldkey netuid ignoreMinimumCondition ≤
      (s.rootIndex hotkey netuid).owed (2 ^ 32) coldkey := by
  have hrate := hsound.rates hotkey netuid
  have hclaimable := bits_claimable_le hrate (s.stakes.stake hotkey coldkey root)
  have hproduct := toNat_mul hrate (s.stakes.stake hotkey coldkey root)
  have hlt := ((s.rootClaims.rateOf hotkey netuid).saturatingMul (ofNat (s.stakes.stake hotkey coldkey root))).lt
  have hclaimed : (ofNat (s.rootClaims.claimed netuid hotkey coldkey)).bits =
      min ((s.rootClaims.claimed netuid hotkey coldkey : Int) * 2 ^ 32) (2 ^ 127 - 1) := by
    show max (-(2 ^ 127)) (min ((s.rootClaims.claimed netuid hotkey coldkey : Int) * 2 ^ 32) (2 ^ 127 - 1)) = _
    omega
  have howed : (s.rootClaims.owedFloat s.stakes hotkey coldkey netuid).bits ≤
      ((s.rootClaims.rateOf hotkey netuid).saturatingMul (ofNat (s.stakes.stake hotkey coldkey root))).bits -
      (ofNat (s.rootClaims.claimed netuid hotkey coldkey)).bits := by
    refine bits_saturate_le (le_trans ?_ (Int.sub_le_sub_right hclaimable.1 _))
    omega
  unfold State.claimDue owed isNegative toUnsigned Index.owed State.rootIndex
  simp only [decide_eq_true_eq]
  split_ifs
  · omega
  · omega
  · omega

theorem RootClaims.claimed_countClaimed {c : A} :
    (rc.countClaimed netuid hotkey coldkey amount).claimed n h c =
      rc.claimed n h c + if n = netuid ∧ h = hotkey ∧ c = coldkey then amount else 0 := by
  unfold countClaimed
  rw [claimed_setClaimed]
  by_cases hkey : n = netuid ∧ h = hotkey ∧ c = coldkey
  · obtain ⟨rfl, rfl, rfl⟩ := hkey
    simp
  · simp [hkey]

/-- A claim was counted, and the root stakes are as they were. -/
structure RootPaid (s s' : State A B X R) (hotkey coldkey : A) (netuid : NetUid) (owed : Nat) : Prop where
  stake : ∀ h c, s'.stakes.stake h c root = s.stakes.stake h c root
  total : ∀ h, s'.stakes.totalHotkeyAlpha h root = s.stakes.totalHotkeyAlpha h root
  claimed : ∀ n h c, s'.rootClaims.claimed n h c =
    s.rootClaims.claimed n h c + if n = netuid ∧ h = hotkey ∧ c = coldkey then owed else 0
  rate : ∀ h n, s'.rootClaims.rateOf h n = s.rootClaims.rateOf h n

theorem RootPaid.changes (hpaid : RootPaid s s' hotkey coldkey netuid owed)
    (howed : 2 ^ 32 * owed ≤ (s.rootIndex hotkey netuid).owed (2 ^ 32) coldkey) :
    Changes (2 ^ 32) (s.rootIndex h n) (s'.rootIndex h n) (if hotkey = h ∧ netuid = n then owed else 0) 0 0 := by
  by_cases hkey : hotkey = h ∧ netuid = n
  · obtain ⟨rfl, rfl⟩ := hkey
    have hindex : s'.rootIndex hotkey netuid =
        ⟨(s.rootIndex hotkey netuid).rate, (s.rootIndex hotkey netuid).stake,
          update (s.rootIndex hotkey netuid).claimed coldkey ((s.rootIndex hotkey netuid).claimed coldkey + owed)⟩ := by
      unfold State.rootIndex
      rw [hpaid.rate]
      congr 1
      · exact funext (hpaid.stake hotkey)
      · funext c
        by_cases hc : c = coldkey <;> simp [hpaid.claimed, hc]
    rw [if_pos ⟨rfl, rfl⟩, hindex]
    exact (Change.claim coldkey owed howed).changes
  · rw [if_neg hkey]
    refine unchanged (hpaid.rate h n) (hpaid.stake h) fun c => ?_
    rw [hpaid.claimed, if_neg fun hall => hkey ⟨hall.2.1.symm, hall.1.symm⟩, Nat.add_zero]

theorem RootPaid.sound (hpaid : RootPaid s s' hotkey coldkey netuid owed) (hsound : RootSound s) : RootSound s' := by
  refine ⟨fun h n => ?_, fun h => ?_, fun h C => ?_⟩
  · rw [hpaid.rate]
    exact hsound.rates h n
  · rw [hpaid.rate]
    exact hsound.noRoot h
  · simp only [hpaid.stake, hpaid.total]
    exact hsound.exact h C

/-- There are no claims on root. -/
theorem claimDue_root {ignoreMinimumCondition : Bool} (hsound : RootSound s) :
    s.claimDue rcfg hotkey coldkey root ignoreMinimumCondition = 0 := by
  have hdue := claimDue_le rcfg hotkey coldkey root ignoreMinimumCondition hsound
  have hzero : (s.rootIndex hotkey root).owed (2 ^ 32) coldkey = 0 := by
    unfold Index.owed State.rootIndex
    rw [hsound.noRoot hotkey]
    simp
  omega

/-- **A claim**: nothing happens, the alpha is kept, or it is sold and what that gives is added as root stake. -/
theorem rootClaim_ends (cfg : Config A B X R) (rcfg : RootClaimConfig A) (hotkey coldkey : A) (netuid : NetUid)
    (rootClaimType : RootClaimType) (ignoreMinimumCondition : Bool) (hsound : RootSound s) :
    Ends (rootClaimOnSubnet cfg rcfg hotkey coldkey netuid rootClaimType ignoreMinimumCondition) s
      (fun _ s' =>
        let owed := s.claimDue rcfg hotkey coldkey netuid ignoreMinimumCondition
        if owed ≠ 0 ∧ rootClaimType.swaps netuid then
          match s.soldAt cfg netuid owed cfg.swapInterface.minPrice true with
          | .ok r    => ∃ t, RootPaid s t hotkey coldkey netuid owed ∧ RootAdded t s' hotkey coldkey r.amountPaidOut
          | .error _ => RootPaid s s' hotkey coldkey netuid 0
        else RootPaid s s' hotkey coldkey netuid owed) (fun _ _ => False) := by
  unfold rootClaimOnSubnet
  simp only [ends_bind, ends_get]
  generalize hdue : s.claimDue rcfg hotkey coldkey netuid ignoreMinimumCondition = owed
  by_cases hzero : owed = 0
  · subst hzero
    exact ⟨fun _ _ => rfl, fun _ => rfl, fun _ _ _ => by simp, fun _ _ => rfl⟩
  · have hnetuid : netuid ≠ root := by
      rintro rfl
      exact hzero (hdue ▸ claimDue_root hsound)
    simp only [ne_eq, hzero, not_false_eq_true, true_and, if_false]
    by_cases hswaps : rootClaimType.swaps netuid
    · simp only [hswaps, if_true, ends_bind, ends_attempt]
      refine swapAlphaForTao_ends.mono ?_ ?_
      · rintro r t ⟨hr, rfl⟩
        simp only [hr, ends_modify]
        refine ⟨{ s with rootClaims := s.rootClaims.countClaimed netuid hotkey coldkey owed },
          ⟨fun _ _ => rfl, fun _ => rfl, fun _ _ _ => claimed_countClaimed, fun _ _ => rfl⟩, ?_⟩
        -- the two changes of the claims are additions, so their order does not matter
        refine ⟨fun h c => ?_, fun h => ?_, fun n h c => ?_, fun h n => rateOf_addStakeAdjust, rfl⟩
        · show (s.stakes.increase hotkey coldkey root r.amountPaidOut).stake h c root = _
          rw [Stakes.stake_increase]
          simp
        · show (s.stakes.increase hotkey coldkey root r.amountPaidOut).totalHotkeyAlpha h root = _
          rw [totalHotkeyAlpha_increase]
          simp
        · simp only [claimed_countClaimed]
          rw [Nat.add_right_comm]
          exact congrArg (· + _) claimed_addStakeAdjust
      · rintro e t ⟨he, rfl⟩
        simp only [he, ends_pure]
        exact ⟨fun _ _ => rfl, fun _ => rfl, fun _ _ _ => by simp, fun _ _ => rfl⟩
    · simp only [hswaps, Bool.false_eq_true, if_false, ends_modify]
      refine ⟨fun h c => ?_, fun h => ?_, fun _ _ _ => claimed_countClaimed, fun _ _ => rfl⟩
      · rw [Stakes.stake_increase, if_neg fun hall => hnetuid hall.2.2.symm, Nat.add_zero]
      · rw [totalHotkeyAlpha_increase, if_neg fun hall => hnetuid hall.2.symm, Nat.add_zero]

/-! ## Every event -/

/-- The cases in which the functions keep account of the claims: dividends do not come from root, root stake is not
    traded, it is there when it is removed, and the adjustments are within their ranges. -/
def RootEvent.Regular (cfg : Config A B X R) (rcfg : RootClaimConfig A) (n : NetUid) (s : State A B X R) :
    RootEvent A → Prop
  | .increaseRootClaimable hotkey netuid _ =>
      netuid ≠ root ∧ s.stakes.totalHotkeyAlpha hotkey root < 2 ^ 64
  | .stakeIntoSubnet hotkey coldkey tao priceLimit setLimit dropFees =>
      ∀ alpha ∈ returned (Subtensor.stakeIntoSubnet cfg hotkey coldkey root tao priceLimit setLimit dropFees) s,
        s.Adjustable hotkey n alpha
  | .unstakeFromSubnet hotkey coldkey alpha _ _ =>
      s.pools.subnetMechanism root ≠ 1 ∧ alpha ≤ s.stakes.stake hotkey coldkey root
  | .transferStakeWithinSubnet originColdkey originHotkey _ destinationHotkey alpha =>
      alpha ≤ s.stakes.stake originHotkey originColdkey root ∧ s.Adjustable destinationHotkey n alpha
  | .rootClaimOnSubnet hotkey coldkey netuid rootClaimType ignoreMinimumCondition =>
      rootClaimType.swaps netuid →
      ∀ r ∈ (s.soldAt cfg netuid (s.claimDue rcfg hotkey coldkey netuid ignoreMinimumCondition)
        cfg.swapInterface.minPrice true).toOption, s.Adjustable hotkey n r.amountPaidOut

instance (e : RootEvent A) : Decidable (e.Regular cfg rcfg n s) :=
  match e with
  | .increaseRootClaimable .. | .unstakeFromSubnet .. | .transferStakeWithinSubnet .. =>
      inferInstanceAs (Decidable (_ ∧ _))
  | .stakeIntoSubnet .. => inferInstanceAs (Decidable (∀ _ ∈ _, _))
  | .rootClaimOnSubnet .. => inferInstanceAs (Decidable (_ → ∀ _ ∈ _, _))

omit [DecidableEq A] in
/-- A rate that did not change has the same range. -/
theorem State.Adjustable.congr (hadjustable : s.Adjustable hotkey n amount)
    (hrate : s'.rootClaims.rateOf hotkey n = s.rootClaims.rateOf hotkey n) : s'.Adjustable hotkey n amount := by
  unfold State.Adjustable
  rw [hrate]
  exact hadjustable

/-- **Every event** is made of changes of the reward index. -/
theorem RootEvent.changes {e : RootEvent A} (hsound : RootSound s) (hn : n ≠ root) (hregular : e.Regular cfg rcfg n s) :
    Changes (2 ^ 32) (s.rootIndex h n) ((e.apply cfg rcfg s).rootIndex h n) (e.paid cfg rcfg h n s)
        (e.distributed h n s) (e.additions cfg rcfg h s) ∧
      RootSound (e.apply cfg rcfg s) := by
  cases e with
  | increaseRootClaimable hotkey netuid amount => exact distribute_changes hsound hregular.1 hregular.2
  | stakeIntoSubnet hotkey coldkey tao priceLimit setLimit dropFees =>
    refine committed_of_ends (P := fun (s' : State A B X R) ok => Changes (2 ^ 32) (s.rootIndex h n)
      (s'.rootIndex h n) 0 0 (if hotkey = h ∧ ok then 1 else 0) ∧ RootSound s') stakeIntoRoot_ends ?_ ?_
    · intro alpha s' hrun hadded
      have hadjustable := hregular alpha (by simp [returned, hrun])
      simp only [and_true]
      exact ⟨hadded.changes hsound hadjustable, hadded.sound hsound⟩
    · simp only [Bool.false_eq_true, and_false, if_false]
      exact ⟨.refl, hsound⟩
  | unstakeFromSubnet hotkey coldkey alpha priceLimit dropFees =>
    refine committed_of_ends (P := fun (s' : State A B X R) _ => Changes (2 ^ 32) (s.rootIndex h n)
      (s'.rootIndex h n) 0 0 0 ∧ RootSound s') (unstakeFromRoot_ends hregular.1 hregular.2) ?_ ⟨.refl, hsound⟩
    intro tao s' _ hremoved
    exact ⟨hremoved.changes hsound hn hregular.2, hremoved.sound hsound hregular.2⟩
  | transferStakeWithinSubnet originColdkey originHotkey destinationColdkey destinationHotkey alpha =>
    refine committed_of_ends (P := fun (s' : State A B X R) ok => Changes (2 ^ 32) (s.rootIndex h n)
      (s'.rootIndex h n) 0 0 (if destinationHotkey = h ∧ ok then 1 else 0) ∧ RootSound s')
        (transferOnRoot_ends hregular.1) ?_ ?_
    · rintro tao s' - ⟨t, hremoved, hadded⟩
      have hsound' := hremoved.sound hsound hregular.1
      have hmoved := (hremoved.changes (h := h) hsound hn hregular.1).trans
        (hadded.changes hsound' (hregular.2.congr (hremoved.rate _ _)))
      simp only [Nat.zero_add] at hmoved
      simp only [and_true]
      exact ⟨hmoved, hadded.sound hsound'⟩
    · simp only [Bool.false_eq_true, and_false, if_false]
      exact ⟨.refl, hsound⟩
  | rootClaimOnSubnet hotkey coldkey netuid rootClaimType ignoreMinimumCondition =>
    have hdue := claimDue_le rcfg hotkey coldkey netuid ignoreMinimumCondition hsound
    obtain ⟨_, s', hrun, hclaim⟩ := exists_of_ends (rootClaim_ends cfg rcfg hotkey coldkey netuid
      rootClaimType ignoreMinimumCondition hsound)
    simp only [RootEvent.Regular] at hregular
    simp only [RootEvent.apply, RootEvent.paid, RootEvent.distributed, RootEvent.additions, committed, hrun,
      RootEvent.sells]
    generalize s.claimDue rcfg hotkey coldkey netuid ignoreMinimumCondition = owed at *
    by_cases hswaps : owed ≠ 0 ∧ rootClaimType.swaps netuid
    · simp only [hswaps, ne_eq, not_false_eq_true, and_self, if_true, true_and] at hclaim ⊢
      cases hsold : s.soldAt cfg netuid owed cfg.swapInterface.minPrice true with
      | ok r =>
        have hadjustable := hregular hswaps.2 r (by simp [hsold, Except.toOption])
        simp only [hsold] at hclaim
        obtain ⟨t, hpaid, hadded⟩ := hclaim
        have hsound' := hpaid.sound hsound
        have hboth := (hpaid.changes (h := h) (n := n) hdue).trans
          (hadded.changes hsound' (hadjustable.congr (hpaid.rate _ _)))
        simp only [Nat.zero_add, Nat.add_zero] at hboth
        simp only [and_true]
        exact ⟨hboth, hadded.sound hsound'⟩
      | error e =>
        simp only [hsold] at hclaim
        have hnone := hclaim.changes (h := h) (n := n) (by simp)
        simp only [ite_self] at hnone
        simp only [Bool.false_eq_true, and_false, if_false]
        exact ⟨hnone, hclaim.sound hsound⟩
    · -- nothing is sold: either nothing is due, or it is kept
      rw [if_neg hswaps] at hclaim
      have hsells : owed = 0 ∨ rootClaimType.swaps netuid = false := by
        simpa [or_iff_not_imp_left] using hswaps
      have hkept := hclaim.changes (h := h) (n := n) hdue
      refine ⟨?_, hclaim.sound hsound⟩
      rcases hsells with hzero | hkeeps
      · simpa [hzero] using hkept
      · simpa [hkeeps] using hkept

/-! ## Every run -/

/-- Every event of a run is regular where it happens. -/
def RegularRun (cfg : Config A B X R) (rcfg : RootClaimConfig A) (n : NetUid) (s : State A B X R) :
    List (RootEvent A) → Prop
  | []        => True
  | e :: rest => e.Regular cfg rcfg n s ∧ RegularRun cfg rcfg n (e.apply cfg rcfg s) rest

theorem run_changes (hn : n ≠ root) (events : List (RootEvent A)) (hsound : RootSound s)
    (hregular : RegularRun cfg rcfg n s events) :
    ∃ y, Changes (2 ^ 32) (s.rootIndex h n) y (rootTotals cfg rcfg h n s events).paid
      (rootTotals cfg rcfg h n s events).distributed (rootTotals cfg rcfg h n s events).additions := by
  induction events generalizing s with
  | nil => exact ⟨_, .refl⟩
  | cons e rest ih =>
    obtain ⟨hfirst, hsound'⟩ := RootEvent.changes (h := h) hsound hn hregular.1
    obtain ⟨y, hrest⟩ := ih hsound' hregular.2
    exact ⟨y, hfirst.trans hrest⟩

/-- **Root claims never exceed the distributions.** From a state without rates, in which the root stakes add up, the
    alpha that is paid out for a hotkey and a subnet is at most what was distributed to them, and one for every
    addition of root stake to the hotkey. -/
theorem root_claims_bounded (cfg : Config A B X R) (rcfg : RootClaimConfig A) (s : State A B X R) (h : A) (n : NetUid)
    (hn : n ≠ root) (hempty : ∀ hotkey, s.rootClaims.rootClaimable hotkey = ∅)
    (hexact : ∀ hotkey (C : Finset A), ∑ c ∈ C, s.stakes.stake hotkey c root ≤ s.stakes.totalHotkeyAlpha hotkey root)
    (events : List (RootEvent A)) (hregular : RegularRun cfg rcfg n s events) :
    (rootTotals cfg rcfg h n s events).paid ≤
      (rootTotals cfg rcfg h n s events).distributed + (rootTotals cfg rcfg h n s events).additions := by
  have hrate : ∀ hotkey netuid, (s.rootClaims.rateOf hotkey netuid).bits = 0 := by
    intro hotkey netuid
    unfold rateOf
    rw [hempty hotkey, AList.lookup_empty]
    decide
  have hsound : RootSound s := ⟨fun _ _ => (hrate _ _).ge, fun _ => hrate _ _, hexact⟩
  obtain ⟨y, hchanges⟩ := run_changes (h := h) hn events hsound hregular
  refine hchanges.paid_le (by decide) ?_
  show (s.rootClaims.rateOf h n).bits.toNat = 0
  rw [hrate]
  rfl
end Index

namespace Sample

/-- Every claim is large enough. -/
def noThreshold : RootClaimConfig Account := ⟨fun _ => ofNat 0, 0⟩

/-- Coldkey 0 earns 50000000 with its root stake on hotkey 1, and claims it. -/
def claimedAll : List (RootEvent Account) :=
  [.stakeIntoSubnet 1 0 100000000 0 true true, .increaseRootClaimable 1 1 50000000, .rootClaimOnSubnet 1 0 1 .keep true]

/-- It then moves some of the stake to coldkey 2 in four parts, and coldkey 2 claims what the rounding has left. -/
def movedInParts : List (RootEvent Account) :=
  claimedAll ++ List.replicate 4 (.transferStakeWithinSubnet 0 1 2 1 2000001) ++ [.rootClaimOnSubnet 1 2 1 .keep true]

/-- It then moves more stake to hotkey 3 than it has, and claims again. -/
def movedTooMuch : List (RootEvent Account) :=
  claimedAll ++ [.transferStakeWithinSubnet 0 1 2 3 200000000, .rootClaimOnSubnet 1 0 1 .keep true]
end Sample
open Sample

/-- Five additions, one of them by staking, round by two units together. -/
theorem root_claims_bounded_moved :
    (rootTotals config noThreshold 1 1 fresh movedInParts).paid ≤ 50000000 + 5 :=
  root_claims_bounded config noThreshold fresh 1 1 (by decide) (fun _ => rfl)
    (fun _ _ => le_of_eq_of_le (Finset.sum_eq_zero fun _ _ => rfl) (Nat.zero_le _)) movedInParts
    ⟨by decide, by decide, by decide, by decide, by decide, by decide, by decide, by decide, trivial⟩

/-- So the bound does not hold with the additions by staking alone, nor when stake is moved that is not there: it is
    not removed, but the claims are adjusted. -/
theorem root_claims_above_distributed :
    rootTotals config noThreshold 1 1 fresh movedInParts = ⟨50000000 + 2, 50000000, 1 + 4⟩ ∧
      rootTotals config noThreshold 1 1 fresh movedTooMuch = ⟨100000000, 50000000, 1⟩ :=
  ⟨by decide +kernel, by decide +kernel⟩
end Qubitum.Subtensor
