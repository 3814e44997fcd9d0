import Qubitum.Subtensor.Dispatch
import Qubitum.Subtensor.StakingEffects

/-!
# `Subtensor.Issuance` — the issuance counter against what there is

`check_total_issuance` compares `TotalIssuance` with the currency's issuance and `TotalStake`. `imbalance` is
the difference. A call moves TAO between the three in separate steps; `leak` adds up what the steps of a call
leave over. A successful call changes the difference by exactly that (`TaoCall.run_imbalance`), and over a run it adds
up (`imbalance_run`).

There are five ways to leave something over:

* a purchase adds the whole payment to `TotalStake` and then pays the author's fee out of nothing, or takes it
  off the issuance, so every fee is counted twice (`purchaseLeak`);
* a transition that yields less than the minimum stake neither stakes nor pays out what it has unstaked;
* the coinbase issues the excess TAO also if the purchase with it failed (`injectLeak`);
* clearing a small nomination drops an error that comes after the stake was sold (`clearLeak`);
* the totals stop at zero (`saleShort`).
-/

namespace Qubitum.Subtensor
open Fixed Outcome Mutation

variable {A B X R : Type} {cfg : Config A B X R} {s s' : State A B X R}

/-- `TotalIssuance - (currency issuance + TotalStake)` -/
def imbalance (cfg : Config A B X R) (s : State A B X R) : Int :=
  s.totals.totalIssuance - (cfg.currency.totalIssuance s.ledger + s.totals.totalStake)

theorem imbalance_congr (htotals : s'.totals = s.totals) (hledger : s'.ledger = s.ledger) :
    imbalance cfg s' = imbalance cfg s := by
  unfold imbalance
  rw [htotals, hledger]

/-- The swap pallet's storage is not looked at. -/
theorem imbalance_swap (h : s' = { s with swap := s'.swap }) : imbalance cfg s' = imbalance cfg s := by
  rw [h]
  rfl

/-! ## What is left over -/

/-- What a fee costs: the author is credited, or the issuance is reduced, as far as it goes. -/
def authorCost (s : State A B X R) (fee : Nat) : Nat :=
  if s.author.isSome then fee else min fee s.totals.totalIssuance

section
variable (cfg : Config A B X R) (s : State A B X R) (netuid : NetUid)

/-- The fee of a purchase is paid although all of the payment counts as stake. -/
def purchaseLeak (tao priceLimit : Nat) (dropFees : Bool) : Int :=
  match s.boughtAt cfg netuid tao priceLimit dropFees with
  | .ok r    => -(authorCost s r.feeToBlockAuthor)
  | .error _ => 0

/-- What the sale of the author's share pays out beyond `TotalStake`. -/
def authorShort (fee : Nat) : Nat :=
  match s.author, s.soldAt cfg netuid fee cfg.swapInterface.minPrice true with
  | some _, .ok r => r.amountPaidOut - s.totals.totalStake
  | _, _          => 0

/-- What a sale pays out beyond `TotalStake`, to the seller and to the author. -/
def saleShort (alpha priceLimit : Nat) (dropFees : Bool) : Nat :=
  match s.soldAt cfg netuid alpha priceLimit dropFees with
  | .ok r => (r.amountPaidOut - s.totals.totalStake) +
      authorShort cfg (s.sold cfg netuid alpha priceLimit dropFees r) netuid r.feeToBlockAuthor
  | .error _ => 0

/-- What a sale that failed has taken from `TotalStake`. -/
def saleLost (alpha priceLimit : Nat) (dropFees : Bool) : Nat :=
  match s.soldAt cfg netuid alpha priceLimit dropFees with
  | .ok r    => min r.amountPaidOut s.totals.totalStake
  | .error _ => 0
end

variable [DecidableEq A]

section
variable (cfg : Config A B X R) (s : State A B X R) (hotkey coldkey : A) (netuid : NetUid)
include cfg s hotkey coldkey netuid

/-- Clearing a small nomination: if the author's share cannot be sold, the stake is gone and nobody is paid. -/
def clearLeak : Int :=
  let alpha := s.stakes.stake hotkey coldkey netuid
  let minPrice := cfg.swapInterface.minPrice
  if s.isSmallNomination cfg hotkey coldkey netuid then
    match unstakeFromSubnet cfg hotkey coldkey netuid alpha minPrice false s with
    | .ok _ _    => -(saleShort cfg s netuid alpha minPrice false)
    | .error _ _ => saleLost cfg s netuid alpha minPrice false
  else 0

/-- Unstaking and clearing what is left, with what happens in between. -/
def unstakeLeak (alpha priceLimit : Nat) (between : Nat → State A B X R → State A B X R) : Int :=
  match unstakeFromSubnet cfg hotkey coldkey netuid alpha priceLimit false s with
  | .ok tao t =>
      clearLeak cfg (between tao t) hotkey coldkey netuid - saleShort cfg s netuid alpha priceLimit false
  | .error _ _ => 0

/-- The coldkey is credited before the rest is cleared. -/
def removeLeak (alpha priceLimit : Nat) : Int :=
  unstakeLeak cfg s hotkey coldkey netuid alpha priceLimit fun tao t => addBalanceToColdkeyAccount cfg t coldkey tao
end

/-- The loop of `do_unstake_all_alpha`. -/
def unstakeAllLeak (cfg : Config A B X R) (hotkey coldkey : A) : List NetUid → Nat → State A B X R → Int
  | [], _, _ => 0
  | netuid :: rest, total, s =>
      match unstakeAllAlphaOn cfg hotkey coldkey total netuid s with
      | .ok total' t =>
          (if unstakesAlphaOn cfg s hotkey coldkey netuid then
            unstakeLeak cfg s hotkey coldkey netuid (s.stakes.stake hotkey coldkey netuid)
              cfg.swapInterface.minPrice fun _ t => t
          else 0) + unstakeAllLeak cfg hotkey coldkey rest total' t
      | .error _ _ => 0

/-- A transition between two subnets: what is not staked again is left over. -/
def transitionLeak (cfg : Config A B X R) (s : State A B X R) (originColdkey originHotkey : A)
    (originNetuid destinationNetuid : NetUid) (moveAmount : Nat) : Int :=
  let dropFeeOrigin : Bool := originNetuid = NetUid.root
  match unstakeFromSubnet cfg originHotkey originColdkey originNetuid moveAmount cfg.swapInterface.minPrice
      dropFeeOrigin s with
  | .ok tao t =>
      (if defaultMinStake ≤ tao then purchaseLeak cfg t destinationNetuid tao cfg.swapInterface.maxPrice !dropFeeOrigin
        else tao) - saleShort cfg s originNetuid moveAmount cfg.swapInterface.minPrice dropFeeOrigin
  | .error _ _ => 0

/-- The excess TAO of a subnet is issued whether or not the pool took it. -/
def excessLeak (cfg : Config A B X R) (s : State A B X R) (taoIn alphaIn excessTao : StorageMap NetUid U96F32)
    (netuid : NetUid) : Int :=
  let adjusted := { s with
    swap := cfg.swapInterface.adjustProtocolLiquidity s.swap s.pools netuid (emissionOf taoIn netuid)
      (emissionOf alphaIn netuid) }
  match adjusted.boughtAt cfg netuid (emissionOf excessTao netuid) cfg.swapInterface.maxPrice true with
  | .ok _    => 0
  | .error _ => emissionOf excessTao netuid

/-- The loop of `inject_and_maybe_swap`. -/
def injectLeak (cfg : Config A B X R) (taoIn alphaIn excessTao : StorageMap NetUid U96F32) :
    List NetUid → State A B X R → Int
  | [], _ => 0
  | netuid :: rest, s =>
      match injectOn cfg taoIn alphaIn excessTao netuid s with
      | .ok _ t    => excessLeak cfg s taoIn alphaIn excessTao netuid + injectLeak cfg taoIn alphaIn excessTao rest t
      | .error _ _ => 0

/-- What a withdrawal yields. -/
def taken (cfg : Config A B X R) (s : State A B X R) (coldkey : A) (amount : Nat) : Nat :=
  if amount = 0 then 0
  else match cfg.currency.withdraw s.ledger coldkey amount with
    | .ok (credit, _) => credit
    | .error _        => 0

/-! ## Steps -/

/-- The computation changes the difference by what it leaves over. -/
abbrev Leaks {α : Type} (cfg : Config A B X R) (s : State A B X R) (x : Run A B X R α) (leak : Int) : Prop :=
  Returns x s fun _ s' => imbalance cfg s' = imbalance cfg s + leak

section Steps
variable {hotkey coldkey : A} {netuid : NetUid} {tao alpha amount priceLimit : Nat} {dropFees : Bool}
variable (hexact : cfg.currency.Exact)
include hexact

section
omit [DecidableEq A]

theorem imbalance_addBalance :
    imbalance cfg (addBalanceToColdkeyAccount cfg s coldkey amount) = imbalance cfg s - amount := by
  unfold imbalance addBalanceToColdkeyAccount
  rw [hexact.deposit]
  push_cast
  ring

theorem removeBalance_imbalance :
    Returns (removeBalanceFromColdkeyAccount cfg coldkey amount) s
      (fun credit s' => credit = taken cfg s coldkey amount ∧ imbalance cfg s' = imbalance cfg s + credit ∧
        s' = { s with ledger := s'.ledger }) := by
  unfold removeBalanceFromColdkeyAccount taken
  by_cases hzero : amount = 0
  · simp [hzero]
  · simp only [hzero, if_false, ends_bind, ends_get, ends_lift, mapError_eq_ok, ends_set, ends_pure, implies_true,
      and_true]
    rintro ⟨credit, ledger⟩ hwithdraw _ _
    have hissuance := hexact.withdraw hwithdraw
    refine ⟨by rw [hwithdraw], ?_⟩
    unfold imbalance
    dsimp only
    omega

theorem authorFee_imbalance (fee : Nat) :
    ((s.totals.totalIssuance - burnt s.author fee : Nat) : Int) -
        cfg.currency.totalIssuance (cfg.currency.credited s.ledger s.author fee) =
      s.totals.totalIssuance - cfg.currency.totalIssuance s.ledger - authorCost s fee := by
  unfold burnt authorCost
  cases s.author with
  | some author =>
    simp only [Currency.credited, Option.isSome_some, if_true, hexact.deposit]
    omega
  | none =>
    simp only [Currency.credited, Option.isSome_none, Bool.false_eq_true, if_false]
    omega
end

/-- **A purchase** takes the payment off the difference, and the author's fee on top of it. -/
theorem stakeIntoSubnet_imbalance {setLimit : Bool} :
    Returns (stakeIntoSubnet cfg hotkey coldkey netuid tao priceLimit setLimit dropFees) s
      (fun _ s' => imbalance cfg s' = imbalance cfg s - tao + purchaseLeak cfg s netuid tao priceLimit dropFees) := by
  refine stakeIntoSubnet_ends.weaken ?_
  rintro _ s' ⟨r, hr, hstaked⟩
  have hfee := authorFee_imbalance (s := s) hexact r.feeToBlockAuthor
  have hleak : purchaseLeak cfg s netuid tao priceLimit dropFees = -(authorCost s r.feeToBlockAuthor) := by
    unfold purchaseLeak
    rw [hr]
  unfold imbalance
  rw [hleak, hstaked.totalStake, hstaked.totalIssuance, hstaked.ledger]
  omega

omit [DecidableEq A] in
/-- Paying the author changes the difference only if there is not enough stake to take its share from. -/
theorem authorPaid_imbalance {fee : Nat} {totals : Totals} {ledger : B}
    (h : AuthorPaid cfg netuid fee s totals ledger) :
    (totals.totalIssuance : Int) - (cfg.currency.totalIssuance ledger + totals.totalStake) =
      imbalance cfg s - authorShort cfg s netuid fee := by
  unfold imbalance authorShort
  cases h with
  | nobody hauthor => simp [hauthor]
  | paid hauthor hsold =>
    simp only [hauthor, hsold, hexact.deposit, State.sold]
    omega

/-- **A sale** adds what it pays out to the difference. -/
theorem unstakeFromSubnet_imbalance :
    Ends (unstakeFromSubnet cfg hotkey coldkey netuid alpha priceLimit dropFees) s
      (fun tao s' => imbalance cfg s' = imbalance cfg s + tao - saleShort cfg s netuid alpha priceLimit dropFees)
      (fun _ s' => imbalance cfg s' = imbalance cfg s + saleLost cfg s netuid alpha priceLimit dropFees) := by
  refine unstakeFromSubnet_ends.mono ?_ ?_
  · rintro _ s' ⟨r, rfl, hunstaked⟩
    have hpaid := authorPaid_imbalance hexact hunstaked.money
    simp only [saleShort, hunstaked.sold]
    unfold imbalance at hpaid ⊢
    simp only [State.sold] at hpaid ⊢
    omega
  · intro e s' hfailed
    unfold imbalance saleLost
    generalize s'.totals = totals, s'.ledger = ledger at hfailed
    cases hfailed with
    | unsold hsold => simp [hsold]
    -- sold, and then the share of the author could not be
    | unpaid hsold hauthor =>
      simp only [hsold, State.sold]
      omega

/-- Clearing a nomination that is too small. -/
theorem clearSmallNomination_imbalance :
    Leaks cfg s (clearSmallNominationIfRequired cfg hotkey coldkey netuid) (clearLeak cfg s hotkey coldkey netuid) := by
  unfold clearSmallNominationIfRequired clearLeak
  simp only [ends_bind, ends_get]
  by_cases hsmall : s.isSmallNomination cfg hotkey coldkey netuid = true
  · simp only [if_pos hsmall, ends_bind, ends_attempt]
    refine (unstakeFromSubnet_imbalance hexact).mono_of_run ?_ ?_
    · intro tao t hrun ht
      simp only [ends_modify, imbalance_addBalance hexact, hrun, ht]
      ring
    · intro e t hrun ht
      -- the error is dropped, what was written before it stays
      simp only [ends_modify, hrun]
      exact (imbalance_congr rfl rfl).trans ht
  · simp only [if_neg hsmall, ends_pure, Int.add_zero]

theorem creditUnstaked_imbalance :
    Returns (creditUnstaked cfg hotkey coldkey netuid tao) s
      (fun _ s' => imbalance cfg s' = imbalance cfg s - tao +
        clearLeak cfg (addBalanceToColdkeyAccount cfg s coldkey tao) hotkey coldkey netuid) := by
  unfold creditUnstaked
  simp only [ends_bind, ends_modify]
  refine (clearSmallNomination_imbalance hexact).weaken ?_
  intro _ t ht
  rw [← imbalance_addBalance hexact, ← ht]
  split
  · exact imbalance_congr rfl rfl
  · rfl

/-- **Unstaking for a coldkey that is credited.** -/
theorem unstake_credit_imbalance :
    Leaks cfg s (unstakeFromSubnet cfg hotkey coldkey netuid alpha priceLimit false >>=
        creditUnstaked cfg hotkey coldkey netuid)
      (removeLeak cfg s hotkey coldkey netuid alpha priceLimit) := by
  refine ends_bind.mpr ?_
  refine (unstakeFromSubnet_imbalance hexact).weaken_of_run ?_
  intro tao t hrun ht
  refine (creditUnstaked_imbalance hexact).weaken ?_
  intro _ s' hs'
  simp only [removeLeak, unstakeLeak, hrun]
  rw [hs', ht]
  ring

variable {limitPrice : Nat} {originNetuid destinationNetuid : NetUid}

section
omit [DecidableEq A] hexact

/-- A swap that is rolled back writes nothing but the swap pallet's storage. -/
theorem getMaxAmount_ends {atPar : Bool} {order : Order} :
    Returns (getMaxAmount cfg netuid atPar order limitPrice) s (fun _ s' => s' = { s with swap := s'.swap }) := by
  unfold getMaxAmount swapOrder
  simp only [ends_bind, ends_get, ends_ite, ends_pure, ends_set, ends_lift, implies_true, and_true]

theorem getMaxAmountMove_ends : Returns (getMaxAmountMove cfg originNetuid destinationNetuid limitPrice) s
      (fun _ s' => s' = { s with swap := s'.swap }) := by
  unfold getMaxAmountMove
  simp only [ends_bind, ends_get]
  split
  · simp only [ends_bind, ends_lift_ensure, ends_pure, implies_true, and_true]
  split
  · split
    · exact rfl
    · exact getMaxAmount_ends
  split
  · exact getMaxAmount_ends
  · simp only [ends_lift, implies_true, and_true]

theorem transitionMaxAmount_ends {limitPrice : Option Nat} :
    Returns (transitionMaxAmount cfg originNetuid destinationNetuid alpha limitPrice) s
      (fun _ s' => s' = { s with swap := s'.swap }) := by
  cases limitPrice with
  | none => rfl
  | some limitPrice => exact ends_ite.mpr ⟨fun _ => getMaxAmountMove_ends, fun _ => rfl⟩
end
end Steps

/-! ## Calls -/

/-- The calls that move TAO. -/
inductive TaoCall (A : Type) where
  | doAddStake (coldkey hotkey : A) (netuid : NetUid) (stakeToBeAdded : Nat)
  | doAddStakeLimit (coldkey hotkey : A) (netuid : NetUid) (stakeToBeAdded limitPrice : Nat) (allowPartial : Bool)
  | doRemoveStake (coldkey hotkey : A) (netuid : NetUid) (alphaUnstaked : Nat)
  | doRemoveStakeLimit (coldkey hotkey : A) (netuid : NetUid) (alphaUnstaked limitPrice : Nat) (allowPartial : Bool)
  | doUnstakeAllAlpha (coldkey hotkey : A)
  | transitionStakeInternal (originColdkey destinationColdkey originHotkey destinationHotkey : A)
      (originNetuid destinationNetuid : NetUid) (alphaAmount : Nat) (maybeLimitPrice : Option Nat)
      (maybeAllowPartial : Option Bool) (checkTransferToggle setLimit : Bool)
  | doRegister (coldkey : A) (netuid : NetUid) (hotkey : A)
  | injectAndMaybeSwap (subnetsToEmitTo : List NetUid) (taoIn alphaIn excessTao : StorageMap NetUid U96F32)

namespace TaoCall

def run (cfg : Config A B X R) : TaoCall A → Run A B X R Unit
  | .doAddStake coldkey hotkey netuid stakeToBeAdded => do
      let _ ← Subtensor.doAddStake cfg (.signed coldkey) hotkey netuid stakeToBeAdded
  | .doAddStakeLimit coldkey hotkey netuid stakeToBeAdded limitPrice allowPartial => do
      let _ ← Subtensor.doAddStakeLimit cfg (.signed coldkey) hotkey netuid stakeToBeAdded limitPrice allowPartial
  | .doRemoveStake coldkey hotkey netuid alphaUnstaked =>
      Subtensor.doRemoveStake cfg (.signed coldkey) hotkey netuid alphaUnstaked
  | .doRemoveStakeLimit coldkey hotkey netuid alphaUnstaked limitPrice allowPartial =>
      Subtensor.doRemoveStakeLimit cfg (.signed coldkey) hotkey netuid alphaUnstaked limitPrice allowPartial
  | .doUnstakeAllAlpha coldkey hotkey => Subtensor.doUnstakeAllAlpha cfg (.signed coldkey) hotkey
  | .transitionStakeInternal originColdkey destinationColdkey originHotkey destinationHotkey originNetuid
      destinationNetuid alphaAmount maybeLimitPrice maybeAllowPartial checkTransferToggle setLimit => do
      let _ ← Subtensor.transitionStakeInternal cfg originColdkey destinationColdkey originHotkey
        destinationHotkey originNetuid destinationNetuid alphaAmount maybeLimitPrice maybeAllowPartial
        checkTransferToggle setLimit
  | .doRegister coldkey netuid hotkey => Subtensor.doRegister cfg (.signed coldkey) netuid hotkey
  | .injectAndMaybeSwap subnetsToEmitTo taoIn alphaIn excessTao =>
      Subtensor.injectAndMaybeSwap cfg subnetsToEmitTo taoIn alphaIn excessTao

/-- What a successful call leaves over. -/
def leak (cfg : Config A B X R) (s : State A B X R) : TaoCall A → Int
  | .doAddStake coldkey _ netuid stakeToBeAdded =>
      purchaseLeak cfg s netuid (taken cfg s coldkey stakeToBeAdded) cfg.swapInterface.maxPrice false
  | .doAddStakeLimit coldkey _ netuid stakeToBeAdded limitPrice _ =>
      match getMaxAmountAdd cfg netuid limitPrice s with
      | .ok maxAmount t =>
          purchaseLeak cfg t netuid (taken cfg t coldkey (min stakeToBeAdded maxAmount)) limitPrice false
      | .error _ _ => 0
  | .doRemoveStake coldkey hotkey netuid alphaUnstaked =>
      removeLeak cfg s hotkey coldkey netuid (min alphaUnstaked (s.stakes.stake hotkey coldkey netuid))
        cfg.swapInterface.minPrice
  | .doRemoveStakeLimit coldkey hotkey netuid alphaUnstaked limitPrice _ =>
      match getMaxAmountRemove cfg netuid limitPrice s with
      | .ok maxAmount t => removeLeak cfg t hotkey coldkey netuid (min alphaUnstaked maxAmount) limitPrice
      | .error _ _ => 0
  | .doUnstakeAllAlpha coldkey hotkey =>
      match s.pools.allSubnetNetuids.foldlM (unstakeAllAlphaOn cfg hotkey coldkey) 0 s with
      | .ok total t => unstakeAllLeak cfg hotkey coldkey s.pools.allSubnetNetuids 0 s +
          purchaseLeak cfg t NetUid.root total cfg.swapInterface.maxPrice false
      | .error _ _ => 0
  | .transitionStakeInternal originColdkey _ originHotkey _ originNetuid destinationNetuid alphaAmount
      maybeLimitPrice _ _ _ =>
      let alpha := min alphaAmount (s.stakes.stake originHotkey originColdkey originNetuid)
      match transitionMaxAmount cfg originNetuid destinationNetuid alpha maybeLimitPrice s with
      | .ok maxAmount t =>
          if originNetuid ≠ destinationNetuid then
            transitionLeak cfg t originColdkey originHotkey originNetuid destinationNetuid (min alpha maxAmount)
          else 0
      | .error _ _ => 0
  | .doRegister _ _ _ => 0
  | .injectAndMaybeSwap subnetsToEmitTo taoIn alphaIn excessTao =>
      injectLeak cfg taoIn alphaIn excessTao subnetsToEmitTo s
end TaoCall

section Calls
variable {hotkey coldkey : A} {netuid : NetUid}
variable {priceLimit stakeToBeAdded limitPrice alphaUnstaked : Nat} {setLimit dropFees allowPartial : Bool}

theorem delegateFor_eq (s : State A B X R) (coldkey hotkey : A) :
    s.delegateFor cfg coldkey hotkey = { s with neurons := (s.delegateFor cfg coldkey hotkey).neurons } := by
  unfold State.delegateFor maybeBecomeDelegate
  split_ifs <;> rfl

section
variable (hexact : cfg.currency.Exact)
include hexact

/-- **Paying for stake.** -/
theorem withdraw_stake_imbalance {amount : Nat} :
    Leaks cfg s (removeBalanceFromColdkeyAccount cfg coldkey amount >>= fun tao =>
        stakeIntoSubnet cfg hotkey coldkey netuid tao priceLimit setLimit dropFees)
      (purchaseLeak cfg s netuid (taken cfg s coldkey amount) priceLimit dropFees) := by
  refine ends_bind.mpr ?_
  refine (removeBalance_imbalance hexact).weaken ?_
  rintro credit t ⟨rfl, himb, ht⟩
  refine (stakeIntoSubnet_imbalance hexact).weaken ?_
  intro _ s' hs'
  -- the pool and the author are as they were before the withdrawal
  have hleak : purchaseLeak cfg t netuid (taken cfg s coldkey amount) priceLimit dropFees =
      purchaseLeak cfg s netuid (taken cfg s coldkey amount) priceLimit dropFees := by
    rw [ht]
    rfl
  rw [hs', hleak, himb]
  ring

theorem doAddStake_imbalance : Leaks cfg s (doAddStake cfg (.signed coldkey) hotkey netuid stakeToBeAdded)
      ((TaoCall.doAddStake coldkey hotkey netuid stakeToBeAdded).leak cfg s) := by
  unfold doAddStake
  simp only [ends_bind, ends_get]
  simp only [ends_lift, ensureSigned, Except.ok.injEq, implies_true, and_true]
  rintro _ rfl _ _ _ _
  exact ends_bind.mp (withdraw_stake_imbalance hexact)

theorem doAddStakeLimit_imbalance :
    Leaks cfg s (doAddStakeLimit cfg (.signed coldkey) hotkey netuid stakeToBeAdded limitPrice allowPartial)
      ((TaoCall.doAddStakeLimit coldkey hotkey netuid stakeToBeAdded limitPrice allowPartial).leak cfg s) := by
  unfold doAddStakeLimit
  simp only [ends_bind, ends_get, ends_modify]
  simp only [ends_lift, ensureSigned, Except.ok.injEq, implies_true, and_true]
  rintro _ rfl
  refine getMaxAmount_ends.weaken_of_run ?_
  intro maxAmount t hrun ht _ _
  rw [delegateFor_eq]
  refine ends_bind.mp ((withdraw_stake_imbalance hexact).weaken ?_)
  intro _ s' hs'
  simp only [TaoCall.leak, getMaxAmountAdd, hrun]
  rw [hs', ← imbalance_swap ht]
  rfl

/-- One subnet of `do_unstake_all_alpha`: what was unstaked is not credited yet. -/
theorem unstakeAllAlphaOn_imbalance {total : Nat} : Returns (unstakeAllAlphaOn cfg hotkey coldkey total netuid) s
      (fun total' s' => imbalance cfg s' = imbalance cfg s + total' - total +
        if unstakesAlphaOn cfg s hotkey coldkey netuid then
          unstakeLeak cfg s hotkey coldkey netuid (s.stakes.stake hotkey coldkey netuid) cfg.swapInterface.minPrice
            fun _ t => t
        else 0) := by
  unfold unstakeAllAlphaOn
  simp only [ends_bind, ends_get]
  by_cases hunstakes : unstakesAlphaOn cfg s hotkey coldkey netuid = true
  · simp only [if_pos hunstakes, ends_bind, ends_pure]
    refine (unstakeFromSubnet_imbalance hexact).weaken_of_run ?_
    intro tao t hrun ht
    refine (clearSmallNomination_imbalance hexact).weaken ?_
    intro _ s' hs'
    simp only [unstakeLeak, hrun]
    rw [hs', ht]
    push_cast
    ring
  · simp only [if_neg hunstakes, ends_pure]
    ring

/-- **The loop of `do_unstake_all_alpha`**: the invariant is the difference with what the remaining subnets
    will leave over, less what is unstaked so far. -/
theorem unstakeAll_imbalance (netuids : List NetUid) :
    Returns (netuids.foldlM (unstakeAllAlphaOn cfg hotkey coldkey) 0) s
      (fun total s' => imbalance cfg s' = imbalance cfg s + total + unstakeAllLeak cfg hotkey coldkey netuids 0 s) := by
  refine (ends_foldlM (E := fun _ _ => True) (I := fun rest total t =>
    imbalance cfg t - total + unstakeAllLeak cfg hotkey coldkey rest total t =
      imbalance cfg s + unstakeAllLeak cfg hotkey coldkey netuids 0 s) ?_ (by simp)).weaken ?_
  · intro netuid rest total t hinv
    refine (unstakeAllAlphaOn_imbalance hexact).weaken_of_run ?_
    intro total' t' hrun ht'
    rw [← hinv, ht']
    simp only [unstakeAllLeak, hrun]
    ring
  · intro total t hinv
    simp only [unstakeAllLeak] at hinv
    linarith

theorem doUnstakeAllAlpha_imbalance : Leaks cfg s (doUnstakeAllAlpha cfg (.signed coldkey) hotkey)
      ((TaoCall.doUnstakeAllAlpha coldkey hotkey).leak cfg s) := by
  unfold doUnstakeAllAlpha
  simp only [ends_bind, ends_get, ends_lift_ensure, ends_pure, implies_true, and_true]
  simp only [ends_lift, ensureSigned, Except.ok.injEq, implies_true, and_true]
  -- the loop leaves its total over, and the purchase on root takes it
  rintro _ rfl _
  refine (unstakeAll_imbalance hexact _).weaken_of_run ?_
  intro total t hrun ht
  refine (stakeIntoSubnet_imbalance hexact).weaken ?_
  intro _ s' hs'
  simp only [TaoCall.leak, hrun]
  rw [hs', ht]
  ring

theorem transition_imbalance {originColdkey destinationColdkey originHotkey destinationHotkey : A}
    {originNetuid destinationNetuid : NetUid} {alphaAmount : Nat} {maybeLimitPrice : Option Nat}
    {maybeAllowPartial : Option Bool} {checkTransferToggle : Bool} :
    Leaks cfg s (transitionStakeInternal cfg originColdkey destinationColdkey originHotkey destinationHotkey originNetuid
        destinationNetuid alphaAmount maybeLimitPrice maybeAllowPartial checkTransferToggle setLimit)
      ((TaoCall.transitionStakeInternal originColdkey destinationColdkey originHotkey destinationHotkey
        originNetuid destinationNetuid alphaAmount maybeLimitPrice maybeAllowPartial checkTransferToggle setLimit).leak
        cfg s) := by
  unfold transitionStakeInternal
  simp only [ends_bind, ends_get]
  simp only [ends_lift, implies_true, and_true]
  refine transitionMaxAmount_ends.weaken_of_run ?_
  intro maxAmount t hrun ht _ _
  simp only [TaoCall.leak, hrun]
  by_cases hsame : originNetuid ≠ destinationNetuid
  · simp only [if_pos hsame, ends_bind, ends_ite, ends_modify, ends_pure]
    refine (unstakeFromSubnet_imbalance hexact).weaken_of_run ?_
    intro tao u hunstake hu
    simp only [transitionLeak, hunstake]
    refine ⟨fun henough => ?_, fun hlow => ?_⟩
    -- staked again at the destination
    · rw [delegateFor_eq, if_pos henough]
      refine (stakeIntoSubnet_imbalance hexact).weaken ?_
      intro _ s' hs'
      have hleak : imbalance cfg s' = imbalance cfg u - tao +
          purchaseLeak cfg u destinationNetuid tao cfg.swapInterface.maxPrice !decide (originNetuid = NetUid.root) := hs'
      rw [hleak, hu, imbalance_swap ht]
      ring
    -- neither staked nor paid to anybody
    · rw [if_neg hlow, hu, imbalance_swap ht]
      ring
  · simp only [if_neg hsame, Int.add_zero]
    refine transferStakeWithinSubnet_ends.weaken ?_
    rintro _ s' ⟨-, -, htotals, hledger, -⟩
    exact (imbalance_congr htotals hledger).trans (imbalance_swap ht)
end

theorem registerNeuron_imbalance :
    Returns (registerNeuron cfg netuid hotkey) s (fun _ s' => imbalance cfg s' = imbalance cfg s) := by
  unfold registerNeuron
  simp only [ends_bind, ends_get, ends_ite, ends_set, ends_lift_okOr, implies_true, and_true]
  refine ⟨fun _ => imbalance_congr rfl rfl, fun _ uid _ => ?_⟩
  unfold State.replaceNeuron
  split
  · rfl
  · split_ifs <;> exact imbalance_congr rfl rfl

theorem createAccount_imbalance : imbalance cfg (s.createAccountIfNonExistent coldkey hotkey) = imbalance cfg s := by
  unfold State.createAccountIfNonExistent
  split_ifs <;> exact imbalance_congr rfl rfl

/-- **Registering** pays for alpha that is recycled, and no author is paid. -/
theorem doRegister_imbalance (hexact : cfg.currency.Exact) :
    Returns (doRegister cfg (.signed coldkey) netuid hotkey) s (fun _ s' => imbalance cfg s' = imbalance cfg s) := by
  unfold doRegister
  simp only [ends_bind, ends_get, ends_modify, ends_lift_ensure, implies_true, and_true]
  simp only [ends_lift, ensureSigned, Except.ok.injEq, implies_true, and_true]
  rintro _ rfl _ _ _ _ _ _ _ _
  refine (removeBalance_imbalance hexact).weaken ?_
  rintro credit t ⟨-, ht, -⟩
  refine swapTaoForAlpha_ends.weaken ?_
  rintro r u ⟨-, rfl⟩
  refine registerNeuron_imbalance.weaken ?_
  intro _ v hv
  -- the credit that was withdrawn is what `TotalStake` grows by
  calc imbalance cfg _ = imbalance cfg v := imbalance_congr rfl rfl
    _ = imbalance cfg (t.bought cfg netuid credit cfg.swapInterface.maxPrice false r) :=
      hv.trans (imbalance_congr rfl rfl)
    _ = imbalance cfg t - credit := by
      unfold imbalance State.bought
      push_cast
      ring
    _ = imbalance cfg s := by
      rw [ht, createAccount_imbalance]
      ring

section Coinbase
variable {taoIn alphaIn excessTao : StorageMap NetUid U96F32}

section
omit [DecidableEq A]

/-- One subnet of the coinbase: the liquidity put in counts as issued and as stake, the excess as issued. -/
theorem injectOn_imbalance :
    Leaks cfg s (injectOn cfg taoIn alphaIn excessTao netuid) (excessLeak cfg s taoIn alphaIn excessTao netuid) := by
  unfold injectOn excessLeak
  simp only [ends_bind, ends_modify, ends_ite, ends_attempt]
  refine ⟨fun hexcess => ?_, fun hnone => ?_⟩
  · refine swapTaoForAlpha_ends.mono ?_ ?_
    -- the excess is issued and counts as stake
    · rintro r t ⟨hr, rfl⟩
      simp only [hr]
      unfold imbalance State.bought
      push_cast
      ring
    -- the swap failed, and the excess is issued all the same
    · rintro e t ⟨he, ht⟩
      simp only [he]
      rw [ht]
      unfold imbalance
      push_cast
      ring
  · have hzero : emissionOf excessTao netuid = 0 := by omega
    unfold imbalance
    simp only [hzero]
    split <;> push_cast <;> ring

/-- **The coinbase**: the invariant is the difference with what the remaining subnets will leave over. -/
theorem injectAndMaybeSwap_imbalance (subnetsToEmitTo : List NetUid) :
    Leaks cfg s (injectAndMaybeSwap cfg subnetsToEmitTo taoIn alphaIn excessTao)
      (injectLeak cfg taoIn alphaIn excessTao subnetsToEmitTo s) := by
  refine (ends_forM (E := fun _ _ => True) (I := fun rest t =>
    imbalance cfg t + injectLeak cfg taoIn alphaIn excessTao rest t =
      imbalance cfg s + injectLeak cfg taoIn alphaIn excessTao subnetsToEmitTo s) ?_ rfl).weaken ?_
  · intro netuid rest t hinv
    refine injectOn_imbalance.weaken_of_run ?_
    intro _ t' hrun ht'
    rw [← hinv, ht']
    simp only [injectLeak, hrun]
    ring
  · intro _ t hinv
    rw [← hinv]
    simp only [injectLeak, Int.add_zero]
end
end Coinbase
end Calls

/-- Every call changes the difference by what it leaves over. -/
theorem TaoCall.run_imbalance (hexact : cfg.currency.Exact) (call : TaoCall A) :
    Leaks cfg s (call.run cfg) (call.leak cfg s) := by
  cases call with
  | doAddStake => exact ends_bind.mpr (doAddStake_imbalance hexact)
  | doAddStakeLimit => exact ends_bind.mpr (doAddStakeLimit_imbalance hexact)
  | doRemoveStake =>
    unfold TaoCall.run Subtensor.doRemoveStake
    simp only [ends_bind, ends_get]
    simp only [ends_lift, ensureSigned, Except.ok.injEq, implies_true, and_true]
    rintro _ rfl _ _ _ _
    exact ends_bind.mp (unstake_credit_imbalance hexact)
  | doRemoveStakeLimit =>
    unfold TaoCall.run Subtensor.doRemoveStakeLimit
    simp only [ends_bind, ends_get]
    simp only [ends_lift, ensureSigned, Except.ok.injEq, implies_true, and_true]
    rintro _ rfl
    refine getMaxAmount_ends.weaken_of_run ?_
    intro maxAmount t hrun ht _ _
    refine ends_bind.mp ((unstake_credit_imbalance hexact).weaken ?_)
    intro _ s' hs'
    simp only [TaoCall.leak, getMaxAmountRemove, hrun]
    rw [hs', imbalance_swap ht]
  | doUnstakeAllAlpha => exact doUnstakeAllAlpha_imbalance hexact
  | transitionStakeInternal => exact ends_bind.mpr (transition_imbalance hexact)
  | doRegister =>
    refine (doRegister_imbalance hexact).weaken ?_
    intro _ s' hs'
    rw [hs', TaoCall.leak, Int.add_zero]
  | injectAndMaybeSwap => exact injectAndMaybeSwap_imbalance _

/-! ## Runs -/

namespace TaoCall

/-- A call that fails is rolled back. -/
def exec (cfg : Config A B X R) (s : State A B X R) (call : TaoCall A) : State A B X R :=
  match call.run cfg s with
  | .ok _ s'   => s'
  | .error _ _ => s

/-- What the successful calls of a run leave over. -/
def drift (cfg : Config A B X R) (s : State A B X R) : List (TaoCall A) → Int
  | [] => 0
  | call :: calls =>
      (match call.run cfg s with
        | .ok _ _    => call.leak cfg s
        | .error _ _ => 0) + drift cfg (call.exec cfg s) calls
end TaoCall

theorem imbalance_exec (hexact : cfg.currency.Exact) (call : TaoCall A) :
    imbalance cfg (call.exec cfg s) = imbalance cfg s + match call.run cfg s with
      | .ok _ _    => call.leak cfg s
      | .error _ _ => 0 := by
  have hends := call.run_imbalance (s := s) hexact
  unfold TaoCall.exec
  cases hrun : call.run cfg s with
  | ok _ s' => exact of_ends (Q := fun _ s' => imbalance cfg s' = imbalance cfg s + call.leak cfg s) hends hrun
  | error _ _ => exact (Int.add_zero _).symm

/-- **Over a run** the difference moves by the sum of what its successful calls leave over. -/
theorem imbalance_run (hexact : cfg.currency.Exact) (calls : List (TaoCall A)) :
    imbalance cfg (calls.foldl (TaoCall.exec cfg) s) = imbalance cfg s + TaoCall.drift cfg s calls := by
  induction calls generalizing s with
  | nil => exact (Int.add_zero _).symm
  | cons call calls ih =>
    rw [List.foldl_cons, ih, imbalance_exec hexact, TaoCall.drift]
    ring

namespace Sample

/-- Coldkey 0 has 5000000 alpha on its hotkey 1 and subnet 1. -/
def staked : State Account (Account → Nat) Unit Unit :=
  let s := fresh.createAccountIfNonExistent 0 1
  { s with
    stakes := s.stakes.increase 1 0 1 5000000
    totals := { totalStake := 5000000, totalIssuance := 45000000 } }

def remove : TaoCall Account := .doRemoveStake 0 1 1 4000000

def add : TaoCall Account := .doAddStake 0 1 1 5000000
end Sample
open Sample

/-- Unstaking pays the author with stake that is sold for it, and staking with TAO that counts as stake already. -/
theorem imbalance_run_both : imbalance config ([remove, add].foldl (TaoCall.exec config) staked) =
    imbalance config staked + TaoCall.drift config staked [remove, add] ∧
      TaoCall.drift config staked [remove, add] = -50000 :=
  ⟨imbalance_run currency_exact _, by decide⟩
end Qubitum.Subtensor
