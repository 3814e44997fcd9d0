import Qubitum.Swap.Rollback

/-!
# `TransactionFee.AlphaFees` — transaction fees that are paid in alpha

A signer who cannot pay a fee in TAO pays it by selling stake, for the calls that turn alpha into TAO anyway. How much
is sold is the fee at the current price, rounded down; if that is nothing, it is **all** the stake.

The sale is `unstake_from_subnet`. It takes the stake first and then goes to the pool, and here its error is dropped
outside of any transaction: what was written before the error stays (`unstakeFromSubnet_stakes`).
-/

namespace Qubitum.Subtensor.TransactionFee
open Fixed Outcome Mutation

variable {A B X R : Type} {netuid : NetUid}

/-! ## Model -/

/-- The calls by what the fees look at. -/
inductive FeeCall (A : Type) where
  | removeStake (hotkey : A) (netuid : NetUid)
  | removeStakeLimit (hotkey : A) (netuid : NetUid)
  | removeStakeFullLimit (hotkey : A) (netuid : NetUid)
  | unstakeAll (hotkey : A)
  | unstakeAllAlpha (hotkey : A)
  | moveStake (originHotkey : A) (originNetuid : NetUid)
  | transferStake (hotkey : A) (originNetuid : NetUid)
  | swapStake (hotkey : A) (originNetuid : NetUid)
  | swapStakeLimit (hotkey : A) (originNetuid : NetUid)
  | recycleAlpha (hotkey : A) (netuid : NetUid)
  | burnAlpha (hotkey : A) (netuid : NetUid)
  | other

inductive InvalidTransaction where
  | payment
  deriving DecidableEq

inductive WithdrawnFee where
  | tao (amount : Nat)
  | alpha (alphaFee taoAmount : Nat) (netuid : NetUid)
  deriving DecidableEq

/-- The balances pallet, for fees. -/
structure FeeCurrency (A B : Type) where
  /-- `can_withdraw` is `Success` -/
  canWithdraw : B → A → Nat → Bool
  /-- `withdraw(who, fee, Exact, Preserve, Polite)` -/
  withdraw : B → A → Nat → Option B

section Model
variable [DecidableEq A] (cfg : Config A B X R) (fees : FeeCurrency A B) (s : State A B X R)

def getAllNetuidsForColdkeyAndHotkey (coldkey hotkey : A) : List NetUid :=
  (s.pools.allSubnetNetuids.filter cfg.subtokenEnabled).filter fun netuid => s.stakes.stake hotkey coldkey netuid ≠ 0

def feesInAlpha (who : A) : FeeCall A → List (A × NetUid)
  | .removeStake hotkey netuid | .removeStakeLimit hotkey netuid | .removeStakeFullLimit hotkey netuid
  | .moveStake hotkey netuid | .transferStake hotkey netuid | .swapStake hotkey netuid | .swapStakeLimit hotkey netuid
  | .recycleAlpha hotkey netuid | .burnAlpha hotkey netuid => [(hotkey, netuid)]
  | .unstakeAll hotkey | .unstakeAllAlpha hotkey =>
    (getAllNetuidsForColdkeyAndHotkey cfg s who hotkey).map fun netuid => (hotkey, netuid)
  | .other => []

/-- `get_alpha_amount_for_tao`: at the current price, rounded down. -/
def getAlphaAmountForTao (netuid : NetUid) (taoAmount : Nat) : Nat :=
  if s.pools.subnetMechanism netuid = 1 then
    ((UFixed.ofNat taoAmount).safeDiv (cfg.swapInterface.currentAlphaPrice s.swap s.pools netuid)).toU64
  else taoAmount

def canWithdrawInAlpha (coldkey : A) (alphaVec : List (A × NetUid)) (taoAmount : Nat) : Bool :=
  match alphaVec with
  | [(hotkey, netuid)] => getAlphaAmountForTao cfg s netuid taoAmount ≤ s.stakes.stake hotkey coldkey netuid
  | _ => false

/-- What `withdraw_in_alpha` sells. -/
def alphaFee (hotkey coldkey : A) (netuid : NetUid) (taoAmount : Nat) : Nat :=
  let alphaBalance := s.stakes.stake hotkey coldkey netuid
  let alphaEquivalent := getAlphaAmountForTao cfg s netuid taoAmount
  min (if alphaEquivalent = 0 then alphaBalance else alphaEquivalent) alphaBalance

def withdrawInAlpha (coldkey : A) (alphaVec : List (A × NetUid)) (taoAmount : Nat) :
    Run A B X R (Nat × Nat × NetUid) := do
  match alphaVec with
  | [(hotkey, netuid)] =>
    let fee := alphaFee cfg (← get) hotkey coldkey netuid taoAmount
    match ← attempt (unstakeFromSubnet cfg hotkey coldkey netuid fee 0 true) with
    | .ok taoAmount => return (fee, taoAmount, netuid)
    | .error _ => return (0, 0, NetUid.root)
  | _ => return (0, 0, NetUid.root)

def canWithdrawFee (who : A) (call : FeeCall A) (fee : Nat) : Except InvalidTransaction Unit :=
  if fee = 0 then .ok ()
  else if fees.canWithdraw s.ledger who fee then .ok ()
  else if canWithdrawInAlpha cfg s who (feesInAlpha cfg s who call) fee then .ok ()
  else .error .payment

/-- What it has written is kept when it returns `Ok`. -/
def withdrawFee (who : A) (call : FeeCall A) (fee : Nat) :
    Run A B X R (Except InvalidTransaction (Option WithdrawnFee)) := do
  if fee = 0 then return .ok none
  else
    let s ← get
    match fees.withdraw s.ledger who fee with
    | some ledger =>
      set { s with ledger }
      return .ok (some (.tao fee))
    | none =>
      let alphaVec := feesInAlpha cfg s who call
      if alphaVec = [] then return .error .payment
      else
        let (alphaFee, taoAmount, netuid) ← withdrawInAlpha cfg who alphaVec fee
        return .ok (some (.alpha alphaFee taoAmount netuid))
end Model

/-! ## The sale and its remains -/

section Sale
variable [DecidableEq A] {cfg : Config A B X R} {s : State A B X R} {hotkey coldkey : A} {alpha priceLimit : Nat}
  {dropFees : Bool}

/-- The stakes after a sale for which the pool gave `r`: what it did not take is given back. -/
def soldStakes (s : State A B X R) (hotkey coldkey : A) (netuid : NetUid) (alpha : Nat) (r : SwapResult) : Stakes A :=
  if unsold alpha r = 0 then s.stakes.decrease hotkey coldkey netuid alpha
  else (s.stakes.decrease hotkey coldkey netuid alpha).increase hotkey coldkey netuid (unsold alpha r)

/-- Whether the share of the author can be sold after the rest was: there is no author, or the pool takes it. -/
def AuthorSells (cfg : Config A B X R) (s : State A B X R) (netuid : NetUid) (alpha priceLimit : Nat) (dropFees : Bool)
    (r : SwapResult) : Prop :=
  s.author = none ∨ ∃ r', (s.sold cfg netuid alpha priceLimit dropFees r).soldAt cfg netuid r.feeToBlockAuthor
    cfg.swapInterface.minPrice true = .ok r'

/-- The state after the pool took an order and refused the share of the author. -/
def authorRefused (cfg : Config A B X R) (s : State A B X R) (netuid : NetUid) (alpha priceLimit : Nat)
    (dropFees : Bool) (r : SwapResult) : State A B X R :=
  let t := s.sold cfg netuid alpha priceLimit dropFees r
  { t with swap := (t.pool cfg netuid (.getTaoForAlpha r.feeToBlockAuthor) r.feeToBlockAuthor
      cfg.swapInterface.minPrice true).2 }

/-- The stake is taken before the pool is asked, and an error of the pool leaves it taken. -/
theorem unstakeFromSubnet_stakes : Ends (unstakeFromSubnet cfg hotkey coldkey netuid alpha priceLimit dropFees) s
      (fun tao s' => ∃ r, s.soldAt cfg netuid alpha priceLimit dropFees = .ok r ∧ tao = r.amountPaidOut ∧
        AuthorSells cfg s netuid alpha priceLimit dropFees r ∧ s'.stakes = soldStakes s hotkey coldkey netuid alpha r)
      (fun _ s' => (∃ e, s.soldAt cfg netuid alpha priceLimit dropFees = .error e ∧ s' = { s with
          stakes := s.stakes.decrease hotkey coldkey netuid alpha
          swap := (s.pool cfg netuid (.getTaoForAlpha alpha) alpha priceLimit dropFees).2 }) ∨
        ∃ r, s.soldAt cfg netuid alpha priceLimit dropFees = .ok r ∧
          ¬ AuthorSells cfg s netuid alpha priceLimit dropFees r ∧
          s' = { authorRefused cfg s netuid alpha priceLimit dropFees r with
            stakes := soldStakes s hotkey coldkey netuid alpha r }) := by
  unfold unstakeFromSubnet
  simp only [ends_bind, ends_modify, ends_pure]
  refine swapAlphaForTao_ends.mono ?_ ?_
  · rintro r t ⟨hr, rfl⟩
    refine payAuthorAlpha_ends.mono ?_ ?_
    · rintro _ t' ⟨hpaid, ht'⟩
      refine ⟨r, hr, rfl, hpaid.sells, ?_⟩
      rw [ht']
      rfl
    · rintro e t' ⟨hauthor, he, ht'⟩
      refine .inr ⟨r, hr, ?_, ht'⟩
      rintro (hnone | ⟨r', hr'⟩)
      · rw [show s.author = none from hnone] at hauthor
        cases hauthor
      · cases he.symm.trans hr'
  · rintro e t ⟨he, rfl⟩
    exact .inl ⟨e, he, rfl⟩

variable {h c : A} {n : NetUid} {r : SwapResult}

/-- The stake that was sold falls by what the pool took, and no other changes. -/
theorem stake_soldStakes (hle : alpha ≤ s.stakes.stake hotkey coldkey netuid) :
    (soldStakes s hotkey coldkey netuid alpha r).stake h c n =
      s.stakes.stake h c n - if h = hotkey ∧ c = coldkey ∧ n = netuid then alpha - unsold alpha r else 0 := by
  have hunsold : unsold alpha r ≤ alpha := Nat.sub_le _ _
  unfold soldStakes
  by_cases hkey : h = hotkey ∧ c = coldkey ∧ n = netuid
  · rw [if_pos hkey]
    obtain ⟨rfl, rfl, rfl⟩ := hkey
    split_ifs with hfull
    · rw [Stakes.stake_decrease, if_pos ⟨rfl, rfl, rfl, hle⟩, hfull, Nat.sub_zero]
    · rw [Stakes.stake_increase, Stakes.stake_decrease, if_pos ⟨rfl, rfl, rfl, hle⟩, if_pos ⟨rfl, rfl, rfl⟩]
      omega
  · have hother : ¬ (h = hotkey ∧ c = coldkey ∧ n = netuid ∧ alpha ≤ s.stakes.stake h c n) :=
      fun hall => hkey ⟨hall.1, hall.2.1, hall.2.2.1⟩
    rw [if_neg hkey]
    split_ifs
    · rw [Stakes.stake_decrease, if_neg hother, Nat.sub_zero]
    · rw [Stakes.stake_increase, Stakes.stake_decrease, if_neg hother, if_neg hkey, Nat.sub_zero, Nat.add_zero]

theorem alphaFee_le (cfg : Config A B X R) (s : State A B X R) (hotkey coldkey : A) (netuid : NetUid) (tao : Nat) :
    alphaFee cfg s hotkey coldkey netuid tao ≤ s.stakes.stake hotkey coldkey netuid := Nat.min_le_right _ _

/-! ## Reports -/

/-- The reserves, `TotalStake` and the storage of the swap pallet are the same. -/
structure SameBooks (s s' : State A B X R) : Prop where
  alphaIn : s'.pools.subnetAlphaIn = s.pools.subnetAlphaIn
  alphaOut : s'.pools.subnetAlphaOut = s.pools.subnetAlphaOut
  tao : s'.pools.subnetTao = s.pools.subnetTao
  totalStake : s'.totals.totalStake = s.totals.totalStake
  swap : s'.swap = s.swap

/-- A charge that reports nothing has changed nothing, and one that reports alpha has taken it. -/
structure Honest (coldkey : A) (alphaVec : List (A × NetUid)) (s s' : State A B X R) (report : Nat × Nat × NetUid) :
    Prop where
  nothing : report = (0, 0, NetUid.root) → (∀ h c n, s'.stakes.stake h c n = s.stakes.stake h c n) ∧ SameBooks s s'
  exact : report ≠ (0, 0, NetUid.root) → ∃ hotkey, (hotkey, report.2.2) ∈ alphaVec ∧
    s'.stakes.stake hotkey coldkey report.2.2 + report.1 = s.stakes.stake hotkey coldkey report.2.2

/-- What `withdraw_in_alpha` does with one entry. -/
theorem withdrawInAlpha_one {tao fee : Nat} (hfee : alphaFee cfg s hotkey coldkey netuid tao = fee) :
    Ends (withdrawInAlpha cfg coldkey [(hotkey, netuid)] tao) s
      (fun report s' =>
        (∃ r, s.soldAt cfg netuid fee 0 true = .ok r ∧ AuthorSells cfg s netuid fee 0 true r ∧
          report = (fee, r.amountPaidOut, netuid) ∧ s'.stakes = soldStakes s hotkey coldkey netuid fee r ∧
          unstakeFromSubnet cfg hotkey coldkey netuid fee 0 true s = .ok r.amountPaidOut s') ∨
        report = (0, 0, NetUid.root) ∧
          ((∃ e, s.soldAt cfg netuid fee 0 true = .error e ∧ s' = { s with
              stakes := s.stakes.decrease hotkey coldkey netuid fee
              swap := (s.pool cfg netuid (.getTaoForAlpha fee) fee 0 true).2 }) ∨
            ∃ r, s.soldAt cfg netuid fee 0 true = .ok r ∧ ¬ AuthorSells cfg s netuid fee 0 true r ∧
              s' = { authorRefused cfg s netuid fee 0 true r with stakes := soldStakes s hotkey coldkey netuid fee r }))
      (fun _ _ => False) := by
  subst hfee
  unfold withdrawInAlpha
  simp only [ends_bind, ends_get, ends_attempt]
  refine unstakeFromSubnet_stakes.mono_of_run ?_ ?_
  · rintro _ s' hrun ⟨r, hr, rfl, hauthor, hstakes⟩
    exact .inl ⟨r, hr, hauthor, rfl, hstakes, hrun⟩
  · rintro e s' - hfailed
    exact .inr ⟨rfl, hfailed⟩

/-- An order of nothing at a stable price writes nothing. -/
theorem unstake_nothing (hstable : s.pools.subnetMechanism netuid ≠ 1) :
    Returns (unstakeFromSubnet cfg hotkey coldkey netuid 0 0 true) s (fun _ s' => SameBooks s s') := by
  unfold unstakeFromSubnet swapAlphaForTao payAuthorAlpha
  simp only [ends_bind, ends_get, ends_modify, ends_pure, if_neg hstable]
  cases hauthor : s.author with
  | none =>
    constructor <;> simp [Pools.sold, SwapResult.stable, Pools.recordTaoFlow, SwapResult.paidInReserveDelta,
      SwapResult.paidOutReserveDelta]
  | some author =>
    simp only [ends_bind, ends_modify, ends_pure]
    refine swapAlphaForTao_ends.mono ?_ fun _ _ _ => trivial
    rintro r t ⟨hr, rfl⟩
    simp only [State.soldAt, State.pool, Pools.sold, hstable, if_false] at hr
    cases hr
    constructor <;> simp [State.sold, State.pool, hstable, Pools.sold, SwapResult.stable, Pools.recordTaoFlow,
      SwapResult.paidInReserveDelta, SwapResult.paidOutReserveDelta, addBalanceToColdkeyAccount]
end Sale

/-! ## What is reported -/

/-- **When a charge is reported exactly**, for one entry: a sale that the pool refuses must have taken nothing; a sale
    that it takes must be sold in full; and if it then refuses the share of the author, which hides the sale from the
    report, that must have moved nothing. -/
theorem alpha_fee_reported [DecidableEq A] (cfg : Config A B X R) (coldkey : A) (alphaVec : List (A × NetUid))
    (tao : Nat) (s s' : State A B X R) (report : Nat × Nat × NetUid)
    (hroot : s.pools.subnetMechanism NetUid.root ≠ 1)
    (hrun : withdrawInAlpha cfg coldkey alphaVec tao s = .ok report s') :
    (alphaVec.length ≠ 1 → Honest coldkey alphaVec s s' report) ∧
      ∀ hotkey netuid, alphaVec = [(hotkey, netuid)] →
        let fee := alphaFee cfg s hotkey coldkey netuid tao
        (∀ e, s.soldAt cfg netuid fee 0 true = .error e → (Honest coldkey alphaVec s s' report ↔
          fee = 0 ∧ (s.pool cfg netuid (.getTaoForAlpha fee) fee 0 true).2 = s.swap)) ∧
        ∀ r, s.soldAt cfg netuid fee 0 true = .ok r →
          (AuthorSells cfg s netuid fee 0 true r → (Honest coldkey alphaVec s s' report ↔ unsold fee r = 0)) ∧
          (¬ AuthorSells cfg s netuid fee 0 true r → (Honest coldkey alphaVec s s' report ↔
            unsold fee r = fee ∧ SameBooks s (authorRefused cfg s netuid fee 0 true r))) := by
  refine ⟨fun hlength => ?_, ?_⟩
  · have hnothing : report = (0, 0, NetUid.root) ∧ s' = s := by
      rcases alphaVec with _ | ⟨_, _ | ⟨_, _⟩⟩
      · cases hrun
        exact ⟨rfl, rfl⟩
      · exact absurd rfl hlength
      · cases hrun
        exact ⟨rfl, rfl⟩
    obtain ⟨rfl, rfl⟩ := hnothing
    exact ⟨fun _ => ⟨fun _ _ _ => rfl, rfl, rfl, rfl, rfl, rfl⟩, fun hne => absurd rfl hne⟩
  rintro hotkey netuid rfl
  have hle := alphaFee_le cfg s hotkey coldkey netuid tao
  have hends := of_ends (withdrawInAlpha_one rfl) hrun
  generalize alphaFee cfg s hotkey coldkey netuid tao = fee at hle hends ⊢
  have hunsold : ∀ r, unsold fee r ≤ fee := fun r => Nat.sub_le _ _
  rcases hends with ⟨r, hr, hauthor, rfl, hstakes, hsale⟩ | ⟨rfl, ⟨e, he, rfl⟩ | ⟨r, hr, hauthor, rfl⟩⟩
  · -- the sale is reported
    refine ⟨fun e he => (by cases hr.symm.trans he), fun r' hr' => ?_⟩
    cases hr.symm.trans hr'
    refine ⟨fun _ => ?_, fun hrefused => absurd hauthor hrefused⟩
    by_cases hnothing : (fee, r.amountPaidOut, netuid) = (0, 0, NetUid.root)
    · obtain ⟨rfl, -, rfl⟩ : fee = 0 ∧ r.amountPaidOut = 0 ∧ netuid = NetUid.root := by simpa using hnothing
      have hbooks : SameBooks s s' := of_ends (Q := fun _ s' => SameBooks s s') (unstake_nothing hroot) hsale
      refine ⟨fun _ => Nat.le_zero.mp (hunsold r), fun _ => ⟨fun _ => ⟨?_, hbooks⟩, ?_⟩⟩
      · intro h c n
        rw [hstakes, stake_soldStakes hle, Nat.zero_sub, ite_self, Nat.sub_zero]
      · exact fun hne => absurd hnothing hne
    · have hstake : s'.stakes.stake hotkey coldkey netuid = s.stakes.stake hotkey coldkey netuid - (fee - unsold fee r) := by
        rw [hstakes, stake_soldStakes hle, if_pos ⟨rfl, rfl, rfl⟩]
      have hle' := hunsold r
      refine ⟨fun hhonest => ?_, fun hfull => ⟨fun heq => absurd heq hnothing, fun _ => ?_⟩⟩
      · obtain ⟨hotkey', hmem, hexact⟩ := hhonest.exact hnothing
        cases List.mem_singleton.mp hmem
        dsimp only at hexact
        omega
      · exact ⟨hotkey, List.mem_singleton.mpr rfl, by dsimp only; omega⟩
  · -- the pool refused it
    refine ⟨fun e' _ => ⟨fun hhonest => ?_, fun ⟨hzero, hswap⟩ => ?_⟩, fun r hr => (by cases he.symm.trans hr)⟩
    · obtain ⟨hsame, hbooks⟩ := hhonest.nothing rfl
      have hstake := hsame hotkey coldkey netuid
      rw [Stakes.stake_decrease, if_pos ⟨rfl, rfl, rfl, hle⟩] at hstake
      exact ⟨by omega, hbooks.swap⟩
    · subst hzero
      refine ⟨fun _ => ⟨fun h c n => ?_, rfl, rfl, rfl, rfl, hswap⟩, fun hne => absurd rfl hne⟩
      rw [Stakes.stake_decrease, Nat.sub_zero, ite_self]
  · -- it refused the share of the author
    refine ⟨fun e he => (by cases hr.symm.trans he), fun r' hr' => ?_⟩
    cases hr.symm.trans hr'
    refine ⟨fun hsells => absurd hsells hauthor, fun _ => ⟨fun hhonest => ?_, fun ⟨hall, hbooks⟩ => ?_⟩⟩
    · obtain ⟨hsame, hbooks⟩ := hhonest.nothing rfl
      have hstake := hsame hotkey coldkey netuid
      rw [stake_soldStakes hle, if_pos ⟨rfl, rfl, rfl⟩] at hstake
      have hle' := hunsold r
      exact ⟨by omega, hbooks.alphaIn, hbooks.alphaOut, hbooks.tao, hbooks.totalStake, hbooks.swap⟩
    · refine ⟨fun _ => ⟨fun h c n => ?_, hbooks.alphaIn, hbooks.alphaOut, hbooks.tao, hbooks.totalStake, hbooks.swap⟩,
        fun hne => absurd rfl hne⟩
      rw [stake_soldStakes hle, hall, Nat.sub_self, ite_self, Nat.sub_zero]

namespace Sample

abbrev Chain :=
  State Subtensor.Sample.Account (Subtensor.Sample.Account → Nat) (Swap.Storage Subtensor.Sample.Account) Unit

/-- A subnet with these reserves, on which account 2 has stake with hotkey 1. -/
def staked (tao alpha : Nat) : Chain :=
  let s := Swap.Sample.reserves tao alpha
  { s with stakes := s.stakes.increase 1 2 1 50000 }

/-- Alpha costs two TAO. -/
def atTwo : Chain := staked 2000000000 1000000000

/-- There is less TAO than a swap needs. -/
def drained : Chain := staked 500000 1000000000

/-- An account that has no TAO. -/
def penniless : FeeCurrency Subtensor.Sample.Account (Subtensor.Sample.Account → Nat) :=
  ⟨fun _ _ _ => false, fun _ _ _ => none⟩
end Sample
open TransactionFee.Sample

/-- A fee of 1000 is 500 alpha, all of which the pool takes. -/
theorem sale : alphaFee Swap.Sample.staking atTwo 1 2 1 1000 = 500 ∧
    ∃ r, atTwo.soldAt Swap.Sample.staking 1 500 0 true = .ok r ∧ unsold 500 r = 0 := by
  have hsold : (atTwo.soldAt Swap.Sample.staking 1 500 0 true).toOption.map (unsold 500) = some 0 := by
    decide +kernel
  refine ⟨by decide +kernel, ?_⟩
  cases hr : atTwo.soldAt Swap.Sample.staking 1 500 0 true with
  | error e => rw [hr] at hsold; cases hsold
  | ok r => rw [hr] at hsold; exact ⟨r, rfl, Option.some.inj hsold⟩

/-- A fee of 1000 at a price of two. -/
theorem alpha_fee_reported_sale :
    ∃ s', withdrawInAlpha Swap.Sample.staking 2 [(1, 1)] 1000 atTwo = .ok (500, 999, 1) s' ∧
      Honest 2 [(1, 1)] atTwo s' (500, 999, 1) := by
  obtain ⟨_, s', hrun, rfl⟩ := exists_of_ends (x := withdrawInAlpha Swap.Sample.staking 2 [(1, 1)] 1000)
    (s := atTwo) (Q := fun report _ => report = (500, 999, 1)) (by decide +kernel)
  obtain ⟨hfee, r, hr, hfull⟩ := sale
  have hreported := ((alpha_fee_reported _ _ _ _ _ _ _ (by decide) hrun).2 1 1 rfl).2
  rw [hfee] at hreported
  rcases of_ends (withdrawInAlpha_one rfl) hrun with ⟨_, hr', hauthor, -⟩ | ⟨hnothing, -⟩
  · rw [hfee] at hr' hauthor
    obtain rfl := Except.ok.inj (hr.symm.trans hr')
    exact ⟨s', hrun, ((hreported r hr).1 hauthor).mpr hfull⟩
  · cases hnothing

/-- With less TAO in the pool than a swap needs, 20000 alpha are gone and nothing is reported. -/
theorem alpha_fee_lost :
    ∃ s', withdrawInAlpha Swap.Sample.staking 2 [(1, 1)] 10 drained = .ok (0, 0, NetUid.root) s' ∧
      s'.stakes.stake 1 2 1 = 30000 ∧ drained.stakes.stake 1 2 1 = 50000 := by
  obtain ⟨_, s', hrun, rfl, hstake⟩ := exists_of_ends (x := withdrawInAlpha Swap.Sample.staking 2 [(1, 1)] 10)
    (s := drained)
    (Q := fun report s' => report = (0, 0, NetUid.root) ∧ s'.stakes.stake 1 2 1 = 30000) (by decide +kernel)
  exact ⟨s', hrun, hstake, by decide +kernel⟩

/-! ## How much is sold -/

/-- The quotient of two amounts, rounded down. -/
theorem toU64_safeDiv_ofNat {f : Nat} (hf : f ≤ 32) {n : Nat} (hn : n < 2 ^ 64) (p : UFixed f) :
    ((UFixed.ofNat n).safeDiv p).toU64 = min (n * 2 ^ f / p.bits) (2 ^ 64 - 1) := by
  have hpow : 2 ^ f ≤ 2 ^ 32 := Nat.pow_le_pow_right (by decide) hf
  have hmul : n * 2 ^ f < 2 ^ 64 * 2 ^ 32 :=
    lt_of_lt_of_le (Nat.mul_lt_mul_of_pos_right hn (Nat.two_pow_pos f)) (Nat.mul_le_mul_left _ hpow)
  have hfits : n * 2 ^ f * 2 ^ f < 2 ^ 64 * 2 ^ 32 * 2 ^ 32 :=
    lt_of_lt_of_le (Nat.mul_lt_mul_of_pos_right hmul (Nat.two_pow_pos f)) (Nat.mul_le_mul_left _ hpow)
  have hbits : (UFixed.ofNat n : UFixed f).bits = n * 2 ^ f := UFixed.bits_ofNat (by omega)
  unfold UFixed.toU64
  rw [UFixed.bits_safeDiv, hbits, Nat.div_right_comm, Nat.mul_div_cancel _ (Nat.two_pow_pos f)]
  rw [hbits]
  exact lt_of_le_of_lt (Nat.div_le_self _ _) (by omega)

section Charge
variable [DecidableEq A] {cfg : Config A B X R} {s s' : State A B X R} {hotkey coldkey : A} {tao : Nat}
  {report : Nat × Nat × NetUid}

/-- The signer sold this amount of one stake, and nothing else. -/
structure SoldOnly (who hotkey : A) (netuid : NetUid) (amount : Nat) (s s' : State A B X R) : Prop where
  sold : s'.stakes.stake hotkey who netuid + amount = s.stakes.stake hotkey who netuid
  others : ∀ h n, ¬(h = hotkey ∧ n = netuid) → s'.stakes.stake h who n = s.stakes.stake h who n

/-- What a charge takes off the stake: what the pool takes of the alpha fee, or all of it if the pool refuses. -/
def charge (cfg : Config A B X R) (s : State A B X R) (hotkey coldkey : A) (netuid : NetUid) (tao : Nat) : Nat :=
  let fee := alphaFee cfg s hotkey coldkey netuid tao
  match s.soldAt cfg netuid fee 0 true with
  | .ok r    => fee - unsold fee r
  | .error _ => fee

theorem charge_of_sold {fee : Nat} {r : SwapResult} (hfee : alphaFee cfg s hotkey coldkey netuid tao = fee)
    (hr : s.soldAt cfg netuid fee 0 true = .ok r) : charge cfg s hotkey coldkey netuid tao = fee - unsold fee r := by
  unfold charge
  simp only [hfee, hr]

theorem charge_le : charge cfg s hotkey coldkey netuid tao ≤ alphaFee cfg s hotkey coldkey netuid tao := by
  unfold charge
  dsimp only
  split
  · exact Nat.sub_le _ _
  · exact le_rfl

/-- Whatever the pool answers, to the sale or to that of the author's share, the charge comes off one stake. -/
theorem soldOnly_charge (hrun : withdrawInAlpha cfg coldkey [(hotkey, netuid)] tao s = .ok report s') :
    SoldOnly coldkey hotkey netuid (charge cfg s hotkey coldkey netuid tao) s s' := by
  have hle := alphaFee_le cfg s hotkey coldkey netuid tao
  have hcharge : charge cfg s hotkey coldkey netuid tao ≤ _ := charge_le
  have hstake : ∀ h n, s'.stakes.stake h coldkey n = s.stakes.stake h coldkey n -
      if h = hotkey ∧ n = netuid then charge cfg s hotkey coldkey netuid tao else 0 := by
    intro h n
    rcases of_ends (withdrawInAlpha_one rfl) hrun with
      ⟨r, hr, -, -, hstakes, -⟩ | ⟨-, ⟨e, he, rfl⟩ | ⟨r, hr, -, rfl⟩⟩
    · rw [hstakes, stake_soldStakes hle, charge_of_sold rfl hr]
      simp only [true_and]
    · have hfull : charge cfg s hotkey coldkey netuid tao = alphaFee cfg s hotkey coldkey netuid tao := by
        simp only [charge, he]
      rw [hfull, Stakes.stake_decrease]
      by_cases hkey : h = hotkey ∧ n = netuid
      · obtain ⟨rfl, rfl⟩ := hkey
        rw [if_pos ⟨rfl, rfl, rfl, hle⟩, if_pos ⟨rfl, rfl⟩]
      · rw [if_neg fun hall => hkey ⟨hall.1, hall.2.2.1⟩, if_neg hkey, Nat.sub_zero]
    · rw [show _ = (soldStakes s hotkey coldkey netuid _ r).stake h coldkey n from rfl, stake_soldStakes hle,
        charge_of_sold rfl hr]
      simp only [true_and]
  constructor
  · rw [hstake, if_pos ⟨rfl, rfl⟩]
    omega
  · intro h n hne
    rw [hstake, if_neg hne, Nat.sub_zero]
end Charge

section Bounds
variable [DecidableEq A] {cfg : Config A B (Swap.Storage A) R} {scfg : Swap.Config A} {s : State A B (Swap.Storage A) R}

/-- The fee at the current price, rounded down; a stable subnet has price one. -/
theorem getAlphaAmountForTao_eq (hswap : cfg.swapInterface = Swap.swapHandler scfg) {tao : Nat} (htao : tao < 2 ^ 64) :
    getAlphaAmountForTao cfg s netuid tao =
      min (tao * 2 ^ 32 / (cfg.swapInterface.currentAlphaPrice s.swap s.pools netuid).bits) (2 ^ 64 - 1) := by
  unfold getAlphaAmountForTao
  split_ifs with hmechanism
  · exact toU64_safeDiv_ofNat le_rfl htao _
  · have hprice : cfg.swapInterface.currentAlphaPrice s.swap s.pools netuid = UFixed.ofNat 1 := by
      rw [hswap]
      exact if_neg hmechanism
    rw [hprice, UFixed.bits_ofNat (by decide), Nat.one_mul, Nat.mul_div_cancel _ (by decide)]
    omega

/-- An amount that is neither nothing nor more than the fee is worth at this price, rounded up. -/
def Fair (fee : Nat) (price : U96F32) (amount : Nat) : Prop :=
  1 ≤ amount ∧ amount ≤ max 1 ((fee * 2 ^ 32 + price.bits - 1) / price.bits)

/-- What is taken of an alpha fee that the stake covers is fair if the fee buys one alpha, or if it is one alpha. -/
theorem fair_taken_iff {n balance bits equivalent amount : Nat} (hn : 0 < n) (hbits : 0 < bits)
    (heq : equivalent = min (n / bits) (2 ^ 64 - 1)) (hcovers : equivalent ≤ balance)
    (hamount : amount ≤ min (if equivalent = 0 then balance else equivalent) balance) :
    (1 ≤ amount ∧ amount ≤ max 1 ((n + bits - 1) / bits)) ↔ (bits ≤ n ∧ 1 ≤ amount ∨ amount = 1) := by
  by_cases hle : bits ≤ n
  · have hone : 1 ≤ n / bits := (Nat.one_le_div_iff hbits).mpr hle
    have hceil : n / bits ≤ (n + bits - 1) / bits := Nat.div_le_div_right (by omega)
    rw [if_neg (by omega)] at hamount
    omega
  · have hceil : (n + bits - 1) / bits = 1 := Nat.div_eq_of_lt_le (by omega) (by omega)
    rw [hceil]
    omega

/-- All of the alpha fee is fair, unless the fee rounds to nothing and the stake is not one alpha. -/
theorem fair_iff {n balance bits equivalent : Nat} (hn : 0 < n) (hbits : 0 < bits)
    (heq : equivalent = min (n / bits) (2 ^ 64 - 1)) (hcovers : equivalent ≤ balance) :
    (1 ≤ min (if equivalent = 0 then balance else equivalent) balance ∧
      min (if equivalent = 0 then balance else equivalent) balance ≤ max 1 ((n + bits - 1) / bits)) ↔
      (bits ≤ n ∨ balance = 1) := by
  rw [fair_taken_iff hn hbits heq hcovers le_rfl]
  by_cases hle : bits ≤ n
  · have hone : 1 ≤ n / bits := (Nat.one_le_div_iff hbits).mpr hle
    rw [if_neg (by omega)]
    omega
  · have hzero : n / bits = 0 := Nat.div_eq_of_lt (by omega)
    rw [hzero, Nat.zero_min] at heq
    rw [if_pos heq]
    omega
end Bounds

end Qubitum.Subtensor.TransactionFee
