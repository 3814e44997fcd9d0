import Qubitum.Subtensor.Staking

/-!
# `Subtensor.StakingEffects` — what staking and unstaking have written when they end

Each of the functions of `Subtensor.Staking` is read once, here. A swap with the pool is described by the
result the pool gives for it (`boughtAt`, `soldAt`); what is written follows from that result. Staking is
described only when it succeeds, because its callers pass an error on and are rolled back. Unstaking is also
described when it fails: one caller drops the error and goes on.
-/

namespace Qubitum.Subtensor
open Fixed Outcome Mutation

variable {A B X R : Type} {cfg : Config A B X R} {s s' : State A B X R}

/-! ## Swaps with the pool -/

section
variable (cfg : Config A B X R) (s : State A B X R) (netuid : NetUid)

/-- What the pool gives for an order, and its storage afterwards. -/
def State.pool (order : Order) (amount priceLimit : Nat) (dropFees : Bool) : Except DispatchError SwapResult × X :=
  if s.pools.subnetMechanism netuid = 1 then
    cfg.swapInterface.swap s.swap s.pools netuid order priceLimit dropFees false
  else (.ok (SwapResult.stable amount), s.swap)

/-- What the pool gives for TAO. -/
def State.boughtAt (tao priceLimit : Nat) (dropFees : Bool) : Except DispatchError SwapResult :=
  (s.pool cfg netuid (.getAlphaForTao tao) tao priceLimit dropFees).1

/-- What the pool gives for alpha. -/
def State.soldAt (alpha priceLimit : Nat) (dropFees : Bool) : Except DispatchError SwapResult :=
  (s.pool cfg netuid (.getTaoForAlpha alpha) alpha priceLimit dropFees).1

/-- The state after TAO was swapped. -/
def State.bought (tao priceLimit : Nat) (dropFees : Bool) (r : SwapResult) : State A B X R :=
  { s with
    pools := s.pools.bought netuid tao r
    totals := { s.totals with totalStake := s.totals.totalStake + tao }
    swap := (s.pool cfg netuid (.getAlphaForTao tao) tao priceLimit dropFees).2 }

/-- The state after alpha was swapped. -/
def State.sold (alpha priceLimit : Nat) (dropFees : Bool) (r : SwapResult) : State A B X R :=
  { s with
    pools := s.pools.sold netuid r
    totals := { s.totals with totalStake := s.totals.totalStake - r.amountPaidOut }
    swap := (s.pool cfg netuid (.getTaoForAlpha alpha) alpha priceLimit dropFees).2 }
end

variable {netuid : NetUid} {tao priceLimit alpha fee : Nat} {dropFees : Bool}

theorem swapTaoForAlpha_ends : Ends (swapTaoForAlpha cfg netuid tao priceLimit dropFees) s
      (fun r s' => s.boughtAt cfg netuid tao priceLimit dropFees = .ok r ∧
        s' = s.bought cfg netuid tao priceLimit dropFees r)
      (fun e s' => s.boughtAt cfg netuid tao priceLimit dropFees = .error e ∧
        s' = { s with swap := (s.pool cfg netuid (.getAlphaForTao tao) tao priceLimit dropFees).2 }) := by
  unfold swapTaoForAlpha swapOrder State.boughtAt State.bought State.pool
  simp only [ends_bind, ends_get]
  by_cases hdynamic : s.pools.subnetMechanism netuid = 1
  · simp only [if_pos hdynamic, ends_bind, ends_get, ends_set, ends_lift, ends_modify, ends_pure]
    exact ⟨fun r hr => ⟨hr, trivial⟩, fun e he => ⟨he, trivial⟩⟩
  · simp only [if_neg hdynamic]
    exact ⟨rfl, rfl⟩

theorem swapAlphaForTao_ends : Ends (swapAlphaForTao cfg netuid alpha priceLimit dropFees) s
      (fun r s' => s.soldAt cfg netuid alpha priceLimit dropFees = .ok r ∧
        s' = s.sold cfg netuid alpha priceLimit dropFees r)
      (fun e s' => s.soldAt cfg netuid alpha priceLimit dropFees = .error e ∧
        s' = { s with swap := (s.pool cfg netuid (.getTaoForAlpha alpha) alpha priceLimit dropFees).2 }) := by
  unfold swapAlphaForTao swapOrder State.soldAt State.sold State.pool
  simp only [ends_bind, ends_get]
  by_cases hdynamic : s.pools.subnetMechanism netuid = 1
  · simp only [if_pos hdynamic, ends_bind, ends_get, ends_set, ends_lift, ends_modify, ends_pure]
    exact ⟨fun r hr => ⟨hr, trivial⟩, fun e he => ⟨he, trivial⟩⟩
  · simp only [if_neg hdynamic]
    exact ⟨rfl, rfl⟩

variable [DecidableEq A] {hotkey coldkey : A} {netuid : NetUid}

/-! ## Staking -/

/-- The ledger after the author, if there is one, was credited. -/
def Currency.credited (currency : Currency A B) (l : B) : Option A → Nat → B
  | some author, amount => currency.deposit l author amount
  | none, _             => l

/-- What is burnt of a fee: all of it if there is no author. -/
def burnt (author : Option A) (fee : Nat) : Nat := if author.isSome then 0 else fee

omit [DecidableEq A] in
theorem payAuthorTao_eq (s : State A B X R) (fee : Nat) :
    payAuthorTao cfg s fee = { s with
      totals := { s.totals with totalIssuance := s.totals.totalIssuance - burnt s.author fee }
      ledger := cfg.currency.credited s.ledger s.author fee } := by
  unfold payAuthorTao
  cases hauthor : s.author with
  | some author => simp [burnt, Currency.credited, addBalanceToColdkeyAccount, hauthor]
  | none => simp [burnt, Currency.credited]

/-- What staking `tao` wrote, for the pool's result `r`. -/
structure StakedInto (cfg : Config A B X R) (s s' : State A B X R) (hotkey coldkey : A) (netuid : NetUid)
    (tao : Nat) (r : SwapResult) : Prop where
  gave : r.amountPaidOut ≠ 0
  ownership : s'.ownership = s.ownership
  stakes : s'.stakes = (s.stakes.increase hotkey coldkey netuid r.amountPaidOut).addStakingHotkey coldkey hotkey
  totalStake : s'.totals.totalStake = s.totals.totalStake + tao
  totalIssuance : s'.totals.totalIssuance = s.totals.totalIssuance - burnt s.author r.feeToBlockAuthor
  ledger : s'.ledger = cfg.currency.credited s.ledger s.author r.feeToBlockAuthor
  author : s'.author = s.author

theorem stakeIntoSubnet_ends {setLimit : Bool} :
    Returns (stakeIntoSubnet cfg hotkey coldkey netuid tao priceLimit setLimit dropFees) s
      (fun _ s' => ∃ r, s.boughtAt cfg netuid tao priceLimit dropFees = .ok r ∧
        StakedInto cfg s s' hotkey coldkey netuid tao r) := by
  unfold stakeIntoSubnet
  simp only [ends_bind, ends_get, ends_lift_ensure, ends_modify, ends_pure, implies_true, and_true]
  refine swapTaoForAlpha_ends.weaken ?_
  rintro r t ⟨hr, rfl⟩ hgave _
  refine ⟨r, hr, ?_⟩
  simp only [payAuthorTao_eq]
  exact ⟨hgave, rfl, rfl, rfl, rfl, rfl, rfl⟩

/-! ## Unstaking -/

/-- The stakes when `alpha` was taken and what was not sold was given back. -/
def Stakes.unstake (st : Stakes A) (hotkey coldkey : A) (netuid : NetUid) (alpha refund : Nat) : Stakes A :=
  if refund = 0 then st.decrease hotkey coldkey netuid alpha
  else (st.decrease hotkey coldkey netuid alpha).increase hotkey coldkey netuid refund

/-- The author was paid its share of a sale, which is sold too: the totals and the ledger afterwards. -/
inductive AuthorPaid (cfg : Config A B X R) (netuid : NetUid) (fee : Nat) (s : State A B X R) :
    Totals → B → Prop
  | nobody (hauthor : s.author = none) : AuthorPaid cfg netuid fee s s.totals s.ledger
  | paid {author : A} {r : SwapResult} (hauthor : s.author = some author)
      (hsold : s.soldAt cfg netuid fee cfg.swapInterface.minPrice true = .ok r) :
      AuthorPaid cfg netuid fee s (s.sold cfg netuid fee cfg.swapInterface.minPrice true r).totals
        (cfg.currency.deposit s.ledger author r.amountPaidOut)

omit [DecidableEq A] in
theorem AuthorPaid.sells {totals : Totals} {ledger : B} (h : AuthorPaid cfg netuid fee s totals ledger) :
    s.author = none ∨ ∃ r, s.soldAt cfg netuid fee cfg.swapInterface.minPrice true = .ok r := by
  cases h with
  | nobody hauthor => exact .inl hauthor
  | paid _ hsold => exact .inr ⟨_, hsold⟩

omit [DecidableEq A] in
theorem payAuthorAlpha_ends : Ends (payAuthorAlpha cfg netuid fee) s
      (fun _ s' => AuthorPaid cfg netuid fee s s'.totals s'.ledger ∧
        s' = { s with pools := s'.pools, totals := s'.totals, ledger := s'.ledger, swap := s'.swap })
      (fun e s' => s.author.isSome ∧ s.soldAt cfg netuid fee cfg.swapInterface.minPrice true = .error e ∧
        s' = { s with swap := (s.pool cfg netuid (.getTaoForAlpha fee) fee cfg.swapInterface.minPrice true).2 }) := by
  unfold payAuthorAlpha
  simp only [ends_bind, ends_get]
  split
  · rename_i author hauthor
    simp only [ends_bind, ends_modify, ends_pure]
    refine swapAlphaForTao_ends.mono ?_ ?_
    · rintro r t ⟨hr, rfl⟩
      exact ⟨.paid hauthor hr, rfl⟩
    · rintro e t ⟨he, rfl⟩
      exact ⟨by rw [hauthor]; rfl, he, rfl⟩
  · rename_i hauthor
    exact ⟨.nobody hauthor, rfl⟩

/-- What unstaking `alpha` wrote, for the pool's result `r`. -/
structure UnstakedFrom (cfg : Config A B X R) (s s' : State A B X R) (hotkey coldkey : A) (netuid : NetUid)
    (alpha priceLimit : Nat) (dropFees : Bool) (r : SwapResult) : Prop where
  sold : s.soldAt cfg netuid alpha priceLimit dropFees = .ok r
  ownership : s'.ownership = s.ownership
  stakes : s'.stakes = s.stakes.unstake hotkey coldkey netuid alpha (unsold alpha r)
  author : s'.author = s.author
  money : AuthorPaid cfg netuid r.feeToBlockAuthor (s.sold cfg netuid alpha priceLimit dropFees r) s'.totals s'.ledger

/-- What unstaking wrote to the totals and to the ledger when it failed: nothing, unless the share of the
    author could not be sold after the rest was. -/
inductive UnstakeFailed (cfg : Config A B X R) (s : State A B X R) (netuid : NetUid) (alpha priceLimit : Nat)
    (dropFees : Bool) : Totals → B → Prop
  | unsold {e : DispatchError} (hsold : s.soldAt cfg netuid alpha priceLimit dropFees = .error e) :
      UnstakeFailed cfg s netuid alpha priceLimit dropFees s.totals s.ledger
  | unpaid {r : SwapResult} (hsold : s.soldAt cfg netuid alpha priceLimit dropFees = .ok r)
      (hauthor : s.author.isSome) :
      UnstakeFailed cfg s netuid alpha priceLimit dropFees
        (s.sold cfg netuid alpha priceLimit dropFees r).totals s.ledger

theorem unstakeFromSubnet_ends : Ends (unstakeFromSubnet cfg hotkey coldkey netuid alpha priceLimit dropFees) s
      (fun paidOut s' => ∃ r, paidOut = r.amountPaidOut ∧
        UnstakedFrom cfg s s' hotkey coldkey netuid alpha priceLimit dropFees r)
      (fun _ s' => UnstakeFailed cfg s netuid alpha priceLimit dropFees s'.totals s'.ledger) := by
  unfold unstakeFromSubnet
  simp only [ends_bind, ends_modify, ends_pure]
  refine swapAlphaForTao_ends.mono ?_ ?_
  · rintro r t ⟨hr, rfl⟩
    refine payAuthorAlpha_ends.mono ?_ ?_
    · rintro _ t' ⟨hpaid, ht'⟩
      refine ⟨r, rfl, hr, ?_, ?_, ?_, ?_⟩
      · rw [ht']
        rfl
      · rw [ht']
        rfl
      · rw [ht']
        rfl
      · -- the stakes do not matter for it
        generalize t'.totals = totals, t'.ledger = ledger at hpaid ⊢
        cases hpaid with
        | nobody hauthor => exact .nobody hauthor
        | paid hauthor hsold => exact .paid hauthor hsold
    · rintro e t' ⟨hauthor, -, ht'⟩
      rw [ht']
      exact .unpaid hr hauthor
  · rintro e t ⟨he, ht⟩
    rw [ht]
    exact .unsold he

/-! ## Moving stake within a subnet -/

theorem transferStakeWithinSubnet_ends {destinationColdkey destinationHotkey : A} :
    Returns (transferStakeWithinSubnet cfg coldkey hotkey destinationColdkey destinationHotkey netuid alpha) s
      (fun _ s' => alpha ≠ 0 ∧ s'.ownership = s.ownership ∧ s'.totals = s.totals ∧ s'.ledger = s.ledger ∧
        s'.stakes = (s.stakes.decrease hotkey coldkey netuid alpha).increase destinationHotkey destinationColdkey
          netuid alpha) := by
  unfold transferStakeWithinSubnet
  simp only [ends_bind, ends_get, ends_modify, ends_lift_ensure, ends_pure, implies_true, and_true]
  rintro hmin rfl
  rw [UFixed.toU64_saturatingMul_ofNat_zero] at hmin
  exact absurd hmin (by decide)
end Qubitum.Subtensor
