import Qubitum.Swap.Interface
import Qubitum.Subtensor.Dispatch
import Qubitum.Subtensor.StakingEffects

/-!
# `Swap.Rollback` — swaps that are simulated or fail

`do_swap` leaves the pool as it was if the swap is simulated or fails in one of its steps. There is a third way
out: the check of the reserve comes after the steps, and its error is returned with what they wrote.
-/

namespace Qubitum.Swap
open Fixed Outcome Mutation
open Qubitum.Subtensor (NetUid SwapResult StorageMap State emissionOf injectOn swapTaoForAlpha swapTaoForAlpha_ends)

variable {A : Type} [DecidableEq A] {cfg : Config A} {env : Env} {p : Pool A} {side : Side} {amount : Nat}
  {limitSqrtPrice : SqrtPrice} {dropFees simulate : Bool}

/-- Everything `do_swap` can do. -/
theorem doSwap_cases (cfg : Config A) (env : Env) (side : Side) (amount : Nat) (limitSqrtPrice : SqrtPrice)
    (dropFees simulate : Bool) (p : Pool A) :
    (doSwap cfg env side amount limitSqrtPrice dropFees simulate p).2 = p ∨
      ∃ r p', swapInner cfg env side amount limitSqrtPrice dropFees p = .ok r p' ∧ simulate = false ∧
        doSwap cfg env side amount limitSqrtPrice dropFees simulate p =
          (if env.reserveOut side < r.amountPaidOut then .error .insufficientLiquidity else .ok r, p') := by
  unfold doSwap
  cases hrun : swapInner cfg env side amount limitSqrtPrice dropFees p with
  | error e p' => exact .inl rfl
  | ok r p' =>
    cases simulate with
    | true => exact .inl rfl
    | false =>
      refine .inr ⟨r, p', rfl, rfl, ?_⟩
      by_cases hreserve : env.reserveOut side < r.amountPaidOut
      · simp only [hreserve, Bool.false_eq_true, if_false, if_true]
      · simp only [hreserve, Bool.false_eq_true, if_false]

/-- The steps of a swap, taken from the pool as it is, fail, or pay out no more than the reserve, or write nothing. -/
def Covered (cfg : Config A) (env : Env) (side : Side) (amount : Nat) (limitSqrtPrice : SqrtPrice) (dropFees : Bool)
    (p : Pool A) : Prop :=
  ∀ r p', swapInner cfg env side amount limitSqrtPrice dropFees p = .ok r p' →
    r.amountPaidOut ≤ env.reserveOut side ∨ p' = p

/-- A swap that fails is undone exactly if it is simulated or covered. -/
theorem doSwap_keeps_pool_iff
    (h : simulate = true ∨ ∃ e, (doSwap cfg env side amount limitSqrtPrice dropFees simulate p).1 = .error e) :
    (doSwap cfg env side amount limitSqrtPrice dropFees simulate p).2 = p ↔
      simulate = true ∨ Covered cfg env side amount limitSqrtPrice dropFees p := by
  cases simulate with
  | true =>
    have hkept : (doSwap cfg env side amount limitSqrtPrice dropFees true p).2 = p := by
      rcases doSwap_cases cfg env side amount limitSqrtPrice dropFees true p with hkept | ⟨_, _, -, hreal, -⟩
      · exact hkept
      · cases hreal
    exact ⟨fun _ => .inl rfl, fun _ => hkept⟩
  | false =>
    obtain ⟨e, herr⟩ := h.resolve_left Bool.false_ne_true
    rw [or_iff_right Bool.false_ne_true]
    rcases hrun : swapInner cfg env side amount limitSqrtPrice dropFees p with ⟨r, p'⟩ | ⟨e', p'⟩
    · have hswap : doSwap cfg env side amount limitSqrtPrice dropFees false p =
          (if env.reserveOut side < r.amountPaidOut then .error .insufficientLiquidity else .ok r, p') := by
        unfold doSwap
        rw [hrun]
        by_cases hreserve : env.reserveOut side < r.amountPaidOut
        · simp only [hreserve, Bool.false_eq_true, if_false, if_true]
        · simp only [hreserve, Bool.false_eq_true, if_false]
      have hbeyond : env.reserveOut side < r.amountPaidOut := by
        rw [hswap] at herr
        by_contra hwithin
        rw [if_neg hwithin] at herr
        cases herr
      rw [hswap]
      refine ⟨fun hkept r' p'' hrun' => ?_, fun hcovered => (hcovered r p' hrun).resolve_left (not_le.mpr hbeyond)⟩
      cases hrun.symm.trans hrun'
      exact .inr hkept
    · have hkept : (doSwap cfg env side amount limitSqrtPrice dropFees false p).2 = p := by
        unfold doSwap
        rw [hrun]
      exact ⟨fun _ r p'' hrun' => (by cases hrun.symm.trans hrun'), fun _ => hkept⟩

/-! ## The caller that ignores the error -/

omit [DecidableEq A] in
/-- Writing a pool leaves all pools as they were exactly if it is the pool that was there. -/
theorem Storage.pool_setPool (s : Storage A) (netuid : NetUid) (p : Pool A) :
    (∀ n, (s.setPool netuid p).pool n = s.pool n) ↔ p = s.pool netuid := by
  constructor
  · intro hall
    rw [← hall netuid]
    simp [Storage.setPool, Storage.pool]
  · rintro rfl n
    unfold Storage.setPool Storage.pool
    by_cases hn : n = netuid
    · subst hn
      simp
    · simp [Function.update_of_ne hn]

section Injection
variable {B R : Type} {c : Subtensor.Config A B (Storage A) R} {s : Subtensor.State A B (Storage A) R} {netuid : NetUid}
  {taoIn alphaIn excessTao : StorageMap NetUid Fixed.U96F32}

/-- The state in which `inject_and_maybe_swap` buys with the excess TAO. -/
def adjusted (c : Subtensor.Config A B (Storage A) R) (s : Subtensor.State A B (Storage A) R) (netuid : NetUid)
    (taoIn alphaIn : StorageMap NetUid Fixed.U96F32) : Subtensor.State A B (Storage A) R :=
  { s with
    swap := c.swapInterface.adjustProtocolLiquidity s.swap s.pools netuid (emissionOf taoIn netuid)
      (emissionOf alphaIn netuid) }

/-- The pools are those before the swap, and the reserves have what was injected. -/
structure Consistent (s s' : Subtensor.State A B (Storage A) R) (netuid : NetUid) (tao alpha : Nat) : Prop where
  pool : ∀ n, s'.swap.pool n = s.swap.pool n
  tao : s'.pools.subnetTao = Function.update s.pools.subnetTao netuid (s.pools.subnetTao netuid + tao)
  alpha : s'.pools.subnetAlphaIn = Function.update s.pools.subnetAlphaIn netuid (s.pools.subnetAlphaIn netuid + alpha)

variable {e : Subtensor.DispatchError}

/-- A purchase that fails leaves the pools as they were exactly if it is covered. -/
theorem boughtAt_error (hc : c.swapInterface = swapHandler cfg) {tao priceLimit : Nat}
    (hfail : s.boughtAt c netuid tao priceLimit dropFees = .error e) :
    (∀ n, (s.pool c netuid (.getAlphaForTao tao) tao priceLimit dropFees).2.pool n = s.swap.pool n) ↔
      Covered cfg (Env.of s.pools netuid) .buy tao (limitSqrtPriceOf priceLimit) dropFees (s.swap.pool netuid) := by
  unfold State.boughtAt State.pool at hfail
  unfold State.pool
  by_cases hdynamic : s.pools.subnetMechanism netuid = 1
  · rw [if_pos hdynamic, hc] at hfail ⊢
    change (Storage.swap cfg s.swap s.pools netuid (.getAlphaForTao tao) priceLimit dropFees false).1 = _ at hfail
    show (∀ n, (Storage.swap cfg s.swap s.pools netuid (.getAlphaForTao tao) priceLimit dropFees false).2.pool n = _) ↔ _
    unfold Storage.swap Side.ofOrder at hfail ⊢
    dsimp only at hfail ⊢
    rw [Storage.pool_setPool, doSwap_keeps_pool_iff, or_iff_right Bool.false_ne_true]
    cases hswap : (doSwap cfg (Env.of s.pools netuid) .buy tao (limitSqrtPriceOf priceLimit) dropFees false
        (s.swap.pool netuid)).1 with
    | error e' => exact .inr ⟨e', rfl⟩
    | ok r =>
      rw [hswap] at hfail
      cases hfail
  · rw [if_neg hdynamic] at hfail
    cases hfail

theorem injectOn_consistent (hc : c.swapInterface = swapHandler cfg)
    (hfail : (adjusted c s netuid taoIn alphaIn).boughtAt c netuid (emissionOf excessTao netuid) maxPrice true = .error e) :
    Ends (injectOn c taoIn alphaIn excessTao netuid) s (fun _ s' =>
      (Consistent (adjusted c s netuid taoIn alphaIn) s' netuid (emissionOf taoIn netuid) (emissionOf alphaIn netuid) ↔
        emissionOf excessTao netuid = 0 ∨ Covered cfg (Env.of s.pools netuid) .buy (emissionOf excessTao netuid)
          (limitSqrtPriceOf maxPrice) true ((adjusted c s netuid taoIn alphaIn).swap.pool netuid)))
      (fun _ _ => False) := by
  have hmax : c.swapInterface.maxPrice = maxPrice := by rw [hc]; rfl
  have hpools := boughtAt_error hc hfail
  unfold injectOn
  simp only [ends_bind, ends_modify, ends_ite, ends_attempt, hmax]
  refine ⟨fun hexcess => ?_, fun hnone => ?_⟩
  · refine swapTaoForAlpha_ends.mono ?_ ?_
    · rintro r t ⟨hr, -⟩
      rw [adjusted] at hfail
      rw [hfail] at hr
      cases hr
    · rintro e' t ⟨-, rfl⟩
      rw [or_iff_right hexcess.ne']
      exact ⟨fun h => hpools.mp h.pool, fun h => ⟨hpools.mpr h, rfl, rfl⟩⟩
  · exact ⟨fun _ => .inl (Nat.eq_zero_of_not_pos hnone), fun _ => ⟨fun _ => rfl, rfl, rfl⟩⟩
end Injection

namespace Sample
open Qubitum.Subtensor.Sample (Account fresh)

/-- The sample of the staking pallet, with this swap pallet. -/
def staking : Subtensor.Config Account (Account → Nat) (Storage Account) Unit :=
  { Subtensor.Sample.config with swapInterface := swapHandler ⟨2, 1000000, 1000, 100⟩ }

/-- Its subnets have these reserves, and no pools yet. -/
def reserves (tao alpha : Nat) : Subtensor.State Account (Account → Nat) (Storage Account) Unit :=
  { fresh with
    swap := Storage.empty
    pools := { fresh.pools with subnetTao := fun _ => tao, subnetAlphaIn := fun _ => alpha } }

/-- An emission for the first subnet. -/
def emission (amount : Nat) : StorageMap NetUid U96F32 := AList.insert 1 (.ofNat amount) ∅
end Sample

end Qubitum.Swap
