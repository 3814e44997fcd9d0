import Qubitum.Swap.Effects

/-!
# `Swap.Amounts` — a swap never takes more than the order

A step that fills the order takes what remains, the fee included. A step that stops at the limit or at the next
tick computes its input back from the price and puts the fee on top of it. The input is then smaller than what was
available for it (`Side.deltaIn_lt`), because the price it is computed from is strictly closer, and the two ways
to compute the fee round so that the sum stays within the order, unless the order is so large that the rounding
of the fee rate shows (`fee_room`).
-/

namespace Qubitum.Swap
open Fixed Outcome Mutation UFixed
open Qubitum.Subtensor (SwapResult)

variable {A : Type} {cfg : Config A} {env : Env} {p p' : Pool A} {side : Side}
  {limitSqrtPrice : SqrtPrice} {dropFees : Bool} {amount : Nat}

/-! ## The input computed from a price -/

variable {n k f : Nat} {rate : U64F64} {q : Pool A}

theorem bits_ofNat64 (h : n < 2 ^ 64) : (ofNat n : U64F64).bits = n * 2 ^ 64 := bits_ofNat (by omega)

/-- What a number of units of the price is worth is less than `n` if it is before rounding. -/
theorem toU64_mul_lt {x y : U64F64} (h : x.bits * y.bits < n * 2 ^ 128) : (x.saturatingMul y).toU64 < n := by
  have hmul : (x.saturatingMul y).bits ≤ x.bits * y.bits / 2 ^ 64 := bits_saturatingMul_le
  have hto : (x.saturatingMul y).toU64 ≤ (x.saturatingMul y).bits / 2 ^ 64 := toU64_le
  omega

/-- `one / x`, for prices above the smallest. -/
theorem bits_inverse {x : SqrtPrice} (h : 2 ≤ x.bits) : ((ofNat 1 : U64F64).safeDiv x).bits = 2 ^ 128 / x.bits := by
  have hone : (ofNat 1 : U64F64).bits * 2 ^ 64 = 2 ^ 128 := by decide
  have hlt : 2 ^ 128 / x.bits < 2 ^ 128 := Nat.div_lt_self (by decide) h
  rw [bits_safeDiv (by rw [hone]; exact hlt), hone]

/-- A step that is shorter than the quotient by at least one unit is worth less than the dividend. -/
theorem mul_lt_of_le_div_sub_one {l m : Nat} (hl : l ≠ 0) (hm : 0 < m) (h : k ≤ m / l - 1) : l * k < m := by
  rcases Nat.eq_zero_or_pos (m / l) with hzero | hpos
  · have hk : k = 0 := by omega
    rw [hk, Nat.mul_zero]
    exact hm
  · calc l * k < l * (m / l) := Nat.mul_lt_mul_of_pos_left (by omega) (by omega)
      _ ≤ m := Nat.mul_div_le m l

section Closer
variable {liquidity : U64F64} {current price : SqrtPrice} {delta : Nat} (hdelta : delta < 2 ^ 64)
include hdelta

/-- The change of the price, or of its inverse, that an input brings about. -/
theorem bits_change_le : ((ofNat delta).safeDiv liquidity).bits ≤ delta * 2 ^ 128 / liquidity.bits := by
  have hdiv : ((ofNat delta).safeDiv liquidity).bits ≤
      (ofNat delta : U64F64).bits * 2 ^ 64 / liquidity.bits := bits_safeDiv_le
  rwa [bits_ofNat64 hdelta, Nat.mul_assoc, ← Nat.pow_add] at hdiv

theorem bits_change (hliquidity : 2 ^ 64 ≤ liquidity.bits) :
    ((ofNat delta).safeDiv liquidity).bits = delta * 2 ^ 128 / liquidity.bits := by
  have hbits : (ofNat delta : U64F64).bits * 2 ^ 64 = delta * 2 ^ 128 := by
    rw [bits_ofNat64 hdelta, Nat.mul_assoc, ← Nat.pow_add]
  have hlt : delta * 2 ^ 128 / liquidity.bits < 2 ^ 128 := by
    rw [Nat.div_lt_iff_lt_mul (by omega), Nat.mul_comm]
    exact Nat.mul_lt_mul_of_pos_left (by omega) (by decide)
  rw [bits_safeDiv (by rw [hbits]; exact hlt), hbits]

/-- A price that is strictly closer than the target takes strictly less input. Buying, the distance of the prices
    counts, -/
theorem deltaIn_buy_lt (hpos : 0 < delta) (hliquidity : liquidity.bits ≠ 0)
    (hcloser : price.bits < (Side.buy.sqrtPriceTarget liquidity current delta).bits) :
    Side.buy.deltaIn liquidity current price < delta := by
  unfold Side.sqrtPriceTarget at hcloser
  simp only [if_neg hliquidity] at hcloser
  have hadd : (((ofNat delta).safeDiv liquidity).saturatingAdd current).bits ≤
      ((ofNat delta).safeDiv liquidity).bits + current.bits := bits_saturatingAdd_le
  have hchange : ((ofNat delta).safeDiv liquidity).bits ≤ _ := bits_change_le hdelta
  apply toU64_mul_lt
  rw [bits_saturatingSub]
  exact mul_lt_of_le_div_sub_one hliquidity (by omega) (by omega)

/-- and selling, the distance of their inverses. -/
theorem deltaIn_sell_lt (hpos : 0 < delta) (hliquidity : 2 ^ 64 ≤ liquidity.bits)
    (hcurrent : 2 ≤ current.bits) (hcloser : (Side.sell.sqrtPriceTarget liquidity current delta).bits < price.bits) :
    Side.sell.deltaIn liquidity current price < delta := by
  have hzero : liquidity.bits ≠ 0 := by omega
  unfold Side.sqrtPriceTarget at hcloser
  simp only [if_neg hzero] at hcloser
  have hchange := bits_change hdelta hliquidity
  have hinverse := bits_inverse hcurrent
  have hsum : (((ofNat delta).safeDiv liquidity).saturatingAdd
      ((ofNat 1 : U64F64).safeDiv current)).bits ≤ _ := bits_saturatingAdd_le
  have hprice := bits_safeDiv_le (x := (ofNat 1 : U64F64)) (y := price)
  have hone : (ofNat 1 : U64F64).bits * 2 ^ 64 = 2 ^ 128 := by decide
  have hquot : 1 ≤ delta * 2 ^ 128 / liquidity.bits := by
    rw [Nat.one_le_div_iff (by omega)]
    have hlt := liquidity.lt
    omega
  have hunit : 1 ≤ 2 ^ 128 / current.bits := by
    rw [Nat.one_le_div_iff (by omega)]
    exact current.lt.le
  have hsat : 2 ≤ (((ofNat delta).safeDiv liquidity).saturatingAdd
      ((ofNat 1 : U64F64).safeDiv current)).bits := by
    rw [bits_saturatingAdd, hchange, hinverse]
    exact le_min (Nat.add_le_add hquot hunit) (by decide)
  generalize ((ofNat delta).safeDiv liquidity).saturatingAdd
    ((ofNat 1 : U64F64).safeDiv current) = total at hcloser hsum hsat
  -- the inverse of the price is below that of the target
  have hbelow : 2 ^ 128 / price.bits < total.bits := by
    have hpositive : 0 < price.bits := by omega
    rw [bits_inverse hsat, Nat.div_lt_iff_lt_mul (by omega)] at hcloser
    rw [Nat.div_lt_iff_lt_mul hpositive, Nat.mul_comm]
    exact hcloser
  apply toU64_mul_lt
  rw [bits_saturatingSub]
  refine mul_lt_of_le_div_sub_one hzero (by omega) ?_
  rw [hone] at hprice
  omega

theorem deltaIn_lt {liquidity : Nat} (hpos : 0 < delta)
    (hcurrent : side = .sell → 2 ≤ current.bits)
    (hcloser : ¬ side.closer (side.sqrtPriceTarget (.ofNat liquidity) current delta) price) :
    side.deltaIn (.ofNat liquidity) current price < delta := by
  rcases Nat.eq_zero_or_pos liquidity with rfl | hliquidity
  · -- without liquidity every price is reached for nothing
    cases side <;> simpa [Side.deltaIn, saturatingMul, ofNat, saturate, toU64] using hpos
  · have hbits : 2 ^ 64 ≤ (ofNat liquidity : U64F64).bits :=
      le_min (by omega) (by decide)
    cases side with
    | buy => exact deltaIn_buy_lt hdelta hpos (by omega) (not_le.mp hcloser)
    | sell => exact deltaIn_sell_lt hdelta hpos hbits (hcurrent rfl) (not_le.mp hcloser)
end Closer

/-! ## Fees -/

/-- **The two fees fit**: with `fee` of all of `amount` set aside, an input `d` that is smaller than the rest and the
    fee on top of it stay within `amount`. The rates are rounded down to 64 bits; the condition says that what
    the rounding is worth for `amount` does not exceed the fraction that is left after the fee. -/
theorem fee_room {d fee q : Nat} (hf : f < 65535) (hfee : fee = amount * (f * 2 ^ 64 / 65535) / 2 ^ 64)
    (hq : q ≤ f * 2 ^ 64 / (65535 - f)) (hd : d < amount - fee)
    (hsmall : 65535 * amount ≤ 2 ^ 64 * (65535 - f)) : d + d * q / 2 ^ 64 ≤ amount := by
  obtain ⟨k, hk⟩ : ∃ k, 65535 = f + k := ⟨65535 - f, by omega⟩
  rw [show 65535 - f = k by omega] at hq hsmall
  have hkpos : 0 < k := by omega
  -- the fee on top is at most `d * f / k`
  have hqk : q * k ≤ f * 2 ^ 64 := (Nat.le_div_iff_mul_le hkpos).mp hq
  have htop : d * q / 2 ^ 64 * k ≤ d * f := by
    have hfloor : d * q / 2 ^ 64 * 2 ^ 64 ≤ d * q := Nat.div_mul_le_self _ _
    nlinarith
  -- and the fee set aside at least `amount * f / 65535`, less the rounding
  have hrate : amount * (f * 2 ^ 64) ≤ amount * (65535 * (f * 2 ^ 64 / 65535 + 1)) :=
    Nat.mul_le_mul_left _ (Nat.lt_mul_div_succ _ (by decide)).le
  have haside : amount * f < 65535 * (fee + 1) + k := by
    rw [← Nat.mul_assoc] at hrate
    rw [show amount * (65535 * (f * 2 ^ 64 / 65535 + 1)) = 65535 * (amount * (f * 2 ^ 64 / 65535)) + 65535 * amount
      by ring] at hrate
    omega
  by_contra hover
  have hmany : (amount + 1) * k ≤ (d + d * q / 2 ^ 64) * k := Nat.mul_le_mul_right k (by omega)
  have hsplit : d * 65535 = d * f + d * k := by rw [hk, Nat.mul_add]
  have hwhole : amount * 65535 = amount * f + amount * k := by rw [hk, Nat.mul_add]
  rw [Nat.add_mul, Nat.add_mul, Nat.one_mul] at hmany
  omega

/-- The quotient of two rates. -/
theorem bits_rate (hf : f < 2 ^ 16) (hk : k < 2 ^ 16) (hkpos : 0 < k) :
    ((ofNat f : U64F64).safeDiv (ofNat k)).bits = f * 2 ^ 64 / k := by
  have hbits : (ofNat f : U64F64).bits * 2 ^ 64 / (ofNat k : U64F64).bits = f * 2 ^ 64 / k := by
    rw [bits_ofNat64 (by omega), bits_ofNat64 (by omega), Nat.mul_div_mul_right _ _ (by decide)]
  have hlt : f * 2 ^ 64 / k < 2 ^ 128 := lt_of_le_of_lt (Nat.div_le_self _ _) (by omega)
  rw [bits_safeDiv (by rw [hbits]; exact hlt), hbits]

section
variable (hamount : amount < 2 ^ 64)
include hamount

theorem toU64_rate (hrate : rate.bits ≤ 2 ^ 64) :
    ((ofNat amount).saturatingMul rate).toU64 = amount * rate.bits / 2 ^ 64 := by
  have hbits : (ofNat amount : U64F64).bits * rate.bits / 2 ^ 64 = amount * rate.bits := by
    rw [bits_ofNat64 hamount, Nat.mul_right_comm, Nat.mul_div_cancel _ (by decide)]
  have hprod : amount * rate.bits ≤ amount * 2 ^ 64 := Nat.mul_le_mul_left _ hrate
  have hmul : ((ofNat amount).saturatingMul rate).bits = amount * rate.bits := by
    rw [bits_saturatingMul (by rw [hbits]; omega), hbits]
  unfold toU64
  rw [hmul]
  omega

/-- The fee set aside for all of an amount. -/
theorem calculateFeeAmount_eq :
    p.calculateFeeAmount 1 amount false = amount * (p.feeRate.toNat * 2 ^ 64 / 65535) / 2 ^ 64 := by
  have hf : p.feeRate.toNat < 2 ^ 16 := p.feeRate.toNat_lt
  have hrate := bits_rate hf (k := 65535) (by decide) (by decide)
  unfold Pool.calculateFeeAmount
  simp only [Bool.false_eq_true, if_false, if_true]
  rw [toU64_rate hamount (by rw [hrate]; omega), hrate]

/-- The fee on top of an input. -/
theorem feeOnTop_le (hf : p.feeRate.toNat < 65535) :
    p.feeOnTop amount false ≤ amount * (p.feeRate.toNat * 2 ^ 64 / (65535 - p.feeRate.toNat)) / 2 ^ 64 := by
  have hsub : (ofNat 65535 : U64F64).saturatingSub (ofNat p.feeRate.toNat) =
      ofNat (65535 - p.feeRate.toNat) := by
    apply UFixed.ext
    rw [bits_saturatingSub, bits_ofNat64 (by decide), bits_ofNat64 (by omega), bits_ofNat64 (by omega), Nat.sub_mul]
  unfold Pool.feeOnTop
  simp only [Bool.false_eq_true, if_false]
  rw [hsub, ← bits_rate (by omega) (by omega) (by omega)]
  refine toU64_le.trans (Nat.div_le_div_right (bits_saturatingMul_le.trans ?_))
  rw [bits_ofNat64 hamount, Nat.mul_right_comm, Nat.mul_div_cancel _ (by decide)]
end

theorem feeOnTop_dropped : p.feeOnTop amount true = 0 := by
  unfold Pool.feeOnTop
  simp [saturatingMul, safeDiv, ofNat, saturate, toU64]

/-! ## Steps -/

/-- A step fills the order, or it stops at a price that is strictly closer than where the order would end. -/
theorem Step.choose_cases (t : Step) (p : Pool A) :
    ((t.choose p).deltaIn = t.possibleDeltaIn ∧ (t.choose p).fee = t.fee) ∨
      ∃ price, ¬ t.side.closer t.targetSqrtPrice price ∧
        (t.choose p).deltaIn = t.side.deltaIn t.currentLiquidity t.currentSqrtPrice price ∧
        (t.choose p).fee = p.feeOnTop (t.choose p).deltaIn t.dropFees := by
  unfold Step.choose
  split_ifs with hfills hlimit
  · exact .inl ⟨rfl, rfl⟩
  · refine .inr ⟨t.limitSqrtPrice, fun hcloser => hfills ⟨hcloser, ?_⟩, rfl, rfl⟩
    cases hside : t.side <;> simp only [hside, Side.closer, le_iff] at * <;> omega
  · refine .inr ⟨t.edgeSqrtPrice, fun hcloser => ?_, rfl, rfl⟩
    cases hside : t.side <;> simp only [hside, Side.closer, le_iff] at * <;> omega

theorem Step.determineAction_eq (t : Step) (p : Pool A) :
    ∃ action, t.determineAction p = { t.choose p with action } := by
  unfold Step.determineAction
  split_ifs
  · exact ⟨_, rfl⟩
  · exact ⟨_, rfl⟩

/-- An order that the rounding of the fee rate does not show in: without fees, or not so large that what the
    rounding is worth for it exceeds the fraction left after the fee. -/
def FeesFit (env : Env) (feeRate : UInt16) (dropFees : Bool) (amount : Nat) : Prop :=
  dropFees = true ∨ (env.mechanism = 1 ∧ 65535 * amount ≤ 2 ^ 64 * (65535 - feeRate.toNat))

/-- **A step takes at most what remains.** -/
theorem nextStep_takes (hrate : p.feeRate.toNat < 65535) (hfit : FeesFit env p.feeRate dropFees amount)
    (hamount : amount < 2 ^ 64) (hpos : 0 < amount) (hprice : side = .sell → 2 ≤ p.alphaSqrtPrice.bits) :
    (p.nextStep env side limitSqrtPrice dropFees amount).deltaIn +
      (p.nextStep env side limitSqrtPrice dropFees amount).fee ≤ amount := by
  have hfee : p.calculateFeeAmount env.mechanism amount dropFees < amount := by
    cases dropFees with
    | true => exact hpos
    | false =>
      by_cases hmechanism : env.mechanism = 1
      · have hless : p.feeRate.toNat * 2 ^ 64 / 65535 < 2 ^ 64 := by omega
        rw [hmechanism, calculateFeeAmount_eq hamount, Nat.div_lt_iff_lt_mul (by decide)]
        exact Nat.mul_lt_mul_of_pos_left hless hpos
      · simpa [Pool.calculateFeeAmount, hmechanism] using hpos
  obtain ⟨action, haction⟩ := (Step.new p env.mechanism side amount limitSqrtPrice dropFees).determineAction_eq p
  unfold Pool.nextStep
  rw [haction]
  obtain ⟨hdelta, hsame⟩ | ⟨price, hcloser, hdelta, htop⟩ :=
    (Step.new p env.mechanism side amount limitSqrtPrice dropFees).choose_cases p
  -- the order is filled: the fee set aside is the fee
  · rw [hdelta, hsame]
    exact (Nat.sub_add_cancel hfee.le).le
  -- the limit or the edge is reached: the input is less than what is left, and the fee is counted anew
  · have hless := deltaIn_lt (by omega) (by omega) hprice hcloser
    rw [htop, hdelta]
    show side.deltaIn (.ofNat p.currentLiquidity) p.alphaSqrtPrice price +
      p.feeOnTop (side.deltaIn (.ofNat p.currentLiquidity) p.alphaSqrtPrice price) dropFees ≤ amount
    generalize side.deltaIn (.ofNat p.currentLiquidity) p.alphaSqrtPrice price = input at hless
    cases dropFees with
    | true =>
      rw [feeOnTop_dropped]
      omega
    | false =>
      obtain ⟨hmechanism, hsmall⟩ := hfit.resolve_left (by decide)
      rw [hmechanism] at hless hfee
      have hinput : input < 2 ^ 64 := by omega
      exact (Nat.add_le_add_left (feeOnTop_le hinput hrate) _).trans
        (fee_room hrate (calculateFeeAmount_eq hamount) (le_refl _) hless hsmall)

/-! ## Swaps -/

/-- A sale that crosses a tick ends at the price of the tick: at the edge itself it would have stopped. -/
theorem Step.determineAction_crossing (t : Step) (p : Pool A) (hsell : t.side = .sell)
    (hcross : (t.determineAction p).action = .crossing) : (t.determineAction p).finalPrice = t.edgeSqrtPrice := by
  unfold Step.determineAction at hcross ⊢
  by_cases hedge : t.naturalReasonStopPrice = t.edgeSqrtPrice
  · rw [if_pos hedge] at hcross
    rw [hsell] at hcross
    cases hcross
  · rw [if_neg hedge] at hcross ⊢
    unfold Step.choose at hcross ⊢
    split_ifs at hcross ⊢
    rfl

/-- What has been taken and what remains are within the order. -/
structure WithinOrder (side : Side) (feeRate : UInt16) (amount : Nat) (p : Pool A) (acc : Progress) : Prop where
  rate : p.feeRate = feeRate
  sum : acc.inAcc + acc.feeAcc + acc.amountRemaining ≤ amount
  price : side = .sell → acc.amountRemaining ≠ 0 → 2 ≤ p.alphaSqrtPrice.bits

variable {feeRate : UInt16} {acc : Progress}

theorem WithinOrder.takes (h : WithinOrder side feeRate amount p acc) (hrate : feeRate.toNat < 65535)
    (hfit : FeesFit env feeRate dropFees amount) (hamount : amount < 2 ^ 64) (hmore : acc.amountRemaining ≠ 0) :
    (p.nextStep env side limitSqrtPrice dropFees acc.amountRemaining).deltaIn +
      (p.nextStep env side limitSqrtPrice dropFees acc.amountRemaining).fee ≤ acc.amountRemaining := by
  have hsum := h.sum
  have hless : acc.amountRemaining ≤ amount := by omega
  refine nextStep_takes (by rw [h.rate]; exact hrate) ?_ (by omega) (Nat.pos_of_ne_zero hmore)
    fun hsell => h.price hsell hmore
  rw [h.rate]
  exact hfit.imp_right fun hsmall => ⟨hsmall.1, (Nat.mul_le_mul_left _ hless).trans hsmall.2⟩

/-- What is added and what is left after a step that takes at most what remains. -/
theorem Progress.add_within {r : StepResult} {action : SwapStepAction}
    (htake : r.amountToTake = satAdd r.deltaIn r.feePaid)
    (hless : r.deltaIn + r.feePaid ≤ acc.amountRemaining) (hfits : acc.amountRemaining < 2 ^ 64) :
    (acc.add r action).inAcc + (acc.add r action).feeAcc + (acc.add r action).amountRemaining ≤
      acc.inAcc + acc.feeAcc + acc.amountRemaining := by
  rw [satAdd_eq (by omega)] at htake
  have hin := satAdd_le acc.inAcc r.deltaIn
  have hfee := satAdd_le acc.feeAcc r.feePaid
  unfold Progress.add
  dsimp only
  split_ifs
  · omega
  · omega

theorem WithinOrder.step (h : WithinOrder side feeRate amount p acc) (hrate : feeRate.toNat < 65535)
    (hfit : FeesFit env feeRate dropFees amount) (hamount : amount < 2 ^ 64) (hmore : acc.amountRemaining ≠ 0)
    (hp : (p.nextStep env side limitSqrtPrice dropFees acc.amountRemaining).Processed p p') :
    WithinOrder side feeRate amount p'
      (acc.add ((p.nextStep env side limitSqrtPrice dropFees acc.amountRemaining).report p)
        (p.nextStep env side limitSqrtPrice dropFees acc.amountRemaining).action) := by
  have htakes := @WithinOrder.takes _ _ _ _ limitSqrtPrice _ _ _ _ h hrate hfit hamount hmore
  have hsum := h.sum
  refine ⟨(congrArg Pool.feeRate hp.pool).trans h.rate, ?_, fun hsell hleft => ?_⟩
  · exact (Progress.add_within rfl htakes (by omega)).trans hsum
  · -- the loop goes on only after a crossing
    have hcross : (p.nextStep env side limitSqrtPrice dropFees acc.amountRemaining).action = .crossing := by
      cases haction : (p.nextStep env side limitSqrtPrice dropFees acc.amountRemaining).action with
      | crossing => rfl
      | stop =>
        rw [haction] at hleft
        exact absurd (by simp [Progress.add]) hleft
    have hprice : p'.alphaSqrtPrice = (p.nextStep env side limitSqrtPrice dropFees acc.amountRemaining).finalPrice :=
      congrArg Pool.alphaSqrtPrice hp.pool
    rw [hprice, Pool.nextStep, Step.determineAction_crossing _ p hsell hcross]
    exact TickIndex.asSqrtPriceBounded_ge _

theorem Visits.withinOrder {q' : Pool A} {acc' : Progress} (hrate : feeRate.toNat < 65535)
    (hfit : FeesFit env feeRate dropFees amount) (hamount : amount < 2 ^ 64) (h : WithinOrder side feeRate amount q acc)
    (hvisit : Visits env side limitSqrtPrice dropFees q acc q' acc') : WithinOrder side feeRate amount q' acc' := by
  induction hvisit with
  | start => exact h
  | step _ hmore hstep ih => exact ih.step hrate hfit hamount hmore hstep

theorem maybeInitializeV3_feeRate [DecidableEq A] (hq : maybeInitializeV3 cfg env p = .ok () q) :
    q.feeRate = p.feeRate := by
  rcases of_ends maybeInitializeV3_ends hq with ⟨_, rfl⟩ | ⟨_, q0, position, hadded, _, _, _, _, rfl⟩
  · rfl
  · show q0.feeRate = p.feeRate
    rw [hadded.pool]

/-- **A swap takes at most the order**, and each of its steps at most what remains, for orders whose fees the
    rounding of the fee rate does not show in, and for sales from a price above the smallest. -/
theorem swapInner_takes_at_most_order [DecidableEq A] {r : SwapResult} (hamount : amount < 2 ^ 64)
    (hrate : p.feeRate.toNat < 65535) (hfit : FeesFit env p.feeRate dropFees amount)
    (hprice : ∀ q, maybeInitializeV3 cfg env p = .ok () q → side = .sell → 2 ≤ q.alphaSqrtPrice.bits)
    (hok : swapInner cfg env side amount limitSqrtPrice dropFees p = .ok r p') :
    r.amountPaidIn + r.feePaid ≤ amount ∧
      ∃ q, maybeInitializeV3 cfg env p = .ok () q ∧
        ∀ q' acc, Visits env side limitSqrtPrice dropFees q ⟨amount, 0, 0, 0, 0⟩ q' acc → acc.amountRemaining ≠ 0 →
          (q'.nextStep env side limitSqrtPrice dropFees acc.amountRemaining).deltaIn +
            (q'.nextStep env side limitSqrtPrice dropFees acc.amountRemaining).fee ≤ acc.amountRemaining := by
  have hstart : ∀ q, maybeInitializeV3 cfg env p = .ok () q →
      WithinOrder side p.feeRate amount q ⟨amount, 0, 0, 0, 0⟩ := fun q hq =>
    ⟨maybeInitializeV3_feeRate hq, by simp, fun hsell _ => hprice q hq hsell⟩
  obtain ⟨q, acc, hq, hvisit, hdone, rfl⟩ := of_ends swapInner_ends hok
  have hsum := (hvisit.withinOrder hrate hfit hamount (hstart q hq)).sum
  refine ⟨by simpa [hdone] using hsum, q, hq, fun q' acc' hvisit' hmore => ?_⟩
  exact (hvisit'.withinOrder hrate hfit hamount (hstart q hq)).takes hrate hfit hamount hmore

open Sample

theorem swapInner_takes_at_most_order_sale :
    ∃ r p', swapInner config balanced .sell 1000000 (.ofNat 0) false Pool.empty = .ok r p' ∧
      0 < r.amountPaidOut ∧ r.amountPaidIn + r.feePaid ≤ 1000000 := by
  obtain ⟨q, hq, hprice⟩ : ∃ q, maybeInitializeV3 config balanced Pool.empty = .ok () q ∧
      2 ≤ q.alphaSqrtPrice.bits := by
    obtain ⟨_, q, hq, hprice⟩ := exists_of_ends
      (x := maybeInitializeV3 config balanced) (s := Pool.empty)
      (Q := fun _ q => 2 ≤ q.alphaSqrtPrice.bits) (by decide +kernel)
    exact ⟨q, hq, hprice⟩
  obtain ⟨r, p', hok, hpaid⟩ := exists_of_ends
    (x := swapInner config balanced .sell 1000000 (.ofNat 0) false) (s := Pool.empty)
    (Q := fun r _ => 0 < r.amountPaidOut) (by decide +kernel)
  refine ⟨r, p', hok, hpaid, (swapInner_takes_at_most_order (by decide) (by decide) (.inr ⟨rfl, by decide⟩) ?_ hok).1⟩
  intro q' hq' _
  cases hq.symm.trans hq'
  exact hprice

/-- At a fee rate of 65534 a purchase with a limit takes one TAO more than the order: the fee that was set aside
    is one too small, and the input at the limit is one less than what that leaves. -/
theorem swapInner_overcharges :
    ∃ r p', swapInner config balanced .buy 327675000065534 ⟨110680464461020307488, by decide⟩ false
        { (Pool.empty : Pool Bool) with feeRate := 65534 } = .ok r p' ∧
      r.amountPaidIn = 5000000001 ∧ r.feePaid = 327670000065534 := by
  exact exists_of_ends (by decide +kernel)
end Qubitum.Swap
