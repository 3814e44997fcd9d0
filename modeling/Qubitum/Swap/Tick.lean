import Mathlib.Data.Nat.Bitwise
import Qubitum.Lib.Fixed

/-!
# `Swap.Tick` — tick indexes and the square root prices they stand for

A tick is a power of the square root of 1.0001: `get_sqrt_ratio_at_tick` and its inverse, in the format with 96
bits after the point that the formulas were written for, and the conversions to and from `U64F64`.
256-bit words are natural numbers; no product here leaves 256 bits before it is shifted back.
-/

namespace Qubitum.Swap
open Fixed

/-- `TickIndex` -/
abbrev TickIndex := Int

/-- A square root price. -/
abbrev SqrtPrice := U64F64

namespace TickIndex

/-- `TickIndex::MAX` -/
def max : TickIndex := 443636

/-- `TickIndex::MIN` -/
def min : TickIndex := -443636

/-- `TickIndex::OFFSET` -/
def offset : TickIndex := 887272

/-- `TickIndex::new`: an index that is in bounds. -/
def new? (value : Int) : Option TickIndex := if min ≤ value ∧ value ≤ max then some value else none

def next (tick : TickIndex) : Option TickIndex := new? (tick + 1)

def prev (tick : TickIndex) : Option TickIndex := new? (tick - 1)

/-- The bounds that `current_bounded` puts on the current tick. -/
def bounded (tick : TickIndex) : TickIndex := if max < tick then max else if tick < min then min else tick
end TickIndex

/-! ## The price at a tick -/

/-- The inverses of the powers of two of the base, with 128 bits after the point. -/
def ratioFactors : List (Nat × Nat) :=
  [(2, 0xfff97272373d413259a46990580e213a),
   (4, 0xfff2e50f5f656932ef12357cf3c7fdcc),
   (8, 0xffe5caca7e10e4e61c3624eaa0941cd0),
   (16, 0xffcb9843d60f6159c9db58835c926644),
   (32, 0xff973b41fa98c081472e6896dfb254c0),
   (64, 0xff2ea16466c96a3843ec78b326b52861),
   (128, 0xfe5dee046a99a2a811c461f1969c3053),
   (256, 0xfcbe86c7900a88aedcffc83b479aa3a4),
   (512, 0xf987a7253ac413176f2b074cf7815e54),
   (1024, 0xf3392b0822b70005940c7a398e4b70f3),
   (2048, 0xe7159475a2c29b7443b29c7fa6e889d9),
   (4096, 0xd097f3bdfd2022b8845ad8f792aa5825),
   (8192, 0xa9f746462d870fdf8a65dc1f90e061e5),
   (16384, 0x70d869a156d2a1b890bb3df62baf32f7),
   (32768, 0x31be135f97d08fd981231505542fcfa6),
   (65536, 0x9aa508b5b7a84e1c677de54f3e99bc9),
   (131072, 0x5d6af8dedb81196699c329225ee604),
   (262144, 0x2216e584f5fa1ea926041bedfe98),
   (524288, 0x48a170391f7dc42444e8fa2)]

/-- One factor, if the tick has its bit. -/
def scaleRatio (absTick ratio : Nat) (e : Nat × Nat) : Nat :=
  if absTick &&& e.1 ≠ 0 then (ratio * e.2) >>> 128 else ratio

/-- The price at the negative tick, with 128 bits after the point. -/
def ratioBelow (absTick : Nat) : Nat :=
  ratioFactors.foldl (scaleRatio absTick) (if absTick &&& 1 ≠ 0 then 0xfffcb933bd6fad37aa2d162d1a594001 else 2 ^ 128)

def getSqrtRatioAtTick (tick : Int) : Option Nat :=
  let absTick := tick.natAbs
  if 887272 < absTick then none
  else
    let ratio := if 0 < tick then (2 ^ 256 - 1) / ratioBelow absTick else ratioBelow absTick
    -- rounded up
    some (if ratio % 2 ^ 32 ≠ 0 then (ratio >>> 32) + 1 else ratio >>> 32)

/-- `u256_q64_96_to_u64f64`, rounded up -/
def ofQ64x96 (x : Nat) : Option SqrtPrice :=
  let rounded := if x % 2 ^ 32 ≠ 0 then (x >>> 32) + 1 else x >>> 32
  if h : rounded < 2 ^ 128 then some ⟨rounded, h⟩ else none

/-- `u64f64_to_u256_q64_96` -/
def toQ64x96 (x : SqrtPrice) : Nat := x.bits <<< 32

namespace TickIndex

/-- `min_sqrt_price`, which is `0.0000000002328350195` -/
def minSqrtPrice : SqrtPrice := ⟨4295048016, by decide⟩

/-- `max_sqrt_price`, which is `4294886577.20989222513899790805` as a double -/
def maxSqrtPrice : SqrtPrice := ⟨79226673515401280874390487040, by decide⟩

def tryToSqrtPrice (tick : TickIndex) : Option SqrtPrice :=
  if min ≤ tick ∧ tick ≤ max then (getSqrtRatioAtTick tick).bind ofQ64x96 else none

def asSqrtPriceBounded (tick : TickIndex) : SqrtPrice :=
  (tryToSqrtPrice tick).getD (if max ≤ tick then maxSqrtPrice else minSqrtPrice)
end TickIndex

/-! ### Bounds -/

/-- All factors of a list, whether or not the tick has their bits. -/
def scaleAll (ratio : Nat) (factors : List (Nat × Nat)) : Nat :=
  factors.foldl (fun ratio e => (ratio * e.2) >>> 128) ratio

theorem scaleRatio_bounds {absTick ratio low : Nat} {e : Nat × Nat} (hfactor : e.2 ≤ 2 ^ 128) (hlow : low ≤ ratio) :
    (low * e.2) >>> 128 ≤ scaleRatio absTick ratio e ∧ scaleRatio absTick ratio e ≤ ratio := by
  have hscaled : (ratio * e.2) >>> 128 ≤ ratio := by
    rw [Nat.shiftRight_eq_div_pow]
    exact Nat.div_le_of_le_mul (by rw [Nat.mul_comm]; exact Nat.mul_le_mul_right _ hfactor)
  have hmono : (low * e.2) >>> 128 ≤ (ratio * e.2) >>> 128 := by
    rw [Nat.shiftRight_eq_div_pow, Nat.shiftRight_eq_div_pow]
    exact Nat.div_le_div_right (Nat.mul_le_mul_right _ hlow)
  unfold scaleRatio
  by_cases hbit : absTick &&& e.1 ≠ 0
  · rw [if_pos hbit]
    exact ⟨hmono, hscaled⟩
  · rw [if_neg hbit]
    exact ⟨hmono.trans hscaled, le_refl _⟩

/-- Every factor scales down, so the product with all of them is a lower bound. -/
theorem foldl_scaleRatio_bounds {absTick : Nat} {factors : List (Nat × Nat)}
    (hfactors : ∀ e ∈ factors, e.2 ≤ 2 ^ 128) {ratio low : Nat} (hlow : low ≤ ratio) :
    scaleAll low factors ≤ factors.foldl (scaleRatio absTick) ratio ∧
      factors.foldl (scaleRatio absTick) ratio ≤ ratio := by
  induction factors generalizing ratio low with
  | nil => exact ⟨hlow, le_refl _⟩
  | cons e rest ih =>
    have hstep := @scaleRatio_bounds absTick ratio low e (hfactors e List.mem_cons_self) hlow
    have hrest := ih (fun e' he' => hfactors e' (List.mem_cons_of_mem _ he')) hstep.1
    exact ⟨hrest.1, hrest.2.trans hstep.2⟩

/-- Within the bounds of a tick index the highest bit is never set. -/
theorem ratioBelow_bounds {absTick : Nat} (h : absTick < 2 ^ 19) :
    2 ^ 90 ≤ ratioBelow absTick ∧ ratioBelow absTick ≤ 2 ^ 128 := by
  have hbit : absTick &&& 524288 = 0 := by
    have htest : absTick.testBit 19 = false := Nat.testBit_lt_two_pow h
    have hand : absTick &&& 2 ^ 19 = (absTick.testBit 19).toNat * 2 ^ 19 := Nat.and_two_pow absTick 19
    rw [htest] at hand
    simpa using hand
  have hlast : ∀ ratio, scaleRatio absTick ratio (524288, 0x48a170391f7dc42444e8fa2) = ratio := by
    intro ratio
    unfold scaleRatio
    rw [if_neg (fun hne => hne hbit)]
  -- the fold stops before the factor of the highest bit
  have hfold : ratioBelow absTick = ratioFactors.dropLast.foldl (scaleRatio absTick)
      (if absTick &&& 1 ≠ 0 then 0xfffcb933bd6fad37aa2d162d1a594001 else 2 ^ 128) := by
    unfold ratioBelow
    rw [show ratioFactors = ratioFactors.dropLast ++ [(524288, 0x48a170391f7dc42444e8fa2)] from rfl,
      List.foldl_append, List.foldl_cons, List.foldl_nil, hlast]
    rfl
  have hstart : ∀ start : Nat, 0xfffcb933bd6fad37aa2d162d1a594001 ≤ start → start ≤ 2 ^ 128 →
      2 ^ 90 ≤ ratioFactors.dropLast.foldl (scaleRatio absTick) start ∧
        ratioFactors.dropLast.foldl (scaleRatio absTick) start ≤ 2 ^ 128 := by
    intro start hlow hhigh
    have hbounds := @foldl_scaleRatio_bounds absTick ratioFactors.dropLast (by decide) start _ hlow
    have hall : 2 ^ 90 ≤ scaleAll 0xfffcb933bd6fad37aa2d162d1a594001 ratioFactors.dropLast := by decide +kernel
    exact ⟨hall.trans hbounds.1, hbounds.2.trans hhigh⟩
  rw [hfold]
  by_cases hodd : absTick &&& 1 ≠ 0
  · rw [if_pos hodd]
    exact hstart _ (le_refl _) (by decide)
  · rw [if_neg hodd]
    exact hstart _ (by decide) (le_refl _)

theorem getSqrtRatioAtTick_ge {tick : Int} (hmin : TickIndex.min ≤ tick) (hmax : tick ≤ TickIndex.max) :
    ∃ x, getSqrtRatioAtTick tick = some x ∧ 2 ^ 58 ≤ x := by
  have habs : tick.natAbs < 2 ^ 19 ∧ ¬ 887272 < tick.natAbs := by
    have hlow : (-443636 : Int) ≤ tick := hmin
    have hhigh : tick ≤ (443636 : Int) := hmax
    omega
  obtain ⟨hlow, hhigh⟩ := ratioBelow_bounds habs.1
  have hround : ∀ ratio : Nat, 2 ^ 90 ≤ ratio →
      2 ^ 58 ≤ if ratio % 2 ^ 32 ≠ 0 then (ratio >>> 32) + 1 else ratio >>> 32 := by
    intro ratio hratio
    have hshift : 2 ^ 58 ≤ ratio >>> 32 := by
      rw [Nat.shiftRight_eq_div_pow]
      exact (Nat.le_div_iff_mul_le (by decide)).mpr hratio
    split_ifs
    · exact hshift.trans (Nat.le_succ _)
    · exact hshift
  unfold getSqrtRatioAtTick
  simp only [habs.2, if_false]
  refine ⟨_, rfl, hround _ ?_⟩
  by_cases hpos : 0 < tick
  · rw [if_pos hpos]
    refine le_trans (b := (2 ^ 256 - 1) / 2 ^ 128) (by decide) (Nat.div_le_div_left hhigh ?_)
    exact lt_of_lt_of_le (by decide) hlow
  · rw [if_neg hpos]
    exact hlow

/-- The prices at ticks are far above the smallest price. -/
theorem TickIndex.asSqrtPriceBounded_ge (tick : TickIndex) : 2 ≤ tick.asSqrtPriceBounded.bits := by
  unfold asSqrtPriceBounded
  cases hprice : tick.tryToSqrtPrice with
  | none =>
    show 2 ≤ (if max ≤ tick then maxSqrtPrice else minSqrtPrice).bits
    split_ifs
    · decide
    · decide
  | some price =>
    show 2 ≤ price.bits
    unfold tryToSqrtPrice at hprice
    split_ifs at hprice with hrange
    obtain ⟨x, hx, hge⟩ := getSqrtRatioAtTick_ge hrange.1 hrange.2
    have hshift : 2 ≤ x >>> 32 := by
      rw [Nat.shiftRight_eq_div_pow]
      exact (Nat.le_div_iff_mul_le (by decide)).mpr (le_trans (by decide) hge)
    rw [hx, Option.bind_some] at hprice
    unfold ofQ64x96 at hprice
    simp only at hprice
    split_ifs at hprice with hup hfit hfit
    · cases hprice
      exact hshift.trans (Nat.le_succ _)
    · cases hprice
      exact hshift

/-! ## The tick at a price -/

/-- `MIN_SQRT_RATIO` -/
def minSqrtRatio : Nat := 4295128739

/-- `MAX_SQRT_RATIO` -/
def maxSqrtRatio : Nat := 1461446703485210103287273052203988822378723970342

/-- The position of the highest bit, found by halving. -/
def mostSignificantBit (ratio : Nat) : Nat :=
  ([7, 6, 5, 4, 3, 2, 1, 0].foldl
    (fun (msb, r) k => if 2 ^ 2 ^ k - 1 < r then (msb ||| 2 ^ k, r >>> 2 ^ k) else (msb, r)) (0, ratio)).1

/-- One bit of the logarithm: square, and halve if there is a carry. -/
def logStep (log : Int) (r : Nat) (bit : Nat) : Int × Nat :=
  let r := (r * r % 2 ^ 256) >>> 127
  let f := r >>> 128
  (log + (f <<< bit : Nat), r >>> f)

/-- The logarithm to base two with 14 bits after the point, of 64. -/
def log2Ratio (ratio : Nat) : Int :=
  let msb := mostSignificantBit ratio
  let r := if 128 ≤ msb then ratio >>> (msb - 127) else ratio <<< (127 - msb)
  ((List.range 14).foldl (fun (log, r) i => logStep log r (63 - i)) (((msb : Int) - 128) * 2 ^ 64, r)).1

def getTickAtSqrtRatio (sqrtPriceX96 : Nat) : Option Int :=
  if minSqrtRatio ≤ sqrtPriceX96 ∧ sqrtPriceX96 < maxSqrtRatio then
    let logSqrt10001 := log2Ratio (sqrtPriceX96 <<< 32) * 255738958999603826347141
    let tickLow := (logSqrt10001 - 3402992956809132418596140100660247210) / 2 ^ 128
    let tickHigh := (logSqrt10001 + 291339464771989622907027621153398088495) / 2 ^ 128
    if tickLow = tickHigh then some tickLow
    else do
      let ratio ← getSqrtRatioAtTick tickHigh
      return if ratio ≤ sqrtPriceX96 then tickHigh else tickLow
  else none

namespace TickIndex

/-- The estimate is corrected by one in either direction. -/
def tryFromSqrtPrice (sqrtPrice : SqrtPrice) : Option TickIndex := do
  let priceX96 := toQ64x96 sqrtPrice
  let tick ← getTickAtSqrtRatio priceX96
  let priceAtTick ← getSqrtRatioAtTick tick
  if priceX96 < priceAtTick then new? (tick - 1)
  else
    let priceAtTickPlus ← getSqrtRatioAtTick (tick + 1)
    new? (if priceAtTickPlus ≤ priceX96 then tick + 1 else tick)

def fromSqrtPriceBounded (sqrtPrice : SqrtPrice) : TickIndex :=
  (tryFromSqrtPrice sqrtPrice).getD (if max.asSqrtPriceBounded < sqrtPrice then max else min)
end TickIndex
end Qubitum.Swap
