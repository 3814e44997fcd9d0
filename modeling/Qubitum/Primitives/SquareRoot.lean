import Mathlib.Analysis.Real.Sqrt
import Qubitum.Lib.Fixed

/-!
# `Primitives.SquareRoot` — how far `checked_sqrt` is off

The root is searched by bisection. The test compares a quotient, rounded down, with its divisor, which tells exactly on
which side of the root the divisor lies; so the root stays between the two ends (`Bracket`). No division fails, and the
result is as close as was asked for (`checked_sqrt_accurate`).
-/

namespace Qubitum.Primitives
open Fixed UFixed

/-- The number itself. -/
noncomputable def value (x : U64F64) : ℝ := x.bits / 2 ^ 64

/-- `checked_div` gives a quotient. -/
def Divides (x y : U64F64) : Prop := y.bits ≠ 0 ∧ x.bits * 2 ^ 64 / y.bits < 2 ^ 128

/-- The `middle` of `checked_sqrt`. -/
def half (low high : U64F64) : U64F64 := (high.saturatingAdd low).safeDiv (ofNat 2)

/-- The loop of `checked_sqrt` goes on. -/
def Far (x epsilon middle : U64F64) : Prop := epsilon < (x.safeDiv middle).absDiff middle

/-- The ends whenever the loop of `checked_sqrt` computes `middle` and `check_val`. -/
inductive Visits (x epsilon : U64F64) : (low high : U64F64) → Prop
  | large : ofNat 1 < x → Visits x epsilon (ofNat 0) x
  | small : ¬ofNat 1 < x → Visits x epsilon x (ofNat 1)
  | lower {low high : U64F64} : Visits x epsilon low high → Far x epsilon (half low high) →
      x.safeDiv (half low high) < half low high → Visits x epsilon low (half low high)
  | raise {low high : U64F64} : Visits x epsilon low high → Far x epsilon (half low high) →
      ¬x.safeDiv (half low high) < half low high → Visits x epsilon (half low high) high

/-- The root lies between the ends. -/
structure Bracket (x low high : U64F64) : Prop where
  above : low.bits ^ 2 ≤ x.bits * 2 ^ 64
  below : x.bits * 2 ^ 64 ≤ high.bits ^ 2
  fits : low.bits + high.bits < 2 ^ 128
  pos : 2 ≤ low.bits + high.bits

/-- Within `epsilon`, and a unit above. -/
def Near (x epsilon r : U64F64) : Prop :=
  (r.bits - epsilon.bits) ^ 2 ≤ x.bits * 2 ^ 64 ∧ x.bits * 2 ^ 64 ≤ (r.bits + epsilon.bits + 1) ^ 2

variable {x epsilon low high : U64F64}

theorem absDiff_bits (x y : U64F64) :
    (x.absDiff y).bits = if x.bits < y.bits then y.bits - x.bits else x.bits - y.bits := by
  simp only [absDiff, lt_iff, apply_ite bits, bits_saturatingSub]

/-- A quotient close to its divisor. -/
theorem near_of_close {q r e n : Nat} (hr : 0 < r) (hq : q = n / r) (hlow : r ≤ q + e) (hhigh : q ≤ r + e) :
    (r - e) ^ 2 ≤ n ∧ n ≤ (r + e + 1) ^ 2 := by
  constructor
  · calc (r - e) ^ 2 ≤ q * r := by rw [pow_two]; exact Nat.mul_le_mul (by omega) (by omega)
      _ ≤ n := hq ▸ Nat.div_mul_le_self n r
  · calc n ≤ (q + 1) * r := by rw [hq, Nat.mul_comm]; exact (Nat.lt_mul_div_succ n hr).le
      _ ≤ (r + e + 1) ^ 2 := by rw [pow_two]; exact Nat.mul_le_mul (by omega) (by omega)

namespace Bracket

section
variable (h : Bracket x low high)
include h

theorem half_eq : Divides (high.saturatingAdd low) (ofNat 2) ∧
    (half low high).bits = (low.bits + high.bits) / 2 := by
  have hfits := h.fits
  have hquot : (high.saturatingAdd low).bits * 2 ^ 64 / (ofNat 2 : U64F64).bits = (low.bits + high.bits) / 2 := by
    rw [bits_saturatingAdd, Nat.min_eq_left (by omega), bits_ofNat (by decide), Nat.mul_div_mul_right _ _ (by decide),
      Nat.add_comm]
  have hlt : (high.saturatingAdd low).bits * 2 ^ 64 / (ofNat 2 : U64F64).bits < 2 ^ 128 := by omega
  exact ⟨⟨by rw [bits_ofNat (by decide)]; decide, hlt⟩, (bits_safeDiv hlt).trans hquot⟩

theorem ends_le : low.bits ≤ high.bits :=
  (Nat.pow_le_pow_iff_left (by decide)).1 (h.above.trans h.below)

theorem half_pos : 0 < (half low high).bits := by
  rw [h.half_eq.2]
  exact Nat.div_pos h.pos (by decide)

/-- The middle is at least about half the root, so that the quotient fits. -/
theorem check_eq : Divides x (half low high) ∧
    (x.safeDiv (half low high)).bits = x.bits * 2 ^ 64 / (half low high).bits := by
  have hpos := h.half_pos
  have hthird : high.bits ≤ 3 * (half low high).bits := by
    rw [h.half_eq.2] at hpos ⊢
    omega
  generalize half low high = middle at *
  have hfits : x.bits * 2 ^ 64 / middle.bits < 2 ^ 128 := by
    rw [Nat.div_lt_iff_lt_mul hpos]
    by_contra hover
    have hsquare : 2 ^ 128 * middle.bits ≤ 9 * middle.bits * middle.bits := by
      calc 2 ^ 128 * middle.bits ≤ x.bits * 2 ^ 64 := Nat.le_of_not_lt hover
        _ ≤ high.bits ^ 2 := h.below
        _ ≤ (3 * middle.bits) ^ 2 := Nat.pow_le_pow_left hthird 2
        _ = 9 * middle.bits * middle.bits := by ring
    have hlarge := Nat.le_of_mul_le_mul_right hsquare hpos
    have hx := x.lt
    omega
  exact ⟨⟨hpos.ne', hfits⟩, bits_safeDiv hfits⟩

/-- The test tells on which side of the middle the root is. -/
theorem side : x.safeDiv (half low high) < half low high ↔ x.bits * 2 ^ 64 < (half low high).bits ^ 2 := by
  rw [lt_iff, h.check_eq.2, Nat.div_lt_iff_lt_mul h.half_pos, pow_two]

theorem lower (hpos : 0 < epsilon.bits)
    (hfar : Far x epsilon (half low high)) (hlt : x.safeDiv (half low high) < half low high) :
    Bracket x low (half low high) := by
  have hle := h.ends_le
  have hhalf := h.half_eq.2
  have hfits := h.fits
  have hroot := h.side.1 hlt
  rw [Far, lt_iff, absDiff_bits, if_pos (lt_iff.1 hlt)] at hfar
  exact ⟨h.above, hroot.le, by omega, by omega⟩

theorem raise (hge : ¬x.safeDiv (half low high) < half low high) :
    Bracket x (half low high) high := by
  have hle := h.ends_le
  have hhalf := h.half_eq.2
  have hpos := h.half_pos
  have hroot : (half low high).bits ^ 2 ≤ x.bits * 2 ^ 64 := Nat.le_of_not_lt (mt h.side.2 hge)
  have hsmall : (half low high).bits < 2 ^ 96 := by
    by_contra hlarge
    have hsquare := Nat.pow_le_pow_left (Nat.le_of_not_lt hlarge) 2
    have hx := x.lt
    omega
  exact ⟨hroot, h.below, by omega, by omega⟩
end

theorem large (h : ofNat 1 < x) : Bracket x (ofNat 0) x := by
  have hlarge : 2 ^ 64 < x.bits := h
  have hx := x.lt
  have hzero : (ofNat 0 : U64F64).bits = 0 := bits_ofNat (by decide)
  refine ⟨Nat.zero_le _, ?_, by omega, by omega⟩
  rw [pow_two]
  exact Nat.mul_le_mul_left _ hlarge.le

theorem small (h : ¬ofNat 1 < x) : Bracket x x (ofNat 1) := by
  have hone : (ofNat 1 : U64F64).bits = 2 ^ 64 := bits_ofNat (by decide)
  have hsmall : x.bits ≤ 2 ^ 64 := Nat.le_of_not_lt h
  refine ⟨?_, by rw [hone]; omega, by omega, by omega⟩
  rw [pow_two]
  exact Nat.mul_le_mul_left _ hsmall

/-- The loop, with a round for each halving of the interval: it ends with a middle that is close to its quotient, or
    with an interval of a unit. -/
theorem bisect_near (hpos : 0 < epsilon.bits) {fuel : Nat} (h : Bracket x low high)
    (hwidth : high.bits ≤ low.bits + 2 ^ (fuel - 1)) :
    Near x epsilon (bisect x epsilon fuel low high (half low high)) := by
  have hle := h.ends_le
  have hhalf := h.half_eq.2
  induction fuel generalizing low high with
  | zero =>
    have hmiddle : (half low high).bits = low.bits := by omega
    constructor
    · exact (Nat.pow_le_pow_left (by show (half low high).bits - _ ≤ _; omega) 2).trans h.above
    · exact h.below.trans (Nat.pow_le_pow_left (by show _ ≤ (half low high).bits + _ + 1; omega) 2)
  | succ fuel ih =>
    have hwider : 2 ^ (fuel + 1 - 1) ≤ 2 * 2 ^ (fuel - 1) := by
      rw [← Nat.pow_succ']
      exact Nat.pow_le_pow_right (by decide) (by omega)
    rw [bisect]
    by_cases hfar : epsilon < (x.safeDiv (half low high)).absDiff (half low high)
    · rw [if_pos hfar]
      by_cases hlt : x.safeDiv (half low high) < half low high
      · rw [if_pos hlt]
        have hnext := h.lower hpos hfar hlt
        exact ih hnext (by omega) hnext.ends_le hnext.half_eq.2
      · rw [if_neg hlt]
        have hnext := h.raise hlt
        exact ih hnext (by omega) hnext.ends_le hnext.half_eq.2
    · have hclose := Nat.le_of_not_lt (mt lt_iff.2 hfar)
      rw [absDiff_bits] at hclose
      rw [if_neg hfar]
      refine near_of_close h.half_pos h.check_eq.2 ?_ ?_
      · split_ifs at hclose <;> omega
      · split_ifs at hclose <;> omega
end Bracket

theorem Visits.bracket (hpos : 0 < epsilon.bits) (h : Visits x epsilon low high) : Bracket x low high := by
  induction h with
  | large h => exact .large h
  | small h => exact .small h
  | lower _ hfar hlt ih => exact ih.lower hpos hfar hlt
  | raise _ _ hge ih => exact ih.raise hge

theorem Near.abs_sub_le {r : U64F64} (h : Near x epsilon r) :
    |value r - √(value x)| ≤ value epsilon + 2 ^ (-62 : ℤ) := by
  have hvalue : value x = (x.bits * 2 ^ 64 : ℕ) / (2 ^ 64) ^ 2 := by
    rw [value, Nat.cast_mul]
    norm_num
    ring
  have hlow : (r.bits : ℝ) - epsilon.bits ≤ √(x.bits * 2 ^ 64 : ℕ) := by
    have hdiff : (r.bits : ℝ) ≤ (r.bits - epsilon.bits : ℕ) + epsilon.bits := by exact_mod_cast le_tsub_add
    have hsqrt : ((r.bits - epsilon.bits : ℕ) : ℝ) ≤ √(x.bits * 2 ^ 64 : ℕ) :=
      Real.le_sqrt_of_sq_le (by exact_mod_cast h.1)
    linarith
  have hhigh : √(x.bits * 2 ^ 64 : ℕ) ≤ r.bits + epsilon.bits + 1 :=
    (Real.sqrt_le_left (by positivity)).2 (by exact_mod_cast h.2)
  have hunits : (2 : ℝ) ^ (-62 : ℤ) = 4 / 2 ^ 64 := by norm_num
  rw [hvalue, Real.sqrt_div' _ (by positivity), Real.sqrt_sq (by positivity), hunits, value, value, ← sub_div, ← add_div,
    abs_div, abs_of_pos (show (0 : ℝ) < 2 ^ 64 by positivity)]
  gcongr
  rw [abs_sub_le_iff]
  constructor <;> linarith

/-- **The root is accurate**: no division fails, and the result is within `epsilon` and four units of the root. -/
theorem checked_sqrt_accurate (x epsilon : U64F64) (hpos : 0 < epsilon.bits) :
    (∀ low high, Visits x epsilon low high →
      Divides (high.saturatingAdd low) (ofNat 2) ∧ Divides x (half low high)) ∧
    |value (x.checkedSqrt epsilon) - √(value x)| ≤ value epsilon + 2 ^ (-62 : ℤ) := by
  constructor
  · intro low high hvisits
    have hbracket := hvisits.bracket hpos
    exact ⟨hbracket.half_eq.1, hbracket.check_eq.1⟩
  · apply Near.abs_sub_le
    have hx := x.lt
    unfold checkedSqrt
    by_cases hlarge : ofNat 1 < x
    · rw [if_pos hlarge]
      exact (Bracket.large hlarge).bisect_near hpos (by omega)
    · rw [if_neg hlarge]
      refine (Bracket.small hlarge).bisect_near hpos ?_
      rw [bits_ofNat (by decide)]
      omega

theorem checked_sqrt_accurate_two : |value ((ofNat 2 : U64F64).checkedSqrt ⟨1, by decide⟩) - √(value (ofNat 2))| ≤
    value ⟨1, by decide⟩ + 2 ^ (-62 : ℤ) :=
  (checked_sqrt_accurate (ofNat 2) ⟨1, by decide⟩ (by decide)).2
end Qubitum.Primitives
