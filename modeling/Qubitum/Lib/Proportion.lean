import Mathlib.Algebra.BigOperators.Group.List.Lemmas
import Mathlib.Tactic

/-!
# `Lib.Proportion` — splitting an amount in proportion, rounded down

Each part of a whole gets its share of an amount, rounded down. Together the shares are not more than the amount
(`sum_floor_le`), and they fall short of it by less than one unit for each part (`lt_sum_floor_add_length`).
-/

namespace Proportion

section
variable (amount whole : Nat) (parts : List Nat)

/-- Together, what is left over after rounding down. -/
theorem sum_floor_add_sum_mod :
    whole * (parts.map fun part => part * amount / whole).sum + (parts.map fun part => part * amount % whole).sum =
      parts.sum * amount := by
  induction parts with
  | nil => simp
  | cons part parts ih =>
    have hpart := Nat.div_add_mod (part * amount) whole
    simp only [List.map_cons, List.sum_cons, Nat.mul_add, Nat.add_mul]
    omega

/-- Of `amount` for every `whole`, the parts get no more together than their sum would get. -/
theorem sum_floor_le_div :
    (parts.map fun part => part * amount / whole).sum ≤ parts.sum * amount / whole := by
  rcases Nat.eq_zero_or_pos whole with rfl | hwhole
  · simp
  · rw [Nat.le_div_iff_mul_le hwhole, Nat.mul_comm]
    have hsplit := sum_floor_add_sum_mod amount whole parts
    omega
end

theorem sum_floor_le (amount : Nat) (parts : List Nat) :
    (parts.map fun part => part * amount / parts.sum).sum ≤ amount := by
  refine (sum_floor_le_div amount parts.sum parts).trans ?_
  rcases Nat.eq_zero_or_pos parts.sum with hzero | hpos
  · simp [hzero]
  · rw [Nat.mul_div_cancel_left _ hpos]

theorem lt_sum_floor_add_length (amount : Nat) {parts : List Nat} (hpos : 0 < parts.sum) :
    amount < (parts.map fun part => part * amount / parts.sum).sum + parts.length := by
  have hsplit := sum_floor_add_sum_mod amount parts.sum parts
  -- every remainder is smaller than the whole
  have hmod : (parts.map fun part => part * amount % parts.sum).sum < parts.length * parts.sum := by
    have hne : parts ≠ [] := by
      rintro rfl
      simp at hpos
    generalize parts.sum = whole at hpos
    clear hsplit
    induction parts with
    | nil => exact absurd rfl hne
    | cons part parts ih =>
      have hlt := Nat.mod_lt (part * amount) hpos
      simp only [List.map_cons, List.sum_cons, List.length_cons, Nat.succ_mul]
      rcases parts with _ | ⟨part', parts'⟩
      · simpa using hlt
      · have := ih (List.cons_ne_nil _ _)
        omega
  refine Nat.lt_of_mul_lt_mul_left (a := parts.sum) ?_
  rw [Nat.mul_add, Nat.mul_comm parts.sum parts.length]
  omega
end Proportion
