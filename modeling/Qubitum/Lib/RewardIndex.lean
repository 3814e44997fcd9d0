import Mathlib.Algebra.BigOperators.Ring.Finset
import Mathlib.Algebra.Order.BigOperators.Group.Finset

/-!
# `Lib.RewardIndex` — rewards as a rate, and counters of what was claimed

Rewards are distributed to everybody who has a stake by raising one number: what has been earned, since the
beginning, by each unit of stake. It is kept in units of `1/D`. What somebody is owed is not stored. It is the
rate times the stake, less a counter of what has been claimed; when the stake changes, the counter is shifted by
what the rate makes of the change, rounded down. A withdrawal may also shift it by less.

A change of stake may round in favour of its owner, by less than one unit for each deposit. So what is paid out is
at most what was distributed and one for each deposit. The sum of what is owed is the potential: it pays for every
claim. Sums are over arbitrary finite sets of owners.
-/

namespace RewardIndex
open Finset Function

variable {K : Type} [DecidableEq K] {D : Nat}

structure Index (K : Type) where
  rate : Nat
  stake : K → Nat
  claimed : K → Nat

/-- What `k` is owed, in units of `1/D`. -/
def Index.owed (D : Nat) (x : Index K) (k : K) : Nat := x.rate * x.stake k - D * x.claimed k

/-- The ways a reward index changes, with what is paid out, what is distributed and the number of deposits. -/
inductive Change (D : Nat) (x : Index K) : Index K → Nat → Nat → Nat → Prop
  | distribute {rate amount : Nat} (hrate : x.rate ≤ rate)
      (hamount : ∀ C : Finset K, (rate - x.rate) * ∑ k ∈ C, x.stake k ≤ D * amount) :
      Change D x { x with rate } 0 amount 0
  | deposit (k : K) (a q : Nat) (hround : x.rate * a < D * q + D) :
      Change D x ⟨x.rate, update x.stake k (x.stake k + a), update x.claimed k (x.claimed k + q)⟩ 0 0 1
  | withdraw (k : K) (a q : Nat) (hstake : a ≤ x.stake k) (hround : D * q ≤ x.rate * a) :
      Change D x ⟨x.rate, update x.stake k (x.stake k - a), update x.claimed k (x.claimed k - q)⟩ 0 0 0
  | claim (k : K) (p : Nat) (howed : D * p ≤ x.owed D k) :
      Change D x { x with claimed := update x.claimed k (x.claimed k + p) } p 0 0

/-- A sequence of changes, with the totals. -/
inductive Changes (D : Nat) (x : Index K) : Index K → Nat → Nat → Nat → Prop
  | refl : Changes D x x 0 0 0
  | tail {y z : Index K} {paid distributed deposits p d n : Nat} (h : Changes D x y paid distributed deposits)
      (hlast : Change D y z p d n) : Changes D x z (paid + p) (distributed + d) (deposits + n)

variable {x y z : Index K} {paid distributed deposits p d n : Nat}

theorem Change.changes (h : Change D x y p d n) : Changes D x y p d n := by
  have hone : Changes D x y (0 + p) (0 + d) (0 + n) := .tail .refl h
  simpa using hone

theorem Changes.trans (h : Changes D x y paid distributed deposits) (h' : Changes D y z p d n) :
    Changes D x z (paid + p) (distributed + d) (deposits + n) := by
  induction h' with
  | refl => exact h
  | tail _ hlast ih =>
    simp only [← Nat.add_assoc]
    exact .tail ih hlast

/-! ## The potential -/

/-- What was paid out and what is still owed is within a budget. -/
def Within (D : Nat) (x : Index K) (paid budget : Nat) : Prop :=
  ∀ C : Finset K, D * paid + ∑ k ∈ C, x.owed D k ≤ D * budget

/-- If only one summand grows, the sum grows by at most as much. -/
theorem sum_le_sum_add {f g : K → Nat} {k : K} {e : Nat} (hother : ∀ j, j ≠ k → g j ≤ f j) (hk : g k ≤ f k + e)
    (C : Finset K) : ∑ j ∈ C, g j ≤ ∑ j ∈ C, f j + e := by
  by_cases hmem : k ∈ C
  · rw [← add_sum_erase C g hmem, ← add_sum_erase C f hmem]
    have hrest : ∑ j ∈ C.erase k, g j ≤ ∑ j ∈ C.erase k, f j := sum_le_sum fun j hj => hother j (ne_of_mem_erase hj)
    omega
  · have hall : ∑ j ∈ C, g j ≤ ∑ j ∈ C, f j := by
      refine sum_le_sum fun j hj => hother j ?_
      rintro rfl
      exact hmem hj
    omega

/-- One summand may be taken out of a sum, also if it is not in it. -/
theorem sum_le_add_sum_erase (f : K → Nat) (k : K) (C : Finset K) : ∑ j ∈ C, f j ≤ f k + ∑ j ∈ C.erase k, f j := by
  by_cases hmem : k ∈ C
  · rw [add_sum_erase C f hmem]
  · rw [erase_eq_of_notMem hmem]
    exact Nat.le_add_left _ _

variable {rate stake claimed a q : Nat}

/-- A deposit leaves its owner with less than one unit more. -/
theorem owed_deposit (hround : rate * a < D * q + D) :
    rate * (stake + a) - D * (claimed + q) ≤ rate * stake - D * claimed + D := by
  rw [Nat.mul_add, Nat.mul_add]
  omega

/-- A withdrawal leaves its owner with no more. -/
theorem owed_withdraw (hstake : a ≤ stake) (hround : D * q ≤ rate * a) :
    rate * (stake - a) - D * (claimed - q) ≤ rate * stake - D * claimed := by
  have hle : rate * a ≤ rate * stake := Nat.mul_le_mul_left rate hstake
  rw [Nat.mul_sub, Nat.mul_sub]
  omega

theorem Change.within {budget : Nat} (h : Within D x paid budget) (hchange : Change D x y p d n) :
    Within D y (paid + p) (budget + (d + n)) := by
  intro C
  cases hchange with
  | @distribute rate amount hrate hamount =>
    have hgrow : ∀ k, (⟨rate, x.stake, x.claimed⟩ : Index K).owed D k ≤ x.owed D k + (rate - x.rate) * x.stake k := by
      intro k
      show rate * x.stake k - D * x.claimed k ≤ x.rate * x.stake k - D * x.claimed k + (rate - x.rate) * x.stake k
      have hsplit : rate * x.stake k = x.rate * x.stake k + (rate - x.rate) * x.stake k := by
        rw [← Nat.add_mul, Nat.add_sub_cancel' hrate]
      omega
    have hsum : ∑ k ∈ C, (⟨rate, x.stake, x.claimed⟩ : Index K).owed D k ≤
        ∑ k ∈ C, x.owed D k + (rate - x.rate) * ∑ k ∈ C, x.stake k := by
      rw [mul_sum, ← sum_add_distrib]
      exact sum_le_sum fun k _ => hgrow k
    have hbefore := h C
    have hnew := hamount C
    simp only [Nat.add_zero, Nat.mul_add]
    omega
  | deposit k a q hround =>
    have hsum := sum_le_sum_add (f := x.owed D)
      (g := (⟨x.rate, update x.stake k (x.stake k + a),
        update x.claimed k (x.claimed k + q)⟩ : Index K).owed D) (k := k) (e := D)
      (fun j hj => by simp [Index.owed, hj]) (by simpa [Index.owed] using owed_deposit hround) C
    have hbefore := h C
    simp only [Nat.add_zero, Nat.zero_add, Nat.mul_add, Nat.mul_one]
    omega
  | withdraw k a q hstake hround =>
    have hsum := sum_le_sum_add (f := x.owed D)
      (g := (⟨x.rate, update x.stake k (x.stake k - a),
        update x.claimed k (x.claimed k - q)⟩ : Index K).owed D) (k := k) (e := 0)
      (fun j hj => by simp [Index.owed, hj]) (by simpa [Index.owed] using owed_withdraw hstake hround) C
    exact le_trans (Nat.add_le_add_left hsum _) (h C)
  | claim k p howed =>
    -- the owner's entitlement is part of the budget, whether or not the sum is about it
    set y : Index K := { x with claimed := update x.claimed k (x.claimed k + p) } with hy
    have hself : y.owed D k + D * p ≤ x.owed D k := by
      unfold Index.owed at howed ⊢
      simp only [hy, update_self, Nat.mul_add]
      omega
    have hrest : ∑ j ∈ C.erase k, y.owed D j = ∑ j ∈ C.erase k, x.owed D j := by
      refine sum_congr rfl fun j hj => ?_
      simp [hy, Index.owed, ne_of_mem_erase hj]
    have hless := sum_le_add_sum_erase (y.owed D) k C
    have hbefore := h (insert k (C.erase k))
    rw [sum_insert (notMem_erase k C)] at hbefore
    simp only [Nat.add_zero, Nat.mul_add]
    omega

/-- **What is paid out** is at most what was distributed and one for each deposit. -/
theorem Changes.paid_le (hD : 0 < D) (hrate : x.rate = 0) (h : Changes D x y paid distributed deposits) :
    paid ≤ distributed + deposits := by
  have hwithin : Within D y paid (distributed + deposits) := by
    induction h with
    | refl =>
      intro C
      simp [Index.owed, hrate]
    | tail _ hlast ih =>
      have hstep := hlast.within ih
      rwa [Nat.add_add_add_comm] at hstep
  have hempty := hwithin ∅
  exact Nat.le_of_mul_le_mul_left hempty hD
end RewardIndex
