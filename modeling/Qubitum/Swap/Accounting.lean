import Qubitum.Lib.MapSum
import Qubitum.Swap.Effects

/-!
# `Swap.Accounting` — the liquidity at ticks is that of the positions

Every tick stores the liquidity of the positions that have an end there (`grossAt`) and what the current
liquidity changes by when it is passed upwards (`netAt`). Growing and shrinking a position keep both sums, since
they write the same amount at both ends.
-/

namespace Qubitum.Swap
open Fixed Outcome Mutation MapSum Pool
open Qubitum.Subtensor (StorageMap)

variable {A : Type} {p : Pool A} {tick t : TickIndex} {liquidity : Nat}
  {positions : StorageMap (A × PositionId) Position} {k : A × PositionId} {q : Position}

/-! ## Ticks -/

/-- The net liquidity at a tick, zero if nothing is stored. -/
def netAt (ticks : StorageMap TickIndex Tick) (tick : TickIndex) : Int :=
  ((ticks.lookup tick).getD default).liquidityNet

/-- The gross liquidity at a tick. -/
def grossAt (ticks : StorageMap TickIndex Tick) (tick : TickIndex) : Nat :=
  ((ticks.lookup tick).getD default).liquidityGross

namespace Pool

/-- Both numbers at a tick, after liquidity was added at another or the same. -/
theorem addLiquidityAtIndex_at (upper : Bool) (t : TickIndex) (hfits : grossAt p.ticks tick + liquidity < 2 ^ 64) :
    netAt (p.addLiquidityAtIndex tick liquidity upper).ticks t =
        netAt p.ticks t + (if t = tick then netChange liquidity upper else 0) ∧
      grossAt (p.addLiquidityAtIndex tick liquidity upper).ticks t =
        grossAt p.ticks t + if t = tick then liquidity else 0 := by
  unfold addLiquidityAtIndex netAt grossAt
  unfold grossAt at hfits
  by_cases ht : t = tick
  · subst ht
    rw [AList.lookup_insert, if_pos rfl, if_pos rfl]
    cases hlookup : p.ticks.lookup t with
    | none => exact ⟨(zero_add _).symm, (zero_add _).symm⟩
    | some _ =>
      rw [hlookup] at hfits
      exact ⟨rfl, satAdd_eq hfits⟩
  · rw [AList.lookup_insert_ne ht, if_neg ht, if_neg ht]
    exact ⟨(add_zero _).symm, rfl⟩

/-- A tick is forgotten when nothing is left at it; its net liquidity must then be what is removed. -/
theorem removeLiquidityAtIndex_at (upper : Bool) (t : TickIndex)
    (hlast : grossAt p.ticks tick - liquidity = 0 → netAt p.ticks tick = netChange liquidity upper) :
    netAt (p.removeLiquidityAtIndex tick liquidity upper).ticks t =
        netAt p.ticks t - (if t = tick then netChange liquidity upper else 0) ∧
      grossAt (p.removeLiquidityAtIndex tick liquidity upper).ticks t =
        grossAt p.ticks t - if t = tick then liquidity else 0 := by
  unfold removeLiquidityAtIndex
  unfold grossAt netAt at hlast
  unfold netAt grossAt
  by_cases ht : t = tick
  · subst ht
    rw [if_pos rfl, if_pos rfl]
    cases hlookup : p.ticks.lookup t with
    | none =>
      rw [hlookup] at hlast
      rw [hlookup, ← hlast (Nat.zero_sub _)]
      exact ⟨(sub_self _).symm, (Nat.zero_sub _).symm⟩
    | some stored =>
      rw [hlookup] at hlast
      dsimp only
      split_ifs with hgone
      · rw [AList.lookup_erase]
        exact ⟨(sub_eq_zero.mpr (hlast hgone)).symm, hgone.symm⟩
      · rw [AList.lookup_insert]
        exact ⟨rfl, rfl⟩
  · rw [if_neg ht, if_neg ht, sub_zero, Nat.sub_zero]
    cases p.ticks.lookup tick with
    | none => exact ⟨rfl, rfl⟩
    | some stored =>
      dsimp only
      split_ifs
      · rw [AList.lookup_erase_ne ht]
        exact ⟨rfl, rfl⟩
      · rw [AList.lookup_insert_ne ht]
        exact ⟨rfl, rfl⟩
end Pool

/-! ## Positions -/

namespace Position

/-- The liquidity of a position, if its ends satisfy a condition. -/
def share (c : TickIndex → TickIndex → Prop) [∀ low high, Decidable (c low high)] (q : Position) : Nat :=
  if c q.tickLow q.tickHigh then q.liquidity else 0

def opensAt (tick : TickIndex) : Position → Nat := share fun low _ => tick = low

def closesAt (tick : TickIndex) : Position → Nat := share fun _ high => tick = high

/-- A position has at most one end at a tick. -/
theorem ends_le {q : Position} (h : q.tickLow < q.tickHigh) : q.opensAt t + q.closesAt t ≤ q.liquidity := by
  unfold opensAt closesAt share
  split_ifs with hlow hhigh
  · exact absurd (hlow.symm.trans hhigh) (ne_of_lt h)
  · omega
  · omega
  · omega
end Position

section Sums
variable [DecidableEq A] {f : Position → Nat} {held : Nat}

omit [DecidableEq A] in
/-- The sum of a weight over the positions. -/
def sumOf (f : Position → Nat) (positions : StorageMap (A × PositionId) Position) : Nat := total f positions.toFinmap

/-- What the position under a key weighs. -/
def weightOf (f : Position → Nat) (positions : StorageMap (A × PositionId) Position) (k : A × PositionId) : Nat :=
  weightAt f positions.toFinmap k

theorem sumOf_none (h : ∀ k, positions.lookup k = none) : sumOf f positions = 0 := by
  have hempty : positions.toFinmap = ∅ := by
    apply Finmap.ext_lookup
    intro k
    rw [Finmap.lookup_toFinmap, h k, Finmap.lookup_empty]
  unfold sumOf
  rw [hempty, total_empty]

theorem sumOf_insert : sumOf f (positions.insert k q) + weightOf f positions k = sumOf f positions + f q := by
  unfold sumOf weightOf
  rw [← Finmap.insert_toFinmap]
  exact total_insert f _ k q

theorem sumOf_erase : sumOf f (positions.erase k) + weightOf f positions k = sumOf f positions := by
  unfold sumOf weightOf
  rw [← Finmap.erase_toFinmap]
  exact total_erase f _ k

/-- What is stored under `k` has the ends of `q` and this liquidity; zero if nothing is stored. -/
inductive Held (positions : StorageMap (A × PositionId) Position) (k : A × PositionId) (q : Position) : Nat → Prop
  | absent (h : positions.lookup k = none) : Held positions k q 0
  | stored {old : Position} (h : positions.lookup k = some old) (hlow : old.tickLow = q.tickLow)
      (hhigh : old.tickHigh = q.tickHigh) : Held positions k q old.liquidity

section
variable (h : Held positions k q held)
include h

section
variable (c : TickIndex → TickIndex → Prop)

theorem Held.weight [∀ low high, Decidable (c low high)] :
    weightOf (Position.share c) positions k = if c q.tickLow q.tickHigh then held else 0 := by
  cases h with
  | absent h =>
    rw [ite_self]
    exact weightAt_none (by rw [Finmap.lookup_toFinmap]; exact h)
  | stored h hlow hhigh =>
    rw [← hlow, ← hhigh]
    exact weightAt_some (by rw [Finmap.lookup_toFinmap]; exact h)

theorem Held.weight_liquidity : weightOf Position.liquidity positions k = held := h.weight fun _ _ => True

theorem Held.le_sumOf : held ≤ sumOf Position.liquidity positions := by
  rw [← h.weight_liquidity]
  exact weightAt_le_total _ _ _

/-- All of the liquidity, after the position under `k` got another one. -/
theorem Held.sumOf_liquidity :
    sumOf Position.liquidity (positions.insert k q) + held = sumOf Position.liquidity positions + q.liquidity := by
  rw [← h.weight_liquidity]
  exact Swap.sumOf_insert

/-- A sum after the position under `k` got another liquidity. -/
theorem Held.sumOf_insert [∀ low high, Decidable (c low high)] :
    sumOf (Position.share c) (positions.insert k q) + (if c q.tickLow q.tickHigh then held else 0) =
      sumOf (Position.share c) positions + if c q.tickLow q.tickHigh then q.liquidity else 0 := by
  rw [← h.weight c]
  exact Swap.sumOf_insert

/-- A sum after the position under `k` was removed. -/
theorem Held.sumOf_erase [∀ low high, Decidable (c low high)] :
    sumOf (Position.share c) (positions.erase k) + (if c q.tickLow q.tickHigh then held else 0) =
      sumOf (Position.share c) positions := by
  rw [← h.weight c]
  exact Swap.sumOf_erase
end
end

omit [DecidableEq A] in
/-- Every position has its two ends in order. -/
def Ordered (positions : StorageMap (A × PositionId) Position) : Prop :=
  ∀ k q, positions.lookup k = some q → q.tickLow < q.tickHigh

theorem Ordered.sum_ends_le (h : Ordered positions) (t : TickIndex) :
    sumOf (Position.opensAt t) positions + sumOf (Position.closesAt t) positions ≤
      sumOf Position.liquidity positions := by
  unfold sumOf
  rw [← total_add]
  refine total_mono fun k q hq => Position.ends_le (h k q ?_)
  rwa [Finmap.lookup_toFinmap] at hq

theorem Ordered.insert (h : Ordered positions) (hq : q.tickLow < q.tickHigh) : Ordered (positions.insert k q) := by
  intro k' q' hq'
  by_cases hk : k' = k
  · subst hk
    rw [AList.lookup_insert] at hq'
    cases hq'
    exact hq
  · rw [AList.lookup_insert_ne hk] at hq'
    exact h k' q' hq'
end Sums

/-! ## The two agree -/

/-- The ticks store what the positions have at their ends. -/
structure Balanced (ticks : StorageMap TickIndex Tick) (positions : StorageMap (A × PositionId) Position) : Prop where
  net : ∀ t, netAt ticks t = (sumOf (Position.opensAt t) positions : Int) - sumOf (Position.closesAt t) positions
  gross : ∀ t, grossAt ticks t = sumOf (Position.opensAt t) positions + sumOf (Position.closesAt t) positions

theorem Balanced.of_at {ticks : StorageMap TickIndex Tick} {positions : StorageMap (A × PositionId) Position}
    (h : ∀ t, netAt ticks t = (sumOf (Position.opensAt t) positions : Int) - sumOf (Position.closesAt t) positions ∧
      grossAt ticks t = sumOf (Position.opensAt t) positions + sumOf (Position.closesAt t) positions) :
    Balanced ticks positions :=
  ⟨fun t => (h t).1, fun t => (h t).2⟩

variable [DecidableEq A] {held delta : Nat}

/-- A position grows, or a new one is stored. -/
theorem Balanced.grow (h : Balanced p.ticks positions) (hordered : Ordered positions) (hq : q.tickLow < q.tickHigh)
    (hheld : Held positions k q held) (hgrown : q.liquidity = held + delta)
    (hsum : sumOf Position.liquidity (positions.insert k q) < 2 ^ 64) :
    Balanced (p.addLiquidityAtEnds q.tickLow q.tickHigh delta).ticks (positions.insert k q) := by
  have hne : q.tickHigh ≠ q.tickLow := (ne_of_lt hq).symm
  have hopens := fun t => hheld.sumOf_insert fun low _ => t = low
  have hcloses := fun t => hheld.sumOf_insert fun _ high => t = high
  -- no end gets more than all positions have
  have hroom := fun t => (hordered.insert (k := k) hq).sum_ends_le t
  unfold Position.opensAt Position.closesAt at hroom
  have hlow : grossAt p.ticks q.tickLow + delta < 2 ^ 64 := by
    have h1 := hopens q.tickLow
    have h2 := hcloses q.tickLow
    rw [if_pos rfl, if_pos rfl] at h1
    rw [if_neg hne.symm, if_neg hne.symm] at h2
    have h3 := hroom q.tickLow
    rw [h.gross, Position.opensAt, Position.closesAt]
    omega
  have hfirst := fun t => addLiquidityAtIndex_at false t hlow
  have hhigh : grossAt (p.addLiquidityAtIndex q.tickLow delta false).ticks q.tickHigh + delta < 2 ^ 64 := by
    have h1 := hopens q.tickHigh
    have h2 := hcloses q.tickHigh
    rw [if_neg hne, if_neg hne] at h1
    rw [if_pos rfl, if_pos rfl] at h2
    have h3 := hroom q.tickHigh
    rw [(hfirst _).2, if_neg hne, h.gross, Position.opensAt, Position.closesAt]
    omega
  refine .of_at fun t => ?_
  have h1 := hopens t
  have h2 := hcloses t
  have hsecond := addLiquidityAtIndex_at true t hhigh
  unfold addLiquidityAtEnds Position.opensAt Position.closesAt
  rw [hsecond.1, hsecond.2, (hfirst t).1, (hfirst t).2, h.net, h.gross, netChange_lower, netChange_upper,
    Position.opensAt, Position.closesAt]
  split_ifs at h1 h2 ⊢ <;> omega

omit [DecidableEq A] in
/-- A position shrinks, or is removed. -/
theorem Balanced.shrink (h : Balanced p.ticks positions) (hq : q.tickLow < q.tickHigh)
    {positions' : StorageMap (A × PositionId) Position}
    (hrest : ∀ (c : TickIndex → TickIndex → Prop) [∀ low high, Decidable (c low high)],
      sumOf (Position.share c) positions' + (if c q.tickLow q.tickHigh then delta else 0) =
        sumOf (Position.share c) positions) :
    Balanced (p.removeLiquidityAtEnds q.tickLow q.tickHigh delta).ticks positions' := by
  have hne : q.tickHigh ≠ q.tickLow := (ne_of_lt hq).symm
  have hopens := fun t => hrest fun low _ => t = low
  have hcloses := fun t => hrest fun _ high => t = high
  -- if only this position has an end at a tick, the net liquidity there is that of this end
  have hlow : grossAt p.ticks q.tickLow - delta = 0 → netAt p.ticks q.tickLow = netChange delta false := by
    intro hlast
    have h1 := hopens q.tickLow
    rw [if_pos rfl] at h1
    rw [h.gross] at hlast
    rw [h.net, netChange_lower]
    unfold Position.opensAt Position.closesAt at *
    omega
  have hfirst := fun t => removeLiquidityAtIndex_at false t hlow
  have hhigh : grossAt (p.removeLiquidityAtIndex q.tickLow delta false).ticks q.tickHigh - delta = 0 →
      netAt (p.removeLiquidityAtIndex q.tickLow delta false).ticks q.tickHigh = netChange delta true := by
    intro hlast
    have h2 := hcloses q.tickHigh
    rw [if_pos rfl] at h2
    rw [(hfirst _).2, if_neg hne, h.gross] at hlast
    rw [(hfirst _).1, if_neg hne, h.net, netChange_upper]
    unfold Position.opensAt Position.closesAt at *
    omega
  refine .of_at fun t => ?_
  have h1 := hopens t
  have h2 := hcloses t
  have hsecond := removeLiquidityAtIndex_at true t hhigh
  unfold removeLiquidityAtEnds Position.opensAt Position.closesAt
  rw [hsecond.1, hsecond.2, (hfirst t).1, (hfirst t).2, h.net, h.gross, netChange_lower, netChange_upper,
    Position.opensAt, Position.closesAt]
  split_ifs at h1 h2 ⊢ <;> omega
end Qubitum.Swap
