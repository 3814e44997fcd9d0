import Mathlib.Data.Finmap
import Mathlib.Tactic

/-!
# `Lib.MapSum` — sums over the values of a finite map

A ledger or a registry is a finite map; what it is worth is the sum of a weight over its values. Writing
one entry changes the sum by the new weight minus the weight it replaces (`total_insert`), where a key
that is absent weighs nothing, and no entry weighs more than the whole (`weightAt_le_total`).
-/

namespace MapSum
variable {K V : Type} [DecidableEq K]

/-- A finite map with keys in `K` and values in `V`. -/
abbrev Map (K V : Type) := Finmap fun _ : K => V

/-- The weight stored under a key; an absent key weighs nothing. -/
def weightAt (f : V → Nat) (m : Map K V) (k : K) : Nat := ((m.lookup k).map f).getD 0

omit [DecidableEq K] in
/-- The sum of a weight over all values. -/
def total (f : V → Nat) (m : Map K V) : Nat := (m.entries.map fun e => f e.2).sum

variable {f : V → Nat} {m : Map K V} {k : K} {v : V}

@[simp] theorem weightAt_some (h : m.lookup k = some v) : weightAt f m k = f v := by simp [weightAt, h]

@[simp] theorem weightAt_none (h : m.lookup k = none) : weightAt f m k = 0 := by simp [weightAt, h]

omit [DecidableEq K] in
@[simp] theorem total_empty : total f (∅ : Map K V) = 0 := rfl

theorem total_insert_absent (h : m.lookup k = none) : total f (m.insert k v) = f v + total f m := by
  unfold total
  rw [Finmap.entries_insert_of_notMem (Finmap.lookup_eq_none.mp h), Multiset.map_cons, Multiset.sum_cons]

/-- A map is its entry at `k` put back onto the rest. -/
theorem insert_erase (h : m.lookup k = some v) : (m.erase k).insert k v = m := by
  apply Finmap.ext_lookup
  intro j
  by_cases hj : j = k
  · subst hj; rw [Finmap.lookup_insert, h]
  · rw [Finmap.lookup_insert_of_ne _ hj, Finmap.lookup_erase_ne hj]

theorem insert_eq_insert_erase (m : Map K V) (k : K) (v : V) : m.insert k v = (m.erase k).insert k v := by
  apply Finmap.ext_lookup
  intro j
  by_cases hj : j = k
  · subst hj; rw [Finmap.lookup_insert, Finmap.lookup_insert]
  · rw [Finmap.lookup_insert_of_ne _ hj, Finmap.lookup_insert_of_ne _ hj, Finmap.lookup_erase_ne hj]

theorem erase_absent (h : m.lookup k = none) : m.erase k = m := by
  apply Finmap.ext_lookup
  intro j
  by_cases hj : j = k
  · subst hj; rw [Finmap.lookup_erase, h]
  · rw [Finmap.lookup_erase_ne hj]

section
variable (f : V → Nat) (m : Map K V) (k : K)

/-- **Removing one entry** takes its weight away. -/
theorem total_erase : total f (m.erase k) + weightAt f m k = total f m := by
  cases h : m.lookup k with
  | none => rw [erase_absent h, weightAt_none h]; omega
  | some w =>
    have hwrite := total_insert_absent (f := f) (v := w) (Finmap.lookup_erase k m)
    rw [insert_erase h] at hwrite
    rw [weightAt_some h]
    omega

/-- **Writing one entry** replaces its old weight by the new one. -/
theorem total_insert (v : V) :
    total f (m.insert k v) + weightAt f m k = total f m + f v := by
  have herase := total_erase f m k
  rw [insert_eq_insert_erase, total_insert_absent (Finmap.lookup_erase k m)]
  omega
end

omit [DecidableEq K] in
/-- Sums are additive in the weight. -/
theorem total_add (f g : V → Nat) (m : Map K V) : total (fun v => f v + g v) m = total f m + total g m :=
  Multiset.sum_map_add

variable {f g : V → Nat}

theorem total_mono (h : ∀ k v, m.lookup k = some v → f v ≤ g v) : total f m ≤ total g m := by
  refine Multiset.sum_map_le_sum_map _ _ fun e he => ?_
  exact h e.1 e.2 (Finmap.mem_lookup_iff.mpr he)

theorem weightAt_le_total (f : V → Nat) (m : Map K V) (k : K) : weightAt f m k ≤ total f m := by
  have herase := total_erase f m k
  omega
end MapSum
