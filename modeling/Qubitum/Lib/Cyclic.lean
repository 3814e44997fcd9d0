import Mathlib.Data.List.Rotate
import Mathlib.Tactic

/-!
# `Lib.Cyclic` — searching a list in cyclic order

A loop that tries the positions `start`, `start + 1`, … of a list modulo its length visits the list in *cyclic order*,
`l.rotate start`. What such a loop returns is then the first element of the rotated list that it accepts, and whether it
returns anything does not depend on where it starts.
-/

namespace Cyclic
variable {α β : Type}

/-- The positions from `start` on, modulo the length, visit the rotated list. -/
theorem visits_rotate (l : List α) (start : Nat) :
    ((List.range l.length).map fun offset => l[(start + offset) % l.length]?) = (l.rotate start).map some := by
  refine List.ext_getElem? fun i => ?_
  rw [List.getElem?_map, List.getElem?_map]
  by_cases hi : i < l.length
  · have hlt : (i + start) % l.length < l.length := Nat.mod_lt _ (by omega)
    rw [List.getElem?_range hi, List.getElem?_rotate hi]
    simp [Nat.add_comm start i, List.getElem?_eq_getElem hlt]
  · rw [List.getElem?_eq_none (by simpa using hi), List.getElem?_eq_none (by simpa using hi)]
    rfl

/-- Whether a cyclic search finds anything does not depend on where it starts. -/
theorem find_rotate_isSome (l : List α) (start : Nat) (p : α → Bool) :
    ((l.rotate start).find? p).isSome ↔ ∃ a ∈ l, p a := by
  simp [List.find?_isSome]

/-- A search that computes a result for each element returns that of the first element that has one. -/
theorem findSome_eq_find (l : List α) (g : α → Option β) : l.findSome? g = (l.find? fun a => (g a).isSome).bind g := by
  induction l with
  | nil => rfl
  | cons a rest ih =>
    rw [List.findSome?_cons, List.find?_cons]
    cases h : g a with
    | none => simpa using ih
    | some b => simp [h]
end Cyclic
