import Mathlib.Data.List.AList
import Mathlib.Tactic

/-!
# `Lib.NumberedQueue` — a queue that is kept in a map from numbers to entries

Entries are stored under consecutive numbers. `Holds` says which list such a map stands for: the entries numbered
`start`, `start + 1`, … in order, and no others. Storing under the next number appends to the list (`Holds.push`), and
removing the lowest number takes its head (`Holds.pop`); the size of the map is the length of the list.

The keys are of any type that is numbered without repetition, machine integers in particular.
-/

namespace NumberedQueue
variable {K V : Type} [DecidableEq K]

abbrev Slots (K V : Type) := AList fun _ : K => V

structure Holds (number : K → Nat) (m : Slots K V) (start : Nat) (xs : List V) : Prop where
  lookup : ∀ k, m.lookup k = if start ≤ number k then xs[number k - start]? else none
  size : m.keys.length = xs.length

variable {number : K → Nat} {m : Slots K V} {start : Nat} {x : V} {xs : List V}

theorem holds_empty (number : K → Nat) (start : Nat) : Holds number (∅ : Slots K V) start [] where
  lookup k := by simp
  size := rfl

variable {k : K}

theorem Holds.mem_iff (h : Holds number m start xs) : k ∈ m ↔ start ≤ number k ∧ number k < start + xs.length := by
  rw [← AList.lookup_isSome, h.lookup k]
  by_cases hle : start ≤ number k
  · rw [if_pos hle, isSome_getElem?]
    omega
  · simp [hle]

theorem Holds.head (h : Holds number m start (x :: xs)) (hk : number k = start) : m.lookup k = some x := by
  rw [h.lookup k, if_pos (Nat.le_of_eq hk.symm), hk, Nat.sub_self]
  rfl

/-- An entry under the next number goes to the end. -/
theorem Holds.push (hnumber : Function.Injective number) (h : Holds number m start xs) {next : K}
    (hnext : number next = start + xs.length) (x : V) : Holds number (m.insert next x) start (xs ++ [x]) where
  lookup k := by
    by_cases hk : k = next
    · subst hk
      rw [AList.lookup_insert, hnext, if_pos (Nat.le_add_right ..), Nat.add_sub_cancel_left]
      simp
    · have hne : number k ≠ start + xs.length := fun hc => hk (hnumber (hc.trans hnext.symm))
      rw [AList.lookup_insert_ne hk, h.lookup k]
      by_cases hle : start ≤ number k
      · rw [if_pos hle, if_pos hle]
        rcases Nat.lt_or_ge (number k - start) xs.length with hin | hout
        · rw [List.getElem?_append_left hin]
        · rw [List.getElem?_eq_none hout, List.getElem?_eq_none (by simp; omega)]
      · rw [if_neg hle, if_neg hle]
  size := by
    have hfresh : next ∉ m := by
      rw [h.mem_iff]
      omega
    rw [AList.keys_insert, List.length_cons, List.erase_of_not_mem (by simpa [AList.mem_keys] using hfresh), h.size]
    simp

/-- Removing the lowest number takes the head off. -/
theorem Holds.pop (hnumber : Function.Injective number) (h : Holds number m start (x :: xs))
    (hk : number k = start) : Holds number (m.erase k) (start + 1) xs where
  lookup k' := by
    by_cases hkk : k' = k
    · subst hkk
      rw [AList.lookup_erase, if_neg (by omega)]
    · have hne : number k' ≠ start := fun hc => hkk (hnumber (hc.trans hk.symm))
      rw [AList.lookup_erase_ne hkk, h.lookup k']
      by_cases hle : start ≤ number k'
      · obtain ⟨d, hd⟩ : ∃ d, number k' = start + 1 + d := ⟨number k' - (start + 1), by omega⟩
        rw [if_pos hle, if_pos (by omega), hd, Nat.add_sub_cancel_left, Nat.add_assoc, Nat.add_sub_cancel_left,
          Nat.add_comm 1 d, List.getElem?_cons_succ]
      · rw [if_neg hle, if_neg (by omega)]
  size := by
    have hthere : k ∈ m.keys := by
      rw [AList.mem_keys.symm, h.mem_iff]
      simp only [List.length_cons]
      omega
    rw [AList.keys_erase, List.length_erase_of_mem hthere, h.size]
    rfl
end NumberedQueue
