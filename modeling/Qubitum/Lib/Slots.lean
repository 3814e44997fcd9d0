import Mathlib.Data.List.Induction
import Mathlib.Logic.Equiv.Basic

/-!
# `Lib.Slots` — a table with numbered slots, and where everything is in it

What is in a slot and which slot something is in are two maps that have to stay inverse to each other. The operations
here change both: something is put into a free slot, takes the slot of something else, or is taken out. When slots
have become free, the rest can be moved to the front by exchanging slots, in the order of the slots; the second map is
then made again from the first.
-/

namespace Slots
open Function

variable {S K : Type} {keys : S → Option K}

/-- Each map is the inverse of the other. -/
def Mirrored (keys : S → Option K) (slots : K → Option S) : Prop := ∀ s k, keys s = some k ↔ slots k = some s

section Updates
variable [DecidableEq S] [DecidableEq K] {slots : K → Option S} {s : S} {k old new : K}

section
variable (h : Mirrored keys slots)
include h

/-- Something new goes into a free slot. -/
theorem Mirrored.assign (hs : keys s = none) (hk : slots k = none) :
    Mirrored (update keys s (some k)) (update slots k (some s)) := by
  intro s' k'
  by_cases hs' : s' = s
  · subst hs'
    by_cases hk' : k' = k
    · simp [hk']
    · -- nothing else is in a slot that was free
      have hnot : slots k' ≠ some s' := by
        intro hslot
        rw [(h s' k').mpr hslot] at hs
        cases hs
      simp [hk', Ne.symm hk', hnot]
  · by_cases hk' : k' = k
    · subst hk'
      have hnot : keys s' ≠ some k' := by
        intro hkey
        rw [(h s' k').mp hkey] at hk
        cases hk
      simp [hs', Ne.symm hs', hnot]
    · simp [hs', hk', h s' k']

/-- What is in a slot is taken out. -/
theorem Mirrored.free (hs : keys s = some k) :
    Mirrored (update keys s none) (update slots k none) := by
  intro s' k'
  have hk : slots k = some s := (h s k).mp hs
  by_cases hs' : s' = s
  · subst hs'
    by_cases hk' : k' = k
    · simp [hk']
    · have hnot : slots k' ≠ some s' := by
        intro hslot
        rw [← h, hs, Option.some.injEq] at hslot
        exact hk' hslot.symm
      simp [hk', hnot]
  · by_cases hk' : k' = k
    · subst hk'
      have hnot : keys s' ≠ some k' := by
        intro hkey
        rw [h, hk, Option.some.injEq] at hkey
        exact hs' hkey.symm
      simp [hs', hnot]
    · simp [hs', hk', h s' k']

/-- Something new takes the slot of what was there. -/
theorem Mirrored.reassign (hs : keys s = some old) (hnew : slots new = none) :
    Mirrored (update keys s (some new)) (update (update slots old none) new (some s)) := by
  have hfreed := h.free hs
  have hne : new ≠ old := by
    rintro rfl
    rw [(h s new).mp hs] at hnew
    cases hnew
  have hassigned := hfreed.assign (s := s) (k := new) (by simp) (by simpa [hne] using hnew)
  simpa using hassigned
end
end Updates

/-! ## Moving to the front -/

section Compaction
variable [DecidableEq S] {V : Type} {slot : Nat → S} {bound : Nat}

/-- What there is for two slots is exchanged. -/
def exchange (f : S → V) (a b : S) : S → V := fun s => f (Equiv.swap a b s)

theorem exchange_left (f : S → V) (a b : S) : exchange f a b a = f b := by
  simp [exchange]

theorem exchange_right (f : S → V) (a b : S) : exchange f a b b = f a := by
  simp [exchange]

theorem exchange_other (f : S → V) {a b s : S} (ha : s ≠ a) (hb : s ≠ b) : exchange f a b s = f s := by
  simp [exchange, Equiv.swap_apply_of_ne_of_ne ha hb]

/-- Each of the slots, in order, is exchanged with the next one at the front, counting from `i`. -/
def compact (slot : Nat → S) (f : S → V) (used : List Nat) (i : Nat) : S → V :=
  (used.zipIdx i).foldl (fun f p => exchange f (slot p.1) (slot p.2)) f

/-- **Compaction.** If the slots that are used are given in order, and there is nothing in the others, the contents end
    up at the front, in the same order. -/
theorem compact_spec (slot : Nat → S) (keys : S → Option K) (hinj : ∀ a < bound, ∀ b < bound, slot a = slot b → a = b)
    (used : List Nat) (i : Nat) (hsorted : used.Pairwise (· < ·)) (hrange : ∀ u ∈ used, i ≤ u ∧ u < bound)
    (hfree : ∀ j, i ≤ j → j < bound → j ∉ used → keys (slot j) = none) :
    (∀ j < i, j < bound → compact slot keys used i (slot j) = keys (slot j)) ∧
    (∀ m (hm : m < used.length), compact slot keys used i (slot (i + m)) = keys (slot (used.get ⟨m, hm⟩))) ∧
    (∀ j, i + used.length ≤ j → j < bound → compact slot keys used i (slot j) = none) := by
  induction used generalizing keys i with
  | nil =>
    refine ⟨fun j _ _ => rfl, fun m hm => absurd hm (Nat.not_lt_zero m), fun j hj hlt => ?_⟩
    exact hfree j (by simpa using hj) hlt (by simp)
  | cons u rest ih =>
    obtain ⟨hu, hub⟩ := hrange u (List.mem_cons_self ..)
    rw [List.pairwise_cons] at hsorted
    -- the slot that is filled is the one that is emptied, or it was free
    have hi : i < bound := Nat.lt_of_le_of_lt hu hub
    have hne : ∀ a b, a < bound → b < bound → a ≠ b → slot a ≠ slot b := fun a b ha hb hab heq =>
      hab (hinj a ha b hb heq)
    have hnext : ∀ j, i + 1 ≤ j → j < bound → j ∉ rest → exchange keys (slot u) (slot i) (slot j) = none := by
      intro j hj hjb hjr
      by_cases hju : j = u
      · subst hju
        rw [exchange_left]
        refine hfree i (Nat.le_refl i) hi fun hmem => ?_
        rcases List.mem_cons.mp hmem with heq | hmem
        · omega
        · have := hsorted.1 i hmem
          omega
      · rw [exchange_other keys (hne j u hjb hub hju) (hne j i hjb hi (by omega))]
        exact hfree j (by omega) hjb (by simp [hju, hjr])
    obtain ⟨hbefore, hmoved, hafter⟩ := ih (exchange keys (slot u) (slot i)) (i + 1) hsorted.2
      (fun v hv => ⟨Nat.lt_of_le_of_lt hu (hsorted.1 v hv), (hrange v (List.mem_cons_of_mem _ hv)).2⟩) hnext
    have hstep : compact slot keys (u :: rest) i = compact slot (exchange keys (slot u) (slot i)) rest (i + 1) := by
      unfold compact
      rw [List.zipIdx_cons, List.foldl_cons]
    rw [hstep]
    refine ⟨fun j hj hjb => ?_, fun m hm => ?_, fun j hj hjb => ?_⟩
    · rw [hbefore j (by omega) hjb]
      exact exchange_other keys (hne j u hjb hub (by omega)) (hne j i hjb hi (by omega))
    · cases m with
      | zero =>
        exact (hbefore i (by omega) hi).trans (exchange_right keys (slot u) (slot i))
      | succ m =>
        have hm' : m < rest.length := by simpa using hm
        have hmem : rest.get ⟨m, hm'⟩ ∈ rest := List.get_mem rest ⟨m, hm'⟩
        have hgt := hsorted.1 _ hmem
        have hlt := (hrange _ (List.mem_cons_of_mem u hmem)).2
        have hshift : i + (m + 1) = i + 1 + m := by omega
        rw [hshift, hmoved m hm', exchange_other keys (hne _ u hlt hub (by omega)) (hne _ i hlt hi (by omega))]
        rfl
    · exact hafter j (by simp only [List.length_cons] at hj; omega) hjb
end Compaction

/-! ## Making the second map again -/

section Rebuild
variable [DecidableEq K] {slots : List S} {key : S → K}

/-- Where everything is that is in some slots. -/
def rebuild (key : S → K) (slots : List S) : K → Option S :=
  slots.foldl (fun m s => update m (key s) (some s)) fun _ => none

theorem rebuild_eq_some (hinj : ∀ a ∈ slots, ∀ b ∈ slots, key a = key b → a = b) (s : S)
    (k : K) : rebuild key slots k = some s ↔ s ∈ slots ∧ key s = k := by
  unfold rebuild
  induction slots using List.reverseRecOn with
  | nil => simp
  | append_singleton slots a ih =>
    rw [List.foldl_append, List.foldl_cons, List.foldl_nil]
    by_cases hk : k = key a
    · rw [hk, update_self, Option.some.injEq]
      constructor
      · rintro rfl
        exact ⟨by simp, rfl⟩
      · rintro ⟨hs, hkey⟩
        exact (hinj s hs a (by simp) hkey).symm
    · rw [update_of_ne hk, ih fun b hb c hc => hinj b (List.mem_append_left _ hb) c (List.mem_append_left _ hc)]
      constructor
      · rintro ⟨hs, hkey⟩
        exact ⟨List.mem_append_left _ hs, hkey⟩
      · rintro ⟨hs, rfl⟩
        refine ⟨(List.mem_append.mp hs).resolve_right fun hlast => hk ?_, rfl⟩
        rw [List.mem_singleton.mp hlast]

/-- **The second map**, made from slots that hold different things, is the inverse of the first one if nothing is in
    any other slot. -/
theorem mirrored_rebuild (hkey : ∀ s ∈ slots, keys s = some (key s))
    (hnone : ∀ s, s ∉ slots → keys s = none) (hinj : ∀ a ∈ slots, ∀ b ∈ slots, key a = key b → a = b) :
    Mirrored keys (rebuild key slots) := by
  intro s k
  rw [rebuild_eq_some hinj s k]
  by_cases hs : s ∈ slots
  · simp [hkey s hs, hs]
  · simp [hnone s hs, hs]
end Rebuild
end Slots
