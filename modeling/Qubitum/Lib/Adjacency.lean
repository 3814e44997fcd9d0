import Mathlib.Algebra.BigOperators.Group.List.Basic
import Mathlib.Data.List.Nodup
import Mathlib.Tactic

/-!
# `Lib.Adjacency` — a weighted graph that is stored twice

A graph is a function `edge : K → K → Option W` from the two ends of an edge to its weight. A program keeps it as
lists of neighbours: one list for the edges out of each node, and one for the edges into it. `Lists l f` says
that a list has exactly the neighbours of `f`, and `Mirrored out into edge` that both kinds of lists are those of
one graph.

The one change is `rewire`: all edges at a node are replaced.
-/

namespace Adjacency
open Function

variable {K W : Type} [DecidableEq K]

/-! ## Lists of neighbours -/

/-- The weight of the edge to `k` is changed, or the edge is added at the end. -/
def upsert : List (W × K) → W → K → List (W × K)
  | [], w, k => [(w, k)]
  | (w', k') :: rest, w, k => if k' = k then (w, k') :: rest else (w', k') :: upsert rest w k

def remove (l : List (W × K)) (k : K) : List (W × K) := l.filter fun e => e.2 ≠ k

/-- `l` has the neighbours of `f`, each of them once. -/
structure Lists (l : List (W × K)) (f : K → Option W) : Prop where
  nodup : (l.map Prod.snd).Nodup
  mem_iff : ∀ w k, (w, k) ∈ l ↔ f k = some w

variable {l : List (W × K)} {f g : K → Option W} {w : W} {k : K}

section
omit [DecidableEq K]

theorem Lists.nil : Lists ([] : List (W × K)) fun _ => none := ⟨List.nodup_nil, by simp⟩

theorem Lists.congr (h : Lists l f) (hfg : ∀ k, g k = f k) : Lists l g := by
  refine ⟨h.nodup, fun w k => ?_⟩
  rw [hfg, h.mem_iff]

/-- The keys of the list are the neighbours. -/
theorem Lists.mem_keys (h : Lists l f) (k : K) : k ∈ l.map Prod.snd ↔ f k ≠ none := by
  rw [List.mem_map, Option.ne_none_iff_exists']
  constructor
  · rintro ⟨⟨w, _⟩, hmem, rfl⟩
    exact ⟨w, (h.mem_iff w _).mp hmem⟩
  · rintro ⟨w, hw⟩
    exact ⟨(w, k), (h.mem_iff w k).mpr hw, rfl⟩
end

theorem mem_remove {e : W × K} : e ∈ remove l k ↔ e ∈ l ∧ e.2 ≠ k := by
  unfold remove
  simp

theorem Lists.remove (h : Lists l f) (k : K) : Lists (remove l k) (update f k none) where
  nodup := h.nodup.sublist (List.filter_sublist.map Prod.snd)
  mem_iff w k' := by
    rw [mem_remove, h.mem_iff]
    by_cases hk : k' = k
    · subst hk
      simp
    · simp [hk]

/-- The keys after an update: those before it, and the new one. -/
theorem keys_upsert (l : List (W × K)) (w : W) (k : K) :
    (upsert l w k).map Prod.snd = if k ∈ l.map Prod.snd then l.map Prod.snd else l.map Prod.snd ++ [k] := by
  induction l with
  | nil => simp [upsert]
  | cons e rest ih =>
    obtain ⟨w', k'⟩ := e
    unfold upsert
    by_cases hk : k' = k
    · simp [hk]
    · rw [if_neg hk, List.map_cons, List.map_cons, ih]
      by_cases hmem : k ∈ rest.map Prod.snd
      · rw [if_pos hmem, if_pos (List.mem_cons_of_mem _ hmem)]
      · have hnot : k ∉ k' :: rest.map Prod.snd := by
          rw [List.mem_cons]
          exact not_or.mpr ⟨Ne.symm hk, hmem⟩
        rw [if_neg hmem, if_neg hnot, List.cons_append]

theorem mem_upsert (hnodup : (l.map Prod.snd).Nodup) {w' : W} {k' : K} :
    (w', k') ∈ upsert l w k ↔ if k' = k then w' = w else (w', k') ∈ l := by
  induction l with
  | nil =>
    by_cases hk : k' = k <;> simp [upsert, hk]
  | cons e rest ih =>
    obtain ⟨w0, k0⟩ := e
    rw [List.map_cons, List.nodup_cons] at hnodup
    unfold upsert
    by_cases hk0 : k0 = k
    · subst hk0
      by_cases hk : k' = k0
      · -- the key is not in the rest, so the entry can only be the one that was changed
        subst hk
        have hrest : (w', k') ∉ rest := fun hmem => hnodup.1 (List.mem_map.mpr ⟨_, hmem, rfl⟩)
        simp [hrest]
      · simp [hk]
    · rw [if_neg hk0, List.mem_cons, ih hnodup.2]
      by_cases hk : k' = k
      · subst hk
        simp [Ne.symm hk0]
      · simp [hk]

theorem Lists.upsert (h : Lists l f) (w : W) (k : K) : Lists (upsert l w k) (update f k (some w)) where
  nodup := by
    rw [keys_upsert]
    by_cases hmem : k ∈ l.map Prod.snd
    · rw [if_pos hmem]
      exact h.nodup
    · rw [if_neg hmem]
      exact List.nodup_append.mpr ⟨h.nodup, List.nodup_singleton k, by
        intro a ha b hb heq
        rw [List.mem_singleton] at hb
        exact hmem (hb ▸ heq ▸ ha)⟩
  mem_iff w' k' := by
    rw [mem_upsert h.nodup]
    by_cases hk : k' = k
    · subst hk
      simp [eq_comm]
    · simp [hk, h.mem_iff]

/-! ## What the edges of a list weigh -/

def total (val : W → Nat) (l : List (W × K)) : Nat := (l.map fun e => val e.1).sum

/-- What one edge weighs, if it is there. -/
def weight (val : W → Nat) (w : Option W) : Nat := (w.map val).getD 0

variable {val : W → Nat}

theorem total_remove (h : Lists l f) (k : K) : total val (remove l k) + weight val (f k) = total val l := by
  obtain ⟨hnodup, hmem⟩ := h
  induction l generalizing f with
  | nil =>
    have hnone : f k = none := by
      cases hk : f k with
      | none => rfl
      | some w => cases (hmem w k).mpr hk
    simp [remove, total, weight, hnone]
  | cons e rest ih =>
    obtain ⟨w0, k0⟩ := e
    rw [List.map_cons, List.nodup_cons] at hnodup
    have htail := ih (f := update f k0 none) hnodup.2 fun w k' => by
      by_cases hk : k' = k0
      · subst hk
        have : (w, k') ∉ rest := fun hin => hnodup.1 (List.mem_map.mpr ⟨_, hin, rfl⟩)
        simp [this]
      · rw [update_of_ne hk, ← hmem w k']
        simp [hk]
    by_cases hk : k0 = k
    · subst hk
      have hw : f k0 = some w0 := (hmem w0 k0).mp List.mem_cons_self
      rw [update_self] at htail
      simp only [remove, total, weight, hw, List.filter_cons, ne_eq, not_true_eq_false, decide_false,
        Bool.false_eq_true, if_false, List.map_cons, List.sum_cons, Option.map_some, Option.map_none,
        Option.getD_some, Option.getD_none] at htail ⊢
      omega
    · rw [update_of_ne (Ne.symm hk)] at htail
      simp only [remove, total, List.filter_cons, ne_eq, hk, not_false_eq_true, decide_true, if_true, List.map_cons,
        List.sum_cons] at htail ⊢
      omega

theorem total_upsert (h : Lists l f) (w : W) (k : K) :
    total val (upsert l w k) + weight val (f k) = total val l + val w := by
  -- without the new edge the two lists have the same edges
  have hsame : remove (upsert l w k) k = remove l k := by
    clear h
    induction l with
    | nil => simp [upsert, remove]
    | cons e rest ih =>
      obtain ⟨w0, k0⟩ := e
      unfold upsert
      simp only [remove] at ih ⊢
      by_cases hk : k0 = k
      · simp [hk]
      · rw [if_neg hk, List.filter_cons, List.filter_cons, ih]
  have hafter : total val (remove (upsert l w k) k) + _ = total val (upsert l w k) := total_remove (h.upsert w k) k
  have hbefore : total val (remove l k) + _ = total val l := total_remove h k
  rw [hsame, update_self] at hafter
  simp only [weight, Option.map_some, Option.getD_some] at hafter hbefore ⊢
  omega

/-! ## Both kinds of lists -/

/-- The lists of the edges out of the nodes and into them are those of one graph. -/
structure Mirrored (out into : K → List (W × K)) (edge : K → K → Option W) : Prop where
  out : ∀ p, Lists (out p) (edge p)
  into : ∀ c, Lists (into c) fun p => edge p c

omit [DecidableEq K] in
/-- An edge in one list is in the other. -/
theorem Mirrored.mem_iff {out into : K → List (W × K)} {edge : K → K → Option W} (h : Mirrored out into edge)
    (w : W) (p c : K) : (w, c) ∈ out p ↔ (w, p) ∈ into c := by
  rw [(h.out p).mem_iff, (h.into c).mem_iff]

/-- All edges at a node are replaced. -/
def rewire (edge : K → K → Option W) (pivot : K) (children parents : K → Option W) : K → K → Option W := fun p c =>
  if p = pivot then children c else if c = pivot then parents p else edge p c

/-- No edge has one in the opposite direction; in particular none leads back to where it starts. -/
def Oriented (edge : K → K → Option W) : Prop := ∀ p c, edge p c ≠ none → edge c p = none

variable {edge : K → K → Option W} {pivot : K} {children parents : K → Option W}

omit [DecidableEq K] in
theorem Oriented.no_loop (h : Oriented edge) (k : K) : edge k k = none := by
  by_contra hloop
  exact hloop (h k k hloop)

/-- The two sides may be replaced in either order. -/
theorem rewire_eq (hchildren : children pivot = none) (hparents : parents pivot = none) (p c : K) :
    rewire edge pivot children parents p c =
      if c = pivot then parents p else if p = pivot then children c else edge p c := by
  unfold rewire
  by_cases hp : p = pivot
  · by_cases hc : c = pivot
    · rw [if_pos hp, if_pos hc, hp, hc, hchildren, hparents]
    · rw [if_pos hp, if_neg hc, if_pos hp]
  · rw [if_neg hp, if_neg hp]

theorem Oriented.rewire (h : Oriented edge) (hchildren : children pivot = none) (hparents : parents pivot = none)
    (hdisjoint : ∀ k, children k ≠ none → parents k = none) : Oriented (rewire edge pivot children parents) := by
  intro p c hedge
  unfold Adjacency.rewire at hedge ⊢
  by_cases hp : p = pivot
  · rw [if_pos hp] at hedge
    have hc : c ≠ pivot := by
      rintro rfl
      exact hedge hchildren
    rw [if_neg hc, if_pos hp]
    exact hdisjoint c hedge
  · rw [if_neg hp] at hedge
    by_cases hc : c = pivot
    · rw [if_pos hc] at hedge ⊢
      by_contra hback
      exact hedge (hdisjoint p hback)
    · rw [if_neg hc] at hedge ⊢
      rw [if_neg hp]
      exact h p c hedge
end Adjacency
