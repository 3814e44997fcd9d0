import Mathlib.Tactic

/-!
# `Lib.Tally` — totals kept in step with the entries they summarise

A running total is *backed* when it equals the sum of what the individual entries contribute to it:
the amount an account has on hold against the obligations recorded for it, a counter against the records
it counts. `Backed total weight entries` says so for a whole family of totals at once — `weight k i` is
what entry `i` contributes to total `k` — so one law covers "per user", "per participant" and "per
status" alike.

A system that maintains such totals does two things to its entries: it appends one (`Backed.append`) and
it changes one (`Backed.change`). Entries are identified by a key, and a change touches one key only.
-/

namespace Tally
variable {ι κ K : Type} {l : List ι} {x : ι}

/-- The sum of `f` over the entries. -/
def tally (f : ι → Nat) (entries : List ι) : Nat := (entries.map f).sum

@[simp] theorem tally_nil (f : ι → Nat) : tally f [] = 0 := rfl

@[simp] theorem tally_cons (f : ι → Nat) (x : ι) (l : List ι) : tally f (x :: l) = f x + tally f l := by
  simp [tally]

@[simp] theorem tally_append (f : ι → Nat) (l l' : List ι) : tally f (l ++ l') = tally f l + tally f l' := by
  simp [tally]

variable {f g : ι → Nat}

theorem tally_congr (h : ∀ x ∈ l, f x = g x) : tally f l = tally g l := by
  unfold tally
  rw [List.map_congr_left h]

/-- Summing over the entries that satisfy a predicate is a tally of the guarded amounts. -/
theorem sum_filter_eq_tally (p : ι → Bool) (f : ι → Nat) (l : List ι) :
    ((l.filter p).map f).sum = tally (fun x => if p x then f x else 0) l := by
  induction l with
  | nil => rfl
  | cons x l ih => by_cases h : p x <;> simp [h, ih]

/-- Counting the entries that satisfy a predicate is a tally of ones. -/
theorem length_filter_eq_tally (p : ι → Bool) (l : List ι) :
    (l.filter p).length = tally (fun x => if p x then 1 else 0) l := by
  rw [← sum_filter_eq_tally]
  simp

/-- **Changing one entry.** If two weightings agree off the key of `x`, their tallies differ by the change
    at `x`. -/
theorem tally_change {key : ι → K} (hnd : (l.map key).Nodup) (hx : x ∈ l)
    (hsame : ∀ y ∈ l, key y ≠ key x → g y = f y) : tally g l + f x = tally f l + g x := by
  induction l with
  | nil => cases hx
  | cons y l ih =>
    rw [List.map_cons, List.nodup_cons] at hnd
    rw [tally_cons, tally_cons]
    rcases List.mem_cons.mp hx with rfl | hx
    · -- the changed entry is the head: the tail has other keys, so it is untouched
      have htail : tally g l = tally f l := by
        refine tally_congr fun z hz => hsame z (List.mem_cons_of_mem _ hz) fun hk => hnd.1 ?_
        exact hk ▸ List.mem_map_of_mem hz
      omega
    · have hne : key y ≠ key x := fun hk => hnd.1 (hk ▸ List.mem_map_of_mem hx)
      have hhead := hsame y List.mem_cons_self hne
      have htail := ih hnd.2 hx fun z hz => hsame z (List.mem_cons_of_mem _ hz)
      omega

/-! ## Backed totals -/

/-- Each total is exactly what the entries contribute to it. -/
def Backed (total : κ → Nat) (weight : κ → ι → Nat) (entries : List ι) : Prop := ∀ k, total k = tally (weight k) entries

namespace Backed
variable {total total' : κ → Nat} {weight weight' : κ → ι → Nat}

theorem nil (h : ∀ k, total k = 0) : Backed total weight [] := fun k => by simp [h k]

section
variable (h : Backed total weight l)
include h

/-- An entry's contribution is covered by the total. -/
theorem weight_le (hx : x ∈ l) (k : κ) : weight k x ≤ total k := by
  rw [h k]
  exact List.le_sum_of_mem (List.mem_map_of_mem hx)

/-- Nothing the totals or the weights depend on has changed. -/
theorem congr (ht : ∀ k, total' k = total k)
    (hw : ∀ k, ∀ y ∈ l, weight' k y = weight k y) : Backed total' weight' l := fun k => by
  rw [ht k, h k]
  exact (tally_congr (hw k)).symm

/-- **A new entry** adds its contribution to each total. -/
theorem append (hw : ∀ k, ∀ y ∈ l, weight' k y = weight k y)
    (ht : ∀ k, total' k = total k + weight' k x) : Backed total' weight' (l ++ [x]) := fun k => by
  rw [ht k, h k, tally_append, tally_cons, tally_nil, tally_congr (hw k)]
  omega

/-- **A changed entry** moves each total by the change of its contribution. -/
theorem change {key : ι → K} (hnd : (l.map key).Nodup) (hx : x ∈ l)
    (hw : ∀ k, ∀ y ∈ l, key y ≠ key x → weight' k y = weight k y)
    (ht : ∀ k, total' k + weight k x = total k + weight' k x) : Backed total' weight' l := fun k => by
  have hchange := tally_change hnd hx (hw k)
  have hstep := ht k
  rw [h k] at hstep
  omega
end
end Backed
end Tally
