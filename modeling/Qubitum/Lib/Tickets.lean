import Mathlib.Data.List.Nodup
import Mathlib.Logic.Function.Basic
import Mathlib.Tactic

/-!
# `Lib.Tickets` — tickets that are issued, wait in queues and are redeemed

The log has what happened, in order. A redemption is matched with the ticket it uses: a ticket that was issued before
and fits it, and a different one for each redemption. What waits in the queues are tickets that were issued and have
not been used. Queues grow by issuing, shrink by discarding, and a redemption takes one ticket out of one of them.
-/

namespace Tickets
open Function

variable {T R K : Type}

inductive LogEntry (T R : Type) where
  | issued (t : T)
  | redeemed (r : R)
  deriving DecidableEq

section Matching
variable (fits : T → R → Prop) (log : List (LogEntry T R)) (used : Nat → Nat)

/-- `used j` is where the ticket was issued that is redeemed at `j`. -/
structure Matched : Prop where
  earlier : ∀ j r, log[j]? = some (.redeemed r) → used j < j ∧ ∃ t, log[used j]? = some (.issued t) ∧ fits t r
  once : ∀ i j r r', log[i]? = some (.redeemed r) → log[j]? = some (.redeemed r') → used i = used j → i = j

/-- The ticket that was issued at `p` has not been used. -/
structure Unused (p : Nat) (t : T) : Prop where
  issued : log[p]? = some (.issued t)
  unused : ∀ j r, log[j]? = some (.redeemed r) → used j ≠ p

/-- The tickets of a queue are unused, and no two of them are the same one. -/
def Waiting (ts : List T) : Prop :=
  ∃ qs : List (Nat × T), (qs.map (·.1)).Nodup ∧ qs.map (·.2) = ts ∧ ∀ q ∈ qs, Unused log used q.1 q.2

/-- The queues, each with the tickets of one key. -/
structure Kept (key : T → K) (queues : K → List T) : Prop where
  matched : Matched fits log used
  waiting : ∀ k, Waiting log used (queues k)
  filed : ∀ k, ∀ t ∈ queues k, key t = k
end Matching

variable {log : List (LogEntry T R)} {e : LogEntry T R} {j p : Nat} {t : T} {ts : List T} {k : K} {r : R}

theorem getElem?_concat_eq_some {e' : LogEntry T R} :
    (log ++ [e])[j]? = some e' ↔ log[j]? = some e' ∨ j = log.length ∧ e = e' := by
  rcases Nat.lt_trichotomy j log.length with hlt | heq | hgt
  · rw [List.getElem?_append_left hlt]
    constructor
    · exact Or.inl
    · rintro (h | ⟨h, -⟩)
      · exact h
      · omega
  · subst heq
    simp
  · have hbefore : log[j]? = none := List.getElem?_eq_none (by omega)
    have hafter : (log ++ [e])[j]? = none := List.getElem?_eq_none (by simp; omega)
    rw [hbefore, hafter]
    constructor
    · intro h
      cases h
    · rintro (h | ⟨h, -⟩)
      · cases h
      · omega

theorem lt_length_of_getElem?_eq_some (h : log[j]? = some e) : j < log.length := by
  obtain ⟨hlt, -⟩ := List.getElem?_eq_some_iff.mp h
  exact hlt

variable {fits : T → R → Prop} {log : List (LogEntry T R)} {used : Nat → Nat} {key : T → K} {queues : K → List T}

/-! ## Issuing -/

theorem Matched.issue (h : Matched fits log used) (t : T) : Matched fits (log ++ [.issued t]) used where
  earlier := by
    intro j r hj
    rcases getElem?_concat_eq_some.mp hj with hj | ⟨-, hr⟩
    · obtain ⟨hlt, t', ht', hfits⟩ := h.earlier j r hj
      exact ⟨hlt, t', getElem?_concat_eq_some.mpr (.inl ht'), hfits⟩
    · cases hr
  once := by
    intro i j r r' hi hj
    rcases getElem?_concat_eq_some.mp hi with hi | ⟨-, hr⟩
    · rcases getElem?_concat_eq_some.mp hj with hj | ⟨-, hr⟩
      · exact h.once i j r r' hi hj
      · cases hr
    · cases hr

theorem Unused.issue (h : Unused log used p t) (t' : T) : Unused (log ++ [.issued t']) used p t where
  issued := getElem?_concat_eq_some.mpr (.inl h.issued)
  unused := by
    intro j r hj
    rcases getElem?_concat_eq_some.mp hj with hj | ⟨-, hr⟩
    · exact h.unused j r hj
    · cases hr

theorem Matched.unused_new (h : Matched fits log used) (t : T) : Unused (log ++ [.issued t]) used log.length t where
  issued := getElem?_concat_eq_some.mpr (.inr ⟨rfl, rfl⟩)
  unused := by
    intro j r hj heq
    rcases getElem?_concat_eq_some.mp hj with hj | ⟨-, hr⟩
    · have hused := (h.earlier j r hj).1
      have hlt := lt_length_of_getElem?_eq_some hj
      omega
    · cases hr

theorem Waiting.issue (h : Waiting log used ts) (t : T) : Waiting (log ++ [.issued t]) used ts := by
  obtain ⟨qs, hnodup, hts, hunused⟩ := h
  exact ⟨qs, hnodup, hts, fun q hq => (hunused q hq).issue t⟩

theorem Waiting.push (h : Waiting log used ts) (hm : Matched fits log used) (t : T) :
    Waiting (log ++ [.issued t]) used (ts ++ [t]) := by
  obtain ⟨qs, hnodup, hts, hunused⟩ := h
  refine ⟨qs ++ [(log.length, t)], ?_, by simp [hts], ?_⟩
  · -- every older ticket was issued at an earlier place
    have hfresh : log.length ∉ qs.map (·.1) := by
      intro hmem
      obtain ⟨q, hq, hplace⟩ := List.mem_map.mp hmem
      have hlt := lt_length_of_getElem?_eq_some (hunused q hq).issued
      omega
    rw [List.map_append]
    refine List.nodup_append.mpr ⟨hnodup, by simp, ?_⟩
    intro a ha b hb heq
    rw [List.map_singleton, List.mem_singleton] at hb
    rw [heq, hb] at ha
    exact hfresh ha
  · intro q hq
    rcases List.mem_append.mp hq with hq | hq
    · exact (hunused q hq).issue t
    · rw [List.mem_singleton.mp hq]
      exact hm.unused_new t

variable [DecidableEq K]

/-- A ticket is issued and goes to the end of its queue. -/
theorem Kept.issue (h : Kept fits log used key queues) (t : T) :
    Kept fits (log ++ [.issued t]) used key (update queues (key t) (queues (key t) ++ [t])) where
  matched := h.matched.issue t
  waiting := by
    intro k
    by_cases hk : k = key t
    · subst hk
      rw [update_self]
      exact (h.waiting _).push h.matched t
    · rw [update_of_ne hk]
      exact (h.waiting k).issue t
  filed := by
    intro k t' ht'
    by_cases hk : k = key t
    · subst hk
      rw [update_self] at ht'
      rcases List.mem_append.mp ht' with ht' | ht'
      · exact h.filed _ t' ht'
      · rw [List.mem_singleton.mp ht']
    · rw [update_of_ne hk] at ht'
      exact h.filed k t' ht'

/-! ## Discarding -/

theorem Waiting.sublist {ts' : List T} (h : Waiting log used ts) (hsub : List.Sublist ts' ts) :
    Waiting log used ts' := by
  obtain ⟨qs, hnodup, hts, hunused⟩ := h
  rw [← hts] at hsub
  obtain ⟨qs', hqs', rfl⟩ := List.sublist_map_iff.mp hsub
  exact ⟨qs', hnodup.sublist (hqs'.map _), rfl, fun q hq => hunused q (hqs'.subset hq)⟩

/-- Tickets of one queue are given up. -/
theorem Kept.discard (h : Kept fits log used key queues) (hsub : List.Sublist ts (queues k)) :
    Kept fits log used key (update queues k ts) where
  matched := h.matched
  waiting := by
    intro k'
    by_cases hk : k' = k
    · subst hk
      rw [update_self]
      exact (h.waiting _).sublist hsub
    · rw [update_of_ne hk]
      exact h.waiting k'
  filed := by
    intro k' t ht
    by_cases hk : k' = k
    · subst hk
      rw [update_self] at ht
      exact h.filed _ t (hsub.subset ht)
    · rw [update_of_ne hk] at ht
      exact h.filed k' t ht

/-! ## Redeeming -/

theorem Unused.redeem {p' : Nat} (h : Unused log used p' t) (hne : p' ≠ p) (r : R) :
    Unused (log ++ [.redeemed r]) (update used log.length p) p' t where
  issued := getElem?_concat_eq_some.mpr (.inl h.issued)
  unused := by
    intro j r' hj
    rcases getElem?_concat_eq_some.mp hj with hj | ⟨rfl, -⟩
    · rw [update_of_ne (lt_length_of_getElem?_eq_some hj).ne]
      exact h.unused j r' hj
    · rw [update_self]
      exact hne.symm

theorem Matched.redeem (h : Matched fits log used) (hp : Unused log used p t) (hfits : fits t r) :
    Matched fits (log ++ [.redeemed r]) (update used log.length p) where
  earlier := by
    intro j r' hj
    rcases getElem?_concat_eq_some.mp hj with hj | ⟨rfl, hr⟩
    · rw [update_of_ne (lt_length_of_getElem?_eq_some hj).ne]
      obtain ⟨hlt, t', ht', hfits'⟩ := h.earlier j r' hj
      exact ⟨hlt, t', getElem?_concat_eq_some.mpr (.inl ht'), hfits'⟩
    · rw [update_self]
      cases hr
      exact ⟨lt_length_of_getElem?_eq_some hp.issued, t, getElem?_concat_eq_some.mpr (.inl hp.issued), hfits⟩
  once := by
    intro i j r1 r2 hi hj
    rcases getElem?_concat_eq_some.mp hi with hi | ⟨rfl, -⟩
    · have hi' := lt_length_of_getElem?_eq_some hi
      rw [update_of_ne hi'.ne]
      rcases getElem?_concat_eq_some.mp hj with hj | ⟨rfl, -⟩
      · rw [update_of_ne (lt_length_of_getElem?_eq_some hj).ne]
        exact h.once i j r1 r2 hi hj
      · -- the ticket that is used now was not used before
        rw [update_self]
        intro heq
        exact absurd heq (hp.unused i r1 hi)
    · rw [update_self]
      rcases getElem?_concat_eq_some.mp hj with hj | ⟨rfl, -⟩
      · rw [update_of_ne (lt_length_of_getElem?_eq_some hj).ne]
        intro heq
        exact absurd heq.symm (hp.unused j r2 hj)
      · intro _
        rfl

/-- One ticket of a queue is redeemed and leaves the queue. -/
theorem Kept.redeem (h : Kept fits log used key queues) (front back : List T)
    (hk : queues k = front ++ t :: back) (hfits : fits t r) :
    ∃ used', Kept fits (log ++ [.redeemed r]) used' key (update queues k (front ++ back)) := by
  obtain ⟨qs, hnodup, hts, hunused⟩ := h.waiting k
  rw [hk] at hts
  obtain ⟨qs1, qs2, rfl, rfl, hrest⟩ := List.map_eq_append_iff.mp hts
  obtain ⟨⟨p, t'⟩, qs3, rfl, ht, rfl⟩ := List.map_eq_cons_iff.mp hrest
  obtain rfl : t' = t := ht
  have hp : Unused log used p t' := hunused (p, t') (by simp)
  refine ⟨update used log.length p, h.matched.redeem hp hfits, ?_, ?_⟩
  · intro k'
    by_cases hk' : k' = k
    · subst hk'
      rw [List.map_append, List.map_cons, List.nodup_middle, List.nodup_cons] at hnodup
      refine ⟨qs1 ++ qs3, by rw [List.map_append]; exact hnodup.2, by simp, ?_⟩
      intro q hq
      have hq' : q ∈ qs1 ++ (p, t') :: qs3 := by
        rcases List.mem_append.mp hq with hq | hq
        · exact List.mem_append_left _ hq
        · exact List.mem_append_right _ (List.mem_cons_of_mem _ hq)
      refine (hunused q hq').redeem ?_ r
      intro heq
      have hmem : q.1 ∈ (qs1 ++ qs3).map (·.1) := List.mem_map_of_mem hq
      rw [heq, List.map_append] at hmem
      exact hnodup.1 hmem
    · -- a ticket of another queue has another key, so it was issued at another place
      rw [update_of_ne hk']
      obtain ⟨qs', hnodup', hts', hunused'⟩ := h.waiting k'
      refine ⟨qs', hnodup', hts', fun q hq => (hunused' q hq).redeem ?_ r⟩
      rintro rfl
      have hsame : q.2 = t' := by
        have := (hunused' q hq).issued.symm.trans hp.issued
        cases this
        rfl
      have hkey' : key q.2 = k' := h.filed k' q.2 (hts' ▸ List.mem_map_of_mem hq)
      have hkey : key t' = k := h.filed k t' (by rw [hk]; simp)
      rw [hsame, hkey] at hkey'
      exact hk' hkey'.symm
  · intro k' t'' ht''
    by_cases hk' : k' = k
    · subst hk'
      rw [update_self] at ht''
      refine h.filed _ t'' ?_
      rw [hk]
      rcases List.mem_append.mp ht'' with hmem | hmem
      · exact List.mem_append_left _ hmem
      · exact List.mem_append_right _ (List.mem_cons_of_mem _ hmem)
    · rw [update_of_ne hk'] at ht''
      exact h.filed k' t'' ht''
end Tickets
