import Qubitum.Lib.Outcome

/-!
# `Lib.Mutation` — code that writes in place and may stop early

`fn f(&mut self, ..) -> Result<α, ε>` is a computation in `EStateM ε σ`: when it returns early with `?`,
what it has written so far stays written. `Ends x s Q E` says how a run of `x` from `s` ends: it returns
with `Q`, or it stops with `E`, and in both cases about the state it leaves behind. It is the weakest
precondition of the pair, so the rules are equivalences and a body is walked through by rewriting. Loops have
invariants: over the elements that remain (`ends_forM`), or in two phases (`foldl_hit`).
-/

namespace Mutation
open Outcome

variable {ε σ α β : Type}

/-- `x?` for a computation that does not touch the state. -/
def lift : Except ε α → EStateM ε σ α
  | .ok a    => pure a
  | .error e => throw e

/-- A call whose error is looked at instead of passed on. What it has written stays. -/
def attempt (x : EStateM ε σ α) : EStateM ε σ (Except ε α) := fun s =>
  match x s with
  | .ok a s'    => .ok (.ok a) s'
  | .error e s' => .ok (.error e) s'

/-- The state a run leaves behind, however it ended. -/
def left : EStateM.Result ε σ α → σ
  | .ok _ s    => s
  | .error _ s => s

section
variable (x : EStateM ε σ α) (s : σ)

/-- The state after a transaction: a run that fails is rolled back. -/
def committed : σ :=
  match x s with
  | .ok _ s'   => s'
  | .error _ _ => s

/-- What a run returns if it succeeds. -/
def returned : Option α :=
  match x s with
  | .ok a _    => some a
  | .error _ _ => none

def commits : Bool := (returned x s).isSome

/-- Run from `s`, `x` returns a value with `Q` or stops with an error with `E`. -/
def Ends (Q : α → σ → Prop) (E : ε → σ → Prop) : Prop :=
  match x s with
  | .ok a s'    => Q a s'
  | .error e s' => E e s'

/-- The same, where nothing is said about errors. -/
abbrev Returns (Q : α → σ → Prop) : Prop := Ends x s Q fun _ _ => True
end

variable {x : EStateM ε σ α} {s : σ} {a : α} {e : ε} {Q : α → σ → Prop} {E : ε → σ → Prop}

instance [∀ a s', Decidable (Q a s')] [∀ e s', Decidable (E e s')] :
    Decidable (Ends x s Q E) :=
  match h : x s with
  | .ok a s'    => decidable_of_iff (Q a s') (by unfold Ends; rw [h])
  | .error e s' => decidable_of_iff (E e s') (by unfold Ends; rw [h])

theorem run_get : (get : EStateM ε σ σ) s = .ok s s := rfl

@[simp] theorem ends_pure : Ends (pure a : EStateM ε σ α) s Q E ↔ Q a s := Iff.rfl

@[simp] theorem ends_throw : Ends (throw e : EStateM ε σ α) s Q E ↔ E e s := Iff.rfl

@[simp] theorem ends_get {Q : σ → σ → Prop} : Ends (get : EStateM ε σ σ) s Q E ↔ Q s s := Iff.rfl

@[simp] theorem ends_modify {f : σ → σ} {Q : PUnit → σ → Prop} :
    Ends (modify f : EStateM ε σ PUnit) s Q E ↔ Q ⟨⟩ (f s) := Iff.rfl

@[simp] theorem ends_set {t : σ} {Q : PUnit → σ → Prop} : Ends (set t : EStateM ε σ PUnit) s Q E ↔ Q ⟨⟩ t := Iff.rfl

/-- **Sequencing**: the second part starts where the first one returned; an early stop ends both. -/
@[simp] theorem ends_bind {x : EStateM ε σ β} {f : β → EStateM ε σ α} :
    Ends (x >>= f) s Q E ↔ Ends x s (fun b s' => Ends (f b) s' Q E) E := by
  unfold Ends
  show (match EStateM.bind x f s with | .ok a s' => Q a s' | .error e s' => E e s') ↔ _
  unfold EStateM.bind
  cases x s <;> exact Iff.rfl

@[simp] theorem ends_lift_ok : Ends (lift (.ok a) : EStateM ε σ α) s Q E ↔ Q a s := Iff.rfl

@[simp] theorem ends_lift_error : Ends (lift (.error e) : EStateM ε σ α) s Q E ↔ E e s := Iff.rfl

theorem ends_lift {x : Except ε α} : Ends (lift x) s Q E ↔ (∀ a, x = .ok a → Q a s) ∧ (∀ e, x = .error e → E e s) := by
  cases x <;> simp

@[simp] theorem ends_lift_okOr {o : Option α} :
    Ends (lift (okOr o e)) s Q E ↔ (∀ a, o = some a → Q a s) ∧ (o = none → E e s) := by
  cases o <;> simp [okOr]

@[simp] theorem ends_lift_ensure {c : Prop} [Decidable c] {Q : Unit → σ → Prop} :
    Ends (lift (ensure c e)) s Q E ↔ (c → Q () s) ∧ (¬ c → E e s) := by
  unfold ensure
  by_cases h : c <;> simp [h]

@[simp] theorem ends_ite {c : Prop} [Decidable c] {y : EStateM ε σ α} :
    Ends (if c then x else y) s Q E ↔ (c → Ends x s Q E) ∧ (¬ c → Ends y s Q E) := by
  by_cases h : c <;> simp [h]

@[simp] theorem ends_attempt {Q : Except ε α → σ → Prop} :
    Ends (attempt x) s Q E ↔ Ends x s (fun a s' => Q (.ok a) s') (fun e s' => Q (.error e) s') := by
  unfold Ends attempt
  cases x s <;> exact Iff.rfl

section Weakening
variable {Q' : α → σ → Prop} {E' : ε → σ → Prop} (h : Ends x s Q E)
include h

/-- A known way to end implies every weaker one, which may also use how the run did end. -/
theorem Ends.mono_of_run (hQ : ∀ a s', x s = .ok a s' → Q a s' → Q' a s')
    (hE : ∀ e s', x s = .error e s' → E e s' → E' e s') : Ends x s Q' E' := by
  unfold Ends at *
  cases hx : x s with
  | ok a s' => rw [hx] at h; exact hQ a s' hx h
  | error e s' => rw [hx] at h; exact hE e s' hx h

theorem Ends.mono (hQ : ∀ a s', Q a s' → Q' a s') (hE : ∀ e s', E e s' → E' e s') : Ends x s Q' E' :=
  h.mono_of_run (fun a s' _ => hQ a s') fun e s' _ => hE e s'

theorem Ends.weaken_of_run (hQ : ∀ a s', x s = .ok a s' → Q a s' → Q' a s') : Returns x s Q' :=
  h.mono_of_run hQ fun _ _ _ _ => trivial

theorem Ends.weaken (hQ : ∀ a s', Q a s' → Q' a s') : Returns x s Q' := h.mono hQ fun _ _ _ => trivial
end Weakening

/-- **Loops**: what a pass preserves about the elements that remain holds, at the end, of none. -/
theorem ends_forM {I : List β → σ → Prop} {f : β → EStateM ε σ PUnit}
    (hstep : ∀ b rest s, I (b :: rest) s → Ends (f b) s (fun _ s' => I rest s') E) :
    ∀ {l : List β} {s : σ}, I l s → Ends (l.forM f) s (fun _ s' => I [] s') E := by
  intro l
  induction l with
  | nil =>
    intro s h
    exact h
  | cons b rest ih =>
    intro s h
    show Ends (f b >>= fun _ => rest.forM f) s _ _
    rw [ends_bind]
    exact (hstep b rest s h).mono (fun _ _ h' => ih h') fun _ _ he => he

/-- A loop whose passes cannot fail and do one thing each. -/
theorem ends_forM_foldl {f : β → EStateM ε σ PUnit} {step : σ → β → σ} {l : List β}
    (hstep : ∀ b ∈ l, ∀ t, Ends (f b) t (fun _ t' => t' = step t b) E) :
    Ends (l.forM f) s (fun _ s' => s' = l.foldl step s) E := by
  induction l generalizing s with
  | nil => rfl
  | cons b rest ih =>
    show Ends (f b >>= fun _ => rest.forM f) s _ _
    rw [ends_bind]
    refine (hstep b List.mem_cons_self s).mono (fun _ t ht => ?_) fun _ _ he => he
    subst ht
    exact ih fun b' hmem => hstep b' (List.mem_cons_of_mem b hmem)

/-- **Loops with an accumulator.** -/
theorem ends_foldlM {I : List β → α → σ → Prop} {f : α → β → EStateM ε σ α}
    (hstep : ∀ b rest a s, I (b :: rest) a s → Ends (f a b) s (fun a' s' => I rest a' s') E) :
    ∀ {l : List β} {a : α} {s : σ}, I l a s → Ends (l.foldlM f a) s (fun a' s' => I [] a' s') E := by
  intro l
  induction l with
  | nil =>
    intro a s h
    exact h
  | cons b rest ih =>
    intro a s h
    rw [List.foldlM_cons, ends_bind]
    exact (hstep b rest a s h).mono (fun _ _ h' => ih h') fun _ _ he => he

/-- **Loops that do one thing once**: before the loop reaches an element with `hit` there is `U`, and from then
    on `V`, which later elements keep. -/
theorem foldl_hit {f : σ → β → σ} {U V : σ → Prop} (hit : β → Prop)
    (hfirst : ∀ b s, hit b → U s → V (f s b)) (hmiss : ∀ b s, ¬ hit b → U s → U (f s b))
    (hlater : ∀ b s, V s → V (f s b)) (l : List β) (s : σ) (hs : U s) :
    ((∃ b ∈ l, hit b) → V (l.foldl f s)) ∧ ((∀ b ∈ l, ¬ hit b) → U (l.foldl f s)) := by
  have hkeep : ∀ (l : List β) (s : σ), V s → V (l.foldl f s) := by
    intro l s h
    exact List.foldlRecOn l f h fun t ht b _ => hlater b t ht
  induction l generalizing s with
  | nil => simp [hs]
  | cons b rest ih =>
    by_cases hb : hit b
    · refine ⟨fun _ => hkeep rest (f s b) (hfirst b s hb hs), fun hnone => ?_⟩
      exact absurd hb (hnone b List.mem_cons_self)
    · have hrest := ih (f s b) (hmiss b s hb hs)
      refine ⟨fun ⟨b', hmem, hb'⟩ => hrest.1 ⟨b', ?_, hb'⟩, fun hnone => hrest.2 fun b' hmem => ?_⟩
      · rcases List.mem_cons.mp hmem with rfl | hmem
        · exact absurd hb' hb
        · exact hmem
      · exact hnone b' (List.mem_cons_of_mem b hmem)

/-- What holds of every run that returns holds of one that did. -/
theorem of_ends {s' : σ} (h : Ends x s Q E) (hx : x s = .ok a s') : Q a s' := by
  unfold Ends at h
  rw [hx] at h
  exact h

/-- A run that does not fail returns. -/
theorem exists_of_ends (h : Ends x s Q (fun _ _ => False)) : ∃ a s', x s = .ok a s' ∧ Q a s' := by
  unfold Ends at h
  cases hx : x s with
  | ok a s' => rw [hx] at h; exact ⟨a, s', rfl, h⟩
  | error _ s' => rw [hx] at h; exact h.elim

/-- What holds however a run ends holds of the state it leaves. -/
theorem left_of_ends {P : σ → Prop}
    (h : Ends x s (fun _ s' => P s') (fun _ s' => P s')) : P (left (x s)) := by
  unfold Ends at h
  cases hx : x s with
  | ok _ s' => rw [hx] at h; exact h
  | error _ s' => rw [hx] at h; exact h

/-- What holds of a transaction holds when it has succeeded, and when nothing has happened. -/
theorem committed_of_ends {P : σ → Bool → Prop} (h : Returns x s Q)
    (hok : ∀ a s', x s = .ok a s' → Q a s' → P s' true) (herror : P s false) : P (committed x s) (commits x s) := by
  unfold Returns Ends at h
  unfold committed commits returned
  cases hx : x s with
  | ok a s' => rw [hx] at h; exact hok a s' hx h
  | error _ s' => exact herror

theorem ok_of_commits (h : commits x s = true) : ∃ a, x s = .ok a (committed x s) := by
  unfold commits returned at h
  unfold committed
  cases hx : x s with
  | ok a s' => exact ⟨a, rfl⟩
  | error _ _ =>
    rw [hx] at h
    cases h
end Mutation
