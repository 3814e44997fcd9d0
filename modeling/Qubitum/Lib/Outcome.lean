import Mathlib.Tactic

/-!
# `Lib.Outcome` — reading fallible state-passing code backwards

A dispatchable is a chain of guards and fallible updates in `Except`. Two questions are asked of such a
chain, and each has one rule per connective:

* *what does success say?* — `bind_eq_ok`, `ensure_eq_ok`, `okOr_eq_ok`: every guard held, every
  intermediate value existed;
* *which errors can come out?* — `Raises P x` (every error of `x` satisfies `P`) with
  `raises_bind`, `raises_ensure`, `raises_okOr`: a chain raises only what its links raise, and a link is
  examined knowing that the links before it succeeded. A chain that raises nothing succeeds (`exists_ok`).

`Yields Q x` says the first without naming the result, for facts that all results share.
-/

namespace Outcome
variable {ε α β : Type}

/-- `ensure!(c, e)`. -/
def ensure (c : Prop) [Decidable c] (e : ε) : Except ε Unit := if c then .ok () else .error e

/-- `o.ok_or(e)`. -/
def okOr (o : Option α) (e : ε) : Except ε α :=
  match o with
  | some a => .ok a
  | none   => .error e

/-! ## Success -/

variable {x : Except ε α} {f : α → Except ε β} {b : β} {a : α} {e : ε} {o : Option α} {Q : α → Prop} {P : ε → Prop}
  {c : Prop} [Decidable c]

theorem bind_eq_ok : (x >>= f) = .ok b ↔ ∃ a, x = .ok a ∧ f a = .ok b := by
  cases x with
  | error e => exact ⟨fun h => (nomatch h), fun ⟨_, h, _⟩ => (nomatch h)⟩
  | ok a => exact ⟨fun h => ⟨a, rfl, h⟩, fun ⟨_, h, h'⟩ => by cases h; exact h'⟩

@[simp] theorem pure_eq_ok {b : α} : (pure a : Except ε α) = .ok b ↔ a = b :=
  ⟨fun h => by cases h; rfl, fun h => by rw [h]; rfl⟩

@[simp] theorem ensure_eq_ok {u : Unit} : ensure c e = .ok u ↔ c := by
  unfold ensure
  split <;> simp_all

@[simp] theorem okOr_eq_ok : okOr o e = .ok a ↔ o = some a := by
  cases o <;> simp [okOr]

@[simp] theorem mapError_eq_ok {δ : Type} {f : ε → δ} : x.mapError f = .ok a ↔ x = .ok a := by
  cases x <;> simp [Except.mapError]

theorem map_eq_ok {f : α → β} : x.map f = .ok b ↔ ∃ a, x = .ok a ∧ f a = b := by
  cases x <;> simp [Except.map]

/-- A guard in front of a chain. -/
theorem ensure_bind_eq_ok {f : Unit → Except ε β} :
    (ensure c e >>= f) = .ok b ↔ c ∧ f () = .ok b := by
  rw [bind_eq_ok]
  exact ⟨fun ⟨_, h, h'⟩ => ⟨ensure_eq_ok.mp h, h'⟩, fun ⟨h, h'⟩ => ⟨(), ensure_eq_ok.mpr h, h'⟩⟩

/-- A storage read with a default error in front of a chain. -/
theorem okOr_bind_eq_ok : (okOr o e >>= f) = .ok b ↔ ∃ a, o = some a ∧ f a = .ok b := by
  rw [bind_eq_ok]
  simp only [okOr_eq_ok]

/-! Read forwards, to take a chain apart link by link. -/

theorem bind_ok (h : (x >>= f) = .ok b) : ∃ a, x = .ok a ∧ f a = .ok b := bind_eq_ok.mp h

theorem pure_ok {b : α} (h : (pure a : Except ε α) = .ok b) : a = b := pure_eq_ok.mp h

theorem ensure_ok {f : Unit → Except ε β} (h : (ensure c e >>= f) = .ok b) :
    c ∧ f () = .ok b :=
  ensure_bind_eq_ok.mp h

theorem okOr_ok (h : (okOr o e >>= f) = .ok b) : ∃ a, o = some a ∧ f a = .ok b := okOr_bind_eq_ok.mp h

/-- Every element passes a loop of checks. -/
theorem forM_ok {f : α → Except ε Unit} {l : List α} (h : l.forM f = .ok ()) : ∀ a ∈ l, f a = .ok () := by
  induction l with
  | nil => simp
  | cons a l ih =>
    obtain ⟨⟨⟩, ha, hl⟩ := bind_eq_ok.mp h
    intro b hb
    rcases List.mem_cons.mp hb with rfl | hb
    · exact ha
    · exact ih hl b hb

/-- Every result of `x` satisfies `Q`. -/
def Yields (Q : α → Prop) (x : Except ε α) : Prop := ∀ a, x = .ok a → Q a

@[simp] theorem yields_ok : Yields Q (.ok a : Except ε α) ↔ Q a :=
  ⟨fun h => h a rfl, fun h _ ha => by cases ha; exact h⟩

@[simp] theorem yields_pure : Yields Q (pure a : Except ε α) ↔ Q a := yields_ok

@[simp] theorem yields_error : Yields Q (.error e : Except ε α) := fun _ h => by cases h

@[simp] theorem yields_bind {Q : β → Prop} : Yields Q (x >>= f) ↔ Yields (fun a => Yields Q (f a)) x := by
  constructor
  · intro h a ha b hb
    exact h b (bind_eq_ok.mpr ⟨a, ha, hb⟩)
  · intro h b hb
    obtain ⟨a, ha, hb⟩ := bind_eq_ok.mp hb
    exact h a ha b hb

@[simp] theorem yields_map {f : α → β} {Q : β → Prop} : Yields Q (f <$> x) ↔ Yields (fun a => Q (f a)) x := by
  cases x with
  | error e => exact ⟨fun _ => yields_error, fun _ => yields_error⟩
  | ok a =>
    rw [yields_ok]
    exact yields_ok

@[simp] theorem yields_true : Yields (fun _ => True) x := fun _ _ => trivial

/-- What holds of every value holds of the result. -/
theorem Yields.of_forall (h : ∀ a, Q a) : Yields Q x := fun a _ => h a

theorem Yields.mono {P : α → Prop} (h : Yields P x) (hPQ : ∀ a, P a → Q a) : Yields Q x := fun a ha => hPQ a (h a ha)

@[simp] theorem yields_ite {y : Except ε α} :
    Yields Q (if c then x else y) ↔ (c → Yields Q x) ∧ (¬ c → Yields Q y) := by
  split <;> simp_all

/-! ## Failure -/

/-- Every error that `x` can end with satisfies `P`. -/
def Raises (P : ε → Prop) (x : Except ε α) : Prop := ∀ e, x = .error e → P e

@[simp] theorem raises_ok : Raises P (.ok a : Except ε α) := fun _ h => (nomatch h)

@[simp] theorem raises_pure : Raises P (pure a : Except ε α) := raises_ok

@[simp] theorem raises_error : Raises P (.error e : Except ε α) ↔ P e :=
  ⟨fun h => h e rfl, fun h _ he => by cases he; exact h⟩

@[simp] theorem raises_ensure : Raises P (ensure c e) ↔ (¬ c → P e) := by
  unfold ensure
  split <;> simp_all

@[simp] theorem raises_okOr : Raises P (okOr o e) ↔ (o = none → P e) := by
  cases o <;> simp [okOr]

/-- **A chain raises what its links raise**, each link being reached only after the ones before it. -/
theorem raises_bind (hx : Raises P x) (hf : ∀ a, x = .ok a → Raises P (f a)) : Raises P (x >>= f) := by
  cases x with
  | error e => exact fun e' h => hx e' (by cases h; rfl)
  | ok a => exact hf a rfl

/-- The same as an equivalence, to walk through a chain of guards by rewriting. -/
@[simp] theorem raises_bind_iff : Raises P (x >>= f) ↔ Raises P x ∧ ∀ a, x = .ok a → Raises P (f a) := by
  refine ⟨?_, fun ⟨hx, hf⟩ => raises_bind hx hf⟩
  cases x with
  | error e => exact fun h => ⟨fun e' he => h e' (by cases he; rfl), nofun⟩
  | ok a => exact fun h => ⟨raises_ok, fun b hb => by cases hb; exact h⟩

@[simp] theorem raises_map {f : α → β} : Raises P (f <$> x) ↔ Raises P x := by
  cases x with
  | error e => exact raises_error.trans raises_error.symm
  | ok a => exact ⟨fun _ => raises_ok, fun _ => raises_ok⟩

@[simp] theorem raises_ite {y : Except ε α} :
    Raises P (if c then x else y) ↔ (c → Raises P x) ∧ (¬ c → Raises P y) := by
  split <;> simp_all

theorem raises_mapError {δ : Type} {P : δ → Prop} {f : ε → δ} : Raises P (x.mapError f) ↔ Raises (P ∘ f) x := by
  cases x <;> simp [Except.mapError]

/-- A chain that raises nothing succeeds. -/
theorem exists_ok (h : Raises (fun _ => False) x) : ∃ a, x = .ok a := by
  cases x with
  | ok a => exact ⟨a, rfl⟩
  | error e => exact (h e rfl).elim

theorem Raises.mono {Q : ε → Prop} (h : Raises P x) (hPQ : ∀ e, P e → Q e) : Raises Q x := fun e he => hPQ e (h e he)
end Outcome
