import Qubitum.Lib.Outcome
import Qubitum.Lib.Checked

/-!
# `Lib.Ledger` — a fungible currency with per-reason holds

The interface a pallet sees of its currency: an opaque ledger state with free balances and balances on
hold under a reason, and five operations that may refuse. `Currency.Exact` is what the interface
promises of an *exact* ledger: an operation that succeeds moves precisely the amount it was given and
touches nothing else, and it refuses for want of held funds only if there are fewer held than asked for.
Any other reason to refuse (existential deposits, freezes, provider references) stays open.

The effect of an operation is a `Shift`: signed changes of every held and free balance. Shifts add up
along a sequence of operations (`Shift.trans`), so a multi-transfer settlement is read off as one shift.
-/

namespace Ledger

/-- Why a currency refuses. Only the want of funds is told apart. -/
inductive TokenError where
  | fundsUnavailable
  | other (code : UInt8)
  deriving DecidableEq, Repr

/-- The currency a pallet is configured with (`Inspect + Mutate + MutateHold`). `L` is the ledger state,
    `ρ` the hold reasons, `α` the accounts. -/
structure Currency (L ρ α : Type) (w : Nat) where
  balanceOnHold : L → ρ → α → BitVec w
  balance : L → α → BitVec w
  /-- `hold(reason, who, amount)` -/
  hold : L → ρ → α → BitVec w → Except TokenError L
  /-- `release(reason, who, amount, Exact)` -/
  release : L → ρ → α → BitVec w → Except TokenError L
  /-- `transfer_on_hold(reason, source, dest, amount, Exact, Free, Polite)` -/
  transferOnHold : L → ρ → α → α → BitVec w → Except TokenError L
  /-- `burn_held(reason, who, amount, Exact, Force)`, with the amount burned -/
  burnHeld : L → ρ → α → BitVec w → Except TokenError (BitVec w × L)
  /-- `burn_from(who, amount, Expendable, Exact, Polite)`, with the amount burned -/
  burnFrom : L → α → BitVec w → Except TokenError (BitVec w × L)

/-! ## Shifts -/

/-- Signed changes of the held and the free balances. -/
structure Delta (ρ α : Type) where
  held : ρ → α → ℤ
  free : α → ℤ

namespace Delta
variable {ρ α : Type} [DecidableEq ρ] [DecidableEq α]

/-- `x` appears on hold for `a` under `r`. -/
def heldAt (r : ρ) (a : α) (x : ℤ) : ρ → α → ℤ := fun r' a' => if r' = r ∧ a' = a then x else 0

/-- `x` appears in the free balance of `a`. -/
def freeAt (a : α) (x : ℤ) : α → ℤ := fun a' => if a' = a then x else 0

instance : Add (Delta ρ α) := ⟨fun d e => ⟨d.held + e.held, d.free + e.free⟩⟩

section
omit [DecidableEq ρ] [DecidableEq α]

@[simp] theorem add_held (d e : Delta ρ α) (r : ρ) (a : α) : (d + e).held r a = d.held r a + e.held r a := rfl

@[simp] theorem add_free (d e : Delta ρ α) (a : α) : (d + e).free a = d.free a + e.free a := rfl
end

/-- Nothing moves. -/
def none : Delta ρ α := ⟨fun _ _ => 0, fun _ => 0⟩

/-- `amount` goes from free to held. -/
def hold {w : Nat} (r : ρ) (a : α) (amount : BitVec w) : Delta ρ α :=
  ⟨heldAt r a amount.toNat, freeAt a (-amount.toNat)⟩

/-- `amount` goes from held to free. -/
def release {w : Nat} (r : ρ) (a : α) (amount : BitVec w) : Delta ρ α :=
  ⟨heldAt r a (-amount.toNat), freeAt a amount.toNat⟩

/-- `amount` leaves the hold of `source` for the free balance of `dest`. -/
def transfer {w : Nat} (r : ρ) (source dest : α) (amount : BitVec w) : Delta ρ α :=
  ⟨heldAt r source (-amount.toNat), freeAt dest amount.toNat⟩

/-- `amount` disappears from a hold. -/
def burnHeld {w : Nat} (r : ρ) (a : α) (amount : BitVec w) : Delta ρ α := ⟨heldAt r a (-amount.toNat), fun _ => 0⟩

/-- `amount` disappears from a free balance. -/
def burnFree {w : Nat} (a : α) (amount : BitVec w) : Delta ρ α := ⟨fun _ _ => 0, freeAt a (-amount.toNat)⟩
end Delta

namespace Currency
variable {L ρ α : Type} {w : Nat} [DecidableEq ρ] [DecidableEq α] {c : Currency L ρ α w} {d : Delta ρ α}

/-- The amount on hold, as a number. -/
def heldNat (c : Currency L ρ α w) (l : L) (r : ρ) (a : α) : Nat := (c.balanceOnHold l r a).toNat

/-- The free balance, as a number. -/
def freeNat (c : Currency L ρ α w) (l : L) (a : α) : Nat := (c.balance l a).toNat

/-- Between `l` and `l'` the balances changed by exactly `d`. -/
structure Shift (c : Currency L ρ α w) (l l' : L) (d : Delta ρ α) : Prop where
  held : ∀ r a, (c.heldNat l' r a : ℤ) = c.heldNat l r a + d.held r a
  free : ∀ a, (c.freeNat l' a : ℤ) = c.freeNat l a + d.free a

/-- An exact per-reason hold ledger. -/
structure Exact (c : Currency L ρ α w) : Prop where
  hold : ∀ {l l' r a x}, c.hold l r a x = .ok l' → c.Shift l l' (.hold r a x)
  release : ∀ {l l' r a x}, c.release l r a x = .ok l' → c.Shift l l' (.release r a x)
  transferOnHold : ∀ {l l' r a b x}, c.transferOnHold l r a b x = .ok l' → c.Shift l l' (.transfer r a b x)
  burnHeld : ∀ {l l' r a x y}, c.burnHeld l r a x = .ok (y, l') → y = x ∧ c.Shift l l' (.burnHeld r a x)
  burnFrom : ∀ {l l' a x y}, c.burnFrom l a x = .ok (y, l') → y = x ∧ c.Shift l l' (.burnFree a x)
  release_funds : ∀ {l r a x}, c.release l r a x = .error .fundsUnavailable → c.heldNat l r a < x.toNat
  transferOnHold_funds : ∀ {l r a b x},
    c.transferOnHold l r a b x = .error .fundsUnavailable → c.heldNat l r a < x.toNat
  burnHeld_funds : ∀ {l r a x}, c.burnHeld l r a x = .error .fundsUnavailable → c.heldNat l r a < x.toNat

omit [DecidableEq ρ] [DecidableEq α] in
/-- A currency that takes from a hold whenever it covers the amount: to burn it, and to release it if the free balance
    has room for it. -/
structure Pays (c : Currency L ρ α w) : Prop where
  burnHeld : ∀ {l r a x}, x.toNat ≤ c.heldNat l r a → ∃ out, c.burnHeld l r a x = .ok out
  release : ∀ {l r a x}, x.toNat ≤ c.heldNat l r a → c.freeNat l a + x.toNat < 2 ^ w → ∃ l', c.release l r a x = .ok l'

variable {l l' : L}

omit [DecidableEq ρ] [DecidableEq α] in
/-- Shifts add up along a sequence. -/
theorem Shift.trans {l1 l2 l3 : L} {e : Delta ρ α} (h : c.Shift l1 l2 d) (h' : c.Shift l2 l3 e) :
    c.Shift l1 l3 (d + e) where
  held r a := by rw [h'.held, h.held, Delta.add_held]; ring
  free a := by rw [h'.free, h.free, Delta.add_free]; ring

variable {a : α}

section
omit [DecidableEq ρ] [DecidableEq α]

/-- A hold that the shift does not mention is what it was. -/
theorem Shift.heldNat_eq (h : c.Shift l l' d) {r : ρ} (hd : d.held r a = 0) : c.heldNat l' r a = c.heldNat l r a := by
  have := h.held r a
  omega

/-- A free balance that the shift does not mention is what it was. -/
theorem Shift.freeNat_eq (h : c.Shift l l' d) (hd : d.free a = 0) : c.freeNat l' a = c.freeNat l a := by
  have := h.free a
  omega
end

section OneHold
variable {r : ρ} {who : α}

/-- A shift of one hold leaves the holds under other reasons alone. -/
theorem Shift.held_of_ne {x : ℤ} (h : c.Shift l l' d) (hd : d.held = Delta.heldAt r who x) {r' : ρ} (a : α)
    (hne : r' ≠ r) : c.heldNat l' r' a = c.heldNat l r' a := by
  apply h.heldNat_eq
  rw [hd, Delta.heldAt, if_neg fun heq => hne heq.1]

variable {x : Nat}

/-- A shift that adds to one hold, account by account. -/
theorem Shift.held_added (h : c.Shift l l' d) (hd : d.held = Delta.heldAt r who x) (a : α) :
    c.heldNat l' r a = c.heldNat l r a + if who = a then x else 0 := by
  have hself := h.held r a
  simp only [hd, Delta.heldAt, true_and, eq_comm (a := a)] at hself
  split_ifs at hself ⊢ <;> omega

/-- A shift that takes from one hold, account by account. -/
theorem Shift.held_taken (h : c.Shift l l' d) (hd : d.held = Delta.heldAt r who (-x)) (a : α) :
    c.heldNat l' r a + (if who = a then x else 0) = c.heldNat l r a := by
  have hself := h.held r a
  simp only [hd, Delta.heldAt, true_and, eq_comm (a := a)] at hself
  split_ifs at hself ⊢ <;> omega
end OneHold
end Currency

/-! ## An exact ledger -/

/-- A ledger that stores its balances. -/
structure Accounts (ρ α : Type) (w : Nat) where
  held : ρ → α → BitVec w
  free : α → BitVec w

namespace Accounts
variable {ρ α : Type} {w : Nat} [DecidableEq ρ] [DecidableEq α]

section
variable (s : Accounts ρ α w)

/-- The held balances with `v` at `(r, a)`. -/
def setHeld (r : ρ) (a : α) (v : BitVec w) : Accounts ρ α w :=
  { s with held := fun r' a' => if r' = r ∧ a' = a then v else s.held r' a' }

/-- The free balances with `v` at `a`. -/
def setFree (a : α) (v : BitVec w) : Accounts ρ α w := { s with free := fun a' => if a' = a then v else s.free a' }

/-- Credit a free balance; refused when it would overflow. -/
def deposit (a : α) (x : BitVec w) : Except TokenError (Accounts ρ α w) := do
  let v ← Outcome.okOr (Checked.add (s.free a) x) (.other 0)
  pure (s.setFree a v)

/-- Debit a free balance. -/
def withdraw (a : α) (x : BitVec w) : Except TokenError (Accounts ρ α w) := do
  let v ← Outcome.okOr (Checked.sub (s.free a) x) .fundsUnavailable
  pure (s.setFree a v)

/-- Put an amount on hold; refused when the hold would overflow. -/
def increaseHold (r : ρ) (a : α) (x : BitVec w) : Except TokenError (Accounts ρ α w) := do
  let v ← Outcome.okOr (Checked.add (s.held r a) x) (.other 1)
  pure (s.setHeld r a v)

/-- Take an amount off a hold. -/
def decreaseHold (r : ρ) (a : α) (x : BitVec w) : Except TokenError (Accounts ρ α w) := do
  let v ← Outcome.okOr (Checked.sub (s.held r a) x) .fundsUnavailable
  pure (s.setHeld r a v)
end

/-- The currency over stored balances. -/
def currency : Currency (Accounts ρ α w) ρ α w where
  balanceOnHold s := s.held
  balance s := s.free
  hold s r a x := do (← s.withdraw a x).increaseHold r a x
  release s r a x := do (← s.decreaseHold r a x).deposit a x
  transferOnHold s r a b x := do (← s.decreaseHold r a x).deposit b x
  burnHeld s r a x := do pure (x, ← s.decreaseHold r a x)
  burnFrom s a x := do pure (x, ← s.withdraw a x)

open Outcome

variable {s s' : Accounts ρ α w} {a : α} {x : BitVec w} {r : ρ}

theorem setFree_shift {v : BitVec w} {d : Int} (h : (v.toNat : Int) = (s.free a).toNat + d) :
    currency.Shift s (s.setFree a v) ⟨fun _ _ => 0, Delta.freeAt a d⟩ := by
  refine ⟨fun r b => by simp [Currency.heldNat, currency, setFree], fun b => ?_⟩
  by_cases hb : b = a
  · subst hb
    simpa [Currency.freeNat, currency, setFree, Delta.freeAt] using h
  · simp [Currency.freeNat, currency, setFree, Delta.freeAt, hb]

theorem deposit_shift (h : s.deposit a x = .ok s') : currency.Shift s s' ⟨fun _ _ => 0, Delta.freeAt a x.toNat⟩ := by
  obtain ⟨v, hv, hok⟩ := okOr_ok h
  obtain rfl := pure_ok hok
  exact setFree_shift (by have := Checked.add_eq_some hv; omega)

theorem withdraw_shift (h : s.withdraw a x = .ok s') :
    currency.Shift s s' ⟨fun _ _ => 0, Delta.freeAt a (-x.toNat)⟩ := by
  obtain ⟨v, hv, hok⟩ := okOr_ok h
  obtain rfl := pure_ok hok
  exact setFree_shift (by have := Checked.sub_eq_some hv; omega)

theorem setHeld_shift {v : BitVec w} {d : Int} (h : (v.toNat : Int) = (s.held r a).toNat + d) :
    currency.Shift s (s.setHeld r a v) ⟨Delta.heldAt r a d, fun _ => 0⟩ := by
  refine ⟨fun r' b => ?_, fun b => by simp [Currency.freeNat, currency, setHeld]⟩
  by_cases hb : r' = r ∧ b = a
  · obtain ⟨rfl, rfl⟩ := hb
    simpa [Currency.heldNat, currency, setHeld, Delta.heldAt] using h
  · simp [Currency.heldNat, currency, setHeld, Delta.heldAt, hb]

theorem increaseHold_shift (h : s.increaseHold r a x = .ok s') :
    currency.Shift s s' ⟨Delta.heldAt r a x.toNat, fun _ => 0⟩ := by
  obtain ⟨v, hv, hok⟩ := okOr_ok h
  obtain rfl := pure_ok hok
  exact setHeld_shift (by have := Checked.add_eq_some hv; omega)

theorem decreaseHold_shift (h : s.decreaseHold r a x = .ok s') :
    currency.Shift s s' ⟨Delta.heldAt r a (-x.toNat), fun _ => 0⟩ := by
  obtain ⟨v, hv, hok⟩ := okOr_ok h
  obtain rfl := pure_ok hok
  exact setHeld_shift (by have := Checked.sub_eq_some hv; omega)

theorem decreaseHold_funds (h : s.decreaseHold r a x = .error .fundsUnavailable) :
    (currency.heldNat s r a) < x.toNat := by
  by_contra hle
  have hsome : Checked.sub (s.held r a) x = some (s.held r a - x) := if_pos (Nat.not_lt.mp hle)
  rw [decreaseHold, hsome] at h
  cases h

omit [DecidableEq ρ] in
theorem deposit_funds : Raises (· ≠ .fundsUnavailable) (s.deposit a x) := raises_bind (by simp) fun _ _ => raises_pure

/-- **The stored-balance currency is exact**: the laws a pallet assumes of its currency are met. -/
theorem currency_exact : (currency : Currency (Accounts ρ α w) ρ α w).Exact where
  hold h := by
    obtain ⟨t, ht, h⟩ := bind_ok h
    have := (withdraw_shift ht).trans (increaseHold_shift h)
    exact ⟨fun r a => by simpa [Delta.hold] using this.held r a, fun a => by simpa [Delta.hold] using this.free a⟩
  release h := by
    obtain ⟨t, ht, h⟩ := bind_ok h
    have := (decreaseHold_shift ht).trans (deposit_shift h)
    exact ⟨fun r a => by simpa [Delta.release] using this.held r a, fun a => by simpa [Delta.release] using this.free a⟩
  transferOnHold h := by
    obtain ⟨t, ht, h⟩ := bind_ok h
    have := (decreaseHold_shift ht).trans (deposit_shift h)
    exact ⟨fun r a => by simpa [Delta.transfer] using this.held r a,
      fun a => by simpa [Delta.transfer] using this.free a⟩
  burnHeld h := by
    obtain ⟨t, ht, h⟩ := bind_ok h
    obtain ⟨rfl, rfl⟩ := Prod.mk.inj (pure_ok h)
    exact ⟨rfl, decreaseHold_shift ht⟩
  burnFrom h := by
    obtain ⟨t, ht, h⟩ := bind_ok h
    obtain ⟨rfl, rfl⟩ := Prod.mk.inj (pure_ok h)
    exact ⟨rfl, withdraw_shift ht⟩
  release_funds {s r a x} h := by
    cases hd : s.decreaseHold r a x with
    | error e => simp only [currency, hd] at h; cases h; exact decreaseHold_funds hd
    | ok t => simp only [currency, hd] at h; exact absurd rfl (deposit_funds _ h)
  transferOnHold_funds {s r a b x} h := by
    cases hd : s.decreaseHold r a x with
    | error e => simp only [currency, hd] at h; cases h; exact decreaseHold_funds hd
    | ok t => simp only [currency, hd] at h; exact absurd rfl (deposit_funds _ h)
  burnHeld_funds {s r a x} h := by
    cases hd : s.decreaseHold r a x with
    | error e => simp only [currency, hd] at h; cases h; exact decreaseHold_funds hd
    | ok t => simp only [currency, hd] at h; cases h

theorem decreaseHold_covered (h : x.toNat ≤ currency.heldNat s r a) :
    s.decreaseHold r a x = .ok (s.setHeld r a (s.held r a - x)) := by
  have hsome : Checked.sub (s.held r a) x = some (s.held r a - x) := if_pos h
  rw [decreaseHold, hsome]
  rfl

/-- The stored-balance currency takes from a hold whenever it covers the amount. -/
theorem currency_pays : (currency : Currency (Accounts ρ α w) ρ α w).Pays where
  burnHeld {s r a x} h := ⟨(x, s.setHeld r a (s.held r a - x)), bind_eq_ok.mpr ⟨_, decreaseHold_covered h, rfl⟩⟩
  release {s r a x} h hroom := by
    have hsome : Checked.add ((s.setHeld r a (s.held r a - x)).free a) x = some (s.free a + x) := if_pos hroom
    refine ⟨(s.setHeld r a (s.held r a - x)).setFree a (s.free a + x), bind_eq_ok.mpr ⟨_, decreaseHold_covered h, ?_⟩⟩
    rw [deposit, hsome]
    rfl
end Accounts
end Ledger
