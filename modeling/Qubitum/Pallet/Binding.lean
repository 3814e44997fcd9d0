import Qubitum.Pallet.Requests
import Mathlib.Data.Set.Function

/-!
# `Pallet.Binding` — a witness that opens a commitment states what was committed

`blake2_256` cannot be injective: it maps all byte strings to 32 bytes. What the pallet relies on is that
no collision occurs *among the preimages that are actually hashed*. That set is a parameter `U` here, and
collision-freeness is `Set.InjOn cfg.blake2_256 U`.

Under it, the checks of `Pallet.Requests` and `Pallet.Registry` are binding: an account that matches an
operator commitment is the operator (`operator_of_matches`), and a witness that opens a stored assignment,
timing or terms commitment carries what was committed (`fields_of_opens`). The legacy forms cannot interfere, since
a preimage and its legacy form differ in length (`form_injective`).
-/

namespace Qubitum
open Scale Outcome

variable {A L : Type} {w : Nat}

/-! ## Preimages -/

section Accounts
variable [FixedCodec A]
variable {domain : String}

theorem roleAccountPreimage_inj {a b : A} (h : roleAccountPreimage domain a = roleAccountPreimage domain b) :
    a = b := by
  exact encode_inj (List.append_cancel_left h)

/-- A role preimage is longer than any account. -/
theorem roleAccountPreimage_ne_account (hdom : 0 < (encodeSlice (ascii domain)).length) (a b : A) :
    roleAccountPreimage domain a ≠ accountPreimage b := by
  intro h
  have hlen := congrArg List.length h
  simp only [roleAccountPreimage, accountPreimage, List.length_append, encode_length] at hlen
  omega
end Accounts

/-! ## The two forms of a preimage

What a witness states is hashed with a domain and a blinding, or alone in the legacy form: `none` stands for the
latter. -/

section Forms
variable {α : Type} [FixedCodec α] {form : α × Option Commitment → Bytes}

/-- **A preimage determines its form and fields**: the two forms differ in length, and an encoding is uniquely
    readable. -/
theorem form_injective (tag : Bytes) (hblinded : ∀ x b, form (x, some b) = tag ++ (encode x ++ encode b))
    (hlegacy : ∀ x, form (x, none) = encode x) : Function.Injective form := by
  have hlonger (x y : α) (b : Commitment) : form (x, some b) ≠ form (y, none) := by
    intro h
    have hlen := congrArg List.length h
    have hblinding : width Commitment = 32 := rfl
    rw [hblinded, hlegacy] at hlen
    simp only [List.length_append, encode_length] at hlen
    omega
  rintro ⟨x, b⟩ ⟨y, b'⟩ h
  cases b <;> cases b'
  case none.none => rw [encode_inj ((hlegacy x).symm.trans (h.trans (hlegacy y)))]
  case none.some b' => exact absurd h.symm (hlonger y x b')
  case some.none b => exact absurd h (hlonger x y b)
  case some.some b b' =>
    rw [hblinded, hblinded] at h
    obtain ⟨hx, hb⟩ := encode_append_inj (List.append_cancel_left h)
    rw [hx, encode_inj hb]
end Forms

def assignmentForm : (RequestId × SubnetId × MinerId × ValidatorId) × Option Commitment → Bytes
  | ((r, s, m, v), some b) => requestAssignmentPreimage r s m v b
  | ((r, s, m, v), none) => legacyRequestAssignmentPreimage r s m v

def timingForm : (RequestId × BlockNumber) × Option Commitment → Bytes
  | ((r, c), some b) => requestTimingPreimage r c b
  | ((r, c), none) => legacyRequestTimingPreimage r c

def termsForm : (RequestId × BitVec w × UInt16 × UInt16) × Option Commitment → Bytes
  | ((r, p, f, t), some b) => requestTermsPreimage r p f t b
  | ((r, p, f, t), none) => legacyRequestTermsPreimage r p f t

theorem assignmentForm_injective : Function.Injective assignmentForm :=
  form_injective (ascii "qubitum.request.assignment.v1") (by simp [assignmentForm, requestAssignmentPreimage])
    fun _ => rfl

theorem timingForm_injective : Function.Injective timingForm :=
  form_injective (ascii "qubitum.request.timing.v1") (by simp [timingForm, requestTimingPreimage]) fun _ => rfl

theorem termsForm_injective : Function.Injective (termsForm (w := w)) :=
  form_injective (ascii "qubitum.request.terms.v1") (by simp [termsForm, requestTermsPreimage]) fun _ => rfl

/-! ## Opening a commitment -/

section Binding
variable {cfg : Config A L w} {U : Set Bytes}

section Opens
variable {α : Type} {form : α × Option Commitment → Bytes} {x y : α} {stored blinding : Commitment} {mismatch : Error}

/-- Both forms of a witness are among the preimages of `U`. -/
def FormsIn (U : Set Bytes) (form : α × Option Commitment → Bytes) (x : α) (blinding : Commitment) : Prop :=
  form (x, some blinding) ∈ U ∧ form (x, none) ∈ U

theorem form_of_opens (hx : FormsIn U form x blinding)
    (hok : ensureOpens stored (cfg.blake2_256 (form (x, some blinding))) (cfg.blake2_256 (form (x, none))) blinding
      mismatch = .ok ()) : ∃ b, form (x, b) ∈ U ∧ stored = cfg.blake2_256 (form (x, b)) := by
  obtain ⟨hmatch, -⟩ := ensure_ok hok
  rcases hmatch with h | ⟨-, h⟩
  · exact ⟨_, hx.1, h⟩
  · exact ⟨_, hx.2, h⟩

section
variable (hform : Function.Injective form) (hU : Set.InjOn cfg.blake2_256 U)
include hform hU

/-- **A witness that opens a commitment states what was committed**, in whichever form. -/
theorem fields_of_opens (b : Option Commitment) (hy : form (y, b) ∈ U) (hx : FormsIn U form x blinding)
    (hok : ensureOpens (cfg.blake2_256 (form (y, b))) (cfg.blake2_256 (form (x, some blinding)))
      (cfg.blake2_256 (form (x, none))) blinding mismatch = .ok ()) : x = y := by
  obtain ⟨b', hmem, hstored⟩ := form_of_opens hx hok
  cases hform (hU hy hmem hstored)
  rfl

/-- What one commitment accepts states the same fields. -/
theorem fields_unique {blinding' : Commitment}
    (hx : FormsIn U form x blinding) (hy : FormsIn U form y blinding')
    (hok : ensureOpens stored (cfg.blake2_256 (form (x, some blinding))) (cfg.blake2_256 (form (x, none))) blinding
      mismatch = .ok ())
    (hok' : ensureOpens stored (cfg.blake2_256 (form (y, some blinding'))) (cfg.blake2_256 (form (y, none))) blinding'
      mismatch = .ok ()) : x = y := by
  obtain ⟨b, hmem, hstored⟩ := form_of_opens hy hok'
  rw [hstored] at hok
  exact fields_of_opens hform hU b hmem hx hok
end
end Opens

variable [FixedCodec A]
variable {claimed : A}

/-- The account that matches the commitment of an operator is that operator. -/
theorem operator_of_matches (hU : Set.InjOn cfg.blake2_256 U) {operator : A}
    (ho : operatorPreimage operator ∈ U) (hc : operatorPreimage claimed ∈ U) (hl : accountPreimage claimed ∈ U)
    (h : cfg.operatorCommitmentMatches (cfg.operatorCommitment operator) claimed = true) : claimed = operator := by
  simp only [Config.operatorCommitmentMatches, Bool.or_eq_true, decide_eq_true_eq] at h
  rcases h with h | h
  · exact (roleAccountPreimage_inj (hU ho hc h)).symm
  · exact absurd (hU ho hl h) (roleAccountPreimage_ne_account (by decide) operator claimed)

/-- The account that matches the commitment of a request's user is that user. -/
theorem user_of_matches (hU : Set.InjOn cfg.blake2_256 U) {user : A} (hu : requestUserPreimage user ∈ U)
    (hc : requestUserPreimage claimed ∈ U) (hl : accountPreimage claimed ∈ U)
    (h : cfg.requestUserCommitmentMatches (cfg.requestUserCommitment user) claimed = true) : claimed = user := by
  simp only [Config.requestUserCommitmentMatches, Bool.or_eq_true, decide_eq_true_eq] at h
  rcases h with h | h
  · exact (roleAccountPreimage_inj (hU hu hc h)).symm
  · exact absurd (hU hu hl h) (roleAccountPreimage_ne_account (by decide) user claimed)
end Binding
end Qubitum
