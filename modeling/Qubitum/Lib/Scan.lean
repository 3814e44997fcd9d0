import Mathlib.Logic.Relation

/-!
# `Lib.Scan` — depth-limited scanners over nested values

A value may carry further values: as arguments, or encoded in a byte string. A *scanner* walks down the
values it follows with a budget of remaining levels and refuses what lies deeper than the budget. Two facts
make such a scanner sound, whatever it looks for:

* `Scanner.reach`: what is accepted stays accepted, with a positive budget, along every path of followed
  values; so one step lemma per scanner says everything about all depths;
* `DepthDecoder.scanEncoded_finds`: a byte string that passes has no value in front of it, within the probe
  depth, that did not pass.

Values a scanner does not follow are where it can be wrong: `split_at_first` cuts a path at its first edge
of that kind.
-/

namespace Scan
open Relation

variable {β C : Type}

/-! ## Decoding with a depth limit -/

/-- A prefix decoder with a limit on the nesting of what it decodes: a larger limit decodes more, and what
    it decoded before it decodes the same. -/
structure DepthDecoder (C : Type) where
  decode : Nat → List UInt8 → Option (C × List UInt8)
  mono : ∀ {limit limit' input out}, limit ≤ limit' → decode limit input = some out → decode limit' input = some out

namespace DepthDecoder
variable (decoder : DepthDecoder C)

/-- Decoding that must use up the input. -/
def decodeAll (limit : Nat) (input : List UInt8) : Option C :=
  match decoder.decode limit input with
  | some (value, []) => some value
  | _                => none

/-- `value` stands in front of `input`, nested at most `limit` deep. -/
def Finds (limit : Nat) (input : List UInt8) (value : C) : Prop :=
  ∃ rest, decoder.decode limit input = some (value, rest)

variable {decoder} {limit limit' : Nat} {input : List UInt8} {value value' : C}

theorem Finds.mono (h : decoder.Finds limit input value) (hle : limit ≤ limit') : decoder.Finds limit' input value := by
  obtain ⟨rest, hdecode⟩ := h
  exact ⟨rest, decoder.mono hle hdecode⟩

/-- The input determines the value, at whatever limits it is decoded. -/
theorem Finds.unique (h : decoder.Finds limit input value) (h' : decoder.Finds limit' input value') :
    value = value' := by
  obtain ⟨rest, hdecode⟩ := h.mono (Nat.le_max_left limit limit')
  obtain ⟨rest', hdecode'⟩ := h'.mono (Nat.le_max_right limit limit')
  rw [hdecode, Option.some.injEq, Prod.mk.injEq] at hdecode'
  exact hdecode'.1

theorem finds_of_decodeAll (h : decoder.decodeAll limit input = some value) : decoder.Finds limit input value := by
  unfold decodeAll at h
  split at h
  · next hdecode =>
      cases h
      exact ⟨[], hdecode⟩
  · cases h

variable (decoder)

/-- **The scan of a byte string**, with `remaining` levels left: a value in front of it, with or without
    bytes behind it, is scanned; one that only the `probe` depth decodes is `flagged`; bytes that are no
    value are `clear`. -/
def scanEncoded (probe : Nat) (flagged clear : β) (scan : C → β) (remaining : Nat) (bytes : List UInt8) :
    β :=
  if remaining = 0 then flagged
  else
    match decoder.decodeAll remaining bytes with
    | some call => scan call
    | none =>
      match decoder.decode remaining bytes with
      | some (call, _) => scan call
      | none =>
        if (decoder.decodeAll probe bytes).isSome || (decoder.decode probe bytes).isSome then flagged
        else clear

variable {decoder}

/-- A byte string that is not flagged has the verdict of the value in front of it, up to the probe depth. -/
theorem scanEncoded_finds {probe : Nat} {flagged clear out : β} {scan : C → β} {remaining : Nat}
    (h : decoder.scanEncoded probe flagged clear scan remaining input = out) (hout : out ≠ flagged)
    (hfinds : decoder.Finds limit input value) (hle : limit ≤ probe) : 0 < remaining ∧ scan value = out := by
  unfold scanEncoded at h
  split at h
  · exact absurd h.symm hout
  · next hpos =>
      refine ⟨Nat.pos_of_ne_zero hpos, ?_⟩
      split at h
      · next hall =>
          rwa [hfinds.unique (finds_of_decodeAll hall)]
      · split at h
        · next hdecode =>
            rwa [hfinds.unique ⟨_, hdecode⟩]
        · -- nothing at the remaining depth, so the probe has found the value
          obtain ⟨rest, hprobe⟩ := hfinds.mono hle
          rw [hprobe, Option.isSome_some, Bool.or_true, if_pos rfl] at h
          exact absurd h.symm hout
end DepthDecoder

/-! ## Scanners -/

/-- A scanner: what it accepts with a budget of remaining levels, and which values it follows. -/
structure Scanner (C : Type) where
  accepts : Nat → C → Prop
  follows : C → C → Prop
  not_accepts_zero : ∀ c, ¬ accepts 0 c
  accepts_step : ∀ {remaining c c'}, accepts (remaining + 1) c → follows c c' → accepts remaining c'

/-- **Soundness along paths.** Every value on a path of followed values from an accepted one is accepted
    itself, with budget left. -/
theorem Scanner.reach (scanner : Scanner C) {remaining : Nat} {c c' : C} (h : scanner.accepts remaining c)
    (hpath : ReflTransGen scanner.follows c c') : ∃ remaining', scanner.accepts (remaining' + 1) c' := by
  have hpositive : ∀ {remaining c}, scanner.accepts remaining c →
      ∃ remaining', scanner.accepts (remaining' + 1) c := by
    intro remaining c hc
    cases remaining with
    | zero => exact absurd hc (scanner.not_accepts_zero c)
    | succ remaining => exact ⟨remaining, hc⟩
  induction hpath with
  | refl => exact hpositive h
  | tail _ hstep ih =>
    obtain ⟨remaining', hc⟩ := ih
    exact hpositive (scanner.accepts_step hc hstep)

/-- A path of two kinds of edges is all of the first kind, or has a first edge of the second. -/
theorem split_at_first {S U : C → C → Prop} {c d : C} (h : ReflTransGen (fun a b => S a b ∨ U a b) c d) :
    ReflTransGen S c d ∨ ∃ a b, ReflTransGen S c a ∧ U a b ∧ ReflTransGen (fun a b => S a b ∨ U a b) b d := by
  induction h with
  | refl => exact .inl .refl
  | tail hpath hstep ih =>
    rcases ih with hfirst | ⟨a, b, hbefore, hedge, hafter⟩
    · rcases hstep with hS | hU
      · exact .inl (hfirst.tail hS)
      · exact .inr ⟨_, _, hfirst, hU, .refl⟩
    · exact .inr ⟨a, b, hbefore, hedge, hafter.tail hstep⟩
end Scan
