import Qubitum.Runtime.Calls

/-!
# `Runtime.Dispatch` — which calls a call dispatches, and what it leaves behind

`dispatches` is one level of a dispatch: the arguments a wrapper hands on, each with the origin it gets.
A batch and a conditional hand on the origin of their caller; every other wrapper chooses one
(`dispatches_cases`). `Persists` is what outlives the dispatch: calls that are scheduled or end up as noted
preimages.
-/

namespace Qubitum
open Relation Scan

variable {A Q : Type}

/-! ## Origin checks, as the list of outcomes behind them -/

namespace Origin
variable {β : Type}

def unlessNone (origin : Origin A) (outcomes : List β) : List β :=
  match origin with
  | .none => []
  | _     => outcomes

def whenRoot (origin : Origin A) (outcomes : List β) : List β :=
  match origin with
  | .root => outcomes
  | _     => []

def whenSigned (origin : Origin A) (outcomes : A → List β) : List β :=
  match origin with
  | .signed who => outcomes who
  | _           => []

/-- The sudo key or root. -/
def whenSudo (origin : Origin A) (outcomes : List β) : List β :=
  match origin with
  | .signed _ | .root => outcomes
  | _                 => []

variable {origin : Origin A} {outcome : β} {outcomes : List β}

theorem mem_of_unlessNone (h : outcome ∈ origin.unlessNone outcomes) : outcome ∈ outcomes := by
  cases origin with
  | none => exact absurd h List.not_mem_nil
  | _ => exact h

/-- Calls handed on with the origin of the caller. -/
theorem mem_of_handedOn {origin' : Origin A} (calls : List β) {call : β}
    (h : (origin', call) ∈ origin.unlessNone (calls.map fun call => (origin, call))) :
    origin' = origin ∧ call ∈ calls := by
  obtain ⟨_, hmem, heq⟩ := List.mem_map.mp (mem_of_unlessNone h)
  cases heq
  exact ⟨rfl, hmem⟩

theorem mem_of_whenRoot (h : outcome ∈ origin.whenRoot outcomes) : outcome ∈ outcomes := by
  cases origin with
  | root => exact h
  | _ => exact absurd h List.not_mem_nil

theorem mem_of_whenSigned {outcomes : A → List β} (h : outcome ∈ origin.whenSigned outcomes) :
    ∃ who, outcome ∈ outcomes who := by
  cases origin with
  | signed who => exact ⟨who, h⟩
  | _ => exact absurd h List.not_mem_nil

theorem mem_of_whenSudo (h : outcome ∈ origin.whenSudo outcomes) : outcome ∈ outcomes := by
  cases origin with
  | signed _ | root => exact h
  | _ => exact absurd h List.not_mem_nil
end Origin

/-! ## Dispatch -/

/-- What dispatch derives from a call's data: the accounts of the utility and multisig pallets and the
    length of an encoded call. -/
structure Derivations (A Q : Type) where
  derivativeAccountId : A → UInt16 → Option A
  multiAccountId : A → List A → UInt16 → A
  encodedLen : RuntimeCall A Q → Nat

/-- The bound on a call that `Preimages::bound` stores inline; a longer one is noted as a preimage. -/
def boundedInlineLen : Nat := 128

section Dispatch
variable (derive : Derivations A Q)

/-- The calls that a call, dispatched with `origin`, may dispatch itself, each with the origin it passes on.
    Which of them are reached, with what weight and past which call filters, is left open. -/
def dispatches (origin : Origin A) : RuntimeCall A Q → List (Origin A × RuntimeCall A Q)
  | .utility inner =>
    match inner with
    | .batch calls | .batchAll calls | .forceBatch calls =>
      origin.unlessNone (calls.map fun call => (origin, call))
    | .ifElse main fallback => origin.unlessNone [(origin, main), (origin, fallback)]
    | .asDerivative index call =>
      origin.whenSigned fun who =>
        (derive.derivativeAccountId who index).toList.map fun pseudonym => (.signed pseudonym, call)
    | .dispatchAs asOrigin call | .dispatchAsFallible asOrigin call => origin.whenRoot [(asOrigin, call)]
    | .withWeight call => origin.whenRoot [(.root, call)]
  | .proxy (.proxy real call) | .proxy (.proxyAnnounced _ real call) =>
    origin.whenSigned fun _ => [(.signed real, call)]
  | .sudoPallet (.sudoCall call) | .sudoPallet (.sudoUncheckedWeight call) =>
    origin.whenSudo [(.root, call)]
  | .sudoPallet (.sudoAs who call) => origin.whenSudo [(.signed who, call)]
  | .multisig (.asMultiThreshold1 otherSignatories call) =>
    origin.whenSigned fun who => [(.signed (derive.multiAccountId who otherSignatories 1), call)]
  | .multisig (.asMulti threshold otherSignatories call) =>
    origin.whenSigned fun who => [(.signed (derive.multiAccountId who otherSignatories threshold), call)]
  | _ => []

/-- Everything dispatched in the course of a dispatch, itself included. -/
def Dispatched : Origin A × RuntimeCall A Q → Origin A × RuntimeCall A Q → Prop :=
  ReflTransGen fun before after => after ∈ dispatches derive before.1 before.2

/-- `kept` is left behind for later by a call dispatched with `origin`: scheduled, readable from noted bytes,
    or the call of a crowdloan that is too long to be stored inline. -/
inductive Persists (decoder : DepthDecoder (RuntimeCall A Q)) :
    Origin A → RuntimeCall A Q → RuntimeCall A Q → Prop where
  | scheduled {call kept : RuntimeCall A Q} (hkept : call.Schedules kept) : Persists decoder .root call kept
  | notedSigned {call kept : RuntimeCall A Q} {limit : Nat} (who : A)
      (hnotes : call.Notes decoder limit kept) : Persists decoder (.signed who) call kept
  | notedRoot {call kept : RuntimeCall A Q} {limit : Nat} (hnotes : call.Notes decoder limit kept) :
      Persists decoder .root call kept
  | pledged {call kept : RuntimeCall A Q} (who : A) (hkept : call.Pledges kept)
      (hlong : boundedInlineLen < derive.encodedLen kept) : Persists decoder (.signed who) call kept
end Dispatch

variable {derive : Derivations A Q}

/-- `call'` is an argument that `call` dispatches at once. -/
def Wraps (call call' : RuntimeCall A Q) : Prop := call.Batches call' ∨ call.Reroutes call'

/-- A dispatched call is an argument: of a batch or a conditional, which pass on their own origin, or of
    another wrapper. -/
theorem dispatches_cases {origin origin' : Origin A} {call call' : RuntimeCall A Q}
    (h : (origin', call') ∈ dispatches derive origin call) :
    (origin' = origin ∧ call.Batches call') ∨ call.Reroutes call' := by
  cases call with
  | utility inner =>
    cases inner with
    | batch calls => exact .inl ((Origin.mem_of_handedOn calls h).imp_right .batch)
    | batchAll calls => exact .inl ((Origin.mem_of_handedOn calls h).imp_right .batchAll)
    | forceBatch calls => exact .inl ((Origin.mem_of_handedOn calls h).imp_right .forceBatch)
    | ifElse main fallback =>
      obtain ⟨rfl, hmem⟩ := Origin.mem_of_handedOn [main, fallback] h
      rcases List.mem_pair.mp hmem with rfl | rfl
      · exact .inl ⟨rfl, .main⟩
      · exact .inl ⟨rfl, .fallback⟩
    | asDerivative index call =>
      obtain ⟨who, hmem⟩ := Origin.mem_of_whenSigned h
      obtain ⟨pseudonym, -, heq⟩ := List.mem_map.mp hmem
      cases heq
      exact .inr .asDerivative
    | dispatchAs _ _ | dispatchAsFallible _ _ | withWeight _ =>
      cases List.mem_singleton.mp (Origin.mem_of_whenRoot h)
      exact .inr (by constructor)
  | proxy inner =>
    cases inner with
    | other => exact absurd h List.not_mem_nil
    | proxy _ _ | proxyAnnounced _ _ _ =>
      obtain ⟨_, hmem⟩ := Origin.mem_of_whenSigned h
      cases List.mem_singleton.mp hmem
      exact .inr (by constructor)
  | sudoPallet inner =>
    cases inner with
    | other => exact absurd h List.not_mem_nil
    | sudoCall _ | sudoUncheckedWeight _ | sudoAs _ _ =>
      cases List.mem_singleton.mp (Origin.mem_of_whenSudo h)
      exact .inr (by constructor)
  | multisig inner =>
    cases inner with
    | other => exact absurd h List.not_mem_nil
    | asMultiThreshold1 _ _ | asMulti _ _ _ =>
      obtain ⟨_, hmem⟩ := Origin.mem_of_whenSigned h
      cases List.mem_singleton.mp hmem
      exact .inr (by constructor)
  | _ => exact absurd h List.not_mem_nil

/-- The calls along a dispatch, their origins forgotten. -/
theorem wraps_of_dispatched {before after : Origin A × RuntimeCall A Q}
    (h : Dispatched derive before after) : ReflTransGen Wraps before.2 after.2 := by
  refine ReflTransGen.lift Prod.snd ?_ _ _ h
  intro before after hstep
  rcases dispatches_cases hstep with ⟨-, hbatches⟩ | hreroutes
  · exact .inl hbatches
  · exact .inr hreroutes
end Qubitum
