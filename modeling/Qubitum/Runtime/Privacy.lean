import Qubitum.Runtime.Calls

/-!
# `Runtime.Privacy` — the gate that keeps private calls off the public chain

`CheckQubitumShielding` refuses a transaction whose call is, or carries, a Qubitum call or a
`store_encrypted`. It walks down the arguments of the utility, proxy, sudo, multisig and scheduler calls and
into the bytes of noted preimages, at most eight levels.

What it follows it decides correctly (`privacyViolationAt_step`). It does not follow the call of a new crowdloan:
the gate is sound for exactly the calls without a private call behind a crowdloan (`gate_sound_iff`).
-/

namespace Qubitum
open Relation Scale Scan

inductive CustomTransactionError where
  | failedShieldedTxParsing
  | invalidShieldedTxPubKeyHash
  | qubitumCallMustBeShielded
  | shieldStoreEncryptedDisabled
  deriving DecidableEq, Repr

def maxCallScanDepth : Nat := 8

def maxPreimageDecodeProbeDepth : Nat := 32

/-- What the scanners read of the chain: the decoders of its calls and of
    ciphertexts and the keys of the shield pallet. -/
structure ScanEnv (A Q V : Type) where
  decoder : DepthDecoder (RuntimeCall A Q)
  twox128 : Bytes → Shield.KeyHash
  parse : Bytes → Option Shield.ShieldedTransaction
  keys : Shield.Keys V

variable {A Q V : Type}

/-! ## The scanner -/

namespace CheckQubitumShielding
open CustomTransactionError

variable (env : ScanEnv A Q V)

def encodedBytesPrivacyViolation
    (privacyViolationAtDepth : RuntimeCall A Q → Option CustomTransactionError) (remainingDepth : Nat)
    (bytes : Bytes) : Option CustomTransactionError :=
  env.decoder.scanEncoded maxPreimageDecodeProbeDepth (some qubitumCallMustBeShielded) none
    privacyViolationAtDepth remainingDepth bytes

/-- `privacy_violation_at_depth`, by the levels that remain below `MAX_CALL_SCAN_DEPTH`. -/
def privacyViolationAt : Nat → RuntimeCall A Q → Option CustomTransactionError
  | 0, _ => some qubitumCallMustBeShielded
  | remaining + 1, call =>
    match call with
    | .qubitum _ => some qubitumCallMustBeShielded
    | .utility inner =>
      match inner with
      | .batch calls | .batchAll calls | .forceBatch calls =>
        calls.findSome? (privacyViolationAt remaining)
      | .asDerivative _ call | .dispatchAs _ call | .withWeight call | .dispatchAsFallible _ call =>
        privacyViolationAt remaining call
      | .ifElse main fallback =>
        (privacyViolationAt remaining main).or (privacyViolationAt remaining fallback)
    | .proxy (.proxy _ call) | .proxy (.proxyAnnounced _ _ call) => privacyViolationAt remaining call
    | .proxy .other => none
    | .sudoPallet (.sudoCall call) | .sudoPallet (.sudoUncheckedWeight call) | .sudoPallet (.sudoAs _ call) =>
      privacyViolationAt remaining call
    | .sudoPallet .other => none
    | .multisig (.asMultiThreshold1 _ call) | .multisig (.asMulti _ _ call) =>
      privacyViolationAt remaining call
    | .multisig .other => none
    | .scheduler (.schedule call) | .scheduler (.scheduleNamed call) | .scheduler (.scheduleAfter call)
    | .scheduler (.scheduleNamedAfter call) => privacyViolationAt remaining call
    | .scheduler .other => none
    | .preimage (.notePreimage bytes) =>
      encodedBytesPrivacyViolation env (privacyViolationAt remaining) remaining bytes
    | .preimage .other => none
    | .mevShield (.submitEncrypted ciphertext) =>
      match Shield.parseValidSubmitEncryptedCiphertext env.parse ciphertext with
      | none => some failedShieldedTxParsing
      | some shieldedTx =>
        if Shield.isShieldedUsingCurrentKey env.twox128 env.keys shieldedTx.keyHash then none
        else some invalidShieldedTxPubKeyHash
    | .mevShield (.storeEncrypted _) => some shieldStoreEncryptedDisabled
    | .mevShield _ => none
    -- the calls of the other pallets, those of the crowdloan pallet among them
    | _ => none

def privacyViolation (call : RuntimeCall A Q) : Option CustomTransactionError :=
  privacyViolationAt env maxCallScanDepth call
end CheckQubitumShielding
open CheckQubitumShielding

/-! ## What the scanner follows -/

/-- `call'` is an argument that `call` dispatches or schedules, or can be decoded from the bytes it notes, at
    a depth the scanners decode at. -/
def Follows (decoder : DepthDecoder (RuntimeCall A Q)) (call call' : RuntimeCall A Q) : Prop :=
  call.Batches call' ∨ call.Reroutes call' ∨ call.Schedules call' ∨
    ∃ limit ≤ maxPreimageDecodeProbeDepth, call.Notes decoder limit call'

/-- `call'` occurs in `call`: as an argument of a call of any pallet or in the bytes of a preimage, over any
    number of levels. -/
def Occurs (decoder : DepthDecoder (RuntimeCall A Q)) : RuntimeCall A Q → RuntimeCall A Q → Prop :=
  ReflTransGen fun call call' => Follows decoder call call' ∨ call.Pledges call'

variable {env : ScanEnv A Q V}
variable {remaining : Nat} {call call' : RuntimeCall A Q}

/-- **One level down.** What the scanner follows from an accepted call it accepts with one level less. -/
theorem privacyViolationAt_step (h : privacyViolationAt env (remaining + 1) call = none)
    (hfollows : Follows env.decoder call call') : privacyViolationAt env remaining call' = none := by
  rcases hfollows with hbatches | hreroutes | hschedules | ⟨limit, hle, hnotes⟩
  · cases hbatches with
    | batch hmem | batchAll hmem | forceBatch hmem => exact List.findSome?_eq_none_iff.mp h call' hmem
    | main => exact (Option.or_eq_none_iff.mp h).1
    | fallback => exact (Option.or_eq_none_iff.mp h).2
  · cases hreroutes <;> exact h
  · cases hschedules <;> exact h
  · obtain ⟨hfinds⟩ := hnotes
    exact (DepthDecoder.scanEncoded_finds h nofun hfinds hle).2

def gateScanner (env : ScanEnv A Q V) : Scanner (RuntimeCall A Q) where
  accepts remaining call := privacyViolationAt env remaining call = none
  follows := Follows env.decoder
  not_accepts_zero _ := nofun
  accepts_step := privacyViolationAt_step

/-- **When the gate is sound.** In a call the gate accepts no private call occurs, exactly when none occurs
    in a call that a followed crowdloan pledges. -/
theorem gate_sound_iff {call : RuntimeCall A Q} (h : privacyViolation env call = none) :
    (∀ call', Occurs env.decoder call call' → ¬ call'.isPrivate) ↔
      ∀ loan pledge call', ReflTransGen (Follows env.decoder) call loan → loan.Pledges pledge →
        Occurs env.decoder pledge call' → ¬ call'.isPrivate := by
  constructor
  · intro hsound loan pledge call' hpath hpledge hoccurs
    have hloan : Occurs env.decoder call loan := ReflTransGen.mono (fun _ _ => Or.inl) _ _ hpath
    exact hsound call' ((hloan.tail (.inr hpledge)).trans hoccurs)
  · intro hpledged call' hoccurs
    -- the path to `call'` is followed to its end, or leaves the scanner at a crowdloan
    rcases split_at_first hoccurs with hpath | ⟨loan, pledge, hpath, hpledge, hrest⟩
    · obtain ⟨remaining, haccepted⟩ := (gateScanner env).reach h hpath
      intro hprivate
      cases call' with
      | qubitum _ => exact nomatch haccepted
      | mevShield inner =>
        cases inner with
        | storeEncrypted _ => exact nomatch haccepted
        | _ => exact nomatch hprivate
      | _ => exact nomatch hprivate
    · exact hpledged loan pledge call' hpath hpledge hrest

namespace Sample

/-- A fragment of the call encoding: the Qubitum pallet, a crowdloan for a call, a call of no interest. -/
def decodeCall : Nat → Bytes → Option (RuntimeCall Unit Unit × Bytes)
  | 0, _ => none
  | _ + 1, 31 :: rest => some (.qubitum (), rest)
  | limit + 1, 27 :: rest =>
    (decodeCall limit rest).map fun (call, rest) => (.crowdloan (.create (some call)), rest)
  | _ + 1, 0 :: rest => some (.other, rest)
  | _ + 1, _ => none

theorem decodeCall_succ (limit : Nat) (input : Bytes) {out : RuntimeCall Unit Unit × Bytes}
    (h : decodeCall limit input = some out) : decodeCall (limit + 1) input = some out := by
  fun_induction decodeCall limit input generalizing out with
  | case1 => exact nomatch h
  | case2 => exact h
  | case3 limit rest ih =>
    obtain ⟨inner, hinner, hout⟩ := Option.map_eq_some_iff.mp h
    rw [decodeCall, ih hinner, Option.map_some, hout]
  | case4 => exact h
  | case5 => exact nomatch h

def decoder : DepthDecoder (RuntimeCall Unit Unit) where
  decode := decodeCall
  mono := by
    intro limit limit' input out hle h
    induction hle with
    | refl => exact h
    | step _ ih => exact decodeCall_succ _ input ih

def scanEnv : ScanEnv Unit Unit (Fin 3) where
  decoder := decoder
  twox128 := Shield.Sample.digest
  parse := Shield.Sample.parse
  keys := Shield.Sample.start fun _ => Shield.Sample.key 1

/-- A crowdloan that is to dispatch a Qubitum call. -/
def loan : RuntimeCall Unit Unit := .crowdloan (.create (some (.qubitum ())))
end Sample

/-- The gate accepts a crowdloan that carries a Qubitum call in the clear. -/
theorem gate_misses_crowdloan :
    privacyViolation Sample.scanEnv Sample.loan = none ∧
      Occurs Sample.decoder Sample.loan (.qubitum ()) ∧
      (RuntimeCall.qubitum () : RuntimeCall Unit Unit).isPrivate = true :=
  ⟨rfl, .single (.inr .create), rfl⟩

/-- A crowdloan for a harmless call passes, and nothing private occurs in it. -/
theorem gate_sound_harmless :
    privacyViolation Sample.scanEnv (.crowdloan (.create (some .other))) = none ∧
      ∀ call', Occurs Sample.decoder (.crowdloan (.create (some .other))) call' → ¬ call'.isPrivate := by
  have haccepted : privacyViolation Sample.scanEnv (.crowdloan (.create (some .other))) = none := rfl
  refine ⟨haccepted, (gate_sound_iff haccepted).mpr ?_⟩
  intro loan pledge call' hpath hpledge hoccurs
  rcases hpath.cases_head with rfl | ⟨_, hfollows, _⟩
  · cases hpledge
    rcases hoccurs.cases_head with rfl | ⟨_, hstep, _⟩
    · exact nofun
    · rcases hstep with (hstep | hstep | hstep | ⟨_, _, hstep⟩) | hstep <;> cases hstep
  · rcases hfollows with hstep | hstep | hstep | ⟨_, _, hstep⟩ <;> cases hstep
end Qubitum
