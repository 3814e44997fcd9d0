import Mathlib.Data.List.AList
import Qubitum.Lib.Checked
import Qubitum.Lib.Outcome

/-!
# `Drand.Pulses` — the beacon rounds that are kept on chain

Offchain workers submit the pulses of the randomness beacon one by one, as unsigned transactions. `validate_unsigned`
and `write_pulse` compare the round with `LastStoredRound` and ask only that it is **larger**. Old pulses are pruned
from the other end, so that what is kept lies between `OldestStoredRound` and `LastStoredRound`.

## Contents
- **Model.** `validateUnsigned`, `writePulse`, `pruneOldPulses`, `setBeaconConfig`.
- **Pruning.** `pruneFrom_pruned`: only rounds below the new `OldestStoredRound` are forgotten, and what is left
  still spans `MAX_KEPT_PULSES` rounds.
- **Runs.** `run_missing`: a round that is passed over is never stored later. The rounds between the two ends are all
  there throughout a run exactly if every pulse that is stored is the successor of the last one.
-/

namespace Qubitum
open Outcome Checked

namespace Drand
variable {C : Type}

/-! ## Types -/

abbrev RoundNumber := UInt64

structure Pulse where
  round : RoundNumber
  randomness : List UInt8
  signature : List UInt8
  deriving DecidableEq

def maxKeptPulses : UInt64 := 216000

def maxRemovedPulses : Nat := 100

inductive Event where
  | beaconConfigChanged
  | newPulse (rounds : List RoundNumber)
  deriving DecidableEq

inductive Error where
  /-- `ensure_none` or `ensure_root` fails -/
  | badOrigin
  | invalidRoundNumber
  | pulseVerificationError
  deriving DecidableEq

inductive InvalidTransaction where
  | badSigner
  | badProof
  | future
  | call
  | stale
  deriving DecidableEq

/-- What the transaction pool reads of an accepted transaction, apart from its tags. -/
structure ValidTransaction where
  priority : UInt64
  longevity : UInt64
  propagate : Bool

inductive Origin where
  | root
  | signed
  | none
  deriving DecidableEq

abbrev Pulses := AList fun _ : RoundNumber => Pulse

structure State (C : Type) where
  beaconConfig : C
  pulses : Pulses
  lastStoredRound : RoundNumber
  oldestStoredRound : RoundNumber
  nextUnsignedAt : Nat
  blockNumber : Nat
  events : List Event

structure PulsesPayload where
  blockNumber : Nat
  pulses : List Pulse

structure Transaction (S : Type) where
  pulsesPayload : PulsesPayload
  signature : Option S

variable {S : Type} {oldest last : RoundNumber}

structure Config (C S : Type) where
  /-- `T::Verifier::verify`; the error is a text that `write_pulse` drops -/
  verify : C → Pulse → Except String Bool
  /-- `SignedPayload::verify` -/
  verifySignature : PulsesPayload → S → Bool
  unsignedPriority : UInt64

/-! ## `validate_unsigned` -/

/-- `validate_transaction_parameters` with the rounds of a `write_pulse`. -/
def validateTransactionParameters (cfg : Config C S) (s : State C) (blockNumber : Nat) (rounds : List RoundNumber) :
    Except InvalidTransaction ValidTransaction := do
  ensure (blockNumber ≤ s.blockNumber) .future
  match rounds with
  | [r] =>
    ensure (s.nextUnsignedAt ≤ s.blockNumber) .stale
    ensure (s.lastStoredRound < r) .stale
    let priority := saturatingAdd64 cfg.unsignedPriority (saturatingSub64 (UInt64.ofNat (2 ^ 64 - 1)) r)
    pure { priority, longevity := 3, propagate := false }
  | _ => .error .call

/-- The `write_pulse` branch; `ensure_root` refuses an unsigned `set_beacon_config` when it is dispatched. -/
def validateUnsigned (cfg : Config C S) (s : State C) (tx : Transaction S) :
    Except InvalidTransaction ValidTransaction := do
  let signature ← okOr tx.signature .badSigner
  let rounds := tx.pulsesPayload.pulses.map (·.round)
  ensure (cfg.verifySignature tx.pulsesPayload signature) .badProof
  validateTransactionParameters cfg s tx.pulsesPayload.blockNumber rounds

/-! ## `write_pulse` -/

/-- The `while` loop of `prune_old_pulses`; the counter goes from `MAX_REMOVED_PULSES` down. -/
def pruneFrom (lastStoredRound : RoundNumber) : Nat → RoundNumber → Pulses → RoundNumber × Pulses
  | 0, oldest, pulses => (oldest, pulses)
  | left + 1, oldest, pulses =>
    if maxKeptPulses < saturatingAdd64 (saturatingSub64 lastStoredRound oldest) 1 then
      pruneFrom lastStoredRound left (saturatingAdd64 oldest 1) (pulses.erase oldest)
    else (oldest, pulses)

def pruneOldPulses (s : State C) (lastStoredRound : RoundNumber) : State C :=
  if s.oldestStoredRound = 0 then s
  else
    let kept := pruneFrom lastStoredRound maxRemovedPulses s.oldestStoredRound s.pulses
    { s with
      oldestStoredRound := kept.1
      pulses := kept.2 }

/-- The variables of the loop in `write_pulse`. -/
structure Writing where
  pulses : Pulses
  lastStoredRound : RoundNumber
  newRounds : List RoundNumber
  firstNewRound : Option RoundNumber

def writeOne (cfg : Config C S) (config : C) (isFirstStorage : Bool) (v : Writing) (pulse : Pulse) :
    Except Error Writing := do
  let isVerified ← (cfg.verify config pulse).mapError fun _ => Error.pulseVerificationError
  if isVerified then
    ensure (v.lastStoredRound < pulse.round) .invalidRoundNumber
    pure {
      pulses := v.pulses.insert pulse.round pulse
      lastStoredRound := pulse.round
      newRounds := v.newRounds ++ [pulse.round]
      firstNewRound := if isFirstStorage && v.firstNewRound.isNone then some pulse.round else v.firstNewRound }
  else pure v

/-- What follows the loop. -/
def finishWriting (s : State C) (v : Writing) : State C :=
  let s := { s with
    pulses := v.pulses
    lastStoredRound := v.lastStoredRound
    oldestStoredRound := v.firstNewRound.getD s.oldestStoredRound }
  let s := pruneOldPulses s v.lastStoredRound
  { s with
    nextUnsignedAt := s.blockNumber
    events := if v.newRounds.isEmpty then s.events else s.events ++ [.newPulse v.newRounds] }

def writePulse (cfg : Config C S) (s : State C) (origin : Origin) (pulsesPayload : PulsesPayload) :
    Except Error (State C) := do
  ensure (origin = .none) .badOrigin
  let isFirstStorage := decide (s.lastStoredRound = 0 ∧ s.oldestStoredRound = 0)
  let v ← pulsesPayload.pulses.foldlM (writeOne cfg s.beaconConfig isFirstStorage)
    { pulses := s.pulses, lastStoredRound := s.lastStoredRound, newRounds := [], firstNewRound := none }
  pure (finishWriting s v)

def setBeaconConfig (s : State C) (origin : Origin) (config : C) : Except Error (State C) := do
  ensure (origin = .root) .badOrigin
  pure { s with
    beaconConfig := config
    nextUnsignedAt := s.blockNumber + 1
    events := s.events ++ [.beaconConfigChanged] }

/-! ## Runs

A transaction is applied only if it validates in the state it is applied to, and a failed call changes nothing. The
offchain worker's own write to `LastStoredRound` never reaches the chain.
-/

inductive Input (C S : Type) where
  | nextBlock
  | write (tx : Transaction S)
  | configure (origin : Origin) (config : C)

/-- A call whose changes are dropped when it fails. -/
def committed (s : State C) : Except Error (State C) → State C
  | .ok s' => s'
  | .error _ => s

def step (cfg : Config C S) (s : State C) : Input C S → State C
  | .nextBlock => { s with blockNumber := s.blockNumber + 1 }
  | .write tx =>
    match validateUnsigned cfg s tx with
    | .ok _ => committed s (writePulse cfg s .none tx.pulsesPayload)
    | .error _ => s
  | .configure origin config => committed s (setBeaconConfig s origin config)

def run (cfg : Config C S) (s : State C) (inputs : List (Input C S)) : State C := inputs.foldl (step cfg) s

/-- The pulse storage is empty. -/
structure State.Initial (s : State C) : Prop where
  pulses : s.pulses = ∅
  last : s.lastStoredRound = 0
  oldest : s.oldestStoredRound = 0

/-- Every round between the two ends has its pulse, from the first pulse on. -/
def State.Complete (s : State C) : Prop :=
  s.lastStoredRound ≠ 0 → ∀ r, s.oldestStoredRound ≤ r → r ≤ s.lastStoredRound → (s.pulses.lookup r).isSome

/-- The transaction is accepted, and its pulse is one that the verifier accepts. -/
structure Stores (cfg : Config C S) (s : State C) (tx : Transaction S) (pulse : Pulse) : Prop where
  accepted : ∃ v, validateUnsigned cfg s tx = .ok v
  one : tx.pulsesPayload.pulses = [pulse]
  verified : cfg.verify s.beaconConfig pulse = .ok true

/-- Apart from the first one, the pulse that is stored is that of the next round. -/
def Consecutive (cfg : Config C S) (s : State C) (tx : Transaction S) : Prop :=
  ∀ pulse, Stores cfg s tx pulse → s.lastStoredRound ≠ 0 → pulse.round.toNat = s.lastStoredRound.toNat + 1

/-! ## Pruning -/

/-- What is left of the pulses when those from `oldest` up to `oldest'` are removed. -/
structure Pruned (lastStoredRound oldest : RoundNumber) (pulses : Pulses) (oldest' : RoundNumber) (pulses' : Pulses) :
    Prop where
  forward : oldest ≤ oldest'
  bounded : oldest' = oldest ∨ oldest'.toNat + maxKeptPulses.toNat ≤ lastStoredRound.toNat + 1
  kept : ∀ r, oldest' ≤ r → pulses'.lookup r = pulses.lookup r
  sub : ∀ r, (pulses'.lookup r).isSome → (pulses.lookup r).isSome

/-- Nothing is pruned. -/
theorem Pruned.refl (last oldest : RoundNumber) (pulses : Pulses) : Pruned last oldest pulses oldest pulses :=
  ⟨UInt64.le_refl _, .inl rfl, fun _ _ => rfl, fun _ h => h⟩

theorem two_le_maxKeptPulses : 2 ≤ maxKeptPulses.toNat := by decide

/-- The loop goes on only while more than `MAX_KEPT_PULSES` rounds lie between the ends. -/
theorem lt_of_kept_lt (h : maxKeptPulses < saturatingAdd64 (saturatingSub64 last oldest) 1) :
    oldest.toNat + maxKeptPulses.toNat ≤ last.toNat := by
  unfold saturatingAdd64 saturatingSub64 at h
  by_cases hle : oldest ≤ last
  · rw [if_pos hle] at h
    have hsub := UInt64.toNat_sub_of_le _ _ hle
    have hle' := UInt64.le_iff_toNat_le.mp hle
    split at h
    · rename_i hfit
      rw [UInt64.lt_iff_toNat_lt, UInt64.toNat_add, Nat.mod_eq_of_lt hfit, hsub] at h
      rw [UInt64.toNat_one] at h
      omega
    · rename_i hfit
      rw [hsub, UInt64.toNat_one] at hfit
      have hkept := maxKeptPulses.toNat_lt
      omega
  · rw [if_neg hle] at h
    exact absurd h (by decide)

theorem pruneFrom_pruned (last : RoundNumber) (left : Nat) (oldest : RoundNumber) (pulses : Pulses) :
    Pruned last oldest pulses (pruneFrom last left oldest pulses).1 (pruneFrom last left oldest pulses).2 := by
  induction left generalizing oldest pulses with
  | zero => exact .refl ..
  | succ left ih =>
    unfold pruneFrom
    split
    · rename_i hmore
      have hroom := lt_of_kept_lt hmore
      have hlast := last.toNat_lt
      have hkept := two_le_maxKeptPulses
      have hnext : (saturatingAdd64 oldest 1).toNat = oldest.toNat + 1 := by
        rw [toNat_saturatingAdd64, UInt64.toNat_one]
        omega
      obtain ⟨hforward, hbounded, hleft, hsub⟩ := ih (saturatingAdd64 oldest 1) (pulses.erase oldest)
      rw [UInt64.le_iff_toNat_le] at hforward
      refine ⟨?_, ?_, ?_, ?_⟩
      · rw [UInt64.le_iff_toNat_le]
        omega
      · rcases hbounded with heq | hle
        · rw [heq, hnext]
          exact .inr (by omega)
        · exact .inr hle
      · intro r hr
        rw [UInt64.le_iff_toNat_le] at hr
        -- the removed round lies below every round that is left
        have hne : r ≠ oldest := by
          rintro rfl
          omega
        rw [hleft r (UInt64.le_iff_toNat_le.mpr hr), AList.lookup_erase_ne hne]
      · intro r hr
        have hthere := hsub r hr
        by_cases heq : r = oldest
        · rw [heq, AList.lookup_erase] at hthere
          cases hthere
        · rwa [AList.lookup_erase_ne heq] at hthere
    · exact .refl ..

@[simp] theorem pruneOldPulses_last (s : State C) (last : RoundNumber) :
    (pruneOldPulses s last).lastStoredRound = s.lastStoredRound := by
  unfold pruneOldPulses
  split <;> rfl

/-! ## One call -/

variable {cfg : Config C S} {s s' : State C} {pulse : Pulse} {r : RoundNumber} {input : Input C S}
variable {tx : Transaction S} {payload : PulsesPayload} {pulses : Pulses}

theorem validateUnsigned_ok {v : ValidTransaction} (h : validateUnsigned cfg s tx = .ok v) :
    ∃ pulse, tx.pulsesPayload.pulses = [pulse] ∧ s.lastStoredRound < pulse.round := by
  obtain ⟨signature, -, h⟩ := okOr_ok h
  obtain ⟨-, h⟩ := ensure_ok h
  obtain ⟨-, h⟩ := ensure_ok h
  match hpulses : tx.pulsesPayload.pulses, h with
  | [pulse], h =>
    obtain ⟨-, h⟩ := ensure_ok h
    exact ⟨pulse, rfl, (ensure_ok h).1⟩
  | [], h => cases h
  | _ :: _ :: _, h => cases h

/-- `OldestStoredRound` when a pulse is stored, before the oldest pulses are removed. -/
def State.oldestWith (s : State C) (pulse : Pulse) : RoundNumber :=
  if s.lastStoredRound = 0 ∧ s.oldestStoredRound = 0 then pulse.round else s.oldestStoredRound

/-- What a step does to the pulses: it stores one and prunes, or it stores none and prunes. -/
inductive Changes (cfg : Config C S) (s : State C) : Input C S → State C → Prop
  | stored {tx : Transaction S} {s' : State C} (pulse : Pulse) (hs : Stores cfg s tx pulse)
      (hround : s.lastStoredRound < pulse.round) (hlast : s'.lastStoredRound = pulse.round)
      (hpruned : Pruned pulse.round (s.oldestWith pulse) (s.pulses.insert pulse.round pulse)
        s'.oldestStoredRound s'.pulses) : Changes cfg s (.write tx) s'
  | pruned {input : Input C S} {s' : State C} (hnone : ∀ tx pulse, input = .write tx → ¬ Stores cfg s tx pulse)
      (hlast : s'.lastStoredRound = s.lastStoredRound)
      (hpruned : Pruned s.lastStoredRound s.oldestStoredRound s.pulses s'.oldestStoredRound s'.pulses) :
      Changes cfg s input s'

@[simp] theorem finishWriting_last (s : State C) (v : Writing) :
    (finishWriting s v).lastStoredRound = v.lastStoredRound := pruneOldPulses_last ..

theorem finishWriting_pruned (s : State C) (v : Writing) :
    Pruned v.lastStoredRound (v.firstNewRound.getD s.oldestStoredRound) v.pulses
      (finishWriting s v).oldestStoredRound (finishWriting s v).pulses := by
  dsimp only [finishWriting, pruneOldPulses]
  split
  · exact .refl ..
  · exact pruneFrom_pruned ..

theorem writePulse_skips (hone : payload.pulses = [pulse]) (hverify : cfg.verify s.beaconConfig pulse ≠ .ok true) :
    let s' := committed s (writePulse cfg s .none payload)
    s'.lastStoredRound = s.lastStoredRound ∧
      Pruned s.lastStoredRound s.oldestStoredRound s.pulses s'.oldestStoredRound s'.pulses := by
  match h : cfg.verify s.beaconConfig pulse with
  | .error e =>
    have hfail : writePulse cfg s .none payload = .error .pulseVerificationError := by
      simp only [writePulse, hone, List.foldlM_cons, writeOne, h]
      rfl
    rw [hfail]
    exact ⟨rfl, .refl ..⟩
  | .ok false =>
    let v : Writing := ⟨s.pulses, s.lastStoredRound, [], none⟩
    have hok : writePulse cfg s .none payload = .ok (finishWriting s v) := by
      simp only [writePulse, hone, List.foldlM_cons, writeOne, h]
      rfl
    rw [hok]
    exact ⟨finishWriting_last s v, finishWriting_pruned s v⟩
  | .ok true => exact absurd h hverify

theorem writePulse_stores (hone : payload.pulses = [pulse])
    (hverify : cfg.verify s.beaconConfig pulse = .ok true) (hround : s.lastStoredRound < pulse.round) :
    let s' := committed s (writePulse cfg s .none payload)
    s'.lastStoredRound = pulse.round ∧
      Pruned pulse.round (s.oldestWith pulse) (s.pulses.insert pulse.round pulse) s'.oldestStoredRound s'.pulses := by
  let first := if s.lastStoredRound = 0 ∧ s.oldestStoredRound = 0 then some pulse.round else none
  have hfirst : first.getD s.oldestStoredRound = s.oldestWith pulse := by
    simp only [first, State.oldestWith]
    split <;> rfl
  let v : Writing := ⟨s.pulses.insert pulse.round pulse, pulse.round, [pulse.round], first⟩
  have hok : writePulse cfg s .none payload = .ok (finishWriting s v) := by
    simp [writePulse, hone, writeOne, hverify, ensure, hround, Except.mapError, bind, Except.bind, pure, Except.pure,
      v, first]
  rw [hok, ← hfirst]
  exact ⟨finishWriting_last s v, finishWriting_pruned s v⟩

theorem step_changes (cfg : Config C S) (s : State C) (input : Input C S) : Changes cfg s input (step cfg s input) := by
  cases input with
  | nextBlock => exact .pruned (fun _ _ h => (by cases h)) rfl (.refl ..)
  | write tx =>
    simp only [step]
    split
    · rename_i v hvalid
      obtain ⟨pulse, hone, hround⟩ := validateUnsigned_ok hvalid
      by_cases hverify : cfg.verify s.beaconConfig pulse = .ok true
      · obtain ⟨hlast, hpruned⟩ := writePulse_stores hone hverify hround
        exact .stored pulse ⟨⟨v, hvalid⟩, hone, hverify⟩ hround hlast hpruned
      · obtain ⟨hlast, hpruned⟩ := writePulse_skips hone hverify
        refine .pruned ?_ hlast hpruned
        rintro _ pulse' ⟨⟩ ⟨-, hone', hverified⟩
        rw [hone] at hone'
        cases hone'
        exact hverify hverified
    · rename_i e hvalid
      refine .pruned ?_ rfl (.refl ..)
      rintro _ pulse ⟨⟩ ⟨⟨v, hv⟩, -, -⟩
      rw [hvalid] at hv
      cases hv
  | configure origin config =>
    have hsame : (step cfg s (.configure origin config)).lastStoredRound = s.lastStoredRound ∧
        (step cfg s (.configure origin config)).oldestStoredRound = s.oldestStoredRound ∧
        (step cfg s (.configure origin config)).pulses = s.pulses := by
      cases origin <;> exact ⟨rfl, rfl, rfl⟩
    obtain ⟨hlast, holdest, hpulses⟩ := hsame
    refine .pruned (fun _ _ h => (by cases h)) hlast ?_
    rw [holdest, hpulses]
    exact .refl ..

/-! ## Invariant -/

/-- Nothing is stored above `LastStoredRound`, and the two ends are set together. -/
structure State.WellFormed (s : State C) : Prop where
  top : ∀ r, (s.pulses.lookup r).isSome → r ≤ s.lastStoredRound
  started : s.lastStoredRound = 0 → s.oldestStoredRound = 0
  ends : s.oldestStoredRound ≤ s.lastStoredRound

theorem State.Initial.wellFormed (h : s.Initial) : s.WellFormed where
  top r hr := by
    rw [h.pulses] at hr
    cases hr
  started _ := h.oldest
  ends := by
    rw [h.oldest, h.last]
    exact UInt64.le_refl _

theorem isSome_lookup_insert :
    ((pulses.insert pulse.round pulse).lookup r).isSome ↔ r = pulse.round ∨ (pulses.lookup r).isSome := by
  by_cases h : r = pulse.round
  · subst h
    simp
  · simp [AList.lookup_insert_ne h, h]

theorem State.WellFormed.oldestWith_le (h : s.WellFormed) (hround : s.lastStoredRound < pulse.round) :
    s.oldestWith pulse ≤ pulse.round := by
  unfold State.oldestWith
  split
  · exact UInt64.le_refl _
  · exact UInt64.le_of_lt (UInt64.lt_of_le_of_lt h.ends hround)

theorem Pruned.wellFormed
    (h : Pruned last oldest pulses s'.oldestStoredRound s'.pulses) (hlast : s'.lastStoredRound = last)
    (htop : ∀ r, (pulses.lookup r).isSome → r ≤ last) (hstarted : last = 0 → oldest = 0) (hends : oldest ≤ last) :
    s'.WellFormed := by
  subst hlast
  have hkept := two_le_maxKeptPulses
  refine ⟨fun r hr => htop r (h.sub r hr), fun hzero => ?_, ?_⟩
  · rcases h.bounded with heq | hbound
    · rw [heq]
      exact hstarted hzero
    · rw [hzero, UInt64.toNat_zero] at hbound
      omega
  · rw [UInt64.le_iff_toNat_le] at hends ⊢
    rcases h.bounded with heq | hbound
    · rwa [heq]
    · omega

theorem Changes.wellFormed (h : Changes cfg s input s') (hs : s.WellFormed) : s'.WellFormed := by
  cases h with
  | stored pulse _ hround hlast hpruned =>
    refine hpruned.wellFormed hlast (fun r hr => ?_) (fun hzero => ?_) (hs.oldestWith_le hround)
    · rcases isSome_lookup_insert.mp hr with heq | hold
      · exact UInt64.le_of_eq heq
      · exact UInt64.le_of_lt (UInt64.lt_of_le_of_lt (hs.top r hold) hround)
    · rw [hzero] at hround
      exact absurd hround UInt64.not_lt_zero
  | pruned _ hlast hpruned => exact hpruned.wellFormed hlast hs.top hs.started hs.ends

theorem run_wellFormed (cfg : Config C S) (h : s.WellFormed) (inputs : List (Input C S)) :
    (run cfg s inputs).WellFormed := by
  induction inputs generalizing s with
  | nil => exact h
  | cons input inputs ih => exact ih ((step_changes cfg s input).wellFormed h)

/-! ## Skipped rounds -/

theorem Changes.missing (h : Changes cfg s input s') (hr : r ≤ s.lastStoredRound)
    (hnone : s.pulses.lookup r = none) : r ≤ s'.lastStoredRound ∧ s'.pulses.lookup r = none := by
  cases h with
  | stored pulse _ hround hlast hpruned =>
    have hlt := UInt64.lt_of_le_of_lt hr hround
    refine ⟨hlast ▸ UInt64.le_of_lt hlt, ?_⟩
    by_contra hsome
    rcases isSome_lookup_insert.mp (hpruned.sub r (Option.isSome_iff_ne_none.mpr hsome)) with heq | hold
    · exact absurd (heq ▸ hlt) (UInt64.lt_irrefl _)
    · rw [hnone] at hold
      cases hold
  | pruned _ hlast hpruned =>
    refine ⟨hlast ▸ hr, ?_⟩
    by_contra hsome
    have hold := hpruned.sub r (Option.isSome_iff_ne_none.mpr hsome)
    rw [hnone] at hold
    cases hold

/-- A round that is passed over is never stored: whatever is submitted later, its pulse stays missing. -/
theorem run_missing (cfg : Config C S) (hr : r ≤ s.lastStoredRound) (hnone : s.pulses.lookup r = none)
    (inputs : List (Input C S)) : (run cfg s inputs).pulses.lookup r = none := by
  induction inputs generalizing s with
  | nil => exact hnone
  | cons input inputs ih =>
    obtain ⟨hr', hnone'⟩ := (step_changes cfg s input).missing hr hnone
    exact ih hr' hnone'

theorem Changes.complete (h : Changes cfg s input s') (hs : s.WellFormed) (hcomplete : s.Complete)
    (hnext : ∀ tx, input = .write tx → Consecutive cfg s tx) : s'.Complete := by
  intro hstarted r hlow hhigh
  cases h with
  | @stored tx _ pulse hstores hround hlast hpruned =>
    rw [hpruned.kept r hlow, isSome_lookup_insert]
    rw [hlast] at hhigh
    have hfrom := UInt64.le_trans hpruned.forward hlow
    by_cases hzero : s.lastStoredRound = 0
    · -- the first pulse is both ends
      rw [State.oldestWith, if_pos ⟨hzero, hs.started hzero⟩] at hfrom
      exact .inl (UInt64.le_antisymm hhigh hfrom)
    · rw [State.oldestWith, if_neg (fun hc => hzero hc.1)] at hfrom
      have hsucc := hnext tx rfl pulse hstores hzero
      by_cases heq : r = pulse.round
      · exact .inl heq
      · refine .inr (hcomplete hzero r hfrom ?_)
        have hne : r.toNat ≠ pulse.round.toNat := fun hc => heq (UInt64.toNat_inj.mp hc)
        rw [UInt64.le_iff_toNat_le] at hhigh ⊢
        omega
  | pruned _ hlast hpruned =>
    rw [hlast] at hstarted hhigh
    rw [hpruned.kept r hlow]
    exact hcomplete hstarted r (UInt64.le_trans hpruned.forward hlow) hhigh

/-- The round before the new one lies between the ends and above everything that was stored. -/
theorem Changes.consecutive (h : Changes cfg s (.write tx) s') (hs : s.WellFormed) (hcomplete : s'.Complete) :
    Consecutive cfg s tx := by
  intro pulse hstores hstarted
  cases h with
  | pruned hnone _ _ => exact absurd hstores (hnone tx pulse rfl)
  | stored pulse' hstores' hround hlast hpruned =>
    obtain rfl : pulse' = pulse := by
      have hone := hstores'.one.symm.trans hstores.one
      simpa using hone
    have hkept := two_le_maxKeptPulses
    have hround' := UInt64.lt_iff_toNat_lt.mp hround
    by_contra hskip
    have hone : (1 : UInt64) ≤ pulse'.round := by
      rw [UInt64.le_iff_toNat_le, UInt64.toNat_one]
      omega
    have hbefore := UInt64.toNat_sub_of_le _ _ hone
    rw [UInt64.toNat_one] at hbefore
    have hlow : s'.oldestStoredRound ≤ pulse'.round - 1 := by
      have hends := UInt64.le_iff_toNat_le.mp hs.ends
      rw [UInt64.le_iff_toNat_le, hbefore]
      rcases hpruned.bounded with heq | hbound
      · rw [heq, State.oldestWith, if_neg (fun hc => hstarted hc.1)]
        omega
      · omega
    have hhigh : pulse'.round - 1 ≤ s'.lastStoredRound := by
      rw [hlast, UInt64.le_iff_toNat_le, hbefore]
      omega
    have hnonzero : s'.lastStoredRound ≠ 0 := by
      intro hzero
      rw [hlast] at hzero
      rw [hzero, UInt64.toNat_zero] at hround'
      omega
    have hthere := hcomplete hnonzero _ hlow hhigh
    rw [hpruned.kept _ hlow, isSome_lookup_insert] at hthere
    rcases hthere with heq | hold
    · have := congrArg UInt64.toNat heq
      omega
    · have := UInt64.le_iff_toNat_le.mp (hs.top _ hold)
      omega

/-! ## Whole runs -/

theorem run_concat (cfg : Config C S) (s : State C) (inputs : List (Input C S)) (input : Input C S) :
    run cfg s (inputs ++ [input]) = step cfg (run cfg s inputs) input := by
  simp [run]

theorem run_complete (h : s.Initial) (inputs : List (Input C S))
    (hnext : ∀ before tx, before ++ [.write tx] <+: inputs → Consecutive cfg (run cfg s before) tx) :
    (run cfg s inputs).Complete := by
  induction inputs using List.reverseRecOn with
  | nil => exact fun hstarted => absurd h.last hstarted
  | append_singleton inputs input ih =>
    rw [run_concat]
    refine (step_changes cfg _ input).complete (run_wellFormed cfg h.wellFormed inputs) (ih ?_) ?_
    · exact fun before tx hinitial => hnext before tx (hinitial.trans (List.prefix_append ..))
    · rintro tx rfl
      exact hnext inputs tx List.prefix_rfl

namespace Sample

def config : Config Unit Unit where
  verify _ _ := .ok true
  verifySignature _ _ := true
  unsignedPriority := UInt64.ofNat (2 ^ 20)

def genesis : State Unit where
  beaconConfig := ()
  pulses := ∅
  lastStoredRound := 0
  oldestStoredRound := 0
  nextUnsignedAt := 0
  blockNumber := 1
  events := []

def pulseOf (round : RoundNumber) : Input Unit Unit :=
  .write { pulsesPayload := { blockNumber := 1, pulses := [⟨round, [], []⟩] }, signature := some () }
end Sample
open Sample

/-- Throughout a run from empty storage every round between the two ends has its pulse, exactly if each pulse that is
    stored, apart from the first, is that of the round after `LastStoredRound`. The code asks for a larger one only. -/
theorem rounds_complete_iff (cfg : Config C S) (s : State C) (h : s.Initial) (inputs : List (Input C S)) :
    (∀ before, before <+: inputs → (run cfg s before).Complete) ↔
      ∀ before tx, before ++ [.write tx] <+: inputs → Consecutive cfg (run cfg s before) tx := by
  constructor
  · intro hcomplete before tx hinitial
    have hafter := hcomplete _ hinitial
    rw [run_concat] at hafter
    exact (step_changes cfg _ (.write tx)).consecutive (run_wellFormed cfg h.wellFormed before) hafter
  · intro hnext before hinitial
    exact run_complete h before fun earlier tx hearlier => hnext earlier tx (hearlier.trans hinitial)

theorem rounds_complete_iff_successors :
    (run config genesis [pulseOf 10, pulseOf 11]).lastStoredRound = 11 ∧
    ∀ before, before <+: [pulseOf 10, pulseOf 11] → (run config genesis before).Complete := by
  refine ⟨by decide +kernel, (rounds_complete_iff config genesis ⟨rfl, rfl, rfl⟩ _).mpr ?_⟩
  intro before tx hinitial pulse hstores hstarted
  match before, hinitial with
  | [], _ => exact absurd rfl hstarted
  | [input], hinitial =>
    obtain ⟨rfl, htx⟩ : input = pulseOf 10 ∧ Input.write tx = pulseOf 11 := by simpa using hinitial
    cases htx
    cases hstores.one
    decide +kernel
  | _ :: _ :: _, hinitial => exact absurd hinitial.length_le (by simp)

/-- Rounds 10 and 12 are accepted one after the other; round 11 is then missing for good. -/
theorem round_skipped :
    (run config genesis [pulseOf 10, pulseOf 12]).oldestStoredRound = 10 ∧
    (run config genesis [pulseOf 10, pulseOf 12]).lastStoredRound = 12 ∧
    ¬ (run config genesis [pulseOf 10, pulseOf 12]).Complete ∧
    ∀ later, (run config genesis ([pulseOf 10, pulseOf 12] ++ later)).pulses.lookup 11 = none := by
  have hmissing : (run config genesis [pulseOf 10, pulseOf 12]).pulses.lookup 11 =
      none := by decide +kernel
  refine ⟨by decide +kernel, by decide +kernel, fun hcomplete => ?_, fun later => ?_⟩
  · have hthere := hcomplete (by decide +kernel) 11 (by decide +kernel) (by decide +kernel)
    cases hthere
  · have hlater := run_missing config (by decide +kernel) hmissing later
    simpa only [run, List.foldl_append] using hlater
end Drand
end Qubitum
