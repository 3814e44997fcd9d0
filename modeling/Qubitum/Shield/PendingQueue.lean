import Qubitum.Lib.NumberedQueue
import Qubitum.Pallet.Types

/-!
# `Shield.PendingQueue` — the stored calls of the shield pallet, first in, first out

`store_encrypted` puts a call under `NextPendingExtrinsicIndex`; `process_pending_extrinsics` walks the indexes from
`NextPendingExtrinsicIndex - count` on. An entry is removed when it has expired, cannot be decoded, is filtered, is too
heavy on its own or is dispatched, and the walk stops at the first one that does not fit into the block any more.

The walk finds the oldest entry only because the indexes in use have no holes, and it keeps it that way because it
never passes an entry by. In every reachable state the map stands for a queue (`Stands`, over `NumberedQueue.Holds`):
what was stored is what was removed, in that order, followed by what is pending.
-/

namespace Qubitum

namespace ShieldQueue
open Outcome Checked NumberedQueue Scale

variable {A Call W : Type}

/-! ## Weights -/

structure Weight where
  refTime : UInt64
  proofSize : UInt64
  deriving DecidableEq

def Weight.saturatingAdd (a b : Weight) : Weight :=
  ⟨saturatingAdd64 a.refTime b.refTime, saturatingAdd64 a.proofSize b.proofSize⟩

def Weight.anyGt (a b : Weight) : Bool := b.refTime < a.refTime || b.proofSize < a.proofSize

structure RuntimeDbWeight where
  read : UInt64
  write : UInt64

def RuntimeDbWeight.reads (db : RuntimeDbWeight) (r : Nat) : Weight := ⟨saturatedInto64 (db.read.toNat * r), 0⟩

def RuntimeDbWeight.writes (db : RuntimeDbWeight) (w : Nat) : Weight := ⟨saturatedInto64 (db.write.toNat * w), 0⟩

def RuntimeDbWeight.readsWrites (db : RuntimeDbWeight) (r w : Nat) : Weight := (db.reads r).saturatingAdd (db.writes w)

/-! ## Storage -/

structure PendingExtrinsic (A : Type) where
  who : A
  encryptedCall : Bytes
  submittedAt : Nat
  deriving DecidableEq

inductive Error where
  | badOrigin
  | tooManyPendingExtrinsics
  | weightExceedsAbsoluteMax
  | recursiveShieldCall
  deriving DecidableEq

inductive DispatchError where
  | shield (e : Error)
  | other
  deriving DecidableEq

inductive Event where
  | extrinsicStored (index : UInt32)
  | extrinsicDecodeFailed (index : UInt32)
  | extrinsicDispatchFailed (index : UInt32) (error : DispatchError)
  | extrinsicDispatched (index : UInt32)
  | extrinsicExpired (index : UInt32)
  | extrinsicPostponed (index : UInt32)
  | maxPendingExtrinsicsNumberSet (value : UInt32)
  | onInitializeWeightSet (value : UInt64)
  | extrinsicLifetimeSet (value : UInt32)
  | maxExtrinsicWeightSet (value : UInt64)
  | extrinsicWeightExceeded (index : UInt32)
  deriving DecidableEq

structure State (A W : Type) where
  pendingExtrinsics : Slots UInt32 (PendingExtrinsic A)
  nextPendingExtrinsicIndex : UInt32
  maxPendingExtrinsicsLimit : UInt32
  extrinsicLifetime : UInt32
  onInitializeWeight : UInt64
  maxExtrinsicWeight : UInt64
  blockNumber : Nat
  events : List Event
  /-- the storage of the other pallets -/
  rest : W

/-- `PendingExtrinsics::count()`; the counter of the map is a `u32` -/
def State.count (s : State A W) : UInt32 := UInt32.ofNat s.pendingExtrinsics.keys.length

def State.deposit (s : State A W) (e : Event) : State A W := { s with events := s.events ++ [e] }

structure Config (A Call W : Type) where
  dbWeight : RuntimeDbWeight
  /-- `ExtrinsicDecryptor::decrypt` -/
  decrypt : Bytes → Option Call
  /-- the call is itself `submit_encrypted` or `store_encrypted` -/
  isRecursiveShieldCall : Call → Bool
  /-- `QueueCallFilter::contains` -/
  queueCallFilter : Call → Bool
  /-- `get_dispatch_info().call_weight` -/
  callWeight : Call → Weight
  /-- `QueueOrigin::origin_for` -/
  originFor : A → Call → Origin A
  /-- dispatch in the whole runtime; on success `actual_weight`, if the call reports one -/
  dispatch : Call → Origin A → State A W → State A W × Except DispatchError (Option Weight)

def maxOnInitializeWeight : UInt64 := 2000000000000

/-! ## The dispatchables -/

section Dispatchables
variable (s : State A W) (origin : Origin A)

def storeEncrypted (encryptedCall : Bytes) : Except Error (State A W) :=
  match origin with
  | .signed who => do
    ensure (s.count < s.maxPendingExtrinsicsLimit) .tooManyPendingExtrinsics
    let index := s.nextPendingExtrinsicIndex
    let pending := { who, encryptedCall, submittedAt := s.blockNumber }
    pure (State.deposit { s with
      pendingExtrinsics := s.pendingExtrinsics.insert index pending
      nextPendingExtrinsicIndex := saturatingAdd32 index 1 } (.extrinsicStored index))
  | _ => .error .badOrigin

/-- `ensure_root` in front of a setter. -/
def asRoot (set : Except Error (State A W)) : Except Error (State A W) :=
  match origin with
  | .root => set
  | _ => .error .badOrigin

def setMaxPendingExtrinsicsNumber (value : UInt32) : Except Error (State A W) :=
  asRoot origin (pure (State.deposit { s with maxPendingExtrinsicsLimit := value }
    (.maxPendingExtrinsicsNumberSet value)))

def setOnInitializeWeight (value : UInt64) : Except Error (State A W) :=
  asRoot origin do
    ensure (value ≤ maxOnInitializeWeight) .weightExceedsAbsoluteMax
    pure (State.deposit { s with onInitializeWeight := value } (.onInitializeWeightSet value))

def setStoredExtrinsicLifetime (value : UInt32) : Except Error (State A W) :=
  asRoot origin (pure (State.deposit { s with extrinsicLifetime := value } (.extrinsicLifetimeSet value)))

def setMaxExtrinsicWeight (value : UInt64) : Except Error (State A W) :=
  asRoot origin do
    ensure (value ≤ maxOnInitializeWeight) .weightExceedsAbsoluteMax
    pure (State.deposit { s with maxExtrinsicWeight := value } (.maxExtrinsicWeightSet value))
end Dispatchables

/-! ## `process_pending_extrinsics` -/

/-- What became of an entry. -/
inductive Disposal where
  | expired
  | decodeFailed
  | filtered
  | weightExceeded
  | dispatched (result : Except DispatchError (Option Weight))

/-- An entry that has been removed. -/
structure Removal (A : Type) where
  index : UInt32
  pending : PendingExtrinsic A
  disposal : Disposal

/-- The state of the loop, with a record of the entries it has removed. -/
structure Processing (A W : Type) where
  s : State A W
  weight : Weight
  removed : List (Removal A)

section Process
variable (cfg : Config A Call W)

/-- `PendingExtrinsics::remove(index)` and the weight for it. -/
def Processing.remove (p : Processing A W) (index : UInt32) (pending : PendingExtrinsic A) (disposal : Disposal) :
    Processing A W where
  s := { p.s with pendingExtrinsics := p.s.pendingExtrinsics.erase index }
  weight := p.weight.saturatingAdd (cfg.dbWeight.readsWrites 1 2)
  removed := p.removed ++ [⟨index, pending, disposal⟩]

def Processing.deposit (p : Processing A W) (e : Event) : Processing A W := { p with s := p.s.deposit e }

/-- The weight and the event of a dispatch. -/
def Processing.dispatched (p : Processing A W) (index : UInt32) (pending : PendingExtrinsic A) (call : Call) :
    State A W × Except DispatchError (Option Weight) → Processing A W
  | (s, result) =>
    let p := { p.remove cfg index pending (.dispatched result) with s }
    match result with
    | .ok actualWeight =>
      { p with weight := p.weight.saturatingAdd (actualWeight.getD (cfg.callWeight call)) }.deposit
        (.extrinsicDispatched index)
    | .error e =>
      { p with weight := p.weight.saturatingAdd (cfg.callWeight call) }.deposit (.extrinsicDispatchFailed index e)

/-- The entry is out of storage when its call is dispatched. -/
def Processing.dispatch (p : Processing A W) (index : UInt32) (pending : PendingExtrinsic A) (call : Call) :
    Processing A W :=
  let origin := cfg.originFor pending.who call
  p.dispatched cfg index pending call
    (cfg.dispatch call origin { p.s with pendingExtrinsics := p.s.pendingExtrinsics.erase index })

/-- One turn of the loop. The second component is `false` when the loop is left with `break`. -/
def processIndex (currentBlock : Nat) (p : Processing A W) (index : UInt32) : Processing A W × Bool :=
  match p.s.pendingExtrinsics.lookup index with
  | none => ({ p with weight := p.weight.saturatingAdd (cfg.dbWeight.reads 1) }, true)
  | some pending =>
    let age := currentBlock - pending.submittedAt
    if p.s.extrinsicLifetime.toNat < age then
      ((p.remove cfg index pending .expired).deposit (.extrinsicExpired index), true)
    else
      match cfg.decrypt pending.encryptedCall with
      | none => ((p.remove cfg index pending .decodeFailed).deposit (.extrinsicDecodeFailed index), true)
      | some call =>
        if cfg.isRecursiveShieldCall call || !cfg.queueCallFilter call then
          ((p.remove cfg index pending .filtered).deposit
            (.extrinsicDispatchFailed index (.shield .recursiveShieldCall)), true)
        else
          let dispatchWeight := (cfg.dbWeight.writes 2).saturatingAdd (cfg.callWeight call)
          if (cfg.callWeight call).anyGt ⟨p.s.maxExtrinsicWeight, 0⟩ then
            ((p.remove cfg index pending .weightExceeded).deposit (.extrinsicWeightExceeded index), true)
          else if (p.weight.saturatingAdd dispatchWeight).anyGt ⟨p.s.onInitializeWeight, 0⟩ then
            (p.deposit (.extrinsicPostponed index), false)
          else (p.dispatch cfg index pending call, true)

def processIndexes (currentBlock : Nat) : List UInt32 → Processing A W → Processing A W
  | [], p => p
  | index :: indexes, p =>
    let (p, more) := processIndex cfg currentBlock p index
    if more then processIndexes currentBlock indexes p else p

/-- `start_index..next_index` -/
def indexesFrom (start next : UInt32) : List UInt32 :=
  (List.range' start.toNat (next.toNat - start.toNat)).map UInt32.ofNat

def processPendingExtrinsics (s : State A W) : Processing A W :=
  let p : Processing A W := { s, weight := cfg.dbWeight.reads 2, removed := [] }
  if s.count = 0 then p
  else
    let startIndex := if s.count ≤ s.nextPendingExtrinsicIndex then s.nextPendingExtrinsicIndex - s.count else 0
    processIndexes cfg s.blockNumber (indexesFrom startIndex s.nextPendingExtrinsicIndex) p
end Process

/-! ## Runs -/

inductive Input (A W : Type) where
  | storeEncrypted (origin : Origin A) (encryptedCall : Bytes)
  /-- `process_pending_extrinsics`, which `on_initialize` calls -/
  | process
  | nextBlock
  | setMaxPendingExtrinsicsNumber (origin : Origin A) (value : UInt32)
  | setOnInitializeWeight (origin : Origin A) (value : UInt64)
  | setStoredExtrinsicLifetime (origin : Origin A) (value : UInt32)
  | setMaxExtrinsicWeight (origin : Origin A) (value : UInt64)
  /-- the other pallets change their own storage -/
  | other (rest : W)

/-- A state with what has been stored and removed on the way to it, in order. -/
structure History (A W : Type) where
  s : State A W
  stored : List (PendingExtrinsic A)
  removed : List (Removal A)

/-- A setter, which changes nothing when it fails. -/
def History.set (h : History A W) (result : Except Error (State A W)) : History A W :=
  match result with
  | .ok s => { h with s }
  | .error _ => h

def step (cfg : Config A Call W) (h : History A W) : Input A W → History A W
  | .storeEncrypted origin encryptedCall =>
    match origin, storeEncrypted h.s origin encryptedCall with
    | .signed who, .ok s => { h with s, stored := h.stored ++ [⟨who, encryptedCall, h.s.blockNumber⟩] }
    | _, _ => h
  | .process =>
    let p := processPendingExtrinsics cfg h.s
    { h with s := p.s, removed := h.removed ++ p.removed }
  | .nextBlock => { h with s := { h.s with blockNumber := h.s.blockNumber + 1 } }
  | .setMaxPendingExtrinsicsNumber origin value => h.set (setMaxPendingExtrinsicsNumber h.s origin value)
  | .setOnInitializeWeight origin value => h.set (setOnInitializeWeight h.s origin value)
  | .setStoredExtrinsicLifetime origin value => h.set (setStoredExtrinsicLifetime h.s origin value)
  | .setMaxExtrinsicWeight origin value => h.set (setMaxExtrinsicWeight h.s origin value)
  | .other rest => { h with s := { h.s with rest } }

/-- The run from a state in which nothing has been stored yet. -/
def run (cfg : Config A Call W) (s : State A W) (inputs : List (Input A W)) : History A W :=
  inputs.foldl (step cfg) { s, stored := [], removed := [] }

/-- The queue and the block number stay as they are. -/
structure State.KeepsQueue (s s' : State A W) : Prop where
  pending : s'.pendingExtrinsics = s.pendingExtrinsics
  next : s'.nextPendingExtrinsicIndex = s.nextPendingExtrinsicIndex
  block : s'.blockNumber = s.blockNumber

/-- What the filter lets through leaves the queue alone when it is dispatched. -/
def Config.Isolated (cfg : Config A Call W) : Prop :=
  ∀ call who (s : State A W), cfg.isRecursiveShieldCall call = false → cfg.queueCallFilter call = true →
    s.KeepsQueue (cfg.dispatch call (cfg.originFor who call) s).1

/-- The queue as it is before the first call is stored. -/
structure State.Empty (s : State A W) : Prop where
  pending : s.pendingExtrinsics = ∅
  next : s.nextPendingExtrinsicIndex = 0

/-! ## The map as a queue -/

/-- What was stored is what was removed, in order and once each, followed by what is pending. -/
structure History.Stands (h : History A W) : Prop where
  queue : ∃ xs, h.stored = h.removed.map (·.pending) ++ xs ∧
    Holds UInt32.toNat h.s.pendingExtrinsics h.removed.length xs
  next : h.s.nextPendingExtrinsicIndex.toNat = h.stored.length
  indexes : h.removed.map (·.index.toNat) = List.range h.removed.length
  sorted : h.stored.Pairwise fun a b => a.submittedAt ≤ b.submittedAt
  past : ∀ e ∈ h.stored, e.submittedAt ≤ h.s.blockNumber

theorem toNat_saturatingAdd32_one {n : UInt32} (h : n.toNat + 1 < 2 ^ 32) :
    (saturatingAdd32 n 1).toNat = n.toNat + 1 := by
  unfold saturatingAdd32
  split
  · rw [UInt32.toNat_add]
    exact Nat.mod_eq_of_lt h
  · rename_i hfull
    exact absurd h hfull

theorem toNat_injective32 : Function.Injective UInt32.toNat := fun _ _ h => UInt32.toNat_inj.mp h

theorem State.Empty.stands {s : State A W} (h : s.Empty) :
    ({ s, stored := [], removed := [] } : History A W).Stands where
  queue := by
    refine ⟨[], rfl, ?_⟩
    rw [h.pending]
    exact holds_empty ..
  next := by
    rw [h.next]
    rfl
  indexes := rfl
  sorted := .nil
  past e he := by cases he

/-- The walk starts at the oldest entry. -/
theorem History.Stands.count {h : History A W} (hs : h.Stands) :
    h.s.count.toNat + h.removed.length = h.stored.length := by
  obtain ⟨xs, hstored, hholds⟩ := hs.queue
  have hlength : h.removed.length + xs.length = h.stored.length := by
    rw [hstored, List.length_append, List.length_map]
  have hfits := h.s.nextPendingExtrinsicIndex.toNat_lt
  rw [State.count, hholds.size, UInt32.toNat_ofNat_of_lt' (by have := hs.next; simp only [UInt32.size]; omega)]
  omega

/-! ## One entry -/

section Walk
variable {cfg : Config A Call W} {currentBlock : Nat} {p : Processing A W} {index : UInt32}
  {pending : PendingExtrinsic A}

/-- Why an entry is dropped. -/
inductive Dropped (cfg : Config A Call W) (currentBlock : Nat) (s : State A W) (pending : PendingExtrinsic A) :
    Disposal → Prop
  | expired (h : s.extrinsicLifetime.toNat < currentBlock - pending.submittedAt) :
      Dropped cfg currentBlock s pending .expired
  | decodeFailed (h : cfg.decrypt pending.encryptedCall = none) : Dropped cfg currentBlock s pending .decodeFailed
  | filtered (call : Call) (hcall : cfg.decrypt pending.encryptedCall = some call)
      (h : cfg.isRecursiveShieldCall call = true ∨ cfg.queueCallFilter call = false) :
      Dropped cfg currentBlock s pending .filtered
  | weightExceeded (call : Call) (hcall : cfg.decrypt pending.encryptedCall = some call)
      (h : s.maxExtrinsicWeight < (cfg.callWeight call).refTime ∨ 0 < (cfg.callWeight call).proofSize) :
      Dropped cfg currentBlock s pending .weightExceeded

/-- What one turn of the loop can do. -/
inductive Turn (cfg : Config A Call W) (currentBlock : Nat) (p : Processing A W) (index : UInt32) :
    Processing A W × Bool → Prop
  | hole (h : p.s.pendingExtrinsics.lookup index = none) :
      Turn cfg currentBlock p index ({ p with weight := p.weight.saturatingAdd (cfg.dbWeight.reads 1) }, true)
  | dropped (pending : PendingExtrinsic A) (disposal : Disposal) (e : Event)
      (h : p.s.pendingExtrinsics.lookup index = some pending) (hwhy : Dropped cfg currentBlock p.s pending disposal) :
      Turn cfg currentBlock p index ((p.remove cfg index pending disposal).deposit e, true)
  | postponed (pending : PendingExtrinsic A) (h : p.s.pendingExtrinsics.lookup index = some pending)
      (hage : currentBlock - pending.submittedAt ≤ p.s.extrinsicLifetime.toNat) :
      Turn cfg currentBlock p index (p.deposit (.extrinsicPostponed index), false)
  | dispatched (pending : PendingExtrinsic A) (call : Call) (h : p.s.pendingExtrinsics.lookup index = some pending)
      (hrec : cfg.isRecursiveShieldCall call = false) (hfilter : cfg.queueCallFilter call = true)
      (hfits : (p.weight.saturatingAdd ((cfg.dbWeight.writes 2).saturatingAdd (cfg.callWeight call))).anyGt
        ⟨p.s.onInitializeWeight, 0⟩ = false)
      (hcall : cfg.decrypt pending.encryptedCall = some call) (hsize : (cfg.callWeight call).proofSize = 0) :
      Turn cfg currentBlock p index (p.dispatch cfg index pending call, true)

theorem processIndex_turn (cfg : Config A Call W) (currentBlock : Nat) (p : Processing A W) (index : UInt32) :
    Turn cfg currentBlock p index (processIndex cfg currentBlock p index) := by
  unfold processIndex
  split
  · exact .hole ‹_›
  · rename_i pending hpending
    dsimp only
    split
    · exact .dropped _ _ _ hpending (.expired ‹_›)
    · rename_i hage
      split
      · exact .dropped _ _ _ hpending (.decodeFailed ‹_›)
      · rename_i call hcall
        split
        · rename_i hfiltered
          rw [Bool.or_eq_true, Bool.not_eq_true'] at hfiltered
          exact .dropped _ _ _ hpending (.filtered call hcall hfiltered)
        · rename_i haccepted
          simp only [Bool.or_eq_true, Bool.not_eq_true', not_or, Bool.not_eq_true, Bool.not_eq_false] at haccepted
          split
          · rename_i hheavy
            rw [Weight.anyGt, Bool.or_eq_true, decide_eq_true_eq, decide_eq_true_eq] at hheavy
            exact .dropped _ _ _ hpending (.weightExceeded call hcall hheavy)
          · rename_i hlight
            simp only [Weight.anyGt, Bool.or_eq_true, decide_eq_true_eq, not_or, UInt64.not_lt] at hlight
            split
            · exact .postponed _ hpending (Nat.le_of_not_lt hage)
            · exact .dispatched _ call hpending haccepted.1 haccepted.2 (Bool.eq_false_iff.mpr ‹_›) hcall
                (UInt64.le_antisymm hlight.2 (UInt64.zero_le))

/-- An entry that is visited is removed, or the walk ends there and leaves the queue as it is. -/
inductive Visited (currentBlock : Nat) (p : Processing A W) (index : UInt32) (pending : PendingExtrinsic A) :
    Processing A W × Bool → Prop
  | removed (p' : Processing A W) (disposal : Disposal)
      (hqueue : p'.s.pendingExtrinsics = p.s.pendingExtrinsics.erase index)
      (hnext : p'.s.nextPendingExtrinsicIndex = p.s.nextPendingExtrinsicIndex)
      (hblock : p'.s.blockNumber = p.s.blockNumber)
      (hremoved : p'.removed = p.removed ++ [⟨index, pending, disposal⟩]) :
      Visited currentBlock p index pending (p', true)
  | postponed (hage : currentBlock - pending.submittedAt ≤ p.s.extrinsicLifetime.toNat) :
      Visited currentBlock p index pending (p.deposit (.extrinsicPostponed index), false)

variable {call : Call}

theorem processIndex_visited (currentBlock : Nat) (hiso : cfg.Isolated)
    (hpending : p.s.pendingExtrinsics.lookup index = some pending) :
    Visited currentBlock p index pending (processIndex cfg currentBlock p index) := by
  have hturn := processIndex_turn cfg currentBlock p index
  generalize processIndex cfg currentBlock p index = visit at hturn
  cases hturn with
  | hole h => cases h.symm.trans hpending
  | dropped _ disposal _ h =>
    cases h.symm.trans hpending
    exact .removed _ disposal rfl rfl rfl rfl
  | postponed _ h hage =>
    cases h.symm.trans hpending
    exact .postponed hage
  | dispatched _ call h hrec hfilter =>
    cases h.symm.trans hpending
    have hkept := hiso call pending.who
      { p.s with pendingExtrinsics := p.s.pendingExtrinsics.erase index } hrec hfilter
    dsimp only [Processing.dispatch]
    generalize cfg.dispatch call _ _ = outcome at hkept ⊢
    obtain ⟨s, actualWeight | e⟩ := outcome
    · exact .removed _ _ hkept.pending hkept.next hkept.block rfl
    · exact .removed _ _ hkept.pending hkept.next hkept.block rfl

/-! ## The walk -/

/-- The walk removes entries from the front: those it has removed and those it has left are the queue. -/
structure Walked (currentBlock : Nat) (p : Processing A W) (start : Nat) (xs : List (PendingExtrinsic A))
    (p' : Processing A W) (gone : List (Removal A)) (rest : List (PendingExtrinsic A)) : Prop where
  split : xs = gone.map (·.pending) ++ rest
  removed : p'.removed = p.removed ++ gone
  holds : Holds UInt32.toNat p'.s.pendingExtrinsics (start + gone.length) rest
  next : p'.s.nextPendingExtrinsicIndex = p.s.nextPendingExtrinsicIndex
  block : p'.s.blockNumber = p.s.blockNumber
  indexes : gone.map (·.index.toNat) = List.range' start gone.length
  /-- the walk does not stop at an entry that has expired -/
  stopped : ∀ x ∈ rest.head?, currentBlock - x.submittedAt ≤ p'.s.extrinsicLifetime.toNat

theorem processIndexes_walked (currentBlock : Nat) (hiso : cfg.Isolated) {xs : List (PendingExtrinsic A)} {start : Nat}
    (hholds : Holds UInt32.toNat p.s.pendingExtrinsics start xs) (hfits : start + xs.length ≤ 2 ^ 32) :
    ∃ gone rest, Walked currentBlock p start xs
      (processIndexes cfg currentBlock ((List.range' start xs.length).map UInt32.ofNat) p) gone rest := by
  induction xs generalizing start p with
  | nil => exact ⟨[], [], rfl, (List.append_nil _).symm, hholds, rfl, rfl, rfl, fun _ hx => by cases hx⟩
  | cons x xs ih =>
    simp only [List.length_cons] at hfits
    have hstart : (UInt32.ofNat start).toNat = start := UInt32.toNat_ofNat_of_lt' (by simp only [UInt32.size]; omega)
    have hvisited := processIndex_visited currentBlock hiso (hholds.head hstart)
    rw [List.length_cons, List.range'_succ, List.map_cons]
    unfold processIndexes
    generalize processIndex cfg currentBlock p (UInt32.ofNat start) = visit at hvisited ⊢
    cases hvisited with
    | postponed hage =>
      refine ⟨[], x :: xs, rfl, (List.append_nil _).symm, hholds, rfl, rfl, rfl, ?_⟩
      rintro _ ⟨⟩
      exact hage
    | removed p' disposal hqueue hnext hblock hremoved =>
      have hpop : Holds UInt32.toNat p'.s.pendingExtrinsics (start + 1) xs := by
        rw [hqueue]
        exact hholds.pop toNat_injective32 hstart
      obtain ⟨gone, rest, hwalked⟩ := ih hpop (by omega)
      refine ⟨⟨UInt32.ofNat start, x, disposal⟩ :: gone, rest, ?_, ?_, ?_, ?_, ?_, ?_, hwalked.stopped⟩
      · rw [List.map_cons, List.cons_append, ← hwalked.split]
      · show (processIndexes cfg currentBlock _ p').removed = _
        rw [hwalked.removed, hremoved, List.append_assoc, List.singleton_append]
      · have hlater := hwalked.holds
        rw [List.length_cons, Nat.add_comm gone.length 1, ← Nat.add_assoc]
        exact hlater
      · exact hwalked.next.trans hnext
      · exact hwalked.block.trans hblock
      · rw [List.map_cons, List.length_cons, List.range'_succ, hwalked.indexes, hstart]
end Walk

/-! ## Runs -/

section Runs
variable {cfg : Config A Call W} {h : History A W}

section
variable (hs : h.Stands)
include hs

/-- The index at which the walk starts is the number of entries that are gone. -/
theorem History.Stands.process_walked (hiso : cfg.Isolated) :
    ∃ xs p' gone rest, h.stored = h.removed.map (·.pending) ++ xs ∧
      Walked h.s.blockNumber { s := h.s, weight := cfg.dbWeight.reads 2, removed := [] } h.removed.length xs p' gone
        rest ∧
      step cfg h .process = { h with s := p'.s, removed := h.removed ++ gone } := by
  obtain ⟨xs, hstored, hholds⟩ := hs.queue
  have hcount := hs.count
  have hlength : h.removed.length + xs.length = h.stored.length := by
    rw [hstored, List.length_append, List.length_map]
  have hnext := hs.next
  have hbound := h.s.nextPendingExtrinsicIndex.toNat_lt
  let p : Processing A W := { s := h.s, weight := cfg.dbWeight.reads 2, removed := [] }
  by_cases hzero : h.s.count = 0
  · have hnone : xs = [] := by
      rw [hzero, UInt32.toNat_zero] at hcount
      exact List.eq_nil_of_length_eq_zero (by omega)
    subst hnone
    refine ⟨[], p, [], [], hstored, ⟨rfl, rfl, hholds, rfl, rfl, rfl, fun _ hx => by cases hx⟩, ?_⟩
    simp only [step, processPendingExtrinsics, hzero, if_true, p]
  · have hle : h.s.count ≤ h.s.nextPendingExtrinsicIndex := by
      rw [UInt32.le_iff_toNat_le]
      omega
    have hstart : (h.s.nextPendingExtrinsicIndex - h.s.count).toNat = h.removed.length := by
      rw [UInt32.toNat_sub_of_le _ _ hle]
      omega
    have hwalk : indexesFrom (h.s.nextPendingExtrinsicIndex - h.s.count) h.s.nextPendingExtrinsicIndex =
        (List.range' h.removed.length xs.length).map UInt32.ofNat := by
      rw [indexesFrom, hstart, hnext, ← hlength, Nat.add_sub_cancel_left]
    obtain ⟨gone, rest, hwalked⟩ := processIndexes_walked (p := p) h.s.blockNumber hiso hholds (by omega)
    refine ⟨xs, _, gone, rest, hstored, hwalked, ?_⟩
    have hgone := hwalked.removed
    simp only [List.nil_append, p] at hgone
    simp only [step, processPendingExtrinsics, hzero, if_false, hle, if_true, hwalk, hgone, p]

theorem History.Stands.process (hiso : cfg.Isolated) : (step cfg h .process).Stands := by
  obtain ⟨xs, p', gone, rest, hstored, hwalked, hstep⟩ := hs.process_walked hiso
  rw [hstep]
  refine ⟨⟨rest, ?_, ?_⟩, ?_, ?_, hs.sorted, ?_⟩
  · show h.stored = _
    rw [hstored, hwalked.split, List.map_append, List.append_assoc]
  · show Holds UInt32.toNat _ (h.removed ++ gone).length rest
    rw [List.length_append]
    exact hwalked.holds
  · show p'.s.nextPendingExtrinsicIndex.toNat = _
    rw [hwalked.next]
    exact hs.next
  · show (h.removed ++ gone).map _ = _
    rw [List.map_append, hs.indexes, hwalked.indexes, List.length_append, List.range_eq_range', List.range_eq_range',
      ← List.range'_append]
    simp
  · show ∀ e ∈ h.stored, e.submittedAt ≤ p'.s.blockNumber
    rw [hwalked.block]
    exact hs.past

/-- No entry outlives its time: the walk gets past every entry that has expired, because those behind the one at which
    it stops are not older. -/
theorem History.Stands.process_fresh (hiso : cfg.Isolated) {index : UInt32} {e : PendingExtrinsic A}
    (he : (step cfg h .process).s.pendingExtrinsics.lookup index = some e) :
    h.s.blockNumber - e.submittedAt ≤ (step cfg h .process).s.extrinsicLifetime.toNat := by
  obtain ⟨xs, p', gone, rest, hstored, hwalked, hstep⟩ := hs.process_walked hiso
  rw [hstep] at he ⊢
  have hsorted : rest.Pairwise fun a b => a.submittedAt ≤ b.submittedAt := by
    have hall := hs.sorted
    rw [hstored, hwalked.split] at hall
    exact (List.pairwise_append.mp (List.pairwise_append.mp hall).2.1).2.1
  have hmem : e ∈ rest := by
    have hlookup := hwalked.holds.lookup index
    rw [he] at hlookup
    split at hlookup
    · exact List.mem_of_getElem? hlookup.symm
    · cases hlookup
  show h.s.blockNumber - e.submittedAt ≤ p'.s.extrinsicLifetime.toNat
  match rest, hmem, hsorted, hwalked.stopped with
  | x :: rest, hmem, hsorted, hstopped =>
    have hage := hstopped x rfl
    rcases List.mem_cons.mp hmem with rfl | hbehind
    · exact hage
    · have holder := (List.pairwise_cons.mp hsorted).1 e hbehind
      omega

theorem History.Stands.store (origin : Origin A) (encryptedCall : Bytes)
    (hfits : (step cfg h (.storeEncrypted origin encryptedCall)).stored.length < 2 ^ 32) :
    (step cfg h (.storeEncrypted origin encryptedCall)).Stands := by
  cases origin with
  | root => exact hs
  | none => exact hs
  | shielded who => exact hs
  | signed who =>
    by_cases hroom : h.s.count < h.s.maxPendingExtrinsicsLimit
    · let pending : PendingExtrinsic A := ⟨who, encryptedCall, h.s.blockNumber⟩
      have hstep : step cfg h (.storeEncrypted (.signed who) encryptedCall) = { h with
          s := State.deposit { h.s with
            pendingExtrinsics := h.s.pendingExtrinsics.insert h.s.nextPendingExtrinsicIndex pending
            nextPendingExtrinsicIndex := saturatingAdd32 h.s.nextPendingExtrinsicIndex 1 }
            (.extrinsicStored h.s.nextPendingExtrinsicIndex)
          stored := h.stored ++ [pending] } := by
        simp [step, storeEncrypted, ensure, hroom, bind, Except.bind, pure, Except.pure, pending]
      rw [hstep] at hfits ⊢
      simp only [List.length_append, List.length_singleton] at hfits
      obtain ⟨xs, hstored, hholds⟩ := hs.queue
      have hnext := hs.next
      refine ⟨⟨xs ++ [pending], ?_, ?_⟩, ?_, hs.indexes, ?_, ?_⟩
      · show h.stored ++ [pending] = _
        rw [hstored, List.append_assoc]
      · refine hholds.push toNat_injective32 ?_ pending
        rw [hnext, hstored, List.length_append, List.length_map]
      · show (saturatingAdd32 h.s.nextPendingExtrinsicIndex 1).toNat = (h.stored ++ [pending]).length
        rw [List.length_append, List.length_singleton, ← hnext]
        exact toNat_saturatingAdd32_one (by omega)
      · rw [List.pairwise_append]
        refine ⟨hs.sorted, List.pairwise_singleton _ _, fun a ha b hb => ?_⟩
        rw [List.mem_singleton.mp hb]
        exact hs.past a ha
      · intro e he
        rcases List.mem_append.mp he with hold | hnew
        · exact hs.past e hold
        · rw [List.mem_singleton.mp hnew]
          exact Nat.le_refl _
    · have hstep : step cfg h (.storeEncrypted (.signed who) encryptedCall) = h := by
        simp [step, storeEncrypted, ensure, hroom, bind, Except.bind]
      rw [hstep]
      exact hs

/-- Changes that leave the queue alone, while the block number may grow. -/
theorem History.Stands.congr {s' : State A W} (hqueue : s'.pendingExtrinsics = h.s.pendingExtrinsics)
    (hnext : s'.nextPendingExtrinsicIndex = h.s.nextPendingExtrinsicIndex) (hblock : h.s.blockNumber ≤ s'.blockNumber) :
    ({ h with s := s' } : History A W).Stands where
  queue := by
    obtain ⟨xs, hstored, hholds⟩ := hs.queue
    exact ⟨xs, hstored, hqueue ▸ hholds⟩
  next := by
    show s'.nextPendingExtrinsicIndex.toNat = _
    rw [hnext]
    exact hs.next
  indexes := hs.indexes
  sorted := hs.sorted
  past e he := Nat.le_trans (hs.past e he) hblock

theorem History.Stands.set {result : Except Error (State A W)} (hkeeps : Yields h.s.KeepsQueue result) :
    (h.set result).Stands := by
  match result, hkeeps with
  | .error _, _ => exact hs
  | .ok s', hkeeps =>
    have hkept := yields_ok.mp hkeeps
    exact hs.congr hkept.pending hkept.next (Nat.le_of_eq hkept.block.symm)
end

theorem asRoot_yields {Q : State A W → Prop} {origin : Origin A} {set : Except Error (State A W)}
    (hset : Yields Q set) : Yields Q (asRoot origin set) := by
  cases origin with
  | root => exact hset
  | signed _ | none | shielded _ => exact yields_error

theorem step_stands (hiso : cfg.Isolated) (hs : h.Stands) (input : Input A W)
    (hfits : (step cfg h input).stored.length < 2 ^ 32) : (step cfg h input).Stands := by
  cases input with
  | storeEncrypted origin encryptedCall => exact hs.store origin encryptedCall hfits
  | process => exact hs.process hiso
  | nextBlock => exact hs.congr rfl rfl (Nat.le_succ _)
  | other rest => exact hs.congr rfl rfl (Nat.le_refl _)
  | setMaxPendingExtrinsicsNumber origin value =>
    exact hs.set (asRoot_yields (yields_pure.mpr ⟨rfl, rfl, rfl⟩))
  | setStoredExtrinsicLifetime origin value =>
    exact hs.set (asRoot_yields (yields_pure.mpr ⟨rfl, rfl, rfl⟩))
  | setOnInitializeWeight origin value =>
    refine hs.set (asRoot_yields ?_)
    rw [yields_bind]
    exact .of_forall fun _ => yields_pure.mpr ⟨rfl, rfl, rfl⟩
  | setMaxExtrinsicWeight origin value =>
    refine hs.set (asRoot_yields ?_)
    rw [yields_bind]
    exact .of_forall fun _ => yields_pure.mpr ⟨rfl, rfl, rfl⟩

/-- Nothing is forgotten of what was stored. -/
theorem length_stored_le (cfg : Config A Call W) (h : History A W) (input : Input A W) :
    h.stored.length ≤ (step cfg h input).stored.length := by
  have hset : ∀ result, (h.set result).stored = h.stored := by
    intro result
    cases result <;> rfl
  cases input with
  | storeEncrypted origin encryptedCall =>
    simp only [step]
    split
    · simp
    · exact Nat.le_refl _
  | process | nextBlock | other _ => exact Nat.le_refl _
  | setMaxPendingExtrinsicsNumber _ _ | setStoredExtrinsicLifetime _ _ | setOnInitializeWeight _ _
  | setMaxExtrinsicWeight _ _ =>
    simp only [step, hset]
    exact Nat.le_refl _

theorem run_stands (hiso : cfg.Isolated) {s : State A W} (hs : s.Empty) (inputs : List (Input A W))
    (hfits : (run cfg s inputs).stored.length < 2 ^ 32) : (run cfg s inputs).Stands := by
  induction inputs using List.reverseRecOn with
  | nil => exact hs.stands
  | append_singleton inputs input ih =>
    have hstep : run cfg s (inputs ++ [input]) = step cfg (run cfg s inputs) input := by simp [run]
    rw [hstep] at hfits ⊢
    exact step_stands hiso (ih (Nat.lt_of_le_of_lt (length_stored_le ..) hfits)) input hfits

/-- First in, first out. -/
structure History.FirstInFirstOut (h : History A W) : Prop where
  /-- the indexes in use have no holes -/
  keys : ∀ index, index ∈ h.s.pendingExtrinsics ↔
    h.s.nextPendingExtrinsicIndex.toNat - h.s.count.toNat ≤ index.toNat ∧
      index.toNat < h.s.nextPendingExtrinsicIndex.toNat
  /-- what is pending is what was stored and not yet removed -/
  pending : ∀ index : UInt32, h.s.pendingExtrinsics.lookup index =
    if h.removed.length ≤ index.toNat then h.stored[index.toNat]? else none
  /-- the `k`-th entry that was removed is the `k`-th that was stored -/
  inOrder : ∀ (k : Nat) (r : Removal A), h.removed[k]? = some r → r.index.toNat = k ∧ h.stored[k]? = some r.pending

theorem History.Stands.firstInFirstOut (hs : h.Stands) : h.FirstInFirstOut := by
  obtain ⟨xs, hstored, hholds⟩ := hs.queue
  have hcount := hs.count
  have hnext := hs.next
  have hlength : h.removed.length + xs.length = h.stored.length := by
    rw [hstored, List.length_append, List.length_map]
  refine ⟨fun index => ?_, fun index => ?_, fun k r hr => ⟨?_, ?_⟩⟩
  · rw [hholds.mem_iff]
    omega
  · rw [hholds.lookup index]
    by_cases hle : h.removed.length ≤ index.toNat
    · rw [if_pos hle, if_pos hle, hstored, List.getElem?_append_right (by rw [List.length_map]; exact hle),
        List.length_map]
    · rw [if_neg hle, if_neg hle]
  · have hindex : (h.removed.map (·.index.toNat))[k]? = some r.index.toNat := by rw [List.getElem?_map, hr]; rfl
    rw [hs.indexes, List.getElem?_range (List.getElem?_eq_some_iff.mp hr).1] at hindex
    exact (Option.some.inj hindex).symm
  · have hin := (List.getElem?_eq_some_iff.mp hr).1
    rw [hstored, List.getElem?_append_left (by rw [List.length_map]; exact hin), List.getElem?_map, hr]
    rfl
end Runs

namespace Sample

/-- A payload is its own call, and weighs what its first byte says; an empty one cannot be decoded. -/
def config : Config Nat Bytes Unit where
  dbWeight := ⟨1, 2⟩
  decrypt bytes := if bytes = [] then none else some bytes
  isRecursiveShieldCall _ := false
  queueCallFilter _ := true
  callWeight call := ⟨UInt64.ofNat (call.headD 0).toNat, 0⟩
  originFor who _ := .signed who
  dispatch _ _ s := (s, .ok none)

theorem config_isolated : config.Isolated := fun _ _ _ _ _ => ⟨rfl, rfl, rfl⟩

def genesis : State Nat Unit where
  pendingExtrinsics := ∅
  nextPendingExtrinsicIndex := 0
  maxPendingExtrinsicsLimit := 100
  extrinsicLifetime := 10
  onInitializeWeight := 60
  maxExtrinsicWeight := 50
  blockNumber := 1
  events := []
  rest := ()

/-- The second payload cannot be decoded, and the third does not fit into the block after the first. -/
def inputs : List (Input Nat Unit) :=
  [.storeEncrypted (.signed 7) [30], .storeEncrypted (.signed 8) [], .storeEncrypted (.signed 7) [40], .nextBlock,
    .process]
end Sample
open Sample

/-- The queue loses nothing and reorders nothing, in every run that starts with nothing stored. What has been removed
    is what was stored first, each entry once and in the order of submission, so an entry behind a postponed one is
    never dispatched before it; and an entry that has expired is gone with the next `process_pending_extrinsics`. -/
theorem queue_lossless_fifo (cfg : Config A Call W) (hiso : cfg.Isolated) (s : State A W) (hs : s.Empty)
    (inputs : List (Input A W)) (hfits : (run cfg s inputs).stored.length < 2 ^ 32 - 1) :
    (run cfg s inputs).FirstInFirstOut ∧
      ∀ index e, (step cfg (run cfg s inputs) .process).s.pendingExtrinsics.lookup index = some e →
        (run cfg s inputs).s.blockNumber - e.submittedAt ≤
          (step cfg (run cfg s inputs) .process).s.extrinsicLifetime.toNat := by
  have hstands := run_stands hiso hs inputs (by omega)
  exact ⟨hstands.firstInFirstOut, fun _ _ he => hstands.process_fresh hiso he⟩

theorem queue_lossless_fifo_mixed :
    (run config genesis inputs).removed.map (·.index) = [0, 1] ∧
      (run config genesis inputs).s.pendingExtrinsics.keys = [2] ∧
      (run config genesis inputs).FirstInFirstOut := by
  refine ⟨by decide +kernel, by decide +kernel, ?_⟩
  exact (queue_lossless_fifo config config_isolated genesis ⟨rfl, rfl⟩ inputs (by decide +kernel)).1
end ShieldQueue
end Qubitum
