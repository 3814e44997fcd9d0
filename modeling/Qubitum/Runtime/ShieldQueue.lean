import Qubitum.Runtime.Dispatch
import Qubitum.Runtime.Privacy

/-!
# `Runtime.ShieldQueue` — which calls the shield queue takes, and with which origin it dispatches them

A decrypted payload of the shield queue is dispatched as `Shielded(who)` when the privacy gate would have
refused it, and as `Signed(who)` otherwise. Three scanners decide beforehand whether the queue takes it: it
must not feed the queue again, must not leave a private call behind for later, and must not pass a private
call to a wrapper that changes the origin.

* `dispatched_shielded`: every Qubitum call dispatched in the course of an accepted call has the origin
  `Shielded(who)`;
* `dispatched_no_submission`: nothing is submitted to the shield pallet meanwhile;
* **`queue_routed_iff`**: what is left behind holds a Qubitum call only where the scanners do not look, in the
  call of a crowdloan or deeper in a preimage than they decode.
-/

namespace Qubitum
open Relation Scale Scan CheckQubitumShielding

variable {A Q V : Type}

/-! ## The filter -/

def maxShieldQueueCallScanDepth : Nat := 8

def maxShieldQueuePreimageDecodeProbeDepth : Nat := 32

section Filter
variable (env : ScanEnv A Q V)

def encodedRuntimeCallContainsRecursiveShieldQueueCall
    (containsRecursiveShieldQueueCall : RuntimeCall A Q → Bool) (remainingDepth : Nat) (bytes : Bytes) :
    Bool :=
  env.decoder.scanEncoded maxShieldQueuePreimageDecodeProbeDepth true false
    containsRecursiveShieldQueueCall remainingDepth bytes

/-- A decoded call is scanned with the whole depth of the privacy gate again. -/
def encodedRuntimeCallContainsPrivateQueueCall (remainingDepth : Nat) (bytes : Bytes) : Bool :=
  env.decoder.scanEncoded maxShieldQueuePreimageDecodeProbeDepth true false
    (fun call => (privacyViolation env call).isSome) remainingDepth bytes

/-- `contains_persistent_private_queue_call`, by the levels that remain below the scan depth: a private call
    is scheduled or noted as a preimage. -/
def containsPersistentPrivateQueueCall : Nat → RuntimeCall A Q → Bool
  | 0, _ => true
  | remaining + 1, call =>
    match call with
    | .utility inner =>
      match inner with
      | .batch calls | .batchAll calls | .forceBatch calls =>
        calls.any (containsPersistentPrivateQueueCall remaining)
      | .asDerivative _ call | .dispatchAs _ call | .withWeight call | .dispatchAsFallible _ call =>
        containsPersistentPrivateQueueCall remaining call
      | .ifElse main fallback =>
        containsPersistentPrivateQueueCall remaining main || containsPersistentPrivateQueueCall remaining fallback
    | .proxy (.proxy _ call) | .proxy (.proxyAnnounced _ _ call) =>
      containsPersistentPrivateQueueCall remaining call
    | .sudoPallet (.sudoCall call) | .sudoPallet (.sudoUncheckedWeight call)
    | .sudoPallet (.sudoAs _ call) => containsPersistentPrivateQueueCall remaining call
    | .multisig (.asMultiThreshold1 _ call) | .multisig (.asMulti _ _ call) =>
      containsPersistentPrivateQueueCall remaining call
    | .scheduler (.schedule call) | .scheduler (.scheduleNamed call) | .scheduler (.scheduleAfter call)
    | .scheduler (.scheduleNamedAfter call) => (privacyViolation env call).isSome
    | .preimage (.notePreimage bytes) => encodedRuntimeCallContainsPrivateQueueCall env remaining bytes
    | _ => false

/-- `contains_unroutable_private_queue_call`: a private call is the argument of a wrapper that does not
    dispatch it with the origin of its caller. -/
def containsUnroutablePrivateQueueCall : Nat → RuntimeCall A Q → Bool
  | 0, _ => true
  | remaining + 1, call =>
    match call with
    | .qubitum _ => false
    | .utility inner =>
      match inner with
      | .batch calls | .batchAll calls | .forceBatch calls =>
        calls.any (containsUnroutablePrivateQueueCall remaining)
      | .ifElse main fallback =>
        containsUnroutablePrivateQueueCall remaining main || containsUnroutablePrivateQueueCall remaining fallback
      | .asDerivative _ call | .dispatchAs _ call | .withWeight call | .dispatchAsFallible _ call =>
        (privacyViolation env call).isSome
    | .proxy (.proxy _ call) | .proxy (.proxyAnnounced _ _ call) | .sudoPallet (.sudoCall call)
    | .sudoPallet (.sudoUncheckedWeight call) | .sudoPallet (.sudoAs _ call)
    | .multisig (.asMultiThreshold1 _ call) | .multisig (.asMulti _ _ call) =>
      (privacyViolation env call).isSome
    | .scheduler (.schedule call) | .scheduler (.scheduleNamed call) | .scheduler (.scheduleAfter call)
    | .scheduler (.scheduleNamedAfter call) => (privacyViolation env call).isSome
    | .preimage (.notePreimage bytes) => encodedRuntimeCallContainsPrivateQueueCall env remaining bytes
    | _ => false

/-- `contains_recursive_shield_queue_call`: a submission to the shield pallet. -/
def containsRecursiveShieldQueueCall : Nat → RuntimeCall A Q → Bool
  | 0, _ => true
  | remaining + 1, call =>
    match call with
    | .mevShield (.submitEncrypted _) | .mevShield (.storeEncrypted _) => true
    | .utility inner =>
      match inner with
      | .batch calls | .batchAll calls | .forceBatch calls =>
        calls.any (containsRecursiveShieldQueueCall remaining)
      | .asDerivative _ call | .dispatchAs _ call | .withWeight call | .dispatchAsFallible _ call =>
        containsRecursiveShieldQueueCall remaining call
      | .ifElse main fallback =>
        containsRecursiveShieldQueueCall remaining main || containsRecursiveShieldQueueCall remaining fallback
    | .proxy (.proxy _ call) | .proxy (.proxyAnnounced _ _ call) =>
      containsRecursiveShieldQueueCall remaining call
    | .sudoPallet (.sudoCall call) | .sudoPallet (.sudoUncheckedWeight call)
    | .sudoPallet (.sudoAs _ call) => containsRecursiveShieldQueueCall remaining call
    | .multisig (.asMultiThreshold1 _ call) | .multisig (.asMulti _ _ call) =>
      containsRecursiveShieldQueueCall remaining call
    | .scheduler (.schedule call) | .scheduler (.scheduleNamed call) | .scheduler (.scheduleAfter call)
    | .scheduler (.scheduleNamedAfter call) => containsRecursiveShieldQueueCall remaining call
    | .preimage (.notePreimage bytes) =>
      encodedRuntimeCallContainsRecursiveShieldQueueCall env
        (containsRecursiveShieldQueueCall remaining) remaining bytes
    | _ => false

/-- `ShieldQueueCallFilter` -/
def shieldQueueCallFilter (call : RuntimeCall A Q) : Bool :=
  !containsRecursiveShieldQueueCall env maxShieldQueueCallScanDepth call &&
    !containsPersistentPrivateQueueCall env maxShieldQueueCallScanDepth call &&
    !containsUnroutablePrivateQueueCall env maxShieldQueueCallScanDepth call

/-- `ShieldRuntimeQueueOrigin::origin_for` -/
def originFor (who : A) (call : RuntimeCall A Q) : Origin A :=
  if (privacyViolation env call).isSome then .shielded who else .signed who
end Filter

variable {env : ScanEnv A Q V} {derive : Derivations A Q}
variable {call : RuntimeCall A Q}

theorem follows_of_wraps {decoder : DepthDecoder (RuntimeCall A Q)} {call' : RuntimeCall A Q}
    (h : Wraps call call') : Follows decoder call call' :=
  h.elim .inl fun hreroutes => .inr (.inl hreroutes)

/-! ## One level of each scanner -/

section Step
variable {remaining : Nat} {call call' : RuntimeCall A Q}

/-- A scanner that asks every element of a batch and both branches of a conditional: none is flagged when
    the whole is not. -/
theorem batches_unflagged {whole scan : RuntimeCall A Q → Bool}
    (hbatch : ∀ calls, whole (.utility (.batch calls)) = calls.any scan)
    (hbatchAll : ∀ calls, whole (.utility (.batchAll calls)) = calls.any scan)
    (hforceBatch : ∀ calls, whole (.utility (.forceBatch calls)) = calls.any scan)
    (hifElse : ∀ main fallback, whole (.utility (.ifElse main fallback)) = (scan main || scan fallback))
    (h : whole call = false) (hbatches : call.Batches call') : scan call' = false := by
  cases hbatches with
  | batch hmem =>
    rw [hbatch] at h
    exact Bool.eq_false_iff.mpr (List.any_eq_false.mp h call' hmem)
  | batchAll hmem =>
    rw [hbatchAll] at h
    exact Bool.eq_false_iff.mpr (List.any_eq_false.mp h call' hmem)
  | forceBatch hmem =>
    rw [hforceBatch] at h
    exact Bool.eq_false_iff.mpr (List.any_eq_false.mp h call' hmem)
  | main =>
    rw [hifElse] at h
    exact (Bool.or_eq_false_iff.mp h).1
  | fallback =>
    rw [hifElse] at h
    exact (Bool.or_eq_false_iff.mp h).2

theorem containsRecursive_step (h : containsRecursiveShieldQueueCall env (remaining + 1) call = false)
    (hfollows : Follows env.decoder call call') : containsRecursiveShieldQueueCall env remaining call' = false := by
  rcases hfollows with hbatches | hreroutes | hschedules | ⟨limit, hle, hnotes⟩
  · exact batches_unflagged (fun _ => rfl) (fun _ => rfl) (fun _ => rfl) (fun _ _ => rfl) h hbatches
  · cases hreroutes <;> exact h
  · cases hschedules <;> exact h
  · obtain ⟨hfinds⟩ := hnotes
    exact (DepthDecoder.scanEncoded_finds h nofun hfinds hle).2

theorem containsPersistent_step (h : containsPersistentPrivateQueueCall env (remaining + 1) call = false)
    (hwraps : Wraps call call') : containsPersistentPrivateQueueCall env remaining call' = false := by
  rcases hwraps with hbatches | hreroutes
  · exact batches_unflagged (fun _ => rfl) (fun _ => rfl) (fun _ => rfl) (fun _ _ => rfl) h hbatches
  · cases hreroutes <;> exact h

/-- Where an origin is changed, the privacy gate takes over. -/
theorem privacyViolation_of_rerouted (h : containsUnroutablePrivateQueueCall env (remaining + 1) call = false)
    (hreroutes : call.Reroutes call') : privacyViolation env call' = none := by
  rw [← Option.not_isSome_iff_eq_none, Bool.not_eq_true]
  cases hreroutes <;> exact h
end Step

/-! ## A whole dispatch -/

def recursiveScanner (env : ScanEnv A Q V) : Scanner (RuntimeCall A Q) where
  accepts remaining call := containsRecursiveShieldQueueCall env remaining call = false
  follows := Follows env.decoder
  not_accepts_zero _ := nofun
  accepts_step := containsRecursive_step

def persistentScanner (env : ScanEnv A Q V) : Scanner (RuntimeCall A Q) where
  accepts remaining call := containsPersistentPrivateQueueCall env remaining call = false
  follows := Wraps
  not_accepts_zero _ := nofun
  accepts_step := containsPersistent_step

/-- The verdicts of the three scanners on an accepted call. -/
theorem shieldQueueCallFilter_accepts (h : shieldQueueCallFilter env call = true) :
    containsRecursiveShieldQueueCall env maxShieldQueueCallScanDepth call = false ∧
      containsPersistentPrivateQueueCall env maxShieldQueueCallScanDepth call = false ∧
      containsUnroutablePrivateQueueCall env maxShieldQueueCallScanDepth call = false := by
  rw [shieldQueueCallFilter, Bool.and_eq_true, Bool.and_eq_true, Bool.not_eq_true', Bool.not_eq_true',
    Bool.not_eq_true'] at h
  exact ⟨h.1.1, h.1.2, h.2⟩

section Accepted
variable {call call' : RuntimeCall A Q} {origin origin' : Origin A} {who : A}

/-- Nothing is submitted to the shield pallet in the course of an accepted call. -/
theorem dispatched_no_submission (h : shieldQueueCallFilter env call = true)
    (hdispatched : Dispatched derive (origin, call) (origin', call')) : ¬ call'.isShieldSubmission := by
  obtain ⟨hrecursive, -, -⟩ := shieldQueueCallFilter_accepts h
  have hpath : ReflTransGen (Follows env.decoder) call call' :=
    ReflTransGen.mono (fun _ _ => follows_of_wraps) _ _ (wraps_of_dispatched hdispatched)
  obtain ⟨remaining, haccepted⟩ := (recursiveScanner env).reach hrecursive hpath
  intro hsubmission
  cases call' with
  | mevShield inner =>
    cases inner with
    | submitEncrypted _ | storeEncrypted _ => exact nomatch haccepted
    | _ => exact nomatch hsubmission
  | _ => exact nomatch hsubmission

/-- The invariant of a dispatch: the origin is still the first one and the call is routable, or the call is
    one the privacy gate accepts. -/
def Routed (env : ScanEnv A Q V) (first : Origin A) (now : Origin A × RuntimeCall A Q) : Prop :=
  (now.1 = first ∧ ∃ remaining, containsUnroutablePrivateQueueCall env remaining now.2 = false) ∨
    ∃ remaining, privacyViolationAt env remaining now.2 = none

variable {first : Origin A} {before after : Origin A × RuntimeCall A Q}

theorem routed_step (h : Routed env first before) (hstep : after ∈ dispatches derive before.1 before.2) :
    Routed env first after := by
  rcases h with ⟨horigin, remaining, hroutable⟩ | ⟨remaining, hpublic⟩
  · cases remaining with
    | zero => exact nomatch hroutable
    | succ remaining =>
      rcases dispatches_cases hstep with ⟨hsame, hbatches⟩ | hreroutes
      · refine .inl ⟨hsame.trans horigin, remaining, ?_⟩
        exact batches_unflagged (fun _ => rfl) (fun _ => rfl) (fun _ => rfl) (fun _ _ => rfl) hroutable hbatches
      · exact .inr ⟨_, privacyViolation_of_rerouted hroutable hreroutes⟩
  · cases remaining with
    | zero => exact nomatch hpublic
    | succ remaining =>
      have hwraps : Wraps before.2 after.2 := (dispatches_cases hstep).imp_left And.right
      exact .inr ⟨remaining, privacyViolationAt_step hpublic (follows_of_wraps hwraps)⟩

theorem routed_dispatched (h : Routed env first before) (hdispatched : Dispatched derive before after) :
    Routed env first after := by
  induction hdispatched with
  | refl => exact h
  | tail _ hstep ih => exact routed_step ih hstep

theorem not_isQubitum_of_public {remaining : Nat} (h : privacyViolationAt env remaining call = none) :
    ¬ call.isQubitum := by
  intro hqubitum
  cases call with
  | qubitum _ => cases remaining <;> exact nomatch h
  | _ => exact nomatch hqubitum

variable (env) in
/-- A call with a Qubitum call in its course is dispatched by the queue as `Shielded(who)`. -/
theorem originFor_of_dispatched {inner : RuntimeCall A Q}
    (hdispatched : Dispatched derive (origin, call) (origin', inner)) (hqubitum : inner.isQubitum) :
    originFor env who call = .shielded who := by
  apply if_pos
  rw [Option.isSome_iff_ne_none]
  intro haccepted
  have hpath : ReflTransGen (Follows env.decoder) call inner :=
    ReflTransGen.mono (fun _ _ => follows_of_wraps) _ _ (wraps_of_dispatched hdispatched)
  obtain ⟨remaining, hpublic⟩ := (gateScanner env).reach haccepted hpath
  exact not_isQubitum_of_public hpublic hqubitum

/-- **Qubitum calls are dispatched as `Shielded(who)`**, whatever wraps them. -/
theorem dispatched_shielded (h : shieldQueueCallFilter env call = true)
    (hdispatched : Dispatched derive (originFor env who call, call) (origin', call'))
    (hqubitum : call'.isQubitum) : origin' = .shielded who := by
  obtain ⟨-, -, hunroutable⟩ := shieldQueueCallFilter_accepts h
  rcases routed_dispatched (.inl ⟨rfl, _, hunroutable⟩) hdispatched with ⟨horigin, -⟩ | ⟨_, hpublic⟩
  · rw [← originFor_of_dispatched env hdispatched hqubitum]
    exact horigin
  · exact absurd hqubitum (not_isQubitum_of_public hpublic)
end Accepted

/-! ## What is left behind -/

section Kept
variable {decoder : DepthDecoder (RuntimeCall A Q)}

/-- `call'` is an argument of `call` or can be decoded from the bytes it notes, at whatever depth. -/
def Carries (decoder : DepthDecoder (RuntimeCall A Q)) (call call' : RuntimeCall A Q) : Prop :=
  call.Batches call' ∨ call.Reroutes call' ∨ call.Schedules call' ∨ call.Pledges call' ∨
    ∃ limit, call.Notes decoder limit call'

def Contains (decoder : DepthDecoder (RuntimeCall A Q)) : RuntimeCall A Q → RuntimeCall A Q → Prop :=
  ReflTransGen (Carries decoder)

/-- `call'` is carried where no scanner looks: pledged by a crowdloan, or nested too deep in a preimage. -/
def Hides (decoder : DepthDecoder (RuntimeCall A Q)) (call call' : RuntimeCall A Q) : Prop :=
  call.Pledges call' ∨
    (∃ limit, call.Notes decoder limit call') ∧ ∀ limit ≤ maxPreimageDecodeProbeDepth, ¬ call.Notes decoder limit call'

variable {call call' kept : RuntimeCall A Q}

/-- Noted bytes are read by the scanners or hide their call from them. -/
theorem notes_cases (h : ∃ limit, call.Notes decoder limit call') :
    (∃ limit ≤ maxPreimageDecodeProbeDepth, call.Notes decoder limit call') ∨ Hides decoder call call' := by
  by_cases hshallow : ∃ limit ≤ maxPreimageDecodeProbeDepth, call.Notes decoder limit call'
  · exact .inl hshallow
  · exact .inr (.inr ⟨h, fun limit hle hlimit => hshallow ⟨limit, hle, hlimit⟩⟩)

theorem carries_iff : Carries decoder call call' ↔ Follows decoder call call' ∨ Hides decoder call call' := by
  constructor
  · rintro (hbatches | hreroutes | hschedules | hpledges | hnotes)
    · exact .inl (.inl hbatches)
    · exact .inl (.inr (.inl hreroutes))
    · exact .inl (.inr (.inr (.inl hschedules)))
    · exact .inr (.inl hpledges)
    · exact (notes_cases hnotes).imp_left fun hshallow => .inr (.inr (.inr hshallow))
  · rintro ((hbatches | hreroutes | hschedules | ⟨limit, _, hnotes⟩) | hpledges | ⟨hnotes, _⟩)
    · exact .inl hbatches
    · exact .inr (.inl hreroutes)
    · exact .inr (.inr (.inl hschedules))
    · exact .inr (.inr (.inr (.inr ⟨limit, hnotes⟩)))
    · exact .inr (.inr (.inr (.inl hpledges)))
    · exact .inr (.inr (.inr (.inr hnotes)))

theorem carries_eq : Carries decoder = fun call call' => Follows decoder call call' ∨ Hides decoder call call' := by
  funext call call'
  exact propext carries_iff

/-- `inner` lies in `kept`, which `call` left behind, and out of the scanners' sight. -/
def Hidden (decoder : DepthDecoder (RuntimeCall A Q)) (call kept inner : RuntimeCall A Q) : Prop :=
  (Hides decoder call kept ∧ Contains decoder kept inner) ∨
    ∃ outer hidden, ReflTransGen (Follows decoder) kept outer ∧ Hides decoder outer hidden ∧
      Contains decoder hidden inner

theorem Hidden.contains {inner : RuntimeCall A Q} (h : Hidden decoder call kept inner) :
    Contains decoder kept inner := by
  rcases h with ⟨-, hcontains⟩ | ⟨outer, hidden, hpath, hhides, hcontains⟩
  · exact hcontains
  · have houter : Contains decoder kept outer :=
      ReflTransGen.mono (fun _ _ hfollows => carries_iff.mpr (.inl hfollows)) _ _ hpath
    exact (houter.tail (carries_iff.mpr (.inr hhides))).trans hcontains

/-- What a scanner would see of a left-behind call, it was scheduled or noted as; the rest is hidden. -/
theorem Persists.seen_or_hidden {origin : Origin A} (h : Persists derive decoder origin call kept) :
    (call.Schedules kept ∨ ∃ limit ≤ maxPreimageDecodeProbeDepth, call.Notes decoder limit kept) ∨
      Hides decoder call kept := by
  cases h with
  | scheduled hkept => exact .inl (.inl hkept)
  | notedSigned _ hnotes => exact (notes_cases ⟨_, hnotes⟩).imp_left .inr
  | notedRoot hnotes => exact (notes_cases ⟨_, hnotes⟩).imp_left .inr
  | pledged _ hkept _ => exact .inr (.inl hkept)
end Kept

/-- What the queue promises of a call it dispatches for `who`. -/
structure QueueRouted (env : ScanEnv A Q V) (derive : Derivations A Q) (who : A) (call : RuntimeCall A Q) :
    Prop where
  shielded : ∀ {origin' call'}, Dispatched derive (originFor env who call, call) (origin', call') →
    call'.isQubitum → origin' = .shielded who
  noSubmission : ∀ {origin' call'}, Dispatched derive (originFor env who call, call) (origin', call') →
    ¬ call'.isShieldSubmission
  keptPublic : ∀ {origin' call' kept inner},
    Dispatched derive (originFor env who call, call) (origin', call') →
    Persists derive env.decoder origin' call' kept → Contains env.decoder kept inner → ¬ inner.isQubitum

/-- **When the queue keeps its promise.** Origins and submissions are right for every accepted call; what it
    leaves behind holds no Qubitum call exactly when none is hidden from the scanners. -/
theorem queue_routed_iff (derive : Derivations A Q) (who : A) {call : RuntimeCall A Q}
    (h : shieldQueueCallFilter env call = true) :
    QueueRouted env derive who call ↔
      ∀ {origin' call' kept inner}, Dispatched derive (originFor env who call, call) (origin', call') →
        Persists derive env.decoder origin' call' kept → Hidden env.decoder call' kept inner →
        ¬ inner.isQubitum := by
  constructor
  · intro hrouted origin' call' kept inner hdispatched hpersists hhidden
    exact hrouted.keptPublic hdispatched hpersists hhidden.contains
  · intro hhidden
    refine ⟨dispatched_shielded h, dispatched_no_submission h, ?_⟩
    intro origin' call' kept inner hdispatched hpersists hcontains
    obtain ⟨-, hpersistent, -⟩ := shieldQueueCallFilter_accepts h
    rcases hpersists.seen_or_hidden with hseen | hhides
    · -- the gate has accepted `kept`; only a hidden edge below it can lead to a Qubitum call
      obtain ⟨remaining, haccepted⟩ := (persistentScanner env).reach hpersistent (wraps_of_dispatched hdispatched)
      have hpublic : privacyViolation env kept = none := by
        rw [← Option.not_isSome_iff_eq_none, Bool.not_eq_true]
        rcases hseen with hschedules | ⟨limit, hle, ⟨hfinds⟩⟩
        · cases hschedules <;> exact haccepted
        · exact (DepthDecoder.scanEncoded_finds haccepted nofun hfinds hle).2
      rw [Contains, carries_eq] at hcontains
      rcases split_at_first hcontains with hpath | ⟨outer, hidden, hpath, hhides, hrest⟩
      · obtain ⟨_, hinner⟩ := (gateScanner env).reach hpublic hpath
        exact not_isQubitum_of_public hinner
      · rw [← carries_eq] at hrest
        exact hhidden hdispatched hpersists (.inr ⟨outer, hidden, hpath, hhides, hrest⟩)
    · exact hhidden hdispatched hpersists (.inl ⟨hhides, hcontains⟩)

namespace Sample

def derivations : Derivations Unit Unit where
  derivativeAccountId _ _ := some ()
  multiAccountId _ _ _ := ()
  encodedLen _ := 200

/-- A note of the encoded `loan`. -/
def note : RuntimeCall Unit Unit := .preimage (.notePreimage [27, 31])
end Sample
open Sample

/-- The queue takes a note of a crowdloan and stores, in the clear, the Qubitum call the crowdloan is for. -/
theorem queue_keeps_pledge :
    shieldQueueCallFilter scanEnv note = true ∧
      Dispatched derivations (originFor scanEnv () note, note) (.signed (), note) ∧
      Persists derivations decoder (.signed ()) note loan ∧
      Contains decoder loan (.qubitum ()) :=
  ⟨rfl, .refl, .notedSigned () (.notePreimage ⟨[], rfl⟩ : note.Notes decoder 2 loan),
    .single (.inr (.inr (.inr (.inl .create))))⟩

/-- A batched Qubitum call is dispatched as `Shielded`, and leaves nothing behind. -/
theorem queue_routes_batch : QueueRouted scanEnv derivations () (.utility (.batch [.qubitum ()])) := by
  have haccepted : shieldQueueCallFilter scanEnv (.utility (.batch [.qubitum ()])) = true := rfl
  apply (queue_routed_iff derivations () haccepted).mpr
  intro origin' call' kept inner hdispatched hpersists
  -- neither the batch nor its element leaves anything behind
  have hcourse : ReflTransGen Wraps (.utility (.batch [.qubitum ()])) call' := wraps_of_dispatched hdispatched
  rcases hcourse.cases_head with rfl | ⟨element, hbatches | hreroutes, hrest⟩
  · rcases hpersists.seen_or_hidden with (hstep | ⟨_, _, hstep⟩) | hstep | ⟨⟨_, hstep⟩, _⟩ <;> cases hstep
  · obtain ⟨hmem⟩ := hbatches
    obtain rfl := List.mem_singleton.mp hmem
    rcases hrest.cases_head with rfl | ⟨_, hstep | hstep, _⟩
    · rcases hpersists.seen_or_hidden with (hstep | ⟨_, _, hstep⟩) | hstep | ⟨⟨_, hstep⟩, _⟩ <;> cases hstep
    · cases hstep
    · cases hstep
  · cases hreroutes
end Qubitum
