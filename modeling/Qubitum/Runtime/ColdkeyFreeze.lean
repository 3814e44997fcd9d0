import Qubitum.Pallet.Custody
import Qubitum.Runtime.ShieldQueue

/-!
# `Runtime.ColdkeyFreeze` — what a coldkey can do while its swap is announced or disputed

`CheckColdkeySwap` is asked before every dispatch. It looks at signed origins only, and stops everything that a disputed
coldkey signs; a coldkey with an announced swap may do what belongs to the swap, and `submit_encrypted`. The wrappers of
the utility and proxy pallets dispatch their arguments through the same door, so that nothing gets past it further
inside (`free_of_preDispatch`).

The shield queue has another origin for an account, `Shielded(who)`, with which it dispatches private calls: it is not
a signed one.
-/

namespace Qubitum
open Outcome CheckQubitumShielding

variable {A Q S V : Type} {s : S} {origin : Origin A}

/-- The errors of the calls of a coldkey swap. -/
inductive ColdkeySwapError where
  | coldkeySwapReannouncedTooEarly
  | coldkeySwapAnnouncementNotFound
  | announcedColdkeyHashDoesNotMatch
  | coldkeySwapTooEarly
  | coldkeySwapAlreadyDisputed
  | coldkeySwapClearTooEarly
  | notEnoughBalanceToPaySwapColdKey
  deriving DecidableEq, Repr

inductive RuntimeError where
  | coldkeySwap (error : ColdkeySwapError)
  | coldkeySwapDisputed
  | coldkeySwapAnnounced
  | badOrigin
  | notProxy
  | unannounced
  | tooManyCalls
  | invalidDerivative
  | tooDeep
  | other (code : UInt8)
  deriving DecidableEq, Repr

/-! ## The extension -/

/-- The rest of the runtime, over its storage `S`. -/
structure DispatchEnv (A Q S : Type) where
  /-- `ColdkeySwapAnnouncements::contains_key` -/
  announced : S → A → Bool
  /-- `ColdkeySwapDisputes::contains_key` -/
  disputed : S → A → Bool
  /-- whether `delegate` is a proxy of `real` without a delay -/
  isProxy : S → (real delegate : A) → Bool
  /-- the storage without the announcement of a call by a proxy, if there is one that is old enough -/
  takeAnnouncement : S → (delegate real : A) → RuntimeCall A Q → Option S
  derivativeAccountId : A → UInt16 → Option A
  batchedCallsLimit : Nat
  /-- what a call does that hands on no other call -/
  body : Origin A → RuntimeCall A Q → S → Except RuntimeError S

namespace CheckColdkeySwap

/-- Calls of the swap itself. -/
def isAllowedDirect : RuntimeCall A Q → Bool
  | .subtensorModule (.announceColdkeySwap _) | .subtensorModule (.swapColdkeyAnnounced _)
  | .subtensorModule .disputeColdkeySwap | .subtensorModule .clearColdkeySwapAnnouncement => true
  | _ => false

def isMevProtected : RuntimeCall A Q → Bool
  | .mevShield (.submitEncrypted _) => true
  | _ => false

def preDispatch (env : DispatchEnv A Q S) (s : S) (origin : Origin A) (call : RuntimeCall A Q) :
    Except RuntimeError Unit :=
  match origin with
  | .signed who =>
      if env.announced s who then
        if env.disputed s who then .error .coldkeySwapDisputed
        else ensure (isAllowedDirect call || isMevProtected call) .coldkeySwapAnnounced
      else .ok ()
  | _ => .ok ()
end CheckColdkeySwap
open CheckColdkeySwap

/-! ## Dispatch -/

/-- A call that has got past the extension, with its origin and the storage at that time. -/
structure Entered (A Q S : Type) where
  origin : Origin A
  call : RuntimeCall A Q
  state : S

/-- How a dispatch ended, and what was entered in its course. -/
structure DispatchOutcome (A Q S : Type) where
  result : Except RuntimeError Unit
  state : S
  entered : List (Entered A Q S)

namespace DispatchOutcome

def error (e : RuntimeError) (s : S) : DispatchOutcome A Q S := ⟨.error e, s, []⟩

/-- The result is put into an event, and the caller goes on. -/
def recorded (o : DispatchOutcome A Q S) : DispatchOutcome A Q S := { o with result := .ok () }

/-- A call that fails is rolled back. -/
def rolledBack (o : DispatchOutcome A Q S) (s : S) : DispatchOutcome A Q S :=
  match o.result with
  | .ok _    => o
  | .error _ => { o with state := s }

/-- What follows a dispatch. -/
def andThen (o : DispatchOutcome A Q S) (next : S → DispatchOutcome A Q S) : DispatchOutcome A Q S :=
  let o' := next o.state
  { o' with entered := o.entered ++ o'.entered }
end DispatchOutcome

section Dispatch
variable (env : DispatchEnv A Q S)

/-- The calls of a batch, up to the first that fails or all of them. -/
def runBatch (dispatch : RuntimeCall A Q → S → DispatchOutcome A Q S) (stop : Bool) :
    List (RuntimeCall A Q) → S → DispatchOutcome A Q S
  | [], s            => ⟨.ok (), s, []⟩
  | call :: calls, s =>
      let o := dispatch call s
      match o.result, stop with
      | .error _, true => o
      | _, _           => o.andThen (runBatch dispatch stop calls)

/-- Batches do not allow the origin `None`, nor too many calls. -/
def batched (origin : Origin A) (calls : List (RuntimeCall A Q)) (s : S) (run : DispatchOutcome A Q S) :
    DispatchOutcome A Q S :=
  match origin with
  | .none => .error .badOrigin s
  | _     => if calls.length ≤ env.batchedCallsLimit then run else .error .tooManyCalls s

/-- The bodies of the wrappers, with `dispatch` for what they hand on. -/
def callBody (dispatch : Origin A → RuntimeCall A Q → S → DispatchOutcome A Q S) (origin : Origin A)
    (call : RuntimeCall A Q) (s : S) : DispatchOutcome A Q S :=
  match call with
  | .utility (.batch calls) => batched env origin calls s (runBatch (dispatch origin) true calls s).recorded
  | .utility (.batchAll calls) => batched env origin calls s (runBatch (dispatch origin) true calls s)
  | .utility (.forceBatch calls) => batched env origin calls s (runBatch (dispatch origin) false calls s).recorded
  | .utility (.ifElse main fallback) =>
      match origin with
      | .none => .error .badOrigin s
      | _     =>
          let o := dispatch origin main s
          match o.result with
          | .ok _    => o
          | .error _ => o.andThen (dispatch origin fallback)
  | .utility (.asDerivative index call) =>
      match origin with
      | .signed who =>
          match env.derivativeAccountId who index with
          | some pseudonym => dispatch (.signed pseudonym) call s
          | none           => .error .invalidDerivative s
      | _ => .error .badOrigin s
  | .utility (.dispatchAs asOrigin call) =>
      match origin with
      | .root => (dispatch asOrigin call s).recorded
      | _     => .error .badOrigin s
  | .utility (.dispatchAsFallible asOrigin call) =>
      match origin with
      | .root => dispatch asOrigin call s
      | _     => .error .badOrigin s
  | .utility (.withWeight call) =>
      match origin with
      | .root => dispatch .root call s
      | _     => .error .badOrigin s
  | .proxy (.proxy real call) =>
      match origin with
      | .signed who => if env.isProxy s real who then (dispatch (.signed real) call s).recorded else .error .notProxy s
      | _           => .error .badOrigin s
  | .proxy (.proxyAnnounced delegate real call) =>
      match origin with
      | .signed _ =>
          match env.takeAnnouncement s delegate real call with
          | some s' => (dispatch (.signed real) call s').recorded
          | none    => .error .unannounced s
      | _ => .error .badOrigin s
  | call =>
      match env.body origin call s with
      | .ok s'   => ⟨.ok (), s', []⟩
      | .error e => .error e s

/-- `call.dispatch(origin)`, for calls nested at most so deep. -/
def dispatchCall : Nat → Origin A → RuntimeCall A Q → S → DispatchOutcome A Q S
  | 0, _, _, s => .error .tooDeep s
  | depth + 1, origin, call, s =>
      match preDispatch env s origin call with
      | .error e => .error e s
      | .ok _    =>
          let o := (callBody env (dispatchCall depth) origin call s).rolledBack s
          { o with entered := ⟨origin, call, s⟩ :: o.entered }
end Dispatch

/-! ## Invariants of dispatches

What every call keeps that hands on no other is kept by every dispatch, and what holds of a call that gets past the
extension holds of everything that is entered. The calls can be restricted to some origins, if nothing but root hands
on a call with an origin that is not signed.
-/

section Keeps
variable {env : DispatchEnv A Q S} {I : S → Prop} {F : Entered A Q S → Prop} {P : Origin A → Prop}
  {o : DispatchOutcome A Q S}

/-- The storage is left with `I`, and everything that was entered has `F`. -/
def DispatchOutcome.Keeps (I : S → Prop) (F : Entered A Q S → Prop) (o : DispatchOutcome A Q S) : Prop :=
  I o.state ∧ ∀ e ∈ o.entered, F e

/-- Nothing was entered. -/
theorem keeps_leaf {result : Except RuntimeError Unit} (hs : I s) :
    (⟨result, s, []⟩ : DispatchOutcome A Q S).Keeps I F := ⟨hs, fun _ he => by cases he⟩

theorem DispatchOutcome.Keeps.andThen {next : S → DispatchOutcome A Q S} (h : o.Keeps I F)
    (hnext : ∀ s, I s → (next s).Keeps I F) : (o.andThen next).Keeps I F := by
  obtain ⟨hstate, hentered⟩ := hnext o.state h.1
  refine ⟨hstate, fun e he => ?_⟩
  rcases List.mem_append.mp he with he | he
  · exact h.2 e he
  · exact hentered e he

theorem runBatch_keeps {dispatch : RuntimeCall A Q → S → DispatchOutcome A Q S} {stop : Bool}
    (h : ∀ call s, I s → (dispatch call s).Keeps I F) (calls : List (RuntimeCall A Q)) (hs : I s) :
    (runBatch dispatch stop calls s).Keeps I F := by
  induction calls generalizing s with
  | nil => exact keeps_leaf hs
  | cons call rest ih =>
    unfold runBatch
    simp only
    split
    · exact h call s hs
    · exact (h call s hs).andThen fun s hs => ih hs

theorem batched_keeps {calls : List (RuntimeCall A Q)} (hs : I s) (h : o.Keeps I F) :
    (batched env origin calls s o).Keeps I F := by
  unfold batched
  split
  · exact keeps_leaf hs
  · split_ifs
    · exact h
    · exact keeps_leaf hs

variable (hsigned : ∀ who, P (.signed who)) (hroot : P .root → ∀ origin, P origin)
  (htake : ∀ s delegate real call s', env.takeAnnouncement s delegate real call = some s' → I s → I s')
include hsigned hroot htake

theorem callBody_keeps {dispatch : Origin A → RuntimeCall A Q → S → DispatchOutcome A Q S}
    (h : ∀ origin call s, P origin → I s → (dispatch origin call s).Keeps I F) {call : RuntimeCall A Q}
    (horigin : P origin) (hbody : ∀ s', env.body origin call s = .ok s' → I s') (hs : I s) :
    (callBody env dispatch origin call s).Keeps I F := by
  have hsame : ∀ call s, I s → (dispatch origin call s).Keeps I F := fun call s => h origin call s horigin
  unfold callBody
  split
  -- the three batches
  · exact batched_keeps hs (runBatch_keeps hsame _ hs)
  · exact batched_keeps hs (runBatch_keeps hsame _ hs)
  · exact batched_keeps hs (runBatch_keeps hsame _ hs)
  -- a conditional
  · split
    · exact keeps_leaf hs
    · simp only
      split
      · exact hsame _ _ hs
      · exact (hsame _ _ hs).andThen (hsame _)
  -- another account of the caller
  · split
    · split
      · exact h _ _ _ (hsigned _) hs
      · exact keeps_leaf hs
    · exact keeps_leaf hs
  -- the wrappers for root
  · split
    · exact h _ _ _ (hroot horigin _) hs
    · exact keeps_leaf hs
  · split
    · exact h _ _ _ (hroot horigin _) hs
    · exact keeps_leaf hs
  · split
    · exact hsame _ _ hs
    · exact keeps_leaf hs
  -- proxies
  · split
    · split_ifs
      · exact h _ _ _ (hsigned _) hs
      · exact keeps_leaf hs
    · exact keeps_leaf hs
  · split
    · split
      · rename_i htaken
        exact h _ _ _ (hsigned _) (htake _ _ _ _ _ htaken hs)
      · exact keeps_leaf hs
    · exact keeps_leaf hs
  -- everything else hands on nothing
  · split
    · rename_i hok
      exact keeps_leaf (hbody _ hok)
    · exact keeps_leaf hs

theorem dispatchCall_keeps (hentered : ∀ origin call s, preDispatch env s origin call = .ok () → F ⟨origin, call, s⟩)
    (hbody : ∀ origin call s s', P origin → preDispatch env s origin call = .ok () → env.body origin call s = .ok s' →
      I s → I s') (depth : Nat) (call : RuntimeCall A Q) (horigin : P origin) (hs : I s) :
    (dispatchCall env depth origin call s).Keeps I F := by
  induction depth generalizing origin call s with
  | zero => exact keeps_leaf hs
  | succ depth ih =>
    unfold dispatchCall
    split
    · exact keeps_leaf hs
    · rename_i hpre
      have hafter : (callBody env (dispatchCall env depth) origin call s).Keeps I F :=
        callBody_keeps hsigned hroot htake (fun _ call _ horigin hs => ih call horigin hs) horigin
          (fun s' hok => hbody origin call s s' horigin hpre hok hs) hs
      have hrolled : ((callBody env (dispatchCall env depth) origin call s).rolledBack s).Keeps I F := by
        unfold DispatchOutcome.rolledBack
        split
        · exact hafter
        · exact ⟨hs, hafter.2⟩
      exact ⟨hrolled.1, List.forall_mem_cons.mpr ⟨hentered origin call s hpre, hrolled.2⟩⟩
end Keeps

/-! ## What gets past -/

section Free
variable {env : DispatchEnv A Q S} {who : A} {call : RuntimeCall A Q}

/-- Nothing is entered that a coldkey signs during its swap, but what belongs to the swap. -/
def Entered.Free (env : DispatchEnv A Q S) (e : Entered A Q S) : Prop :=
  ∀ who, e.origin = .signed who → env.announced e.state who = true →
    env.disputed e.state who = false ∧ (isAllowedDirect e.call || isMevProtected e.call) = true

theorem free_of_preDispatch (h : preDispatch env s origin call = .ok ()) : Entered.Free env ⟨origin, call, s⟩ := by
  intro who horigin hannounced
  cases horigin
  unfold preDispatch at h
  simp only [hannounced, if_true] at h
  by_cases hdisputed : env.disputed s who = true
  · simp only [hdisputed, if_true] at h
    cases h
  · simp only [hdisputed, Bool.false_eq_true, if_false] at h
    exact ⟨Bool.eq_false_iff.mpr hdisputed, ensure_eq_ok.mp h⟩

/-- A dispatch that got past the extension fails as its body does, and then leaves the storage as it is. -/
theorem dispatchCall_result (depth : Nat) (h : preDispatch env s origin call = .ok ()) :
    (dispatchCall env (depth + 1) origin call s).result = (callBody env (dispatchCall env depth) origin call s).result ∧
      ∀ err, (dispatchCall env (depth + 1) origin call s).result = .error err →
        (dispatchCall env (depth + 1) origin call s).state = s := by
  unfold dispatchCall DispatchOutcome.rolledBack
  rw [h]
  simp only
  split
  · rename_i hok
    refine ⟨rfl, fun err herr => ?_⟩
    rw [hok] at herr
    cases herr
  · exact ⟨rfl, fun _ _ => rfl⟩
end Free

/-- **A frozen coldkey does nothing** that it signs, by itself or through the queue, if the queue does not take it for
    private: the dispatch fails and leaves the whole storage as it is. An entry that the queue takes for private is
    stopped only by itself: it fails if and only if its body does. Further inside of other dispatches the coldkey
    enters nothing, either. -/
theorem frozen_coldkey_does_nothing (env : DispatchEnv A Q S) (scan : ScanEnv A Q V) (depth : Nat) (s : S) (who : A)
    (origin : Origin A) (call : RuntimeCall A Q) (hannounced : env.announced s who = true)
    (horigin : origin = .signed who ∨ origin = originFor scan who call ∧ privacyViolation scan call = none) :
    (env.disputed s who = true → dispatchCall env (depth + 1) origin call s = .error .coldkeySwapDisputed s) ∧
      (env.disputed s who = false → (isAllowedDirect call || isMevProtected call) = false →
        dispatchCall env (depth + 1) origin call s = .error .coldkeySwapAnnounced s) ∧
      ((env.disputed s who || !(isAllowedDirect call || isMevProtected call)) = true →
        let o := dispatchCall env (depth + 1) (originFor scan who call) call s
        ((∃ err, o.result = .error err ∧ o.state = s) ↔ privacyViolation scan call = none ∨
          ∃ err, (callBody env (dispatchCall env depth) (.shielded who) call s).result = .error err)) ∧
      ∀ origin' call' s', ∀ e ∈ (dispatchCall env depth origin' call' s').entered, e.origin = .signed who →
        env.announced e.state who = true →
          env.disputed e.state who = false ∧ (isAllowedDirect e.call || isMevProtected e.call) = true := by
  have hdisputed : env.disputed s who = true →
      dispatchCall env (depth + 1) (.signed who) call s = .error .coldkeySwapDisputed s := by
    intro hdisputed
    unfold dispatchCall preDispatch
    simp only [hannounced, hdisputed, if_true]
  have hstopped : env.disputed s who = false → (isAllowedDirect call || isMevProtected call) = false →
      dispatchCall env (depth + 1) (.signed who) call s = .error .coldkeySwapAnnounced s := by
    intro hdisputed hcall
    unfold dispatchCall preDispatch
    simp only [hannounced, hdisputed, hcall, if_true, Bool.false_eq_true, if_false, ensure]
  have hpublic : privacyViolation scan call = none → originFor scan who call = .signed who := by
    intro hpublic
    rw [originFor, hpublic]
    rfl
  have hsigned : origin = .signed who := by
    rcases horigin with horigin | ⟨horigin, hnone⟩
    · exact horigin
    · rw [horigin, hpublic hnone]
  subst hsigned
  refine ⟨hdisputed, hstopped, fun hfrozen => ?_, ?_⟩
  · by_cases hnone : privacyViolation scan call = none
    · simp only [hpublic hnone, hnone, true_or, iff_true]
      cases hd : env.disputed s who with
      | true => exact ⟨_, by rw [hdisputed hd]; exact ⟨rfl, rfl⟩⟩
      | false =>
        rw [hd, Bool.false_or, Bool.not_eq_true'] at hfrozen
        exact ⟨_, by rw [hstopped hd hfrozen]; exact ⟨rfl, rfl⟩⟩
    · have hshielded : originFor scan who call = .shielded who := if_pos (Option.isSome_iff_ne_none.mpr hnone)
      -- the extension lets every origin pass that is not signed
      have hpasses : preDispatch env s (.shielded who) call = .ok () := rfl
      obtain ⟨hresult, hstate⟩ := dispatchCall_result depth hpasses
      simp only [hshielded, hnone, false_or]
      rw [← hresult]
      constructor
      · rintro ⟨err, herr, -⟩
        exact ⟨err, herr⟩
      · rintro ⟨err, herr⟩
        exact ⟨err, herr, hstate err herr⟩
  · intro origin' call' s' e he
    -- at whatever depth, a call that is entered has passed the same check
    exact (dispatchCall_keeps (I := fun _ => True) (P := fun _ => True) (fun _ => trivial) (fun _ _ => trivial)
      (fun _ _ _ _ _ _ _ => trivial) (fun _ _ _ => free_of_preDispatch) (fun _ _ _ _ _ _ _ _ => trivial) depth call'
      trivial trivial).2 e he who

namespace Sample

/-- The storage of the Qubitum pallet, with the coldkeys that are frozen. -/
structure Frozen where
  pallet : State Ledger 64
  announced : UInt64 → Bool
  disputed : UInt64 → Bool

/-- Private calls by the origin of the queue. -/
def shieldedConfig : Config UInt64 Ledger 64 :=
  { config with
    shieldedCallPayloads := true
    shieldedOrigin := fun origin => match origin with
      | .shielded who => some who
      | _             => none }

def dispatchEnv : DispatchEnv UInt64 (Call UInt64 64) Frozen where
  announced s := s.announced
  disputed s := s.disputed
  isProxy _ _ _ := false
  takeAnnouncement _ _ _ _ := none
  derivativeAccountId _ _ := none
  batchedCallsLimit := 100
  body origin call s :=
    match call with
    | .qubitum inner =>
        match dispatch shieldedConfig (fun _ _ => .ok .valid) s.pallet origin inner with
        | .ok pallet => .ok { s with pallet }
        | .error _   => .error (.other 0)
    | _ => .ok s

/-- No bytes are the encoding of a call. -/
def blindScan : ScanEnv UInt64 (Call UInt64 64) (Fin 3) where
  decoder :=
    { decode := fun _ _ => none
      mono := fun _ h => absurd h (by simp) }
  twox128 := Shield.Sample.digest
  parse := Shield.Sample.parse
  keys := Shield.Sample.start fun _ => Shield.Sample.key 1

/-- Account 1 is disputed. -/
def frozen : Frozen := ⟨start.state, (· = 1), (· = 1)⟩

def newSubnet : RuntimeCall UInt64 (Call UInt64 64) := .qubitum (.createSubnet .general .stark)
end Sample
open Sample

/-- A batch from the queue is stopped, since there is nothing private in it. -/
theorem frozen_coldkey_does_nothing_batch :
    dispatchCall dispatchEnv 3 (originFor blindScan 1 (.utility (.batch [.other])))
      (.utility (.batch [.other])) frozen = .error .coldkeySwapDisputed frozen :=
  (frozen_coldkey_does_nothing dispatchEnv blindScan 2 frozen 1 _ _ rfl (.inr ⟨rfl, rfl⟩)).1 rfl

/-- A new subnet is private: the queue takes it, and the disputed account pays for it. -/
theorem frozen_coldkey_pays : let o := dispatchCall dispatchEnv 1 (originFor blindScan 1 newSubnet) newSubnet frozen
    (frozen.announced 1 ∧ frozen.disputed 1 ∧ shieldQueueCallFilter blindScan newSubnet) ∧
      o.result.isOk ∧ frozen.pallet.ledger.free 1 = 1000 ∧ o.state.pallet.ledger.free 1 = 995 := by
  decide +kernel
end Qubitum
