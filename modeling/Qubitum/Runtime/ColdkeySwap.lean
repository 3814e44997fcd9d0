import Qubitum.Runtime.ColdkeyFreeze

/-!
# `Runtime.ColdkeySwap` — coldkey swaps over whole runs

A coldkey announces the hash of its successor, waits, and swaps; it can dispute its own announcement, and from then on
only root can act for it. The pallet keeps this in two maps, `ColdkeySwapAnnouncements` and `ColdkeySwapDisputes`, and
relies on `CheckColdkeySwap` to stop a disputed coldkey: the calls themselves do not look at the disputes.

Over the maps stands the life of one account (`Status`), read off the history of what has happened (`statusAfter`).
`Sound` says that the maps agree with it and that everything in the history was `Allowed` when it happened; every call
keeps it (`runCall_sound`), and with it every dispatch at whatever depth (`dispatchCall_keeps`) and every run.
-/

namespace Qubitum
open Outcome CheckColdkeySwap Scale Function

variable {A Q W : Type}

/-! ## The history -/

namespace ColdkeySwap

/-- What happens to the swap of an account. -/
inductive Action (A : Type) where
  | announced (newColdkeyHash : Bytes)
  | disputed
  | cleared
  | reset
  | swapped (newColdkey : A) (byRoot : Bool)
  deriving DecidableEq

structure Entry (A : Type) where
  block : Nat
  who : A
  action : Action A
  deriving DecidableEq

/-! ## Storage and configuration -/

structure Storage (A W : Type) where
  coldkeySwapAnnouncements : A → Option (Nat × Bytes)
  coldkeySwapDisputes : A → Option Nat
  blockNumber : Nat
  /-- the events of the swap calls, with their blocks -/
  history : List (Entry A)
  /-- the storage of everything else -/
  rest : W

structure Config (A Q W : Type) where
  /-- `T::Hashing::hash_of` -/
  hashOf : A → Bytes
  /-- the largest block number -/
  maxBlock : Nat
  coldkeySwapAnnouncementDelay : Nat
  coldkeySwapReannouncementDelay : Nat
  keySwapCost : Nat
  /-- `charge_swap_cost`; `none` when the balance does not cover it -/
  chargeSwapCost : W → A → Nat → Option W
  /-- `do_swap_coldkey`, which does not touch the two maps -/
  doSwapColdkey : W → (oldColdkey newColdkey : A) → Except RuntimeError W
  isProxy : W → (real delegate : A) → Bool
  takeAnnouncement : W → (delegate real : A) → RuntimeCall A Q → Option W
  derivativeAccountId : A → UInt16 → Option A
  batchedCallsLimit : Nat
  /-- what the other calls do; they do not touch the two maps, either -/
  otherBody : Origin A → RuntimeCall A Q → Storage A W → Except RuntimeError W

/-- `saturating_add` of block numbers. -/
def Config.saturatingAdd (cfg : Config A Q W) (a b : Nat) : Nat := min (a + b) cfg.maxBlock

/-! ## The calls -/

section Calls
variable [DecidableEq A] (cfg : Config A Q W) (s : Storage A W) (origin : Origin A)

/-- `ensure_signed` in front of a call. -/
def asSigned (f : A → Except RuntimeError (Storage A W)) : Except RuntimeError (Storage A W) :=
  match origin with
  | .signed who => f who
  | _ => .error .badOrigin

/-- `ensure_root` in front of a call. -/
def asRoot (set : Except RuntimeError (Storage A W)) : Except RuntimeError (Storage A W) :=
  match origin with
  | .root => set
  | _ => .error .badOrigin

/-- The announcement costs something the first time only. -/
def announcementFee (who : A) : Except RuntimeError W :=
  match s.coldkeySwapAnnouncements who with
  | some (when', _) => do
    let minWhen := cfg.saturatingAdd when' cfg.coldkeySwapReannouncementDelay
    ensure (minWhen ≤ s.blockNumber) (.coldkeySwap .coldkeySwapReannouncedTooEarly)
    pure s.rest
  | none => okOr (cfg.chargeSwapCost s.rest who cfg.keySwapCost) (.coldkeySwap .notEnoughBalanceToPaySwapColdKey)

def announceColdkeySwap (newColdkeyHash : Bytes) : Except RuntimeError (Storage A W) :=
  asSigned origin fun who => do
    let rest ← announcementFee cfg s who
    let when' := cfg.saturatingAdd s.blockNumber cfg.coldkeySwapAnnouncementDelay
    pure { s with
      coldkeySwapAnnouncements := update s.coldkeySwapAnnouncements who (some (when', newColdkeyHash))
      history := s.history ++ [⟨s.blockNumber, who, .announced newColdkeyHash⟩]
      rest }

def swapColdkeyAnnounced (newColdkey : A) : Except RuntimeError (Storage A W) :=
  asSigned origin fun who => do
    let (when', newColdkeyHash) ←
      okOr (s.coldkeySwapAnnouncements who) (.coldkeySwap .coldkeySwapAnnouncementNotFound)
    ensure (newColdkeyHash = cfg.hashOf newColdkey) (.coldkeySwap .announcedColdkeyHashDoesNotMatch)
    ensure (when' ≤ s.blockNumber) (.coldkeySwap .coldkeySwapTooEarly)
    let rest ← cfg.doSwapColdkey s.rest who newColdkey
    pure { s with
      coldkeySwapAnnouncements := update s.coldkeySwapAnnouncements who none
      history := s.history ++ [⟨s.blockNumber, who, .swapped newColdkey false⟩]
      rest }

def disputeColdkeySwap : Except RuntimeError (Storage A W) :=
  asSigned origin fun coldkey => do
    ensure (s.coldkeySwapAnnouncements coldkey).isSome (.coldkeySwap .coldkeySwapAnnouncementNotFound)
    ensure (s.coldkeySwapDisputes coldkey).isNone (.coldkeySwap .coldkeySwapAlreadyDisputed)
    pure { s with
      coldkeySwapDisputes := update s.coldkeySwapDisputes coldkey (some s.blockNumber)
      history := s.history ++ [⟨s.blockNumber, coldkey, .disputed⟩] }

def clearColdkeySwapAnnouncement : Except RuntimeError (Storage A W) :=
  asSigned origin fun who => do
    let (when', _) ← okOr (s.coldkeySwapAnnouncements who) (.coldkeySwap .coldkeySwapAnnouncementNotFound)
    let minWhen := cfg.saturatingAdd when' cfg.coldkeySwapReannouncementDelay
    ensure (minWhen ≤ s.blockNumber) (.coldkeySwap .coldkeySwapClearTooEarly)
    pure { s with
      coldkeySwapAnnouncements := update s.coldkeySwapAnnouncements who none
      history := s.history ++ [⟨s.blockNumber, who, .cleared⟩] }

/-- Both maps forget the account. -/
def Storage.forget (coldkey : A) (action : Action A) (rest : W) : Storage A W :=
  { s with
    coldkeySwapAnnouncements := update s.coldkeySwapAnnouncements coldkey none
    coldkeySwapDisputes := update s.coldkeySwapDisputes coldkey none
    history := s.history ++ [⟨s.blockNumber, coldkey, action⟩]
    rest }

def resetColdkeySwap (coldkey : A) : Except RuntimeError (Storage A W) :=
  asRoot origin (pure (s.forget coldkey .reset s.rest))

/-- Root says what the swap costs. -/
def swapFee (oldColdkey : A) (swapCost : Nat) : Except RuntimeError W :=
  if 0 < swapCost then
    okOr (cfg.chargeSwapCost s.rest oldColdkey swapCost) (.coldkeySwap .notEnoughBalanceToPaySwapColdKey)
  else pure s.rest

def swapColdkey (oldColdkey newColdkey : A) (swapCost : Nat) : Except RuntimeError (Storage A W) :=
  asRoot origin do
    let charged ← swapFee cfg s oldColdkey swapCost
    let rest ← cfg.doSwapColdkey charged oldColdkey newColdkey
    pure (s.forget oldColdkey (.swapped newColdkey true) rest)

/-- A call that hands on no other. -/
def runCall (call : RuntimeCall A Q) : Except RuntimeError (Storage A W) :=
  match call with
  | .subtensorModule (.announceColdkeySwap newColdkeyHash) => announceColdkeySwap cfg s origin newColdkeyHash
  | .subtensorModule (.swapColdkeyAnnounced newColdkey) => swapColdkeyAnnounced cfg s origin newColdkey
  | .subtensorModule .disputeColdkeySwap => disputeColdkeySwap s origin
  | .subtensorModule .clearColdkeySwapAnnouncement => clearColdkeySwapAnnouncement cfg s origin
  | .subtensorModule (.resetColdkeySwap coldkey) => resetColdkeySwap s origin coldkey
  | .subtensorModule (.swapColdkey oldColdkey newColdkey swapCost) =>
    swapColdkey cfg s origin oldColdkey newColdkey swapCost
  | call => do
    let rest ← cfg.otherBody origin call s
    pure { s with rest }
end Calls

/-- The runtime around the calls, for `dispatchCall`. -/
def Config.env [DecidableEq A] (cfg : Config A Q W) : DispatchEnv A Q (Storage A W) where
  announced s who := (s.coldkeySwapAnnouncements who).isSome
  disputed s who := (s.coldkeySwapDisputes who).isSome
  isProxy s := cfg.isProxy s.rest
  takeAnnouncement s delegate real call := (cfg.takeAnnouncement s.rest delegate real call).map fun rest => { s with rest }
  derivativeAccountId := cfg.derivativeAccountId
  batchedCallsLimit := cfg.batchedCallsLimit
  body origin call s := runCall cfg s origin call

/-! ## Runs -/

inductive Input (A Q W : Type) where
  | nextBlock
  | dispatch (depth : Nat) (origin : Origin A) (call : RuntimeCall A Q)
  /-- the hooks of the runtime -/
  | hooks (rest : W)

def step [DecidableEq A] (cfg : Config A Q W) (s : Storage A W) : Input A Q W → Storage A W
  | .nextBlock => { s with blockNumber := s.blockNumber + 1 }
  | .dispatch depth origin call => (dispatchCall cfg.env depth origin call s).state
  | .hooks rest => { s with rest }

def run [DecidableEq A] (cfg : Config A Q W) (s : Storage A W) (inputs : List (Input A Q W)) : Storage A W :=
  inputs.foldl (step cfg) s

/-- No swap has been announced yet. -/
structure Storage.Initial (s : Storage A W) : Prop where
  announcements : ∀ who, s.coldkeySwapAnnouncements who = none
  disputes : ∀ who, s.coldkeySwapDisputes who = none
  history : s.history = []

/-! ## The life of an account -/

inductive Status where
  | idle
  | announced (block : Nat) (newColdkeyHash : Bytes)
  | disputed (block : Nat) (newColdkeyHash : Bytes)
  deriving DecidableEq

/-- The status after an action of the account, or of root on it. -/
def Action.next (block : Nat) : Action A → Status → Status
  | .announced newColdkeyHash, _ => .announced block newColdkeyHash
  | .disputed, .announced a h => .disputed a h
  | .disputed, status => status
  | .cleared, _ | .reset, _ | .swapped _ _, _ => .idle

def Entry.after [DecidableEq A] (who : A) (status : Status) (e : Entry A) : Status :=
  if e.who = who then e.action.next e.block status else status

def statusAfter [DecidableEq A] (history : List (Entry A)) (who : A) : Status := history.foldl (Entry.after who) .idle

/-- What the account waits for before it can announce something else or clear the announcement. -/
def Config.reannouncedFrom (cfg : Config A Q W) (block : Nat) : Nat :=
  cfg.saturatingAdd (cfg.saturatingAdd block cfg.coldkeySwapAnnouncementDelay) cfg.coldkeySwapReannouncementDelay

/-- When an action is allowed. Root is not asked. -/
def Entry.Allowed (cfg : Config A Q W) (e : Entry A) (status : Status) : Prop :=
  match e.action with
  | .announced _ => status = .idle ∨ ∃ a h, status = .announced a h ∧ cfg.reannouncedFrom a ≤ e.block
  | .disputed => ∃ a h, status = .announced a h
  | .cleared => ∃ a h, status = .announced a h ∧ cfg.reannouncedFrom a ≤ e.block
  | .swapped newColdkey false => ∃ a, status = .announced a (cfg.hashOf newColdkey) ∧
      cfg.saturatingAdd a cfg.coldkeySwapAnnouncementDelay ≤ e.block
  | .swapped _ true | .reset => True

/-- The entry of `ColdkeySwapAnnouncements`. -/
def Status.announcement (cfg : Config A Q W) : Status → Option (Nat × Bytes)
  | .idle => none
  | .announced a h | .disputed a h => some (cfg.saturatingAdd a cfg.coldkeySwapAnnouncementDelay, h)

def Status.isDisputed : Status → Bool
  | .disputed _ _ => true
  | _ => false

/-- The maps are what the history says, and everything in the history was allowed when it happened. -/
structure Storage.Sound [DecidableEq A] (cfg : Config A Q W) (s : Storage A W) : Prop where
  allowed : ∀ before e, before ++ [e] <+: s.history → e.Allowed cfg (statusAfter before e.who)
  announcements : ∀ who, s.coldkeySwapAnnouncements who = (statusAfter s.history who).announcement cfg
  disputes : ∀ who, (s.coldkeySwapDisputes who).isSome = (statusAfter s.history who).isDisputed
  sorted : s.history.Pairwise fun e e' => e.block ≤ e'.block
  past : ∀ e ∈ s.history, e.block ≤ s.blockNumber

/-! ## The status along the history -/

section Status
variable [DecidableEq A] {cfg : Config A Q W} {who : A} {e : Entry A} {history : List (Entry A)}

@[simp] theorem statusAfter_concat : statusAfter (history ++ [e]) who = e.after who (statusAfter history who) := by
  simp [statusAfter]

theorem Entry.after_of_ne (h : e.who ≠ who) (status : Status) : e.after who status = status := if_neg h

theorem Entry.after_self (status : Status) : e.after e.who status = e.action.next e.block status := if_pos rfl

variable {status : Status} {a : Nat} {h : Bytes}

omit [DecidableEq A] in
@[simp] theorem announcement_eq_none : status.announcement cfg = none ↔ status = .idle := by
  cases status <;> simp [Status.announcement]

omit [DecidableEq A] in
theorem next_eq_announced {action : Action A} {block : Nat}
    (hnext : action.next block status = .announced a h) : action = .announced h ∧ block = a := by
  cases action with
  | announced h' =>
    cases hnext
    exact ⟨rfl, rfl⟩
  | disputed => cases status <;> cases hnext
  | cleared | reset | swapped _ _ => cases hnext

/-- An account that is announced and not disputed: the last thing that happened to it is the announcement. -/
theorem last_of_announced (hstatus : statusAfter history who = .announced a h) :
    ∃ before after, history = before ++ ⟨a, who, .announced h⟩ :: after ∧ ∀ e ∈ after, e.who ≠ who := by
  induction history using List.reverseRecOn with
  | nil => cases hstatus
  | append_singleton history e ih =>
    rw [statusAfter_concat] at hstatus
    by_cases hwho : e.who = who
    · subst hwho
      rw [Entry.after_self] at hstatus
      obtain ⟨block, who, action⟩ := e
      obtain ⟨rfl, rfl⟩ := next_eq_announced hstatus
      exact ⟨history, [], rfl, fun _ he => by cases he⟩
    · rw [Entry.after_of_ne hwho] at hstatus
      obtain ⟨before, after, hsplit, hafter⟩ := ih hstatus
      refine ⟨before, after ++ [e], by rw [hsplit]; simp, ?_⟩
      intro e' he'
      rcases List.mem_append.mp he' with hold | hnew
      · exact hafter e' hold
      · rw [List.mem_singleton.mp hnew]
        exact hwho

/-- The actions that end an announcement. -/
def Action.Ends : Action A → Prop
  | .cleared | .reset | .swapped _ _ => True
  | .announced _ | .disputed => False

/-- Until it ends, an announcement is followed by later ones only. -/
theorem announced_after {before after : List (Entry A)}
    (hsorted : (before ++ ⟨a, who, .announced h⟩ :: after).Pairwise fun e e' => e.block ≤ e'.block)
    (hends : ∀ e ∈ after, e.who = who → ¬ e.action.Ends) :
    ∃ a' h', a ≤ a' ∧ (statusAfter (before ++ ⟨a, who, .announced h⟩ :: after) who = .announced a' h' ∨
      statusAfter (before ++ ⟨a, who, .announced h⟩ :: after) who = .disputed a' h') := by
  induction after using List.reverseRecOn with
  | nil =>
    refine ⟨a, h, Nat.le_refl _, .inl ?_⟩
    rw [statusAfter_concat]
    exact Entry.after_self (e := ⟨a, who, .announced h⟩) _
  | append_singleton after e ih =>
    have hsplit : before ++ ⟨a, who, .announced h⟩ :: (after ++ [e]) =
        (before ++ ⟨a, who, .announced h⟩ :: after) ++ [e] := by simp
    rw [hsplit] at hsorted ⊢
    obtain ⟨hsorted', -, hlast⟩ := List.pairwise_append.mp hsorted
    obtain ⟨a', h', hle, hstatus⟩ := ih hsorted' fun e' he' => hends e' (List.mem_append_left _ he')
    rw [statusAfter_concat]
    by_cases hwho : e.who = who
    · subst hwho
      rw [Entry.after_self]
      have hends' := hends e (List.mem_append_right _ (List.mem_singleton.mpr rfl)) rfl
      have hlater : a ≤ e.block := hlast ⟨a, e.who, .announced h⟩ (by simp) e (List.mem_singleton.mpr rfl)
      cases haction : e.action with
      | announced h'' => exact ⟨e.block, h'', hlater, .inl rfl⟩
      | disputed =>
        refine ⟨a', h', hle, .inr ?_⟩
        rcases hstatus with hstatus | hstatus <;> rw [hstatus] <;> rfl
      | cleared | reset | swapped _ _ =>
        rw [haction] at hends'
        exact absurd trivial hends'
    · rw [Entry.after_of_ne hwho]
      exact ⟨a', h', hle, hstatus⟩
end Status

/-! ## The calls keep the storage sound -/

section Sound
variable [DecidableEq A] {cfg : Config A Q W} {s s' : Storage A W} {origin : Origin A} {who : A}

theorem Storage.Initial.sound (h : s.Initial) : s.Sound cfg where
  allowed before e hinitial := by
    rw [h.history] at hinitial
    exact absurd hinitial.length_le (by simp)
  announcements who := by
    rw [h.announcements, h.history]
    rfl
  disputes who := by
    rw [h.disputes, h.history]
    rfl
  sorted := by
    rw [h.history]
    exact .nil
  past e he := by
    rw [h.history] at he
    cases he

variable {action : Action A} {h : Bytes} {newColdkey : A}

/-- Something allowed happens to an account now, and the maps change with it there and nowhere else. -/
structure Recorded (cfg : Config A Q W) (s s' : Storage A W) (who : A) (action : Action A) : Prop where
  allowed : Entry.Allowed cfg ⟨s.blockNumber, who, action⟩ (statusAfter s.history who)
  history : s'.history = s.history ++ [⟨s.blockNumber, who, action⟩]
  block : s'.blockNumber = s.blockNumber
  announcements : s'.coldkeySwapAnnouncements = update s.coldkeySwapAnnouncements who
    ((action.next s.blockNumber (statusAfter s.history who)).announcement cfg)
  self : (s'.coldkeySwapDisputes who).isSome = (action.next s.blockNumber (statusAfter s.history who)).isDisputed
  other : ∀ who', who' ≠ who → s'.coldkeySwapDisputes who' = s.coldkeySwapDisputes who'

theorem Recorded.sound (h : Recorded cfg s s' who action) (hs : s.Sound cfg) : s'.Sound cfg where
  allowed before e hinitial := by
    rw [h.history, List.prefix_concat_iff] at hinitial
    rcases hinitial with heq | hold
    · obtain ⟨rfl, he⟩ := List.append_inj' heq rfl
      cases he
      exact h.allowed
    · exact hs.allowed before e hold
  announcements who' := by
    rw [h.history, statusAfter_concat, h.announcements]
    by_cases hwho : who' = who
    · subst hwho
      rw [update_self]
      exact congrArg _ (Entry.after_self (e := ⟨s.blockNumber, who', action⟩) _).symm
    · rw [update_of_ne hwho, Entry.after_of_ne (Ne.symm hwho)]
      exact hs.announcements who'
  disputes who' := by
    rw [h.history, statusAfter_concat]
    by_cases hwho : who' = who
    · subst hwho
      rw [h.self]
      exact congrArg _ (Entry.after_self (e := ⟨s.blockNumber, who', action⟩) _).symm
    · rw [h.other who' hwho, Entry.after_of_ne (Ne.symm hwho)]
      exact hs.disputes who'
  sorted := by
    rw [h.history, List.pairwise_append]
    refine ⟨hs.sorted, List.pairwise_singleton _ _, fun e he e' he' => ?_⟩
    rw [List.mem_singleton.mp he']
    exact hs.past e he
  past e he := by
    rw [h.history] at he
    rw [h.block]
    rcases List.mem_append.mp he with hold | hnew
    · exact hs.past e hold
    · rw [List.mem_singleton.mp hnew]

/-- What leaves the maps and the history alone, while the block number may grow. -/
theorem Storage.Sound.congr (hs : s.Sound cfg) (hannouncements : s'.coldkeySwapAnnouncements = s.coldkeySwapAnnouncements)
    (hdisputes : s'.coldkeySwapDisputes = s.coldkeySwapDisputes) (hhistory : s'.history = s.history)
    (hblock : s.blockNumber ≤ s'.blockNumber) : s'.Sound cfg where
  allowed := hhistory ▸ hs.allowed
  announcements := by
    rw [hannouncements, hhistory]
    exact hs.announcements
  disputes := by
    rw [hdisputes, hhistory]
    exact hs.disputes
  sorted := hhistory ▸ hs.sorted
  past e he := Nat.le_trans (hs.past e (hhistory ▸ he)) hblock

/-- Behind the extension, a coldkey with an announcement is not disputed, and its announcement is the last thing that
    happened to it. -/
theorem Storage.Sound.status_of_announcement (hs : s.Sound cfg) {call : RuntimeCall A Q} {when' : Nat}
    (hpre : preDispatch cfg.env s (.signed who) call = .ok ())
    (hannouncement : s.coldkeySwapAnnouncements who = some (when', h)) :
    ∃ a, statusAfter s.history who = .announced a h ∧ cfg.saturatingAdd a cfg.coldkeySwapAnnouncementDelay = when' := by
  have hthere : cfg.env.announced s who = true := by
    show (s.coldkeySwapAnnouncements who).isSome = true
    rw [hannouncement]
    rfl
  obtain ⟨hundisputed, -⟩ := free_of_preDispatch hpre who rfl hthere
  have hdispute : (statusAfter s.history who).isDisputed = false := (hs.disputes who).symm.trans hundisputed
  have hstatus := (hs.announcements who).symm.trans hannouncement
  cases hcase : statusAfter s.history who <;> rw [hcase] at hstatus hdispute
  case idle => cases hstatus
  case announced a h' =>
    cases hstatus
    exact ⟨a, rfl, rfl⟩
  case disputed => cases hdispute

/-- An account that is not disputed has no entry among the disputes. -/
theorem Storage.Sound.undisputed (hs : s.Sound cfg) (h : (statusAfter s.history who).isDisputed = false) :
    (s.coldkeySwapDisputes who).isSome = false := (hs.disputes who).trans h

omit [DecidableEq A] in
theorem asSigned_eq_ok {f : A → Except RuntimeError (Storage A W)} (h : asSigned origin f = .ok s') :
    ∃ who, origin = .signed who ∧ f who = .ok s' := by
  cases origin with
  | signed who => exact ⟨who, rfl, h⟩
  | root | none | shielded _ => cases h

omit [DecidableEq A] in
theorem asRoot_eq_ok {set : Except RuntimeError (Storage A W)} (h : asRoot origin set = .ok s') :
    origin = .root ∧ set = .ok s' := by
  cases origin with
  | root => exact ⟨rfl, h⟩
  | signed _ | none | shielded _ => cases h

variable {call : RuntimeCall A Q}

/-- Root is always allowed to make both maps forget an account. -/
theorem forget_recorded (rest : W) (hallowed : ∀ status, Entry.Allowed cfg ⟨s.blockNumber, who, action⟩ status)
    (hidle : ∀ status, action.next s.blockNumber status = .idle) :
    Recorded cfg s (s.forget who action rest) who action := by
  refine ⟨hallowed _, rfl, rfl, ?_, ?_, ?_⟩
  · rw [hidle]
    rfl
  · rw [hidle]
    show (update s.coldkeySwapDisputes who none who).isSome = false
    rw [update_self]
    rfl
  · exact fun who' hne => update_of_ne hne _ _

section Signed
variable (hs : s.Sound cfg) (hpre : preDispatch cfg.env s origin call = .ok ())
include hs hpre

theorem announceColdkeySwap_recorded (hok : announceColdkeySwap cfg s origin h = .ok s') :
    ∃ who, origin = .signed who ∧ Recorded cfg s s' who (.announced h) := by
  obtain ⟨who, rfl, hok⟩ := asSigned_eq_ok hok
  obtain ⟨rest, hfee, hok⟩ := bind_ok hok
  cases pure_ok hok
  have hallowed : Entry.Allowed cfg ⟨s.blockNumber, who, .announced h⟩ (statusAfter s.history who) ∧
      (statusAfter s.history who).isDisputed = false := by
    unfold announcementFee at hfee
    cases hannouncement : s.coldkeySwapAnnouncements who with
    | none =>
      rw [announcement_eq_none.mp ((hs.announcements who).symm.trans hannouncement)]
      exact ⟨.inl rfl, rfl⟩
    | some announcement =>
      rw [hannouncement] at hfee
      obtain ⟨a, hstatus, hwhen⟩ := hs.status_of_announcement hpre hannouncement
      rw [hstatus]
      exact ⟨.inr ⟨a, _, rfl, by unfold Config.reannouncedFrom; rw [hwhen]; exact (ensure_ok hfee).1⟩, rfl⟩
  exact ⟨who, rfl, hallowed.1, rfl, rfl, rfl, hs.undisputed hallowed.2, fun _ _ => rfl⟩

theorem swapColdkeyAnnounced_recorded (hok : swapColdkeyAnnounced cfg s origin newColdkey = .ok s') :
    ∃ who, origin = .signed who ∧ Recorded cfg s s' who (.swapped newColdkey false) := by
  obtain ⟨who, rfl, hok⟩ := asSigned_eq_ok hok
  obtain ⟨⟨when', h⟩, hannouncement, hok⟩ := okOr_ok hok
  obtain ⟨hhash, hok⟩ := ensure_ok hok
  obtain ⟨hwhen, hok⟩ := ensure_ok hok
  obtain ⟨rest, -, hok⟩ := bind_ok hok
  cases pure_ok hok
  obtain ⟨a, hstatus, rfl⟩ := hs.status_of_announcement hpre hannouncement
  refine ⟨who, rfl, ⟨a, ?_, hwhen⟩, rfl, rfl, rfl, hs.undisputed (by rw [hstatus]; rfl), fun _ _ => rfl⟩
  rw [hstatus, hhash]

theorem disputeColdkeySwap_recorded (hok : disputeColdkeySwap s origin = .ok s') :
    ∃ who, origin = .signed who ∧ Recorded cfg s s' who .disputed := by
  obtain ⟨who, rfl, hok⟩ := asSigned_eq_ok hok
  obtain ⟨hthere, hok⟩ := ensure_ok hok
  obtain ⟨-, hok⟩ := ensure_ok hok
  cases pure_ok hok
  obtain ⟨⟨when', h⟩, hannouncement⟩ := Option.isSome_iff_exists.mp hthere
  obtain ⟨a, hstatus, rfl⟩ := hs.status_of_announcement hpre hannouncement
  refine ⟨who, rfl, ⟨a, h, hstatus⟩, rfl, rfl, ?_, ?_, ?_⟩
  · -- the announcement stays as it is
    rw [hstatus]
    exact (update_eq_self_iff.mpr hannouncement.symm).symm
  · rw [hstatus]
    show (update s.coldkeySwapDisputes who (some s.blockNumber) who).isSome = true
    rw [update_self]
    rfl
  · exact fun who' hne => update_of_ne hne _ _

theorem clearColdkeySwapAnnouncement_recorded (hok : clearColdkeySwapAnnouncement cfg s origin = .ok s') :
    ∃ who, origin = .signed who ∧ Recorded cfg s s' who .cleared := by
  obtain ⟨who, rfl, hok⟩ := asSigned_eq_ok hok
  obtain ⟨⟨when', h⟩, hannouncement, hok⟩ := okOr_ok hok
  obtain ⟨hwhen, hok⟩ := ensure_ok hok
  cases pure_ok hok
  obtain ⟨a, hstatus, rfl⟩ := hs.status_of_announcement hpre hannouncement
  exact ⟨who, rfl, ⟨a, h, hstatus, hwhen⟩, rfl, rfl, rfl, hs.undisputed (by rw [hstatus]; rfl), fun _ _ => rfl⟩

/-- **What a call does to the maps**: a signed one acts on the signer's entries, and the others are root's. -/
theorem runCall_recorded (hok : runCall cfg s origin call = .ok s') :
    (∃ who action, (origin = .signed who ∨ origin = .root) ∧ Recorded cfg s s' who action) ∨
      ∃ rest, s' = { s with rest } := by
  have hsigned : ∀ action, (∃ who, origin = .signed who ∧ Recorded cfg s s' who action) →
      ∃ who action, (origin = .signed who ∨ origin = .root) ∧ Recorded cfg s s' who action := by
    rintro action ⟨who, horigin, hrecorded⟩
    exact ⟨who, action, .inl horigin, hrecorded⟩
  unfold runCall at hok
  split at hok
  · exact .inl (hsigned _ (announceColdkeySwap_recorded hs hpre hok))
  · exact .inl (hsigned _ (swapColdkeyAnnounced_recorded hs hpre hok))
  · exact .inl (hsigned _ (disputeColdkeySwap_recorded hs hpre hok))
  · exact .inl (hsigned _ (clearColdkeySwapAnnouncement_recorded hs hpre hok))
  · obtain ⟨horigin, hok⟩ := asRoot_eq_ok hok
    cases pure_ok hok
    exact .inl ⟨_, _, .inr horigin, forget_recorded _ (fun _ => trivial) fun _ => rfl⟩
  · obtain ⟨horigin, hok⟩ := asRoot_eq_ok hok
    obtain ⟨charged, -, hok⟩ := bind_ok hok
    obtain ⟨rest, -, hok⟩ := bind_ok hok
    cases pure_ok hok
    exact .inl ⟨_, _, .inr horigin, forget_recorded _ (fun _ => trivial) fun _ => rfl⟩
  · obtain ⟨rest, -, hok⟩ := bind_ok hok
    exact .inr ⟨rest, (pure_ok hok).symm⟩

theorem runCall_sound (hok : runCall cfg s origin call = .ok s') : s'.Sound cfg := by
  rcases runCall_recorded hs hpre hok with ⟨who, action, -, hrecorded⟩ | ⟨rest, rfl⟩
  · exact hrecorded.sound hs
  · exact hs.congr rfl rfl rfl (Nat.le_refl _)
end Signed

/-- The announcement of a proxy is not one of a swap. -/
theorem takeAnnouncement_eq (s : Storage A W) (delegate real : A) (call : RuntimeCall A Q) (s' : Storage A W)
    (h : cfg.env.takeAnnouncement s delegate real call = some s') : ∃ rest, s' = { s with rest } := by
  obtain ⟨rest, -, rfl⟩ := Option.map_eq_some_iff.mp h
  exact ⟨rest, rfl⟩

theorem step_sound (hs : s.Sound cfg) (input : Input A Q W) : (step cfg s input).Sound cfg := by
  cases input with
  | nextBlock => exact hs.congr rfl rfl rfl (Nat.le_succ _)
  | dispatch depth origin call =>
    refine (dispatchCall_keeps (F := fun _ => True) (P := fun _ => True) (fun _ => trivial) (fun _ _ => trivial) ?_
      (fun _ _ _ _ => trivial) ?_ depth call trivial hs).1
    · intro s delegate real call s' htake hs
      obtain ⟨rest, rfl⟩ := takeAnnouncement_eq s delegate real call s' htake
      exact hs.congr rfl rfl rfl (Nat.le_refl _)
    · intro origin call s s' _ hpre hok hs
      exact runCall_sound hs hpre hok
  | hooks rest => exact hs.congr rfl rfl rfl (Nat.le_refl _)

theorem run_sound (hs : s.Sound cfg) (inputs : List (Input A Q W)) : (run cfg s inputs).Sound cfg := by
  induction inputs generalizing s with
  | nil => exact hs
  | cons input inputs ih => exact ih (step_sound hs input)
end Sound

/-! ## Disputed accounts -/

section Disputed
variable [DecidableEq A] {cfg : Config A Q W} {s s' : Storage A W} {origin : Origin A} {who : A}
  {call : RuntimeCall A Q}

/-- The maps have the same entries for an account. -/
def SameFor (who : A) (s s' : Storage A W) : Prop :=
  s'.coldkeySwapAnnouncements who = s.coldkeySwapAnnouncements who ∧
    s'.coldkeySwapDisputes who = s.coldkeySwapDisputes who

variable (hs : s.Sound cfg) (hthere : (s.coldkeySwapAnnouncements who).isSome)
  (hdisputed : (s.coldkeySwapDisputes who).isSome)
include hs hthere hdisputed

/-- A signed call leaves a disputed account alone: the account's own calls do not get past the extension, and those of
    others change their own entries. -/
theorem runCall_sameFor (horigin : origin ≠ .root)
    (hpre : preDispatch cfg.env s origin call = .ok ()) (hok : runCall cfg s origin call = .ok s') :
    SameFor who s s' := by
  rcases runCall_recorded hs hpre hok with ⟨signer, action, rfl | hroot, hrecorded⟩ | ⟨rest, rfl⟩
  · have hne : who ≠ signer := by
      rintro rfl
      obtain ⟨hundisputed, -⟩ := free_of_preDispatch hpre who rfl hthere
      have hboth : (s.coldkeySwapDisputes who).isSome = false := hundisputed
      rw [hdisputed] at hboth
      cases hboth
    refine ⟨?_, hrecorded.other who hne⟩
    rw [hrecorded.announcements, update_of_ne hne]
  · exact absurd hroot horigin
  · exact ⟨rfl, rfl⟩

/-- Only root ends a dispute or moves the announcement of a disputed account. -/
theorem dispatchCall_sameFor (depth : Nat) (horigin : origin ≠ .root) :
    SameFor who s (dispatchCall cfg.env depth origin call s).state := by
  refine (dispatchCall_keeps (F := fun _ => True) (I := fun s' => s'.Sound cfg ∧ SameFor who s s')
    (P := fun origin => origin ≠ .root) (fun _ h => by cases h) (fun h => absurd rfl h) ?_ (fun _ _ _ _ => trivial) ?_
    depth call horigin ⟨hs, rfl, rfl⟩).1.2
  · rintro s1 delegate real call s2 htake ⟨hs1, hsame⟩
    obtain ⟨rest, rfl⟩ := takeAnnouncement_eq s1 delegate real call s2 htake
    exact ⟨hs1.congr rfl rfl rfl (Nat.le_refl _), hsame⟩
  · rintro origin call s1 s2 horigin hpre hok ⟨hs1, hsame⟩
    have hstep := runCall_sameFor hs1 (by rw [hsame.1]; exact hthere) (by rw [hsame.2]; exact hdisputed) horigin hpre
      hok
    exact ⟨runCall_sound hs1 hpre hok, hstep.1.trans hsame.1, hstep.2.trans hsame.2⟩
end Disputed

/-! ## Announced, aged and undisputed -/

section Runs
variable [DecidableEq A] {cfg : Config A Q W} {s : Storage A W}
variable {before after : List (Entry A)} {b : Nat} {who : A}

theorem Storage.Sound.swapped (hs : s.Sound cfg) {newColdkey : A}
    (hhistory : s.history = before ++ ⟨b, who, .swapped newColdkey false⟩ :: after) :
    ∃ earlier a since, before = earlier ++ ⟨a, who, .announced (cfg.hashOf newColdkey)⟩ :: since ∧
      (∀ e ∈ since, e.who ≠ who) ∧ cfg.saturatingAdd a cfg.coldkeySwapAnnouncementDelay ≤ b := by
  have hinitial : before ++ [⟨b, who, .swapped newColdkey false⟩] <+: s.history := by
    rw [hhistory]
    exact ⟨after, by simp⟩
  obtain ⟨a, hstatus, haged⟩ := hs.allowed _ _ hinitial
  obtain ⟨earlier, since, hsplit, hsince⟩ := last_of_announced hstatus
  exact ⟨earlier, a, since, hsplit, hsince, haged⟩

/-- An announcement that has not ended can only be replaced after both delays. -/
theorem Storage.Sound.reannounced (hs : s.Sound cfg) {between : List (Entry A)} {a : Nat} {h h' : Bytes}
    (hhistory : s.history = before ++ ⟨a, who, .announced h⟩ :: between ++ ⟨b, who, .announced h'⟩ :: after)
    (hends : ∀ e ∈ between, e.who = who → ¬ e.action.Ends) : cfg.reannouncedFrom a ≤ b := by
  have hinitial : (before ++ ⟨a, who, .announced h⟩ :: between) ++ [⟨b, who, .announced h'⟩] <+: s.history := by
    rw [hhistory]
    exact ⟨after, by simp⟩
  have hsorted : (before ++ ⟨a, who, .announced h⟩ :: between).Pairwise fun e e' => e.block ≤ e'.block :=
    hs.sorted.sublist (((List.prefix_append _ _).trans hinitial).sublist)
  obtain ⟨a', h'', hle, hstatus⟩ := announced_after hsorted hends
  rcases hs.allowed _ _ hinitial with hidle | ⟨a'', h''', hannounced, hlater⟩
  · rcases hstatus with hstatus | hstatus <;> rw [hstatus] at hidle <;> cases hidle
  · rcases hstatus with hstatus | hstatus <;> rw [hstatus] at hannounced <;> cases hannounced
    have hmono : cfg.reannouncedFrom a ≤ cfg.reannouncedFrom a' := by
      unfold Config.reannouncedFrom Config.saturatingAdd
      omega
    exact Nat.le_trans hmono hlater
end Runs

namespace Sample

/-- Accounts hash to one byte, and the delays are 5 and 2 blocks. -/
def config : Config Nat Unit Unit where
  hashOf who := [UInt8.ofNat who]
  maxBlock := 2 ^ 32 - 1
  coldkeySwapAnnouncementDelay := 5
  coldkeySwapReannouncementDelay := 2
  keySwapCost := 1
  chargeSwapCost rest _ _ := some rest
  doSwapColdkey rest _ _ := .ok rest
  isProxy _ _ _ := false
  takeAnnouncement _ _ _ _ := none
  derivativeAccountId _ _ := none
  batchedCallsLimit := 10
  otherBody _ _ s := .ok s.rest

def genesis : Storage Nat Unit where
  coldkeySwapAnnouncements _ := none
  coldkeySwapDisputes _ := none
  blockNumber := 1
  history := []
  rest := ()

def signed (who : Nat) (call : SubtensorCall Nat) : Input Nat Unit Unit :=
  .dispatch 1 (.signed who) (.subtensorModule call)

/-- Account 1 swaps to 9; account 2 disputes its announcement and tries to swap all the same. -/
def inputs : List (Input Nat Unit Unit) :=
  [signed 1 (.announceColdkeySwap [9]), signed 2 (.announceColdkeySwap [9]), signed 2 .disputeColdkeySwap] ++
    List.replicate 5 .nextBlock ++ [signed 2 (.swapColdkeyAnnounced 9), signed 1 (.swapColdkeyAnnounced 9)]
end Sample
open ColdkeySwap.Sample

/-- Coldkey swaps are **announced, aged and undisputed**, in every run from a storage without announcements. -/
theorem coldkey_swaps_announced (cfg : Config A Q W) [DecidableEq A] (s0 : Storage A W) (h0 : s0.Initial)
    (inputs : List (Input A Q W)) : let s := run cfg s0 inputs
    -- the last that happened to the account was the announcement of the new one, long enough before
    (∀ before after b who newColdkey, s.history = before ++ ⟨b, who, .swapped newColdkey false⟩ :: after →
      ∃ earlier a since, before = earlier ++ ⟨a, who, .announced (cfg.hashOf newColdkey)⟩ :: since ∧
        (∀ e ∈ since, e.who ≠ who) ∧ cfg.saturatingAdd a cfg.coldkeySwapAnnouncementDelay ≤ b ∧
        (b < cfg.maxBlock → a + cfg.coldkeySwapAnnouncementDelay ≤ b)) ∧
    (∀ who, (s.coldkeySwapDisputes who).isSome → (s.coldkeySwapAnnouncements who).isSome) ∧
    (∀ who, (s.coldkeySwapDisputes who).isSome → ∀ depth origin call, origin ≠ .root →
      SameFor who s (dispatchCall cfg.env depth origin call s).state) ∧
    (∀ before between after a b who h h',
      s.history = before ++ ⟨a, who, .announced h⟩ :: between ++ ⟨b, who, .announced h'⟩ :: after →
      (∀ e ∈ between, e.who = who → ¬ e.action.Ends) → cfg.reannouncedFrom a ≤ b ∧
        (b < cfg.maxBlock → a + cfg.coldkeySwapAnnouncementDelay + cfg.coldkeySwapReannouncementDelay ≤ b)) := by
  intro s
  have hs : s.Sound cfg := run_sound h0.sound inputs
  have hincluded : ∀ who, (s.coldkeySwapDisputes who).isSome → (s.coldkeySwapAnnouncements who).isSome := by
    intro who hdisputed
    rw [hs.disputes who] at hdisputed
    rw [hs.announcements who]
    cases hstatus : statusAfter s.history who with
    | disputed a h => rfl
    | idle | announced _ _ =>
      rw [hstatus] at hdisputed
      cases hdisputed
  refine ⟨?_, hincluded, ?_, ?_⟩
  · intro before after b who newColdkey hhistory
    obtain ⟨earlier, a, since, hsplit, hsince, haged⟩ := hs.swapped hhistory
    refine ⟨earlier, a, since, hsplit, hsince, haged, fun hb => ?_⟩
    unfold Config.saturatingAdd at haged
    omega
  · intro who hdisputed depth origin call horigin
    exact dispatchCall_sameFor hs (hincluded who hdisputed) hdisputed depth horigin
  · intro before between after a b who h h' hhistory hends
    have hlater := hs.reannounced hhistory hends
    refine ⟨hlater, fun hb => ?_⟩
    unfold Config.reannouncedFrom Config.saturatingAdd at hlater
    omega

/-- Only the undisputed account has swapped, and its announcement is found. -/
theorem coldkey_swaps_announced_once :
    (run config genesis inputs).history.getLast? = some ⟨6, 1, .swapped 9 false⟩ ∧
      (∃ earlier a since, (run config genesis inputs).history.dropLast =
        earlier ++ ⟨a, 1, .announced [9]⟩ :: since ∧ (∀ e ∈ since, e.who ≠ 1) ∧ a + 5 ≤ 6) := by
  refine ⟨by decide +kernel, ?_⟩
  obtain ⟨earlier, a, since, hsplit, hsince, -, haged⟩ :=
    (coldkey_swaps_announced config genesis ⟨fun _ => rfl, fun _ => rfl, rfl⟩ inputs).1
      (run config genesis inputs).history.dropLast [] 6 1 9 (by decide +kernel)
  exact ⟨earlier, a, since, hsplit, hsince, haged (by decide +kernel)⟩

/-- **The storage refines the life of an account**: its status allows each action, and the maps store it. -/
theorem storage_refines_status (cfg : Config A Q W) [DecidableEq A] {s0 : Storage A W} (h0 : s0.Initial)
    (inputs : List (Input A Q W)) : let s := run cfg s0 inputs
    (∀ before e, before ++ [e] <+: s.history → e.Allowed cfg (statusAfter before e.who)) ∧
    ∀ who, s.coldkeySwapAnnouncements who = (statusAfter s.history who).announcement cfg ∧
      (s.coldkeySwapDisputes who).isSome = (statusAfter s.history who).isDisputed := by
  have hs : (run cfg s0 inputs).Sound cfg := run_sound h0.sound inputs
  exact ⟨hs.allowed, fun who => ⟨hs.announcements who, hs.disputes who⟩⟩

/-- Four actions are allowed; the account that swapped is free again and the other one is disputed. -/
theorem storage_refines_status_once : let s := run config genesis inputs
    s.history.length = 4 ∧
      (∀ before e, before ++ [e] <+: s.history → e.Allowed config (statusAfter before e.who)) ∧
      s.coldkeySwapAnnouncements 1 = none ∧ (s.coldkeySwapDisputes 2).isSome := by
  intro s
  have h0 : genesis.Initial := ⟨fun _ => rfl, fun _ => rfl, rfl⟩
  obtain ⟨hallowed, hmaps⟩ := storage_refines_status config h0 inputs
  exact ⟨by decide +kernel, hallowed, (hmaps 1).1.trans (by decide +kernel), (hmaps 2).2.trans (by decide +kernel)⟩
end ColdkeySwap
end Qubitum
