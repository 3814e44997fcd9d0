import Mathlib.Data.FinEnum
import Mathlib.Algebra.BigOperators.Group.Finset.Basic
import Qubitum.Pallet.Custody

/-!
# `Pallet.Isolation` — one participant's capital and the others' of the same account

An account holds the capital of all its participants of one kind under one hold reason, so a withdrawal or
a slash must take no more than the participant's own part. With a record it takes the record, or a share of
it. Without one, `locked_miner_bond` and `locked_validator_stake` fall back to the *whole* hold of the
account, if no other capital-bearing participant is stored under the same commitment. An account can be
stored under two commitments, though: its role commitment and its legacy account commitment.

What the chain no longer records is given here by a function `bond`, that agrees with every record there is
and adds up to the hold of every account (`Backed`). `capital_isolated_iff` says exactly when the capital of
the others survives.
-/

namespace Qubitum
open Scale Outcome Ledger

variable {A L : Type} {w : Nat}

/-- The two kinds of participants that lock capital. -/
inductive Role where
  | miner
  | validator
  deriving DecidableEq

namespace Role

def reason : Role → HoldReason
  | .miner     => .minerBond
  | .validator => .validatorStake

def bearing : Role → RegistryStatus → Bool
  | .miner     => minerCapitalBearingStatus
  | .validator => validatorCapitalBearingStatus

/-- The operator commitment and the status a participant is stored with. -/
def entry (reg : Registry w) : Role → UInt64 → Option (Commitment × RegistryStatus)
  | .miner, id     => (reg.miners id).map fun miner => (miner.operatorCommitment, miner.status)
  | .validator, id =>
      (reg.validators id).map fun validator => (validator.operatorCommitment, validator.status)

variable {reg : Registry w}

/-- The capital recorded for a participant. -/
def record (reg : Registry w) : Role → UInt64 → Option (BitVec w)
  | .miner     => reg.minerLockedBond
  | .validator => reg.validatorLockedStake

/-- `miner_capital_record_count`, `validator_capital_record_count` -/
def capitalRecordCount (reg : Registry w) : Role → Commitment → UInt32
  | .miner     => minerCapitalRecordCount reg
  | .validator => validatorCapitalRecordCount reg
end Role

section Capital
variable [Codec A] (cfg : Config A L w)

/-- What a participant's bond contributes to the hold of account `a`. -/
def ownBond (reg : Registry w) (role : Role) (bond : UInt64 → Nat) (a : A) (id : UInt64) : Nat :=
  match role.entry reg id with
  | some (commitment, status) =>
      if cfg.operatorCommitmentMatches commitment a && role.bearing status then bond id else 0
  | none => 0

/-- The total bond of the other capital-bearing participants of account `a`. -/
def othersBond (reg : Registry w) (role : Role) (bond : UInt64 → Nat) (a : A) (id : UInt64) : Nat :=
  ∑ other ∈ Finset.univ.erase id, ownBond cfg reg role bond a other

/-- Every account has on hold the bonds of its capital-bearing participants; where there is a record, it is
    the bond. -/
structure Backed (s : State L w) (role : Role) (bond : UInt64 → Nat) : Prop where
  recorded : ∀ {id x}, role.record s.registry id = some x → bond id = x.toNat
  held : ∀ a, cfg.currency.heldNat s.ledger role.reason a = ∑ id, ownBond cfg s.registry role bond a id

/-- What is taken from a capital: all of it, or a share in basis points. -/
def takenOf (share : Option UInt16) (capital : BitVec w) : Except DispatchError (BitVec w) :=
  match share with
  | none     => .ok capital
  | some bps => proRata capital bps

/-- A successful withdrawal (no share) or slash (a share) of a participant's capital. The dispatchables that
    slash (`slash_miner`, `slash_validator`, `submit_proof`, `challenge_proof`) do it by these functions. -/
inductive Draw (s : State L w) : State L w → Role → UInt64 → A → Option UInt16 → Prop
  | withdrawMiner {s' : State L w} {origin : Origin A} {id : MinerId} {a : A}
      (hsigner : ensurePayloadSigner cfg origin = .ok a) (h : withdrawMinerBond cfg s origin id = .ok s') :
      Draw s s' .miner id a none
  | withdrawValidator {s' : State L w} {origin : Origin A} {id : ValidatorId} {a : A}
      (hsigner : ensurePayloadSigner cfg origin = .ok a) (h : withdrawValidatorStake cfg s origin id = .ok s') :
      Draw s s' .validator id a none
  | slashMiner {s' : State L w} {id : MinerId} {a : A} {bps : UInt16}
      (h : slashMinerBond cfg s id a bps = .ok s') : Draw s s' .miner id a (some bps)
  | slashValidator {s' : State L w} {id : ValidatorId} {a : A} {bps : UInt16}
      (h : slashValidatorStake cfg s id a bps = .ok s') : Draw s s' .validator id a (some bps)

/-- The capital of the others is drawn on: a missing record is replaced by the whole hold, of which more is
    taken than the participant's bond; or there is a record of a participant that bears no capital. -/
inductive Raided (s : State L w) (role : Role) (bond : UInt64 → Nat) (id : UInt64) (a : A)
    (share : Option UInt16) : Prop
  | fallback {taken : BitVec w} (hmissing : role.record s.registry id = none)
      (htaken : takenOf share (cfg.currency.balanceOnHold s.ledger role.reason a) = .ok taken)
      (hshort : bond id < taken.toNat)
  | stray {capital taken : BitVec w} {commitment : Commitment} {status : RegistryStatus}
      (hentry : role.entry s.registry id = some (commitment, status)) (hidle : role.bearing status = false)
      (hrecord : role.record s.registry id = some capital)
      (htaken : takenOf share capital = .ok taken) (hpos : 0 < taken.toNat)

/-! ## What a draw takes -/

/-- The capital a draw starts from: the record, or the whole hold of an account with one capital-bearing
    participant under the commitment. -/
inductive Source (s : State L w) (role : Role) (id : UInt64) (a : A) (commitment : Commitment)
    (status : RegistryStatus) : BitVec w → Prop
  | record {capital : BitVec w} (hrecord : role.record s.registry id = some capital) :
      Source s role id a commitment status capital
  | fallback (hmissing : role.record s.registry id = none) (hbearing : role.bearing status = true)
      (hone : role.capitalRecordCount s.registry commitment = 1) :
      Source s role id a commitment status (cfg.currency.balanceOnHold s.ledger role.reason a)

/-- What a draw does to the hold of the account. -/
structure Drawn (s s' : State L w) (role : Role) (id : UInt64) (a : A) (share : Option UInt16)
    (commitment : Commitment) (status : RegistryStatus) (capital taken : BitVec w) : Prop where
  entry : role.entry s.registry id = some (commitment, status)
  operator : cfg.operatorCommitmentMatches commitment a = true
  source : Source cfg s role id a commitment status capital
  amount : takenOf share capital = .ok taken
  le : taken.toNat ≤ capital.toNat
  held : cfg.currency.heldNat s'.ledger role.reason a + taken.toNat = cfg.currency.heldNat s.ledger role.reason a
end Capital

section Draws
variable [DecidableEq A] [Codec A] {cfg : Config A L w} {s s' : State L w} {role : Role} {bond : UInt64 → Nat}
  {id : UInt64} {a : A} {share : Option UInt16} {commitment : Commitment} {status : RegistryStatus}
  {capital taken : BitVec w}

omit [DecidableEq A] in
theorem lockedMinerBond_source {miner : ChainMiner} (hminer : s.registry.miners id = some miner)
    (h : lockedMinerBond cfg s.registry s.ledger id a = .ok capital) :
    Source cfg s .miner id a miner.operatorCommitment miner.status capital := by
  unfold lockedMinerBond at h
  split at h
  · rename_i bond hrecord
    cases h
    exact .record hrecord
  · rename_i hmissing
    obtain ⟨miner', hminer', h⟩ := okOr_ok h
    obtain rfl := Option.some.inj (hminer.symm.trans hminer')
    obtain ⟨_, _, h⟩ := bind_ok h
    obtain ⟨⟨hbearing, hone⟩, h⟩ := ensure_ok h
    obtain rfl := pure_ok h
    exact .fallback hmissing hbearing hone

omit [DecidableEq A] in
theorem lockedValidatorStake_source {validator : ChainValidator}
    (hvalidator : s.registry.validators id = some validator)
    (h : lockedValidatorStake cfg s.registry s.ledger id a = .ok capital) :
    Source cfg s .validator id a validator.operatorCommitment validator.status capital := by
  unfold lockedValidatorStake at h
  split at h
  · rename_i stake hrecord
    cases h
    exact .record hrecord
  · rename_i hmissing
    obtain ⟨validator', hvalidator', h⟩ := okOr_ok h
    obtain rfl := Option.some.inj (hvalidator.symm.trans hvalidator')
    obtain ⟨_, _, h⟩ := bind_ok h
    obtain ⟨⟨hbearing, hone⟩, h⟩ := ensure_ok h
    obtain rfl := pure_ok h
    exact .fallback hmissing hbearing hone

variable {ledger ledger' : L} {reason : HoldReason}

section
variable (hx : cfg.currency.Exact)
include hx

omit [Codec A] in
/-- A slash takes a share of the capital, and no more than the capital: `checked_sub` refuses the rest. -/
theorem slashCapital_taken {remaining : BitVec w} {bps : UInt16}
    (h : slashCapital cfg ledger reason a capital bps = .ok (ledger', remaining)) :
    ∃ taken, proRata capital bps = .ok taken ∧ taken.toNat ≤ capital.toNat ∧
      cfg.currency.heldNat ledger' reason a + taken.toNat = cfg.currency.heldNat ledger reason a := by
  obtain ⟨taken, htaken, hle, hshift, -⟩ := slashCapital_ok hx h
  have hheld := hshift.held_taken rfl a
  rw [if_pos rfl] at hheld
  exact ⟨taken, htaken, hle, hheld⟩

omit [Codec A] in
/-- A withdrawal takes the capital. -/
theorem releaseCapital_taken (h : releaseCapital cfg ledger reason a capital = .ok ledger') :
    cfg.currency.heldNat ledger' reason a + capital.toNat = cfg.currency.heldNat ledger reason a := by
  have hheld := (releaseCapital_ok hx h).1 a
  rwa [if_pos rfl] at hheld

theorem Draw.drawn (h : Draw cfg s s' role id a share) :
    ∃ commitment status capital taken, Drawn cfg s s' role id a share commitment status capital taken := by
  cases h with
  | withdrawMiner hsigner h =>
    obtain ⟨operator, hwho, h⟩ := bind_ok h
    obtain rfl := Except.ok.inj (hsigner.symm.trans hwho)
    obtain ⟨miner, hminer, h⟩ := okOr_ok h
    obtain ⟨_, hop, h⟩ := bind_ok h
    split at h
    · obtain ⟨_, h⟩ := ensure_ok h
      obtain ⟨capital, hlocked, h⟩ := bind_ok h
      obtain ⟨ledger, hrelease, hok⟩ := bind_ok h
      obtain rfl := pure_ok hok
      exact ⟨_, _, capital, capital, congrArg (Option.map _) hminer, ensure_eq_ok.mp hop,
        lockedMinerBond_source hminer hlocked, rfl, le_refl _, releaseCapital_taken hx hrelease⟩
    · cases h
  | withdrawValidator hsigner h =>
    obtain ⟨operator, hwho, h⟩ := bind_ok h
    obtain rfl := Except.ok.inj (hsigner.symm.trans hwho)
    obtain ⟨validator, hvalidator, h⟩ := okOr_ok h
    obtain ⟨_, hop, h⟩ := bind_ok h
    split at h
    · obtain ⟨_, h⟩ := ensure_ok h
      obtain ⟨capital, hlocked, h⟩ := bind_ok h
      obtain ⟨ledger, hrelease, hok⟩ := bind_ok h
      obtain rfl := pure_ok hok
      exact ⟨_, _, capital, capital, congrArg (Option.map _) hvalidator, ensure_eq_ok.mp hop,
        lockedValidatorStake_source hvalidator hlocked, rfl, le_refl _, releaseCapital_taken hx hrelease⟩
    · cases h
  | slashMiner h =>
    obtain ⟨_, h⟩ := ensure_ok h
    obtain ⟨miner, hminer, h⟩ := okOr_ok h
    obtain ⟨_, hop, h⟩ := bind_ok h
    obtain ⟨capital, hlocked, h⟩ := bind_ok h
    obtain ⟨⟨ledger, remaining⟩, hslash, hok⟩ := bind_ok h
    obtain rfl := pure_ok hok
    obtain ⟨taken, htaken, hle, hheld⟩ := slashCapital_taken hx hslash
    exact ⟨_, _, capital, taken, congrArg (Option.map _) hminer, ensure_eq_ok.mp hop,
      lockedMinerBond_source hminer hlocked, htaken, hle, hheld⟩
  | slashValidator h =>
    obtain ⟨_, h⟩ := ensure_ok h
    obtain ⟨validator, hvalidator, h⟩ := okOr_ok h
    obtain ⟨_, hop, h⟩ := bind_ok h
    obtain ⟨capital, hlocked, h⟩ := bind_ok h
    obtain ⟨⟨ledger, remaining⟩, hslash, hok⟩ := bind_ok h
    obtain rfl := pure_ok hok
    obtain ⟨taken, htaken, hle, hheld⟩ := slashCapital_taken hx hslash
    exact ⟨_, _, capital, taken, congrArg (Option.map _) hvalidator, ensure_eq_ok.mp hop,
      lockedValidatorStake_source hvalidator hlocked, htaken, hle, hheld⟩
end

/-! ## Isolation -/

omit [DecidableEq A] in
/-- The others keep their capital iff no more than the own bond is taken. -/
theorem Drawn.isolated_iff (hb : Backed cfg s role bond)
    (h : Drawn cfg s s' role id a share commitment status capital taken) :
    othersBond cfg s.registry role bond a id ≤ cfg.currency.heldNat s'.ledger role.reason a ↔
      taken.toNat ≤ if role.bearing status then bond id else 0 := by
  have hsplit := hb.held a
  rw [← Finset.add_sum_erase _ _ (Finset.mem_univ id)] at hsplit
  change _ = ownBond cfg s.registry role bond a id + othersBond cfg s.registry role bond a id at hsplit
  simp [ownBond, h.entry, h.operator] at hsplit
  have hheld := h.held
  constructor <;> intro hle <;> omega
end Draws

section Isolated
variable [DecidableEq A] [Codec A] {cfg : Config A L w} {s s' : State L w} {role : Role} {bond : UInt64 → Nat}
  {id : UInt64} {a : A} {share : Option UInt16} {commitment : Commitment} {status : RegistryStatus}

/-! ## The exact condition -/

/-- **When a draw leaves the others' capital alone**: the hold of the account still covers the bonds of its
    other participants, unless the draw raided them. -/
theorem capital_isolated_iff (hx : cfg.currency.Exact) (hb : Backed cfg s role bond)
    (h : Draw cfg s s' role id a share) :
    othersBond cfg s.registry role bond a id ≤ cfg.currency.heldNat s'.ledger role.reason a ↔
      ¬ Raided cfg s role bond id a share := by
  obtain ⟨commitment, status, capital, taken, hd⟩ := h.drawn hx
  rw [hd.isolated_iff hb]
  constructor
  · intro hle hraided
    cases hraided with
    | fallback hmissing htaken hshort =>
      cases hd.source with
      | record hrecord => cases hmissing.symm.trans hrecord
      | fallback _ hbearing _ =>
        obtain rfl := Except.ok.inj (hd.amount.symm.trans htaken)
        rw [if_pos hbearing] at hle
        omega
    | stray hentry hidle hrecord htaken hpos =>
      obtain ⟨rfl, rfl⟩ := Prod.mk.inj (Option.some.inj (hd.entry.symm.trans hentry))
      cases hd.source with
      | record hrecord' =>
        obtain rfl := Option.some.inj (hrecord.symm.trans hrecord')
        obtain rfl := Except.ok.inj (hd.amount.symm.trans htaken)
        rw [hidle, if_neg Bool.false_ne_true] at hle
        omega
      | fallback hmissing => cases hmissing.symm.trans hrecord
  · intro hsafe
    by_contra hlt
    apply hsafe
    cases hd.source with
    | record hrecord =>
      -- the record of a bearing participant covers what is taken
      by_cases hbearing : role.bearing status = true
      · rw [if_pos hbearing, hb.recorded hrecord] at hlt
        exact absurd hd.le hlt
      · rw [if_neg hbearing] at hlt
        exact .stray hd.entry (Bool.eq_false_iff.mpr hbearing) hrecord hd.amount (by omega)
    | fallback hmissing hbearing _ =>
      rw [if_pos hbearing] at hlt
      exact .fallback hmissing hd.amount (by omega)
end Isolated

/-! ### One account under two commitments

Account 1 has an active miner under its role commitment, with a recorded bond of 50, and a miner under its
legacy account commitment whose cooldown is over and whose bond of 60 has no record. -/

namespace Sample

def legacyMiner (id : MinerId) : Option ChainMiner :=
  if id = 0 then
    some ⟨0, config.operatorCommitment 1, 0, commitment 50, .stark,
      config.minerBondCommitment 0 (config.operatorCommitment 1) .active, .active⟩
  else if id = 1 then
    some ⟨1, config.accountCommitment 1, 0, commitment 50, .stark,
      config.minerBondCommitment 1 (config.accountCommitment 1) (.exiting 1), .exiting 1⟩
  else none

def legacyBond (id : MinerId) : Nat := if id = 0 then 50 else 60

/-- What the operator of each miner has on hold. -/
def legacyHeld (a : UInt64) : BitVec 64 :=
  (if config.operatorCommitmentMatches (config.operatorCommitment 1) a then 50 else 0) +
    if config.operatorCommitmentMatches (config.accountCommitment 1) a then 60 else 0

def legacy : State Ledger 64 :=
  { State.empty ⟨fun reason a => if reason = .minerBond then legacyHeld a else 0, fun _ => 1000⟩ 1 with
    registry := { Registry.empty with
      minerCount := 2
      miners := legacyMiner
      minerLockedBond := fun id => if id = 0 then some 50 else none } }

theorem legacy_ownBond_of_ne {id : MinerId} (a : UInt64) (h : id ≠ 0 ∧ id ≠ 1) :
    ownBond config legacy.registry .miner legacyBond a id = 0 := by
  have hentry : Role.entry legacy.registry .miner id = none := by
    show (legacyMiner id).map _ = none
    rw [legacyMiner, if_neg h.1, if_neg h.2, Option.map_none]
  rw [ownBond, hentry]

theorem legacy_backed : Backed config legacy .miner legacyBond where
  recorded {id x} h := by
    have h' : (if id = 0 then some 50 else none) = some x := h
    obtain ⟨rfl, hx⟩ := Option.ite_none_right_eq_some.mp h'
    cases hx
    rfl
  held a := by
    rw [Fintype.sum_eq_add 0 1 (by decide) fun id => legacy_ownBond_of_ne a]
    show (legacyHeld a).toNat =
      (if config.operatorCommitmentMatches (config.operatorCommitment 1) a && true then 50 else 0) +
        if config.operatorCommitmentMatches (config.accountCommitment 1) a && true then 60 else 0
    unfold legacyHeld
    rw [Bool.and_true, Bool.and_true]
    split_ifs <;> rfl

/-- Its active miner is the only other one. -/
theorem legacy_othersBond : othersBond config legacy.registry .miner legacyBond 1 1 = 50 := by
  rw [othersBond, Finset.sum_eq_single_of_mem 0 (Finset.mem_erase.mpr ⟨by decide, Finset.mem_univ _⟩)]
  · decide +kernel
  · intro id hid hne
    exact legacy_ownBond_of_ne 1 ⟨hne, Finset.ne_of_mem_erase hid⟩
end Sample
open Sample

theorem capital_isolated_slashed :
    ∃ s', Draw config legacy s' .miner 0 1 (some 1000) ∧
      othersBond config legacy.registry .miner legacyBond 1 0 ≤ config.currency.heldNat s'.ledger .minerBond 1 := by
  have h : (slashMinerBond config legacy 0 1 1000).map
      (config.currency.heldNat ·.ledger .minerBond 1) = .ok 105 := by decide +kernel
  obtain ⟨s', hok, _⟩ := map_eq_ok.mp h
  refine ⟨s', .slashMiner hok, (capital_isolated_iff Accounts.currency_exact legacy_backed (.slashMiner hok)).mpr ?_⟩
  intro hraided
  cases hraided with
  | fallback hmissing => cases hmissing
  | stray hentry hidle =>
    cases hentry
    cases hidle

/-- **A withdrawal takes another miner's bond**: the whole hold of 110 is released, and the recorded bond of
    the active miner is backed by nothing. -/
theorem capital_raided :
    Backed config legacy .miner legacyBond ∧
      othersBond config legacy.registry .miner legacyBond 1 1 = 50 ∧
      ∃ s', withdrawMinerBond config legacy (.signed 1) 1 = .ok s' ∧
        config.currency.heldNat s'.ledger .minerBond 1 = 0 := by
  refine ⟨legacy_backed, legacy_othersBond, ?_⟩
  have h : (withdrawMinerBond config legacy (.signed 1) 1).map
      (config.currency.heldNat ·.ledger .minerBond 1) = .ok 0 := by decide +kernel
  obtain ⟨s', hok, hheld⟩ := map_eq_ok.mp h
  exact ⟨s', hok, hheld⟩
end Qubitum
