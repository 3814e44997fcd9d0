import Qubitum.Pallet.Refusals

/-!
# `Pallet.Custody` — the money the pallet holds is the money its records account for

Two balance sheets over every run. The **escrow** of an account is the sum of the payments of its pending
requests, and so each way of closing a request finds the funds it moves. The **capital** of an account is
the sum of the records of the participants it operates, and so the fallback that would take an account's
whole hold for the bond of one participant is never taken.

The payments and the operators are those of the run's history: the chain itself stores commitments to
them only.
-/

namespace Qubitum
open Scale Outcome Ledger Tally Dense

variable {A L : Type} {w : Nat} [FixedCodec A] [DecidableEq A] {cfg : Config A L w} {U : Set Bytes} {e : Exec A L w}

/-! ## Escrow -/

/-- The pending requests that `user` opened. -/
def Exec.pendingOf (e : Exec A L w) (user : A) : List (Opening A w) :=
  e.history.openings.filter fun o => o.user = user ∧ e.state.requests.statusOf o.requestId = some .pending

omit [DecidableEq A] in
/-- What is left as the source of a refusal for want of funds, in the calls that close a request: the
    verifier's own answer, and the slash of locked capital. Cancelling and expiring have neither. -/
def Call.FundsRefused (cfg : Config A L w) (verify : ProofVerifier) (s : State L w) : Call A w → Prop
  | .submitProof submission _ minerOperator _ _
  | .challengeProof submission _ minerOperator _ _ =>
      (∃ policy, verify submission policy = .error (.token .fundsUnavailable)) ∨
        SlashRefused cfg s submission minerOperator (.token .fundsUnavailable)
  | .cancelInference .. | .expireInference .. => False
  | _ => True

variable {verify : ProofVerifier} {rule : CapitalRule A w} {r : Roster A w} {status : RegistryStatus}

omit [DecidableEq A] in
theorem ProofRefusal.fundsRefused {s : State L w} {submission : InferenceProofSubmission} {minerOperator : A}
    (h : ProofRefusal cfg verify s submission minerOperator (.token .fundsUnavailable)) :
    (∃ policy, verify submission policy = .error (.token .fundsUnavailable)) ∨
      SlashRefused cfg s submission minerOperator (.token .fundsUnavailable) := by
  rcases h with h | h
  · exact absurd rfl h.not_fundsUnavailable
  · exact h

/-- Closing a request does not fail for want of escrow. -/
theorem Invariant.fundsRefused (hx : cfg.currency.Exact) (hU : Set.InjOn cfg.blake2_256 U)
    (inv : Invariant cfg U e) {origin : Origin A} {call : Call A w} (hcall : CallHashed cfg U e.state origin call)
    (h : dispatch cfg verify e.state origin call = .error (.token .fundsUnavailable)) :
    call.FundsRefused cfg verify e.state := by
  have hacc := hcall.accounts
  have hwit := hcall.witnesses
  cases call with
  | submitProof =>
    exact (submitProof_raises hx hU inv hcall.signer (hacc _ (by simp [Call.accounts]))
      (hacc _ (by simp [Call.accounts])) (witnessesHashed_of_flatMap (fun _ _ hp => hp) hwit)
      _ h).fundsRefused
  | challengeProof =>
    exact (challengeProof_raises hx hU inv (hacc _ (by simp [Call.accounts]))
      (hacc _ (by simp [Call.accounts])) (witnessesHashed_of_flatMap (fun _ _ hp => hp) hwit)
      _ h).fundsRefused
  | cancelInference => exact (cancelInference_raises hx hU inv hcall _ h).not_fundsUnavailable rfl
  | expireInference => exact (expireInference_raises hx hU inv hcall _ h).not_fundsUnavailable rfl
  | _ => exact trivial

/-- Every stored request was opened once. -/
theorem BookSound.isSome_iff {book : RequestBook} {held : A → Nat} {openings : List (Opening A w)}
    (h : BookSound cfg book held openings) (r : RequestId) :
    (book.inferenceRequests r).isSome ↔ r ∈ openings.map Opening.requestId := by
  constructor
  · intro hsome
    rw [h.ids, mem_idsBelow]
    exact h.known r hsome
  · intro hmem
    obtain ⟨o, ho, rfl⟩ := List.mem_map.mp hmem
    obtain ⟨status, hrec⟩ := h.recorded o ho
    rw [hrec]
    rfl

/-- **The escrow is backed.** In every reachable state an account has on hold as inference payment the sum
    of the payments of its pending requests, where every stored request was opened once; and no call that
    closes a request fails for want of escrowed funds. -/
theorem escrow_backed (hx : cfg.currency.Exact) (hU : Set.InjOn cfg.blake2_256 U) (h : Reachable cfg U e) :
    (∀ user, cfg.currency.heldNat e.state.ledger .inferencePayment user =
      ((e.pendingOf user).map fun o => o.params.payment.toNat).sum) ∧
    (e.history.openings.map Opening.requestId).Nodup ∧
    (∀ r, (e.state.requests.inferenceRequests r).isSome ↔ r ∈ e.history.openings.map Opening.requestId) ∧
    ∀ verify origin call, (∀ p ∈ e.preimages cfg (.dispatch verify origin call), p ∈ U) →
      dispatch cfg verify e.state origin call = .error (.token .fundsUnavailable) →
      call.FundsRefused cfg verify e.state := by
  have inv := h.invariant hx hU
  refine ⟨?_, inv.book.nodup, inv.book.isSome_iff, ?_⟩
  · intro user
    have hsum : cfg.currency.heldNat e.state.ledger .inferencePayment user = _ := inv.book.escrow user
    rw [hsum, Exec.pendingOf, sum_filter_eq_tally]
    exact tally_congr fun o _ => by simp [RequestBook.escrowWeight]
  · intro verify origin call hashed herr
    exact inv.fundsRefused hx hU (callHashed hashed) herr

/-! ### A run on small numbers

One miner (operated by account 1) and one validator (by account 2) serve a subnet, and account 7 has
opened a request of 100. The hash is injective on what this run hashes, not in general. -/

namespace Sample

def hash (p : Bytes) : Commitment :=
  ⟨leBytes 32 (p.foldl (fun acc b => (acc * 257 + b.toNat + 1) % 2 ^ 256) 0), leBytes_length 32 _⟩

abbrev Ledger := Accounts HoldReason UInt64 64

def config : Config UInt64 Ledger 64 where
  currency := Accounts.currency
  blake2_256 := hash
  subnetCreationBurn := 5
  minerRegistrationBurn := 5
  minMinerBond := 10
  maxMinerBond := 1000
  maxActiveMinersPerSubnet := 8
  maxActiveValidatorsPerSubnet := 8
  minValidatorStake := 10
  minInvalidProofSlashBps := 100
  maxInvalidProofSlashBps := 5000
  minProofSizeBytes := 1
  maxProofSizeBytes := 1000
  maxVerificationLatencyMs := 1000
  maxProofSubmissionAgeBlocks := 10
  signatureMode := .classicalEcdsa
  identitySignatureVerifier _ _ := true
  shieldedCallPayloads := false
  privateEventMetadata := true
  shieldedOrigin _ := none
  protocolTreasury := 9
  minerExitCooldownBlocks := 10
  validatorExitCooldownBlocks := 10
  requestCancelDelayBlocks := 5

def commitment (n : UInt8) : Commitment := List.Vector.replicate 32 n

def bundle (n : UInt8) : SignatureBundle := ⟨some ⟨.ecdsa, commitment n, commitment (n + 1)⟩, none⟩

def params : AutoRouteInferenceRequestParams 64 :=
  ⟨0, commitment 40, commitment 41, commitment 42, commitment 43, 100, 500, 100⟩

/-- A call by a signed account, with a verifier that accepts every proof. -/
def signed (who : UInt64) (call : Call UInt64 64) : Action UInt64 64 :=
  .dispatch (fun _ _ => .ok .valid) (.signed who) call

def actions : List (Action UInt64 64) :=
  [signed 1 (.createSubnet .general .stark),
    signed 1 (.registerMiner 0 (commitment 50) .stark),
    signed 1 (.setMinerIdentityCommitments 0 (some (commitment 20)) none (bundle 21)),
    signed 1 (.activateMiner 0 50),
    signed 2 (.registerValidator 0 60),
    signed 2 (.setValidatorIdentityCommitments 0 (some (commitment 30)) none (bundle 31)),
    signed 7 (.requestInferenceAutoRoute 0 params),
    .advance 1]

def start : Exec UInt64 Ledger 64 := .empty ⟨fun _ _ => 0, fun _ => 1000⟩ 1

def opened : Exec UInt64 Ledger 64 := start.run config actions

/-- What the run hashes. -/
def hashed : Set Bytes := {p | p ∈ start.runPreimages config actions}

theorem hash_injOn : Set.InjOn config.blake2_256 hashed := by
  have h : ∀ p ∈ start.runPreimages config actions, ∀ q ∈ start.runPreimages config actions,
      hash p = hash q → p = q := by decide +kernel
  exact fun p hp q hq => h p hp q hq

theorem opened_reachable : Reachable config hashed opened := Reachable.run (.empty _ _ fun _ _ => rfl) fun _ hp => hp
end Sample
open Sample

theorem escrow_backed_opened :
    config.currency.heldNat opened.state.ledger .inferencePayment 7 = 100 ∧
      config.currency.heldNat opened.state.ledger .inferencePayment 7 =
        ((opened.pendingOf 7).map fun o => o.params.payment.toNat).sum :=
  ⟨by decide +kernel, (escrow_backed Accounts.currency_exact hash_injOn opened_reachable).1 7⟩

/-! ## Capital -/

omit [FixedCodec A] in
/-- The hold of an account is what the participants it operates have on record. -/
theorem Roster.Sound.held_eq (h : r.Sound rule) (who : A) :
    r.held who = ((r.operators.filter fun p => p.2 = who).map fun p => lockedAmount (r.locked p.1)).sum := by
  rw [h.backed who, sum_filter_eq_tally]
  exact tally_congr fun p _ => by simp [Roster.weight]

omit [FixedCodec A] in
/-- Capital is on record for a participant in a status that bears it, and for no other. -/
theorem Roster.Sound.locked_isSome (h : r.Sound rule) (id : UInt64) :
    (r.locked id).isSome ↔ ∃ commitment status, r.record id = some (commitment, status) ∧
      rule.bearing status = true := by
  cases hrec : r.record id with
  | none => simp [h.unlocked id hrec]
  | some p =>
    obtain ⟨commitment, status⟩ := p
    rw [(h.lockOk id commitment status hrec).present]
    constructor
    · intro hbearing
      exact ⟨commitment, status, rfl, hbearing⟩
    · rintro ⟨_, _, heq, hbearing⟩
      cases heq
      exact hbearing

theorem minerCapitalBearingStatus_iff :
    minerCapitalBearingStatus status = true ↔
      status = .active ∨ status = .slashed ∨ ∃ exitAvailableAt, status = .exiting exitAvailableAt := by
  cases status <;> simp [minerCapitalBearingStatus]

theorem validatorCapitalBearingStatus_iff :
    validatorCapitalBearingStatus status = true ↔
      status = .pending ∨ status = .active ∨ status = .slashed ∨
        ∃ exitAvailableAt, status = .exiting exitAvailableAt := by
  cases status <;> simp [validatorCapitalBearingStatus]

/-- The recorded bonds of the miners that `operator` registered. -/
def Exec.minerBondOf (e : Exec A L w) (operator : A) : Nat :=
  ((e.history.minerOperators.filter fun p => p.2 = operator).map fun p =>
    lockedAmount (e.state.registry.minerLockedBond p.1)).sum

/-- The recorded stakes of the validators that `operator` registered. -/
def Exec.validatorStakeOf (e : Exec A L w) (operator : A) : Nat :=
  ((e.history.validatorOperators.filter fun p => p.2 = operator).map fun p =>
    lockedAmount (e.state.registry.validatorLockedStake p.1)).sum

/-- `operators` names the one account that each stored participant commits to. -/
structure Operates (cfg : Config A L w) (operators : List (UInt64 × A)) (stored : UInt64 → Option Commitment) :
    Prop where
  once : (operators.map Prod.fst).Nodup
  committed : ∀ p ∈ operators, stored p.1 = some (cfg.operatorCommitment p.2)
  known : ∀ id commitment, stored id = some commitment → ∃ operator, (id, operator) ∈ operators

theorem Roster.Sound.operates {bearing : RegistryStatus → Bool} {floor : BitVec w}
    (h : r.Sound ⟨bearing, floor, cfg.operatorCommitment⟩) :
    Operates cfg r.operators fun id => (r.record id).map Prod.fst := by
  refine ⟨h.nodup, ?_, ?_⟩
  · rintro ⟨id, operator⟩ hp
    obtain ⟨status, hrec⟩ := h.record_of_operator hp
    show (r.record id).map Prod.fst = _
    rw [hrec]
    rfl
  · intro id commitment hstored
    obtain ⟨⟨_, status⟩, hrec, rfl⟩ := Option.map_eq_some_iff.mp hstored
    obtain ⟨operator, hp, _⟩ := h.operator_of_record hrec
    exact ⟨operator, hp⟩

/-- **The capital is backed.** In every reachable state an account has on hold as miner bond (validator
    stake) the sum of the records of the miners (validators) it operates; a record is present exactly for
    the statuses that bear capital, and is at least the floor of an active participant; and the capital of
    a participant, wherever it is asked for, is its record. -/
theorem capital_backed (hx : cfg.currency.Exact) (hU : Set.InjOn cfg.blake2_256 U) (h : Reachable cfg U e) :
    (∀ who, cfg.currency.heldNat e.state.ledger .minerBond who = e.minerBondOf who) ∧
    (∀ who, cfg.currency.heldNat e.state.ledger .validatorStake who = e.validatorStakeOf who) ∧
    Operates cfg e.history.minerOperators (fun m => (e.state.registry.miners m).map ChainMiner.operatorCommitment) ∧
    Operates cfg e.history.validatorOperators
      (fun v => (e.state.registry.validators v).map ChainValidator.operatorCommitment) ∧
    (∀ m, (e.state.registry.minerLockedBond m).isSome ↔
      ∃ miner, e.state.registry.miners m = some miner ∧ (miner.status = .active ∨ miner.status = .slashed ∨
        ∃ exitAvailableAt, miner.status = .exiting exitAvailableAt)) ∧
    (∀ v, (e.state.registry.validatorLockedStake v).isSome ↔
      ∃ validator, e.state.registry.validators v = some validator ∧ (validator.status = .pending ∨
        validator.status = .active ∨ validator.status = .slashed ∨
        ∃ exitAvailableAt, validator.status = .exiting exitAvailableAt)) ∧
    (∀ m miner, e.state.registry.miners m = some miner → miner.status = .active →
      ∃ bond, e.state.registry.minerLockedBond m = some bond ∧ cfg.minMinerBond ≤ bond) ∧
    (∀ v validator, e.state.registry.validators v = some validator → validator.status = .active →
      ∃ stake, e.state.registry.validatorLockedStake v = some stake ∧ cfg.minValidatorStake ≤ stake) ∧
    (∀ m operator bond, lockedMinerBond cfg e.state.registry e.state.ledger m operator = .ok bond ↔
      e.state.registry.minerLockedBond m = some bond) ∧
    ∀ v operator stake, lockedValidatorStake cfg e.state.registry e.state.ledger v operator = .ok stake ↔
      e.state.registry.validatorLockedStake v = some stake := by
  have inv := h.invariant hx hU
  refine ⟨inv.miners.held_eq, inv.validators.held_eq, ?_, ?_, ?_, ?_, ?_, ?_, ?_, ?_⟩
  · simpa [Exec.minerSide, Function.comp_def] using inv.miners.operates
  · simpa [Exec.validatorSide, Function.comp_def] using inv.validators.operates
  · intro m
    have hpresent := inv.miners.locked_isSome m
    simp only [Exec.minerSide, Option.map_eq_some_iff, Prod.mk.injEq] at hpresent
    rw [hpresent]
    constructor
    · rintro ⟨_, _, ⟨miner, hminer, rfl, rfl⟩, hbearing⟩
      exact ⟨miner, hminer, minerCapitalBearingStatus_iff.mp hbearing⟩
    · rintro ⟨miner, hminer, hstatus⟩
      exact ⟨_, _, ⟨miner, hminer, rfl, rfl⟩, minerCapitalBearingStatus_iff.mpr hstatus⟩
  · intro v
    have hpresent := inv.validators.locked_isSome v
    simp only [Exec.validatorSide, Option.map_eq_some_iff, Prod.mk.injEq] at hpresent
    rw [hpresent]
    constructor
    · rintro ⟨_, _, ⟨validator, hvalidator, rfl, rfl⟩, hbearing⟩
      exact ⟨validator, hvalidator, validatorCapitalBearingStatus_iff.mp hbearing⟩
    · rintro ⟨validator, hvalidator, hstatus⟩
      exact ⟨_, _, ⟨validator, hvalidator, rfl, rfl⟩, validatorCapitalBearingStatus_iff.mpr hstatus⟩
  · intro m miner hminer hactive
    exact (inv.minerLockOk hminer).floor_le hactive
  · intro v validator hvalidator hactive
    exact (inv.validatorLockOk hvalidator).floor_le hactive
  · intro m operator bond
    exact inv.lockedMinerBond_eq_ok
  · intro v operator stake
    exact inv.lockedValidatorStake_eq_ok

theorem capital_backed_opened :
    config.currency.heldNat opened.state.ledger .minerBond 1 = 50 ∧
      config.currency.heldNat opened.state.ledger .minerBond 1 = opened.minerBondOf 1 ∧
      config.currency.heldNat opened.state.ledger .validatorStake 2 = opened.validatorStakeOf 2 := by
  have h := capital_backed Accounts.currency_exact hash_injOn opened_reachable
  exact ⟨by decide +kernel, h.1 1, h.2.1 2⟩

/-! ## Openings -/

omit [FixedCodec A] [DecidableEq A] in
/-- **Openings are unique**: the witnesses that a record accepts state one assignment, one time and the same terms,
    whichever of the two forms they open, unless `blake2_256` has a collision among the preimages of these witnesses. -/
theorem openings_unique (hU : Set.InjOn cfg.blake2_256 U) (request : ChainInferenceRequest) :
    (Function.Injective assignmentForm ∧ Function.Injective timingForm ∧ Function.Injective (termsForm (w := w))) ∧
    (∀ m v b m' v' b' c c',
      FormsIn U assignmentForm (request.requestId, request.subnetId, m, v) b →
      FormsIn U assignmentForm (request.requestId, request.subnetId, m', v') b' →
      resolveRequestAssignmentCommitment cfg request m v b = .ok c →
      resolveRequestAssignmentCommitment cfg request m' v' b' = .ok c' → m = m' ∧ v = v') ∧
    (∀ t t' : InferenceRequestTimingWitness,
      FormsIn U timingForm (request.requestId, t.createdAt) t.blinding →
      FormsIn U timingForm (request.requestId, t'.createdAt) t'.blinding →
      ensureRequestTimingWitness cfg request t = .ok () →
      ensureRequestTimingWitness cfg request t' = .ok () → t.createdAt = t'.createdAt) ∧
    ∀ t t' : InferenceRequestTermsWitness w,
      FormsIn U termsForm (request.requestId, t.terms.payment, t.terms.validatorFeeBps, t.terms.treasuryFeeBps)
        t.blinding →
      FormsIn U termsForm (request.requestId, t'.terms.payment, t'.terms.validatorFeeBps, t'.terms.treasuryFeeBps)
        t'.blinding →
      ensureRequestTermsWitness cfg request t = .ok () →
      ensureRequestTermsWitness cfg request t' = .ok () → t.terms = t'.terms := by
  refine ⟨⟨assignmentForm_injective, timingForm_injective, termsForm_injective⟩, ?_, ?_, ?_⟩
  · intro m v b m' v' b' c c' hx hy h h'
    obtain ⟨_, h, _⟩ := bind_ok h
    obtain ⟨_, h', _⟩ := bind_ok h'
    cases fields_unique assignmentForm_injective hU hx hy h h'
    exact ⟨rfl, rfl⟩
  · intro t t' hx hy h h'
    exact congrArg Prod.snd (fields_unique timingForm_injective hU hx hy h h')
  · intro t t' hx hy h h'
    obtain ⟨_, h⟩ := ensure_ok h
    obtain ⟨_, _, h⟩ := bind_ok h
    obtain ⟨_, h'⟩ := ensure_ok h'
    obtain ⟨_, _, h'⟩ := bind_ok h'
    have hfields := fields_unique termsForm_injective hU hx hy h h'
    exact congrArg (fun x => (⟨x.2.1, x.2.2.1, x.2.2.2⟩ : InferenceRequestTerms w)) hfields

theorem openings_unique_legacy :
    let request : ChainInferenceRequest := ⟨0, commitment 1, 0, config.legacyRequestAssignmentCommitment 0 0 3 4,
      commitment 2, commitment 3, commitment 4, .pending⟩
    resolveRequestAssignmentCommitment config request 3 4 zeroCommitment = .ok request.assignmentCommitment ∧
      (3 : MinerId) = 3 ∧ (4 : ValidatorId) = 4 := by
  intro request
  have hok : resolveRequestAssignmentCommitment config request 3 4 zeroCommitment =
      .ok request.assignmentCommitment := by decide +kernel
  let U : Set Bytes := {assignmentForm ((0, 0, 3, 4), some zeroCommitment), assignmentForm ((0, 0, 3, 4), none)}
  have hU : Set.InjOn config.blake2_256 U := by
    rw [Set.injOn_pair]
    intro h
    exact absurd h (by decide +kernel)
  have hin : FormsIn U assignmentForm (0, 0, 3, 4) zeroCommitment := ⟨Set.mem_insert _ _, Set.mem_insert_of_mem _ rfl⟩
  exact ⟨hok, (openings_unique hU request).2.1 3 4 _ 3 4 _ _ _ hin hin hok hok⟩
end Qubitum
