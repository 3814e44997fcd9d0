import Qubitum.Pallet.Overflow
import Qubitum.Pallet.Frames

/-!
# `Pallet.Slashing` — which capital can be slashed

A slash computes its amount with `pro_rata`. The bond of a miner is at most `MaxMinerBond` in every reachable state
(`Reachable.bond_le`), so in the runtime's `u64` its product with any admissible percentage fits. The stake of a
validator has a floor only; a stake whose product does not fit cannot be slashed, and a proof that the verifier finds
invalid cannot be rejected.
-/

namespace Qubitum
open Scale Outcome Ledger Tally Dense Function

variable {A L : Type} [FixedCodec A] [DecidableEq A] {cfg : Config A L 64} {U : Set Bytes} {e : Exec A L 64}
  {slashBps : UInt16} {operator : A}

/-- The constants of the runtime that capital and slashes are subject to. -/
structure RuntimeCapital (cfg : Config A L 64) : Prop where
  minMinerBond : cfg.minMinerBond = 100000000000
  maxMinerBond : cfg.maxMinerBond = 10000000000000
  minValidatorStake : cfg.minValidatorStake = 100000000000
  minSlash : cfg.minInvalidProofSlashBps = 1000
  maxSlash : cfg.maxInvalidProofSlashBps = 10000

/-! ## Burning a share of a record -/

/-- The share of a record was burned from the hold of its operator and taken off the record. -/
structure SlashedExactly (cfg : Config A L 64) (ledger ledger' : L) (reason : HoldReason) (operator : A)
    (record : BitVec 64) (slashBps : UInt16) (left : Option (BitVec 64)) : Prop where
  held : ∀ a, cfg.currency.heldNat ledger' reason a +
    (if operator = a then record.toNat * slashBps.toNat / 10000 else 0) = cfg.currency.heldNat ledger reason a
  left : ∃ remaining, left = some remaining ∧ remaining.toNat = record.toNat - record.toNat * slashBps.toNat / 10000

variable {minerId : MinerId} {s : State L 64} {status : InferenceRequestStatus} {validatorId : ValidatorId}
variable {ledger : L} {reason : HoldReason} {current : BitVec 64} {s' : State L 64} {o : Opening A 64}
variable (hx : cfg.currency.Exact) (hpays : cfg.currency.Pays) (hU : Set.InjOn cfg.blake2_256 U)
  (inv : Invariant cfg U e) (hmin : cfg.minInvalidProofSlashBps ≤ slashBps)
  (hmax : slashBps ≤ cfg.maxInvalidProofSlashBps) (hbps : slashBps ≤ 10000)

omit [FixedCodec A] in
include hx hpays in
theorem slashCapital_succeeds (hheld : current.toNat ≤ cfg.currency.heldNat ledger reason operator)
    (hfits : current.toNat * slashBps.toNat < 2 ^ 64) (hbps : slashBps ≤ 10000) :
    ∃ ledger' remaining, slashCapital cfg ledger reason operator current slashBps = .ok (ledger', remaining) ∧
      SlashedExactly cfg ledger ledger' reason operator current slashBps (some remaining) := by
  obtain ⟨amount, hamount, hvalue⟩ := proRata_succeeds (by decide) hfits
  have hle : amount.toNat ≤ current.toNat := by
    have hmul := Nat.mul_le_mul_left current.toNat (UInt16.le_iff_toNat_le.mp hbps)
    have hten : (10000 : UInt16).toNat = 10000 := rfl
    rw [hten] at hmul
    omega
  obtain ⟨⟨burned, ledger'⟩, hburn⟩ := hpays.burnHeld (Nat.le_trans hle hheld)
  obtain ⟨rfl, hshift⟩ := hx.burnHeld hburn
  have hsub : Checked.sub current burned = some (current - burned) := if_pos hle
  have hrest := Checked.sub_eq_some hsub
  refine ⟨ledger', current - burned, ?_, ?_, _, rfl, by omega⟩
  · refine bind_eq_ok.mpr ⟨_, hamount, bind_eq_ok.mpr ⟨_, mapError_eq_ok.mpr hburn, ?_⟩⟩
    exact okOr_bind_eq_ok.mpr ⟨_, hsub, rfl⟩
  · intro a
    rw [← hvalue]
    exact hshift.held_taken rfl a

/-! ## Slashing a participant -/

omit [FixedCodec A] in
/-- What a participant has on record is on hold for the account that registered it. -/
theorem Roster.Sound.locked_le {rule : CapitalRule A 64} {r : Roster A 64} (h : r.Sound rule) {id : UInt64} {who : A}
    {amount : BitVec 64} (hp : (id, who) ∈ r.operators) (hlock : r.locked id = some amount) :
    amount.toNat ≤ r.held who := by
  have hle := h.backed.weight_le hp who
  simpa [Roster.weight, hlock] using hle

include inv in
theorem Invariant.miner_of_operator (hp : (minerId, operator) ∈ e.history.minerOperators) :
    ∃ miner, e.state.registry.miners minerId = some miner ∧ ensureMinerOperator cfg miner operator = .ok () := by
  obtain ⟨status, hrec⟩ := inv.miners.record_of_operator hp
  obtain ⟨miner, hminer, heq⟩ := Option.map_eq_some_iff.mp hrec
  refine ⟨miner, hminer, ensure_eq_ok.mpr ?_⟩
  have hcommitment : miner.operatorCommitment = cfg.operatorCommitment operator := congrArg Prod.fst heq
  simp [Config.operatorCommitmentMatches, hcommitment]

include inv in
theorem Invariant.validator_of_operator (hp : (validatorId, operator) ∈ e.history.validatorOperators) :
    ∃ validator, e.state.registry.validators validatorId = some validator ∧
      ensureValidatorOperator cfg validator operator = .ok () := by
  obtain ⟨status, hrec⟩ := inv.validators.record_of_operator hp
  obtain ⟨validator, hvalidator, heq⟩ := Option.map_eq_some_iff.mp hrec
  refine ⟨validator, hvalidator, ensure_eq_ok.mpr ?_⟩
  have hcommitment : validator.operatorCommitment = cfg.operatorCommitment operator := congrArg Prod.fst heq
  simp [Config.operatorCommitmentMatches, hcommitment]

section Participants
include hx hpays inv hmin hmax hbps

/-- A bond whose product fits is slashed. -/
theorem slashMinerBond_succeeds {minerId : MinerId} {bond : BitVec 64}
    (hp : (minerId, operator) ∈ e.history.minerOperators) (hlock : e.state.registry.minerLockedBond minerId = some bond)
    (hfits : bond.toNat * slashBps.toNat < 2 ^ 64) :
    ∃ s', slashMinerBond cfg e.state minerId operator slashBps = .ok s' ∧
      SlashedExactly cfg e.state.ledger s'.ledger .minerBond operator bond slashBps
        (s'.registry.minerLockedBond minerId) := by
  obtain ⟨miner, hminer, hop⟩ := inv.miner_of_operator hp
  obtain ⟨ledger, remaining, hslash, hexact⟩ :=
    slashCapital_succeeds hx hpays (inv.miners.locked_le hp hlock) hfits hbps
  refine ⟨_, ensure_bind_eq_ok.mpr ⟨⟨hmin, hmax⟩, okOr_bind_eq_ok.mpr ⟨miner, hminer, bind_eq_ok.mpr ⟨(), hop,
    bind_eq_ok.mpr ⟨bond, inv.lockedMinerBond_eq_ok.mpr hlock, bind_eq_ok.mpr ⟨_, hslash, rfl⟩⟩⟩⟩⟩, ?_⟩
  refine ⟨hexact.held, ?_⟩
  show ∃ x, update e.state.registry.minerLockedBond minerId (some remaining) minerId = some x ∧ _
  rw [update_self]
  exact hexact.left

variable {stake : BitVec 64} (hp : (validatorId, operator) ∈ e.history.validatorOperators)
  (hlock : e.state.registry.validatorLockedStake validatorId = some stake)
include hp hlock

/-- A stake whose product fits is slashed. -/
theorem slashValidatorStake_succeeds (hfits : stake.toNat * slashBps.toNat < 2 ^ 64) :
    ∃ s', slashValidatorStake cfg e.state validatorId operator slashBps = .ok s' ∧
      SlashedExactly cfg e.state.ledger s'.ledger .validatorStake operator stake slashBps
        (s'.registry.validatorLockedStake validatorId) := by
  obtain ⟨validator, hvalidator, hop⟩ := inv.validator_of_operator hp
  obtain ⟨ledger, remaining, hslash, hexact⟩ :=
    slashCapital_succeeds hx hpays (inv.validators.locked_le hp hlock) hfits hbps
  refine ⟨_, ensure_bind_eq_ok.mpr ⟨⟨hmin, hmax⟩, okOr_bind_eq_ok.mpr ⟨validator, hvalidator, bind_eq_ok.mpr ⟨(), hop,
    bind_eq_ok.mpr ⟨stake, inv.lockedValidatorStake_eq_ok.mpr hlock, bind_eq_ok.mpr ⟨_, hslash, rfl⟩⟩⟩⟩⟩, ?_⟩
  refine ⟨hexact.held, ?_⟩
  show ∃ x, update e.state.registry.validatorLockedStake validatorId (some remaining) validatorId = some x ∧ _
  rw [update_self]
  exact hexact.left

omit hx hpays hbps in
/-- A stake whose product does not fit is not. -/
theorem slashValidatorStake_overflows (hfits : ¬ stake.toNat * slashBps.toNat < 2 ^ 64) :
    slashValidatorStake cfg e.state validatorId operator slashBps = .error (.module .arithmeticOverflow) := by
  obtain ⟨validator, hvalidator, hop⟩ := inv.validator_of_operator hp
  have hbounds : ensure (cfg.minInvalidProofSlashBps ≤ slashBps ∧ slashBps ≤ cfg.maxInvalidProofSlashBps)
      (DispatchError.module .invalidSlashPercent) = .ok () := ensure_eq_ok.mpr ⟨hmin, hmax⟩
  have hlocked : lockedValidatorStake cfg e.state.registry e.state.ledger validatorId operator = .ok stake :=
    inv.lockedValidatorStake_eq_ok.mpr hlock
  unfold slashValidatorStake
  rw [hbounds, hvalidator]
  show (ensureValidatorOperator cfg validator operator >>= _) = _
  rw [hop]
  show (lockedValidatorStake cfg e.state.registry e.state.ledger validatorId operator >>= _) = _
  rw [hlocked]
  show (slashCapital cfg e.state.ledger .validatorStake operator stake slashBps >>= _) = _
  unfold slashCapital
  rw [proRata_eq (by decide), if_neg hfits]
  rfl
end Participants

/-! ## Bonds are bounded -/

/-- No recorded bond is above the maximum. -/
def BondsBounded (cfg : Config A L 64) (s : State L 64) : Prop :=
  ∀ id bond, s.registry.minerLockedBond id = some bond → bond ≤ cfg.maxMinerBond

section
omit [FixedCodec A] [DecidableEq A]

theorem BondsBounded.congr (h : BondsBounded cfg s)
    (heq : s'.registry.minerLockedBond = s.registry.minerLockedBond) : BondsBounded cfg s' := by
  intro id bond hlock
  exact h id bond (heq ▸ hlock)

theorem BondsBounded.update (h : BondsBounded cfg s) {lock : Option (BitVec 64)}
    (heq : s'.registry.minerLockedBond = update s.registry.minerLockedBond minerId lock)
    (hlock : ∀ bond, lock = some bond → bond ≤ cfg.maxMinerBond) : BondsBounded cfg s' := by
  intro id bond hbond
  rw [heq] at hbond
  by_cases hid : id = minerId
  · rw [hid, update_self] at hbond
    exact hlock bond hbond
  · rw [update_of_ne hid] at hbond
    exact h id bond hbond
end

theorem slashMinerBond_bounded (inv : Invariant cfg U e) (hb : BondsBounded cfg e.state) :
    Yields (BondsBounded cfg) (slashMinerBond cfg e.state minerId operator slashBps) := by
  intro s' h
  obtain ⟨_, h⟩ := ensure_ok h
  obtain ⟨miner, _, h⟩ := okOr_ok h
  obtain ⟨_, _, h⟩ := bind_ok h
  obtain ⟨current, hlocked, h⟩ := bind_ok h
  obtain ⟨⟨ledger, remaining⟩, hslash, hok⟩ := bind_ok h
  obtain ⟨_, _, hslash⟩ := bind_ok hslash
  obtain ⟨⟨burned, _⟩, _, hslash⟩ := bind_ok hslash
  obtain ⟨rest, hsub, hrest⟩ := okOr_ok hslash
  cases hrest
  obtain rfl := pure_ok hok
  -- the bond is the recorded one, and what is left of it is less
  have hcurrent := hb minerId current (inv.lockedMinerBond_eq_ok.mp hlocked)
  have hleft := Checked.sub_eq_some hsub
  refine hb.update rfl fun bond hbond => ?_
  cases hbond
  rw [BitVec.le_def] at hcurrent ⊢
  omega

omit [FixedCodec A] [DecidableEq A] in
theorem slashValidatorStake_bounded [Codec A] {cfg : Config A L 64} (hb : BondsBounded cfg s) :
    Yields (BondsBounded cfg) (slashValidatorStake cfg s validatorId operator slashBps) := by
  simp only [slashValidatorStake, yields_bind, yields_pure]
  iterate 5 refine .of_forall fun _ => ?_
  exact hb.congr rfl

theorem dispatch_bounded (inv : Invariant cfg U e) (hb : BondsBounded cfg e.state) (verify : ProofVerifier)
    (origin : Origin A) (call : Call A 64) : Yields (BondsBounded cfg) (dispatch cfg verify e.state origin call) := by
  refine dispatch_registry (J := fun reg => ∀ id bond, reg.minerLockedBond id = some bond → bond ≤ cfg.maxMinerBond)
    hb (fun _ _ _ => slashMinerBond_bounded inv hb) (fun _ h _ _ _ => slashValidatorStake_bounded h) fun hown => ?_
  cases call with
  | activateMiner =>
    -- only an activation writes a new bond, and checks it against the maximum
    intro s' h
    obtain ⟨_, _, h⟩ := bind_ok h
    obtain ⟨_, _, h⟩ := okOr_ok h
    obtain ⟨_, _, h⟩ := bind_ok h
    obtain ⟨_, h⟩ := ensure_ok h
    obtain ⟨_, h⟩ := ensure_ok h
    obtain ⟨⟨_, hmax⟩, h⟩ := ensure_ok h
    iterate 3 obtain ⟨_, _, h⟩ := bind_ok h
    obtain rfl := pure_ok h
    refine hb.update rfl fun bond' hbond' => ?_
    cases hbond'
    exact hmax
  | withdrawMinerBond =>
    simp only [dispatch, withdrawMinerBond, yields_bind]
    refine .of_forall fun _ => .of_forall fun miner => .of_forall fun _ => ?_
    cases miner.status with
    | exiting =>
      simp only [yields_bind, yields_pure]
      iterate 3 refine .of_forall fun _ => ?_
      exact hb.update rfl fun bond hbond => by cases hbond
    | _ => exact yields_error
  | withdrawValidatorStake =>
    simp only [dispatch, withdrawValidatorStake, yields_bind]
    refine .of_forall fun _ => .of_forall fun validator => .of_forall fun _ => ?_
    cases validator.status with
    | exiting =>
      simp only [yields_bind, yields_pure]
      iterate 3 refine .of_forall fun _ => ?_
      exact hb.congr rfl
    | _ => exact yields_error
  | setMinerIdentityCommitments =>
    simp only [dispatch, setMinerIdentityCommitments, yields_bind]
    iterate 6 refine .of_forall fun _ => ?_
    simp only [yields_ite, yields_bind, yields_pure]
    refine ⟨fun _ => .of_forall fun _ => ⟨fun _ => .of_forall fun _ => .of_forall fun _ => ?_, fun _ => ?_⟩,
      fun _ => .of_forall fun _ => ?_⟩
    all_goals exact hb.congr rfl
  | setValidatorIdentityCommitments =>
    simp only [dispatch, setValidatorIdentityCommitments, yields_bind]
    iterate 6 refine .of_forall fun _ => ?_
    simp only [yields_ite, yields_bind, yields_pure]
    refine ⟨fun _ => .of_forall fun _ => ⟨fun _ => .of_forall fun _ => .of_forall fun _ => .of_forall fun _ => ?_,
      fun _ => .of_forall fun _ => .of_forall fun _ => ?_⟩, fun _ => .of_forall fun _ => ?_⟩
    · exact hb.congr rfl
    · exact hb.congr rfl
    · refine hb.congr ?_
      split_ifs <;> rfl
  | createSubnet | registerMiner | registerValidator | deactivateMiner | deactivateValidator =>
    simp only [dispatch, createSubnet, registerMiner, registerValidator, deactivateMiner, deactivateValidator,
      nextSubnetId, nextMinerId, nextValidatorId, burnFree, yields_bind, yields_pure]
    repeat refine .of_forall fun _ => ?_
    exact hb.congr rfl
  | _ => exact hown.elim

include hx hU in
/-- **In every reachable state no bond is above the maximum.** -/
theorem Reachable.bond_le (h : Reachable cfg U e) :
    BondsBounded cfg e.state := by
  induction h with
  | empty ledger blockNumber _ => exact fun _ _ hlock => by cases hlock
  | @step e action _ hreach ih =>
    cases action with
    | advance blocks => exact ih.congr rfl
    | dispatch verify origin call =>
      cases hdispatch : dispatch cfg verify e.state origin call with
      | error err =>
        rw [Exec.step_of_error hdispatch]
        exact ih
      | ok s' =>
        rw [Exec.step_of_ok hdispatch]
        exact dispatch_bounded (hreach.invariant hx hU) ih verify origin call s' hdispatch
  | outside ledger _ _ ih => exact ih.congr rfl

/-! ## Rejecting a proof -/

theorem incrementStatus_raises {P : DispatchError → Prop} {counts : RequestStatusCounts}
    (h : (counts.get status).toNat + 1 < 2 ^ 64) : Raises P (counts.tryMutate incrementRequestCount status) := by
  have key : ∀ {c : RequestId}, c.toNat + 1 < 2 ^ 64 → Raises P (incrementRequestCount c) := by
    intro c hc
    have hadd : Checked.add64 c 1 = some (c + 1) := if_pos hc
    unfold incrementRequestCount
    rw [hadd]
    exact raises_ok
  cases status <;> exact raises_bind (key h) fun _ _ => raises_pure

section
variable (ho : o ∈ e.history.openings) (hp : e.state.requests.statusOf o.requestId = some .pending)
include inv ho hp

/-- A counter of requests leaves room for one that is pending. -/
theorem Invariant.statusCount_lt (hne : status ≠ .pending) :
    (e.state.requests.statusCounts.get status).toNat + 1 < 2 ^ 64 := by
  have hcount : (e.state.requests.statusCounts.get status).toNat = _ := inv.book.statusCount status
  have hzero : e.state.requests.statusWeight status o = 0 := by
    unfold RequestBook.statusWeight
    rw [hp, if_neg fun heq => hne (Option.some.inj heq).symm]
  -- each opening weighs at most one, and this one nothing
  have hlt : tally (e.state.requests.statusWeight status) e.history.openings < e.history.openings.length := by
    have hlength : tally (fun _ : Opening A 64 => 1) e.history.openings = e.history.openings.length := by
      simp [tally]
    rw [← hlength]
    refine List.sum_lt_sum _ _ (fun x _ => ?_) ⟨o, ho, by rw [hzero]; exact Nat.one_pos⟩
    unfold RequestBook.statusWeight
    split_ifs <;> decide
  have hids : e.history.openings.length = e.state.requests.requestCount.toNat := by
    have hmap := congrArg List.length inv.book.ids
    rwa [List.length_map, idsBelow_length] at hmap
  have hbound := e.state.requests.requestCount.toNat_lt
  omega

/-- **A pending request can be closed.** -/
theorem Invariant.close_succeeds (request : ChainInferenceRequest) (hne : status ≠ .pending) :
    ∃ book, e.state.requests.close o.requestId request o.minerId o.validatorId status = .ok book := by
  refine exists_ok (inv.close_raises_of ho hp fun counts hcounts => incrementStatus_raises ?_)
  -- taking one off the pending counter leaves the other counters alone
  have hsame : (e.state.requests.statusCounts.get status).toNat =
      (counts.get status).toNat + if status = .pending then 1 else 0 := decrementStatus_ok hcounts status
  have hroom := inv.statusCount_lt ho hp hne
  omega
end

/-- What a refund of a rejected request does. -/
structure Refunded (cfg : Config A L 64) (s s' : State L 64) (requestId : RequestId) (user : A) (payment : BitVec 64) :
    Prop where
  status : s'.requests.statusOf requestId = some .rejected
  free : cfg.currency.freeNat s'.ledger user = cfg.currency.freeNat s.ledger user + payment.toNat
  registry : s'.registry = s.registry
  held : ∀ reason, reason ≠ .inferencePayment → ∀ a,
    cfg.currency.heldNat s'.ledger reason a = cfg.currency.heldNat s.ledger reason a

include hx hpays hU inv in
/-- **A request whose witnesses are accepted is refunded.** -/
theorem refundRejectedRequest_succeeds {submission : InferenceProofSubmission}
    {requestUser : A} {assignmentBlinding : Commitment} {termsWitness : InferenceRequestTermsWitness 64}
    (hacc : AccountIn U requestUser)
    (hwit : SubmissionHashed U e.state submission assignmentBlinding termsWitness)
    (hrefundable : ensureRejectedRequestRefundable cfg e.state submission requestUser assignmentBlinding termsWitness =
      .ok ())
    (hroom : cfg.currency.freeNat e.state.ledger requestUser + termsWitness.terms.payment.toNat < 2 ^ 64) :
    ∃ s', refundRejectedRequest cfg e.state submission requestUser assignmentBlinding termsWitness = .ok s' ∧
      Refunded cfg e.state s' submission.requestId requestUser termsWitness.terms.payment := by
  obtain ⟨request, hr, hwitnesses⟩ := okOr_ok hrefundable
  have hall := hwitnesses
  obtain ⟨hpending, hwitnesses⟩ := ensure_ok hwitnesses
  obtain ⟨_, hwitnesses⟩ := ensure_ok hwitnesses
  obtain ⟨_, hassign, hwitnesses⟩ := bind_ok hwitnesses
  obtain ⟨_, huser, hterms⟩ := bind_ok hwitnesses
  obtain ⟨o, ho, hid, _, rfl, hm, hv, hpay⟩ := inv.opening_of_witnesses hU hr hacc (hwit _ hr) huser hassign hterms
  have hp : e.state.requests.statusOf o.requestId = some .pending := by
    simp [RequestBook.statusOf, hid, hr, hpending]
  have hescrow := inv.payment_le_escrow ho hp
  rw [← hpay] at hescrow
  obtain ⟨ledger, hrelease⟩ := hpays.release hescrow hroom
  obtain ⟨book, hclose⟩ := inv.close_succeeds ho hp request (show InferenceRequestStatus.rejected ≠ .pending by decide)
  rw [← hm, ← hv, hid] at hclose
  obtain ⟨miners, validators, mid, counts, -, -, -, -, rfl⟩ := RequestBook.close_ok (by decide) hclose
  have hshift := hx.release hrelease
  refine ⟨_, okOr_bind_eq_ok.mpr ⟨request, hr, bind_eq_ok.mpr ⟨(), hall, bind_eq_ok.mpr ⟨ledger,
    mapError_eq_ok.mpr hrelease, bind_eq_ok.mpr ⟨_, hclose, rfl⟩⟩⟩⟩, ?_, ?_, rfl, ?_⟩
  · simp [RequestBook.statusOf]
  · have hself := hshift.free o.user
    simp only [Delta.release, Delta.freeAt, if_true] at hself
    show cfg.currency.freeNat ledger o.user = _
    omega
  · intro reason hne a
    exact hshift.held_of_ne rfl a hne

/-- What the rejection of a proof does: both participants are slashed and the user is refunded. -/
structure Rejected (cfg : Config A L 64) (s s' : State L 64) (submission : InferenceProofSubmission)
    (minerOperator validatorOperator requestUser : A) (bond stake payment : BitVec 64) (slashBps : UInt16) : Prop where
  miner : SlashedExactly cfg s.ledger s'.ledger .minerBond minerOperator bond slashBps
    (s'.registry.minerLockedBond submission.minerId)
  validator : SlashedExactly cfg s.ledger s'.ledger .validatorStake validatorOperator stake slashBps
    (s'.registry.validatorLockedStake submission.validatorId)
  status : s'.requests.statusOf submission.requestId = some .rejected
  free : cfg.currency.freeNat s'.ledger requestUser = cfg.currency.freeNat s.ledger requestUser + payment.toNat

/-- A proof that the verifier found invalid, in a submission that is otherwise in order. -/
structure InvalidProof (cfg : Config A L 64) (U : Set Bytes) (verify : ProofVerifier) (s : State L 64)
    (origin : Origin A) (submission : InferenceProofSubmission) (requestUser minerOperator validatorOperator : A)
    (assignmentBlinding : Commitment) (termsWitness : InferenceRequestTermsWitness 64) (slashBps : UInt16) :
    Prop where
  hashed : CallHashed cfg U s origin (.submitProof submission requestUser minerOperator assignmentBlinding termsWitness)
  signed : ensurePayloadSigner cfg origin = .ok validatorOperator
  invalid : ∃ policy, validateSubmission cfg s submission validatorOperator minerOperator assignmentBlinding =
    .ok policy ∧ verify submission policy = .ok (.invalid slashBps)
  refundable : ensureRejectedRequestRefundable cfg s submission requestUser assignmentBlinding termsWitness = .ok ()
  room : cfg.currency.freeNat s.ledger requestUser + termsWitness.terms.payment.toNat < 2 ^ 64

section Rejecting
variable {verify : ProofVerifier} {origin : Origin A} {submission : InferenceProofSubmission}
  {requestUser minerOperator validatorOperator : A} {assignmentBlinding : Commitment}
  {termsWitness : InferenceRequestTermsWitness 64} {bond stake : BitVec 64}

include hU inv in
/-- Validation leaves an active miner and an active validator, and the accounts that registered them. -/
theorem InvalidProof.parties
    (h : InvalidProof cfg U verify e.state origin submission requestUser minerOperator validatorOperator
      assignmentBlinding termsWitness slashBps) :
    (submission.minerId, minerOperator) ∈ e.history.minerOperators ∧
      (submission.validatorId, validatorOperator) ∈ e.history.validatorOperators := by
  obtain ⟨policy, hvalidate, _⟩ := h.invalid
  obtain ⟨miner, validator, hminer, hvalidator, -, hminerOp, hvalidatorOp⟩ := validateSubmission_parties hvalidate
  have haccount := h.hashed.accounts minerOperator (by simp [Call.accounts])
  exact ⟨(inv.minerOperator hU haccount hminer (ensure_eq_ok.mpr hminerOp)).1,
    (inv.validatorOperator hU (h.hashed.signer _ h.signed) hvalidator hvalidatorOp).1⟩

include hx hU inv in
/-- The state after the miner was slashed is one in which the validator is what it was. -/
theorem slashMinerBond_leaves {minerId : MinerId} {s1 : State L 64} (haccount : AccountIn U minerOperator)
    (hslash : slashMinerBond cfg e.state minerId minerOperator slashBps = .ok s1) :
    s1.registry.validatorLockedStake = e.state.registry.validatorLockedStake ∧
      ∀ a, cfg.currency.heldNat s1.ledger .validatorStake a = cfg.currency.heldNat e.state.ledger .validatorStake a := by
  obtain ⟨-, hvalidators, -⟩ := slashMinerBond_ok hx hU inv haccount hslash
  have hheld := congrArg (fun p => p.held) hvalidators
  exact ⟨congrArg (fun p => p.locked) hvalidators, congrFun hheld⟩

variable (h : InvalidProof cfg U verify e.state origin submission requestUser minerOperator validatorOperator
    assignmentBlinding termsWitness slashBps)
  (hbond : e.state.registry.minerLockedBond submission.minerId = some bond)
  (hstake : e.state.registry.validatorLockedStake submission.validatorId = some stake)
  (hfits : bond.toNat * slashBps.toNat < 2 ^ 64)
include hx hpays hU inv hmin hmax hbps h hbond hstake hfits

/-- **An invalid proof is rejected** if both products fit. -/
theorem submitProof_rejects (hfits' : stake.toNat * slashBps.toNat < 2 ^ 64) :
    ∃ s', submitProof cfg verify e.state origin submission requestUser minerOperator assignmentBlinding termsWitness =
        .ok s' ∧
      Rejected cfg e.state s' submission minerOperator validatorOperator requestUser bond stake
        termsWitness.terms.payment slashBps := by
  obtain ⟨hminer, hvalidator⟩ := h.parties hU inv
  have huserH := h.hashed.accounts requestUser (by simp [Call.accounts])
  have hminerH := h.hashed.accounts minerOperator (by simp [Call.accounts])
  have hwit : SubmissionHashed U e.state submission assignmentBlinding termsWitness :=
    witnessesHashed_of_flatMap (fun _ _ hp => hp) h.hashed.witnesses
  -- the three steps, each in the state the one before it leaves
  obtain ⟨s1, hslash1, hexact1⟩ := slashMinerBond_succeeds hx hpays inv hmin hmax hbps hminer hbond hfits
  obtain ⟨inv1, hleaves1⟩ := slashMinerBond_keeps hx hU inv hminerH hslash1
  obtain ⟨hlocked1, hheld1⟩ := slashMinerBond_leaves hx hU inv hminerH hslash1
  have hstake1 : s1.registry.validatorLockedStake submission.validatorId = some stake := by
    rw [hlocked1]
    exact hstake
  obtain ⟨s2, hslash2, hexact2⟩ :=
    slashValidatorStake_succeeds (e := ⟨s1, e.history⟩) hx hpays inv1 hmin hmax hbps hvalidator hstake1 hfits'
  have hsignerH := h.hashed.signer _ h.signed
  obtain ⟨inv2, hleaves2⟩ := slashValidatorStake_keeps (e := ⟨s1, e.history⟩) hx hU inv1 hsignerH hslash2
  obtain ⟨-, hminers2, -⟩ := slashValidatorStake_ok (e := ⟨s1, e.history⟩) hx hU inv1 hsignerH hslash2
  have hlocked2 : s2.registry.minerLockedBond = s1.registry.minerLockedBond := congrArg (fun p => p.locked) hminers2
  have hheld2 : ∀ a, cfg.currency.heldNat s2.ledger .minerBond a = cfg.currency.heldNat s1.ledger .minerBond a :=
    congrFun (congrArg (fun p => p.held) hminers2)
  have hrequests : s2.requests = e.state.requests := hleaves2.requests.trans hleaves1.requests
  have hfree : ∀ a, cfg.currency.freeNat s2.ledger a = cfg.currency.freeNat e.state.ledger a := fun a =>
    (hleaves2.free a).trans (hleaves1.free a)
  have hrefundable : ensureRejectedRequestRefundable cfg s2 submission requestUser assignmentBlinding termsWitness =
      .ok () := by
    have hbefore := h.refundable
    unfold ensureRejectedRequestRefundable at hbefore ⊢
    rwa [hrequests]
  obtain ⟨s3, hrefund, hrefunded⟩ := refundRejectedRequest_succeeds (e := ⟨s2, e.history⟩) hx hpays hU inv2 huserH
    ((hwit.of_leaves hleaves1).of_leaves hleaves2) hrefundable (by rw [hfree]; exact h.room)
  obtain ⟨policy, hvalidate, hverify⟩ := h.invalid
  refine ⟨_, bind_eq_ok.mpr ⟨_, h.signed, bind_eq_ok.mpr ⟨_, hvalidate, bind_eq_ok.mpr ⟨_, hverify,
    bind_eq_ok.mpr ⟨(), h.refundable, bind_eq_ok.mpr ⟨s1, hslash1, bind_eq_ok.mpr ⟨s2, hslash2,
    bind_eq_ok.mpr ⟨s3, hrefund, rfl⟩⟩⟩⟩⟩⟩⟩, ?_⟩
  have hheld3 := hrefunded.held
  refine ⟨⟨fun a => ?_, ?_⟩, ⟨fun a => ?_, ?_⟩, hrefunded.status, ?_⟩
  · show cfg.currency.heldNat s3.ledger .minerBond a + _ = _
    rw [hheld3 .minerBond (by decide), hheld2]
    exact hexact1.held a
  · show ∃ x, s3.registry.minerLockedBond submission.minerId = some x ∧ _
    rw [hrefunded.registry, hlocked2]
    exact hexact1.left
  · show cfg.currency.heldNat s3.ledger .validatorStake a + _ = _
    rw [hheld3 .validatorStake (by decide), ← hheld1]
    exact hexact2.held a
  · show ∃ x, s3.registry.validatorLockedStake submission.validatorId = some x ∧ _
    rw [hrefunded.registry]
    exact hexact2.left
  · have hpaid : cfg.currency.freeNat s3.ledger requestUser = _ := hrefunded.free
    rw [hfree] at hpaid
    exact hpaid

/-- **An invalid proof is not rejected** if the product of the stake does not fit. -/
theorem submitProof_overflows (hfits' : ¬ stake.toNat * slashBps.toNat < 2 ^ 64) :
    submitProof cfg verify e.state origin submission requestUser minerOperator assignmentBlinding termsWitness =
      .error (.module .arithmeticOverflow) := by
  obtain ⟨hminer, hvalidator⟩ := h.parties hU inv
  have hminerH := h.hashed.accounts minerOperator (by simp [Call.accounts])
  obtain ⟨s1, hslash1, -⟩ := slashMinerBond_succeeds hx hpays inv hmin hmax hbps hminer hbond hfits
  obtain ⟨inv1, -⟩ := slashMinerBond_keeps hx hU inv hminerH hslash1
  obtain ⟨hlocked1, -⟩ := slashMinerBond_leaves hx hU inv hminerH hslash1
  have hstake1 : s1.registry.validatorLockedStake submission.validatorId = some stake := by
    rw [hlocked1]
    exact hstake
  have hslash2 := slashValidatorStake_overflows (e := ⟨s1, e.history⟩) inv1 hmin hmax hvalidator hstake1 hfits'
  obtain ⟨policy, hvalidate, hverify⟩ := h.invalid
  unfold submitProof
  rw [h.signed]
  show (validateSubmission cfg e.state submission validatorOperator minerOperator assignmentBlinding >>= _) = _
  rw [hvalidate]
  show (verify submission policy >>= _) = _
  rw [hverify]
  show (ensureRejectedRequestRefundable cfg e.state submission requestUser assignmentBlinding termsWitness >>= _) = _
  rw [h.refundable]
  show (slashMinerBond cfg e.state submission.minerId minerOperator slashBps >>= _) = _
  rw [hslash1]
  show (slashValidatorStake cfg s1 submission.validatorId validatorOperator slashBps >>= _) = _
  rw [hslash2]
  rfl
end Rejecting

/-- **Which capital can be slashed.** In the configuration of the runtime, in every reachable state and for every
    admissible percentage: a recorded bond is slashed by the floor of its share; a recorded stake is slashed by the
    floor of its share if its product with the percentage fits in 64 bits, and cannot be slashed otherwise; and a proof
    that is found invalid is rejected, with both slashes and the refund, exactly if that product fits. -/
theorem capital_slashable_iff (hx : cfg.currency.Exact) (hpays : cfg.currency.Pays)
    (hU : Set.InjOn cfg.blake2_256 U) (hruntime : RuntimeCapital cfg) (hreach : Reachable cfg U e)
    (hmin : 1000 ≤ slashBps) (hmax : slashBps ≤ 10000) :
    (∀ minerId operator bond, (minerId, operator) ∈ e.history.minerOperators →
      e.state.registry.minerLockedBond minerId = some bond →
      ∃ s', slashMinerBond cfg e.state minerId operator slashBps = .ok s' ∧
        SlashedExactly cfg e.state.ledger s'.ledger .minerBond operator bond slashBps
          (s'.registry.minerLockedBond minerId)) ∧
    (∀ validatorId operator stake, (validatorId, operator) ∈ e.history.validatorOperators →
      e.state.registry.validatorLockedStake validatorId = some stake →
      if stake.toNat * slashBps.toNat < 2 ^ 64 then
        ∃ s', slashValidatorStake cfg e.state validatorId operator slashBps = .ok s' ∧
          SlashedExactly cfg e.state.ledger s'.ledger .validatorStake operator stake slashBps
            (s'.registry.validatorLockedStake validatorId)
      else slashValidatorStake cfg e.state validatorId operator slashBps = .error (.module .arithmeticOverflow)) ∧
    ∀ verify origin submission requestUser minerOperator validatorOperator assignmentBlinding termsWitness bond stake,
      InvalidProof cfg U verify e.state origin submission requestUser minerOperator validatorOperator
        assignmentBlinding termsWitness slashBps →
      e.state.registry.minerLockedBond submission.minerId = some bond →
      e.state.registry.validatorLockedStake submission.validatorId = some stake →
      if stake.toNat * slashBps.toNat < 2 ^ 64 then
        ∃ s', submitProof cfg verify e.state origin submission requestUser minerOperator assignmentBlinding
            termsWitness = .ok s' ∧
          Rejected cfg e.state s' submission minerOperator validatorOperator requestUser bond stake
            termsWitness.terms.payment slashBps
      else submitProof cfg verify e.state origin submission requestUser minerOperator assignmentBlinding
        termsWitness = .error (.module .arithmeticOverflow) := by
  have inv := hreach.invariant hx hU
  have hmin' : cfg.minInvalidProofSlashBps ≤ slashBps := hruntime.minSlash ▸ hmin
  have hmax' : slashBps ≤ cfg.maxInvalidProofSlashBps := hruntime.maxSlash ▸ hmax
  have hbond_fits : ∀ minerId bond, e.state.registry.minerLockedBond minerId = some bond →
      bond.toNat * slashBps.toNat < 2 ^ 64 := by
    intro minerId bond hlock
    have hle := hreach.bond_le hx hU minerId bond hlock
    rw [hruntime.maxMinerBond, BitVec.le_def] at hle
    calc bond.toNat * slashBps.toNat ≤ 10000000000000 * 10000 := Nat.mul_le_mul hle (UInt16.le_iff_toNat_le.mp hmax)
      _ < 2 ^ 64 := by decide
  refine ⟨?_, ?_, ?_⟩
  · intro minerId operator bond hp hlock
    exact slashMinerBond_succeeds hx hpays inv hmin' hmax' hmax hp hlock (hbond_fits minerId bond hlock)
  · intro validatorId operator stake hp hlock
    split_ifs with hfits
    · exact slashValidatorStake_succeeds hx hpays inv hmin' hmax' hmax hp hlock hfits
    · exact slashValidatorStake_overflows inv hmin' hmax' hp hlock hfits
  · intro verify origin submission requestUser minerOperator validatorOperator assignmentBlinding termsWitness bond
      stake hproof hbond hstake
    have hfits := hbond_fits submission.minerId bond hbond
    split_ifs with hfits'
    · exact submitProof_rejects hx hpays hU inv hmin' hmax' hmax hproof hbond hstake hfits hfits'
    · exact submitProof_overflows hx hpays hU inv hmin' hmax' hmax hproof hbond hstake hfits hfits'

/-! ### A stake of two million TAO

Account 2 registers a validator with a stake of 2 000 000 TAO and starts its exit. All calls go through the shield
queue, and no identity signature is ever accepted, as in the runtime. -/

namespace Sample

def runtime : Config UInt64 Ledger 64 where
  currency := Accounts.currency
  blake2_256 := hash
  subnetCreationBurn := 10000000000
  minerRegistrationBurn := 10000000000
  minMinerBond := 100000000000
  maxMinerBond := 10000000000000
  maxActiveMinersPerSubnet := 4096
  maxActiveValidatorsPerSubnet := 4096
  minValidatorStake := 100000000000
  minInvalidProofSlashBps := 1000
  maxInvalidProofSlashBps := 10000
  minProofSizeBytes := 51200
  maxProofSizeBytes := 204800
  maxVerificationLatencyMs := 100
  maxProofSubmissionAgeBlocks := 50
  signatureMode := .fullPostQuantum
  identitySignatureVerifier _ _ := false
  shieldedCallPayloads := true
  privateEventMetadata := true
  shieldedOrigin
    | .shielded who => some who
    | _             => none
  protocolTreasury := 9
  minerExitCooldownBlocks := 50400
  validatorExitCooldownBlocks := 50400
  requestCancelDelayBlocks := 50

theorem runtime_capital : RuntimeCapital runtime := ⟨rfl, rfl, rfl, rfl, rfl⟩

/-- A call from the shield queue. -/
def shielded (who : UInt64) (call : Call UInt64 64) : Action UInt64 64 :=
  .dispatch (fun _ _ => .error .badOrigin) (.shielded who) call

def stakeActions : List (Action UInt64 64) :=
  [shielded 1 (.createSubnet .general .stark),
    shielded 2 (.registerValidator 0 2000000000000000),
    shielded 2 (.deactivateValidator 0)]

def stakeStart : Exec UInt64 Ledger 64 := .empty ⟨fun _ _ => 0, fun _ => 4000000000000000⟩ 1

def staked : Exec UInt64 Ledger 64 := stakeStart.run runtime stakeActions

/-- What the run hashes. -/
def stakeHashed : Set Bytes := {p | p ∈ stakeStart.runPreimages runtime stakeActions}

theorem stakeHash_injOn : Set.InjOn runtime.blake2_256 stakeHashed := by
  have h : ∀ p ∈ stakeStart.runPreimages runtime stakeActions, ∀ q ∈ stakeStart.runPreimages runtime stakeActions,
      hash p = hash q → p = q := by decide +kernel
  exact fun p hp q hq => h p hp q hq

theorem staked_reachable : Reachable runtime stakeHashed staked :=
  Reachable.run (.empty _ _ fun _ _ => rfl) fun _ hp => hp
end Sample
open Sample

theorem capital_slashable_iff_staked :
    staked.state.registry.validatorLockedStake 0 = some 2000000000000000 ∧
      ∃ s', slashValidatorStake runtime staked.state 0 2 1000 = .ok s' ∧
        SlashedExactly runtime staked.state.ledger s'.ledger .validatorStake 2 2000000000000000 1000
          (s'.registry.validatorLockedStake 0) := by
  have hlock : staked.state.registry.validatorLockedStake 0 = some 2000000000000000 := by decide +kernel
  have hspec := (capital_slashable_iff Accounts.currency_exact Accounts.currency_pays stakeHash_injOn
    runtime_capital staked_reachable (by decide : (1000 : UInt16) ≤ 1000) (by decide)).2.1
    0 2 2000000000000000 (by decide +kernel) hlock
  exact ⟨hlock, hspec⟩

/-- **A locked stake that cannot be slashed**: the validator is leaving with its stake on record, and a slash by the
    whole of it is refused. -/
theorem stake_not_slashable :
    Reachable runtime stakeHashed staked ∧
      (0, 2) ∈ staked.history.validatorOperators ∧
      (∃ validator, staked.state.registry.validators 0 = some validator ∧ validator.status = .exiting 50401) ∧
      staked.state.registry.validatorLockedStake 0 = some 2000000000000000 ∧
      (slashValidatorStake runtime staked.state 0 2 10000).map (fun _ => ()) =
        .error (.module .arithmeticOverflow) := by
  have hstatus : (staked.state.registry.validators 0).map (·.status) = some (.exiting 50401) := by
    decide +kernel
  exact ⟨staked_reachable, by decide +kernel, Option.map_eq_some_iff.mp hstatus, by decide +kernel, by decide +kernel⟩
end Qubitum
