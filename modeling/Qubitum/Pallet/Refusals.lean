import Qubitum.Pallet.Reach

/-!
# `Pallet.Refusals` — which errors the calls can end in

Most errors of the pallet are plain guards (`Routine`): a missing record, a wrong status, a witness that
does not open. Three are different, because they would mean that the books do not agree: the underflow of
a pending-assignment counter, the underflow of a status counter, and an escrow that does not cover a
payment. Each of them is ruled out from the invariant, at the one place of each function where it could
arise; every other place is walked through by rewriting (`raises_bind_iff`).
-/

namespace Qubitum
open Scale Outcome Ledger Tally Dense

variable {A L : Type} {w : Nat} {err : DispatchError}

/-- An error of a guard: neither an underflow, nor a refusal of the currency, nor from outside. -/
def Routine : DispatchError → Prop
  | .badOrigin   => True
  | .module err  => err ≠ .pendingAssignmentUnderflow ∧ err ≠ .requestStatusCounterUnderflow
  | _            => False

/-- No underflow: a guard, or any refusal of the currency. -/
def Orderly (err : DispatchError) : Prop := Routine err ∨ ∃ t, err = .token t

/-- No underflow and no want of funds. -/
def Covered (err : DispatchError) : Prop := Routine err ∨ ∃ t, err = .token t ∧ t ≠ .fundsUnavailable

variable {minerId : MinerId} {validatorId : ValidatorId} {origin : Origin A} {request : ChainInferenceRequest}
  {s : State L w} {submission : InferenceProofSubmission} {ledger : L} {requestId : RequestId}

theorem Routine.orderly (h : Routine err) : Orderly err := .inl h

theorem Routine.covered (h : Routine err) : Covered err := .inl h

theorem Covered.orderly (h : Covered err) : Orderly err := h.imp_right fun ⟨t, ht, _⟩ => ⟨t, ht⟩

@[simp] theorem routine_badOrigin : Routine .badOrigin := trivial

@[simp] theorem routine_module {err : Error} :
    Routine (.module err) ↔ err ≠ .pendingAssignmentUnderflow ∧ err ≠ .requestStatusCounterUnderflow := Iff.rfl

@[simp] theorem orderly_module {err : Error} : Orderly (.module err) ↔ Routine (.module err) := by
  simp [Orderly]

@[simp] theorem covered_module {err : Error} : Covered (.module err) ↔ Routine (.module err) := by
  simp [Covered]

section Conversion
variable {α : Type} {x : Except DispatchError α}

@[simp low] theorem raises_orderly_of_routine (h : Raises Routine x) : Raises Orderly x :=
  h.mono fun _ => Routine.orderly

@[simp low] theorem raises_covered_of_routine (h : Raises Routine x) : Raises Covered x :=
  h.mono fun _ => Routine.covered
end Conversion

/-- Whatever the currency refuses with is no underflow. -/
@[simp] theorem raises_token {α : Type} (x : Except TokenError α) : Raises Orderly (token x) := by
  intro err h
  cases x with
  | ok a => cases h
  | error t => exact .inr ⟨t, (Except.error.inj h).symm⟩

theorem Covered.not_fundsUnavailable (h : Covered err) : err ≠ .token .fundsUnavailable := by
  rintro rfl
  rcases h with h | ⟨t, ht, hne⟩
  · exact h
  · exact hne (DispatchError.token.inj ht).symm

/-- The two underflow errors. -/
def Underflow (err : DispatchError) : Prop :=
  err = .module .pendingAssignmentUnderflow ∨ err = .module .requestStatusCounterUnderflow

theorem Orderly.not_underflow (h : Orderly err) : ¬ Underflow err := by
  rintro (rfl | rfl)
  · rcases h with h | ⟨t, ht⟩
    · exact h.1 rfl
    · cases ht
  · rcases h with h | ⟨t, ht⟩
    · exact h.2 rfl
    · cases ht

/-! ## Checks

The checks that only combine guards are unfolded. -/

attribute [local simp] ensureSupportedProofSystem ensureProofEnvelope ensureStoredSignatureBundleBound
  ensureMinerSignatureBundleBound ensureValidatorSignatureBundleBound ensureParticipantSignatureBundles
  ensureDistinctOperators insertActiveMiner ensureActiveMinerCapacity ensureActiveValidatorCapacity
  insertActiveValidator ensureRequestAssignment ensurePublicCallPayloadAllowed validateFeeSplit proRata paymentSplit
  RequestBook.ensureRequestIdCanAdvance RequestBook.ensureRequestIdMatchesNext RequestBook.ensureNextRequestId
  RequestBook.incrementPendingAssignment incrementPending resolveRequestAssignmentCommitment
  ensureRequestAssignmentWitness ensureRequestTimingWitness ensureRequestTermsWitness ensureInferenceRequestOpenable
  ensureCommittedRequestPayloadPreflight validateSubmissionForRequest ensureSubmissionFresh ensureProofTranscriptWitness
  submissionAssignmentCommitment ensureMinerOperator ensureValidatorOperator ensureRequestUser validateSubmission
  ensureValidatorSubmissionOperator validateChallengeSubmission ensureRejectedRequestWitnesses
  ensureRejectedRequestRefundable burnFree slashCapital releaseCapital ensureIdentityClearable

section Checks
variable (cfg : Config A L w)

@[simp] theorem raises_ensureCommitment {c : Commitment} : Raises Routine (ensureCommitment c) := by
  simp [ensureCommitment]

theorem raises_whenSome {α : Type} {o : Option α} {check : α → Except DispatchError Unit}
    (h : ∀ a, Raises Routine (check a)) : Raises Routine (whenSome o check) := by
  cases o with
  | none => exact raises_pure
  | some a => exact h a

@[simp] theorem raises_ensureOptionalCommitment {c : Option Commitment} :
    Raises Routine (ensureOptionalCommitment c) :=
  raises_whenSome fun _ => raises_ensureCommitment

variable {p : ProofSystem} {operatorCommitment blinding : Commitment} {reg : Registry w} {miner : ChainMiner}
  {validator : ChainValidator} {subnetId : SubnetId} {v t : UInt16} {book : RequestBook} {id : RequestId}
  {witness : InferenceRequestTermsWitness w} {operator user minerOperator : A}

@[simp] theorem raises_ensureIdentitySignatureBundleBound {bundle : SignatureBundle} {challenge : Commitment}
    {shielded endpoint : Option Commitment} : Raises Routine
      (ensureIdentitySignatureBundleBound cfg bundle challenge operatorCommitment shielded endpoint) := by
  have hbound : ∀ signature, Raises Routine
      (ensureSignatureCommitmentBoundToChallenge cfg signature challenge) := by
    simp [ensureSignatureCommitmentBoundToChallenge]
  have hreserved : ∀ reserved signature, Raises Routine
      (ensureSignatureCommitmentNotReserved signature reserved) := by
    simp [ensureSignatureCommitmentNotReserved]
  have hbundle : Raises Routine (ensureSignatureBundle cfg bundle) := by
    rw [ensureSignatureBundle, raises_mapError]
    intro _ _
    simp
  simp only [ensureIdentitySignatureBundleBound, ensureSignatureBundleBoundToChallenge, raises_bind_iff]
  exact ⟨⟨hbundle, fun _ _ => ⟨raises_whenSome hbound, fun _ _ => raises_whenSome hbound⟩⟩,
    fun _ _ => ⟨raises_whenSome (hreserved _), fun _ _ => raises_whenSome (hreserved _)⟩⟩

@[simp] theorem raises_ensureRouteCapacity {ids : List UInt64} {candidate : Option UInt64} {max : UInt32}
    {error : DispatchError} (h : Routine error) : Raises Routine (ensureRouteCapacity ids candidate max error) := by
  simp [ensureRouteCapacity, h]

@[simp] theorem raises_ensurePayloadSigner : Raises Routine (ensurePayloadSigner cfg origin) := by
  unfold ensurePayloadSigner
  rw [raises_ite]
  refine ⟨fun _ => by simp, fun _ => ?_⟩
  cases origin <;> simp

@[simp] theorem raises_ensureRoot : Raises Routine (ensureRoot origin) := by
  cases origin <;> simp [ensureRoot]

@[simp] theorem raises_incrementRequestStatusCount {status : InferenceRequestStatus} :
    Raises Routine (book.incrementRequestStatusCount status) := by
  cases status <;>
    simp [RequestBook.incrementRequestStatusCount, RequestStatusCounts.tryMutate, incrementRequestCount]

@[simp] theorem raises_ensureOpens {stored blinded legacy : Commitment} {mismatch : Error}
    (h : Routine (.module mismatch)) : Raises Routine (ensureOpens stored blinded legacy blinding mismatch) := by
  simp [ensureOpens, h]

variable [Codec A]

@[simp] theorem raises_lockedMinerBond {id : MinerId} :
    Raises Routine (lockedMinerBond cfg reg ledger id operator) := by
  unfold lockedMinerBond
  split <;> simp

@[simp] theorem raises_lockedValidatorStake {id : ValidatorId} :
    Raises Routine (lockedValidatorStake cfg reg ledger id operator) := by
  unfold lockedValidatorStake
  split <;> simp
end Checks

/-! ## Calls about participants -/

section Participants
variable [Codec A] (cfg : Config A L w)
variable {reason : HoldReason} {operator : A} {bps : UInt16} {id : MinerId} {bundle : SignatureBundle}
  {params : AutoRouteInferenceRequestParams w}

@[simp] theorem raises_slashMinerBond : Raises Orderly (slashMinerBond cfg s id operator bps) := by
  simp [slashMinerBond]

@[simp] theorem raises_slashValidatorStake {id : ValidatorId} :
    Raises Orderly (slashValidatorStake cfg s id operator bps) := by
  simp [slashValidatorStake]

@[simp] theorem raises_openInferenceRequest {user : A} {minerId : MinerId} {validatorId : ValidatorId} :
    Raises Orderly (openInferenceRequest cfg s user requestId minerId validatorId params) := by
  simp [openInferenceRequest]

theorem raises_withdrawMinerBond : Raises Orderly (withdrawMinerBond cfg s origin id) := by
  refine raises_bind (by simp) fun _ _ => raises_bind (by simp) fun miner _ => raises_bind (by simp) fun _ _ => ?_
  cases miner.status <;> simp

theorem raises_withdrawValidatorStake {id : ValidatorId} : Raises Orderly (withdrawValidatorStake cfg s origin id) := by
  refine raises_bind (by simp) fun _ _ => raises_bind (by simp) fun validator _ =>
    raises_bind (by simp) fun _ _ => ?_
  cases validator.status <;> simp
end Participants

/-! ## Closing a request -/

section Closing
variable [FixedCodec A] [DecidableEq A] {cfg : Config A L w} {U : Set Bytes} {e : Exec A L w}
variable {o : Opening A w} {status : InferenceRequestStatus} {user requestUser source dest minerOperator : A}
  {assignmentBlinding : Commitment} {termsWitness : InferenceRequestTermsWitness w}
  {timingWitness : InferenceRequestTimingWitness} {amount : BitVec w} {verify : ProofVerifier}

section
variable (inv : Invariant cfg U e) (ho : o ∈ e.history.openings)
  (hp : e.state.requests.statusOf o.requestId = some .pending)
include inv ho hp

/-- Closing a request that is pending finds every counter positive, and fails only where the one of the new status
    does. -/
theorem Invariant.close_raises_of {P : DispatchError → Prop}
    (hnew : ∀ counts, e.state.requests.statusCounts.tryMutate decrementRequestCount .pending = .ok counts →
      Raises P (counts.tryMutate incrementRequestCount status)) :
    Raises P (e.state.requests.close o.requestId request o.minerId o.validatorId status) := by
  have hminer := inv.minerLoad_ne_zero ho hp
  have hvalidator := inv.validatorLoad_ne_zero ho hp
  have hcount : 0 < (e.state.requests.statusCounts.get .pending).toNat := by
    have hle := inv.book.statusCount.weight_le ho .pending
    have hone : e.state.requests.statusWeight .pending o = 1 := by simp [RequestBook.statusWeight, hp]
    omega
  refine raises_bind ?_ ?_
  · exact raises_bind (decrementPending_raises hminer) fun _ _ =>
      raises_bind (decrementPending_raises hvalidator) fun _ _ => raises_pure
  · intro book hbook
    obtain ⟨miners, validators, _, _, rfl⟩ := RequestBook.decrementPendingAssignment_ok hbook
    refine raises_bind ?_ (fun _ _ => raises_pure)
    unfold RequestBook.transitionRequestStatus
    rw [raises_ite]
    refine ⟨fun _ => raises_ok, fun _ => ?_⟩
    refine raises_bind (raises_bind (decrementStatus_raises hcount) fun _ _ => raises_pure) fun book' hbook' => ?_
    obtain ⟨counts, hcounts, hok⟩ := bind_ok hbook'
    obtain rfl := pure_ok hok
    exact raises_bind (hnew counts hcounts) fun _ _ => raises_pure

/-- **No counter underflows** when a pending request is closed. -/
theorem Invariant.close_raises :
    Raises Routine (e.state.requests.close o.requestId request o.minerId o.validatorId status) := by
  refine inv.close_raises_of ho hp fun counts _ => ?_
  cases status <;> simp [RequestStatusCounts.tryMutate, incrementRequestCount]

/-- The escrow of a user covers each of their pending requests. -/
theorem Invariant.payment_le_escrow :
    o.params.payment.toNat ≤ cfg.currency.heldNat e.state.ledger .inferencePayment o.user := by
  have hle := inv.book.escrow.weight_le ho o.user
  have hweight : e.state.requests.escrowWeight o.user o = o.params.payment.toNat := by
    simp [RequestBook.escrowWeight, hp]
  rw [hweight] at hle
  exact hle
end

omit [FixedCodec A] [DecidableEq A] in
/-- A refusal that is not for want of funds. -/
theorem raises_token_covered {α : Type} {x : Except TokenError α} (h : x ≠ .error .fundsUnavailable) :
    Raises Covered (token x) := by
  intro err herr
  cases x with
  | ok a => cases herr
  | error t =>
    refine .inr ⟨t, (Except.error.inj herr).symm, ?_⟩
    rintro rfl
    exact h rfl

/-- **A refund is covered**: once the witnesses are accepted, the release has the funds it asks for and
    the counters it takes down are positive. -/
theorem Invariant.refund_raises (inv : Invariant cfg U e) (hx : cfg.currency.Exact)
    (hU : Set.InjOn cfg.blake2_256 U) (hr : e.state.requests.inferenceRequests requestId = some request)
    (hacc : AccountIn U user)
    (hwit : WitnessesHashed U e.state requestId minerId validatorId assignmentBlinding termsWitness)
    (huser : ensureRequestUser cfg request user = .ok ())
    (hassign : ensureRequestAssignmentWitness cfg request minerId validatorId assignmentBlinding = .ok ())
    (hterms : ensureRequestTermsWitness cfg request termsWitness = .ok ()) (hpending : request.status = .pending) :
    Raises Covered (token (cfg.currency.release e.state.ledger .inferencePayment user termsWitness.terms.payment)) ∧
    Raises Covered (e.state.requests.close requestId request minerId validatorId status) := by
  obtain ⟨o, ho, rfl, hrec, rfl, rfl, rfl, hpay⟩ := inv.opening_of_witnesses hU hr hacc (hwit _ hr) huser hassign hterms
  have hp : e.state.requests.statusOf o.requestId = some .pending := by
    simp [RequestBook.statusOf, hr, hpending]
  refine ⟨raises_token_covered ?_, raises_covered_of_routine (inv.close_raises ho hp)⟩
  intro hrefused
  have hlt := hx.release_funds hrefused
  have hle := inv.payment_le_escrow ho hp
  rw [hpay] at hlt
  omega

variable (hx : cfg.currency.Exact) (hU : Set.InjOn cfg.blake2_256 U) (inv : Invariant cfg U e)
  (hs : SignerHashed cfg U origin) (huserH : AccountIn U requestUser) (hminerH : AccountIn U minerOperator)
  (hwit : SubmissionHashed U e.state submission assignmentBlinding termsWitness)

section
include hx

include hU inv in
theorem releaseStaleRequest_raises (hacc : AccountIn U user)
    (hwit : WitnessesHashed U e.state requestId minerId validatorId assignmentBlinding termsWitness) :
    Raises Covered (releaseStaleRequest cfg e.state requestId user minerId validatorId assignmentBlinding
      timingWitness termsWitness status) := by
  refine raises_bind (by simp) fun request hr => ?_
  refine raises_bind (by simp) fun _ huser => ?_
  refine raises_bind (by simp) fun _ hassign => ?_
  refine raises_bind (by simp) fun _ _ => ?_
  refine raises_bind (by simp) fun _ hterms => ?_
  refine raises_bind (by simp) fun _ hpending => ?_
  refine raises_bind (by simp) fun _ _ => ?_
  refine raises_bind (by simp) fun _ _ => ?_
  obtain ⟨hrelease, hclose⟩ := inv.refund_raises hx hU (okOr_eq_ok.mp hr) hacc hwit huser hassign hterms
    (ensure_eq_ok.mp hpending)
  exact raises_bind hrelease fun _ _ => raises_bind hclose fun _ _ => raises_pure

include hU inv huserH hwit in
theorem refundRejectedRequest_raises :
    Raises Covered (refundRejectedRequest cfg e.state submission requestUser assignmentBlinding termsWitness) := by
  refine raises_bind (by simp) fun request hr => ?_
  refine raises_bind (by simp) fun _ hwitnesses => ?_
  obtain ⟨hpending, hwitnesses⟩ := ensure_ok hwitnesses
  obtain ⟨_, hwitnesses⟩ := ensure_ok hwitnesses
  obtain ⟨_, hassign, hwitnesses⟩ := bind_ok hwitnesses
  obtain ⟨_, huser, hterms⟩ := bind_ok hwitnesses
  obtain ⟨hrelease, hclose⟩ := inv.refund_raises hx hU (okOr_eq_ok.mp hr) huserH hwit huser hassign hterms hpending
  exact raises_bind hrelease fun _ _ => raises_bind hclose fun _ _ => raises_pure

omit [FixedCodec A] in
/-- A transfer out of escrow that is covered is not refused for want of funds. -/
theorem transferHeldPayment_raises (h : amount.toNat ≤ cfg.currency.heldNat ledger .inferencePayment source) :
    Raises Covered (transferHeldPayment cfg ledger source dest amount) := by
  unfold transferHeldPayment
  rw [raises_ite]
  refine ⟨fun _ => raises_ok, fun _ => raises_token_covered ?_⟩
  intro hrefused
  have hlt := hx.transferOnHold_funds hrefused
  omega

omit [FixedCodec A] in
/-- What is left in escrow after a transfer. -/
theorem transferHeldPayment_left {ledger' : L} (h : transferHeldPayment cfg ledger source dest amount = .ok ledger') :
    cfg.currency.heldNat ledger' .inferencePayment source + amount.toNat =
      cfg.currency.heldNat ledger .inferencePayment source := by
  have hself := (transferHeldPayment_ok hx h).held .inferencePayment source
  simp only [Delta.transfer, Delta.heldAt, and_self, if_true] at hself
  omega

section
include hU inv

include huserH hwit in
/-- **A settlement is covered**: each of its three transfers has the funds the ones before it left. -/
theorem settleRequestPayment_raises {validatorOperator : A} :
    Raises Covered (settleRequestPayment cfg e.state submission requestUser minerOperator validatorOperator
      assignmentBlinding termsWitness) := by
  refine raises_bind (by simp) fun request hr => ?_
  refine raises_bind (by simp) fun _ hpending => ?_
  refine raises_bind (by simp) fun _ _ => ?_
  refine raises_bind (by simp) fun _ hassign => ?_
  refine raises_bind (by simp) fun _ huser => ?_
  refine raises_bind (by simp) fun _ hterms => ?_
  refine raises_bind (by simp) fun _ _ => ?_
  refine raises_bind (by simp) fun _ _ => ?_
  refine raises_bind (by simp) fun _ _ => ?_
  refine raises_bind (by simp) fun _ _ => ?_
  refine raises_bind (by simp) fun shares hsplit => ?_
  have hr := okOr_eq_ok.mp hr
  have hpending := ensure_eq_ok.mp hpending
  obtain ⟨o, ho, hid, _, rfl, hm, hv, hpay⟩ := inv.opening_of_witnesses hU hr huserH (hwit _ hr) huser hassign hterms
  have hp : e.state.requests.statusOf o.requestId = some .pending := by
    simp [RequestBook.statusOf, hid, hr, hpending]
  have hle := inv.payment_le_escrow ho hp
  have hsum := paymentSplit_ok hsplit
  rw [hpay] at hsum
  refine raises_bind (transferHeldPayment_raises hx (by omega)) fun ledger1 htransfer1 => ?_
  have hleft1 := transferHeldPayment_left hx htransfer1
  refine raises_bind (transferHeldPayment_raises hx (by omega)) fun ledger2 htransfer2 => ?_
  have hleft2 := transferHeldPayment_left hx htransfer2
  refine raises_bind (transferHeldPayment_raises hx (by omega)) fun ledger3 _ => ?_
  rw [hm, hv, ← hid]
  exact raises_bind (raises_covered_of_routine (inv.close_raises ho hp)) fun _ _ => raises_pure

theorem cancelInference_raises (hcall : CallHashed cfg U e.state origin
      (.cancelInference requestId minerId validatorId assignmentBlinding timingWitness termsWitness)) :
    Raises Covered (cancelInference cfg e.state origin requestId minerId validatorId assignmentBlinding
      timingWitness termsWitness) := by
  refine raises_bind (by simp) fun user hwho => raises_bind ?_ fun _ _ => raises_pure
  exact releaseStaleRequest_raises hx hU inv (hcall.signer user hwho)
    (witnessesHashed_of_flatMap (fun _ _ hp => List.mem_append_left _ hp) hcall.witnesses)

theorem expireInference_raises
    (hcall : CallHashed cfg U e.state origin (.expireInference requestId requestUser minerId validatorId
      assignmentBlinding timingWitness termsWitness)) :
    Raises Covered (expireInference cfg e.state origin requestId requestUser minerId validatorId
      assignmentBlinding timingWitness termsWitness) := by
  refine raises_bind (by simp) fun _ _ => raises_bind ?_ fun _ _ => raises_pure
  exact releaseStaleRequest_raises hx hU inv (hcall.accounts requestUser (by simp [Call.accounts]))
    (witnessesHashed_of_flatMap (fun _ _ hp => List.mem_append_left _ hp) hcall.witnesses)
end
end

/-! ## Proof calls -/

/-- The slash of a rejected proof's participants is refused with `err`. -/
def SlashRefused (cfg : Config A L w) (s : State L w) (submission : InferenceProofSubmission)
    (minerOperator : A) (err : DispatchError) : Prop :=
  (∃ slashBps, slashMinerBond cfg s submission.minerId minerOperator slashBps = .error err) ∨
  ∃ slashBps s1 validatorOperator,
    slashMinerBond cfg s submission.minerId minerOperator slashBps = .ok s1 ∧
      slashValidatorStake cfg s1 submission.validatorId validatorOperator slashBps = .error err

omit [DecidableEq A] in
theorem SlashRefused.orderly (h : SlashRefused cfg s submission minerOperator err) : Orderly err := by
  rcases h with ⟨_, h⟩ | ⟨_, _, _, _, h⟩
  · exact raises_slashMinerBond cfg err h
  · exact raises_slashValidatorStake cfg err h

/-- Where an error of `submit_proof` or `challenge_proof` comes from: a guard or an ordinary refusal of the
    pallet, the verifier, or the slash. -/
def ProofRefusal (cfg : Config A L w) (verify : ProofVerifier) (s : State L w)
    (submission : InferenceProofSubmission) (minerOperator : A) (err : DispatchError) : Prop :=
  Covered err ∨ (∃ policy, verify submission policy = .error err) ∨ SlashRefused cfg s submission minerOperator err

omit [DecidableEq A] in
theorem covered {α : Type} {s : State L w} {x : Except DispatchError α} (h : Raises Covered x) :
    Raises (ProofRefusal cfg verify s submission minerOperator) x :=
  h.mono fun _ => .inl

include hx hU inv huserH hminerH hwit in
theorem challengeProof_raises :
    Raises (ProofRefusal cfg verify e.state submission minerOperator)
      (challengeProof cfg verify e.state origin submission requestUser minerOperator assignmentBlinding
        termsWitness) := by
  refine raises_bind (covered (by simp)) fun _ _ => ?_
  refine raises_bind (covered (by simp)) fun policy _ => ?_
  refine raises_bind (fun err h => .inr (.inl ⟨policy, h⟩)) fun outcome _ => ?_
  cases outcome with
  | valid => exact covered (by simp)
  | error => exact covered (by simp)
  | invalid slashBps =>
    refine raises_bind (covered (by simp)) fun _ _ => ?_
    refine raises_bind (fun err h => .inr (.inr (.inl ⟨slashBps, h⟩))) fun s1 hslash => ?_
    obtain ⟨inv1, hleaves⟩ := slashMinerBond_keeps hx hU inv hminerH hslash
    refine raises_bind (covered (refundRejectedRequest_raises (e := ⟨s1, e.history⟩) hx hU inv1 huserH ?_))
      fun _ _ => raises_pure
    exact hwit.of_leaves hleaves

include hx hU inv hs huserH hminerH hwit in
theorem submitProof_raises :
    Raises (ProofRefusal cfg verify e.state submission minerOperator)
      (submitProof cfg verify e.state origin submission requestUser minerOperator assignmentBlinding termsWitness) := by
  refine raises_bind (covered (by simp)) fun validatorOperator hwho => ?_
  refine raises_bind (covered (by simp)) fun policy _ => ?_
  refine raises_bind (fun err h => .inr (.inl ⟨policy, h⟩)) fun outcome _ => ?_
  cases outcome with
  | error => exact covered (by simp)
  | valid =>
    refine raises_bind (covered (by simp)) fun _ _ => ?_
    exact raises_bind (covered (settleRequestPayment_raises hx hU inv huserH hwit)) fun _ _ => raises_pure
  | invalid slashBps =>
    refine raises_bind (covered (by simp)) fun _ _ => ?_
    refine raises_bind (fun err h => .inr (.inr (.inl ⟨slashBps, h⟩))) fun s1 hslash1 => ?_
    obtain ⟨inv1, hleaves1⟩ := slashMinerBond_keeps hx hU inv hminerH hslash1
    refine raises_bind (fun err h => .inr (.inr (.inr ⟨slashBps, s1, validatorOperator, hslash1, h⟩)))
      fun s2 hslash2 => ?_
    obtain ⟨inv2, hleaves2⟩ := slashValidatorStake_keeps (e := ⟨s1, e.history⟩) hx hU inv1 (hs _ hwho) hslash2
    refine raises_bind (covered (refundRejectedRequest_raises (e := ⟨s2, e.history⟩) hx hU inv2 huserH ?_))
      fun _ _ => raises_pure
    exact (hwit.of_leaves hleaves1).of_leaves hleaves2

/-! ## All calls -/

omit [DecidableEq A] in
theorem ProofRefusal.orderly (h : ProofRefusal cfg verify s submission minerOperator err) :
    Orderly err ∨ ∃ submission policy, verify submission policy = .error err := by
  rcases h with h | ⟨policy, h⟩ | h
  · exact .inl h.orderly
  · exact .inr ⟨submission, policy, h⟩
  · exact .inl h.orderly

include hx hU inv in
/-- **No call underflows a counter**, unless the verifier itself reports it. -/
theorem dispatch_raises {call : Call A w} (hcall : CallHashed cfg U e.state origin call) :
    Raises (fun err => Orderly err ∨ ∃ submission policy, verify submission policy = .error err)
      (dispatch cfg verify e.state origin call) := by
  have orderly : ∀ {x : Except DispatchError (State L w)}, Raises Orderly x →
      Raises (fun err => Orderly err ∨ ∃ submission policy, verify submission policy = .error err) x :=
    fun h => h.mono fun _ => .inl
  have hs := hcall.signer
  have hacc := hcall.accounts
  have hwit := hcall.witnesses
  cases call with
  | createSubnet => exact orderly (by simp [dispatch, createSubnet, nextSubnetId])
  | registerMiner => exact orderly (by simp [dispatch, registerMiner, nextMinerId])
  | activateMiner => exact orderly (by simp [dispatch, activateMiner])
  | registerValidator => exact orderly (by simp [dispatch, registerValidator, nextValidatorId])
  | submitProof =>
    refine (submitProof_raises hx hU inv hs (hacc _ (by simp [Call.accounts]))
      (hacc _ (by simp [Call.accounts])) (witnessesHashed_of_flatMap (fun _ _ hp => hp) hwit)).mono ?_
    exact fun _ => ProofRefusal.orderly
  | challengeProof =>
    refine (challengeProof_raises hx hU inv (hacc _ (by simp [Call.accounts]))
      (hacc _ (by simp [Call.accounts])) (witnessesHashed_of_flatMap (fun _ _ hp => hp) hwit)).mono ?_
    exact fun _ => ProofRefusal.orderly
  | slashMiner => exact orderly (by simp [dispatch, slashMiner])
  | requestInference => exact orderly (by simp [dispatch, requestInference])
  | requestInferenceAutoRoute => exact orderly (by simp [dispatch, requestInferenceAutoRoute])
  | requestInferenceCommitments => exact orderly (by simp [dispatch, requestInferenceCommitments])
  | cancelInference => exact orderly ((cancelInference_raises hx hU inv hcall).mono fun _ => Covered.orderly)
  | deactivateMiner => exact orderly (by simp [dispatch, deactivateMiner])
  | withdrawMinerBond => exact orderly (raises_withdrawMinerBond cfg)
  | deactivateValidator => exact orderly (by simp [dispatch, deactivateValidator])
  | withdrawValidatorStake => exact orderly (raises_withdrawValidatorStake cfg)
  | slashValidator => exact orderly (by simp [dispatch, slashValidator])
  | expireInference => exact orderly ((expireInference_raises hx hU inv hcall).mono fun _ => Covered.orderly)
  | setMinerIdentityCommitments =>
    exact orderly (by simp [dispatch, setMinerIdentityCommitments, ensureMinerLockedBondRecord])
  | setValidatorIdentityCommitments =>
    exact orderly (by simp [dispatch, setValidatorIdentityCommitments, ensureValidatorLockedStakeRecord])
end Closing
end Qubitum
