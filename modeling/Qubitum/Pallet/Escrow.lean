import Qubitum.Pallet.Capital

/-!
# `Pallet.Escrow` — the calls about requests

Opening a request puts its payment into escrow; the five ways out of `Pending` take precisely that payment
out again. What ties the caller's witnesses to the opening is `opening_of_witnesses`: under a
collision-free hash, a caller who passes the checks has stated the user, the route and the terms the
request was opened with.
-/

namespace Qubitum
open Scale Outcome Ledger Tally Dense Delta

variable {A L : Type} {w : Nat} [FixedCodec A] [DecidableEq A] {cfg : Config A L w} {U : Set Bytes}
  {e e' : Exec A L w} {s' : State L w} {origin : Origin A}

/-! ## Witnesses -/

variable {requestId : RequestId} {request : ChainInferenceRequest} {user requestUser source minerOperator : A}
  {minerId : MinerId} {validatorId : ValidatorId} {assignmentBlinding : Commitment}
  {termsWitness : InferenceRequestTermsWitness w} {params : AutoRouteInferenceRequestParams w}
  {status : InferenceRequestStatus} {ledger ledger' : L} {timingWitness : InferenceRequestTimingWitness}
  {submission : InferenceProofSubmission} {verify : ProofVerifier}

/-- **Witnesses identify the opening.** -/
theorem Invariant.opening_of_witnesses (inv : Invariant cfg U e) (hU : Set.InjOn cfg.blake2_256 U)
    (hr : e.state.requests.inferenceRequests requestId = some request) (hacc : AccountIn U user)
    (hwit : ∀ p ∈ witnessPreimages request minerId validatorId assignmentBlinding termsWitness, p ∈ U)
    (huser : ensureRequestUser cfg request user = .ok ())
    (hassign : ensureRequestAssignmentWitness cfg request minerId validatorId assignmentBlinding = .ok ())
    (hterms : ensureRequestTermsWitness cfg request termsWitness = .ok ()) :
    ∃ o ∈ e.history.openings, o.requestId = requestId ∧ request = o.record cfg request.status ∧
      user = o.user ∧ minerId = o.minerId ∧ validatorId = o.validatorId ∧
      termsWitness.terms.payment = o.params.payment := by
  obtain ⟨o, ho, hid, hrec⟩ := inv.book.opening_of_record hr
  refine ⟨o, ho, hid, hrec, ?_⟩
  have hopen := inv.hashed.requests o ho
  simp only [Opening.requestPreimages, List.mem_cons, List.not_mem_nil, or_false, forall_eq_or_imp, forall_eq] at hopen
  simp only [witnessPreimages, List.mem_cons, List.not_mem_nil, or_false, forall_eq_or_imp, forall_eq] at hwit
  -- the record is the opening's, so the stored commitments are hashes of the opening's preimages
  generalize request.status = status at hrec
  subst hrec
  obtain ⟨_, hopens, _⟩ := bind_ok hassign
  obtain ⟨_, hopens, _⟩ := bind_ok hopens
  have hassign : (_, _, minerId, validatorId) = (_, _, o.minerId, o.validatorId) :=
    fields_of_opens assignmentForm_injective hU (some _) hopen.1 ⟨hwit.1, hwit.2.1⟩ hopens
  obtain ⟨_, hterms⟩ := ensure_ok hterms
  obtain ⟨_, _, hterms⟩ := bind_ok hterms
  have hterms : (_, termsWitness.terms.payment, _, _) = (_, o.params.payment, _, _) :=
    fields_of_opens termsForm_injective hU (some _) hopen.2.2 ⟨hwit.2.2.1, hwit.2.2.2⟩ hterms
  have hu := user_of_matches hU (inv.hashed.users o ho) (requestUserPreimage_mem hacc)
    (accountPreimage_mem hacc) (ensure_eq_ok.mp huser)
  simp only [Prod.mk.injEq] at hassign hterms
  exact ⟨hu, hassign.2.2.1, hassign.2.2.2, hterms.2.1⟩

/-! ## Opening -/

omit [FixedCodec A] [DecidableEq A] in
/-- A routed pair is stored and active. -/
theorem ensureRequestAssignment_ok {reg : Registry w} {subnetId : SubnetId}
    (h : ensureRequestAssignment cfg reg subnetId minerId validatorId = .ok ()) :
    ∃ miner validator, reg.miners minerId = some miner ∧ reg.validators validatorId = some validator ∧
      miner.status = .active ∧ validator.status = .active ∧
      miner.operatorCommitment ≠ validator.operatorCommitment := by
  obtain ⟨miner, hminer, h⟩ := okOr_ok h
  obtain ⟨validator, hvalidator, h⟩ := okOr_ok h
  obtain ⟨_, h⟩ := ensure_ok h
  obtain ⟨⟨hm, hv⟩, h⟩ := ensure_ok h
  obtain ⟨_, hdistinct, _⟩ := bind_ok h
  exact ⟨miner, validator, hminer, hvalidator, hm, hv, ensure_eq_ok.mp hdistinct⟩

/-- The opening recorded for a route. -/
def openingAt (s : State L w) (user : A) (requestId : RequestId) (minerId : MinerId)
    (validatorId : ValidatorId) (params : AutoRouteInferenceRequestParams w) : Opening A w :=
  ⟨requestId, user, minerId, validatorId, params, s.currentBlock, s.registry.minerIdentity.get minerId,
    s.registry.validatorIdentity.get validatorId⟩

variable (hx : cfg.currency.Exact)

section
include hx

theorem openInferenceRequest_transition {history : History A w}
    (hhist : history = { e.history with
      openings := e.history.openings ++ [openingAt e.state user requestId minerId validatorId params] })
    (h : openInferenceRequest cfg e.state user requestId minerId validatorId params = .ok s') :
    Transition cfg e ⟨s', history⟩ := by
  obtain ⟨_, hassign, h⟩ := bind_ok h
  obtain ⟨book1, hnext, h⟩ := bind_ok h
  obtain ⟨ledger, hhold, h⟩ := bind_ok h
  obtain ⟨book2, hpending, h⟩ := bind_ok h
  obtain ⟨book3, hcount, hok⟩ := bind_ok h
  obtain rfl := pure_ok hok
  obtain ⟨hid, next, hnext', rfl⟩ := RequestBook.ensureNextRequestId_ok hnext
  obtain ⟨miners, validators, hm, hv, rfl⟩ := RequestBook.incrementPendingAssignment_ok hpending
  obtain ⟨counts, hc, rfl⟩ := RequestBook.incrementRequestStatusCount_ok hcount
  obtain ⟨miner, validator, hminer, hvalidator, hmactive, hvactive, _⟩ := ensureRequestAssignment_ok hassign
  have hshift := hx.hold (mapError_eq_ok.mp hhold)
  subst hhist
  refine ⟨.same (Side.eq_of_held rfl fun a => hshift.held_of_ne rfl a (by decide)),
    .same (Side.eq_of_held rfl fun a => hshift.held_of_ne rfl a (by decide)),
    .opened (openingAt e.state user requestId minerId validatorId params) rfl hid ?_ rfl rfl hm hv hc ?_ ?_ ?_⟩
  · exact hid ▸ hnext'
  · exact hshift.held_added rfl
  · exact ⟨⟨_, _, Exec.minerSide_record hminer, .inl hmactive⟩, rfl⟩
  · exact ⟨⟨_, _, Exec.validatorSide_record hvalidator, .inl hvactive⟩, rfl⟩

theorem requestInferenceAutoRoute_transition
    (h : requestInferenceAutoRoute cfg e.state origin requestId params = .ok s') : Transition cfg e
      ⟨s', e.history.record cfg e.state origin (.requestInferenceAutoRoute requestId params)⟩ := by
  obtain ⟨user, hwho, h⟩ := bind_ok h
  obtain ⟨_, _, h⟩ := bind_ok h
  obtain ⟨_, _, h⟩ := bind_ok h
  obtain ⟨assignment, hroute, h⟩ := okOr_ok h
  refine openInferenceRequest_transition hx ?_ h
  simp [History.record, openingOf, openingAt, signer, hwho, hroute]

theorem requestInference_transition {params : InferenceRequestParams w}
    (h : requestInference cfg e.state origin requestId params = .ok s') :
    Transition cfg e ⟨s', e.history.record cfg e.state origin (.requestInference requestId params)⟩ := by
  obtain ⟨user, hwho, h⟩ := bind_ok h
  obtain ⟨_, h⟩ := ensure_ok h
  obtain ⟨_, _, h⟩ := bind_ok h
  obtain ⟨_, _, h⟩ := bind_ok h
  obtain ⟨assignment, hroute, h⟩ := okOr_ok h
  refine openInferenceRequest_transition hx ?_ h
  have hroute' : routeAssignment cfg e.state.registry params.toAutoRoute.subnetId requestId
      params.toAutoRoute.assignmentBlinding = some assignment := hroute
  simp [History.record, openingOf, openingAt, signer, hwho, hroute']
end

/-! ## Closing -/

/-- A step that closes a request leaves both kinds of participants alone. -/
structure ClosingStep (cfg : Config A L w) (e e' : Exec A L w) : Prop where
  miners : e'.minerSide cfg = e.minerSide cfg
  validators : e'.validatorSide cfg = e.validatorSide cfg
  book : BookStep cfg e e'

theorem ClosingStep.transition (h : ClosingStep cfg e e') : Transition cfg e e' :=
  ⟨.same h.miners, .same h.validators, h.book⟩

/-- What a step does to the book does not depend on slashes before it. -/
theorem BookStep.of_leaves {e1 : Exec A L w} (h : BookStep cfg e1 e')
    (hleaves : LeavesRequests cfg e.state e1.state) (hhist : e1.history = e.history) : BookStep cfg e e' := by
  have hescrow : ∀ u, e1.escrow cfg u = e.escrow cfg u := hleaves.escrow
  cases h with
  | same requests openings escrow =>
    rw [hleaves.requests] at requests
    rw [hhist] at openings
    exact .same requests openings fun u => (escrow u).trans (hescrow u)
  | opened o openings next count stored proofs minerLoad validatorLoad counts escrow miner validator =>
    rw [hhist] at openings
    rw [hleaves.requests] at next count stored proofs minerLoad validatorLoad counts
    refine .opened o openings next count stored proofs minerLoad validatorLoad counts ?_ miner validator
    intro u
    rw [escrow u, hescrow u]
  | closed o status mid openings opening pending left count stored proofs minerLoad validatorLoad out into
      escrow flow =>
      rw [hhist] at openings opening
      rw [hleaves.requests] at pending count stored proofs minerLoad validatorLoad out
      refine .closed o status mid openings opening pending left count stored proofs minerLoad validatorLoad
        out into ?_ ?_
      · intro u
        rw [escrow u, hescrow u]
      · simpa only [ClosingFlow, hleaves.free, hhist] using flow

/-- The witnesses of a call about a request were hashed within `U`. -/
def WitnessesHashed (U : Set Bytes) (s : State L w) (requestId : RequestId) (minerId : MinerId)
    (validatorId : ValidatorId) (assignmentBlinding : Commitment)
    (termsWitness : InferenceRequestTermsWitness w) : Prop :=
  ∀ request, s.requests.inferenceRequests requestId = some request →
    ∀ p ∈ witnessPreimages request minerId validatorId assignmentBlinding termsWitness, p ∈ U

/-- The same for the request and the participants that a submission names. -/
abbrev SubmissionHashed (U : Set Bytes) (s : State L w) (submission : InferenceProofSubmission) :=
  WitnessesHashed (w := w) U s submission.requestId submission.minerId submission.validatorId

omit [FixedCodec A] [DecidableEq A] in
theorem WitnessesHashed.of_leaves {s s1 : State L w}
    (h : WitnessesHashed U s requestId minerId validatorId assignmentBlinding termsWitness)
    (hleaves : LeavesRequests cfg s s1) :
    WitnessesHashed U s1 requestId minerId validatorId assignmentBlinding termsWitness := by
  intro request hr
  rw [hleaves.requests] at hr
  exact h request hr

/-- **A refund closes the request it names**: the common core of cancelling, expiring and rejecting. -/
theorem Invariant.refund (inv : Invariant cfg U e) (hx : cfg.currency.Exact) (hU : Set.InjOn cfg.blake2_256 U)
    {book : RequestBook} {totals : Totals w} {events : List Event}
    (hr : e.state.requests.inferenceRequests requestId = some request) (hacc : AccountIn U user)
    (hwit : WitnessesHashed U e.state requestId minerId validatorId assignmentBlinding termsWitness)
    (huser : ensureRequestUser cfg request user = .ok ())
    (hassign : ensureRequestAssignmentWitness cfg request minerId validatorId assignmentBlinding = .ok ())
    (hterms : ensureRequestTermsWitness cfg request termsWitness = .ok ())
    (hpending : request.status = .pending) (hne : status ≠ .pending) (hns : status ≠ .settled)
    (hrelease : token (cfg.currency.release e.state.ledger .inferencePayment user
      termsWitness.terms.payment) = .ok ledger)
    (hclose : e.state.requests.close requestId request minerId validatorId status = .ok book) :
    ClosingStep cfg e ⟨{ e.state with requests := book, ledger, totals, events }, e.history⟩ := by
  obtain ⟨o, ho, rfl, hrec, rfl, rfl, rfl, hpay⟩ := inv.opening_of_witnesses hU hr hacc (hwit _ hr) huser hassign hterms
  rw [hpending] at hrec
  subst hrec
  rw [hpay] at hrelease
  obtain ⟨miners, validators, mid, counts, hm, hv, hout, hinto, rfl⟩ := RequestBook.close_ok hne hclose
  have hshift := hx.release (mapError_eq_ok.mp hrelease)
  refine ⟨Side.eq_of_held rfl fun a => hshift.held_of_ne rfl a (by decide),
    Side.eq_of_held rfl fun a => hshift.held_of_ne rfl a (by decide),
    .closed o status mid rfl ho ?_ hne rfl rfl ?_ hm hv hout hinto ?_ ?_⟩
  · simp [RequestBook.statusOf, hr, Opening.record]
  · intro r
    simp [hns]
  · exact hshift.held_taken rfl
  · unfold ClosingFlow
    rw [if_neg hns]
    intro a
    have hself := hshift.free a
    simp only [release, freeAt] at hself
    show cfg.currency.freeNat ledger a = _
    split_ifs at hself ⊢ <;> omega

variable (hU : Set.InjOn cfg.blake2_256 U) (inv : Invariant cfg U e) (hs : SignerHashed cfg U origin)
  (huserH : AccountIn U requestUser) (hminerH : AccountIn U minerOperator)
  (hwit : SubmissionHashed U e.state submission assignmentBlinding termsWitness)

include hx hU inv in
theorem releaseStaleRequest_ok (hne : status ≠ .pending) (hns : status ≠ .settled) (hacc : AccountIn U user)
    (hwit : WitnessesHashed U e.state requestId minerId validatorId assignmentBlinding termsWitness)
    (h : releaseStaleRequest cfg e.state requestId user minerId validatorId assignmentBlinding timingWitness
      termsWitness status = .ok s') (events : List Event) :
    ClosingStep cfg e ⟨s'.depositActivityEvents cfg events, e.history⟩ := by
  obtain ⟨request, hr, h⟩ := okOr_ok h
  obtain ⟨_, huser, h⟩ := bind_ok h
  obtain ⟨_, hassign, h⟩ := bind_ok h
  obtain ⟨_, _, h⟩ := bind_ok h
  obtain ⟨_, hterms, h⟩ := bind_ok h
  obtain ⟨hpending, h⟩ := ensure_ok h
  obtain ⟨_, _, h⟩ := okOr_ok h
  obtain ⟨_, h⟩ := ensure_ok h
  obtain ⟨ledger, hrelease, h⟩ := bind_ok h
  obtain ⟨book, hclose, hok⟩ := bind_ok h
  obtain rfl := pure_ok hok
  exact inv.refund hx hU hr hacc hwit huser hassign hterms hpending hne hns hrelease hclose

include hx hU inv huserH hwit in
theorem refundRejectedRequest_ok
    (h : refundRejectedRequest cfg e.state submission requestUser assignmentBlinding termsWitness = .ok s')
    (events : List Event) : ClosingStep cfg e ⟨s'.depositActivityEvents cfg events, e.history⟩ := by
  obtain ⟨request, hr, h⟩ := okOr_ok h
  obtain ⟨_, hwitnesses, h⟩ := bind_ok h
  obtain ⟨hpending, hwitnesses⟩ := ensure_ok hwitnesses
  obtain ⟨_, hwitnesses⟩ := ensure_ok hwitnesses
  obtain ⟨_, hassign, hwitnesses⟩ := bind_ok hwitnesses
  obtain ⟨_, huser, hterms⟩ := bind_ok hwitnesses
  obtain ⟨ledger, hrelease, h⟩ := bind_ok h
  obtain ⟨book, hclose, hok⟩ := bind_ok h
  obtain rfl := pure_ok hok
  exact inv.refund hx hU hr huserH hwit huser hassign hterms hpending (by decide) (by decide) hrelease hclose

/-! ## Settling -/

/-- The three shares add up to the payment. -/
theorem paymentSplit_ok {payment minerPayment validatorFee treasuryFee : BitVec w}
    {validatorFeeBps treasuryFeeBps : UInt16}
    (h : paymentSplit payment validatorFeeBps treasuryFeeBps = .ok (minerPayment, validatorFee, treasuryFee)) :
    minerPayment.toNat + validatorFee.toNat + treasuryFee.toNat = payment.toNat := by
  obtain ⟨_, _, h⟩ := bind_ok h
  obtain ⟨_, _, h⟩ := bind_ok h
  obtain ⟨_, _, h⟩ := bind_ok h
  obtain ⟨assigned, hadd, h⟩ := okOr_ok h
  obtain ⟨_, hsub, hok⟩ := okOr_ok h
  have hsplit := pure_ok hok
  obtain ⟨rfl, rfl, rfl⟩ := hsplit
  have hassigned := Checked.add_eq_some hadd
  have hrest := Checked.sub_eq_some hsub
  omega

section
include hx

omit [FixedCodec A] in
/-- A transfer out of escrow moves its amount, also when there is nothing to move. -/
theorem transferHeldPayment_ok {dest : A} {amount : BitVec w}
    (h : transferHeldPayment cfg ledger source dest amount = .ok ledger') :
    cfg.currency.Shift ledger ledger' (.transfer .inferencePayment source dest amount) := by
  unfold transferHeldPayment at h
  by_cases hzero : amount = 0
  · rw [if_pos hzero] at h
    obtain rfl := Except.ok.inj h
    subst hzero
    exact ⟨fun _ _ => by simp [transfer, heldAt], fun _ => by simp [transfer, freeAt]⟩
  · rw [if_neg hzero] at h
    exact hx.transferOnHold (mapError_eq_ok.mp h)

omit [FixedCodec A] in
/-- The three transfers of a settlement are one shift: out of the escrow of `source`, to three accounts. -/
theorem transfers_shift {ledger1 ledger2 : L} {a b c : A} {x y z : BitVec w}
    (h1 : transferHeldPayment cfg ledger source a x = .ok ledger1)
    (h2 : transferHeldPayment cfg ledger1 source b y = .ok ledger2)
    (h3 : transferHeldPayment cfg ledger2 source c z = .ok ledger') : cfg.currency.Shift ledger ledger'
      ⟨heldAt .inferencePayment source (-(x.toNat + y.toNat + z.toNat : Nat)),
        freeAt a x.toNat + freeAt b y.toNat + freeAt c z.toNat⟩ := by
  have hshift := ((transferHeldPayment_ok hx h1).trans (transferHeldPayment_ok hx h2)).trans
    (transferHeldPayment_ok hx h3)
  refine ⟨fun r u => ?_, hshift.free⟩
  rw [hshift.held]
  simp only [add_held, transfer, heldAt]
  split_ifs <;> omega

include hU inv huserH hminerH hwit in
theorem settleRequestPayment_ok {validatorOperator : A} (hvalidatorH : AccountIn U validatorOperator)
    (h : settleRequestPayment cfg e.state submission requestUser minerOperator validatorOperator
      assignmentBlinding termsWitness = .ok s') (record : ChainProofRecord) (events : List Event) :
    ClosingStep cfg e ⟨{ s' with
      requests := { s'.requests with
        proofRecords := Function.update s'.requests.proofRecords submission.requestId (some record) }
      events }, e.history⟩ := by
  obtain ⟨request, hr, h⟩ := okOr_ok h
  obtain ⟨hpending, h⟩ := ensure_ok h
  obtain ⟨_, h⟩ := ensure_ok h
  obtain ⟨_, hassign, h⟩ := bind_ok h
  obtain ⟨_, huser, h⟩ := bind_ok h
  obtain ⟨_, hterms, h⟩ := bind_ok h
  obtain ⟨miner, hminer, h⟩ := okOr_ok h
  obtain ⟨validator, hvalidator, h⟩ := okOr_ok h
  obtain ⟨_, hminerOp, h⟩ := bind_ok h
  obtain ⟨_, hvalidatorOp, h⟩ := bind_ok h
  obtain ⟨⟨minerPayment, validatorFee, treasuryFee⟩, hsplit, h⟩ := bind_ok h
  obtain ⟨ledger1, htransfer1, h⟩ := bind_ok h
  obtain ⟨ledger2, htransfer2, h⟩ := bind_ok h
  obtain ⟨ledger, htransfer3, h⟩ := bind_ok h
  obtain ⟨book, hclose, hok⟩ := bind_ok h
  obtain rfl := pure_ok hok
  obtain ⟨o, ho, hid, hrec, rfl, hm', hv', hpay⟩ :=
    inv.opening_of_witnesses hU hr huserH (hwit _ hr) huser hassign hterms
  rw [hpending] at hrec
  subst hrec
  rw [hm', hv', ← hid] at hclose
  rw [← hid] at hr ⊢
  obtain ⟨miners, validators, mid, counts, hm, hv, hout, hinto, rfl⟩ := RequestBook.close_ok (by decide) hclose
  obtain ⟨hminerMem, _⟩ := inv.minerOperator hU hminerH hminer hminerOp
  obtain ⟨hvalidatorMem, _⟩ := inv.validatorOperator hU hvalidatorH hvalidator (ensure_eq_ok.mp hvalidatorOp)
  rw [hm'] at hminerMem
  rw [hv'] at hvalidatorMem
  have hsum := paymentSplit_ok hsplit
  rw [hpay] at hsum
  have hshift := transfers_shift hx htransfer1 htransfer2 htransfer3
  rw [hsum] at hshift
  refine ⟨Side.eq_of_held rfl fun a => hshift.held_of_ne rfl a (by decide),
    Side.eq_of_held rfl fun a => hshift.held_of_ne rfl a (by decide),
    .closed o .settled mid rfl ho ?_ (by decide) rfl rfl ?_ hm hv hout hinto ?_ ?_⟩
  · simp [RequestBook.statusOf, hr, Opening.record]
  · intro r
    by_cases hro : r = o.requestId <;> simp [hro]
  · exact hshift.held_taken rfl
  · refine ⟨minerOperator, validatorOperator, _, _, _, hminerMem, hvalidatorMem, hsum, ?_⟩
    intro a
    have hfree := hshift.free a
    simp only [Pi.add_apply, freeAt] at hfree
    show cfg.currency.freeNat ledger a = _
    split_ifs at hfree ⊢ <;> omega

/-! ## The calls -/

section
include hU inv

include hs in
theorem cancelInference_transition
    (hwit : WitnessesHashed U e.state requestId minerId validatorId assignmentBlinding termsWitness)
    (h : cancelInference cfg e.state origin requestId minerId validatorId assignmentBlinding timingWitness
      termsWitness = .ok s') : Transition cfg e ⟨s', e.history⟩ := by
  obtain ⟨user, hwho, h⟩ := bind_ok h
  obtain ⟨s1, hrelease, hok⟩ := bind_ok h
  obtain rfl := pure_ok hok
  exact (releaseStaleRequest_ok hx hU inv (by decide) (by decide) (hs user hwho) hwit hrelease _).transition

include huserH in
theorem expireInference_transition
    (hwit : WitnessesHashed U e.state requestId minerId validatorId assignmentBlinding termsWitness)
    (h : expireInference cfg e.state origin requestId requestUser minerId validatorId assignmentBlinding
      timingWitness termsWitness = .ok s') : Transition cfg e ⟨s', e.history⟩ := by
  obtain ⟨_, _, h⟩ := bind_ok h
  obtain ⟨s1, hrelease, hok⟩ := bind_ok h
  obtain rfl := pure_ok hok
  exact (releaseStaleRequest_ok hx hU inv (by decide) (by decide) huserH hwit hrelease _).transition

include huserH hminerH hwit in
theorem challengeProof_transition
    (h : challengeProof cfg verify e.state origin submission requestUser minerOperator assignmentBlinding
      termsWitness = .ok s') : Transition cfg e ⟨s', e.history⟩ := by
  obtain ⟨_, _, h⟩ := bind_ok h
  obtain ⟨policy, _, h⟩ := bind_ok h
  obtain ⟨outcome, _, h⟩ := bind_ok h
  cases outcome with
  | valid => cases h
  | error => cases h
  | invalid slashBps =>
    obtain ⟨_, _, h⟩ := bind_ok h
    obtain ⟨s1, hslash, h⟩ := bind_ok h
    obtain ⟨s2, hrefund, hok⟩ := bind_ok h
    obtain rfl := pure_ok hok
    obtain ⟨hminers, hvalidators, hleaves⟩ := slashMinerBond_ok hx hU inv hminerH hslash
    have hslashed : Transition cfg e ⟨s1, e.history⟩ :=
      ⟨hminers, .same hvalidators, .same hleaves.requests rfl hleaves.escrow⟩
    have inv1 : Invariant cfg U ⟨s1, e.history⟩ := hslashed.invariant inv inv.hashed
    have hclosed := refundRejectedRequest_ok (e := ⟨s1, e.history⟩) hx hU inv1 huserH
      (hwit.of_leaves hleaves) hrefund
      [.minerSlashed, .proofRejected, .proofChallengeAccepted, .inferenceRefunded]
    refine ⟨?_, .same (hclosed.validators.trans hvalidators), hclosed.book.of_leaves hleaves rfl⟩
    rw [hclosed.miners]
    exact hminers

include hs huserH hminerH hwit in
theorem submitProof_transition
    (h : submitProof cfg verify e.state origin submission requestUser minerOperator assignmentBlinding
      termsWitness = .ok s') : Transition cfg e ⟨s', e.history⟩ := by
  obtain ⟨validatorOperator, hwho, h⟩ := bind_ok h
  obtain ⟨policy, _, h⟩ := bind_ok h
  obtain ⟨outcome, _, h⟩ := bind_ok h
  cases outcome with
  | error => cases h
  | valid =>
    obtain ⟨assignmentCommitment, _, h⟩ := bind_ok h
    obtain ⟨s1, hsettle, hok⟩ := bind_ok h
    obtain rfl := pure_ok hok
    exact (settleRequestPayment_ok hx hU inv huserH hminerH hwit (hs _ hwho) hsettle _ _).transition
  | invalid slashBps =>
    obtain ⟨_, _, h⟩ := bind_ok h
    obtain ⟨s1, hslashMiner, h⟩ := bind_ok h
    obtain ⟨s2, hslashValidator, h⟩ := bind_ok h
    obtain ⟨s3, hrefund, hok⟩ := bind_ok h
    obtain rfl := pure_ok hok
    -- the miner is slashed in `e`, the validator in the state after it, and the refund comes last
    obtain ⟨hminers, hvalidators, hleaves1⟩ := slashMinerBond_ok hx hU inv hminerH hslashMiner
    obtain ⟨inv1, -⟩ := slashMinerBond_keeps hx hU inv hminerH hslashMiner
    obtain ⟨hvalidators2, hminers2, hleaves2⟩ :=
      slashValidatorStake_ok (e := ⟨s1, e.history⟩) hx hU inv1 (hs _ hwho) hslashValidator
    obtain ⟨inv2, -⟩ := slashValidatorStake_keeps (e := ⟨s1, e.history⟩) hx hU inv1 (hs _ hwho) hslashValidator
    have hclosed := refundRejectedRequest_ok (e := ⟨s2, e.history⟩) hx hU inv2 huserH
      ((hwit.of_leaves hleaves1).of_leaves hleaves2) hrefund
      [.minerSlashed, .validatorSlashed, .proofRejected, .inferenceRefunded]
    refine ⟨?_, ?_, (hclosed.book.of_leaves hleaves2 rfl).of_leaves hleaves1 rfl⟩
    · rw [hclosed.miners, hminers2]
      exact hminers
    · rw [hclosed.validators, ← hvalidators]
      have hload : s1.requests.pendingValidator = e.state.requests.pendingValidator := by
        rw [hleaves1.requests]
      exact hload ▸ hvalidators2
end
end
end Qubitum
