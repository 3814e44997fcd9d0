import Qubitum.Pallet.Escrow

/-!
# `Pallet.Reach` — every call is a transition, and every run keeps the invariant

`dispatch_transition` collects the spec lemmas of the nineteen dispatchables into one; with
`Transition.invariant` it gives the step lemma (`Invariant.step`) and, by induction over the run, the
invariant of every reachable execution (`Reachable.invariant`). Nothing after this module looks into a
dispatchable again, except to see which errors it can end in.
-/

namespace Qubitum
open Scale Outcome Ledger Tally Dense

variable {A L : Type} {w : Nat} [FixedCodec A] [DecidableEq A] {cfg : Config A L w} {U : Set Bytes}
  {e : Exec A L w} {s' : State L w} {origin : Origin A} {call : Call A w} {verify : ProofVerifier}

/-! ## What a call hashes -/

omit [DecidableEq A] in
/-- The preimages of a call lie in `U`, by what they are preimages of. -/
structure CallHashed (cfg : Config A L w) (U : Set Bytes) (s : State L w) (origin : Origin A)
    (call : Call A w) : Prop where
  signer : SignerHashed cfg U origin
  accounts : ∀ who ∈ call.accounts, ∀ p ∈ accountPreimages who, p ∈ U
  witnesses : ∀ p ∈ call.witnesses s, p ∈ U
  opening : ∀ o, call.opening cfg s origin = some o → ∀ p ∈ o.requestPreimages, p ∈ U

omit [DecidableEq A] in
theorem callHashed (h : ∀ p ∈ e.preimages cfg (.dispatch verify origin call), p ∈ U) :
    CallHashed cfg U e.state origin call := by
  simp only [Exec.preimages, List.mem_append, List.mem_flatMap, Option.mem_toList] at h
  refine ⟨?_, ?_, ?_, ?_⟩
  · intro who hwho p hp
    refine h p (.inl (.inl ⟨who, .inl ?_, hp⟩))
    simp [Qubitum.signer, hwho]
  · intro who hwho p hp
    exact h p (.inl (.inl ⟨who, .inr hwho, hp⟩))
  · intro p hp
    exact h p (.inl (.inr hp))
  · intro o ho p hp
    exact h p (.inr ⟨o, ho, hp⟩)

omit [FixedCodec A] [DecidableEq A] in
theorem ensurePayloadSigner_of_signer {who : A} (h : signer cfg origin = some who) :
    ensurePayloadSigner cfg origin = .ok who := by
  unfold signer at h
  cases hsigner : ensurePayloadSigner cfg origin with
  | ok user =>
    rw [hsigner] at h
    exact congrArg _ (Option.some.inj h)
  | error err =>
    rw [hsigner] at h
    cases h

variable {s : State L w} {requestId : RequestId} {h : History A w} {ledger : L} {blockNumber : Nat}

omit [FixedCodec A] [DecidableEq A] in
/-- The opening of a request call belongs to its signer. -/
theorem signer_of_openingOf {params : AutoRouteInferenceRequestParams w} {o : Opening A w}
    (h : openingOf cfg s origin requestId params = some o) : signer cfg origin = some o.user := by
  obtain ⟨user, hsigner, h⟩ := Option.bind_eq_some_iff.mp h
  obtain ⟨assignment, _, h⟩ := Option.bind_eq_some_iff.mp h
  obtain rfl := Option.some.inj h
  exact hsigner

section
omit [DecidableEq A]

/-- A new opening is hashed with the call that makes it. -/
theorem Hashed.opened (hashed : Hashed U h) (hs : SignerHashed cfg U origin) {opening : Option (Opening A w)}
    (howner : ∀ o, opening = some o → signer cfg origin = some o.user)
    (hnew : ∀ o, opening = some o → ∀ p ∈ o.requestPreimages, p ∈ U) :
    Hashed U { h with openings := h.openings ++ opening.toList } := by
  refine ⟨hashed.miners, hashed.validators, ?_, ?_⟩
  · intro o ho
    rcases List.mem_append.mp ho with ho | ho
    · exact hashed.users o ho
    · have hsigner := howner o (Option.mem_toList.mp ho)
      exact requestUserPreimage_mem (hs _ (ensurePayloadSigner_of_signer hsigner))
  · intro o ho
    rcases List.mem_append.mp ho with ho | ho
    · exact hashed.requests o ho
    · exact hnew o (Option.mem_toList.mp ho)

/-- A new participant is hashed with the call that registers it. -/
theorem operators_hashed {operators : List (UInt64 × A)} {id : UInt64}
    (hops : ∀ p ∈ operators, operatorPreimage p.2 ∈ U) (hs : SignerHashed cfg U origin) :
    ∀ p ∈ operators ++ (signer cfg origin).toList.map (id, ·), operatorPreimage p.2 ∈ U := by
  intro p hp
  rcases List.mem_append.mp hp with hp | hp
  · exact hops p hp
  · obtain ⟨who, hwho, rfl⟩ := List.mem_map.mp hp
    exact operatorPreimage_mem (hs _ (ensurePayloadSigner_of_signer (Option.mem_toList.mp hwho)))

theorem Hashed.record (hashed : Hashed U h) (hcall : CallHashed cfg U s origin call) :
    Hashed U (h.record cfg s origin call) := by
  cases call with
  | registerMiner => exact { hashed with miners := operators_hashed hashed.miners hcall.signer }
  | registerValidator => exact { hashed with validators := operators_hashed hashed.validators hcall.signer }
  | requestInference => exact hashed.opened hcall.signer (fun _ => signer_of_openingOf) hcall.opening
  | requestInferenceAutoRoute => exact hashed.opened hcall.signer (fun _ => signer_of_openingOf) hcall.opening
  | _ => exact hashed
end

omit [FixedCodec A] [DecidableEq A] in
/-- The assignment and terms witnesses are among what a call about a stored request hashes. -/
theorem witnessesHashed_of_flatMap {minerId : MinerId} {validatorId : ValidatorId}
    {assignmentBlinding : Commitment} {termsWitness : InferenceRequestTermsWitness w}
    {f : ChainInferenceRequest → List Bytes}
    (hf : ∀ request, ∀ p ∈ witnessPreimages request minerId validatorId assignmentBlinding termsWitness,
      p ∈ f request) (h : ∀ p ∈ (s.requests.inferenceRequests requestId).toList.flatMap f, p ∈ U) :
    WitnessesHashed U s requestId minerId validatorId assignmentBlinding termsWitness := by
  intro request hr p hp
  exact h p (List.mem_flatMap.mpr ⟨request, Option.mem_toList.mpr hr, hf request p hp⟩)

/-! ## Calls -/

variable (hx : cfg.currency.Exact) (hU : Set.InjOn cfg.blake2_256 U) (inv : Invariant cfg U e)

include hx hU inv in
/-- **Every successful call is a transition.** -/
theorem dispatch_transition (hcall : CallHashed cfg U e.state origin call)
    (h : dispatch cfg verify e.state origin call = .ok s') :
    Transition cfg e ⟨s', e.history.record cfg e.state origin call⟩ := by
  have hs := hcall.signer
  have hacc := hcall.accounts
  have hwit := hcall.witnesses
  cases call with
  | createSubnet => exact createSubnet_transition hx h
  | registerMiner => exact registerMiner_transition hx inv h
  | activateMiner => exact activateMiner_transition hx hU inv hs h
  | registerValidator => exact registerValidator_transition hx h
  | submitProof =>
    exact submitProof_transition hx hU inv hs (hacc _ (by simp [Call.accounts]))
      (hacc _ (by simp [Call.accounts])) (witnessesHashed_of_flatMap (fun _ _ hp => hp) hwit) h
  | challengeProof =>
    exact challengeProof_transition hx hU inv (hacc _ (by simp [Call.accounts]))
      (hacc _ (by simp [Call.accounts])) (witnessesHashed_of_flatMap (fun _ _ hp => hp) hwit) h
  | slashMiner => exact slashMiner_transition hx hU inv (hacc _ (by simp [Call.accounts])) h
  | requestInference => exact requestInference_transition hx h
  | requestInferenceAutoRoute => exact requestInferenceAutoRoute_transition hx h
  | requestInferenceCommitments =>
    -- every path of this call ends in an error
    obtain ⟨_, _, h⟩ := bind_ok h
    obtain ⟨_, _, h⟩ := bind_ok h
    cases h
  | cancelInference =>
    exact cancelInference_transition hx hU inv hs
      (witnessesHashed_of_flatMap (fun _ _ hp => List.mem_append_left _ hp) hwit) h
  | deactivateMiner => exact deactivateMiner_transition hU inv hs h
  | withdrawMinerBond => exact withdrawMinerBond_transition hx hU inv hs h
  | deactivateValidator => exact deactivateValidator_transition hU inv hs h
  | withdrawValidatorStake => exact withdrawValidatorStake_transition hx hU inv hs h
  | slashValidator => exact slashValidator_transition hx hU inv (hacc _ (by simp [Call.accounts])) h
  | expireInference =>
    exact expireInference_transition hx hU inv (hacc _ (by simp [Call.accounts]))
      (witnessesHashed_of_flatMap (fun _ _ hp => List.mem_append_left _ hp) hwit) h
  | setMinerIdentityCommitments => exact setMinerIdentityCommitments_transition hU inv hs h
  | setValidatorIdentityCommitments => exact setValidatorIdentityCommitments_transition hU inv hs h

/-! ## Runs -/

/-- An empty pallet in a ledger without holds. -/
theorem Invariant.empty (unheld : ∀ reason who, cfg.currency.heldNat ledger reason who = 0) :
    Invariant cfg U (.empty ledger blockNumber) where
  miners := .empty rfl rfl (fun _ => rfl) (fun _ => rfl) (unheld _)
  validators := .empty rfl rfl (fun _ => rfl) (fun _ => rfl) (unheld _)
  book := .empty (unheld _)
  minerPins _ ho := absurd ho List.not_mem_nil
  validatorPins _ ho := absurd ho List.not_mem_nil
  hashed := ⟨fun _ h => absurd h List.not_mem_nil, fun _ h => absurd h List.not_mem_nil,
    fun _ h => absurd h List.not_mem_nil, fun _ h => absurd h List.not_mem_nil⟩

/-- The invariant looks at the ledger through the holds only. -/
theorem Invariant.congr_ledger (inv : Invariant cfg U e)
    (held : ∀ reason who, cfg.currency.heldNat ledger reason who = cfg.currency.heldNat e.state.ledger reason who) :
    Invariant cfg U { e with state := { e.state with ledger, blockNumber } } := by
  have t : Transition cfg e { e with state := { e.state with ledger, blockNumber } } :=
    ⟨.same (Side.eq_of_held rfl (held _)), .same (Side.eq_of_held rfl (held _)),
      .same rfl rfl (held _)⟩
  exact t.invariant inv inv.hashed

include hx hU inv in
/-- **Every step keeps the invariant**, whether the call succeeds or fails. -/
theorem Invariant.step (action : Action A w) (hashed : ∀ p ∈ e.preimages cfg action, p ∈ U) :
    Invariant cfg U (e.step cfg action) := by
  cases action with
  | advance blocks => exact inv.congr_ledger fun _ _ => rfl
  | dispatch verify origin call =>
    have hcall := callHashed hashed
    cases hdispatch : Qubitum.dispatch cfg verify e.state origin call with
    | error err =>
      rw [Exec.step_of_error hdispatch]
      exact inv
    | ok s' =>
      rw [Exec.step_of_ok hdispatch]
      exact (dispatch_transition hx hU inv hcall hdispatch).invariant inv (inv.hashed.record hcall)

include hx hU in
/-- **Every reachable execution satisfies the invariant.** -/
theorem Reachable.invariant (h : Reachable cfg U e) : Invariant cfg U e := by
  induction h with
  | empty ledger blockNumber unheld => exact .empty unheld
  | step action hashed _ ih => exact ih.step hx hU action hashed
  | outside ledger held _ ih => exact ih.congr_ledger held
end Qubitum
