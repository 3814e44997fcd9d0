import Qubitum.Pallet.Run

/-!
# `Pallet.Frames` — what the calls leave of the registry

The calls about requests write the request book and the ledger only. A proof that is rejected slashes, and then
refunds; so a property of the registry holds after every call, if it holds after a slash and after the calls that
participants make for themselves (`dispatch_registry`).
-/

namespace Qubitum
open Scale Outcome Ledger

variable {A L : Type} {w : Nat} {cfg : Config A L w} {s : State L w} {who : A} {amount : BitVec w}

theorem burnFree_registry : Yields (fun s' => s'.registry = s.registry) (burnFree cfg s who amount) := by
  simp [burnFree]

variable [Codec A] {minerId : MinerId} {validatorId : ValidatorId} {requestId : RequestId}
  {params : AutoRouteInferenceRequestParams w} {submission : InferenceProofSubmission}
  {requestUser minerOperator validatorOperator : A} {assignmentBlinding : Commitment}
  {timingWitness : InferenceRequestTimingWitness} {termsWitness : InferenceRequestTermsWitness w}
  {status : InferenceRequestStatus}

theorem openInferenceRequest_registry : Yields (fun s' => s'.registry = s.registry)
      (openInferenceRequest cfg s who requestId minerId validatorId params) := by
  simp [openInferenceRequest, State.depositActivityEvents]

theorem releaseStaleRequest_registry :
    Yields (fun s' => s'.registry = s.registry) (releaseStaleRequest cfg s requestId who minerId validatorId
      assignmentBlinding timingWitness termsWitness status) := by
  simp [releaseStaleRequest]

theorem refundRejectedRequest_registry : Yields (fun s' => s'.registry = s.registry)
      (refundRejectedRequest cfg s submission requestUser assignmentBlinding termsWitness) := by
  simp [refundRejectedRequest]

theorem settleRequestPayment_registry :
    Yields (fun s' => s'.registry = s.registry) (settleRequestPayment cfg s submission requestUser minerOperator
      validatorOperator assignmentBlinding termsWitness) := by
  simp [settleRequestPayment]

/-- The calls that create subnets, and those of participants about themselves. -/
def Call.OnRegistry : Call A w → Prop
  | .createSubnet .. | .registerMiner .. | .activateMiner .. | .registerValidator .. | .deactivateMiner ..
  | .withdrawMinerBond .. | .deactivateValidator .. | .withdrawValidatorStake .. | .setMinerIdentityCommitments ..
  | .setValidatorIdentityCommitments .. => True
  | _ => False

/-- **A property of the registry survives a call**, if it survives slashes and the calls about the registry. -/
theorem dispatch_registry {J : Registry w → Prop} {verify : ProofVerifier} {origin : Origin A} {call : Call A w}
    (hj : J s.registry)
    (hminer : ∀ id operator bps, Yields (fun s' => J s'.registry) (slashMinerBond cfg s id operator bps))
    (hvalidator : ∀ s : State L w, J s.registry → ∀ id operator bps,
      Yields (fun s' => J s'.registry) (slashValidatorStake cfg s id operator bps))
    (hown : call.OnRegistry → Yields (fun s' => J s'.registry) (dispatch cfg verify s origin call)) :
    Yields (fun s' => J s'.registry) (dispatch cfg verify s origin call) := by
  have hkept : ∀ {s s' : State L w}, J s.registry → s'.registry = s.registry → J s'.registry := fun h heq => heq ▸ h
  cases call with
  | submitProof =>
    simp only [dispatch, submitProof, yields_bind]
    refine .of_forall fun _ => .of_forall fun _ => .of_forall fun outcome => ?_
    cases outcome with
    | error => exact yields_error
    | valid =>
      simp only [yields_bind, yields_pure]
      exact .of_forall fun _ => settleRequestPayment_registry.mono fun _ h => hkept hj h
    | invalid =>
      simp only [yields_bind, yields_pure]
      refine .of_forall fun _ => (hminer _ _ _).mono fun s1 h1 => (hvalidator s1 h1 _ _ _).mono fun s2 h2 => ?_
      exact refundRejectedRequest_registry.mono fun _ h => hkept h2 h
  | challengeProof =>
    simp only [dispatch, challengeProof, yields_bind]
    refine .of_forall fun _ => .of_forall fun _ => .of_forall fun outcome => ?_
    cases outcome with
    | error => exact yields_error
    | valid => exact yields_error
    | invalid =>
      simp only [yields_bind, yields_pure]
      refine .of_forall fun _ => (hminer _ _ _).mono fun s1 h1 => ?_
      exact refundRejectedRequest_registry.mono fun _ h => hkept h1 h
  | slashMiner =>
    simp only [dispatch, slashMiner, yields_bind, yields_pure]
    exact .of_forall fun _ => .of_forall fun _ => .of_forall fun _ => .of_forall fun _ => hminer _ _ _
  | slashValidator =>
    simp only [dispatch, slashValidator, yields_bind, yields_pure]
    exact .of_forall fun _ => .of_forall fun _ => .of_forall fun _ => .of_forall fun _ => hvalidator s hj _ _ _
  | requestInference =>
    simp only [dispatch, requestInference, yields_bind]
    iterate 5 refine .of_forall fun _ => ?_
    exact openInferenceRequest_registry.mono fun _ h => hkept hj h
  | requestInferenceAutoRoute =>
    simp only [dispatch, requestInferenceAutoRoute, yields_bind]
    iterate 4 refine .of_forall fun _ => ?_
    exact openInferenceRequest_registry.mono fun _ h => hkept hj h
  | requestInferenceCommitments =>
    simp only [dispatch, requestInferenceCommitments, yields_bind]
    exact .of_forall fun _ => .of_forall fun _ => yields_error
  | cancelInference =>
    simp only [dispatch, cancelInference, yields_bind, yields_pure]
    exact .of_forall fun _ => releaseStaleRequest_registry.mono fun _ h => hkept hj h
  | expireInference =>
    simp only [dispatch, expireInference, yields_bind, yields_pure]
    exact .of_forall fun _ => releaseStaleRequest_registry.mono fun _ h => hkept hj h
  | _ => exact hown trivial
end Qubitum
