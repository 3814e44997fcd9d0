import Qubitum.Pallet.Dispatch

/-!
# `Pallet.Run` — runs of the pallet and what they remember

The chain stores commitments only, so statements such as "the payment given when the request was opened"
or "the operator of the miner" are about the **run**, not about a state. `Exec` pairs a state with the
part of the run's history they refer to: who registered each participant, and with which arguments and
which route each request was opened. The history is recorded by successful calls and never read by them.

`Reachable cfg U` are the executions reached from an empty pallet by any calls — successful or failed,
from any origin, with any arguments and any answers of the proof verifier —, any passage of blocks, and
any movement of money by the rest of the runtime that leaves the pallet's own holds alone. Every preimage
that such a call hashes to check or to store an account, assignment, timing or terms commitment is taken
to lie in `U` (`Exec.preimages`); collision-freeness is later assumed on `U` only.
-/

namespace Qubitum
open Scale Outcome Ledger

variable {A L : Type} {w : Nat}

/-- How a request was opened. -/
structure Opening (A : Type) (w : Nat) where
  requestId : RequestId
  user : A
  minerId : MinerId
  validatorId : ValidatorId
  params : AutoRouteInferenceRequestParams w
  createdAt : BlockNumber
  /-- the identity of the routed miner at that time -/
  minerIdentity : Identity
  /-- the identity of the routed validator at that time -/
  validatorIdentity : Identity

/-- What a run remembers. -/
structure History (A : Type) (w : Nat) where
  minerOperators : List (MinerId × A)
  validatorOperators : List (ValidatorId × A)
  openings : List (Opening A w)

/-- A state together with the history that led to it. -/
structure Exec (A L : Type) (w : Nat) where
  state : State L w
  history : History A w

/-- One step of a run. -/
inductive Action (A : Type) (w : Nat) where
  | dispatch (verify : ProofVerifier) (origin : Origin A) (call : Call A w)
  | advance (blocks : Nat)

/-- The account a call acts for, if its origin is accepted. -/
def signer (cfg : Config A L w) (origin : Origin A) : Option A :=
  match ensurePayloadSigner cfg origin with
  | .ok who  => some who
  | .error _ => none

/-- The opening that a request call stands for in a state. -/
def openingOf (cfg : Config A L w) (s : State L w) (origin : Origin A) (requestId : RequestId)
    (params : AutoRouteInferenceRequestParams w) : Option (Opening A w) := do
  let user ← signer cfg origin
  let assignment ← routeAssignment cfg s.registry params.subnetId requestId params.assignmentBlinding
  pure
    { requestId, user, minerId := assignment.minerId, validatorId := assignment.validatorId, params,
      createdAt := s.currentBlock
      minerIdentity := s.registry.minerIdentity.get assignment.minerId
      validatorIdentity := s.registry.validatorIdentity.get assignment.validatorId }

/-- The history after a successful call. -/
def History.record (cfg : Config A L w) (h : History A w) (s : State L w) (origin : Origin A) : Call A w → History A w
  | .registerMiner .. =>
      { h with
        minerOperators := h.minerOperators ++ (signer cfg origin).toList.map (s.registry.minerCount, ·) }
  | .registerValidator .. =>
      { h with
        validatorOperators := h.validatorOperators ++ (signer cfg origin).toList.map (s.registry.validatorCount, ·) }
  | .requestInference requestId params =>
      { h with openings := h.openings ++ (openingOf cfg s origin requestId params.toAutoRoute).toList }
  | .requestInferenceAutoRoute requestId params =>
      { h with openings := h.openings ++ (openingOf cfg s origin requestId params).toList }
  | _ => h

namespace Exec

/-- An empty pallet. -/
def empty (ledger : L) (blockNumber : Nat) : Exec A L w := ⟨.empty ledger blockNumber, ⟨[], [], []⟩⟩

/-- A step: a failed call leaves everything as it was. -/
def step [Codec A] (cfg : Config A L w) (e : Exec A L w) : Action A w → Exec A L w
  | .dispatch verify origin call =>
      match dispatch cfg verify e.state origin call with
      | .ok s    => ⟨s, e.history.record cfg e.state origin call⟩
      | .error _ => e
  | .advance blocks =>
      { e with state := { e.state with blockNumber := e.state.blockNumber + blocks } }

variable [Codec A] {cfg : Config A L w} {e : Exec A L w} {verify : ProofVerifier} {origin : Origin A} {call : Call A w}

theorem step_of_ok {s : State L w} (h : Qubitum.dispatch cfg verify e.state origin call = .ok s) :
    e.step cfg (.dispatch verify origin call) = ⟨s, e.history.record cfg e.state origin call⟩ := by
  simp only [step, h]

theorem step_of_error {err : DispatchError} (h : Qubitum.dispatch cfg verify e.state origin call = .error err) :
    e.step cfg (.dispatch verify origin call) = e := by
  simp only [step, h]
end Exec

/-! ## Hashed preimages -/

section Preimages
variable [Codec A]

/-- The commitments an account may be checked against or stored under. -/
def accountPreimages (who : A) : List Bytes := [accountPreimage who, operatorPreimage who, requestUserPreimage who]

omit [Codec A] in
/-- The commitments a request is stored under. -/
def Opening.requestPreimages (o : Opening A w) : List Bytes :=
  [requestAssignmentPreimage o.requestId o.params.subnetId o.minerId o.validatorId o.params.assignmentBlinding,
    requestTimingPreimage o.requestId o.createdAt o.params.timingBlinding,
    requestTermsPreimage o.requestId o.params.payment o.params.validatorFeeBps o.params.treasuryFeeBps
      o.params.termsBlinding]

/-- What the assignment and terms witnesses of a call are hashed to, in both forms. -/
def witnessPreimages (request : ChainInferenceRequest) (minerId : MinerId) (validatorId : ValidatorId)
    (assignmentBlinding : Commitment) (termsWitness : InferenceRequestTermsWitness w) : List Bytes :=
  let terms := termsWitness.terms
  [requestAssignmentPreimage request.requestId request.subnetId minerId validatorId assignmentBlinding,
    legacyRequestAssignmentPreimage request.requestId request.subnetId minerId validatorId,
    requestTermsPreimage request.requestId terms.payment terms.validatorFeeBps terms.treasuryFeeBps
      termsWitness.blinding,
    legacyRequestTermsPreimage request.requestId terms.payment terms.validatorFeeBps terms.treasuryFeeBps]

/-- What a timing witness is hashed to, in both forms. -/
def timingPreimages (request : ChainInferenceRequest) (timingWitness : InferenceRequestTimingWitness) :
    List Bytes :=
  [requestTimingPreimage request.requestId timingWitness.createdAt timingWitness.blinding,
    legacyRequestTimingPreimage request.requestId timingWitness.createdAt]

omit [Codec A] in
/-- The witnesses of a call about a stored request. -/
def Call.witnesses (s : State L w) : Call A w → List Bytes
  | .submitProof submission _ _ assignmentBlinding termsWitness
  | .challengeProof submission _ _ assignmentBlinding termsWitness =>
      (s.requests.inferenceRequests submission.requestId).toList.flatMap fun request =>
        witnessPreimages request submission.minerId submission.validatorId assignmentBlinding termsWitness
  | .cancelInference requestId minerId validatorId assignmentBlinding timingWitness termsWitness
  | .expireInference requestId _ minerId validatorId assignmentBlinding timingWitness termsWitness =>
      (s.requests.inferenceRequests requestId).toList.flatMap fun request =>
        witnessPreimages request minerId validatorId assignmentBlinding termsWitness ++
          timingPreimages request timingWitness
  | _ => []

/-- The accounts a call names besides its signer. -/
def Call.accounts : Call A w → List A
  | .submitProof _ requestUser minerOperator _ _
  | .challengeProof _ requestUser minerOperator _ _ => [requestUser, minerOperator]
  | .slashMiner _ operator _
  | .slashValidator _ operator _ => [operator]
  | .expireInference _ requestUser .. => [requestUser]
  | _ => []

omit [Codec A] in
/-- The request a call would open. -/
def Call.opening (cfg : Config A L w) (s : State L w) (origin : Origin A) : Call A w → Option (Opening A w)
  | .requestInference requestId params => openingOf cfg s origin requestId params.toAutoRoute
  | .requestInferenceAutoRoute requestId params => openingOf cfg s origin requestId params
  | _ => none

/-- The preimages a step hashes to check or store an account, an assignment, a timing or terms. -/
def Exec.preimages (cfg : Config A L w) (e : Exec A L w) : Action A w → List Bytes
  | .dispatch _ origin call =>
      ((signer cfg origin).toList ++ call.accounts).flatMap accountPreimages ++
        call.witnesses e.state ++
        (call.opening cfg e.state origin).toList.flatMap Opening.requestPreimages
  | .advance _ => []

/-- Executions reached from an empty pallet, all of whose hashed preimages lie in `U`. -/
inductive Reachable (cfg : Config A L w) (U : Set Bytes) : Exec A L w → Prop
  | empty (ledger : L) (blockNumber : Nat)
      (unheld : ∀ reason who, cfg.currency.heldNat ledger reason who = 0) :
      Reachable cfg U (.empty ledger blockNumber)
  | step {e : Exec A L w} (action : Action A w) (hashed : ∀ p ∈ e.preimages cfg action, p ∈ U) :
      Reachable cfg U e → Reachable cfg U (e.step cfg action)
  /-- the rest of the runtime uses the currency, without touching the pallet's holds -/
  | outside {e : Exec A L w} (ledger : L)
      (held : ∀ reason who, cfg.currency.heldNat ledger reason who = cfg.currency.heldNat e.state.ledger reason who) :
      Reachable cfg U e → Reachable cfg U { e with state := { e.state with ledger } }

namespace Exec

/-- Take a list of steps. -/
def run (cfg : Config A L w) (e : Exec A L w) (actions : List (Action A w)) : Exec A L w :=
  actions.foldl (Exec.step cfg) e

/-- The preimages hashed along a list of steps. -/
def runPreimages (cfg : Config A L w) : Exec A L w → List (Action A w) → List Bytes
  | _, []                => []
  | e, action :: actions => e.preimages cfg action ++ runPreimages cfg (e.step cfg action) actions
end Exec

variable {cfg : Config A L w} {U : Set Bytes} {e : Exec A L w}

theorem Reachable.run (h : Reachable cfg U e) {actions : List (Action A w)}
    (hashed : ∀ p ∈ e.runPreimages cfg actions, p ∈ U) : Reachable cfg U (e.run cfg actions) := by
  induction actions generalizing e with
  | nil => exact h
  | cons action actions ih =>
    simp only [Exec.runPreimages, List.mem_append] at hashed
    exact ih (.step action (fun p hp => hashed p (.inl hp)) h) fun p hp => hashed p (.inr hp)

/-- The executions that a run goes on to from `e`, by the same kinds of steps. -/
inductive Steps (cfg : Config A L w) (U : Set Bytes) (e : Exec A L w) : Exec A L w → Prop
  | refl : Steps cfg U e e
  | step {e' : Exec A L w} (action : Action A w) (hashed : ∀ p ∈ e'.preimages cfg action, p ∈ U) :
      Steps cfg U e e' → Steps cfg U e (e'.step cfg action)
  | outside {e' : Exec A L w} (ledger : L)
      (held : ∀ reason who, cfg.currency.heldNat ledger reason who = cfg.currency.heldNat e'.state.ledger reason who) :
      Steps cfg U e e' → Steps cfg U e { e' with state := { e'.state with ledger } }

theorem Reachable.steps {e' : Exec A L w} (h : Reachable cfg U e) (hs : Steps cfg U e e') : Reachable cfg U e' := by
  induction hs with
  | refl => exact h
  | step action hashed _ ih => exact .step action hashed ih
  | outside ledger held _ ih => exact .outside ledger held ih
end Preimages
end Qubitum
