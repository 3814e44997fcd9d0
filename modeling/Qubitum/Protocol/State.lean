import Qubitum.Protocol.Policy
import Qubitum.Lib.MapSum
import Qubitum.Lib.Mutation

/-!
# `Protocol.State` — the protocol state machine

`ProtocolState` and its operations (`primitives/qubitum-protocol/src/state.rs`). An operation works on
the state in place and leaves with `?` from many points; nothing rolls back what it has written by then,
so it is an `EStateM` computation whose error carries the state it stopped in.

`accounts.entry(a).or_default()` writes the default ledger of an unknown account even when the operation
then fails, which is why two states can differ in `accounts` and still agree on every `ledger`.
-/

namespace Qubitum
open Outcome Mutation

/-- Account identifier placeholder used by runtime integrations. -/
abbrev AccountId := List.Vector UInt8 32

/-- Balance accounting tracked by the protocol state machine. -/
structure AccountLedger where
  free : Balance
  locked : Balance
  deriving DecidableEq

instance : Inhabited AccountLedger := ⟨⟨0, 0⟩⟩

/-- Registered subnet metadata. -/
structure SubnetConfig where
  id : SubnetId
  owner : AccountId
  domain : SubnetDomain
  policy : SubnetPolicy
  active : Bool
  deriving DecidableEq

/-- Registered miner metadata. -/
structure MinerRegistration where
  id : MinerId
  operator : AccountId
  subnetId : SubnetId
  modelCommitment : Commitment
  proofSystem : ProofSystem
  bond : Balance
  status : RegistryStatus
  shieldedIdentityCommitment : Option Commitment
  endpointCommitment : Option Commitment
  deriving DecidableEq

/-- Registered validator metadata. -/
structure ValidatorRegistration where
  id : ValidatorId
  operator : AccountId
  staked : Balance
  routingSubnets : List SubnetId
  status : RegistryStatus
  deriving DecidableEq

/-- Result of processing a proof against a verifier. -/
inductive ProofProcessing where
  | accepted (record : InferenceRecord)
  | rejected (minerSlashed : Balance)
  deriving DecidableEq

/-- Minimal state machine for protocol transitions. -/
structure ProtocolState where
  treasuryAccount : AccountId
  accounts : MapSum.Map AccountId AccountLedger
  subnets : MapSum.Map SubnetId SubnetConfig
  miners : MapSum.Map MinerId MinerRegistration
  validators : MapSum.Map ValidatorId ValidatorRegistration
  records : MapSum.Map RequestId InferenceRecord
  totalBurned : Balance
  nextSubnetId : SubnetId
  nextMinerId : MinerId
  nextValidatorId : ValidatorId

namespace ProtocolState

/-- A method of `&mut self` that returns a `Result`. -/
abbrev Op := EStateM ProtocolError ProtocolState

/-- Abstract proof verifier used by runtime adapters and tests. -/
abbrev ProofVerifier := InferenceProofSubmission → SubnetPolicy → Except ProtocolError VerificationOutcome

def new (treasuryAccount : AccountId) : ProtocolState where
  treasuryAccount := treasuryAccount
  accounts := ∅
  subnets := ∅
  miners := ∅
  validators := ∅
  records := ∅
  totalBurned := 0
  nextSubnetId := 0
  nextMinerId := 0
  nextValidatorId := 0

def ledger (s : ProtocolState) (account : AccountId) : AccountLedger := (s.accounts.lookup account).getD default

/-- Write the ledger of an account. -/
def put (s : ProtocolState) (account : AccountId) (l : AccountLedger) : ProtocolState :=
  { s with accounts := s.accounts.insert account l }

/-! ## Balance moves -/

section
variable (account : AccountId)

/-- `self.accounts.entry(account).or_default()`: the entry exists from here on. -/
def entry : Op AccountLedger := do
  let s ← get
  modify (·.put account (s.ledger account))
  pure (s.ledger account)

def credit (amount : Balance) : Op Unit := do
  let l ← entry account
  let free ← lift (okOr (Checked.add l.free amount) .arithmeticOverflow)
  modify (·.put account { l with free })

def debitFree (amount : Balance) : Op Unit := do
  let l ← entry account
  lift (ensure (¬ l.free < amount) .insufficientBalance)
  let free ← lift (okOr (Checked.sub l.free amount) .arithmeticOverflow)
  modify (·.put account { l with free })

/-- `self.total_burned = self.total_burned.checked_add(amount)..?` -/
def addBurned (amount : Balance) : Op Unit := do
  let s ← get
  let totalBurned ← lift (okOr (Checked.add s.totalBurned amount) .arithmeticOverflow)
  modify ({ · with totalBurned })

def burn (amount : Balance) : Op Unit := do
  debitFree account amount
  addBurned amount

def burnLocked (amount : Balance) : Op Unit := do
  let l ← entry account
  lift (ensure (¬ l.locked < amount) .insufficientBalance)
  let locked ← lift (okOr (Checked.sub l.locked amount) .arithmeticOverflow)
  modify (·.put account { l with locked })
  addBurned amount

def transfer (source dest : AccountId) (amount : Balance) : Op Unit := do
  debitFree source amount
  credit dest amount

def lock (amount : Balance) : Op Unit := do
  debitFree account amount
  let l ← entry account
  let locked ← lift (okOr (Checked.add l.locked amount) .arithmeticOverflow)
  modify (·.put account { l with locked })

def unlock (amount : Balance) : Op Unit := do
  let l ← entry account
  lift (ensure (¬ l.locked < amount) .insufficientBalance)
  let locked ← lift (okOr (Checked.sub l.locked amount) .arithmeticOverflow)
  modify (·.put account { l with locked })
  -- the field `locked` is already written when this addition fails
  let free ← lift (okOr (Checked.add l.free amount) .arithmeticOverflow)
  modify (·.put account { locked, free })
end

/-! ## Genesis -/

/-- The loop of `with_genesis` over the endowed accounts, from the amount issued so far. -/
def endow : List (AccountId × Balance) → Balance → Op Balance
  | [], issued => pure issued
  | (account, amount) :: endowed, issued => do
      let issued ← lift (okOr (Checked.add issued amount) .arithmeticOverflow)
      credit account amount
      endow endowed issued

/-- The body of `with_genesis` after `Self::new`. -/
def issue (treasuryAccount : AccountId) (endowed : List (AccountId × Balance)) : Op Unit := do
  let issued ← endow endowed 0
  lift (ensure (¬ initialSupply < issued) .arithmeticOverflow)
  let treasuryRemainder ← lift (okOr (Checked.sub initialSupply issued) .arithmeticOverflow)
  credit treasuryAccount treasuryRemainder

def withGenesis (treasuryAccount : AccountId) (endowed : List (AccountId × Balance)) :
    Except ProtocolError ProtocolState :=
  match issue treasuryAccount endowed (new treasuryAccount) with
  | .ok _ s    => .ok s
  | .error e _ => .error e

/-! ## Subnets, miners and validators -/

def createSubnet (owner : AccountId) (domain : SubnetDomain) (creationBurn : Balance) : Op SubnetId := do
  let policy := SubnetPolicy.qubitum
  let _ ← lift (policy.validateCreationBurn creationBurn)
  burn owner creationBurn
  let s ← get
  let id := s.nextSubnetId
  let nextSubnetId ← lift (okOr (Checked.add16 id 1) .arithmeticOverflow)
  modify ({ · with nextSubnetId })
  -- `insert(..).is_none()`: the entry is written before its absence is checked
  let inserted := (s.subnets.lookup id).isNone
  modify ({ · with subnets := s.subnets.insert id { id, owner, domain, policy, active := true } })
  lift (ensure inserted .duplicateSubnet)
  pure id

def registerMiner (operator : AccountId) (subnetId : SubnetId) (modelCommitment : Commitment)
    (proofSystem : ProofSystem) : Op MinerId := do
  let s ← get
  let subnet ← lift (okOr (s.subnets.lookup subnetId) .unknownSubnet)
  let policy := subnet.policy
  lift (ensure (policy.proofSystem = proofSystem) .proofSystemMismatch)
  lift (Protocol.ensureCommitment modelCommitment)
  burn operator policy.minerBond.registrationBurn
  let s ← get
  let id := s.nextMinerId
  let nextMinerId ← lift (okOr (Checked.add64 id 1) .arithmeticOverflow)
  modify ({ · with nextMinerId })
  let miner : MinerRegistration :=
    { id, operator, subnetId, modelCommitment, proofSystem, bond := 0, status := .pending,
      shieldedIdentityCommitment := none, endpointCommitment := none }
  modify ({ · with miners := s.miners.insert id miner })
  pure id

/-- `self.miners.get_mut(&miner_id).ok_or(UnknownMiner)?`, and the assignments made through it. -/
def updateMiner (minerId : MinerId) (f : MinerRegistration → MinerRegistration) : Op Unit := do
  let s ← get
  let miner ← lift (okOr (s.miners.lookup minerId) .unknownMiner)
  modify ({ · with miners := s.miners.insert minerId (f miner) })

/-- The status of the miner is not looked at. -/
def activateMiner (minerId : MinerId) (bond : Balance) : Op Unit := do
  let s ← get
  let miner ← lift (okOr (s.miners.lookup minerId) .unknownMiner)
  let subnet ← lift (okOr (s.subnets.lookup miner.subnetId) .unknownSubnet)
  let _ ← lift (subnet.policy.minerBond.validateBond bond)
  lock miner.operator bond
  updateMiner minerId ({ · with bond, status := .active })

def beginMinerExit (minerId : MinerId) (currentBlock : BlockNumber) : Op Unit := do
  let s ← get
  let miner ← lift (okOr (s.miners.lookup minerId) .unknownMiner)
  let subnet ← lift (okOr (s.subnets.lookup miner.subnetId) .unknownSubnet)
  let exitAvailableAt ← lift (subnet.policy.minerBond.exitAvailableAt currentBlock)
  updateMiner minerId ({ · with status := .exiting exitAvailableAt })

def completeMinerExit (minerId : MinerId) (currentBlock : BlockNumber) : Op Unit := do
  let s ← get
  let miner ← lift (okOr (s.miners.lookup minerId) .unknownMiner)
  match miner.status with
  | .exiting exitAvailableAt =>
      lift (ensure (¬ currentBlock < exitAvailableAt) .cooldownNotComplete)
      unlock miner.operator miner.bond
      updateMiner minerId ({ · with bond := 0, status := .disabled })
  | _ => throw .notActive

def registerValidator (operator : AccountId) (subnetId : SubnetId) (stake : Balance) : Op ValidatorId := do
  let s ← get
  let subnet ← lift (okOr (s.subnets.lookup subnetId) .unknownSubnet)
  let _ ← lift (subnet.policy.validateValidatorStake stake)
  lock operator stake
  let s ← get
  let id := s.nextValidatorId
  let nextValidatorId ← lift (okOr (Checked.add64 id 1) .arithmeticOverflow)
  modify ({ · with nextValidatorId })
  let validator : ValidatorRegistration :=
    { id, operator, staked := stake, routingSubnets := [subnetId], status := .active }
  modify ({ · with validators := s.validators.insert id validator })
  pure id

/-! ## Proofs -/

/-- The part of `submit_valid_proof` before the first transfer: the operators to be paid, and how much. -/
def settlementPlan (s : ProtocolState) (submission : InferenceProofSubmission) (payment : Balance)
    (validatorFeeBps treasuryFeeBps : UInt16) : Except ProtocolError (AccountId × AccountId × InferenceSettlement) := do
  let subnet ← okOr (s.subnets.lookup submission.subnetId) .unknownSubnet
  let _ ← submission.validateShape subnet.policy
  let miner ← okOr (s.miners.lookup submission.minerId) .unknownMiner
  ensure (¬ (miner.subnetId ≠ submission.subnetId ∨ miner.status ≠ .active)) .notActive
  let validator ← okOr (s.validators.lookup submission.validatorId) .unknownValidator
  ensure (¬ (¬ submission.subnetId ∈ validator.routingSubnets ∨ validator.status ≠ .active)) .notActive
  let settlement ← settleInferencePayment payment validatorFeeBps treasuryFeeBps
  pure (miner.operator, validator.operator, settlement)

/-- Three transfers in a row; whether the request is already recorded is not looked at. -/
def submitValidProof (payer : AccountId) (submission : InferenceProofSubmission) (payment : Balance)
    (validatorFeeBps treasuryFeeBps : UInt16) : Op InferenceRecord := do
  let s ← get
  let (minerOperator, validatorOperator, settlement) ←
    lift (s.settlementPlan submission payment validatorFeeBps treasuryFeeBps)
  transfer payer minerOperator settlement.minerPayment
  transfer payer validatorOperator settlement.validatorFee
  transfer payer s.treasuryAccount settlement.treasuryFee
  let record := InferenceRecord.fromValidSubmission submission
  modify fun s => { s with records := s.records.insert record.requestId record }
  pure record

def slashMiner (minerId : MinerId) (slashBps : UInt16) : Op Balance := do
  let s ← get
  let miner ← lift (okOr (s.miners.lookup minerId) .unknownMiner)
  let subnet ← lift (okOr (s.subnets.lookup miner.subnetId) .unknownSubnet)
  let policy := subnet.policy.minerBond
  let slashAmount ← lift (policy.slashAmount miner.bond slashBps)
  let remainingBond ← lift (okOr (Checked.sub miner.bond slashAmount) .arithmeticOverflow)
  burnLocked miner.operator slashAmount
  updateMiner minerId fun miner =>
    { miner with
      bond := remainingBond
      status := if remainingBond < policy.minBond then .slashed else miner.status }
  pure slashAmount

/-- A rejected submission slashes the miner it names; only an accepted one is checked any further. -/
def processProof (payer : AccountId) (submission : InferenceProofSubmission) (payment : Balance)
    (validatorFeeBps treasuryFeeBps : UInt16) (verify : ProofVerifier) : Op ProofProcessing := do
  let s ← get
  let subnet ← lift (okOr (s.subnets.lookup submission.subnetId) .unknownSubnet)
  match ← lift (verify submission subnet.policy) with
  | .valid =>
      let record ← submitValidProof payer submission payment validatorFeeBps treasuryFeeBps
      pure (.accepted record)
  | .invalid slashBps =>
      let minerSlashed ← slashMiner submission.minerId slashBps
      pure (.rejected minerSlashed)
  | .error => throw .verifierError

/-! ## Runs -/

/-- The public operations with their arguments. -/
inductive Operation where
  | createSubnet (owner : AccountId) (domain : SubnetDomain) (creationBurn : Balance)
  | registerMiner (operator : AccountId) (subnetId : SubnetId) (modelCommitment : Commitment)
      (proofSystem : ProofSystem)
  | activateMiner (minerId : MinerId) (bond : Balance)
  | beginMinerExit (minerId : MinerId) (currentBlock : BlockNumber)
  | completeMinerExit (minerId : MinerId) (currentBlock : BlockNumber)
  | registerValidator (operator : AccountId) (subnetId : SubnetId) (stake : Balance)
  | submitValidProof (payer : AccountId) (submission : InferenceProofSubmission) (payment : Balance)
      (validatorFeeBps treasuryFeeBps : UInt16)
  | processProof (payer : AccountId) (submission : InferenceProofSubmission) (payment : Balance)
      (validatorFeeBps treasuryFeeBps : UInt16) (verify : ProofVerifier)
  | slashMiner (minerId : MinerId) (slashBps : UInt16)

/-- Call an operation; the value it returns is left to the caller. -/
def Operation.exec : Operation → Op Unit
  | .createSubnet owner domain creationBurn => do let _ ← ProtocolState.createSubnet owner domain creationBurn
  | .registerMiner operator subnetId modelCommitment proofSystem => do
      let _ ← ProtocolState.registerMiner operator subnetId modelCommitment proofSystem
  | .activateMiner minerId bond => ProtocolState.activateMiner minerId bond
  | .beginMinerExit minerId currentBlock => ProtocolState.beginMinerExit minerId currentBlock
  | .completeMinerExit minerId currentBlock => ProtocolState.completeMinerExit minerId currentBlock
  | .registerValidator operator subnetId stake => do
      let _ ← ProtocolState.registerValidator operator subnetId stake
  | .submitValidProof payer submission payment validatorFeeBps treasuryFeeBps => do
      let _ ← ProtocolState.submitValidProof payer submission payment validatorFeeBps treasuryFeeBps
  | .processProof payer submission payment validatorFeeBps treasuryFeeBps verify => do
      let _ ← ProtocolState.processProof payer submission payment validatorFeeBps treasuryFeeBps verify
  | .slashMiner minerId slashBps => do let _ ← ProtocolState.slashMiner minerId slashBps

/-- The state after an operation, whether it returned `Ok` or `Err`. -/
def step (s : ProtocolState) (op : Operation) : ProtocolState := left (op.exec s)

/-- The state after a sequence of operations. -/
def run (s : ProtocolState) (ops : List Operation) : ProtocolState := ops.foldl step s

@[simp] theorem run_cons (s : ProtocolState) (op : Operation) (ops : List Operation) :
    s.run (op :: ops) = (s.step op).run ops := rfl

/-- A state that some sequence of operations reaches from a successful genesis. -/
def Reachable (s : ProtocolState) : Prop :=
  ∃ treasuryAccount endowed genesis ops, withGenesis treasuryAccount endowed = .ok genesis ∧ s = genesis.run ops
end ProtocolState
end Qubitum
