import Qubitum.Pallet.Commitments
import Qubitum.Lib.Dense

/-!
# `Pallet.Registry` — what the registry answers

The read-only side of the registry: identity-signature checks, operator authorization, locked capital,
and the **route selection** over the eligible participants of a subnet. Nothing here writes storage.

Miners and validators follow the same rules with their own maps, domains and errors; each rule is stated
once over an `IdentityStore` or a record list, and the two members of the family apply it.
-/

namespace Qubitum
open Scale Outcome

variable {A L : Type} {w : Nat}

def ensureCommitment (commitment : Commitment) : Except DispatchError Unit :=
  ensure (commitment ≠ zeroCommitment) (.module .missingCommitment)

/-- `if let Some(x) = o { check(x)?; }` -/
def whenSome {α : Type} (o : Option α) (check : α → Except DispatchError Unit) : Except DispatchError Unit :=
  match o with
  | some a => check a
  | none   => pure ()

def ensureOptionalCommitment (commitment : Option Commitment) : Except DispatchError Unit :=
  whenSome commitment ensureCommitment

def ensureSupportedProofSystem (proofSystem : ProofSystem) : Except DispatchError Unit :=
  ensure (proofSystem = .riscZeroStark ∨ proofSystem = .stark) (.module .unsupportedProofSystem)

def ensureProofEnvelope (proof : ProofEnvelope) (proofSystem : ProofSystem) : Except DispatchError Unit := do
  ensureCommitment proof.proofCommitment
  ensureCommitment proof.journalCommitment
  ensureCommitment proof.imageId
  ensure (proof.verifierVersion.supports proofSystem) (.module .proofSystemMismatch)

/-! ## Identity signatures -/

section Signatures
variable (cfg : Config A L w)

def ensureSignatureBundle (signatureBundle : SignatureBundle) : Except DispatchError Unit :=
  ((cfg.signatureMode.validate signatureBundle).map fun _ => ()).mapError fun _ => .module .invalidSignatureBundle

def ensureSignatureCommitmentBoundToChallenge (signature : SignatureCommitment) (challenge : Commitment) :
    Except DispatchError Unit :=
  ensure (cfg.identitySignatureVerifier signature ⟨cfg.signatureMode, challenge⟩) (.module .invalidSignatureBundle)

def ensureSignatureBundleBoundToChallenge (signatureBundle : SignatureBundle) (challenge : Commitment) :
    Except DispatchError Unit := do
  ensureSignatureBundle cfg signatureBundle
  whenSome signatureBundle.classical (ensureSignatureCommitmentBoundToChallenge cfg · challenge)
  whenSome signatureBundle.postQuantum (ensureSignatureCommitmentBoundToChallenge cfg · challenge)

def ensureSignatureCommitmentNotReserved (signature : SignatureCommitment)
    (reserved : List (Option Commitment)) : Except DispatchError Unit :=
  ensure
    (reserved.all fun
      | some commitment =>
          signature.publicKeyCommitment ≠ commitment && signature.signatureCommitment ≠ commitment
      | none => true)
    (.module .invalidSignatureBundle)

def ensureIdentitySignatureBundleBound (signatureBundle : SignatureBundle) (challenge operatorCommitment : Commitment)
    (shieldedIdentityCommitment endpointCommitment : Option Commitment) : Except DispatchError Unit := do
  ensureSignatureBundleBoundToChallenge cfg signatureBundle challenge
  let reserved := [some operatorCommitment, some challenge, shieldedIdentityCommitment, endpointCommitment]
  whenSome signatureBundle.classical (ensureSignatureCommitmentNotReserved · reserved)
  whenSome signatureBundle.postQuantum (ensureSignatureCommitmentNotReserved · reserved)

/-- The identity a participant published is complete, its stored challenge is the one its commitments
    determine, and its bundle is bound to that challenge. -/
def ensureStoredSignatureBundleBound (identity : Identity)
    (expected : Option Commitment → Option Commitment → Commitment) (operatorCommitment : Commitment) :
    Except DispatchError Unit := do
  let commitments ← okOr identity.commitments (.module .missingSignatureBundle)
  let storedChallenge ← okOr identity.signatureChallenge (.module .missingSignatureBundle)
  let expectedChallenge := expected commitments.shieldedIdentityCommitment commitments.endpointCommitment
  ensure (storedChallenge = expectedChallenge) (.module .invalidSignatureBundle)
  let signatureBundle ← okOr identity.signatureBundle (.module .missingSignatureBundle)
  ensureIdentitySignatureBundleBound cfg signatureBundle expectedChallenge operatorCommitment
    commitments.shieldedIdentityCommitment commitments.endpointCommitment

def ensureMinerSignatureBundleBound (reg : Registry w) (minerId : MinerId) (miner : ChainMiner) :
    Except DispatchError Unit :=
  ensureStoredSignatureBundleBound cfg (reg.minerIdentity.get minerId)
    (cfg.minerIdentitySignatureChallenge minerId miner.operatorCommitment) miner.operatorCommitment

def ensureValidatorSignatureBundleBound (reg : Registry w) (validatorId : ValidatorId)
    (validator : ChainValidator) : Except DispatchError Unit :=
  ensureStoredSignatureBundleBound cfg (reg.validatorIdentity.get validatorId)
    (cfg.validatorIdentitySignatureChallenge validatorId validator.operatorCommitment)
    validator.operatorCommitment

def ensureParticipantSignatureBundles (reg : Registry w) (minerId : MinerId) (validatorId : ValidatorId) :
    Except DispatchError Unit := do
  let miner ← okOr (reg.miners minerId) (.module .unknownMiner)
  let validator ← okOr (reg.validators validatorId) (.module .unknownValidator)
  ensureMinerSignatureBundleBound cfg reg minerId miner
  ensureValidatorSignatureBundleBound cfg reg validatorId validator
end Signatures

/-! ## Operators -/

section Operators
variable [Codec A] (cfg : Config A L w)

def ensureMinerOperator (miner : ChainMiner) (operator : A) : Except DispatchError Unit :=
  ensure (cfg.operatorCommitmentMatches miner.operatorCommitment operator) (.module .notOperator)

def ensureValidatorOperator (validator : ChainValidator) (operator : A) : Except DispatchError Unit :=
  ensure (cfg.operatorCommitmentMatches validator.operatorCommitment operator) (.module .notOperator)

def ensureValidatorSubmissionOperator (validator : ChainValidator) (operator : A) : Except DispatchError Unit :=
  ensure (cfg.operatorCommitmentMatches validator.operatorCommitment operator) (.module .notValidatorOperator)
end Operators

def ensureDistinctOperators (miner : ChainMiner) (validator : ChainValidator) : Except DispatchError Unit :=
  ensure (miner.operatorCommitment ≠ validator.operatorCommitment) (.module .selfValidation)

/-! ## Locked capital -/

def minerCapitalBearingStatus : RegistryStatus → Bool
  | .active | .slashed | .exiting _ => true
  | _                               => false

def validatorCapitalBearingStatus : RegistryStatus → Bool
  | .pending | .active | .slashed | .exiting _ => true
  | _                                          => false

def minerRecords (reg : Registry w) : List (MinerId × ChainMiner) := Dense.recordsBelow reg.minerCount reg.miners

def validatorRecords (reg : Registry w) : List (ValidatorId × ChainValidator) :=
  Dense.recordsBelow reg.validatorCount reg.validators

/-- `fold(0_u32, |count, _| count.saturating_add(1))` -/
def saturatingCount {α : Type} (l : List α) : UInt32 :=
  l.foldl (fun count _ => if count.toNat + 1 < 2 ^ 32 then count + 1 else count) 0

def minerCapitalRecordCount (reg : Registry w) (operatorCommitment : Commitment) : UInt32 :=
  saturatingCount ((minerRecords reg).filter fun (_, miner) =>
    miner.operatorCommitment = operatorCommitment && minerCapitalBearingStatus miner.status)

def validatorCapitalRecordCount (reg : Registry w) (operatorCommitment : Commitment) : UInt32 :=
  saturatingCount ((validatorRecords reg).filter fun (_, validator) =>
    validator.operatorCommitment = operatorCommitment && validatorCapitalBearingStatus validator.status)

section Capital
variable [Codec A] (cfg : Config A L w)

def heldMinerBond (ledger : L) (operator : A) : BitVec w := cfg.currency.balanceOnHold ledger .minerBond operator

def heldValidatorStake (ledger : L) (operator : A) : BitVec w :=
  cfg.currency.balanceOnHold ledger .validatorStake operator

/-- The bond recorded for a miner; without a record, the whole hold of an operator whose only
    capital-bearing miner this is. -/
def lockedMinerBond (reg : Registry w) (ledger : L) (minerId : MinerId) (operator : A) :
    Except DispatchError (BitVec w) :=
  match reg.minerLockedBond minerId with
  | some bond => .ok bond
  | none => do
      let miner ← okOr (reg.miners minerId) (.module .unknownMiner)
      ensureMinerOperator cfg miner operator
      ensure (minerCapitalBearingStatus miner.status ∧
          minerCapitalRecordCount reg miner.operatorCommitment = 1)
        (.module .missingCapitalRecord)
      pure (heldMinerBond cfg ledger operator)

def lockedValidatorStake (reg : Registry w) (ledger : L) (validatorId : ValidatorId) (operator : A) :
    Except DispatchError (BitVec w) :=
  match reg.validatorLockedStake validatorId with
  | some stake => .ok stake
  | none => do
      let validator ← okOr (reg.validators validatorId) (.module .unknownValidator)
      ensureValidatorOperator cfg validator operator
      ensure (validatorCapitalBearingStatus validator.status ∧
          validatorCapitalRecordCount reg validator.operatorCommitment = 1)
        (.module .missingCapitalRecord)
      pure (heldValidatorStake cfg ledger operator)
end Capital

section Records
variable (cfg : Config A L w) (reg : Registry w)

def minerHasActiveLockedBondRecord (minerId : MinerId) : Bool :=
  match reg.minerLockedBond minerId with
  | some bond => cfg.minMinerBond ≤ bond
  | none      => false

def ensureMinerLockedBondRecord (minerId : MinerId) : Except DispatchError Unit :=
  ensure (minerHasActiveLockedBondRecord cfg reg minerId) (.module .missingCapitalRecord)

def validatorHasActiveLockedStakeRecord (validatorId : ValidatorId) : Bool :=
  match reg.validatorLockedStake validatorId with
  | some stake => cfg.minValidatorStake ≤ stake
  | none       => false

def ensureValidatorLockedStakeRecord (validatorId : ValidatorId) : Except DispatchError Unit :=
  ensure (validatorHasActiveLockedStakeRecord cfg reg validatorId) (.module .missingCapitalRecord)

/-! ## Routing -/

def minerIsRouteEligible (minerId : MinerId) (miner : ChainMiner) : Bool :=
  miner.status = .active && minerHasActiveLockedBondRecord cfg reg minerId &&
    (ensureMinerSignatureBundleBound cfg reg minerId miner).isOk

def validatorIsRouteEligible (validatorId : ValidatorId) (validator : ChainValidator) : Bool :=
  validator.status = .active && validatorHasActiveLockedStakeRecord cfg reg validatorId &&
    (ensureValidatorSignatureBundleBound cfg reg validatorId validator).isOk

section
variable (subnetId : SubnetId)

def activeMinerRouteIds : List MinerId :=
  (((minerRecords reg).filter fun (minerId, miner) =>
    miner.subnetId = subnetId && minerIsRouteEligible cfg reg minerId miner).map Prod.fst).insertionSort (· ≤ ·)

def activeValidatorRouteIds : List ValidatorId :=
  (((validatorRecords reg).filter fun (validatorId, validator) =>
    validator.subnetId = subnetId && validatorIsRouteEligible cfg reg validatorId validator).map
      Prod.fst).insertionSort (· ≤ ·)

def ensureRouteCapacity (ids : List UInt64) (candidate : Option UInt64) (max : UInt32)
    (error : DispatchError) : Except DispatchError Unit :=
  let count := UInt32.ofNat ids.length
  let alreadyIncluded := candidate.any (ids.contains ·)
  if alreadyIncluded then ensure (count ≤ max) error else ensure (count < max) error

def ensureActiveMinerCapacity (candidate : Option MinerId) : Except DispatchError Unit :=
  ensureRouteCapacity (activeMinerRouteIds cfg reg subnetId) candidate cfg.maxActiveMinersPerSubnet
    (.module .tooManyActiveMiners)

def ensureActiveValidatorCapacity (candidate : Option ValidatorId) : Except DispatchError Unit :=
  ensureRouteCapacity (activeValidatorRouteIds cfg reg subnetId) candidate cfg.maxActiveValidatorsPerSubnet
    (.module .tooManyActiveValidators)

/-- Indexing a participant is only a capacity check: the index itself is not published. -/
def insertActiveMiner (minerId : MinerId) : Except DispatchError Unit :=
  ensureActiveMinerCapacity cfg reg subnetId (some minerId)

def insertActiveValidator (validatorId : ValidatorId) : Except DispatchError Unit :=
  ensureActiveValidatorCapacity cfg reg subnetId (some validatorId)
end

def routeSeed (domain : String) (requestId : RequestId) (subnetId : SubnetId)
    (assignmentBlinding : Commitment) : UInt64 :=
  let digest := cfg.blake2_256 (encodeSlice (ascii domain) ++ encode (requestId, subnetId, assignmentBlinding))
  UInt64.ofNat (ofLeBytes (digest.toList.take 8))

def routeIndex (seed : UInt64) (len : Nat) : Option Nat := if len = 0 then none else some (seed.toNat % len)

/-- The validator loop of `route_active_validator`, over the offsets still to be tried. -/
def routeActiveValidatorFrom (reg : Registry w) (subnetId : SubnetId)
    (minerOperatorCommitment : Commitment) (ids : List ValidatorId) (start : Nat) : List Nat → Option ValidatorId
  | [] => none
  | offset :: offsets =>
      match ids[(start + offset) % ids.length]? with
      | none => none
      | some validatorId =>
          match reg.validators validatorId with
          | none => routeActiveValidatorFrom reg subnetId minerOperatorCommitment ids start offsets
          | some validator =>
              if validator.subnetId = subnetId ∧ validator.status = .active ∧
                  validatorHasActiveLockedStakeRecord cfg reg validatorId ∧
                  validator.operatorCommitment ≠ minerOperatorCommitment ∧
                  (ensureValidatorSignatureBundleBound cfg reg validatorId validator).isOk then
                some validatorId
              else routeActiveValidatorFrom reg subnetId minerOperatorCommitment ids start offsets

def routeActiveValidator (subnetId : SubnetId) (seed : UInt64)
    (minerOperatorCommitment : Commitment) : Option ValidatorId :=
  let ids := activeValidatorRouteIds cfg reg subnetId
  if ids.isEmpty then none
  else do
    let start ← routeIndex seed ids.length
    routeActiveValidatorFrom cfg reg subnetId minerOperatorCommitment ids start (List.range ids.length)

/-- The miner loop of `route_assignment`, over the offsets still to be tried. A miner without a valid
    partner is passed over; a partner that fails the distinctness check ends the whole search. -/
def routeAssignmentFrom (reg : Registry w) (subnetId : SubnetId) (requestId : RequestId)
    (validatorSeed : UInt64) (minerIds : List MinerId) (minerStart : Nat) : List Nat → Option ChainAssignment
  | [] => none
  | offset :: offsets =>
      let next := routeAssignmentFrom reg subnetId requestId validatorSeed minerIds minerStart offsets
      match minerIds[(minerStart + offset) % minerIds.length]? with
      | none => none
      | some minerId =>
          match reg.miners minerId with
          | none => next
          | some miner =>
              if miner.subnetId ≠ subnetId ∨ miner.status ≠ .active ∨
                  ¬ minerHasActiveLockedBondRecord cfg reg minerId ∨
                  ¬ (ensureMinerSignatureBundleBound cfg reg minerId miner).isOk then
                next
              else
                match routeActiveValidator cfg reg subnetId validatorSeed miner.operatorCommitment with
                | none => next
                | some validatorId =>
                    match reg.validators validatorId with
                    | none => next
                    | some validator =>
                        if (ensureDistinctOperators miner validator).isOk then
                          some ⟨requestId, subnetId, minerId, validatorId⟩
                        else none

def routeAssignment (subnetId : SubnetId) (requestId : RequestId)
    (assignmentBlinding : Commitment) : Option ChainAssignment := do
  let subnet ← reg.subnets subnetId
  if !subnet.active then none
  else
    let minerIds := activeMinerRouteIds cfg reg subnetId
    if minerIds.isEmpty then none
    else
      let minerSeed := routeSeed cfg "qubitum.route.miner.v1" requestId subnetId assignmentBlinding
      let minerStart ← routeIndex minerSeed minerIds.length
      let validatorSeed := routeSeed cfg "qubitum.route.validator.v1" requestId subnetId assignmentBlinding
      routeAssignmentFrom cfg reg subnetId requestId validatorSeed minerIds minerStart (List.range minerIds.length)

def ensureRequestAssignment (subnetId : SubnetId) (minerId : MinerId)
    (validatorId : ValidatorId) : Except DispatchError Unit := do
  let miner ← okOr (reg.miners minerId) (.module .unknownMiner)
  let validator ← okOr (reg.validators validatorId) (.module .unknownValidator)
  ensure (miner.subnetId = subnetId ∧ validator.subnetId = subnetId) (.module .participantMismatch)
  ensure (miner.status = .active ∧ validator.status = .active) (.module .notActive)
  ensureDistinctOperators miner validator
  ensureParticipantSignatureBundles cfg reg minerId validatorId
end Records
end Qubitum
