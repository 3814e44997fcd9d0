import Qubitum.Pallet.Commitments

/-!
# `Migration.Layouts` — the record layouts of earlier storage versions

Each record the pallet stores today, and each layout an earlier storage version wrote, with its SCALE
encoding (the tuple of its fields, in order) and with what a migration makes of it. A `V…` layout is named
after the last storage version that wrote it.

What an old layout stored in the clear is replaced by the **legacy** form of the commitment that stands
for it now: the unblinded hash of the same fields.
-/

namespace Qubitum
open Scale

variable {A L : Type} {w : Nat} (cfg : Config A L w)

/-! ## Current records -/

instance : Codec InferenceRequestStatus :=
  .ofTag
    (fun | .pending => 0 | .settled => 1 | .cancelled => 2 | .rejected => 3 | .expired => 4)
    (fun
      | 0 => some .pending
      | 1 => some .settled
      | 2 => some .cancelled
      | 3 => some .rejected
      | 4 => some .expired
      | _ => none)
    (by intro a; cases a <;> rfl)

instance : Codec SignatureCommitment :=
  .ofRetract (fun s => (s.algorithm, s.publicKeyCommitment, s.signatureCommitment))
    (fun (a, p, s) => ⟨a, p, s⟩) (fun _ => rfl)

instance : Codec SignatureBundle :=
  .ofRetract (fun b => (b.classical, b.postQuantum)) (fun (c, p) => ⟨c, p⟩) (fun _ => rfl)

instance : Codec ChainIdentityCommitments :=
  .ofRetract (fun c => (c.shieldedIdentityCommitment, c.endpointCommitment)) (fun (s, e) => ⟨s, e⟩) (fun _ => rfl)

instance : Codec ChainSubnet :=
  .ofRetract
    (fun s => (s.id, s.ownerCommitment, s.domain, s.proofSystem, s.policyCommitment, s.active))
    (fun (i, o, d, p, c, a) => ⟨i, o, d, p, c, a⟩) (fun _ => rfl)

instance : Codec ChainMiner :=
  .ofRetract
    (fun m => (m.id, m.operatorCommitment, m.subnetId, m.modelCommitment, m.proofSystem, m.bondCommitment, m.status))
    (fun (i, o, s, m, p, b, st) => ⟨i, o, s, m, p, b, st⟩) (fun _ => rfl)

instance : Codec ChainValidator :=
  .ofRetract (fun v => (v.id, v.operatorCommitment, v.subnetId, v.stakeCommitment, v.status))
    (fun (i, o, s, c, st) => ⟨i, o, s, c, st⟩) (fun _ => rfl)

instance : Codec ChainProofRecord :=
  .ofRetract
    (fun r => (r.requestId, r.subnetId, r.assignmentCommitment, r.auditCommitment, r.proofSystem))
    (fun (r, s, a, c, p) => ⟨r, s, a, c, p⟩) (fun _ => rfl)

instance : Codec ChainInferenceRequest :=
  .ofRetract
    (fun r => (r.requestId, r.userCommitment, r.subnetId, r.assignmentCommitment, r.inputCommitment,
      r.termsCommitment, r.timingCommitment, r.status))
    (fun (r, u, s, a, i, t, c, st) => ⟨r, u, s, a, i, t, c, st⟩) (fun _ => rfl)

/-! ## Subnets -/

structure ChainSubnetV15 (A : Type) (w : Nat) where
  id : SubnetId
  owner : A
  domain : SubnetDomain
  proofSystem : ProofSystem
  creationBurn : BitVec w
  minMinerBond : BitVec w
  maxMinerBond : BitVec w
  minValidatorStake : BitVec w
  active : Bool

instance [Codec A] : Codec (ChainSubnetV15 A w) :=
  .ofRetract
    (fun s => (s.id, s.owner, s.domain, s.proofSystem, s.creationBurn, s.minMinerBond, s.maxMinerBond,
      s.minValidatorStake, s.active))
    (fun (i, o, d, p, c, l, h, v, a) => ⟨i, o, d, p, c, l, h, v, a⟩) (fun _ => rfl)

/-- The policy commitment hashes the thresholds the subnet was created with and today's constants. -/
def ChainSubnetV15.migrate [Codec A] (cfg : Config A L w) (old : ChainSubnetV15 A w) : ChainSubnet :=
  { old with
    ownerCommitment := cfg.subnetOwnerCommitment old.owner
    policyCommitment :=
      cfg.blake2_256 (encode (old.id, old.domain, old.proofSystem, old.creationBurn,
        cfg.minerRegistrationBurn, old.minMinerBond, old.maxMinerBond, old.minValidatorStake,
        cfg.maxActiveMinersPerSubnet, cfg.maxActiveValidatorsPerSubnet)) }

/-! ## Participants -/

structure ChainMinerV7 (A : Type) (w : Nat) where
  id : MinerId
  operator : A
  subnetId : SubnetId
  modelCommitment : Commitment
  proofSystem : ProofSystem
  bond : BitVec w
  status : RegistryStatus

instance [Codec A] : Codec (ChainMinerV7 A w) :=
  .ofRetract
    (fun m => (m.id, m.operator, m.subnetId, m.modelCommitment, m.proofSystem, m.bond, m.status))
    (fun (i, o, s, m, p, b, st) => ⟨i, o, s, m, p, b, st⟩) (fun _ => rfl)

structure ChainMinerV9 (w : Nat) where
  id : MinerId
  operatorCommitment : Commitment
  subnetId : SubnetId
  modelCommitment : Commitment
  proofSystem : ProofSystem
  bond : BitVec w
  status : RegistryStatus

instance : Codec (ChainMinerV9 w) :=
  .ofRetract
    (fun m => (m.id, m.operatorCommitment, m.subnetId, m.modelCommitment, m.proofSystem, m.bond, m.status))
    (fun (i, o, s, m, p, b, st) => ⟨i, o, s, m, p, b, st⟩) (fun _ => rfl)

structure ChainValidatorV7 (A : Type) (w : Nat) where
  id : ValidatorId
  operator : A
  subnetId : SubnetId
  stake : BitVec w
  status : RegistryStatus

instance [Codec A] : Codec (ChainValidatorV7 A w) :=
  .ofRetract (fun v => (v.id, v.operator, v.subnetId, v.stake, v.status))
    (fun (i, o, s, k, st) => ⟨i, o, s, k, st⟩) (fun _ => rfl)

structure ChainValidatorV9 (w : Nat) where
  id : ValidatorId
  operatorCommitment : Commitment
  subnetId : SubnetId
  stake : BitVec w
  status : RegistryStatus

instance : Codec (ChainValidatorV9 w) :=
  .ofRetract (fun v => (v.id, v.operatorCommitment, v.subnetId, v.stake, v.status))
    (fun (i, o, s, k, st) => ⟨i, o, s, k, st⟩) (fun _ => rfl)

/-- The clear bond is dropped: the bond commitment covers the identifier, the operator and the status. -/
def ChainMinerV9.migrate (old : ChainMinerV9 w) : ChainMiner :=
  { old with bondCommitment := cfg.minerBondCommitment old.id old.operatorCommitment old.status }

def ChainValidatorV9.migrate (old : ChainValidatorV9 w) : ChainValidator :=
  { old with stakeCommitment := cfg.validatorStakeCommitment old.id old.operatorCommitment old.status }

/-- The operator's account is replaced by its role commitment. -/
def ChainMinerV7.migrate [Codec A] (cfg : Config A L w) (old : ChainMinerV7 A w) : ChainMiner :=
  let operatorCommitment := cfg.operatorCommitment old.operator
  { old with
    operatorCommitment
    bondCommitment := cfg.minerBondCommitment old.id operatorCommitment old.status }

def ChainValidatorV7.migrate [Codec A] (cfg : Config A L w) (old : ChainValidatorV7 A w) : ChainValidator :=
  let operatorCommitment := cfg.operatorCommitment old.operator
  { old with
    operatorCommitment
    stakeCommitment := cfg.validatorStakeCommitment old.id operatorCommitment old.status }

/-! ## Requests -/

structure ChainInferenceRequestV8 (A : Type) (w : Nat) where
  requestId : RequestId
  user : A
  subnetId : SubnetId
  minerId : MinerId
  validatorId : ValidatorId
  inputCommitment : Commitment
  payment : BitVec w
  validatorFeeBps : UInt16
  treasuryFeeBps : UInt16
  createdAt : BlockNumber
  status : InferenceRequestStatus

instance [Codec A] : Codec (ChainInferenceRequestV8 A w) :=
  .ofRetract
    (fun r => (r.requestId, r.user, r.subnetId, r.minerId, r.validatorId, r.inputCommitment, r.payment,
      r.validatorFeeBps, r.treasuryFeeBps, r.createdAt, r.status))
    (fun (r, u, s, m, v, i, p, f, t, c, st) => ⟨r, u, s, m, v, i, p, f, t, c, st⟩) (fun _ => rfl)

structure ChainInferenceRequestV10 (w : Nat) where
  requestId : RequestId
  userCommitment : Commitment
  subnetId : SubnetId
  minerId : MinerId
  validatorId : ValidatorId
  inputCommitment : Commitment
  payment : BitVec w
  validatorFeeBps : UInt16
  treasuryFeeBps : UInt16
  createdAt : BlockNumber
  status : InferenceRequestStatus

instance : Codec (ChainInferenceRequestV10 w) :=
  .ofRetract
    (fun r => (r.requestId, r.userCommitment, r.subnetId, r.minerId, r.validatorId, r.inputCommitment,
      r.payment, r.validatorFeeBps, r.treasuryFeeBps, r.createdAt, r.status))
    (fun (r, u, s, m, v, i, p, f, t, c, st) => ⟨r, u, s, m, v, i, p, f, t, c, st⟩) (fun _ => rfl)

structure ChainInferenceRequestV12 (w : Nat) where
  requestId : RequestId
  userCommitment : Commitment
  subnetId : SubnetId
  assignmentCommitment : Commitment
  inputCommitment : Commitment
  payment : BitVec w
  validatorFeeBps : UInt16
  treasuryFeeBps : UInt16
  createdAt : BlockNumber
  status : InferenceRequestStatus

instance : Codec (ChainInferenceRequestV12 w) :=
  .ofRetract
    (fun r => (r.requestId, r.userCommitment, r.subnetId, r.assignmentCommitment, r.inputCommitment,
      r.payment, r.validatorFeeBps, r.treasuryFeeBps, r.createdAt, r.status))
    (fun (r, u, s, a, i, p, f, t, c, st) => ⟨r, u, s, a, i, p, f, t, c, st⟩) (fun _ => rfl)

structure ChainInferenceRequestV13 (w : Nat) where
  requestId : RequestId
  userCommitment : Commitment
  subnetId : SubnetId
  assignmentCommitment : Commitment
  inputCommitment : Commitment
  payment : BitVec w
  validatorFeeBps : UInt16
  treasuryFeeBps : UInt16
  timingCommitment : Commitment
  status : InferenceRequestStatus

instance : Codec (ChainInferenceRequestV13 w) :=
  .ofRetract
    (fun r => (r.requestId, r.userCommitment, r.subnetId, r.assignmentCommitment, r.inputCommitment,
      r.payment, r.validatorFeeBps, r.treasuryFeeBps, r.timingCommitment, r.status))
    (fun (r, u, s, a, i, p, f, t, c, st) => ⟨r, u, s, a, i, p, f, t, c, st⟩) (fun _ => rfl)

def ChainInferenceRequestV8.migrate [Codec A] (cfg : Config A L w) (old : ChainInferenceRequestV8 A w) :
    ChainInferenceRequest :=
  { old with
    userCommitment := cfg.requestUserCommitment old.user
    assignmentCommitment := cfg.legacyRequestAssignmentCommitment old.requestId old.subnetId old.minerId old.validatorId
    termsCommitment := cfg.legacyRequestTermsCommitment old.requestId old.payment old.validatorFeeBps old.treasuryFeeBps
    timingCommitment := cfg.legacyRequestTimingCommitment old.requestId old.createdAt }

def ChainInferenceRequestV10.migrate (old : ChainInferenceRequestV10 w) : ChainInferenceRequest :=
  { old with
    assignmentCommitment := cfg.legacyRequestAssignmentCommitment old.requestId old.subnetId old.minerId old.validatorId
    termsCommitment := cfg.legacyRequestTermsCommitment old.requestId old.payment old.validatorFeeBps old.treasuryFeeBps
    timingCommitment := cfg.legacyRequestTimingCommitment old.requestId old.createdAt }

def ChainInferenceRequestV12.migrate (old : ChainInferenceRequestV12 w) : ChainInferenceRequest :=
  { old with
    termsCommitment := cfg.legacyRequestTermsCommitment old.requestId old.payment old.validatorFeeBps old.treasuryFeeBps
    timingCommitment := cfg.legacyRequestTimingCommitment old.requestId old.createdAt }

def ChainInferenceRequestV13.migrate (old : ChainInferenceRequestV13 w) : ChainInferenceRequest :=
  { old with
    termsCommitment := cfg.legacyRequestTermsCommitment old.requestId old.payment old.validatorFeeBps old.treasuryFeeBps }

/-! ## Proof records -/

structure ChainProofRecordV4 where
  requestId : RequestId
  subnetId : SubnetId
  minerId : MinerId
  validatorId : ValidatorId
  inputCommitment : Commitment
  outputCommitment : Commitment
  modelCommitment : Commitment
  proof : ProofEnvelope
  proofSystem : ProofSystem
  proofSizeBytes : UInt32
  verificationLatencyMs : UInt32
  submittedAt : BlockNumber

instance : Codec ChainProofRecordV4 :=
  .ofRetract
    (fun r => (r.requestId, r.subnetId, r.minerId, r.validatorId, r.inputCommitment, r.outputCommitment,
      r.modelCommitment, r.proof, r.proofSystem, r.proofSizeBytes, r.verificationLatencyMs,
      r.submittedAt))
    (fun (r, s, m, v, i, o, c, p, ps, z, l, t) => ⟨r, s, m, v, i, o, c, p, ps, z, l, t⟩)
    (fun _ => rfl)

structure ChainProofRecordV11 extends ChainProofRecordV4 where
  acceptedAt : BlockNumber

/-- The inherited fields come first, so the encoding is that of the flat record. -/
instance : Codec ChainProofRecordV11 :=
  .ofRetract (fun r => (r.toChainProofRecordV4, r.acceptedAt)) (fun (r, t) => ⟨r, t⟩) (fun _ => rfl)

structure ChainProofRecordV14 where
  requestId : RequestId
  subnetId : SubnetId
  assignmentCommitment : Commitment
  inputCommitment : Commitment
  outputCommitment : Commitment
  modelCommitment : Commitment
  proof : ProofEnvelope
  proofSystem : ProofSystem
  proofSizeBytes : UInt32
  verificationLatencyMs : UInt32
  submittedAt : BlockNumber
  acceptedAt : BlockNumber

instance : Codec ChainProofRecordV14 :=
  .ofRetract
    (fun r => (r.requestId, r.subnetId, r.assignmentCommitment, r.inputCommitment, r.outputCommitment,
      r.modelCommitment, r.proof, r.proofSystem, r.proofSizeBytes, r.verificationLatencyMs,
      r.submittedAt, r.acceptedAt))
    (fun (r, s, a, i, o, c, p, ps, z, l, t, u) => ⟨r, s, a, i, o, c, p, ps, z, l, t, u⟩)
    (fun _ => rfl)

/-- `legacy_proof_audit_commitment`, over the fields a `V14` record holds. -/
def Config.legacyProofAuditCommitment (old : ChainProofRecordV14) : Commitment :=
  cfg.blake2_256 (encode (old.requestId, old.subnetId, old.assignmentCommitment, old.inputCommitment,
    old.outputCommitment, old.modelCommitment, old.proof, old.proofSystem, old.proofSizeBytes,
    old.verificationLatencyMs, old.submittedAt, old.acceptedAt))

def ChainProofRecordV14.migrate (old : ChainProofRecordV14) : ChainProofRecord :=
  { old with auditCommitment := cfg.legacyProofAuditCommitment old }

/-- The clear assignment of a `V11` record as its legacy commitment. -/
def ChainProofRecordV11.withAssignmentCommitment (old : ChainProofRecordV11) : ChainProofRecordV14 :=
  { old with
    assignmentCommitment := cfg.legacyRequestAssignmentCommitment old.requestId old.subnetId old.minerId old.validatorId }

def ChainProofRecordV11.migrate (old : ChainProofRecordV11) : ChainProofRecord :=
  (old.withAssignmentCommitment cfg).migrate cfg

/-- Before version 5 no acceptance time was stored; the submission time stands in for it. -/
def ChainProofRecordV4.migrate (old : ChainProofRecordV4) : ChainProofRecord :=
  ChainProofRecordV11.migrate cfg { old with acceptedAt := old.submittedAt }
end Qubitum
