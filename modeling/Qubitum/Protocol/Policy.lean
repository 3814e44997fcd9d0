import Qubitum.Protocol
import Qubitum.Lib.Checked

/-!
# `Protocol.Policy` — subnet policies and payment arithmetic

The constants of the protocol, the policy a subnet is created with, and the pure checks and sums the
state machine performs against it (`primitives/qubitum-protocol/src/lib.rs`). Amounts are `u128`.
-/

namespace Qubitum
open Outcome

/-- Smallest accounting unit for QBT. -/
abbrev Balance := BitVec 128

/-- Initial QBT supply, expressed in plancks. -/
def initialSupply : Balance := 21000000000000000

/-- Required burn for miner registration. -/
def minerRegistrationBurn : Balance := 10000000000

/-- Minimum miner bond. -/
def minMinerBond : Balance := 100000000000

/-- Maximum miner bond. -/
def maxMinerBond : Balance := 10000000000000

/-- Miner exit cooldown at a nominal twelve-second block time. -/
def bondExitCooldownBlocks : BlockNumber := 50400

def minInvalidProofSlashBps : UInt16 := 1000

def maxInvalidProofSlashBps : UInt16 := 10000

def targetProofSizeMinBytes : UInt32 := 50 * 1024

def targetProofSizeMaxBytes : UInt32 := 200 * 1024

def targetVerificationMs : UInt32 := 100

namespace Protocol

def proRata (amount : Balance) (bps : UInt16) : Except ProtocolError Balance :=
  okOr ((Checked.mul amount (BitVec.ofNat 128 bps.toNat)).bind
      (Checked.div · (BitVec.ofNat 128 bpsDenominator.toNat)))
    .arithmeticOverflow

def ensureCommitment (commitment : Commitment) : Except ProtocolError Unit :=
  if commitment = zeroCommitment then .error .missingCommitment else .ok ()
end Protocol

/-! ## Policies -/

/-- Miner bond and slash policy. -/
structure MinerBondPolicy where
  registrationBurn : Balance
  minBond : Balance
  maxBond : Balance
  exitCooldownBlocks : BlockNumber
  minInvalidProofSlashBps : UInt16
  maxInvalidProofSlashBps : UInt16
  deriving DecidableEq

namespace MinerBondPolicy

def qubitum : MinerBondPolicy where
  registrationBurn := minerRegistrationBurn
  minBond := minMinerBond
  maxBond := maxMinerBond
  exitCooldownBlocks := bondExitCooldownBlocks
  minInvalidProofSlashBps := Qubitum.minInvalidProofSlashBps
  maxInvalidProofSlashBps := Qubitum.maxInvalidProofSlashBps

def validateBond (policy : MinerBondPolicy) (bond : Balance) : Except ProtocolError Balance :=
  if bond < policy.minBond ∨ policy.maxBond < bond then .error .invalidBond else .ok bond

def exitAvailableAt (policy : MinerBondPolicy) (currentBlock : BlockNumber) :
    Except ProtocolError BlockNumber :=
  okOr (Checked.add64 currentBlock policy.exitCooldownBlocks) .arithmeticOverflow

def slashAmount (policy : MinerBondPolicy) (bond : Balance) (slashBps : UInt16) :
    Except ProtocolError Balance :=
  if slashBps < policy.minInvalidProofSlashBps ∨ policy.maxInvalidProofSlashBps < slashBps then
    .error .invalidSlashPercent
  else Protocol.proRata bond slashBps
end MinerBondPolicy

/-- Runtime policy for a subnet. -/
structure SubnetPolicy where
  creationBurn : Balance
  minerBond : MinerBondPolicy
  minValidatorStake : Balance
  proofSystem : ProofSystem
  minProofSizeBytes : UInt32
  maxProofSizeBytes : UInt32
  maxVerificationLatencyMs : UInt32
  deriving DecidableEq

namespace SubnetPolicy

def qubitum : SubnetPolicy where
  creationBurn := minerRegistrationBurn
  minerBond := MinerBondPolicy.qubitum
  minValidatorStake := minMinerBond
  proofSystem := .riscZeroStark
  minProofSizeBytes := targetProofSizeMinBytes
  maxProofSizeBytes := targetProofSizeMaxBytes
  maxVerificationLatencyMs := targetVerificationMs

def validateCreationBurn (policy : SubnetPolicy) (amount : Balance) : Except ProtocolError Balance :=
  if amount < policy.creationBurn then .error .invalidCreationBurn else .ok amount

def validateValidatorStake (policy : SubnetPolicy) (stake : Balance) : Except ProtocolError Balance :=
  if stake < policy.minValidatorStake then .error .invalidStake else .ok stake
end SubnetPolicy

/-! ## Proof submissions -/

def ProofEnvelope.validate (proof : ProofEnvelope) (proofSystem : ProofSystem) :
    Except ProtocolError ProofEnvelope := do
  Protocol.ensureCommitment proof.proofCommitment
  Protocol.ensureCommitment proof.journalCommitment
  Protocol.ensureCommitment proof.imageId
  if ¬ proof.verifierVersion.supports proofSystem then .error .proofSystemMismatch else .ok proof

def InferenceProofSubmission.validateShape (submission : InferenceProofSubmission) (policy : SubnetPolicy) :
    Except ProtocolError InferenceProofSubmission := do
  Protocol.ensureCommitment submission.inputCommitment
  Protocol.ensureCommitment submission.outputCommitment
  Protocol.ensureCommitment submission.modelCommitment
  let _ ← submission.proof.validate submission.proofSystem
  if submission.proofSystem ≠ policy.proofSystem then .error .proofSystemMismatch
  else if submission.proofSizeBytes < policy.minProofSizeBytes ∨
      policy.maxProofSizeBytes < submission.proofSizeBytes then
    .error .invalidProofSize
  else if policy.maxVerificationLatencyMs < submission.verificationLatencyMs then .error .latencyExceeded
  else .ok submission

/-- Recorded successful inference. -/
structure InferenceRecord where
  requestId : RequestId
  subnetId : SubnetId
  minerId : MinerId
  validatorId : ValidatorId
  inputCommitment : Commitment
  outputCommitment : Commitment
  modelCommitment : Commitment
  recordedAt : BlockNumber
  deriving DecidableEq

def InferenceRecord.fromValidSubmission (submission : InferenceProofSubmission) : InferenceRecord :=
  { submission with recordedAt := submission.submittedAt }

/-! ## Settlement -/

/-- Payment settlement for a valid inference. -/
structure InferenceSettlement where
  minerPayment : Balance
  validatorFee : Balance
  treasuryFee : Balance
  deriving DecidableEq

def settleInferencePayment (payment : Balance) (validatorFeeBps treasuryFeeBps : UInt16) :
    Except ProtocolError InferenceSettlement := do
  let combinedBps ← okOr (Checked.add16 validatorFeeBps treasuryFeeBps) .arithmeticOverflow
  if bpsDenominator < combinedBps then .error .invalidRewardSplit
  else do
    let validatorFee ← Protocol.proRata payment validatorFeeBps
    let treasuryFee ← Protocol.proRata payment treasuryFeeBps
    let assigned ← okOr (Checked.add validatorFee treasuryFee) .arithmeticOverflow
    let minerPayment ← okOr (Checked.sub payment assigned) .arithmeticOverflow
    pure { minerPayment, validatorFee, treasuryFee }

/-! ## Facts about the arithmetic -/

theorem Protocol.proRata_le {amount part : Balance} {bps : UInt16} (hbps : bps ≤ bpsDenominator)
    (h : Protocol.proRata amount bps = .ok part) : part.toNat ≤ amount.toNat := by
  unfold Protocol.proRata at h
  rw [okOr_eq_ok, Option.bind_eq_some_iff] at h
  obtain ⟨product, hmul, hdiv⟩ := h
  have hb : bps.toNat ≤ 10000 := by simpa [bpsDenominator, UInt16.le_iff_toNat_le] using hbps
  unfold Checked.mul at hmul
  unfold Checked.div at hdiv
  split at hmul
  · rename_i hfit
    cases hmul
    split at hdiv
    · cases hdiv
    · cases hdiv
      have hbn : (BitVec.ofNat 128 bps.toNat).toNat = bps.toNat := by
        rw [BitVec.toNat_ofNat, Nat.mod_eq_of_lt (by omega)]
      have hd : (BitVec.ofNat 128 bpsDenominator.toNat).toNat = 10000 := by decide
      rw [BitVec.toNat_udiv, BitVec.toNat_mul, Nat.mod_eq_of_lt hfit, hbn, hd]
      calc amount.toNat * bps.toNat / 10000
          ≤ amount.toNat * 10000 / 10000 := Nat.div_le_div_right (Nat.mul_le_mul_left _ hb)
        _ = amount.toNat := Nat.mul_div_cancel _ (by decide)
  · cases hmul

theorem MinerBondPolicy.slashAmount_le {bond amount : Balance} {slashBps : UInt16}
    (h : MinerBondPolicy.qubitum.slashAmount bond slashBps = .ok amount) : amount.toNat ≤ bond.toNat := by
  unfold MinerBondPolicy.slashAmount at h
  split at h
  · cases h
  · rename_i hrange
    exact Protocol.proRata_le (UInt16.not_lt.mp (not_or.mp hrange).2) h
end Qubitum
