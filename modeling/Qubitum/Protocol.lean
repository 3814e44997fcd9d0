import Qubitum.Lib.Scale
import Qubitum.Lib.Outcome

/-!
# `Protocol` — the primitives shared by the runtime and its clients

Identifiers, the proof and signature vocabulary, and the **signature policy** of the post-quantum
migration (`primitives/qubitum-protocol`). Every type that is hashed or stored carries its SCALE codec:
an enumeration is a tag byte in declaration order followed by its payload, a record is the
concatenation of its fields.
-/

namespace Qubitum
open Scale Outcome

abbrev BlockNumber := UInt64
abbrev SubnetId := UInt16
abbrev MinerId := UInt64
abbrev ValidatorId := UInt64
abbrev RequestId := UInt64

/-- A 32-byte digest or blinding factor. -/
abbrev Commitment := List.Vector UInt8 32

/-- `[0; 32]`. -/
def zeroCommitment : Commitment := List.Vector.replicate 32 0

/-- Basis points denominator. -/
def bpsDenominator : UInt16 := 10000

/-! ## Proof vocabulary -/

/-- Execution proof system used by a subnet or proof submission. -/
inductive ProofSystem where
  | mock
  | riscZeroStark
  | stark
  | external (system : UInt16)
  deriving DecidableEq, Repr

/-- Versioned verifier implementation expected for a submitted proof. -/
inductive ProofVerifierVersion where
  | mock
  | riscZeroV1
  | riscZeroV2
  | starkV1
  | external (version : UInt16)
  deriving DecidableEq, Repr

def ProofVerifierVersion.supports : ProofVerifierVersion → ProofSystem → Bool
  | .mock,             .mock            => true
  | .riscZeroV1,       .riscZeroStark   => true
  | .riscZeroV2,       .riscZeroStark   => true
  | .starkV1,          .stark           => true
  | .external version, .external system => version == system
  | _,                 _                => false

/-- Specialized AI domain for a subnet. -/
inductive SubnetDomain where
  | general
  | vision
  | code
  | biology
  | custom (commitment : Commitment)
  deriving DecidableEq

/-- Entity lifecycle in the registries. -/
inductive RegistryStatus where
  | pending
  | active
  | exiting (exitAvailableAt : BlockNumber)
  | slashed
  | disabled
  deriving DecidableEq, Repr

/-- Commitments and verifier metadata for an off-chain proof artifact. -/
structure ProofEnvelope where
  proofCommitment : Commitment
  journalCommitment : Commitment
  imageId : Commitment
  verifierVersion : ProofVerifierVersion
  deriving DecidableEq

/-- Proof submission routed from a miner through a validator. -/
structure InferenceProofSubmission where
  requestId : RequestId
  subnetId : SubnetId
  minerId : MinerId
  validatorId : ValidatorId
  inputCommitment : Commitment
  outputCommitment : Commitment
  modelCommitment : Commitment
  proof : ProofEnvelope
  proofSystem : ProofSystem
  proofSizeBytes : UInt32
  verificationLatencyMs : UInt32
  submittedAt : BlockNumber
  deriving DecidableEq

/-- Verifier result before settlement. -/
inductive VerificationOutcome where
  | valid
  | invalid (slashBps : UInt16)
  | error
  deriving DecidableEq, Repr

/-! ## Signature policy -/

/-- Account-signature mode of the post-quantum migration. -/
inductive SignatureMode where
  | classicalEcdsa
  | hybridDilithium
  | fullPostQuantum
  deriving DecidableEq, Repr

/-- Signature algorithm family used by an account or transaction envelope. -/
inductive SignatureAlgorithm where
  | ecdsa
  | sr25519
  | ed25519
  | dilithium3
  | dilithium5
  | falcon512
  | sphincsPlus
  deriving DecidableEq, Repr

namespace SignatureAlgorithm

def isClassical : SignatureAlgorithm → Bool
  | ecdsa | sr25519 | ed25519 => true
  | _                         => false

def isDilithium : SignatureAlgorithm → Bool
  | dilithium3 | dilithium5 => true
  | _                       => false
end SignatureAlgorithm

/-- Commitment to a public key and signature payload. -/
structure SignatureCommitment where
  algorithm : SignatureAlgorithm
  publicKeyCommitment : Commitment
  signatureCommitment : Commitment
  deriving DecidableEq

/-- Transaction signature bundle used during migration. -/
structure SignatureBundle where
  classical : Option SignatureCommitment
  postQuantum : Option SignatureCommitment
  deriving DecidableEq

/-- Protocol-level error shared by runtime and off-chain clients. -/
inductive ProtocolError where
  | arithmeticOverflow
  | cooldownNotComplete
  | duplicateSubnet
  | insufficientBalance
  | invalidBond
  | invalidCreationBurn
  | invalidProofSize
  | invalidRewardSplit
  | invalidSlashPercent
  | invalidStake
  | latencyExceeded
  | missingCommitment
  | ambiguousSignatureCommitment
  | missingClassicalSignature
  | missingPostQuantumSignature
  | notActive
  | proofSystemMismatch
  | unsupportedSignatureAlgorithm
  | unknownMiner
  | unknownSubnet
  | unknownValidator
  | verifierError
  | classicalSignatureDisallowed
  deriving DecidableEq, Repr

def ensureWellFormedCommitments (signature : SignatureCommitment) : Except ProtocolError Unit :=
  if signature.publicKeyCommitment = zeroCommitment ∨ signature.signatureCommitment = zeroCommitment then
    .error .missingCommitment
  else if signature.publicKeyCommitment = signature.signatureCommitment then
    .error .ambiguousSignatureCommitment
  else .ok ()

def validateClassical (signature : SignatureCommitment) : Except ProtocolError Unit := do
  ensureWellFormedCommitments signature
  ensure (signature.algorithm.isClassical) .unsupportedSignatureAlgorithm

def validateDilithium (signature : SignatureCommitment) : Except ProtocolError Unit := do
  ensureWellFormedCommitments signature
  ensure (signature.algorithm.isDilithium) .unsupportedSignatureAlgorithm

def requireClassical (signature : Option SignatureCommitment) : Except ProtocolError Unit := do
  validateClassical (← okOr signature .missingClassicalSignature)

def requireDilithium (signature : Option SignatureCommitment) : Except ProtocolError Unit := do
  validateDilithium (← okOr signature .missingPostQuantumSignature)

def rejectClassical (signature : Option SignatureCommitment) : Except ProtocolError Unit :=
  ensure (signature.isNone) .classicalSignatureDisallowed

def validateOptionalDilithium : Option SignatureCommitment → Except ProtocolError Unit
  | some signature => validateDilithium signature
  | none           => .ok ()

/-- No commitment is shared between the classical and the post-quantum slot. -/
def ensureBundleCommitmentsAreDomainSeparated (bundle : SignatureBundle) : Except ProtocolError Unit :=
  match bundle.classical, bundle.postQuantum with
  | some classical, some postQuantum =>
      let classicalCommitments := [classical.publicKeyCommitment, classical.signatureCommitment]
      let postQuantumCommitments := [postQuantum.publicKeyCommitment, postQuantum.signatureCommitment]
      if classicalCommitments.any (postQuantumCommitments.contains ·) then
        .error .ambiguousSignatureCommitment
      else .ok ()
  | _, _ => .ok ()

/-- `SignaturePolicy::validate`: the slots the roadmap phase demands, then domain separation. -/
def SignatureMode.validate (mode : SignatureMode) (bundle : SignatureBundle) :
    Except ProtocolError SignatureBundle := do
  match mode with
  | .classicalEcdsa =>
      requireClassical bundle.classical
      validateOptionalDilithium bundle.postQuantum
  | .hybridDilithium =>
      requireClassical bundle.classical
      requireDilithium bundle.postQuantum
  | .fullPostQuantum =>
      rejectClassical bundle.classical
      requireDilithium bundle.postQuantum
  ensureBundleCommitmentsAreDomainSeparated bundle
  pure bundle

/-! ## Codecs -/

instance : Codec ProofSystem where
  encode
    | .mock            => [0]
    | .riscZeroStark   => [1]
    | .stark           => [2]
    | .external system => 3 :: encode system
  decode
    | 0 :: rest => some (.mock, rest)
    | 1 :: rest => some (.riscZeroStark, rest)
    | 2 :: rest => some (.stark, rest)
    | 3 :: rest => (decode rest).map fun p => (.external p.1, p.2)
    | _         => none
  decode_encode a rest := by cases a <;> simp [Codec.decode_encode]

instance : Codec ProofVerifierVersion where
  encode
    | .mock             => [0]
    | .riscZeroV1       => [1]
    | .riscZeroV2       => [2]
    | .starkV1          => [3]
    | .external version => 4 :: encode version
  decode
    | 0 :: rest => some (.mock, rest)
    | 1 :: rest => some (.riscZeroV1, rest)
    | 2 :: rest => some (.riscZeroV2, rest)
    | 3 :: rest => some (.starkV1, rest)
    | 4 :: rest => (decode rest).map fun p => (.external p.1, p.2)
    | _         => none
  decode_encode a rest := by cases a <;> simp [Codec.decode_encode]

instance : Codec SubnetDomain where
  encode
    | .general           => [0]
    | .vision            => [1]
    | .code              => [2]
    | .biology           => [3]
    | .custom commitment => 4 :: encode commitment
  decode
    | 0 :: rest => some (.general, rest)
    | 1 :: rest => some (.vision, rest)
    | 2 :: rest => some (.code, rest)
    | 3 :: rest => some (.biology, rest)
    | 4 :: rest => (decode rest).map fun p => (.custom p.1, p.2)
    | _         => none
  decode_encode a rest := by cases a <;> simp [Codec.decode_encode]

instance : Codec RegistryStatus where
  encode
    | .pending                 => [0]
    | .active                  => [1]
    | .exiting exitAvailableAt => 2 :: encode exitAvailableAt
    | .slashed                 => [3]
    | .disabled                => [4]
  decode
    | 0 :: rest => some (.pending, rest)
    | 1 :: rest => some (.active, rest)
    | 2 :: rest => (decode rest).map fun p => (.exiting p.1, p.2)
    | 3 :: rest => some (.slashed, rest)
    | 4 :: rest => some (.disabled, rest)
    | _         => none
  decode_encode a rest := by cases a <;> simp [Codec.decode_encode]

instance : Codec SignatureMode :=
  .ofTag
    (fun | .classicalEcdsa => 0 | .hybridDilithium => 1 | .fullPostQuantum => 2)
    (fun
      | 0 => some .classicalEcdsa
      | 1 => some .hybridDilithium
      | 2 => some .fullPostQuantum
      | _ => none)
    (by intro a; cases a <;> rfl)

instance : Codec SignatureAlgorithm :=
  .ofTag
    (fun
      | .ecdsa => 0 | .sr25519 => 1 | .ed25519 => 2 | .dilithium3 => 3 | .dilithium5 => 4
      | .falcon512 => 5 | .sphincsPlus => 6)
    (fun
      | 0 => some .ecdsa
      | 1 => some .sr25519
      | 2 => some .ed25519
      | 3 => some .dilithium3
      | 4 => some .dilithium5
      | 5 => some .falcon512
      | 6 => some .sphincsPlus
      | _ => none)
    (by intro a; cases a <;> rfl)

instance : Codec ProofEnvelope :=
  .ofRetract
    (fun p => (p.proofCommitment, p.journalCommitment, p.imageId, p.verifierVersion))
    (fun (c, j, i, v) => ⟨c, j, i, v⟩)
    (fun _ => rfl)
end Qubitum
