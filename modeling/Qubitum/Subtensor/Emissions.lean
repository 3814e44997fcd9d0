import Qubitum.Subtensor.Dispatch

/-!
# `Subtensor.Emissions` — how a block's emission is shared between the subnets

A model of `subnet_emissions.rs` and of the first half of `run_coinbase`. The shares of the subnets come from the moving
averages of the TAO that flows into them: what is above a lower limit is scaled, raised to a power and normalised.
With its share a subnet gets TAO for its pool, alpha next to it at the pool's price, and buys alpha with the rest.

The logarithm and the exponential function of the fixed-point library are parameters, and so is the schedule of
halvings. Maps by subnet are gone through in any order.
-/

namespace Qubitum.Subtensor
open Fixed Mutation Function

/-! ## Maps -/

section Maps
variable {K V W : Type}

def StorageMap.values (m : StorageMap K V) : List V := m.entries.map (·.2)

/-- The same keys with other values. -/
def StorageMap.mapKV (m : StorageMap K V) (f : K → V → W) : StorageMap K W :=
  ⟨m.entries.map fun e => ⟨e.1, f e.1 e.2⟩, by
    have hkeys : (m.entries.map fun e => (⟨e.1, f e.1 e.2⟩ : Sigma fun _ : K => W)).keys = m.entries.keys := by
      simp [List.keys]
    rw [List.NodupKeys, hkeys]
    exact m.nodupKeys⟩
end Maps

/-! ## Storage and configuration -/

/-- What the coinbase keeps for the subnets. -/
structure EmissionStorage where
  subnetEmaTaoFlow : NetUid → Option (Nat × I64F64)
  pendingOwnerCut : NetUid → Nat
  pendingServerEmission : NetUid → Nat
  pendingValidatorEmission : NetUid → Nat
  pendingRootAlphaDivs : NetUid → Nat

structure EmissionConfig where
  flowEmaSmoothingFactor : Nat
  taoFlowCutoff : I64F64
  flowNormExponent : U64F64
  ln : I32F32 → Option I32F32
  exp : I32F32 → Option I32F32
  /-- `get_block_emission_for_issuance` -/
  blockEmissionForIssuance : Nat → Option Nat
  subnetOwnerCut : UInt16
  /-- `get_tao_weight` -/
  taoWeight : U96F32

variable {A B X R : Type}

/-- The pallet's storage with that of the coinbase. -/
abbrev CoinbaseState (A B X R : Type) := State A B X (EmissionStorage × R)

/-! ## Flows -/

section Flows
variable (ecfg : EmissionConfig) (s : CoinbaseState A B X R)

/-- `get_ema_flow`: the flow since the last block is taken into the moving average, once in a block. -/
def getEmaFlow (netuid : NetUid) : CoinbaseState A B X R × I64F64 :=
  let blockFlow := I64F64.ofInt (s.pools.subnetTaoFlow netuid)
  let (lastBlock, lastBlockEma) := (s.rest.1.subnetEmaTaoFlow netuid).getD (0, .ofInt 0)
  if lastBlock ≠ s.block then
    let flowAlpha := (I64F64.ofNat ecfg.flowEmaSmoothingFactor).safeDiv (.ofNat (2 ^ 63 - 1))
    let emaFlow := (((I64F64.ofInt 1).saturatingSub flowAlpha).saturatingMul lastBlockEma).saturatingAdd
      (flowAlpha.saturatingMul blockFlow)
    ({ s with
        pools := { s.pools with subnetTaoFlow := update s.pools.subnetTaoFlow netuid 0 }
        rest := ({ s.rest.1 with
          subnetEmaTaoFlow := update s.rest.1.subnetEmaTaoFlow netuid (some (s.block, emaFlow)) }, s.rest.2) },
      emaFlow)
  else (s, lastBlockEma)

/-- The flows of some subnets, one after the other. -/
def getEmaFlows (subnets : List NetUid) : CoinbaseState A B X R × StorageMap NetUid I64F64 :=
  subnets.foldl (fun (s, flows) netuid =>
    let (s, flow) := getEmaFlow ecfg s netuid
    (s, flows.insert netuid flow)) (s, ∅)

/-- `get_lower_limit`: the smallest flow below zero, or the cutoff if that is higher. -/
def getLowerLimit (emaFlows : StorageMap NetUid I64F64) : I64F64 :=
  let minFlow := emaFlows.values.foldl (fun x y => if y < x then y else x) (.ofInt 0)
  if ecfg.taoFlowCutoff < minFlow then minFlow else ecfg.taoFlowCutoff

/-- `safe_pow` -/
def safePow (val p : U64F64) : U64F64 :=
  match ecfg.ln (.ofU64F64 val) with
  | some valLn =>
      ((ecfg.exp ((I32F32.ofU64F64 p).saturatingMul valLn)).getD (.ofNat (2 ^ 31 - 1))).toU64F64
  | none => .ofNat 0

/-- `inplace_scale` -/
def inplaceScale (offsetFlows : StorageMap NetUid U64F64) : StorageMap NetUid U64F64 :=
  let flowFactor := (UFixed.ofNat 1).safeDiv (UFixed.maximum offsetFlows.values)
  offsetFlows.mapKV fun _ flow => flowFactor.saturatingMul flow

/-- `inplace_pow_normalize` -/
def inplacePowNormalize (offsetFlows : StorageMap NetUid U64F64) (p : U64F64) : StorageMap NetUid U64F64 :=
  let subnetCount := offsetFlows.entries.length
  let offsetFlows := inplaceScale offsetFlows
  let flowMax := UFixed.maximum offsetFlows.values
  let maxTimesCount := (UFixed.ofNat subnetCount).saturatingMul (flowMax.saturatingMul flowMax)
  let i32f32Max : U64F64 := .ofNat (2 ^ 31 - 1)
  if i32f32Max.safeDiv (.ofNat (2 ^ 64 - 1)) ≤ maxTimesCount then
    let flowFactor := (i32f32Max.safeDiv maxTimesCount).checkedSqrt ((UFixed.ofNat 1).safeDiv (.ofNat 1000))
    let sum := UFixed.sum (offsetFlows.values.map fun flow => safePow ecfg (flowFactor.saturatingMul flow) p)
    offsetFlows.mapKV fun _ flow => (safePow ecfg (flowFactor.saturatingMul flow) p).safeDiv sum
  else offsetFlows

/-- What flows in above the lower limit. -/
def offsetFlows (emaFlows : StorageMap NetUid I64F64) : StorageMap NetUid U64F64 :=
  let lowerLimit := getLowerLimit ecfg emaFlows
  emaFlows.mapKV fun _ flow => if lowerLimit < flow then (flow.saturatingSub lowerLimit).toU64F64 else .ofNat 0

/-- `get_shares`, that is `get_shares_flow`. -/
def getShares (subnetsToEmitTo : List NetUid) : CoinbaseState A B X R × StorageMap NetUid U64F64 :=
  let flows := getEmaFlows ecfg s subnetsToEmitTo
  (flows.1, inplacePowNormalize ecfg (offsetFlows ecfg flows.2) ecfg.flowNormExponent)

/-- The TAO emission of a subnet with this share. -/
def shareOf (blockEmission : U96F32) (share : U64F64) : U96F32 :=
  ((blockEmission.convert : U64F64).saturatingMul share).convert

def getSubnetBlockEmissions (subnetsToEmitTo : List NetUid) (blockEmission : U96F32) :
    CoinbaseState A B X R × StorageMap NetUid U96F32 :=
  let shares := getShares ecfg s subnetsToEmitTo
  (shares.1, shares.2.mapKV fun _ => shareOf blockEmission)
end Flows

/-! ## Terms -/

/-- What `get_subnet_terms` works out for a subnet. -/
structure SubnetTerms where
  taoIn : U96F32
  alphaIn : U96F32
  alphaOut : U96F32
  excessTao : U96F32

section Emitting
variable (cfg : Config A B X (EmissionStorage × R)) (ecfg : EmissionConfig) (s : CoinbaseState A B X R)

/-- `get_alpha_issuance` -/
def Pools.alphaIssuance (p : Pools) (netuid : NetUid) : Nat := p.subnetAlphaIn netuid + p.subnetAlphaOut netuid

/-- The alpha that a block emits on a subnet. -/
def alphaEmission (netuid : NetUid) : U96F32 :=
  .ofNat ((ecfg.blockEmissionForIssuance (s.pools.alphaIssuance netuid)).getD 0)

/-- `get_block_emission` as a fixed-point number. -/
def taoBlockEmission : U96F32 := .ofNat ((ecfg.blockEmissionForIssuance s.totals.totalIssuance).getD 0)

/-- The loop body of `get_subnet_terms`. -/
def subnetTerms (netuid : NetUid) (taoEmission : U96F32) : SubnetTerms :=
  let alphaOut := alphaEmission ecfg s netuid
  let price := cfg.swapInterface.currentAlphaPrice s.swap s.pools netuid
  let alphaIn := taoEmission.safeDiv price
  let cap := if alphaOut ≤ taoBlockEmission ecfg s then alphaOut else taoBlockEmission ecfg s
  if cap < alphaIn then
    let taoIn := cap.saturatingMul price
    ⟨taoIn, cap, alphaOut, taoEmission.saturatingSub taoIn⟩
  else ⟨taoEmission, alphaIn, alphaOut, taoEmission.saturatingSub taoEmission⟩

/-- `get_subnet_terms` -/
def getSubnetTerms (subnetEmissions : StorageMap NetUid U96F32) : StorageMap NetUid SubnetTerms :=
  subnetEmissions.mapKV (subnetTerms cfg ecfg s)

/-- `root_proportion` -/
def rootProportion (netuid : NetUid) : U96F32 :=
  let taoWeight := (UFixed.ofNat (s.pools.subnetTao NetUid.root)).saturatingMul ecfg.taoWeight
  taoWeight.safeDiv (taoWeight.saturatingAdd (.ofNat (s.pools.alphaIssuance netuid)))

/-- `half`, which is `asfloat!(0.5)`. -/
def half : U96F32 := ⟨2 ^ 31, by decide⟩

/-- The second loop of `emit_to_subnets`: the alpha of a subnet is split and waits for the epoch. -/
def accumulatePending (alphaOut : StorageMap NetUid U96F32) (rootSellFlag : Bool) (netuid : NetUid)
    (s : CoinbaseState A B X R) : CoinbaseState A B X R :=
  let alphaOut := (alphaOut.lookup netuid).getD (.ofNat 0)
  let s := { s with
    pools := { s.pools with
      subnetAlphaOut := update s.pools.subnetAlphaOut netuid (s.pools.subnetAlphaOut netuid + alphaOut.toU64) } }
  let ownerCut := alphaOut.saturatingMul ((UFixed.ofNat ecfg.subnetOwnerCut.toNat).safeDiv (.ofNat (2 ^ 16 - 1)))
  let alphaOut := alphaOut.saturatingSub ownerCut
  let rootAlpha := ((rootProportion ecfg s netuid).saturatingMul alphaOut).saturatingMul half
  let serverAlpha := alphaOut.saturatingMul half
  let validatorAlpha := (alphaOut.saturatingSub serverAlpha).saturatingSub rootAlpha
  let pending := s.rest.1
  let pending := { pending with
    pendingOwnerCut := update pending.pendingOwnerCut netuid (pending.pendingOwnerCut netuid + ownerCut.toU64)
    pendingServerEmission := update pending.pendingServerEmission netuid
      (pending.pendingServerEmission netuid + serverAlpha.toU64)
    pendingValidatorEmission := update pending.pendingValidatorEmission netuid
      (pending.pendingValidatorEmission netuid + validatorAlpha.toU64) }
  if rootSellFlag then
    { s with
      rest := ({ pending with
        pendingRootAlphaDivs := update pending.pendingRootAlphaDivs netuid
          (pending.pendingRootAlphaDivs netuid + rootAlpha.toU64) }, s.rest.2) }
  else { s with pools := s.pools.recycleSubnetAlpha netuid rootAlpha.toU64, rest := (pending, s.rest.2) }

def emitToSubnets (subnetsToEmitTo : List NetUid) (subnetEmissions : StorageMap NetUid U96F32) (rootSellFlag : Bool) :
    Run A B X (EmissionStorage × R) Unit := do
  let terms := getSubnetTerms cfg ecfg (← get) subnetEmissions
  injectAndMaybeSwap cfg subnetsToEmitTo (terms.mapKV fun _ t => t.taoIn) (terms.mapKV fun _ t => t.alphaIn)
    (terms.mapKV fun _ t => t.excessTao)
  modify fun s => subnetsToEmitTo.foldl
    (fun s netuid => accumulatePending ecfg (terms.mapKV fun _ t => t.alphaOut) rootSellFlag netuid s) s
end Emitting
end Qubitum.Subtensor
