import Qubitum.Subtensor.ChildKeys
import Qubitum.Subtensor.NeuronTable

/-!
# `Subtensor.Dissolution` — removing a subnet and using its netuid again

`do_dissolve_network` pays out the pool of a subnet (`destroy_alpha_in_out_stakes`) and removes what is stored under its
netuid (`remove_network`). `do_register_network` then finds the netuid free and sets up a new subnet under it.

Of the storage under a netuid there is what registrations, pruning, the incentives, child keys, voting power and root
claims read. Commitments, leases, mechanisms and the parameters of the epoch are not in it, and no events.
-/

namespace Qubitum.Subtensor
open Fixed Outcome Mutation Function

variable {A B X : Type}

inductive RecycleOrBurn where
  | burn
  | recycle
  deriving DecidableEq, Repr

/-- What else is stored under a netuid. -/
structure SubnetSettings (A : Type) where
  networkRegistrationAllowed : NetUid → Bool
  burn : NetUid → Nat
  subnetLocked : NetUid → Nat
  networkRegisteredAt : NetUid → Nat
  childLinks : ChildLinks A
  childkeyTake : A → NetUid → Option UInt16
  recycleOrBurn : NetUid → Option RecycleOrBurn
  votingPower : NetUid → A → Nat
  votingPowerTrackingEnabled : NetUid → Bool
  votingPowerDisableAtBlock : NetUid → Nat
  votingPowerEmaAlpha : NetUid → Option Nat
  rootClaimableThreshold : NetUid → Option I96F32

/-- The pallet's storage with the neurons and the settings. -/
abbrev Chain (A B X : Type) := State A B X (NeuronTable × SubnetSettings A)

abbrev ChainRun (A B X : Type) := Run A B X (NeuronTable × SubnetSettings A)

/-- Everything but the entries with certain keys. -/
def StorageMap.without {K V : Type} (m : StorageMap K V) (gone : K → Bool) : StorageMap K V :=
  ⟨m.entries.filter fun e => !gone e.1, m.nodupKeys.sublist List.filter_sublist⟩

/-- What the two functions read of the rest of the runtime. -/
structure NetworkConfig (A B X : Type) where
  /-- `DefaultAccount` -/
  defaultAccount : A
  networkRegistrationStartBlock : Nat
  subnetOwnerCut : UInt16
  /-- `SwapInterface::dissolve_all_liquidity_providers`: the positions of users are paid back, the TAO to their balance
      and the alpha as stake -/
  dissolveAllLiquidityProviders : Chain A B X → NetUid → Except DispatchError (Stakes A × Pools × B × X)
  /-- `SwapInterface::clear_protocol_liquidity` -/
  clearProtocolLiquidity : X → NetUid → X

variable [DecidableEq A]

/-! ## The pot -/

/-- The coldkeys with alpha on a subnet. -/
def Stakes.stakersOn (st : Stakes A) (netuid : NetUid) : List (A × Nat) :=
  st.alpha.entries.filterMap fun e => if e.1.2.2 = netuid ∧ 0 < e.2 then some (e.1.2.1, e.2) else none

structure Portion (A : Type) where
  cold : A
  share : Nat
  rem : Nat

/-- Step 6 of `destroy_alpha_in_out_stakes`: in proportion to the alpha, and what is left to the largest remainders. -/
def potPortions (pot : Nat) (stakers : List (A × Nat)) : List (Portion A) :=
  let totalAlphaValue := (stakers.map (·.2)).sum
  let portions : List (Portion A) := stakers.map fun (cold, alphaVal) =>
    ⟨cold, pot * alphaVal / totalAlphaValue, pot * alphaVal % totalAlphaValue⟩
  let leftover := pot - (portions.map (·.share)).sum
  if 0 < leftover then
    (portions.insertionSort fun a b => b.rem ≤ a.rem).zipIdx.map fun (p, i) =>
      if i < leftover then { p with share := p.share + 1 } else p
  else portions

/-- `get_float_subnet_owner_cut` -/
def NetworkConfig.floatSubnetOwnerCut (ncfg : NetworkConfig A B X) : U96F32 :=
  (UFixed.ofNat ncfg.subnetOwnerCut.toNat).safeDiv (UFixed.ofNat (2 ^ 16 - 1))

section
variable (cfg : Config A B X (NeuronTable × SubnetSettings A))

/-- Steps 3 and 8: subnets from before the start block get back what the owner has not earned. -/
def ownerRefund (ncfg : NetworkConfig A B X) (s : Chain A B X) (netuid : NetUid) : Nat :=
  let lockCost := s.rest.2.subnetLocked netuid
  if s.rest.2.networkRegisteredAt netuid < ncfg.networkRegistrationStartBlock then
    let totalEmittedAlpha := s.pools.subnetAlphaIn netuid + s.pools.subnetAlphaOut netuid
    let ownerAlpha := ((UFixed.ofNat totalEmittedAlpha).saturatingMul ncfg.floatSubnetOwnerCut).toU64
    let price := cfg.swapInterface.currentAlphaPrice s.swap s.pools netuid
    lockCost - ((UFixed.ofNat ownerAlpha).saturatingMul price).toU64
  else 0

/-- Add to the balance of a coldkey, if there is something to add. -/
def creditPortion (s : Chain A B X) (p : Portion A) : Chain A B X :=
  if 0 < p.share then addBalanceToColdkeyAccount cfg s p.cold p.share else s

def destroyAlphaInOutStakes (ncfg : NetworkConfig A B X) (netuid : NetUid) : ChainRun A B X Unit := do
  let s ← get
  lift (ensure (s.pools.ifSubnetExist netuid) .subnetNotExists)
  let refund := ownerRefund cfg ncfg s netuid
  let stakers := s.stakes.stakersOn netuid
  let pot := s.pools.subnetTao netuid
  let s := { s with
    pools := { s.pools with subnetTao := update s.pools.subnetTao netuid 0 }
    totals := { s.totals with totalStake := s.totals.totalStake - pot } }
  let s := (potPortions pot stakers).foldl (creditPortion cfg) s
  let s := { s with
    stakes := { s.stakes with
      alpha := s.stakes.alpha.without fun key => key.2.2 = netuid
      totalHotkeyAlpha := fun hotkey => update (s.stakes.totalHotkeyAlpha hotkey) netuid 0 }
    pools := { s.pools with
      subnetAlphaIn := update s.pools.subnetAlphaIn netuid 0
      subnetAlphaInProvided := update s.pools.subnetAlphaInProvided netuid 0
      subnetAlphaOut := update s.pools.subnetAlphaOut netuid 0 }
    rest := (s.rest.1, { s.rest.2 with subnetLocked := update s.rest.2.subnetLocked netuid 0 }) }
  set (if refund = 0 then s else addBalanceToColdkeyAccount cfg s (s.neurons.subnetOwner netuid) refund)

/-! ## Removing the network -/

/-- `InitialImmunityPeriod` -/
def initialImmunityPeriod : UInt16 := 4096

/-- `InitialMaxAllowedUids` -/
def initialMaxAllowedUids : UInt16 := 256

/-- `InitialBurn` -/
def initialBurn : Nat := 100000000

/-- `DefaultImmuneOwnerUidsLimit` -/
def defaultImmuneOwnerUidsLimit : UInt16 := 1

/-- `finalize_all_subnet_root_dividends` -/
def RootClaims.finalizeAllSubnetRootDividends (rc : RootClaims A) (netuid : NetUid) : RootClaims A :=
  { rc with
    rootClaimable := fun hotkey => (rc.rootClaimable hotkey).erase netuid
    rootClaimed := rc.rootClaimed.without fun key => key.1 = netuid }

/-- The neurons. Where coldkeys stake automatically stays, and so does a membership without a neuron. -/
def Neurons.removeNetwork (n : Neurons A) (defaultAccount : A) (netuid : NetUid) : Neurons A :=
  let hotkeys := (uidsBelow (2 ^ 16)).filterMap (n.keys netuid)
  { n with
    subnetOwner := update n.subnetOwner netuid defaultAccount
    subnetworkN := update n.subnetworkN netuid 0
    uids := update n.uids netuid fun _ => none
    keys := update n.keys netuid fun _ => none
    isNetworkMember := hotkeys.foldl (fun members hotkey => members.erase (hotkey, netuid)) n.isNetworkMember
    subnetOwnerHotkey := update n.subnetOwnerHotkey netuid none }

/-- `MinNonImmuneUids` and `MinAllowedUids` stay. -/
def NeuronTable.removeNetwork (t : NeuronTable) (netuid : NetUid) : NeuronTable :=
  { t with
    active := update t.active netuid []
    emission := update t.emission netuid []
    consensus := update t.consensus netuid []
    dividends := update t.dividends netuid []
    validatorPermit := update t.validatorPermit netuid []
    validatorTrust := update t.validatorTrust netuid []
    maxAllowedUids := update t.maxAllowedUids netuid initialMaxAllowedUids
    immunityPeriod := update t.immunityPeriod netuid initialImmunityPeriod
    immuneOwnerUidsLimit := update t.immuneOwnerUidsLimit netuid defaultImmuneOwnerUidsLimit
    blockAtRegistration := update t.blockAtRegistration netuid fun _ => 0 }

def ChildLinks.removeNetwork (l : ChildLinks A) (netuid : NetUid) : ChildLinks A where
  childKeys parent := update (l.childKeys parent) netuid none
  parentKeys child := update (l.parentKeys child) netuid none
  pendingChildKeys := l.pendingChildKeys.without fun key => key.1 = netuid
  transactionKeyLastBlock hotkey := update (l.transactionKeyLastBlock hotkey) netuid 0

/-- `RecycleOrBurn`, the items of the voting power and `RootClaimableThreshold` stay. -/
def SubnetSettings.removeNetwork (c : SubnetSettings A) (netuid : NetUid) : SubnetSettings A :=
  { c with
    networkRegisteredAt := update c.networkRegisteredAt netuid 0
    networkRegistrationAllowed := update c.networkRegistrationAllowed netuid true
    subnetLocked := update c.subnetLocked netuid 0
    burn := update c.burn netuid initialBurn
    childLinks := c.childLinks.removeNetwork netuid
    childkeyTake := fun hotkey => update (c.childkeyTake hotkey) netuid none }

def RateLimits.removeNetwork (l : RateLimits A) (netuid : NetUid) : RateLimits A :=
  { l with
    lastHotkeySwapOnNetuid := update l.lastHotkeySwapOnNetuid netuid fun _ => 0
    stakingOperationRateLimiter := fun hotkey coldkey =>
      update (l.stakingOperationRateLimiter hotkey coldkey) netuid false }

def Pools.removeNetwork (p : Pools) (netuid : NetUid) : Pools :=
  { p with
    networksAdded := p.networksAdded.erase netuid
    subnetVolume := update p.subnetVolume netuid 0
    subnetTaoFlow := update p.subnetTaoFlow netuid 0
    subnetTaoProvided := update p.subnetTaoProvided netuid 0
    subnetMechanism := update p.subnetMechanism netuid 0 }

/-- `remove_network` -/
def State.removeNetwork (s : Chain A B X) (defaultAccount : A) (netuid : NetUid) : Chain A B X :=
  { s with
    neurons := s.neurons.removeNetwork defaultAccount netuid
    pools := s.pools.removeNetwork netuid
    limits := s.limits.removeNetwork netuid
    rest := (s.rest.1.removeNetwork netuid, s.rest.2.removeNetwork netuid) }

def doDissolveNetwork (ncfg : NetworkConfig A B X) (netuid : NetUid) : ChainRun A B X Unit := do
  lift (ensure ((← get).pools.ifSubnetExist netuid ∧ netuid ≠ NetUid.root) .subnetNotExists)
  modify fun s => { s with rootClaims := s.rootClaims.finalizeAllSubnetRootDividends netuid }
  let (stakes, pools, ledger, swap) ← lift (ncfg.dissolveAllLiquidityProviders (← get) netuid)
  modify fun s => { s with stakes, pools, ledger, swap }
  destroyAlphaInOutStakes cfg ncfg netuid
  modify fun s => { s with swap := ncfg.clearProtocolLiquidity s.swap netuid }
  modify fun s => s.removeNetwork ncfg.defaultAccount netuid
end

/-! ## A new network -/

/-- `DefaultNeuronBurnCost` -/
def defaultNeuronBurnCost : Nat := 1000000000

/-- `init_new_network` -/
def State.initNewNetwork (s : Chain A B X) (netuid : NetUid) : Chain A B X :=
  let t := s.rest.1
  let c := s.rest.2
  { s with
    neurons := { s.neurons with subnetworkN := update s.neurons.subnetworkN netuid 0 }
    pools := { s.pools with networksAdded := s.pools.networksAdded.insert netuid true }
    rest :=
      ({ t with
          maxAllowedUids := update t.maxAllowedUids netuid 256
          immunityPeriod := update t.immunityPeriod netuid 5000 },
        { c with
          networkRegistrationAllowed := update c.networkRegistrationAllowed netuid true
          burn := update c.burn netuid defaultNeuronBurnCost }) }

/-- Steps 12 to 16 of `do_register_network`, with the TAO that was locked and the alpha that goes into the pool. The root
    validators of step 18 are not there. -/
def State.registerNetworkAt (s : Chain A B X) (netuid : NetUid) (coldkey hotkey : A) (poolTao poolAlpha : Nat) :
    Chain A B X :=
  let s := (s.initNewNetwork netuid).createAccountIfNonExistent coldkey hotkey
  let neurons := s.neurons.append netuid hotkey
  { s with
    neurons := { neurons with
      subnetOwner := update neurons.subnetOwner netuid coldkey
      subnetOwnerHotkey := update neurons.subnetOwnerHotkey netuid (some hotkey) }
    pools := { s.pools with
      subnetMechanism := update s.pools.subnetMechanism netuid 1
      subnetTao := update s.pools.subnetTao netuid poolTao
      subnetAlphaIn := update s.pools.subnetAlphaIn netuid poolAlpha
      subnetTaoProvided := update s.pools.subnetTaoProvided netuid 0
      subnetAlphaInProvided := update s.pools.subnetAlphaInProvided netuid 0
      subnetAlphaOut := update s.pools.subnetAlphaOut netuid 0
      subnetVolume := update s.pools.subnetVolume netuid 0 }
    totals := { s.totals with totalStake := s.totals.totalStake + poolTao }
    rest :=
      (s.rest.1.append netuid (s.neurons.subnetworkN netuid) s.block,
        { s.rest.2 with
          networkRegisteredAt := update s.rest.2.networkRegisteredAt netuid s.block
          subnetLocked := update s.rest.2.subnetLocked netuid poolTao }) }

/-! ## Incentives -/

/-- Later registrations first, then smaller uids. -/
def registeredAfter (a b : Nat × UInt16 × A) : Bool := b.1 < a.1 || a.1 = b.1 && a.2.1 ≤ b.2.1

/-- `get_owner_hotkeys` -/
def State.ownerHotkeys (s : Chain A B X) (netuid : NetUid) (coldkey : A) : List A :=
  let triples := (s.ownership.ownedHotkeys coldkey).filterMap fun hotkey =>
    (s.neurons.uids netuid hotkey).map fun uid => (s.rest.1.blockAtRegistration netuid uid, uid, hotkey)
  let ownerHotkeys := (triples.insertionSort (registeredAfter · ·)).map (·.2.2)
  match s.neurons.subnetOwnerHotkey netuid with
  | none         => ownerHotkeys
  | some ownerHk =>
      if (s.neurons.uids netuid ownerHk).isSome ∧ ownerHk ∉ ownerHotkeys then ownerHk :: ownerHotkeys else ownerHotkeys

/-- The body of the loop over the incentives in `distribute_dividends_and_incentives`. -/
def State.payIncentive (ownerHotkeys : List A) (defaultAccount : A) (netuid : NetUid) (s : Chain A B X)
    (e : A × Nat) : Chain A B X :=
  let (hotkey, incentive) := e
  if hotkey ∈ ownerHotkeys then
    match s.rest.2.recycleOrBurn netuid with
    | some .recycle => { s with pools := s.pools.recycleSubnetAlpha netuid incentive }
    -- `burn_subnet_alpha` does nothing
    | some .burn | none => s
  else
    let owner := (s.ownership.owner hotkey).getD defaultAccount
    let destination := (s.neurons.autoStakeDestination owner netuid).getD hotkey
    { s with stakes := s.stakes.increase destination owner netuid incentive }

def State.payIncentives (s : Chain A B X) (defaultAccount : A) (netuid : NetUid) (incentives : List (A × Nat)) :
    Chain A B X :=
  incentives.foldl (State.payIncentive (s.ownerHotkeys netuid (s.neurons.subnetOwner netuid)) defaultAccount netuid) s
end Qubitum.Subtensor
