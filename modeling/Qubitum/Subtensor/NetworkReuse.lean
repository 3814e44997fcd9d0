import Qubitum.Subtensor.Dissolution
import Qubitum.Subtensor.NeuronRuns

/-!
# `Subtensor.NetworkReuse` — what a removed subnet leaves for the next one

`State.withoutSubnet` is a state without anything under a netuid, item by item. What `do_dissolve_network` leaves is such a
state and the **leftovers** (`State.leftovers`), which are read before the removal: where incentives are staked
automatically, whether they are recycled, two limits on the uids, the voting power, a threshold of root claims, and
memberships without a neuron. Everything else under the netuid is cleared. So two removed subnets can be told apart later
if and only if their leftovers are different.
-/

namespace Qubitum.Subtensor
open Fixed Outcome Mutation Function

variable {A B X : Type} [DecidableEq A]

/-! ## Leaving nothing behind -/

/-- `DefaultMinNonImmuneUids` -/
def defaultMinNonImmuneUids : UInt16 := 10

/-- `InitialMinAllowedUids` -/
def initialMinAllowedUids : UInt16 := 64

/-- Every item under the netuid has the value of an absent entry. -/
def State.withoutSubnet (s : Chain A B X) (defaultAccount : A) (netuid : NetUid) : Chain A B X :=
  let t := s.rest.1
  let c := s.rest.2
  { s with
    stakes := { s.stakes with
      alpha := s.stakes.alpha.without fun key => key.2.2 = netuid
      totalHotkeyAlpha := fun hotkey => update (s.stakes.totalHotkeyAlpha hotkey) netuid 0 }
    rootClaims := { s.rootClaims with
      rootClaimable := fun hotkey => (s.rootClaims.rootClaimable hotkey).erase netuid
      rootClaimed := s.rootClaims.rootClaimed.without fun key => key.1 = netuid }
    pools := { s.pools with
      networksAdded := s.pools.networksAdded.erase netuid
      subnetMechanism := update s.pools.subnetMechanism netuid 0
      subnetTao := update s.pools.subnetTao netuid 0
      subnetTaoProvided := update s.pools.subnetTaoProvided netuid 0
      subnetAlphaIn := update s.pools.subnetAlphaIn netuid 0
      subnetAlphaInProvided := update s.pools.subnetAlphaInProvided netuid 0
      subnetAlphaOut := update s.pools.subnetAlphaOut netuid 0
      subnetVolume := update s.pools.subnetVolume netuid 0
      subnetTaoFlow := update s.pools.subnetTaoFlow netuid 0 }
    neurons := { s.neurons with
      isNetworkMember := s.neurons.isNetworkMember.without fun key => key.2 = netuid
      uids := update s.neurons.uids netuid fun _ => none
      keys := update s.neurons.keys netuid fun _ => none
      subnetworkN := update s.neurons.subnetworkN netuid 0
      subnetOwner := update s.neurons.subnetOwner netuid defaultAccount
      subnetOwnerHotkey := update s.neurons.subnetOwnerHotkey netuid none
      autoStakeDestination := fun coldkey => update (s.neurons.autoStakeDestination coldkey) netuid none
      autoStakeDestinationColdkeys := fun hotkey =>
        update (s.neurons.autoStakeDestinationColdkeys hotkey) netuid none }
    limits := { s.limits with
      lastHotkeySwapOnNetuid := update s.limits.lastHotkeySwapOnNetuid netuid fun _ => 0
      stakingOperationRateLimiter := fun hotkey coldkey =>
        update (s.limits.stakingOperationRateLimiter hotkey coldkey) netuid false }
    rest :=
      ({ t with
          active := update t.active netuid []
          emission := update t.emission netuid []
          consensus := update t.consensus netuid []
          dividends := update t.dividends netuid []
          validatorPermit := update t.validatorPermit netuid []
          validatorTrust := update t.validatorTrust netuid []
          blockAtRegistration := update t.blockAtRegistration netuid fun _ => 0
          immunityPeriod := update t.immunityPeriod netuid initialImmunityPeriod
          minNonImmuneUids := update t.minNonImmuneUids netuid defaultMinNonImmuneUids
          minAllowedUids := update t.minAllowedUids netuid initialMinAllowedUids
          maxAllowedUids := update t.maxAllowedUids netuid initialMaxAllowedUids
          immuneOwnerUidsLimit := update t.immuneOwnerUidsLimit netuid defaultImmuneOwnerUidsLimit },
        { c with
          networkRegistrationAllowed := update c.networkRegistrationAllowed netuid true
          burn := update c.burn netuid initialBurn
          subnetLocked := update c.subnetLocked netuid 0
          networkRegisteredAt := update c.networkRegisteredAt netuid 0
          childLinks :=
            { childKeys := fun parent => update (c.childLinks.childKeys parent) netuid none
              parentKeys := fun child => update (c.childLinks.parentKeys child) netuid none
              pendingChildKeys := c.childLinks.pendingChildKeys.without fun key => key.1 = netuid
              transactionKeyLastBlock := fun hotkey =>
                update (c.childLinks.transactionKeyLastBlock hotkey) netuid 0 }
          childkeyTake := fun hotkey => update (c.childkeyTake hotkey) netuid none
          recycleOrBurn := update c.recycleOrBurn netuid none
          votingPower := update c.votingPower netuid fun _ => 0
          votingPowerTrackingEnabled := update c.votingPowerTrackingEnabled netuid false
          votingPowerDisableAtBlock := update c.votingPowerDisableAtBlock netuid 0
          votingPowerEmaAlpha := update c.votingPowerEmaAlpha netuid none
          rootClaimableThreshold := update c.rootClaimableThreshold netuid none }) }

/-- The hotkeys of the neurons of a subnet. -/
def Neurons.hotkeys (n : Neurons A) (netuid : NetUid) : List A := (uidsBelow (2 ^ 16)).filterMap (n.keys netuid)

/-- What is under a netuid in the items that a removal does not clear, and the memberships that it keeps: those of other
    subnets, and those of hotkeys without a neuron. -/
structure Leftovers (A : Type) where
  isNetworkMember : StorageMap (A × NetUid) Bool
  autoStakeDestination : A → Option A
  autoStakeDestinationColdkeys : A → Option (List A)
  minNonImmuneUids : UInt16
  minAllowedUids : UInt16
  recycleOrBurn : Option RecycleOrBurn
  votingPower : A → Nat
  votingPowerTrackingEnabled : Bool
  votingPowerDisableAtBlock : Nat
  votingPowerEmaAlpha : Option Nat
  rootClaimableThreshold : Option I96F32

def State.leftovers (s : Chain A B X) (netuid : NetUid) : Leftovers A where
  isNetworkMember := s.neurons.isNetworkMember.without fun key => key.2 = netuid ∧ key.1 ∈ s.neurons.hotkeys netuid
  autoStakeDestination coldkey := s.neurons.autoStakeDestination coldkey netuid
  autoStakeDestinationColdkeys hotkey := s.neurons.autoStakeDestinationColdkeys hotkey netuid
  minNonImmuneUids := s.rest.1.minNonImmuneUids netuid
  minAllowedUids := s.rest.1.minAllowedUids netuid
  recycleOrBurn := s.rest.2.recycleOrBurn netuid
  votingPower := s.rest.2.votingPower netuid
  votingPowerTrackingEnabled := s.rest.2.votingPowerTrackingEnabled netuid
  votingPowerDisableAtBlock := s.rest.2.votingPowerDisableAtBlock netuid
  votingPowerEmaAlpha := s.rest.2.votingPowerEmaAlpha netuid
  rootClaimableThreshold := s.rest.2.rootClaimableThreshold netuid

/-- The state with the leftovers put back. -/
def State.leave (s : Chain A B X) (netuid : NetUid) (l : Leftovers A) : Chain A B X :=
  { s with
    neurons := { s.neurons with
      isNetworkMember := l.isNetworkMember
      autoStakeDestination := fun coldkey =>
        update (s.neurons.autoStakeDestination coldkey) netuid (l.autoStakeDestination coldkey)
      autoStakeDestinationColdkeys := fun hotkey =>
        update (s.neurons.autoStakeDestinationColdkeys hotkey) netuid (l.autoStakeDestinationColdkeys hotkey) }
    rest :=
      ({ s.rest.1 with
          minNonImmuneUids := update s.rest.1.minNonImmuneUids netuid l.minNonImmuneUids
          minAllowedUids := update s.rest.1.minAllowedUids netuid l.minAllowedUids },
        { s.rest.2 with
          recycleOrBurn := update s.rest.2.recycleOrBurn netuid l.recycleOrBurn
          votingPower := update s.rest.2.votingPower netuid l.votingPower
          votingPowerTrackingEnabled := update s.rest.2.votingPowerTrackingEnabled netuid l.votingPowerTrackingEnabled
          votingPowerDisableAtBlock := update s.rest.2.votingPowerDisableAtBlock netuid l.votingPowerDisableAtBlock
          votingPowerEmaAlpha := update s.rest.2.votingPowerEmaAlpha netuid l.votingPowerEmaAlpha
          rootClaimableThreshold := update s.rest.2.rootClaimableThreshold netuid l.rootClaimableThreshold }) }

/-! ## A removal and its leftovers -/

section Removal
variable {s : Chain A B X} {netuid : NetUid} {defaultAccount : A}

theorem without_without {K V : Type} (m : StorageMap K V) (gone : K → Bool) :
    (m.without gone).without gone = m.without gone := by
  apply AList.ext
  show (m.entries.filter _).filter _ = m.entries.filter _
  rw [List.filter_filter]
  congr 1
  funext e
  cases gone e.1 <;> rfl

theorem without_none {K V : Type} (m : StorageMap K V) : (m.without fun _ => false) = m :=
  AList.ext (List.filter_eq_self.mpr fun _ _ => rfl)

theorem kerase_eq_filter {K V : Type} [DecidableEq K] {l : List (Sigma fun _ : K => V)} (hnodup : l.NodupKeys) (k : K) :
    l.kerase k = l.filter fun e => e.1 ≠ k := by
  induction l with
  | nil => rfl
  | cons e rest ih =>
    obtain ⟨hnot, hrest⟩ := List.nodupKeys_cons.mp hnodup
    by_cases hk : e.1 = k
    · rw [List.kerase_cons_eq hk.symm, List.filter_cons_of_neg (by simp [hk]), ← ih hrest,
        List.kerase_of_notMem_keys (hk ▸ hnot)]
    · rw [List.kerase_cons_ne (Ne.symm hk), List.filter_cons_of_pos (by simp [hk]), ih hrest]

/-- Erasing the members one after the other. -/
theorem foldl_erase (hotkeys : List A) (members : StorageMap (A × NetUid) Bool) :
    hotkeys.foldl (fun members hotkey => members.erase (hotkey, netuid)) members =
      members.without fun key => key.2 = netuid ∧ key.1 ∈ hotkeys := by
  induction hotkeys generalizing members with
  | nil => simp only [List.foldl_nil, List.not_mem_nil, and_false, decide_false, without_none]
  | cons hotkey rest ih =>
    rw [List.foldl_cons, ih]
    apply AList.ext
    show (members.entries.kerase (hotkey, netuid)).filter _ = members.entries.filter _
    rw [kerase_eq_filter members.nodupKeys, List.filter_filter]
    congr 1
    funext e
    rw [Bool.eq_iff_iff]
    simp only [Bool.and_eq_true, Bool.not_eq_true', decide_eq_true_eq, decide_eq_false_iff_not, List.mem_cons, ne_eq,
      Prod.ext_iff]
    tauto

theorem erase_erase {K V : Type} [DecidableEq K] (m : StorageMap K V) (k : K) : (m.erase k).erase k = m.erase k := by
  apply AList.ext
  show (m.entries.kerase k).kerase k = m.entries.kerase k
  rw [List.kerase_of_notMem_keys]
  exact List.notMem_keys_kerase k m.nodupKeys

/-- The stake, the claims and the pool of the subnet are gone. -/
structure Emptied (s : Chain A B X) (netuid : NetUid) : Prop where
  alpha : (s.stakes.alpha.without fun key => key.2.2 = netuid) = s.stakes.alpha
  totalHotkeyAlpha : (fun hotkey => update (s.stakes.totalHotkeyAlpha hotkey) netuid 0) = s.stakes.totalHotkeyAlpha
  rootClaims : s.rootClaims.finalizeAllSubnetRootDividends netuid = s.rootClaims
  tao : update s.pools.subnetTao netuid 0 = s.pools.subnetTao
  alphaIn : update s.pools.subnetAlphaIn netuid 0 = s.pools.subnetAlphaIn
  alphaInProvided : update s.pools.subnetAlphaInProvided netuid 0 = s.pools.subnetAlphaInProvided
  alphaOut : update s.pools.subnetAlphaOut netuid 0 = s.pools.subnetAlphaOut

theorem Neurons.isNetworkMember_removeNetwork (n : Neurons A) :
    (n.removeNetwork defaultAccount netuid).isNetworkMember =
      n.isNetworkMember.without fun key => key.2 = netuid ∧ key.1 ∈ n.hotkeys netuid := by
  unfold Neurons.removeNetwork Neurons.hotkeys
  generalize (uidsBelow (2 ^ 16)).filterMap (n.keys netuid) = hotkeys
  exact foldl_erase hotkeys _

/-- **The removal of an emptied subnet** clears everything under the netuid but the leftovers. -/
theorem removeNetwork_eq (h : Emptied s netuid) : let s' := s.removeNetwork defaultAccount netuid
    s' = (s'.withoutSubnet defaultAccount netuid).leave netuid (s.leftovers netuid) := by
  have hmembers : (s.leftovers netuid).isNetworkMember =
      (s.neurons.removeNetwork defaultAccount netuid).isNetworkMember :=
    (Neurons.isNetworkMember_removeNetwork s.neurons).symm
  have hclaims := h.rootClaims
  unfold RootClaims.finalizeAllSubnetRootDividends at hclaims
  simp only [State.leave, hmembers]
  simp only [State.removeNetwork, State.withoutSubnet, State.leftovers, Neurons.removeNetwork,
    NeuronTable.removeNetwork, SubnetSettings.removeNetwork, ChildLinks.removeNetwork, Pools.removeNetwork,
    RateLimits.removeNetwork, update_idem, update_eq_self, without_without, erase_erase,
    h.alpha, h.totalHotkeyAlpha, hclaims, h.tao, h.alphaIn, h.alphaInProvided, h.alphaOut]

omit [DecidableEq A] in
theorem leave_injective : Injective (s.leave netuid) := by
  intro l l' h
  cases l
  cases l'
  simp only [State.leave, State.mk.injEq, Neurons.mk.injEq, Prod.mk.injEq, NeuronTable.mk.injEq,
    SubnetSettings.mk.injEq, (update_injective _ _).eq_iff, true_and, and_true] at h
  obtain ⟨⟨hmember, hdest, hcoldkeys⟩, ⟨hnon, hmin⟩, hrec, hpower, htrack, hblock, hema, hthr⟩ := h
  have hdest' := fun c => update_injective _ _ (congrFun hdest c)
  have hcoldkeys' := fun c => update_injective _ _ (congrFun hcoldkeys c)
  rw [Leftovers.mk.injEq]
  exact ⟨hmember, funext hdest', funext hcoldkeys', hnon, hmin, hrec, hpower, htrack, hblock, hema, hthr⟩

/-- What a removal leaves makes no difference to anything else. -/
theorem removeNetwork_leave {l : Leftovers A} (hmembers : l.isNetworkMember = s.neurons.isNetworkMember) :
    ((s.leave netuid l).removeNetwork defaultAccount netuid).withoutSubnet defaultAccount netuid =
      (s.removeNetwork defaultAccount netuid).withoutSubnet defaultAccount netuid := by
  simp only [State.removeNetwork, State.withoutSubnet, State.leave, Neurons.removeNetwork, NeuronTable.removeNetwork,
    SubnetSettings.removeNetwork, ChildLinks.removeNetwork, Pools.removeNetwork, RateLimits.removeNetwork,
    update_idem, hmembers]

section
variable (cfg : Config A B X (NeuronTable × SubnetSettings A))

omit [DecidableEq A] in
theorem foldl_creditPortion (portions : List (Portion A)) :
    portions.foldl (creditPortion cfg) s = { s with ledger := (portions.foldl (creditPortion cfg) s).ledger } := by
  induction portions generalizing s with
  | nil => rfl
  | cons p rest ih =>
    rw [List.foldl_cons, ih]
    unfold creditPortion addBalanceToColdkeyAccount
    split_ifs <;> rfl

/-- Paying out the pot empties the subnet, and does not touch the leftovers. -/
theorem destroyAlphaInOutStakes_empties
    (ncfg : NetworkConfig A B X) (hroot : s.rootClaims.finalizeAllSubnetRootDividends netuid = s.rootClaims) :
    Returns (destroyAlphaInOutStakes cfg ncfg netuid) s
      (fun _ s' => Emptied s' netuid ∧ s'.leftovers netuid = s.leftovers netuid) := by
  unfold destroyAlphaInOutStakes
  simp only [ends_bind, ends_get, ends_lift_ensure, ends_set, implies_true, and_true]
  intro _
  rw [foldl_creditPortion]
  unfold addBalanceToColdkeyAccount
  split_ifs
  all_goals refine ⟨⟨?_, ?_, hroot, ?_, ?_, ?_, ?_⟩, rfl⟩
  all_goals simp only [without_without, update_idem]

/-- **A dissolved network leaves nothing but the leftovers.** -/
theorem doDissolveNetwork_leaves (ncfg : NetworkConfig A B X) :
    Returns (doDissolveNetwork cfg ncfg netuid) s
      (fun _ s' => s' = (s'.withoutSubnet ncfg.defaultAccount netuid).leave netuid (s.leftovers netuid)) := by
  unfold doDissolveNetwork
  simp only [ends_bind, ends_get, ends_lift_ensure, ends_modify, implies_true, and_true]
  simp only [ends_lift, implies_true, and_true]
  intro _ paid _
  refine (destroyAlphaInOutStakes_empties cfg ncfg (by
    simp only [RootClaims.finalizeAllSubnetRootDividends, erase_erase, without_without])).weaken ?_
  rintro _ t ⟨ht, hleft⟩
  have hcleared : Emptied { t with swap := ncfg.clearProtocolLiquidity t.swap netuid } netuid :=
    ⟨ht.alpha, ht.totalHotkeyAlpha, ht.rootClaims, ht.tao, ht.alphaIn, ht.alphaInProvided, ht.alphaOut⟩
  have hleft' : t.leftovers netuid = s.leftovers netuid := hleft
  rw [← hleft']
  exact removeNetwork_eq hcleared
end
end Removal

/-! ## The next subnet -/

namespace Sample

/-- Nothing is set. -/
def settings : SubnetSettings Account where
  networkRegistrationAllowed _ := true
  burn _ := initialBurn
  subnetLocked _ := 0
  networkRegisteredAt _ := 0
  childLinks :=
    { childKeys := fun _ _ => none, parentKeys := fun _ _ => none, pendingChildKeys := ∅
      transactionKeyLastBlock := fun _ _ => 0 }
  childkeyTake _ _ := none
  recycleOrBurn _ := none
  votingPower _ _ := 0
  votingPowerTrackingEnabled _ := false
  votingPowerDisableAtBlock _ := 0
  votingPowerEmaAlpha _ := none
  rootClaimableThreshold _ := none

def settingsStorage : OtherStorage Account (SubnetSettings Account) where
  moveNeuronData c _ _ _ := c
  parentChildSwapHotkey c _ _ _ := .ok c
  movePendingChild c _ _ _ := c
  moveDividends c _ _ _ := c
  moveAutoParentDelegation c _ _ := c
  moveIdentity c _ _ := c
  removePendingChildren c _ _ := c
  networkRegistrationAllowed c netuid := c.networkRegistrationAllowed netuid
  burn c netuid := c.burn netuid
  maxAllowedUids _ _ := 0
  neuronToPrune _ _ _ _ _ := none
  appendNeuronData c _ _ _ := c
  replaceNeuronData c _ _ _ _ := c
  countRegistration c _ _ := c

def chainConfig : Config Account (Account → Nat) Unit (NeuronTable × SubnetSettings Account) :=
  Config.withNeurons { config with other := settingsStorage }

/-- There are no positions of users. -/
def networkConfig : NetworkConfig Account (Account → Nat) Unit where
  defaultAccount := 0
  networkRegistrationStartBlock := 0
  subnetOwnerCut := 0
  dissolveAllLiquidityProviders s _ := .ok (s.stakes, s.pools, s.ledger, s.swap)
  clearProtocolLiquidity x _ := x

/-- Subnet 1 with the default settings, -/
def plain : Chain Account (Account → Nat) Unit := { fresh with rest := (emptyTable, settings) }

/-- and with an owner who has its incentives recycled, and who stakes on hotkey 2 automatically. -/
def configured : Chain Account (Account → Nat) Unit :=
  plain.leave 1 { plain.leftovers 1 with
    autoStakeDestination := fun coldkey => if coldkey = 0 then some 2 else none
    recycleOrBurn := some .recycle }

/-- The same with a higher price for a registration. -/
def priced : Chain Account (Account → Nat) Unit :=
  { plain with rest := (emptyTable, { settings with burn := update settings.burn 1 5000000000 }) }

/-- A new subnet 1 of coldkey 0 with hotkey 1. Somebody stakes on it, and then the owner's hotkey and hotkey 3, which
    nobody owns, receive an incentive. -/
def newSubnet : ChainRun Account (Account → Nat) Unit Unit := do
  modify (·.registerNetworkAt 1 0 1 1000000000 1000000000)
  let _ ← doAddStake chainConfig (.signed 2) 1 1 10000000
  modify (·.payIncentives 0 1 [(1, 1000000), (3, 500000)])

/-- What paying out the pot of a subnet without stakers leaves. -/
def emptied (s : Chain Account (Account → Nat) Unit) : Chain Account (Account → Nat) Unit :=
  committed (destroyAlphaInOutStakes chainConfig networkConfig 1)
    { s with rootClaims := s.rootClaims.finalizeAllSubnetRootDividends 1 }

theorem withoutSubnet_priced :
    (committed (doDissolveNetwork chainConfig networkConfig 1) plain).withoutSubnet 0 1 =
      (committed (doDissolveNetwork chainConfig networkConfig 1) priced).withoutSubnet 0 1 := by
  have hpriced : emptied priced = { emptied plain with
    rest := ((emptied plain).rest.1, { (emptied plain).rest.2 with
      burn := update (emptied plain).rest.2.burn 1 5000000000 }) } := rfl
  show ((emptied plain).removeNetwork 0 1).withoutSubnet 0 1 = ((emptied priced).removeNetwork 0 1).withoutSubnet 0 1
  rw [hpriced]
  simp only [State.removeNetwork, State.withoutSubnet, SubnetSettings.removeNetwork, update_idem]
end Sample
open Sample

end Qubitum.Subtensor
