import Qubitum.Subtensor.NeuronTrimming
import Qubitum.Subtensor.SwapEffects

/-!
# `Subtensor.NeuronRuns` — the registry of a subnet over whole runs

Registrations, also on the root network, trimming and hotkey swaps on any subnets, with blocks and changes of the
settings between them. The registry of a subnet that was empty at the start stays in order (`Registry`), and every
registration on it gives the hotkey a uid, for which at most one other hotkey leaves: never the subnet's owner's, and
never an immune one.
-/

namespace Qubitum.Subtensor
open Outcome Mutation Slots Function

variable {A B X Q : Type} [DecidableEq A]

/-! ## Registering -/

section Register
variable {cfg : Config A B X Q} {s s' : State A B X (NeuronTable × Q)} {netuid netuid' : NetUid} {hotkey coldkey : A}

/-- A hotkey that had a uid and has none any more. -/
def Evicted (n n' : Neurons A) (netuid : NetUid) (k : A) : Prop := (n.uids netuid k).isSome ∧ n'.uids netuid k = none

/-- What a registration does. -/
structure Registered (s s' : State A B X (NeuronTable × Q)) (netuid : NetUid) (hotkey : A) : Prop where
  hasUid : (s'.neurons.uids netuid hotkey).isSome
  evictsOne : ∀ k k', Evicted s.neurons s'.neurons netuid k → Evicted s.neurons s'.neurons netuid k' → k = k'
  sparesOwner : ∀ k, Evicted s.neurons s'.neurons netuid k → s.neurons.subnetOwnerHotkey netuid ≠ some k
  sparesImmune : ∀ k, Evicted s.neurons s'.neurons netuid k →
    k ∉ s.rest.1.immuneOwnerHotkeys s.ownership s.neurons netuid (s.neurons.subnetOwner netuid)

theorem registerNeuron_registered (h : Registry netuid s.neurons s.rest.1) (hnew : s.neurons.uids netuid hotkey = none) :
    Returns (registerNeuron cfg.withNeurons netuid hotkey) s
      (fun _ s' => Registry netuid s'.neurons s'.rest.1 ∧ Registered s s' netuid hotkey) := by
  unfold registerNeuron
  simp only [ends_bind, ends_get, ends_ite, ends_set, ends_lift_okOr, implies_true, and_true]
  refine ⟨fun hlt => ?_, fun _ uid hprune => ?_⟩
  · have hroom : (s.neurons.subnetworkN netuid).toNat + 1 < 2 ^ 16 := by
      have hlt := UInt16.lt_iff_toNat_lt.mp hlt
      have hmax := (cfg.withNeurons.other.maxAllowedUids s.rest netuid).toNat_lt
      omega
    have huids : (s.neurons.append netuid hotkey).uids netuid =
        update (s.neurons.uids netuid) hotkey (some (s.neurons.subnetworkN netuid)) := update_self ..
    -- nobody leaves
    have hnone : ∀ k, ¬Evicted s.neurons (s.neurons.append netuid hotkey) netuid k := by
      rintro k ⟨hsome, hleft⟩
      rw [huids] at hleft
      by_cases hk : k = hotkey
      · rw [hk, update_self] at hleft
        cases hleft
      · rw [update_of_ne hk] at hleft
        rw [hleft] at hsome
        cases hsome
    refine ⟨h.append hnew hroom, ?_, fun k _ hk => absurd hk (hnone k), fun k hk => absurd hk (hnone k),
      fun k hk => absurd hk (hnone k)⟩
    show ((s.neurons.append netuid hotkey).uids netuid hotkey).isSome
    rw [huids, update_self]
    rfl
  · obtain ⟨hk, hkey, himmortal⟩ := neuronToPrune_prunable hprune
    -- the neuron of the subnet's owner is immortal, so that replacing it is never skipped
    have howner : s.neurons.subnetOwnerHotkey netuid ≠ some hk := fun howner =>
      himmortal (subnetOwnerHotkey_immune h.limit howner ((h.mirrored uid hk).mp hkey))
    have hreplaced : s.replaceNeuron cfg.withNeurons netuid uid hotkey =
        { s with
          neurons := s.neurons.replace netuid uid hk hotkey
          rest := cfg.withNeurons.other.replaceNeuronData s.rest netuid uid hk s.block } := by
      unfold State.replaceNeuron
      simp only [hkey, if_neg howner]
    have huids : (s.neurons.replace netuid uid hk hotkey).uids netuid =
        update (update (s.neurons.uids netuid) hk none) hotkey (some uid) := update_self ..
    -- only the one whose neuron it was leaves
    have hone : ∀ k, Evicted s.neurons (s.neurons.replace netuid uid hk hotkey) netuid k → k = hk := by
      rintro k ⟨hsome, hleft⟩
      rw [huids] at hleft
      by_contra hne
      by_cases hself : k = hotkey
      · rw [hself, hnew] at hsome
        cases hsome
      · rw [update_of_ne hself, update_of_ne hne] at hleft
        rw [hleft] at hsome
        cases hsome
    rw [hreplaced]
    refine ⟨h.replace hkey hnew, ?_, fun k k' hk hk' => (hone k hk).trans (hone k' hk').symm, fun k hk' => ?_,
      fun k hk' => ?_⟩
    · show ((s.neurons.replace netuid uid hk hotkey).uids netuid hotkey).isSome
      rw [huids, update_self]
      rfl
    · rw [hone k hk']
      exact howner
    · rw [hone k hk']
      exact himmortal

/-- A new account is not among the immune ones before it has a uid. -/
theorem immuneOwnerHotkeys_createAccount (coldkey c : A) (hnew : s.neurons.uids netuid hotkey = none) :
    s.rest.1.immuneOwnerHotkeys (s.createAccountIfNonExistent coldkey hotkey).ownership s.neurons netuid c =
      s.rest.1.immuneOwnerHotkeys s.ownership s.neurons netuid c := by
  unfold State.createAccountIfNonExistent
  split_ifs
  · rfl
  · by_cases hc : c = coldkey
    · have howned : (s.ownership.assign coldkey hotkey).ownedHotkeys c = pushNew (s.ownership.ownedHotkeys c) hotkey := by
        rw [hc]
        exact update_self ..
      by_cases hmem : hotkey ∈ s.ownership.ownedHotkeys c
      · refine immuneOwnerHotkeys_append [] hnew ?_ fun k hk => absurd hk List.not_mem_nil
        rw [howned, pushNew, if_pos hmem, List.append_nil]
      · refine immuneOwnerHotkeys_append [hotkey] hnew ?_ fun k hk => List.mem_singleton.mp hk
        rw [howned, pushNew, if_neg hmem]
    · refine immuneOwnerHotkeys_append [] hnew ?_ fun k hk => absurd hk List.not_mem_nil
      rw [List.append_nil]
      exact update_of_ne hc ..

theorem createAccount_frame {s : State A B X Q} :
    (s.createAccountIfNonExistent coldkey hotkey).neurons = s.neurons ∧
      (s.createAccountIfNonExistent coldkey hotkey).rest = s.rest := by
  unfold State.createAccountIfNonExistent
  split_ifs <;> exact ⟨rfl, rfl⟩

variable (h : Registry netuid' s.neurons s.rest.1)
include h

theorem replaceNeuron_registry {uid : UInt16} (hnew : netuid' = netuid → s.neurons.uids netuid hotkey = none) :
    Registry netuid' (s.replaceNeuron cfg.withNeurons netuid uid hotkey).neurons
      (s.replaceNeuron cfg.withNeurons netuid uid hotkey).rest.1 := by
  unfold State.replaceNeuron
  split
  case h_1 => exact h
  case h_2 oldHotkey hkey =>
    split_ifs
    · exact h
    · by_cases heq : netuid' = netuid
      · subst heq
        exact h.replace hkey (hnew rfl)
      · exact h.replace_other heq

theorem registerNeuron_other (hother : netuid' ≠ netuid) :
    Returns (registerNeuron cfg.withNeurons netuid hotkey) s (fun _ s' => Registry netuid' s'.neurons s'.rest.1) := by
  unfold registerNeuron
  simp only [ends_bind, ends_get, ends_ite, ends_set, ends_lift_okOr, implies_true, and_true]
  exact ⟨fun _ => h.append_other hother, fun _ uid _ => replaceNeuron_registry h fun heq => absurd heq hother⟩

/-- The neuron is registered when the account has been made and paid for. -/
theorem registerNeuron_after {v : State A B X (NeuronTable × Q)}
    (hnew : s.neurons.uids netuid hotkey = none) (hneurons : v.neurons = s.neurons) (hrest : v.rest = s.rest)
    (hownership : v.ownership = (s.createAccountIfNonExistent coldkey hotkey).ownership) :
    Returns (registerNeuron cfg.withNeurons netuid hotkey) v
      (fun _ s' => Registry netuid' s'.neurons s'.rest.1 ∧ (netuid' = netuid → Registered s s' netuid hotkey)) := by
  rw [← hneurons, ← hrest] at h
  by_cases heq : netuid' = netuid
  · subst heq
    refine (registerNeuron_registered h (by rw [hneurons]; exact hnew)).weaken ?_
    rintro _ w ⟨hregistry, hdone⟩
    have himmune := immuneOwnerHotkeys_createAccount coldkey (s.neurons.subnetOwner netuid') hnew
    rw [← hownership, ← hneurons, ← hrest] at himmune
    refine ⟨hregistry, fun _ => ⟨hdone.hasUid, ?_, ?_, ?_⟩⟩
    · rw [← hneurons]
      exact hdone.evictsOne
    · rw [← hneurons]
      exact hdone.sparesOwner
    · rw [← hneurons, ← hrest, ← himmune]
      exact hdone.sparesImmune
  · refine (registerNeuron_other h heq).weaken ?_
    intro _ w hw
    exact ⟨hw, fun hsame => absurd hsame heq⟩

/-- **A registration** keeps every registry in order, and does on its own subnet what it should. -/
theorem doRegister_registered {origin : Origin A} :
    Returns (doRegister cfg.withNeurons origin netuid hotkey) s
      (fun _ s' => Registry netuid' s'.neurons s'.rest.1 ∧ (netuid' = netuid → Registered s s' netuid hotkey)) := by
  unfold doRegister
  simp only [ends_bind, ends_get, ends_modify, ends_lift_ensure, implies_true, and_true]
  simp only [ends_lift, implies_true, and_true]
  intro coldkey _ _ _ _ hnone _ _ _ _
  have hnew : s.neurons.uids netuid hotkey = none := Option.isNone_iff_eq_none.mp hnone
  -- what comes before the neuron is registered is about accounts, balances and pools
  refine removeBalanceFromColdkeyAccount_ends.weaken ?_
  intro _ t ht
  refine swapTaoForAlpha_ends.weaken ?_
  rintro r u ⟨-, rfl⟩
  have hneurons : t.neurons = s.neurons := by
    rw [ht]
    exact createAccount_frame.1
  have hrest : t.rest = s.rest := by
    rw [ht]
    exact createAccount_frame.2
  have hownership : t.ownership = (s.createAccountIfNonExistent coldkey hotkey).ownership := by rw [ht]
  refine (registerNeuron_after h hnew (v := { t.bought cfg.withNeurons netuid _ _ _ r with pools := _ }) hneurons hrest
    hownership).weaken ?_
  intro _ w hw
  exact ⟨hw.1, fun heq => ⟨(hw.2 heq).hasUid, (hw.2 heq).evictsOne, (hw.2 heq).sparesOwner, (hw.2 heq).sparesImmune⟩⟩
end Register

/-! ## Registering on the root network -/

/-- What only this registration reads and counts, and the order in which `Keys` is iterated. -/
structure RootConfig (Q : Type) where
  registrationsThisBlock : Q → Nat
  maxRegistrationsPerBlock : Q → Nat
  registrationsThisInterval : Q → Nat
  targetRegistrationsPerInterval : Q → Nat
  countRegistration : Q → Q
  uids : List UInt16

/-- The lowest stake on the root network, and the first uid that has it. -/
def lowestRootStake (st : Stakes A) (n : Neurons A) (uids : List UInt16) : Nat × UInt16 :=
  uids.foldl (fun lowest uid =>
    match n.keys NetUid.root uid with
    | none => lowest
    | some hotkey =>
        let stake := st.totalHotkeyAlpha hotkey NetUid.root
        if stake < lowest.1 then (stake, uid) else lowest) (2 ^ 64 - 1, 0)

def doRootRegister (cfg : Config A B X Q) (root : RootConfig Q) (origin : Origin A) (hotkey : A) :
    Run A B X (NeuronTable × Q) Unit := do
  let s ← get
  lift (ensure (s.pools.ifSubnetExist NetUid.root) .rootNetworkDoesNotExist)
  let coldkey ← lift (ensureSigned origin)
  lift (ensure (root.registrationsThisBlock s.rest.2 < root.maxRegistrationsPerBlock s.rest.2)
    .tooManyRegistrationsThisBlock)
  lift (ensure (root.registrationsThisInterval s.rest.2 <
    min (root.targetRegistrationsPerInterval s.rest.2 * 3) (2 ^ 16 - 1)) .tooManyRegistrationsThisInterval)
  lift (ensure ((s.neurons.uids NetUid.root hotkey).isNone) .hotKeyAlreadyRegisteredInSubNet)
  let s := s.createAccountIfNonExistent coldkey hotkey
  if s.neurons.subnetworkN NetUid.root < s.rest.1.maxAllowedUids NetUid.root then
    set { s with
      neurons := s.neurons.append NetUid.root hotkey
      rest := cfg.withNeurons.other.appendNeuronData s.rest NetUid.root (s.neurons.subnetworkN NetUid.root) s.block }
  else
    let (lowestStake, lowestUid) := lowestRootStake s.stakes s.neurons root.uids
    let _ ← lift (okOr (s.neurons.keys NetUid.root lowestUid) .hotKeyNotRegisteredInSubNet)
    lift (ensure (lowestStake < s.stakes.totalHotkeyAlpha hotkey NetUid.root) .stakeTooLowForRoot)
    set (s.replaceNeuron cfg.withNeurons NetUid.root lowestUid hotkey)
  -- whoever is on the root network is a delegate, with a take of 18 % if it is a new one
  modify fun s => { s with
    neurons := { s.neurons with
      delegates := update s.neurons.delegates hotkey (some ((s.neurons.delegates hotkey).getD 11796)) }
    rest := (s.rest.1, root.countRegistration s.rest.2) }

theorem doRootRegister_registry {cfg : Config A B X Q} {root : RootConfig Q} {s : State A B X (NeuronTable × Q)}
    {netuid : NetUid} {origin : Origin A} {hotkey : A} (h : Registry netuid s.neurons s.rest.1) :
    Returns (doRootRegister cfg root origin hotkey) s (fun _ s' => Registry netuid s'.neurons s'.rest.1) := by
  unfold doRootRegister
  simp only [ends_bind, ends_get, ends_ite, ends_set, ends_modify, ends_lift_ensure, ends_lift_okOr, implies_true,
    and_true]
  simp only [ends_lift, implies_true, and_true]
  intro _ coldkey _ _ _ hnone
  obtain ⟨hneurons, hrest⟩ : (s.createAccountIfNonExistent coldkey hotkey).neurons = s.neurons ∧
      (s.createAccountIfNonExistent coldkey hotkey).rest = s.rest := createAccount_frame
  generalize s.createAccountIfNonExistent coldkey hotkey = t at hneurons hrest ⊢
  rw [← hneurons, ← hrest] at h
  have hnew : t.neurons.uids NetUid.root hotkey = none := by
    rw [hneurons]
    exact Option.isNone_iff_eq_none.mp hnone
  refine ⟨fun hlt => ?_, fun _ _ _ _ => ?_⟩
  · refine Registry.frame (n := t.neurons.append NetUid.root hotkey) ?_ .rfl rfl rfl rfl fun _ => rfl
    by_cases heq : netuid = NetUid.root
    · subst heq
      refine h.append hnew ?_
      have hlt := UInt16.lt_iff_toNat_lt.mp hlt
      have hmax := (t.rest.1.maxAllowedUids NetUid.root).toNat_lt
      omega
    · exact h.append_other heq
  · exact (replaceNeuron_registry h fun _ => hnew).frame .rfl rfl rfl rfl fun _ => rfl

/-! ## Swapping a hotkey -/

section Swap
variable {cfg : Config A B X Q} {s : State A B X (NeuronTable × Q)} {n : Neurons A} {t : NeuronTable}
  {netuid netuid' : NetUid} {oldHotkey newHotkey : A}

theorem isNetworkMember_swapHotkey : (n.swapHotkey oldHotkey newHotkey netuid).isNetworkMember =
    (n.swapMembership oldHotkey newHotkey netuid).isNetworkMember := by
  unfold Neurons.swapHotkey Neurons.swapSubnetOwnerHotkey Neurons.swapAutoStakeDestination
  split <;> split_ifs <;> rfl

theorem isMember_swapHotkey {hotkey : A} : (n.swapHotkey oldHotkey newHotkey netuid').isMember hotkey netuid =
    if hotkey = newHotkey ∧ netuid = netuid' then n.isMember oldHotkey netuid'
    else if hotkey = oldHotkey ∧ netuid = netuid' then false else n.isMember hotkey netuid := by
  unfold Neurons.isMember
  rw [isNetworkMember_swapHotkey]
  exact isMember_swapMembership

/-- One subnet: a new hotkey without a neuron takes over. -/
theorem Registry.swapHotkey (h : Registry netuid n t) (hne : oldHotkey ≠ newHotkey)
    (hnew : netuid = netuid' → n.isMember newHotkey netuid = false) :
    Registry netuid (n.swapHotkey oldHotkey newHotkey netuid') t := by
  refine Registry.swapOthers ?_ oldHotkey newHotkey netuid'
  by_cases heq : netuid = netuid'
  · subst heq
    refine h.swapMembership hne ?_
    rw [← Option.not_isSome_iff_eq_none, ← h.member, hnew rfl]
    exact Bool.false_ne_true
  · obtain ⟨-, hcount, hother⟩ := swapMembership_frame n oldHotkey newHotkey netuid' netuid
    refine h.frame .rfl (by rw [hcount]) (hother heq).1 (hother heq).2 fun k => ?_
    rw [isMember_swapMembership, if_neg fun hall => heq hall.2, if_neg fun hall => heq hall.2]

/-- All subnets: each of them is met once. -/
theorem Registry.swapHotkeyOn {netuids : List NetUid} (h : Registry netuid n t) (hne : oldHotkey ≠ newHotkey)
    (hnodup : netuids.Nodup) (hfree : ∀ m ∈ netuids, n.isMember newHotkey m = false) :
    Registry netuid (n.swapHotkeyOn oldHotkey newHotkey netuids) t := by
  induction netuids generalizing n with
  | nil => exact h
  | cons m rest ih =>
    rw [List.nodup_cons] at hnodup
    have hfirst : Registry netuid (n.swapHotkey oldHotkey newHotkey m) t :=
      h.swapHotkey hne fun heq => heq ▸ hfree m (List.mem_cons_self ..)
    refine ih hfirst hnodup.2 fun m' hm' => ?_
    have hother : m' ≠ m := fun heq => hnodup.1 (heq ▸ hm')
    rw [isMember_swapHotkey, if_neg fun hall => hother hall.2, if_neg fun hall => hother hall.2]
    exact hfree m' (List.mem_cons_of_mem _ hm')

theorem swapTargets_nodup (p : Pools) (target : Option NetUid) : (p.swapTargets target).Nodup := by
  cases target with
  | some netuid => exact List.nodup_singleton netuid
  | none => exact p.networksAdded.nodupKeys

/-- The table of the neurons is not touched by a swap. -/
theorem swapKeeps_table (t : NeuronTable) : cfg.withNeurons.other.SwapKeeps fun r => r.1 = t where
  neuronData h := h
  parentChild hok h := by
    obtain ⟨q, -, rfl⟩ := map_eq_ok.mp hok
    exact h
  pendingChild h := h
  dividends h := h
  autoParentDelegation h := h

/-- **A hotkey swap** keeps every registry in order. -/
theorem doSwapHotkey_registry {origin : Origin A} {target : Option NetUid} {keepStake : Bool}
    (h : Registry netuid s.neurons s.rest.1) :
    Returns (doSwapHotkey cfg.withNeurons origin oldHotkey newHotkey target keepStake) s
      (fun _ s' => Registry netuid s'.neurons s'.rest.1) := by
  refine doSwapHotkey_ends.weaken ?_
  rintro _ s' ⟨coldkey, -, hswapped, hkeeps⟩
  rw [hkeeps _ (swapKeeps_table s.rest.1) rfl, hswapped.neurons]
  refine (h.swapHotkeyOn hswapped.ne (swapTargets_nodup s.pools target) hswapped.free).frame .rfl rfl rfl rfl ?_
  exact fun _ => rfl
end Swap

/-! ## Whole runs -/

/-- `MinImmuneOwnerUidsLimit` -/
def minImmuneOwnerUidsLimit : UInt16 := 1

/-- `MaxImmuneOwnerUidsLimit` -/
def maxImmuneOwnerUidsLimit : UInt16 := 10

/-- `set_owner_immune_neuron_limit` -/
def setOwnerImmuneNeuronLimit (netuid : NetUid) (limit : UInt16) : Run A B X (NeuronTable × Q) Unit := do
  lift (ensure (minImmuneOwnerUidsLimit ≤ limit ∧ limit ≤ maxImmuneOwnerUidsLimit) .invalidValue)
  modify fun s => { s with
    rest := ({ s.rest.1 with immuneOwnerUidsLimit := update s.rest.1.immuneOwnerUidsLimit netuid limit }, s.rest.2) }

/-- The functions that change neurons, the settings they read, and the passing of blocks. -/
inductive NeuronCall (A : Type) where
  | doRegister (origin : Origin A) (netuid : NetUid) (hotkey : A)
  | doRootRegister (origin : Origin A) (hotkey : A)
  | trimToMaxAllowedUids (netuid : NetUid) (maxN : UInt16)
  | doSwapHotkey (origin : Origin A) (oldHotkey newHotkey : A) (netuid : Option NetUid) (keepStake : Bool)
  | setImmunityPeriod (netuid : NetUid) (period : UInt16)
  | setMinNonImmuneUids (netuid : NetUid) (min : UInt16)
  | setMinAllowedUids (netuid : NetUid) (min : UInt16)
  | setMaxAllowedUids (netuid : NetUid) (max : UInt16)
  | setOwnerImmuneNeuronLimit (netuid : NetUid) (limit : UInt16)
  | nextBlock (author : Option A)

namespace NeuronCall
variable (cfg : Config A B X Q) (root : RootConfig Q) (defaultAccount : A)

/-- The setters store any value; only the limit of the immune owner uids is checked. -/
def run : NeuronCall A → Run A B X (NeuronTable × Q) Unit
  | .doRegister origin netuid hotkey => Subtensor.doRegister cfg.withNeurons origin netuid hotkey
  | .doRootRegister origin hotkey => Subtensor.doRootRegister cfg root origin hotkey
  | .trimToMaxAllowedUids netuid maxN => Subtensor.trimToMaxAllowedUids defaultAccount netuid maxN
  | .doSwapHotkey origin oldHotkey newHotkey netuid keepStake =>
      Subtensor.doSwapHotkey cfg.withNeurons origin oldHotkey newHotkey netuid keepStake
  | .setImmunityPeriod netuid period => modify fun s => { s with
      rest := ({ s.rest.1 with immunityPeriod := update s.rest.1.immunityPeriod netuid period }, s.rest.2) }
  | .setMinNonImmuneUids netuid min => modify fun s => { s with
      rest := ({ s.rest.1 with minNonImmuneUids := update s.rest.1.minNonImmuneUids netuid min }, s.rest.2) }
  | .setMinAllowedUids netuid min => modify fun s => { s with
      rest := ({ s.rest.1 with minAllowedUids := update s.rest.1.minAllowedUids netuid min }, s.rest.2) }
  | .setMaxAllowedUids netuid max => modify fun s => { s with
      rest := ({ s.rest.1 with maxAllowedUids := update s.rest.1.maxAllowedUids netuid max }, s.rest.2) }
  | .setOwnerImmuneNeuronLimit netuid limit => Subtensor.setOwnerImmuneNeuronLimit netuid limit
  | .nextBlock author => modify fun s => { s with block := s.block + 1, author }

/-- A call that fails is rolled back. -/
def execAll (s : State A B X (NeuronTable × Q)) (calls : List (NeuronCall A)) : State A B X (NeuronTable × Q) :=
  calls.foldl (fun s call => committed (call.run cfg root defaultAccount) s) s
end NeuronCall

section Runs
variable {cfg : Config A B X Q} {root : RootConfig Q} {defaultAccount : A}
  {s : State A B X (NeuronTable × Q)} {netuid : NetUid}

/-- A subnet without neurons. -/
structure EmptySubnet (netuid : NetUid) (n : Neurons A) (t : NeuronTable) : Prop where
  keys : ∀ uid, n.keys netuid uid = none
  uids : ∀ hotkey, n.uids netuid hotkey = none
  member : ∀ hotkey, n.isMember hotkey netuid = false
  count : n.subnetworkN netuid = 0
  active : t.active netuid = []
  emission : t.emission netuid = []
  consensus : t.consensus netuid = []
  dividends : t.dividends netuid = []
  validatorTrust : t.validatorTrust netuid = []
  validatorPermit : t.validatorPermit netuid = []
  limit : minImmuneOwnerUidsLimit ≤ t.immuneOwnerUidsLimit netuid

theorem EmptySubnet.registry {n : Neurons A} {t : NeuronTable} (h : EmptySubnet netuid n t) : Registry netuid n t where
  mirrored uid hotkey := by simp [h.keys, h.uids]
  filled uid := by simp [h.keys, h.count]
  member hotkey := by simp [h.member, h.uids]
  active := by simp [h.active, h.count]
  emission := by simp [h.emission, h.count]
  consensus := by simp [h.consensus, h.count]
  dividends := by simp [h.dividends, h.count]
  validatorTrust := by simp [h.validatorTrust, h.count]
  validatorPermit := by simp [h.validatorPermit, h.count]
  limit := UInt16.le_iff_toNat_le.mp h.limit

theorem setOwnerImmuneNeuronLimit_registry {netuid' : NetUid} {limit : UInt16} (h : Registry netuid' s.neurons s.rest.1) :
    Returns (setOwnerImmuneNeuronLimit netuid limit) s (fun _ s' => Registry netuid' s'.neurons s'.rest.1) := by
  unfold setOwnerImmuneNeuronLimit
  simp only [ends_bind, ends_lift_ensure, ends_modify, implies_true, and_true]
  intro hlimit
  refine { h with limit := ?_ }
  by_cases heq : netuid' = netuid
  · subst heq
    simp only [update_self]
    exact UInt16.le_iff_toNat_le.mp hlimit.1
  · simp only [update_of_ne heq]
    exact h.limit

/-- One call keeps the registry of every subnet in order. -/
theorem run_registry (call : NeuronCall A) (h : Registry netuid s.neurons s.rest.1) :
    Returns (call.run cfg root defaultAccount) s (fun _ s' => Registry netuid s'.neurons s'.rest.1) := by
  cases call with
  | doRegister origin m hotkey =>
    refine (doRegister_registered h).weaken ?_
    intro _ t ht
    exact ht.1
  | doRootRegister origin hotkey => exact doRootRegister_registry h
  | trimToMaxAllowedUids m maxN => exact trimToMaxAllowedUids_registry h
  | doSwapHotkey origin oldHotkey newHotkey m keepStake => exact doSwapHotkey_registry h
  | setOwnerImmuneNeuronLimit m limit => exact setOwnerImmuneNeuronLimit_registry h
  | setImmunityPeriod | setMinNonImmuneUids | setMinAllowedUids | setMaxAllowedUids | nextBlock =>
    exact h.frame ⟨rfl, rfl, rfl, rfl, rfl, rfl, rfl⟩ rfl rfl rfl fun _ => rfl

/-- What every call keeps holds after the run. -/
theorem execAll_inv {I : State A B X (NeuronTable × Q) → Prop} (calls : List (NeuronCall A))
    (hstep : ∀ c ∈ calls, ∀ s, I s → Returns (c.run cfg root defaultAccount) s (fun _ s' => I s')) (h : I s) :
    I (NeuronCall.execAll cfg root defaultAccount s calls) := by
  induction calls generalizing s with
  | nil => exact h
  | cons call rest ih =>
    apply ih fun c hc => hstep c (List.mem_cons_of_mem _ hc)
    exact committed_of_ends (P := fun t _ => I t) (hstep call List.mem_cons_self s h) (fun _ _ _ ht => ht) h

theorem execAll_registry (calls : List (NeuronCall A)) (h : Registry netuid s.neurons s.rest.1) :
    Registry netuid (NeuronCall.execAll cfg root defaultAccount s calls).neurons
      (NeuronCall.execAll cfg root defaultAccount s calls).rest.1 :=
  execAll_inv (I := fun t => Registry netuid t.neurons t.rest.1) calls (fun call _ _ => run_registry call) h
end Runs

/-- **The registry of a subnet that was empty stays in order**, and every registration that succeeds gives the hotkey a
    uid. At most one hotkey leaves for it, which is neither that of the subnet's owner nor an immune one. -/
theorem neuron_registry_in_order (cfg : Config A B X Q) (root : RootConfig Q) (defaultAccount : A)
    (s : State A B X (NeuronTable × Q)) (netuid : NetUid) (calls : List (NeuronCall A))
    (hempty : EmptySubnet netuid s.neurons s.rest.1) :
    let s' := NeuronCall.execAll cfg root defaultAccount s calls
    Registry netuid s'.neurons s'.rest.1 ∧ ∀ origin hotkey s'',
      doRegister cfg.withNeurons origin netuid hotkey s' = .ok () s'' → Registered s' s'' netuid hotkey := by
  intro s'
  have h : Registry netuid s'.neurons s'.rest.1 := execAll_registry calls hempty.registry
  refine ⟨h, fun origin hotkey s'' hok => ?_⟩
  exact (of_ends (doRegister_registered h) hok).2 rfl

namespace Sample

/-- Nobody is registered; two neurons at most, and each is immune for ten blocks. -/
def emptyTable : NeuronTable where
  active _ := []
  emission _ := []
  consensus _ := []
  dividends _ := []
  validatorTrust _ := []
  validatorPermit _ := []
  blockAtRegistration _ _ := 0
  immunityPeriod _ := 10
  minNonImmuneUids _ := 0
  minAllowedUids _ := 1
  maxAllowedUids _ := 2
  immuneOwnerUidsLimit _ := 1

/-- One registration in a block, which are not counted. -/
def rootConfig : RootConfig Unit where
  registrationsThisBlock _ := 0
  maxRegistrationsPerBlock _ := 1
  registrationsThisInterval _ := 0
  targetRegistrationsPerInterval _ := 1
  countRegistration q := q
  uids := uidsBelow 2

def emptySubnet : State Account (Account → Nat) Unit (NeuronTable × Unit) := { fresh with rest := (emptyTable, ()) }

theorem emptySubnet_empty : EmptySubnet 1 emptySubnet.neurons emptySubnet.rest.1 := by
  constructor <;> first | exact fun _ => rfl | rfl | decide

/-- Hotkeys 1 and 2 are registered, and 1 is swapped for 3. -/
def registrations : List (NeuronCall Account) :=
  [.doRegister (.signed 0) 1 1, .doRegister (.signed 0) 1 2, .doSwapHotkey (.signed 0) 1 3 (some 1) false]
end Sample
open Sample

/-- When hotkey 1 comes back, 2 leaves for it: 3 has the smaller uid, but the subnet's owner owns it. -/
theorem neuron_registry_in_order_replaced : let s := NeuronCall.execAll config rootConfig 0 emptySubnet registrations
    Registry 1 s.neurons s.rest.1 ∧ ∃ s'', doRegister config.withNeurons (.signed 0) 1 1 s = .ok () s'' ∧
      Registered s s'' 1 1 ∧ Evicted s.neurons s''.neurons 1 2 := by
  obtain ⟨hregistry, hregister⟩ := neuron_registry_in_order config rootConfig 0 emptySubnet 1 registrations
    emptySubnet_empty
  obtain ⟨_, hok⟩ := Mutation.ok_of_commits (x := doRegister config.withNeurons (.signed 0) 1 1)
    (s := NeuronCall.execAll config rootConfig 0 emptySubnet registrations) (by decide +kernel)
  exact ⟨hregistry, _, hok, hregister _ _ _ hok, by decide +kernel, by decide +kernel⟩
end Qubitum.Subtensor
