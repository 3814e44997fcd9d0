import Qubitum.Subtensor.KeySwap

/-!
# `Subtensor.SwapEffects` — what a key swap has written when it succeeds

Both swaps are read once, here: which guards a swap that succeeded has passed, and what it has left in the
owners, the stakes, the neurons and the root claims. Nothing after this module unfolds a swap.
-/

namespace Qubitum.Subtensor
open Outcome Mutation

variable {A B X R : Type} {cfg : Config A B X R}

/-! ## Payments -/

section Payments
variable {s : State A B X R} {coldkey : A}

theorem ensureSigned_eq_ok {origin : Origin A} : ensureSigned origin = .ok coldkey ↔ origin = .signed coldkey := by
  cases origin <;> simp [ensureSigned]

variable {amount : Nat}

theorem removeBalanceFromColdkeyAccount_ends : Returns (removeBalanceFromColdkeyAccount cfg coldkey amount) s
      (fun _ s' => s' = { s with ledger := s'.ledger }) := by
  unfold removeBalanceFromColdkeyAccount
  simp only [ends_ite, ends_pure, ends_bind, ends_get, ends_lift, ends_set, implies_true, and_true]

theorem killColdkeyAccount_ends : Returns (killColdkeyAccount cfg coldkey amount) s
      (fun _ s' => s' = { s with ledger := s'.ledger }) := by
  unfold killColdkeyAccount
  simp only [ends_ite, ends_pure, ends_bind, ends_get, ends_lift, ends_set, implies_true, and_true]

theorem paySwapCost_ends {swapCost : Nat} : Returns (paySwapCost cfg coldkey swapCost) s
      (fun _ s' => s' = { s with ledger := s'.ledger, totals := s'.totals }) := by
  unfold paySwapCost
  simp only [ends_bind, ends_get, ends_lift_ensure, ends_modify, implies_true, and_true]
  intro _
  refine removeBalanceFromColdkeyAccount_ends.weaken ?_
  intro amount t ht
  rw [ht]
  rfl
end Payments

variable [DecidableEq A]

/-! ## Hotkeys -/

section Hotkeys
variable {s s' : State A B X R} {oldHotkey newHotkey coldkey : A}
variable {keepStake : Bool} {origin : Origin A} {netuid : Option NetUid}

/-- The neurons after a swap on one subnet, -/
def Neurons.swapHotkey (n : Neurons A) (oldHotkey newHotkey : A) (netuid : NetUid) : Neurons A :=
  ((n.swapMembership oldHotkey newHotkey netuid).swapAutoStakeDestination oldHotkey newHotkey
    netuid).swapSubnetOwnerHotkey oldHotkey newHotkey netuid

/-- and on some, one after the other. -/
def Neurons.swapHotkeyOn (n : Neurons A) (oldHotkey newHotkey : A) (netuids : List NetUid) : Neurons A :=
  netuids.foldl (·.swapHotkey oldHotkey newHotkey ·) n

/-- What is true of the other storage stays true when a hotkey is swapped. -/
structure OtherStorage.SwapKeeps (o : OtherStorage A R) (I : R → Prop) : Prop where
  neuronData : ∀ {r a b netuid}, I r → I (o.moveNeuronData r a b netuid)
  parentChild : ∀ {r r' a b netuid}, o.parentChildSwapHotkey r a b netuid = .ok r' → I r → I r'
  pendingChild : ∀ {r a b netuid}, I r → I (o.movePendingChild r a b netuid)
  dividends : ∀ {r a b netuid}, I r → I (o.moveDividends r a b netuid)
  autoParentDelegation : ∀ {r a b}, I r → I (o.moveAutoParentDelegation r a b)

theorem performHotkeySwapOnOneSubnet_ends {netuid : NetUid} :
    Returns (performHotkeySwapOnOneSubnet cfg oldHotkey newHotkey netuid keepStake) s
      (fun _ s' => s'.ownership = s.ownership ∧ s'.pools = s.pools ∧
        s'.stakes = (if keepStake then s.stakes else s.stakes.swapHotkey oldHotkey newHotkey netuid) ∧
        s'.neurons = s.neurons.swapHotkey oldHotkey newHotkey netuid ∧
        ∀ I, cfg.other.SwapKeeps I → I s.rest → I s'.rest) := by
  unfold performHotkeySwapOnOneSubnet
  simp only [ends_bind, ends_modify, ends_get, ends_lift, ends_ite, implies_true, and_true]
  intro rest hrest
  have hkeeps : ∀ I, cfg.other.SwapKeeps I → I s.rest →
      I (cfg.other.movePendingChild rest oldHotkey newHotkey netuid) := by
    intro I hI h
    refine hI.pendingChild (hI.parentChild hrest ?_)
    split_ifs
    · exact hI.neuronData h
    · exact h
  refine ⟨fun hmoves => ⟨rfl, rfl, ?_, rfl, fun I hI h => ?_⟩, fun hstays => ⟨rfl, rfl, ?_, rfl, hkeeps⟩⟩
  · rw [if_neg (by simpa using hmoves)]
    rfl
  · unfold State.swapStake
    dsimp only
    split_ifs
    · exact hI.autoParentDelegation (hI.dividends (hkeeps I hI h))
    · exact hI.dividends (hkeeps I hI h)
  · rw [if_pos (by simpa using hstays)]

/-- The stake after the loop over the subnets. -/
def Stakes.swapHotkeyOn (st : Stakes A) (oldHotkey newHotkey : A) (netuids : List NetUid) : Stakes A :=
  netuids.foldl (·.swapHotkey oldHotkey newHotkey ·) st

/-- The stake after a hotkey swap. -/
def Stakes.hotkeySwapped (st : Stakes A) (oldHotkey newHotkey : A) (netuids : List NetUid) :
    Option NetUid → Bool → Stakes A
  | _, true           => st
  | some netuid, false => st.swapHotkey oldHotkey newHotkey netuid
  | none, false        =>
      (st.swapHotkeyOn oldHotkey newHotkey netuids).renameStakingHotkeys oldHotkey newHotkey
        (st.alphaIterSinglePrefix oldHotkey)

/-- The owners after a hotkey swap. -/
def Ownership.hotkeySwapped (o : Ownership A) (oldHotkey newHotkey coldkey : A) : Option NetUid → Ownership A
  | some _ => o.assign coldkey newHotkey
  | none   => o.swapHotkey oldHotkey newHotkey coldkey

theorem performHotkeySwapOnAllSubnets_ends :
    Returns (performHotkeySwapOnAllSubnets cfg oldHotkey newHotkey coldkey keepStake) s
      (fun _ s' => s'.ownership = s.ownership.swapHotkey oldHotkey newHotkey coldkey ∧ s'.pools = s.pools ∧
        s'.stakes = s.stakes.hotkeySwapped oldHotkey newHotkey s.pools.allSubnetNetuids none keepStake ∧
        s'.neurons = (s.neurons.swapHotkeyOn oldHotkey newHotkey s.pools.allSubnetNetuids).swapDelegate
          oldHotkey newHotkey ∧
        ∀ I, cfg.other.SwapKeeps I → I s.rest → I s'.rest) := by
  unfold performHotkeySwapOnAllSubnets
  simp only [ends_bind, ends_modify, ends_get]
  -- the stake still to be swapped on the remaining subnets gives the stake after all of them
  refine (ends_forM (E := fun _ _ => True) (I := fun rest t =>
    t.ownership = s.ownership.swapHotkey oldHotkey newHotkey coldkey ∧
    t.pools = s.pools ∧ (if keepStake then t.stakes else t.stakes.swapHotkeyOn oldHotkey newHotkey rest) =
      (if keepStake then s.stakes else s.stakes.swapHotkeyOn oldHotkey newHotkey s.pools.allSubnetNetuids) ∧
    t.neurons.swapHotkeyOn oldHotkey newHotkey rest =
      s.neurons.swapHotkeyOn oldHotkey newHotkey s.pools.allSubnetNetuids ∧
    ∀ I, cfg.other.SwapKeeps I → I s.rest → I t.rest)
    ?_ ⟨rfl, rfl, rfl, rfl, fun _ _ h => h⟩).weaken ?_
  · rintro netuid rest t ⟨hown, hpools, hstakes, hneurons, hrest⟩
    refine performHotkeySwapOnOneSubnet_ends.weaken ?_
    rintro _ t' ⟨hown', hpools', hstakes', hneurons', hrest'⟩
    refine ⟨hown'.trans hown, hpools'.trans hpools, ?_, by rw [hneurons']; exact hneurons,
      fun I hI h => hrest' I hI (hrest I hI h)⟩
    cases keepStake with
    | false => rw [hstakes']; exact hstakes
    | true => rw [hstakes']; exact hstakes
  · rintro _ t ⟨hown, hpools, hstakes, hneurons, hrest⟩
    refine ⟨hown, hpools, ?_, congrArg (·.swapDelegate oldHotkey newHotkey) hneurons, hrest⟩
    cases keepStake with
    | false =>
      have hstakes : t.stakes = s.stakes.swapHotkeyOn oldHotkey newHotkey s.pools.allSubnetNetuids := hstakes
      simp [Stakes.hotkeySwapped, hstakes]
    | true => exact hstakes

theorem not_member_of_specific {n : Neurons A} {netuid : NetUid}
    (h : n.isHotkeyRegisteredOnSpecificNetwork newHotkey netuid = false) :
    n.isMember newHotkey netuid = false := by
  unfold Neurons.isHotkeyRegisteredOnSpecificNetwork at h
  unfold Neurons.isMember
  rw [Option.isSome_eq_false_iff, Option.isNone_iff_eq_none] at h
  rw [h]
  rfl

theorem not_member_of_any {n : Neurons A} {netuid : NetUid} (h : n.isHotkeyRegisteredOnAnyNetwork newHotkey = false) :
    n.isMember newHotkey netuid = false := by
  unfold Neurons.isMember
  cases hlookup : n.isNetworkMember.lookup (newHotkey, netuid) with
  | none => rfl
  | some value =>
    have hmem : (⟨(newHotkey, netuid), value⟩ : Sigma fun _ : A × NetUid => Bool) ∈ n.isNetworkMember.entries :=
      AList.mem_lookup_iff.mp hlookup
    have hany := List.any_eq_false.mp h _ hmem
    simpa using hany

/-- The subnets of a swap. -/
def Pools.swapTargets (p : Pools) : Option NetUid → List NetUid
  | some netuid => [netuid]
  | none        => p.allSubnetNetuids

/-- What a hotkey swap by a coldkey found and what it wrote. -/
structure HotkeySwapped (s s' : State A B X R) (coldkey oldHotkey newHotkey : A) (netuid : Option NetUid)
    (keepStake : Bool) : Prop where
  owned : s.ownership.owner oldHotkey = some coldkey
  ne : oldHotkey ≠ newHotkey
  pools : s'.pools = s.pools
  ownership : s'.ownership = s.ownership.hotkeySwapped oldHotkey newHotkey coldkey netuid
  stakes : s'.stakes = s.stakes.hotkeySwapped oldHotkey newHotkey s.pools.allSubnetNetuids netuid keepStake
  free : ∀ m ∈ s.pools.swapTargets netuid, s.neurons.isMember newHotkey m = false
  neurons : s'.neurons =
    { s.neurons.swapHotkeyOn oldHotkey newHotkey (s.pools.swapTargets netuid) with delegates := s'.neurons.delegates }

theorem doSwapHotkey_ends : Returns (doSwapHotkey cfg origin oldHotkey newHotkey netuid keepStake) s
      (fun _ s' => ∃ coldkey, origin = .signed coldkey ∧
        HotkeySwapped s s' coldkey oldHotkey newHotkey netuid keepStake ∧
        ∀ I, cfg.other.SwapKeeps I → I s.rest → I s'.rest) := by
  unfold doSwapHotkey
  simp only [ends_bind, ends_get, ends_lift_ensure, ends_modify, implies_true, and_true]
  simp only [ends_lift, ensureSigned_eq_ok, implies_true, and_true]
  -- the remaining guards speak of rate limits and root
  intro coldkey horigin howned hne _ _ hregistered _ _
  have howned' : s.ownership.owner oldHotkey = some coldkey := by
    simpa [Ownership.coldkeyOwnsHotkey] using howned
  cases netuid with
  | some netuid =>
    unfold swapHotkeyOnSubnet
    simp only [ends_bind, ends_get, ends_lift_ensure, ends_modify, implies_true, and_true]
    intro _ hfree
    refine paySwapCost_ends.weaken ?_
    intro _ t ht
    rw [ht]
    refine performHotkeySwapOnOneSubnet_ends.weaken ?_
    rintro _ t' ⟨hown, hpools, hstakes, hneurons, hrest⟩
    refine ⟨coldkey, horigin, ⟨howned', hne, hpools, hown, hstakes.trans ?_, fun m hm => ?_, ?_⟩, hrest⟩
    · cases keepStake <;> rfl
    · rw [List.mem_singleton.mp hm]
      exact not_member_of_specific (by simpa using hfree)
    · show t'.neurons = _
      rw [hneurons]
      rfl
  | none =>
    simp only [ends_bind, ends_modify]
    refine paySwapCost_ends.weaken ?_
    intro _ t ht
    rw [ht]
    refine performHotkeySwapOnAllSubnets_ends.weaken ?_
    rintro _ t' ⟨hown, hpools, hstakes, hneurons, hrest⟩
    refine ⟨coldkey, horigin, ⟨howned', hne, hpools, hown, hstakes, fun m _ => ?_, ?_⟩, hrest⟩
    · exact not_member_of_any (by simpa using ensure_eq_ok.mp hregistered)
    · show t'.neurons = _
      rw [hneurons]
      unfold Neurons.swapDelegate
      split <;> rfl

/-- **A hotkey swap that succeeds** is one by the owner of the old hotkey. -/
theorem hotkeySwapped_of_ok {u : Unit} (h : doSwapHotkey cfg origin oldHotkey newHotkey netuid keepStake s = .ok u s') :
    ∃ coldkey, origin = .signed coldkey ∧ HotkeySwapped s s' coldkey oldHotkey newHotkey netuid keepStake := by
  obtain ⟨coldkey, horigin, hswapped, -⟩ := of_ends doSwapHotkey_ends h
  exact ⟨coldkey, horigin, hswapped⟩
end Hotkeys

/-! ## Coldkeys -/

section Coldkeys
variable {s s' : State A B X R} {oldColdkey newColdkey : A}

/-- The state after the loop over the subnets in `do_swap_coldkey`. -/
def State.coldkeyMoved (cfg : Config A B X R) (s : State A B X R) (oldColdkey newColdkey : A) : State A B X R :=
  s.pools.allSubnetNetuids.foldl (·.swapColdkeyOnSubnet oldColdkey newColdkey ·)
    { s with rest := cfg.other.moveIdentity s.rest oldColdkey newColdkey }

/-- What a coldkey swap found and what it wrote. -/
structure ColdkeySwapped (cfg : Config A B X R) (s s' : State A B X R) (oldColdkey newColdkey : A) : Prop where
  noStakingHotkeys : s.stakes.stakingHotkeys newColdkey = []
  notHotkey : s.ownership.owner newColdkey = none
  pools : s'.pools = s.pools
  ownership : s'.ownership = s.ownership.transferHotkeysOwnership oldColdkey newColdkey
  stakes : s'.stakes = (s.coldkeyMoved cfg oldColdkey newColdkey).stakes.transferStakingHotkeys oldColdkey newColdkey
  rootClaims : s'.rootClaims = (s.coldkeyMoved cfg oldColdkey newColdkey).rootClaims

theorem swapColdkeyOnSubnet_frame {netuid : NetUid} :
    (s.swapColdkeyOnSubnet oldColdkey newColdkey netuid).ownership = s.ownership ∧
      (s.swapColdkeyOnSubnet oldColdkey newColdkey netuid).pools = s.pools := by
  refine List.foldlRecOn (motive := fun t : State A B X R => t.ownership = s.ownership ∧ t.pools = s.pools)
    _ _ ⟨rfl, rfl⟩ ?_
  intro t ht hotkey _
  exact ht

theorem coldkeyMoved_frame (cfg : Config A B X R) (s : State A B X R) (oldColdkey newColdkey : A) :
    (s.coldkeyMoved cfg oldColdkey newColdkey).ownership = s.ownership ∧
      (s.coldkeyMoved cfg oldColdkey newColdkey).pools = s.pools := by
  refine List.foldlRecOn (motive := fun t : State A B X R => t.ownership = s.ownership ∧ t.pools = s.pools)
    _ _ ⟨rfl, rfl⟩ ?_
  intro t ht netuid _
  exact ⟨swapColdkeyOnSubnet_frame.1.trans ht.1, swapColdkeyOnSubnet_frame.2.trans ht.2⟩

theorem doSwapColdkey_ends : Returns (doSwapColdkey cfg oldColdkey newColdkey) s
      (fun _ s' => ColdkeySwapped cfg s s' oldColdkey newColdkey) := by
  unfold doSwapColdkey
  simp only [ends_bind, ends_get, ends_lift_ensure, ends_modify, ends_ite, implies_true, and_true]
  intro hnone hnot
  have hnot' : s.ownership.owner newColdkey = none := by
    simpa [Ownership.hotkeyAccountExists] using hnot
  have hframe := coldkeyMoved_frame cfg s oldColdkey newColdkey
  have hown : (s.coldkeyMoved cfg oldColdkey newColdkey).ownership.transferHotkeysOwnership oldColdkey newColdkey =
      s.ownership.transferHotkeysOwnership oldColdkey newColdkey := by rw [hframe.1]
  -- whether there is a balance to hand over does not matter to the owners and the stakes
  constructor
  · intro _
    refine killColdkeyAccount_ends.weaken ?_
    intro _ t ht
    rw [ht]
    exact ⟨hnone, hnot', hframe.2, hown, rfl, rfl⟩
  · intro _
    exact ⟨hnone, hnot', hframe.2, hown, rfl, rfl⟩

/-- **A coldkey swap that succeeds.** -/
theorem coldkeySwapped_of_ok {u : Unit} (h : doSwapColdkey cfg oldColdkey newColdkey s = .ok u s') :
    ColdkeySwapped cfg s s' oldColdkey newColdkey :=
  of_ends (Q := fun _ t => ColdkeySwapped cfg s t oldColdkey newColdkey) doSwapColdkey_ends h
end Coldkeys
end Qubitum.Subtensor
