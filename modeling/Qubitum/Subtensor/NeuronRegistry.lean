import Qubitum.Subtensor.KeySwap
import Qubitum.Subtensor.NeuronTable
import Qubitum.Subtensor.StakingEffects

/-!
# `Subtensor.NeuronRegistry` — the uids of a subnet and its hotkeys

`Keys` and `Uids` are the two maps of a table with slots (`Lib.Slots`): the slots `0` to `SubnetworkN` are filled, the
hotkeys in them are the members of the subnet, and the vectors have an entry for each slot. Registrations, trimming and
hotkey swaps keep it so. A registration can silently do nothing, when the neuron that is to be replaced is the one of
the subnet's owner; but that one is never chosen.
-/

namespace Qubitum.Subtensor
open Outcome Mutation Slots Function

variable {A : Type} [DecidableEq A] {uid : UInt16} {block : Nat}

/-- The registry of a subnet is in order. -/
structure Registry (netuid : NetUid) (n : Neurons A) (t : NeuronTable) : Prop where
  mirrored : Mirrored (n.keys netuid) (n.uids netuid)
  filled : ∀ uid, (n.keys netuid uid).isSome ↔ uid < n.subnetworkN netuid
  member : ∀ hotkey, n.isMember hotkey netuid ↔ (n.uids netuid hotkey).isSome
  active : (t.active netuid).length = (n.subnetworkN netuid).toNat
  emission : (t.emission netuid).length = (n.subnetworkN netuid).toNat
  consensus : (t.consensus netuid).length = (n.subnetworkN netuid).toNat
  dividends : (t.dividends netuid).length = (n.subnetworkN netuid).toNat
  validatorTrust : (t.validatorTrust netuid).length = (n.subnetworkN netuid).toNat
  validatorPermit : (t.validatorPermit netuid).length = (n.subnetworkN netuid).toNat
  limit : 0 < (t.immuneOwnerUidsLimit netuid).toNat

section Steps
variable {n n' : Neurons A} {t t' : NeuronTable} {netuid netuid' : NetUid} {hotkey oldHotkey newHotkey : A}

/-- The vectors of two tables have the same lengths for a subnet. -/
structure SameLengths (netuid : NetUid) (t t' : NeuronTable) : Prop where
  active : (t'.active netuid).length = (t.active netuid).length
  emission : (t'.emission netuid).length = (t.emission netuid).length
  consensus : (t'.consensus netuid).length = (t.consensus netuid).length
  dividends : (t'.dividends netuid).length = (t.dividends netuid).length
  validatorTrust : (t'.validatorTrust netuid).length = (t.validatorTrust netuid).length
  validatorPermit : (t'.validatorPermit netuid).length = (t.validatorPermit netuid).length
  limit : t'.immuneOwnerUidsLimit netuid = t.immuneOwnerUidsLimit netuid

theorem SameLengths.rfl : SameLengths netuid t t := by
  constructor <;> exact Eq.refl _

section
variable (h : Registry netuid n t) (hlengths : SameLengths netuid t t')
  (hcount : n'.subnetworkN netuid = n.subnetworkN netuid)
include h hlengths hcount

/-- The lengths are those of as many neurons. -/
theorem Registry.of_lengths (hmirrored : Mirrored (n'.keys netuid) (n'.uids netuid))
    (hfilled : ∀ uid, (n'.keys netuid uid).isSome ↔ (n.keys netuid uid).isSome)
    (hmember : ∀ hotkey, n'.isMember hotkey netuid ↔ (n'.uids netuid hotkey).isSome) : Registry netuid n' t' where
  mirrored := hmirrored
  filled uid := by rw [hfilled, hcount]; exact h.filled uid
  member := hmember
  active := by rw [hlengths.active, hcount]; exact h.active
  emission := by rw [hlengths.emission, hcount]; exact h.emission
  consensus := by rw [hlengths.consensus, hcount]; exact h.consensus
  dividends := by rw [hlengths.dividends, hcount]; exact h.dividends
  validatorTrust := by rw [hlengths.validatorTrust, hcount]; exact h.validatorTrust
  validatorPermit := by rw [hlengths.validatorPermit, hcount]; exact h.validatorPermit
  limit := by rw [hlengths.limit]; exact h.limit

/-- Nothing that the registry is about has changed. -/
theorem Registry.frame (hkeys : n'.keys netuid = n.keys netuid)
    (huids : n'.uids netuid = n.uids netuid)
    (hmember : ∀ hotkey, n'.isMember hotkey netuid = n.isMember hotkey netuid) : Registry netuid n' t' := by
  refine h.of_lengths hlengths hcount ?_ (fun uid => by rw [hkeys]) fun hotkey => ?_
  · rw [hkeys, huids]
    exact h.mirrored
  · rw [hmember, huids]
    exact h.member hotkey
end

/-! ### Membership -/

theorem isMember_insert {value : Bool} :
    Neurons.isMember { n with isNetworkMember := n.isNetworkMember.insert (newHotkey, netuid') value } hotkey netuid =
      if hotkey = newHotkey ∧ netuid = netuid' then value else n.isMember hotkey netuid := by
  unfold Neurons.isMember
  by_cases hkey : (hotkey, netuid) = (newHotkey, netuid')
  · obtain ⟨rfl, rfl⟩ := by simpa using hkey
    simp
  · have hne : ¬(hotkey = newHotkey ∧ netuid = netuid') := by simpa using hkey
    rw [if_neg hne]
    simp only [AList.lookup_insert_ne hkey]

theorem isMember_erase (n : Neurons A) (oldHotkey : A) (netuid' : NetUid) (hotkey : A) (netuid : NetUid) :
    Neurons.isMember { n with isNetworkMember := n.isNetworkMember.erase (oldHotkey, netuid') } hotkey netuid =
      if hotkey = oldHotkey ∧ netuid = netuid' then false else n.isMember hotkey netuid := by
  unfold Neurons.isMember
  by_cases hkey : (hotkey, netuid) = (oldHotkey, netuid')
  · obtain ⟨rfl, rfl⟩ := by simpa using hkey
    simp
  · have hne : ¬(hotkey = oldHotkey ∧ netuid = netuid') := by simpa using hkey
    rw [if_neg hne]
    simp only [AList.lookup_erase_ne hkey]

/-! ### Appending and replacing -/

theorem append_count (hotkey : A) (hroom : (n.subnetworkN netuid).toNat + 1 < 2 ^ 16) :
    ((n.append netuid hotkey).subnetworkN netuid).toNat = (n.subnetworkN netuid).toNat + 1 := by
  unfold Neurons.append
  simp only [update_self, if_pos hroom]
  rw [UInt16.toNat_add]
  exact Nat.mod_eq_of_lt hroom

section
variable (h : Registry netuid n t)
include h

theorem Registry.append (hnew : n.uids netuid hotkey = none)
    (hroom : (n.subnetworkN netuid).toNat + 1 < 2 ^ 16) :
    Registry netuid (n.append netuid hotkey) (t.append netuid (n.subnetworkN netuid) block) := by
  have hcount := append_count hotkey hroom
  -- the next slot is free
  have hfree : n.keys netuid (n.subnetworkN netuid) = none := by
    rw [← Option.not_isSome_iff_eq_none, h.filled]
    exact UInt16.lt_irrefl _
  have hkeys : (n.append netuid hotkey).keys netuid =
      update (n.keys netuid) (n.subnetworkN netuid) (some hotkey) := update_self ..
  have huids : (n.append netuid hotkey).uids netuid =
      update (n.uids netuid) hotkey (some (n.subnetworkN netuid)) := update_self ..
  have hmember : ∀ h', (n.append netuid hotkey).isMember h' netuid =
      if h' = hotkey ∧ netuid = netuid then true else n.isMember h' netuid := fun _ => isMember_insert
  have hlength : ∀ {V : Type} (f : NetUid → List V) (v : V), (f netuid).length = (n.subnetworkN netuid).toNat →
      (mutate f netuid (· ++ [v]) netuid).length = ((n.append netuid hotkey).subnetworkN netuid).toNat := by
    intro V f v hf
    unfold mutate
    rw [update_self, List.length_append, hf, hcount]
    rfl
  refine ⟨?_, fun uid => ?_, fun h' => ?_, hlength _ _ h.active, hlength _ _ h.emission, hlength _ _ h.consensus,
    hlength _ _ h.dividends, hlength _ _ h.validatorTrust, hlength _ _ h.validatorPermit, h.limit⟩
  · rw [hkeys, huids]
    exact h.mirrored.assign hfree hnew
  · rw [hkeys, UInt16.lt_iff_toNat_lt, hcount]
    by_cases huid : uid = n.subnetworkN netuid
    · simp [huid]
    · have hne : uid.toNat ≠ (n.subnetworkN netuid).toNat := fun heq => huid (UInt16.toNat_inj.mp heq)
      rw [update_of_ne huid, h.filled, UInt16.lt_iff_toNat_lt]
      omega
  · rw [hmember, huids]
    by_cases hself : h' = hotkey
    · simp [hself]
    · simp [hself, h.member]

theorem Registry.replace (hold : n.keys netuid uid = some oldHotkey) (hnew : n.uids netuid newHotkey = none) :
    Registry netuid (n.replace netuid uid oldHotkey newHotkey) (t.replace netuid uid block) := by
  have hkeys : (n.replace netuid uid oldHotkey newHotkey).keys netuid =
      update (n.keys netuid) uid (some newHotkey) := update_self ..
  have huids : (n.replace netuid uid oldHotkey newHotkey).uids netuid =
      update (update (n.uids netuid) oldHotkey none) newHotkey (some uid) := update_self ..
  have hmember : ∀ h', (n.replace netuid uid oldHotkey newHotkey).isMember h' netuid =
      if h' = newHotkey ∧ netuid = netuid then true
      else if h' = oldHotkey ∧ netuid = netuid then false else n.isMember h' netuid := by
    intro h'
    rw [← isMember_erase, ← isMember_insert]
    rfl
  have hlength : ∀ {V : Type} (f : NetUid → List V) (v : V),
      (mutate f netuid (·.set uid.toNat v) netuid).length = (f netuid).length := by
    intro V f v
    unfold mutate
    rw [update_self, List.length_set]
  refine h.of_lengths ⟨hlength _ _, hlength _ _, hlength _ _, hlength _ _, rfl, rfl, rfl⟩ rfl ?_ (fun uid' => ?_)
    fun h' => ?_
  · rw [hkeys, huids]
    exact h.mirrored.reassign hold hnew
  · rw [hkeys]
    by_cases huid : uid' = uid
    · simp [huid, hold]
    · rw [update_of_ne huid]
  · rw [hmember, huids]
    by_cases hself : h' = newHotkey
    · simp [hself]
    · by_cases hother : h' = oldHotkey
      · subst hother
        simp [hself]
      · simp [hself, hother, h.member]

/-- Other subnets are left as they are. -/
theorem Registry.append_other (hother : netuid ≠ netuid') :
    Registry netuid (n.append netuid' hotkey) (t.append netuid' uid block) := by
  have hupdate : ∀ {V : Type} (f : NetUid → V) (v : V), update f netuid' v netuid = f netuid :=
    fun f v => update_of_ne hother v f
  have hlength : ∀ {V : Type} (f : NetUid → List V) (v : V),
      (mutate f netuid' (· ++ [v]) netuid).length = (f netuid).length :=
    fun f v => congrArg List.length (hupdate f _)
  refine h.frame ⟨hlength _ _, hlength _ _, hlength _ _, hlength _ _, hlength _ _, hlength _ _, rfl⟩ (hupdate _ _)
    (hupdate _ _) (hupdate _ _) fun k => ?_
  exact isMember_insert.trans (if_neg fun hall => hother hall.2)

theorem Registry.replace_other (hother : netuid ≠ netuid') :
    Registry netuid (n.replace netuid' uid oldHotkey newHotkey) (t.replace netuid' uid block) := by
  have hupdate : ∀ {V : Type} (f : NetUid → V) (v : V), update f netuid' v netuid = f netuid :=
    fun f v => update_of_ne hother v f
  have hlength : ∀ {V : Type} (f : NetUid → List V) (v : V),
      (mutate f netuid' (·.set uid.toNat v) netuid).length = (f netuid).length :=
    fun f v => congrArg List.length (hupdate f _)
  refine h.frame ⟨hlength _ _, hlength _ _, hlength _ _, hlength _ _, rfl, rfl, rfl⟩ rfl (hupdate _ _) (hupdate _ _)
    fun k => ?_
  refine (isMember_insert (n := { n with isNetworkMember := n.isNetworkMember.erase (oldHotkey, netuid') })).trans ?_
  rw [if_neg fun hall => hother hall.2]
  exact (isMember_erase ..).trans (if_neg fun hall => hother hall.2)
end

/-! ### Swapping a hotkey -/

/-- The membership is moved, and nothing happens to other subnets or to the number of neurons. -/
theorem swapMembership_frame (n : Neurons A) (oldHotkey newHotkey : A) (netuid' netuid : NetUid) :
    (n.swapMembership oldHotkey newHotkey netuid').isNetworkMember =
        (n.isNetworkMember.erase (oldHotkey, netuid')).insert (newHotkey, netuid') (n.isMember oldHotkey netuid') ∧
      (n.swapMembership oldHotkey newHotkey netuid').subnetworkN = n.subnetworkN ∧
      (netuid ≠ netuid' → (n.swapMembership oldHotkey newHotkey netuid').keys netuid = n.keys netuid ∧
        (n.swapMembership oldHotkey newHotkey netuid').uids netuid = n.uids netuid) := by
  cases hmember : n.isMember oldHotkey netuid' with
  | false => simp [Neurons.swapMembership, hmember]
  | true =>
    cases huid : n.uids netuid' oldHotkey with
    | none => simp [Neurons.swapMembership, hmember, huid]
    | some uid =>
      simp only [Neurons.swapMembership, hmember, huid, true_and]
      exact fun hne => ⟨update_of_ne hne .., update_of_ne hne ..⟩

theorem isMember_swapMembership :
    (n.swapMembership oldHotkey newHotkey netuid').isMember hotkey netuid =
      if hotkey = newHotkey ∧ netuid = netuid' then n.isMember oldHotkey netuid'
      else if hotkey = oldHotkey ∧ netuid = netuid' then false else n.isMember hotkey netuid := by
  rw [← isMember_erase, ← isMember_insert]
  unfold Neurons.isMember
  rw [(swapMembership_frame n oldHotkey newHotkey netuid' netuid).1]
  rfl

theorem Registry.swapMembership (h : Registry netuid n t) (hne : oldHotkey ≠ newHotkey)
    (hnew : n.uids netuid newHotkey = none) : Registry netuid (n.swapMembership oldHotkey newHotkey netuid) t := by
  have hcount := (swapMembership_frame n oldHotkey newHotkey netuid netuid).2.1
  cases huid : n.uids netuid oldHotkey with
  | none =>
    have hnot : n.isMember oldHotkey netuid = false := by
      rw [← Bool.not_eq_true, h.member, huid]
      simp
    have heq : n.swapMembership oldHotkey newHotkey netuid =
        { n with isNetworkMember := (n.isNetworkMember.erase (oldHotkey, netuid)).insert (newHotkey, netuid) false } := by
      unfold Neurons.swapMembership
      rw [hnot]
    refine h.of_lengths .rfl (by rw [hcount]) (by rw [heq]; exact h.mirrored) (fun uid => by rw [heq]) fun h' => ?_
    have huids : (n.swapMembership oldHotkey newHotkey netuid).uids = n.uids := by rw [heq]
    rw [isMember_swapMembership, huids, hnot]
    by_cases hself : h' = newHotkey
    · simp [hself, hnew]
    · by_cases hother : h' = oldHotkey
      · subst hother
        simp [hself, huid]
      · simp [hself, hother, h.member]
  | some uid =>
    have hmember : n.isMember oldHotkey netuid = true := by
      rw [h.member, huid]
      rfl
    have hkey : n.keys netuid uid = some oldHotkey := (h.mirrored uid oldHotkey).mpr huid
    have hkeys : (n.swapMembership oldHotkey newHotkey netuid).keys netuid =
        update (n.keys netuid) uid (some newHotkey) := by
      unfold Neurons.swapMembership
      simp only [hmember, huid, update_self]
    have huids : (n.swapMembership oldHotkey newHotkey netuid).uids netuid =
        update (update (n.uids netuid) oldHotkey none) newHotkey (some uid) := by
      unfold Neurons.swapMembership
      simp only [hmember, huid, update_self]
    refine h.of_lengths .rfl (by rw [hcount]) ?_ (fun uid' => ?_) fun h' => ?_
    · rw [hkeys, huids]
      exact h.mirrored.reassign hkey hnew
    · rw [hkeys]
      by_cases hsame : uid' = uid
      · simp [hsame, hkey]
      · rw [update_of_ne hsame]
    · rw [isMember_swapMembership, huids, hmember]
      by_cases hself : h' = newHotkey
      · simp [hself]
      · by_cases hother : h' = oldHotkey
        · subst hother
          simp [hself]
        · simp [hself, hother, h.member]

/-- The rest of a swap on one subnet is not about the registry. -/
theorem Registry.swapOthers (h : Registry netuid n t) (oldHotkey newHotkey : A) (netuid' : NetUid) :
    Registry netuid ((n.swapAutoStakeDestination oldHotkey newHotkey netuid').swapSubnetOwnerHotkey oldHotkey newHotkey
      netuid') t := by
  refine h.frame .rfl ?_ ?_ ?_ fun hotkey => ?_
  all_goals
    unfold Neurons.swapSubnetOwnerHotkey Neurons.swapAutoStakeDestination
    split <;> split_ifs <;> rfl
end Steps

/-! ## Who is pruned -/

section Pruning
variable {n : Neurons A} {t : NeuronTable} {o o' : Ownership A} {netuid : NetUid} {hotkey coldkey : A}

/-- There is a place for the owner's hotkey among the immune ones, whoever else is. -/
theorem subnetOwnerHotkey_immune (hlimit : 0 < (t.immuneOwnerUidsLimit netuid).toNat)
    (howner : n.subnetOwnerHotkey netuid = some hotkey) (huid : n.uids netuid hotkey = some uid) :
    hotkey ∈ t.immuneOwnerHotkeys o n netuid coldkey := by
  refine List.mem_map.mpr ⟨(uid, hotkey), ?_, rfl⟩
  unfold NeuronTable.immuneOwnerTuples
  simp only [howner, huid]
  split_ifs with hmem
  · exact hmem
  · obtain ⟨k, hk⟩ := Nat.exists_eq_succ_of_ne_zero (Nat.pos_iff_ne_zero.mp hlimit)
    rw [hk, List.take_succ_cons]
    exact List.mem_cons_self ..

/-- A hotkey without a uid is not looked at. -/
theorem immuneOwnerHotkeys_append (hotkeys : List A) (hnew : n.uids netuid hotkey = none)
    (howned : o'.ownedHotkeys coldkey = o.ownedHotkeys coldkey ++ hotkeys) (hall : ∀ h ∈ hotkeys, h = hotkey) :
    t.immuneOwnerHotkeys o' n netuid coldkey = t.immuneOwnerHotkeys o n netuid coldkey := by
  have hnone : hotkeys.filterMap (fun hotkey =>
      (n.uids netuid hotkey).map fun uid => (t.blockAtRegistration netuid uid, uid, hotkey)) = [] := by
    refine List.filterMap_eq_nil_iff.mpr fun h hh => ?_
    rw [hall h hh, hnew]
    rfl
  unfold NeuronTable.immuneOwnerHotkeys NeuronTable.immuneOwnerTuples
  rw [howned, List.filterMap_append, hnone, List.append_nil]

/-- A uid with a hotkey that is not immune. -/
def Prunable (n : Neurons A) (netuid : NetUid) (immortalHotkeys : List A) (uid : UInt16) : Prop :=
  ∃ hk, n.keys netuid uid = some hk ∧ hk ∉ immortalHotkeys

theorem Candidate.consider_eq {c c' : Candidate} {best : Option Candidate} (h : c.consider best = some c') :
    c' = c ∨ best = some c' := by
  cases best with
  | none => exact .inl (Option.some.inj h).symm
  | some b =>
    unfold Candidate.consider at h
    by_cases hbetter : c.better b
    · simp only [hbetter, if_true] at h
      exact .inl (Option.some.inj h).symm
    · simp only [hbetter, Bool.false_eq_true, if_false] at h
      exact .inr h

/-- What the loop keeps can be pruned. -/
theorem scan_prunable {immortalHotkeys : List A} {acc : PruneScan}
    (hacc : ∀ c, acc.bestNonImmune = some c ∨ acc.bestImmune = some c → Prunable n netuid immortalHotkeys c.uid) :
    ∀ c, (t.scan n netuid immortalHotkeys block acc uid).bestNonImmune = some c ∨
      (t.scan n netuid immortalHotkeys block acc uid).bestImmune = some c → Prunable n netuid immortalHotkeys c.uid := by
  intro c hc
  unfold NeuronTable.scan at hc
  cases hkey : n.keys netuid uid with
  | none =>
    simp only [hkey] at hc
    exact hacc c hc
  | some hk =>
    simp only [hkey] at hc
    by_cases himmortal : hk ∈ immortalHotkeys
    · simp only [himmortal, if_true] at hc
      exact hacc c hc
    · have hself : Prunable n netuid immortalHotkeys uid := ⟨hk, hkey, himmortal⟩
      simp only [himmortal, if_false] at hc
      by_cases himmune : t.isImmune netuid uid block
      · simp only [himmune, if_true] at hc
        rcases hc with hc | hc
        · exact hacc c (.inl hc)
        · rcases Candidate.consider_eq hc with rfl | hc
          · exact hself
          · exact hacc c (.inr hc)
      · simp only [himmune, Bool.false_eq_true, if_false] at hc
        rcases hc with hc | hc
        · rcases Candidate.consider_eq hc with rfl | hc
          · exact hself
          · exact hacc c (.inl hc)
        · exact hacc c (.inr hc)

/-- **The neuron to prune** has a hotkey, and not an immune one. -/
theorem neuronToPrune_prunable (hprune : t.neuronToPrune o n netuid block = some uid) :
    Prunable n netuid (t.immuneOwnerHotkeys o n netuid (n.subnetOwner netuid)) uid := by
  have hfound := List.foldlRecOn
    (motive := fun acc : PruneScan => ∀ c, acc.bestNonImmune = some c ∨ acc.bestImmune = some c →
      Prunable n netuid (t.immuneOwnerHotkeys o n netuid (n.subnetOwner netuid)) c.uid)
    (uidsBelow (n.subnetworkN netuid).toNat)
    (t.scan n netuid (t.immuneOwnerHotkeys o n netuid (n.subnetOwner netuid)) block)
    (b := ⟨0, none, none⟩) (fun c hc => by rcases hc with hc | hc <;> cases hc)
    (fun acc hacc uid _ => scan_prunable hacc)
  unfold NeuronTable.neuronToPrune at hprune
  simp only at hprune
  split_ifs at hprune
  · obtain ⟨c, hc, rfl⟩ := Option.map_eq_some_iff.mp hprune
    exact hfound c (.inl hc)
  · obtain ⟨c, hc, rfl⟩ := Option.map_eq_some_iff.mp hprune
    exact hfound c (.inr hc)
end Pruning
end Qubitum.Subtensor
