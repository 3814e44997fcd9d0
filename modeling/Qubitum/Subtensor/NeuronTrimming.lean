import Qubitum.Subtensor.NeuronRegistry

/-!
# `Subtensor.NeuronTrimming` — trimming keeps the registry in order

The loop goes through the neurons from the smallest emission on and removes those that are not immune, until there are
few enough. There always are enough of them, since the immune ones are fewer than what may stay. What stays is then
moved to the front (`Slots.compact`), and `Uids` is made again (`Slots.rebuild`).
-/

namespace Qubitum.Subtensor
open Outcome Mutation Slots Function

variable {A B X Q : Type} [DecidableEq A] {n : Neurons A} {t : NeuronTable} {netuid netuid' : NetUid}
  {ownerUids : List UInt16} {defaultAccount : A}

theorem toNat_uid {u : Nat} (hu : u < 2 ^ 16) : (UInt16.ofNat u).toNat = u := by
  rw [UInt16.toNat_ofNat']
  exact Nat.mod_eq_of_lt hu

theorem uid_inj {u v : Nat} (hu : u < 2 ^ 16) (hv : v < 2 ^ 16) (h : UInt16.ofNat u = UInt16.ofNat v) : u = v := by
  have htoNat := congrArg UInt16.toNat h
  rwa [toNat_uid hu, toNat_uid hv] at htoNat

theorem mem_uidsBelow {count : Nat} (hcount : count ≤ 2 ^ 16) {uid : UInt16} :
    uid ∈ uidsBelow count ↔ uid.toNat < count := by
  constructor
  · intro hmem
    obtain ⟨u, hu, rfl⟩ := List.mem_map.mp hmem
    rw [toNat_uid (Nat.lt_of_lt_of_le (List.mem_range.mp hu) hcount)]
    exact List.mem_range.mp hu
  · intro hlt
    exact List.mem_map.mpr ⟨uid.toNat, List.mem_range.mpr hlt, UInt16.ofNat_toNat⟩

section Loop
variable {maxN block count : Nat} {uid : UInt16} {hotkey : A}

/-! ### Removing one neuron -/

theorem keys_removeUid : (n.removeUid netuid uid).keys netuid = update (n.keys netuid) uid none := by
  unfold Neurons.removeUid mutate
  split <;> exact update_self ..

theorem uids_removeUid_some (hkey : n.keys netuid uid = some hotkey) :
    (n.removeUid netuid uid).uids netuid = update (n.uids netuid) hotkey none := by
  unfold Neurons.removeUid mutate
  simp only [hkey, update_self]

theorem isMember_removeUid_some {h' : A} (hkey : n.keys netuid uid = some hotkey) :
    (n.removeUid netuid uid).isMember h' netuid = if h' = hotkey then false else n.isMember h' netuid := by
  have heq : (n.removeUid netuid uid).isNetworkMember = n.isNetworkMember.erase (hotkey, netuid) := by
    unfold Neurons.removeUid
    simp only [hkey]
  have herase := isMember_erase n hotkey netuid h' netuid
  unfold Neurons.isMember at herase ⊢
  rw [heq]
  simpa using herase

/-- Nothing happens on other subnets. -/
theorem removeUid_other (n : Neurons A) (uid : UInt16) (hother : netuid' ≠ netuid) :
    (n.removeUid netuid uid).keys netuid' = n.keys netuid' ∧ (n.removeUid netuid uid).uids netuid' = n.uids netuid' ∧
      (n.removeUid netuid uid).subnetworkN = n.subnetworkN ∧
      ∀ h', (n.removeUid netuid uid).isMember h' netuid' = n.isMember h' netuid' := by
  cases hkey : n.keys netuid uid with
  | none =>
    unfold Neurons.removeUid mutate
    simp only [hkey, true_and]
    exact ⟨update_of_ne hother .., fun _ => rfl⟩
  | some hotkey =>
    have heq : (n.removeUid netuid uid).isNetworkMember = n.isNetworkMember.erase (hotkey, netuid) := by
      unfold Neurons.removeUid
      simp only [hkey]
    have hframe : (n.removeUid netuid uid).keys netuid' = n.keys netuid' ∧
        (n.removeUid netuid uid).uids netuid' = n.uids netuid' ∧
        (n.removeUid netuid uid).subnetworkN = n.subnetworkN := by
      unfold Neurons.removeUid mutate
      simp only [hkey, and_true]
      exact ⟨update_of_ne hother .., update_of_ne hother ..⟩
    refine ⟨hframe.1, hframe.2.1, hframe.2.2, fun h' => ?_⟩
    have herase := isMember_erase n hotkey netuid h' netuid'
    unfold Neurons.isMember at herase ⊢
    rw [heq]
    exact herase.trans (if_neg fun hall => hother hall.2)

/-- Both maps lose the neuron, and the membership goes with it. -/
theorem removeUid_mirrored (uid : UInt16) (hmirrored : Mirrored (n.keys netuid) (n.uids netuid))
    (hmember : ∀ h', n.isMember h' netuid ↔ (n.uids netuid h').isSome) :
    Mirrored ((n.removeUid netuid uid).keys netuid) ((n.removeUid netuid uid).uids netuid) ∧
      ∀ h', (n.removeUid netuid uid).isMember h' netuid ↔ ((n.removeUid netuid uid).uids netuid h').isSome := by
  rw [keys_removeUid]
  cases hkey : n.keys netuid uid with
  | none =>
    rw [← hkey, update_eq_self]
    unfold Neurons.removeUid
    simp only [hkey]
    exact ⟨hmirrored, hmember⟩
  | some hotkey =>
    rw [uids_removeUid_some hkey]
    refine ⟨hmirrored.free hkey, fun h' => ?_⟩
    rw [isMember_removeUid_some hkey]
    by_cases hself : h' = hotkey
    · simp [hself]
    · simp [hself, hmember]

/-! ### The loop -/

/-- What the loop has done with the emissions that it has gone through. -/
structure Trimmed (netuid : NetUid) (n : Neurons A) (t : NeuronTable) (ownerUids : List UInt16)
    (maxN block count : Nat) (es : List (Nat × Nat)) (acc : Trim A) : Prop where
  kept : acc.kept.Sublist es
  left : acc.uidsLeftToProcess + es.length = count + acc.kept.length
  enough : maxN ≤ acc.uidsLeftToProcess
  immune : acc.uidsLeftToProcess = maxN ∨
    ∀ e ∈ acc.kept, (UInt16.ofNat e.2 ∈ ownerUids || t.isImmune netuid (UInt16.ofNat e.2) block) = true
  mirrored : Mirrored (acc.neurons.keys netuid) (acc.neurons.uids netuid)
  member : ∀ h', acc.neurons.isMember h' netuid ↔ (acc.neurons.uids netuid h').isSome
  filled : ∀ u < 2 ^ 16, (acc.neurons.keys netuid (UInt16.ofNat u)).isSome ↔
    (n.keys netuid (UInt16.ofNat u)).isSome ∧ (u ∈ es.map (·.2) → u ∈ acc.kept.map (·.2))
  table : acc.table = { t with blockAtRegistration := acc.table.blockAtRegistration }
  blocks : ∀ u < 2 ^ 16, u ∉ es.map (·.2) →
    acc.table.blockAtRegistration netuid (UInt16.ofNat u) = t.blockAtRegistration netuid (UInt16.ofNat u)

theorem Trimmed.visit {es : List (Nat × Nat)} {acc : Trim A} {e : Nat × Nat}
    (h : Trimmed netuid n t ownerUids maxN block count es acc) (he : e.2 < 2 ^ 16) (hnew : e.2 ∉ es.map (·.2)) :
    Trimmed netuid n t ownerUids maxN block count (e :: es) (acc.visit netuid ownerUids maxN block e) := by
  have hleft := h.left
  have henough := h.enough
  have hblock := h.blocks e.2 he hnew
  -- the neuron itself has not been removed, so its immunity is still the same
  have himmune : acc.table.isImmune netuid (UInt16.ofNat e.2) block = t.isImmune netuid (UInt16.ofNat e.2) block := by
    unfold NeuronTable.isImmune
    rw [hblock, h.table]
  have hkeptnew : e.2 ∉ acc.kept.map (·.2) := fun hmem => hnew ((h.kept.map _).subset hmem)
  unfold Trim.visit
  by_cases hkeep : acc.uidsLeftToProcess = maxN ∨ UInt16.ofNat e.2 ∈ ownerUids ∨
      acc.table.isImmune netuid (UInt16.ofNat e.2) block = true
  · rw [if_pos hkeep]
    refine ⟨h.kept.cons_cons e, ?_, henough, ?_, h.mirrored, h.member, fun u hu => ?_, h.table, fun u hu hout => ?_⟩
    · simp only [List.length_cons]
      omega
    · rcases hkeep with hdone | hself
      · exact .inl hdone
      · refine h.immune.imp_right fun hall e' he' => ?_
        rcases List.mem_cons.mp he' with rfl | he'
        · rw [himmune] at hself
          simpa using hself
        · exact hall e' he'
    · rw [h.filled u hu]
      by_cases heq : u = e.2
      · subst heq
        simp [hnew]
      · simp [heq]
    · exact h.blocks u hu fun hmem => hout (List.mem_cons_of_mem _ hmem)
  · rw [if_neg hkeep]
    rw [not_or, not_or] at hkeep
    obtain ⟨hmirrored, hmember⟩ := removeUid_mirrored (UInt16.ofNat e.2) h.mirrored h.member
    refine ⟨h.kept.cons e, ?_, ?_, ?_, hmirrored, hmember, fun u hu => ?_, ?_, fun u hu hout => ?_⟩
    · simp only [List.length_cons]
      omega
    · show maxN ≤ acc.uidsLeftToProcess - 1
      omega
    · exact .inr (h.immune.resolve_left hkeep.1)
    · rw [keys_removeUid]
      by_cases heq : u = e.2
      · subst heq
        simp only [update_self, Option.isSome_none, Bool.false_eq_true, false_iff, not_and, List.map_cons,
          List.mem_cons, true_or, forall_const]
        exact fun _ => hkeptnew
      · rw [update_of_ne fun hsame => heq (uid_inj hu he hsame), h.filled u hu]
        simp [heq]
    · rw [h.table]
    · have hne : UInt16.ofNat u ≠ UInt16.ofNat e.2 := fun hsame => hout (by
        rw [uid_inj hu he hsame]
        exact List.mem_cons_self ..)
      show mutate acc.table.blockAtRegistration netuid (update · (UInt16.ofNat e.2) 0) netuid (UInt16.ofNat u) = _
      unfold mutate
      rw [update_self]
      refine (update_of_ne hne ..).trans ?_
      exact h.blocks u hu fun hmem => hout (List.mem_cons_of_mem _ hmem)

theorem trimmed_foldr (h : Registry netuid n t) (es : List (Nat × Nat)) (hnodup : (es.map (·.2)).Nodup)
    (hrange : ∀ e ∈ es, e.2 < 2 ^ 16) (hmax : maxN ≤ count) : Trimmed netuid n t ownerUids maxN block count es
      (es.foldr (fun e acc => acc.visit netuid ownerUids maxN block e) ⟨n, t, count, []⟩) := by
  induction es with
  | nil =>
    exact ⟨List.Sublist.refl _, rfl, hmax, .inr (fun e he => absurd he List.not_mem_nil), h.mirrored, h.member,
      fun u _ => by simp, rfl, fun u _ _ => rfl⟩
  | cons e rest ih =>
    rw [List.map_cons, List.nodup_cons] at hnodup
    rw [List.foldr_cons]
    exact (ih hnodup.2 fun e' he' => hrange e' (List.mem_cons_of_mem _ he')).visit
      (hrange e (List.mem_cons_self ..)) hnodup.1

/-! ### Other subnets -/

/-- What the loop leaves as it is. -/
structure SameElsewhere (netuid' : NetUid) (acc acc' : Trim A) : Prop where
  keys : acc'.neurons.keys netuid' = acc.neurons.keys netuid'
  uids : acc'.neurons.uids netuid' = acc.neurons.uids netuid'
  member : ∀ h', acc'.neurons.isMember h' netuid' = acc.neurons.isMember h' netuid'
  count : acc'.neurons.subnetworkN = acc.neurons.subnetworkN
  table : acc'.table = { acc.table with blockAtRegistration := acc'.table.blockAtRegistration }

theorem foldr_visit_elsewhere (acc : Trim A) (es : List (Nat × Nat)) (hother : netuid' ≠ netuid) :
    SameElsewhere netuid' acc (es.foldr (Trim.visit netuid ownerUids maxN block) acc) := by
  induction es with
  | nil => exact ⟨rfl, rfl, fun _ => rfl, rfl, rfl⟩
  | cons e rest ih =>
    rw [List.foldr_cons]
    generalize rest.foldr _ acc = acc' at ih ⊢
    unfold Trim.visit
    simp only
    split_ifs
    · exact ⟨ih.keys, ih.uids, ih.member, ih.count, ih.table⟩
    · obtain ⟨hkeys, huids, hcount, hmember⟩ := removeUid_other acc'.neurons (UInt16.ofNat e.2) hother
      exact ⟨hkeys.trans ih.keys, huids.trans ih.uids, fun h' => (hmember h').trans (ih.member h'),
        hcount.trans ih.count, by rw [ih.table]⟩
end Loop

/-! ## Compressing the uids -/

section Compress
variable {keys : UInt16 → Option A} {uids : A → Option UInt16} {used : List Nat}

/-- **The compressed maps** are inverse to each other, fill the first slots, and have the same hotkeys as before. -/
theorem compress_mirrored (defaultAccount : A) (hmirrored : Mirrored keys uids) (hsorted : used.Pairwise (· < ·))
    (hused : ∀ u < 2 ^ 16, (keys (UInt16.ofNat u)).isSome ↔ u ∈ used) (hrange : ∀ u ∈ used, u < 2 ^ 16) :
    let keys' := compact UInt16.ofNat keys used 0
    let uids' := rebuild (fun uid => (keys' uid).getD defaultAccount) (uidsBelow used.length)
    Mirrored keys' uids' ∧ (∀ uid, (keys' uid).isSome ↔ uid.toNat < used.length) ∧
      ∀ h', (uids' h').isSome ↔ (uids h').isSome := by
  intro keys' uids'
  obtain ⟨-, hmoved, hafter⟩ := compact_spec UInt16.ofNat keys
    (fun a (ha : a < 2 ^ 16) b hb heq => uid_inj ha hb heq) used 0 hsorted (fun u hu => ⟨Nat.zero_le u, hrange u hu⟩)
    (fun j _ hj hout => by rwa [← Option.not_isSome_iff_eq_none, hused j hj])
  have hnodup : used.Nodup := hsorted.imp fun hlt => Nat.ne_of_lt hlt
  have hcount : used.length ≤ 2 ^ 16 := by
    have hle := (hnodup.subperm fun u hu => List.mem_range.mpr (hrange u hu) : used.Subperm (List.range _)).length_le
    rwa [List.length_range] at hle
  have hnew : ∀ uid : UInt16, ∀ hi : uid.toNat < used.length,
      keys' uid = keys (UInt16.ofNat (used.get ⟨uid.toNat, hi⟩)) := by
    intro uid hi
    have hslot := hmoved uid.toNat hi
    rwa [Nat.zero_add, UInt16.ofNat_toNat] at hslot
  have hsome : ∀ uid, (keys' uid).isSome ↔ uid.toNat < used.length := by
    intro uid
    constructor
    · intro hkey
      by_contra hge
      have hnone : keys' (UInt16.ofNat uid.toNat) = none := hafter uid.toNat (by omega) uid.toNat_lt
      rw [UInt16.ofNat_toNat] at hnone
      rw [hnone] at hkey
      cases hkey
    · intro hlt
      have hmem : used.get ⟨uid.toNat, hlt⟩ ∈ used := List.get_mem used ⟨uid.toNat, hlt⟩
      rw [hnew uid hlt, hused _ (hrange _ hmem)]
      exact hmem
  have hlt : ∀ {uid k}, keys' uid = some k → uid.toNat < used.length := fun hkey =>
    (hsome _).mp (Option.isSome_iff_exists.mpr ⟨_, hkey⟩)
  -- different slots had different hotkeys before they were moved
  have hinj : ∀ a b k, keys' a = some k → keys' b = some k → a = b := by
    intro a b k ha hb
    have hslots : UInt16.ofNat (used.get ⟨a.toNat, hlt ha⟩) = UInt16.ofNat (used.get ⟨b.toNat, hlt hb⟩) := by
      have hka := (hmirrored _ k).mp ((hnew a (hlt ha)).symm.trans ha)
      have hkb := (hmirrored _ k).mp ((hnew b (hlt hb)).symm.trans hb)
      exact Option.some.inj (hka.symm.trans hkb)
    have hsame := hnodup.get_inj_iff.mp
      (uid_inj (hrange _ (List.get_mem used ⟨a.toNat, hlt ha⟩)) (hrange _ (List.get_mem used ⟨b.toNat, hlt hb⟩)) hslots)
    exact UInt16.toNat_inj.mp (Fin.mk.inj_iff.mp hsame)
  have hkey : ∀ uid ∈ uidsBelow used.length, keys' uid = some ((keys' uid).getD defaultAccount) := by
    intro uid huid
    obtain ⟨k, hk⟩ := Option.isSome_iff_exists.mp ((hsome uid).mpr ((mem_uidsBelow hcount).mp huid))
    rw [hk]
    rfl
  have hmirrored' : Mirrored keys' uids' := by
    refine mirrored_rebuild hkey (fun uid huid => ?_) fun a ha b hb heq => ?_
    · rw [← Option.not_isSome_iff_eq_none, hsome, ← mem_uidsBelow hcount]
      exact huid
    · exact hinj a b _ (hkey a ha) (heq ▸ hkey b hb)
  refine ⟨hmirrored', hsome, fun h' => ⟨fun huid => ?_, fun huid => ?_⟩⟩
  · obtain ⟨uid, huid⟩ := Option.isSome_iff_exists.mp huid
    have hk := (hmirrored' uid h').mpr huid
    rw [(hmirrored _ h').mp ((hnew uid (hlt hk)).symm.trans hk)]
    rfl
  · obtain ⟨uid, huid⟩ := Option.isSome_iff_exists.mp huid
    have hk : keys uid = some h' := (hmirrored uid h').mpr huid
    have hmem : uid.toNat ∈ used := by
      rw [← hused uid.toNat uid.toNat_lt, UInt16.ofNat_toNat, hk]
      rfl
    obtain ⟨i, hi⟩ := List.get_of_mem hmem
    have hk' : keys' (UInt16.ofNat i) = some h' := by
      have hslot := hmoved i i.isLt
      rw [Nat.zero_add] at hslot
      refine hslot.trans ?_
      rw [show used.get ⟨i, i.isLt⟩ = uid.toNat from hi, UInt16.ofNat_toNat]
      exact hk
    rw [(hmirrored' _ h').mp hk']
    rfl
end Compress

/-! ## The whole of it -/

section Trimming
variable {maxN : UInt16} {block : Nat} {es : List (Nat × Nat)} {acc : Trim A}

/-- Each uid has one emission. -/
theorem emissionsByUid_perm (t : NeuronTable) (netuid : NetUid) :
    ((t.emissionsByUid netuid).map (·.2)).Perm (List.range (t.emission netuid).length) := by
  have hperm := (List.perm_insertionSort (fun a b : Nat × Nat => b.1 ≤ a.1) (t.emission netuid).zipIdx).map (·.2)
  rwa [List.zipIdx_map_snd, ← List.range_eq_range'] at hperm

/-- The check of the percentage is one of the number, too. -/
theorem le_of_percentOf_lt {p q : Nat} (h : percentOf p q < maxImmuneUidsPercentage) : p ≤ q := by
  unfold percentOf maxImmuneUidsPercentage at h
  by_contra hlt
  rw [if_pos (.inr (Nat.lt_of_not_le hlt))] at h
  omega

/-- **As many are kept as may stay**: if more were, all of them would be immune, and there are not so many. -/
theorem Trimmed.kept_length {count maxN : Nat} (h : Trimmed netuid n t ownerUids maxN block count es acc)
    (hes : (es.map (·.2)).Perm (List.range count))
    (himmune : (uidsBelow count).countP (fun uid => uid ∈ ownerUids || t.isImmune netuid uid block) ≤ maxN) :
    acc.kept.length = maxN := by
  have hleft := h.left
  have henough := h.enough
  have hlength : es.length = count := by simpa using hes.length_eq
  rcases h.immune with hdone | hall
  · omega
  · have hcount : acc.kept.length ≤ (uidsBelow count).countP fun uid =>
        uid ∈ ownerUids || t.isImmune netuid uid block := by
      rw [uidsBelow, List.countP_map, ← hes.countP_eq, List.countP_map, ← List.countP_eq_length.mpr hall]
      exact h.kept.countP_le
    omega

/-- The uids that are kept, in order. -/
theorem sorted_kept {kept : List (Nat × Nat)} (hnodup : (kept.map (·.2)).Nodup) :
    ((kept.insertionSort fun a b => a.2 ≤ b.2).map (·.2)).Pairwise (· < ·) := by
  have : Std.Total fun a b : Nat × Nat => a.2 ≤ b.2 := ⟨fun a b => Nat.le_total a.2 b.2⟩
  have : IsTrans (Nat × Nat) fun a b => a.2 ≤ b.2 := ⟨fun _ _ _ hab hbc => Nat.le_trans hab hbc⟩
  have hsorted := List.pairwise_insertionSort (fun a b : Nat × Nat => a.2 ≤ b.2) kept
  have hperm := (List.perm_insertionSort (fun a b : Nat × Nat => a.2 ≤ b.2) kept).map (·.2)
  have hne : ((kept.insertionSort fun a b => a.2 ≤ b.2).map (·.2)).Pairwise (· ≠ ·) := hperm.nodup_iff.mpr hnodup
  have hle : ((kept.insertionSort fun a b => a.2 ≤ b.2).map (·.2)).Pairwise (· ≤ ·) := List.pairwise_map.mpr hsorted
  exact hle.imp₂ (fun _ _ hab hne => Nat.lt_of_le_of_ne hab hne) hne

theorem Trimmed.compress {count : Nat} (h : Registry netuid n t)
    (htrim : Trimmed netuid n t ownerUids maxN.toNat block count es acc) (hcount : count = (n.subnetworkN netuid).toNat)
    (hes : (es.map (·.2)).Perm (List.range count)) (hkept : acc.kept.length = maxN.toNat) :
    Registry netuid (acc.compress defaultAccount netuid maxN).1 (acc.compress defaultAccount netuid maxN).2 := by
  have hperm := (List.perm_insertionSort (fun a b : Nat × Nat => a.2 ≤ b.2) acc.kept).map (·.2)
  have hsub : ∀ u ∈ acc.kept.map (·.2), u < count := fun u hu =>
    List.mem_range.mp (hes.mem_iff.mp ((htrim.kept.map _).subset hu))
  have hnodup : (acc.kept.map (·.2)).Nodup := (hes.nodup_iff.mpr List.nodup_range).sublist (htrim.kept.map _)
  have hsmall : count < 2 ^ 16 := hcount ▸ (n.subnetworkN netuid).toNat_lt
  have hlength : ((acc.kept.insertionSort fun a b => a.2 ≤ b.2).map (·.2)).length = maxN.toNat := by
    rw [hperm.length_eq, List.length_map, hkept]
  obtain ⟨hmirrored, hfilled, hsame⟩ := compress_mirrored defaultAccount htrim.mirrored
    (sorted_kept hnodup)
    (fun u hu => by
      rw [htrim.filled u hu, h.filled, UInt16.lt_iff_toNat_lt, toNat_uid hu, ← hcount, hperm.mem_iff, hes.mem_iff,
        List.mem_range]
      exact ⟨fun hall => hall.2 hall.1, fun hmem => ⟨hsub u hmem, fun _ => hmem⟩⟩)
    (fun u hu => Nat.lt_trans (hsub u (hperm.mem_iff.mp hu)) hsmall)
  have hcount' : (acc.compress defaultAccount netuid maxN).1.subnetworkN netuid = maxN := update_self ..
  have hvector : ∀ {V : Type} [Inhabited V] (f : NetUid → List V), (mutate f netuid
      (trimmed · ((acc.kept.insertionSort fun a b => a.2 ≤ b.2).map (·.2))) netuid).length =
        ((acc.compress defaultAccount netuid maxN).1.subnetworkN netuid).toNat := by
    intro V _ f
    unfold mutate trimmed
    rw [hcount', update_self, List.length_map, hlength]
  refine ⟨?_, fun uid => ?_, fun h' => ?_, hvector _, ?_, hvector _, hvector _, hvector _, hvector _, ?_⟩
  · simp only [Trim.compress, update_self]
    exact hmirrored
  · rw [hcount', UInt16.lt_iff_toNat_lt, ← hlength, ← hfilled uid]
    simp only [Trim.compress, update_self]
  · simp only [Trim.compress, update_self]
    rw [hsame h', ← htrim.member h']
    rfl
  · rw [hcount', ← hlength]
    simp only [Trim.compress, update_self, List.length_map]
  · have hlimit : (acc.compress defaultAccount netuid maxN).2.immuneOwnerUidsLimit = t.immuneOwnerUidsLimit := by
      show acc.table.immuneOwnerUidsLimit = _
      rw [htrim.table]
    rw [hlimit]
    exact h.limit

/-- Other subnets are left as they are. -/
theorem SameElsewhere.compress {acc' : Trim A} (h : Registry netuid' acc.neurons acc.table)
    (hsame : SameElsewhere netuid' acc acc') (hother : netuid' ≠ netuid) :
    Registry netuid' (acc'.compress defaultAccount netuid maxN).1 (acc'.compress defaultAccount netuid maxN).2 := by
  have hvector : ∀ {V : Type} (f : NetUid → V) (v : V), update f netuid v netuid' = f netuid' :=
    fun f v => update_of_ne hother v f
  refine h.frame ⟨?_, ?_, ?_, ?_, ?_, ?_, ?_⟩ ?_ ?_ ?_ ?_
  all_goals simp only [Trim.compress, mutate, hvector]
  · rw [hsame.table]
  · rw [hsame.table]
  · rw [hsame.table]
  · rw [hsame.table]
  · rw [hsame.table]
  · rw [hsame.table]
  · rw [hsame.table]
  · rw [hsame.count]
  · exact hsame.keys
  · exact hsame.uids
  · exact hsame.member

/-- The loop has as many emissions before it as there are neurons. -/
theorem trimmed_of_registry (ownerUids : List UInt16) (block : Nat) (h : Registry netuid n t)
    (hmax : maxN < n.subnetworkN netuid) :
    Trimmed netuid n t ownerUids maxN.toNat block (n.subnetworkN netuid).toNat (t.emissionsByUid netuid)
      (((t.emissionsByUid netuid).take (n.subnetworkN netuid).toNat).foldr (Trim.visit netuid ownerUids maxN.toNat block)
        ⟨n, t, (n.subnetworkN netuid).toNat, (t.emissionsByUid netuid).drop (n.subnetworkN netuid).toNat⟩) := by
  have hperm : ((t.emissionsByUid netuid).map (·.2)).Perm (List.range (n.subnetworkN netuid).toNat) :=
    h.emission ▸ emissionsByUid_perm t netuid
  have hlength : (t.emissionsByUid netuid).length = (n.subnetworkN netuid).toNat := by simpa using hperm.length_eq
  rw [← hlength, List.take_length, List.drop_length]
  refine trimmed_foldr h _ (hperm.nodup_iff.mpr List.nodup_range) (fun e he => ?_) ?_
  · have hmem := List.mem_range.mp (hperm.mem_iff.mp (List.mem_map_of_mem he))
    exact Nat.lt_trans hmem (n.subnetworkN netuid).toNat_lt
  · rw [hlength]
    exact Nat.le_of_lt (UInt16.lt_iff_toNat_lt.mp hmax)

/-- **Trimming keeps a registry in order**, whichever subnet is trimmed. -/
theorem trimToMaxAllowedUids_registry {s : State A B X (NeuronTable × Q)} (h : Registry netuid' s.neurons s.rest.1) :
    Returns (trimToMaxAllowedUids defaultAccount netuid maxN) s
      (fun _ s' => Registry netuid' s'.neurons s'.rest.1) := by
  unfold trimToMaxAllowedUids
  simp only [ends_bind, ends_get, ends_lift_ensure, ends_set]
  simp only [implies_true, and_true]
  intro _ _ _
  -- the new limit is none of the registry's business
  have ht : Registry netuid' s.neurons
      { s.rest.1 with maxAllowedUids := update s.rest.1.maxAllowedUids netuid maxN } :=
    h.frame ⟨rfl, rfl, rfl, rfl, rfl, rfl, rfl⟩ rfl rfl rfl fun _ => rfl
  generalize ({ s.rest.1 with maxAllowedUids := update s.rest.1.maxAllowedUids netuid maxN } : NeuronTable) = t at ht ⊢
  rw [ends_ite]
  refine ⟨fun hlt => ?_, fun _ => ht⟩
  simp only [ends_bind, ends_lift_ensure, ends_set]
  refine ⟨fun hpercent => ?_, fun _ => trivial⟩
  by_cases hsame : netuid' = netuid
  · subst hsame
    have htrim := trimmed_of_registry
      (t.immuneOwnerUids s.ownership s.neurons netuid' (s.neurons.subnetOwner netuid')) s.block ht hlt
    have hperm := ht.emission ▸ emissionsByUid_perm t netuid'
    exact htrim.compress ht rfl hperm (htrim.kept_length hperm (le_of_percentOf_lt hpercent))
  · exact (foldr_visit_elsewhere ⟨s.neurons, t, _, _⟩ _ hsame).compress ht hsame
end Trimming
end Qubitum.Subtensor
