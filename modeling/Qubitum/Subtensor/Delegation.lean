import Qubitum.Subtensor.ChildKeys

/-!
# `Subtensor.Delegation` — child keys and parent keys are one graph

`ChildKeys` and `ParentKeys` of a subnet have the edges out of and into each hotkey of one graph, in which no two
hotkeys are each other's child and no hotkey passes on more than all of its stake. Writing back the relations
around a pivot replaces the edges at the pivot (`Adjacency.rewire`), whatever they were before. So pending
children may be applied to another graph than the one they were checked against: what matters is checked again
when the relations are loaded.
-/

namespace Qubitum.Subtensor
open Outcome Mutation Adjacency Function ChildLinks

variable {A : Type} [DecidableEq A] {l l' : ChildLinks A} {netuid : NetUid} {kin : Kin} {pivot : A}
  {newMap : StorageMap A UInt64} {edge : A → A → Option UInt64}

/-! ## Maps and vectors -/

theorem lists_vecOf (m : StorageMap A UInt64) : Lists (vecOf m) m.lookup where
  nodup := by
    have hkeys : (vecOf m).map Prod.snd = m.keys := by
      unfold vecOf AList.keys List.keys
      rw [List.map_map]
      rfl
    rw [hkeys]
    exact m.keys_nodup
  mem_iff w k := by
    rw [← Option.mem_def, AList.mem_lookup_iff]
    unfold vecOf
    simp only [List.mem_map, Prod.mk.injEq]
    constructor
    · rintro ⟨e, hmem, rfl, rfl⟩
      exact hmem
    · intro hmem
      exact ⟨⟨k, w⟩, hmem, rfl, rfl⟩

variable {k hotkey : A} {vec : KeyVec A} {m : StorageMap A UInt64} {f : A → Option UInt64} {ks : List A}
  {r : PCRelations A}

theorem mem_mapKeys : k ∈ newMap.keys ↔ newMap.lookup k ≠ none := by
  rw [← AList.mem_keys, ← AList.lookup_isSome, Option.isSome_iff_ne_none]

theorem lookup_foldl_insert_of_notMem (hk : k ∉ vec.map Prod.snd) :
    (vec.foldl (fun m e => m.insert e.2 e.1) m).lookup k = m.lookup k := by
  induction vec generalizing m with
  | nil => rfl
  | cons e rest ih =>
    rw [List.map_cons, List.mem_cons, not_or] at hk
    rw [List.foldl_cons, ih hk.2, AList.lookup_insert_ne hk.1]

/-- A vector without duplicates is the map that is made of it. -/
theorem lookup_mapOf (h : Lists vec f) (k : A) : (mapOf vec).lookup k = f k := by
  have hmem : ∀ (vec : KeyVec A) (m : StorageMap A UInt64) (w : UInt64), (vec.map Prod.snd).Nodup →
      (w, k) ∈ vec → (vec.foldl (fun m e => m.insert e.2 e.1) m).lookup k = some w := by
    intro vec
    induction vec with
    | nil =>
      intro _ _ _ hin
      cases hin
    | cons e rest ih =>
      intro m w hnodup hin
      rw [List.map_cons, List.nodup_cons] at hnodup
      rw [List.foldl_cons]
      rcases List.mem_cons.mp hin with rfl | hrest
      · rw [lookup_foldl_insert_of_notMem hnodup.1, AList.lookup_insert]
      · exact ih _ w hnodup.2 hrest
  unfold mapOf
  cases hk : f k with
  | some w => exact hmem vec ∅ w h.nodup ((h.mem_iff w k).mpr hk)
  | none =>
    have hnot : k ∉ vec.map Prod.snd := fun hin => (h.mem_keys k).mp hin hk
    rw [lookup_foldl_insert_of_notMem hnot, AList.lookup_empty]

/-- The hotkey itself is left out, which makes no difference if it is not there. -/
theorem lookup_others (h : Lists vec f) (hself : f hotkey = none) (k : A) : (others vec hotkey).lookup k = f k := by
  have hrest : Lists (vec.filter fun e => e.2 ≠ hotkey) (update f hotkey none) := h.remove hotkey
  rw [update_eq_self_iff.mpr hself.symm] at hrest
  exact lookup_mapOf hrest k

omit [DecidableEq A] in
/-- A sum that fits into `u64` has not been cut off at the end of `u128`. -/
theorem totalProportions_le (h : PCRelations.totalProportions m ≤ 2 ^ 64 - 1) :
    total UInt64.toNat (vecOf m) ≤ 2 ^ 64 - 1 := by
  have hfold : ∀ (es : List (Sigma fun _ : A => UInt64)) (acc : Nat),
      es.foldl (fun acc e => min (acc + e.2.toNat) (2 ^ 128 - 1)) acc ≤ 2 ^ 64 - 1 →
      acc + (es.map fun e => e.2.toNat).sum ≤ 2 ^ 64 - 1 := by
    intro es
    induction es with
    | nil =>
      intro acc hle
      simpa using hle
    | cons e rest ih =>
      intro acc hle
      have hrest := ih (min (acc + e.2.toNat) (2 ^ 128 - 1)) hle
      rw [List.map_cons, List.sum_cons]
      omega
  have hsum := hfold m.entries 0 h
  rw [Nat.zero_add] at hsum
  unfold total vecOf
  rw [List.map_map]
  exact hsum

/-! ## Loops over relatives -/

variable {g : A → KeyVec A → KeyVec A}

/-- A loop that writes one list for each of different keys. -/
theorem keys_foldl {write : ChildLinks A → A → ChildLinks A}
    (hwrite : ∀ t k kin' k' n', (write t k).keys kin' k' n' =
      if kin' = kin ∧ k' = k ∧ n' = netuid then g k (t.keys kin k netuid) else t.keys kin' k' n')
    (hnodup : ks.Nodup) (kin' : Kin) (k' : A) (n' : NetUid) :
    (ks.foldl write l).keys kin' k' n' =
      if kin' = kin ∧ k' ∈ ks ∧ n' = netuid then g k' (l.keys kin k' netuid) else l.keys kin' k' n' := by
  induction ks generalizing l with
  | nil => simp
  | cons k rest ih =>
    rw [List.nodup_cons] at hnodup
    rw [List.foldl_cons, ih hnodup.2]
    by_cases hk : k' = k
    · subst hk
      simp [hnodup.1, hwrite]
    · simp [hk, hwrite]

/-- The body of such a loop: one list is changed by `g`. -/
def ChildLinks.edit (kin : Kin) (netuid : NetUid) (g : A → KeyVec A → KeyVec A) (t : ChildLinks A) (k : A) :
    ChildLinks A := t.setKeys kin k netuid (g k (t.keys kin k netuid))

theorem keys_edits (hnodup : ks.Nodup) (kin' : Kin) (k' : A) (n' : NetUid) :
    (ks.foldl (edit kin netuid g) l).keys kin' k' n' =
      if kin' = kin ∧ k' ∈ ks ∧ n' = netuid then g k' (l.keys kin k' netuid) else l.keys kin' k' n' :=
  keys_foldl (fun t k _ _ _ => t.keys_setKeys kin _ k _ netuid _ _) hnodup kin' k' n'

/-- The pivot is entered with its new proportion. -/
def linkTo (pivot : A) (newMap : StorageMap A UInt64) (k : A) (vec : KeyVec A) : KeyVec A :=
  upsert vec ((newMap.lookup k).getD 0) pivot

theorem linkRelatives_ends (hks : ∀ k ∈ ks, k ∈ newMap.keys) (t : ChildLinks A) :
    Ends (ks.forM (linkRelative kin pivot newMap netuid)) t
      (fun _ t' => t' = ks.foldl (edit kin.flip netuid (linkTo pivot newMap)) t) (fun _ _ => False) := by
  refine ends_forM_foldl fun k hk t => ?_
  obtain ⟨w, hw⟩ := Option.ne_none_iff_exists'.mp (mem_mapKeys.mp (hks k hk))
  simp [linkRelative, hw, PCRelations.upsertEdge, edit, linkTo]

/-- What one half of `persist_child_parent_relations` writes. -/
structure Synced (kin : Kin) (pivot : A) (newMap : StorageMap A UInt64) (netuid : NetUid) (l l' : ChildLinks A) :
    Prop where
  own : ∀ k, l'.keys kin k netuid = if k = pivot then vecOf newMap else l.keys kin k netuid
  linked : ∀ k w, newMap.lookup k = some w → l'.keys kin.flip k netuid = upsert (l.keys kin.flip k netuid) w pivot
  unlinked : ∀ k, newMap.lookup k = none → k ∈ (l.keys kin pivot netuid).map Prod.snd →
    l'.keys kin.flip k netuid = remove (l.keys kin.flip k netuid) pivot
  unrelated : ∀ k, newMap.lookup k = none → k ∉ (l.keys kin pivot netuid).map Prod.snd →
    l'.keys kin.flip k netuid = l.keys kin.flip k netuid
  elsewhere : ∀ kin' k n, n ≠ netuid → l'.keys kin' k n = l.keys kin' k n

@[simp] theorem Kin.flip_ne (kin : Kin) : kin.flip ≠ kin := by
  cases kin <;> decide

theorem persistSide_ends (kin : Kin) (pivot : A) (newMap : StorageMap A UInt64) (netuid : NetUid) (l : ChildLinks A) :
    Ends (persistSide kin pivot newMap netuid) l (fun _ l' => Synced kin pivot newMap netuid l l')
      (fun _ _ => False) := by
  unfold persistSide
  simp only [ends_bind, ends_get, ends_modify]
  set prev := ((l.keys kin pivot netuid).map Prod.snd).dedup with hprev
  refine (linkRelatives_ends (fun k hk => List.mem_of_mem_filter hk) _).mono (fun _ t1 ht1 => ?_) fun _ _ he => he
  refine (linkRelatives_ends (fun k hk => List.mem_of_mem_filter hk) t1).mono (fun _ t2 ht2 => ?_) fun _ _ he => he
  have hunlink : ∀ ks : List A, Ends (ks.forM fun key => modify fun l : ChildLinks A =>
      l.setKeys kin.flip key netuid (PCRelations.removeEdge (l.keys kin.flip key netuid) pivot)) t2
      (fun _ t' => t' = ks.foldl (edit kin.flip netuid fun _ vec => remove vec pivot) t2)
      (fun (_ : DispatchError) _ => False) := by
    intro ks
    exact ends_forM_foldl fun k _ t => rfl
  refine (hunlink _).mono (fun _ t3 ht3 => ?_) fun _ _ he => he
  -- the three loops write to different lists
  have hkeys1 := fun kin' k n => congrArg (fun t : ChildLinks A => t.keys kin' k n) ht1
  have hkeys2 := fun kin' k n => congrArg (fun t : ChildLinks A => t.keys kin' k n) ht2
  have hkeys3 := fun kin' k n => congrArg (fun t : ChildLinks A => t.keys kin' k n) ht3
  have hdistinct := newMap.keys_nodup
  have hprevious : prev.Nodup := List.nodup_dedup _
  simp only [keys_edits (hdistinct.filter _), keys_setKeys] at hkeys1 hkeys2
  simp only [keys_edits (hprevious.filter _)] at hkeys3
  have hmem : ∀ k, k ∈ prev ↔ k ∈ (l.keys kin pivot netuid).map Prod.snd := fun k => List.mem_dedup
  refine ⟨fun k => ?_, fun k w hw => ?_, fun k hnone hk => ?_, fun k hnone hk => ?_, fun kin' k n hn => ?_⟩
  · simp [hkeys3, hkeys2, hkeys1, (Kin.flip_ne kin).symm]
  · have hk : k ∈ newMap.keys := mem_mapKeys.mpr (by simp [hw])
    by_cases hold : k ∈ prev <;> simp [hkeys3, hkeys2, hkeys1, hk, hold, linkTo, hw]
  · have hnot : k ∉ newMap.keys := fun hin => mem_mapKeys.mp hin hnone
    simp [hkeys3, hkeys2, hkeys1, hnot, (hmem k).mpr hk]
  · have hnot : k ∉ newMap.keys := fun hin => mem_mapKeys.mp hin hnone
    have hold : k ∉ prev := fun hin => hk ((hmem k).mp hin)
    simp [hkeys3, hkeys2, hkeys1, hnot, hold]
  · simp [hkeys3, hkeys2, hkeys1, hn]

/-! ## The graph of a subnet -/

section
variable (h : Synced kin pivot newMap netuid l l')
  (hgraph : Mirrored (l.keys kin · netuid) (l.keys kin.flip · netuid) edge)
include h hgraph

/-- One side is written: the edges from the pivot are those of the map. -/
theorem Synced.mirrored :
    Mirrored (l'.keys kin · netuid) (l'.keys kin.flip · netuid)
      fun p c => if p = pivot then newMap.lookup c else edge p c where
  out p := by
    rw [h.own]
    by_cases hp : p = pivot
    · simp only [hp, if_true]
      exact lists_vecOf newMap
    · simp only [hp, if_false]
      exact hgraph.out p
  into c := by
    have hinto := hgraph.into c
    cases hw : newMap.lookup c with
    | some w =>
      rw [h.linked c w hw]
      refine (hinto.upsert w pivot).congr fun p => ?_
      by_cases hp : p = pivot <;> simp [hp]
    | none =>
      by_cases hold : c ∈ (l.keys kin pivot netuid).map Prod.snd
      · rw [h.unlinked c hw hold]
        refine (hinto.remove pivot).congr fun p => ?_
        by_cases hp : p = pivot <;> simp [hp]
      · rw [h.unrelated c hw hold]
        refine hinto.congr fun p => ?_
        by_cases hp : p = pivot
        · have hnone : edge pivot c = none := by
            by_contra hedge
            exact hold (((hgraph.out pivot).mem_keys c).mpr hedge)
          simp [hp, hnone]
        · simp [hp]

/-- The proportion of the pivot in the list of a relative is replaced. -/
theorem Synced.total_flip (c : A) :
    total UInt64.toNat (l'.keys kin.flip c netuid) + weight UInt64.toNat (edge pivot c) =
      total UInt64.toNat (l.keys kin.flip c netuid) + weight UInt64.toNat (newMap.lookup c) := by
  have hinto := hgraph.into c
  cases hw : newMap.lookup c with
  | some w =>
    rw [h.linked c w hw, total_upsert hinto w pivot]
    simp [weight]
  | none =>
    by_cases hold : c ∈ (l.keys kin pivot netuid).map Prod.snd
    · rw [h.unlinked c hw hold, total_remove hinto pivot]
      simp [weight]
    · have hnone : edge pivot c = none := by
        by_contra hedge
        exact hold (((hgraph.out pivot).mem_keys c).mpr hedge)
      rw [h.unrelated c hw hold, hnone]
end

omit [DecidableEq A] in
theorem mirrored_flip (hgraph : Mirrored (l.keys kin · netuid) (l.keys kin.flip · netuid) edge) :
    Mirrored (l.keys kin.flip · netuid) (l.keys kin.flip.flip · netuid) fun c p => edge p c := by
  have hflip : kin.flip.flip = kin := by cases kin <;> rfl
  rw [hflip]
  exact ⟨hgraph.into, hgraph.out⟩

/-- The child keys and the parent keys of a subnet are those of a graph, in which nobody passes on more than
    everything. -/
structure DelegatesBy (l : ChildLinks A) (netuid : NetUid) (edge : A → A → Option UInt64) : Prop where
  mirrored : Mirrored (l.keys .children · netuid) (l.keys .parents · netuid) edge
  oriented : Oriented edge
  bounded : ∀ p, total UInt64.toNat (l.keys .children p netuid) ≤ 2 ^ 64 - 1

omit [DecidableEq A] in
theorem DelegatesBy.congr (h : DelegatesBy l netuid edge) (hkeys : ∀ kin k, l'.keys kin k netuid = l.keys kin k netuid) :
    DelegatesBy l' netuid edge := by
  refine ⟨⟨fun p => ?_, fun c => ?_⟩, h.oriented, fun p => ?_⟩
  · rw [hkeys]
    exact h.mirrored.out p
  · rw [hkeys]
    exact h.mirrored.into c
  · rw [hkeys]
    exact h.bounded p

/-- Relations that may be written back. -/
structure PCRelations.Valid (r : PCRelations A) : Prop where
  children : r.children.lookup r.pivot = none
  parents : r.parents.lookup r.pivot = none
  disjoint : ∀ k, r.children.lookup k ≠ none → r.parents.lookup k = none
  bounded : total UInt64.toNat (vecOf r.children) ≤ 2 ^ 64 - 1

/-- **Writing relations back** replaces the edges at the pivot, as long as there is room for its new proportion in
    the lists of its parents. -/
theorem persist_ends (hvalid : r.Valid) (h : DelegatesBy l netuid edge)
    (hroom : ∀ p, total UInt64.toNat (l.keys .children p netuid) + weight UInt64.toNat (r.parents.lookup p) ≤
      2 ^ 64 - 1 + weight UInt64.toNat (edge p r.pivot)) :
    Ends (persistChildParentRelations r netuid) l
      (fun _ l' => DelegatesBy l' netuid (rewire edge r.pivot r.children.lookup r.parents.lookup) ∧
        ∀ kin k n, n ≠ netuid → l'.keys kin k n = l.keys kin k n) (fun _ _ => False) := by
  unfold persistChildParentRelations
  rw [ends_bind]
  refine (persistSide_ends .children r.pivot r.children netuid l).mono (fun _ l1 h1 => ?_) fun _ _ he => he
  refine (persistSide_ends .parents r.pivot r.parents netuid l1).mono (fun _ l2 h2 => ?_) fun _ _ he => he
  have hgraph1 := h1.mirrored h.mirrored
  have hgraph2 := mirrored_flip (h2.mirrored (mirrored_flip hgraph1))
  have hrewired : ∀ p c, rewire edge r.pivot r.children.lookup r.parents.lookup p c =
      if c = r.pivot then r.parents.lookup p else if p = r.pivot then r.children.lookup c else edge p c :=
    rewire_eq hvalid.children hvalid.parents
  refine ⟨⟨⟨fun p => (hgraph2.out p).congr (hrewired p), fun c => (hgraph2.into c).congr (hrewired · c)⟩, ?_, ?_⟩, ?_⟩
  · exact h.oriented.rewire hvalid.children hvalid.parents hvalid.disjoint
  · intro p
    have htotal := h2.total_flip (mirrored_flip hgraph1) p
    have hown := h1.own p
    simp only [Kin.flip] at htotal
    by_cases hp : p = r.pivot
    · subst hp
      rw [hown, if_pos rfl] at htotal
      simp only [if_true, hvalid.children, hvalid.parents] at htotal
      have hbounded := hvalid.bounded
      omega
    · rw [hown, if_neg hp] at htotal
      simp only [hp, if_false] at htotal
      have hp := hroom p
      omega
  · intro kin k n hn
    rw [h2.elsewhere kin k n hn, h1.elsewhere kin k n hn]

/-! ## Relations that are loaded -/

theorem mem_iff_lookup : k ∈ m ↔ m.lookup k ≠ none := by
  rw [← AList.lookup_isSome, Option.isSome_iff_ne_none]

/-- **What is checked when relations are loaded**, whatever the children are. -/
theorem relationsWith_valid {childrenVec : KeyVec A} (hload : l.relationsWith pivot childrenVec netuid = .ok r) :
    r.Valid ∧ r.pivot = pivot ∧ r.children = others childrenVec pivot ∧
      r.parents = others (l.keys .parents pivot netuid) pivot := by
  unfold relationsWith PCRelations.linkChildren PCRelations.linkParents PCRelations.ensureNoSelfLoop
    PCRelations.ensureTotalProportions PCRelations.ensureBipartiteSeparation at hload
  simp only [bind_assoc, pure_bind, ensure_bind_eq_ok, pure_eq_ok] at hload
  obtain ⟨hchildren, htotal, -, hparents, hdisjoint, rfl⟩ := hload
  refine ⟨⟨?_, ?_, fun k hk => ?_, totalProportions_le htotal⟩, rfl, rfl, rfl⟩
  · exact not_not.mp (mt mem_iff_lookup.mpr hchildren)
  · exact not_not.mp (mt mem_iff_lookup.mpr hparents)
  · have hall := List.all_eq_true.mp hdisjoint k (mem_mapKeys.mpr hk)
    exact not_not.mp (mt mem_iff_lookup.mpr (of_decide_eq_true hall))

/-- The loaded parents are those of the graph. -/
theorem DelegatesBy.parents_lookup (h : DelegatesBy l netuid edge) (hotkey p : A) :
    (others (l.keys .parents hotkey netuid) hotkey).lookup p = edge p hotkey :=
  lookup_others (h.mirrored.into hotkey) (h.oriented.no_loop hotkey) p

/-! ## Every subnet -/

/-- On every subnet there is a graph. -/
def ChildLinks.Sound (l : ChildLinks A) : Prop := ∀ netuid, ∃ edge, DelegatesBy l netuid edge

section
omit [DecidableEq A]

/-- Only the lists matter. -/
theorem ChildLinks.Sound.congr (h : l.Sound) (hkeys : ∀ kin k n, l'.keys kin k n = l.keys kin k n) : l'.Sound := by
  intro n
  obtain ⟨edge, hedge⟩ := h n
  exact ⟨edge, hedge.congr fun kin k => hkeys kin k n⟩

theorem ChildLinks.Sound.replace {edge' : A → A → Option UInt64} (h : l.Sound) (hnew : DelegatesBy l' netuid edge')
    (hkeys : ∀ kin k n, n ≠ netuid → l'.keys kin k n = l.keys kin k n) : l'.Sound := by
  intro n
  by_cases hn : n = netuid
  · subst hn
    exact ⟨edge', hnew⟩
  · obtain ⟨edge, hedge⟩ := h n
    exact ⟨edge, hedge.congr fun kin k => hkeys kin k n hn⟩
end

theorem persistPendingChidrenOk_ends {children : KeyVec A} (h : l.Sound) :
    Ends (persistPendingChidrenOk netuid hotkey children) l (fun _ l' => l'.Sound) (fun _ _ => False) := by
  unfold persistPendingChidrenOk
  rw [ends_bind, ends_get]
  cases hload : l.loadRelationsFromPending hotkey children netuid with
  | error _ => exact h
  | ok r =>
    obtain ⟨edge, hedge⟩ := h netuid
    obtain ⟨hvalid, hpivot, -, hparents⟩ := relationsWith_valid hload
    -- the parents are the present ones, so their lists do not grow
    have hsame : ∀ p, r.parents.lookup p = edge p r.pivot := by
      intro p
      rw [hparents, hpivot]
      exact hedge.parents_lookup hotkey p
    simp only [ends_bind, ends_attempt, ends_pure]
    refine (persist_ends hvalid hedge fun p => ?_).mono (fun _ l' hl' => ?_) fun _ _ he => he.elim
    · have hbounded := hedge.bounded p
      rw [hsame]
      omega
    · exact h.replace hl'.1 hl'.2

theorem keys_forget (kin : Kin) (k : A) (n : NetUid) :
    (l.forget r hotkey netuid).keys kin k n =
      if k = hotkey ∧ n = netuid then []
      else if k ∈ (r.side kin.flip).keys ∧ n = netuid then remove (l.keys kin k netuid) hotkey else l.keys kin k n := by
  have hchildren : ∀ kin k n, (r.children.keys.foldl (fun l child =>
      l.setKeys .parents child netuid (PCRelations.removeEdge (l.keys .parents child netuid) hotkey)) l).keys kin k n =
        if kin = .parents ∧ k ∈ r.children.keys ∧ n = netuid then remove (l.keys .parents k netuid) hotkey
        else l.keys kin k n := by
    intro kin k n
    exact keys_edits (g := fun _ vec => remove vec hotkey) r.children.keys_nodup kin k n
  unfold forget
  rw [keys_setKeys, keys_put]
  rw [keys_foldl (g := fun _ vec => remove vec hotkey) (fun t k _ _ _ => t.keys_put .children _ k _ netuid _ _)
    r.parents.keys_nodup kin k n, hchildren, hchildren]
  cases kin <;> simp [Kin.flip, PCRelations.side] <;> rfl

/-- The list of somebody else: a hotkey that was in it is gone. -/
theorem lists_forget (hne : k ≠ hotkey) (hlists : Lists (l.keys kin k netuid) f)
    (hrelated : (r.side kin.flip).lookup k = f hotkey) :
    Lists ((l.forget r hotkey netuid).keys kin k netuid) (update f hotkey none) ∧
      total UInt64.toNat ((l.forget r hotkey netuid).keys kin k netuid) + weight UInt64.toNat (f hotkey) =
        total UInt64.toNat (l.keys kin k netuid) := by
  rw [keys_forget, if_neg fun hall => hne hall.1]
  by_cases hmem : k ∈ (r.side kin.flip).keys
  · rw [if_pos ⟨hmem, rfl⟩]
    exact ⟨hlists.remove hotkey, total_remove hlists hotkey⟩
  · have hnone : f hotkey = none := by
      rw [← hrelated]
      exact not_not.mp (mt mem_mapKeys.mpr hmem)
    rw [if_neg fun hall => hmem hall.1, update_eq_self_iff.mpr hnone.symm, hnone]
    exact ⟨hlists, rfl⟩

/-- The references to a hotkey are gone, and its parents have got back what they passed on to it. -/
theorem DelegatesBy.forget (h : DelegatesBy l netuid edge) (hchildren : ∀ c, r.children.lookup c = edge hotkey c)
    (hparents : ∀ p, r.parents.lookup p = edge p hotkey) :
    DelegatesBy (l.forget r hotkey netuid) netuid (rewire edge hotkey (fun _ => none) fun _ => none) ∧
      ∀ p, p ≠ hotkey → total UInt64.toNat ((l.forget r hotkey netuid).keys .children p netuid) +
        weight UInt64.toNat (edge p hotkey) = total UInt64.toNat (l.keys .children p netuid) := by
  have hown : ∀ kin, (l.forget r hotkey netuid).keys kin hotkey netuid = [] := by
    intro kin
    rw [keys_forget, if_pos ⟨rfl, rfl⟩]
  have hout : ∀ p, p ≠ hotkey → _ := fun p hp => lists_forget hp (h.mirrored.out p) (hparents p)
  have hinto : ∀ c, c ≠ hotkey → _ := fun c hc => lists_forget hc (h.mirrored.into c) (hchildren c)
  have hempty : ∀ k, rewire edge hotkey (fun _ => none) (fun _ => none) hotkey k = none ∧
      rewire edge hotkey (fun _ => none) (fun _ => none) k hotkey = none := by
    intro k
    by_cases hk : k = hotkey <;> simp [rewire, hk]
  refine ⟨⟨⟨fun p => ?_, fun c => ?_⟩, ?_, fun p => ?_⟩, fun p hp => (hout p hp).2⟩
  · by_cases hp : p = hotkey
    · rw [hp, hown]
      exact Lists.nil.congr fun k => (hempty k).1
    · refine (hout p hp).1.congr fun c => ?_
      by_cases hc : c = hotkey <;> simp [rewire, hp, hc]
  · by_cases hc : c = hotkey
    · rw [hc, hown]
      exact Lists.nil.congr fun k => (hempty k).2
    · refine (hinto c hc).1.congr fun p => ?_
      by_cases hp : p = hotkey <;> simp [rewire, hp, hc]
  · exact h.oriented.rewire rfl rfl fun _ _ => rfl
  · by_cases hp : p = hotkey
    · rw [hp, hown]
      exact Nat.zero_le _
    · have htotal := (hout p hp).2
      have hbounded := h.bounded p
      omega

/-- **The swap of a hotkey** takes the edges at the old hotkey to the new one. -/
theorem parentChildSwapHotkey_ends {oldHotkey newHotkey : A} (h : l.Sound) :
    Returns (parentChildSwapHotkey oldHotkey newHotkey netuid) l (fun _ l' => l'.Sound) := by
  unfold parentChildSwapHotkey
  simp only [ends_bind, ends_get, ends_modify]
  rw [ends_lift]
  refine ⟨fun r hload => ?_, fun _ _ => trivial⟩
  obtain ⟨edge, hedge⟩ := h netuid
  obtain ⟨hvalid, -, hchildren, hparents⟩ := relationsWith_valid hload
  have hc : ∀ c, r.children.lookup c = edge oldHotkey c := by
    intro c
    rw [hchildren]
    exact lookup_others (hedge.mirrored.out oldHotkey) (hedge.oriented.no_loop oldHotkey) c
  have hp : ∀ p, r.parents.lookup p = edge p oldHotkey := by
    intro p
    rw [hparents]
    exact hedge.parents_lookup oldHotkey p
  obtain ⟨hforgot, htotal⟩ := hedge.forget hc hp
  have helsewhere : ∀ kin k n, n ≠ netuid → (l.forget r oldHotkey netuid).keys kin k n = l.keys kin k n := by
    intro kin k n hn
    rw [keys_forget, if_neg fun hall => hn hall.2, if_neg fun hall => hn hall.2]
  rw [ends_lift]
  refine ⟨fun r' hrebind => ?_, fun _ _ => trivial⟩
  unfold PCRelations.rebindPivot PCRelations.ensureNoSelfLoop at hrebind
  simp only [ensure_bind_eq_ok, pure_eq_ok] at hrebind
  obtain ⟨hnochild, hnoparent, rfl⟩ := hrebind
  -- the relations of the old hotkey are valid around the new one
  have hvalid' : ({ r with pivot := newHotkey } : PCRelations A).Valid :=
    ⟨not_not.mp (mt mem_iff_lookup.mpr hnochild), not_not.mp (mt mem_iff_lookup.mpr hnoparent), hvalid.disjoint,
      hvalid.bounded⟩
  have hpersist : ∀ t : ChildLinks A, (∀ kin k n, t.keys kin k n = (l.forget r oldHotkey netuid).keys kin k n) →
      Returns (persistChildParentRelations { r with pivot := newHotkey } netuid) t (fun _ l' => l'.Sound) := by
    intro t ht
    refine (persist_ends hvalid' (hforgot.congr fun kin k => ht kin k netuid) fun p => ?_).mono
      (fun _ l' hl' => ?_) fun _ _ _ => trivial
    · -- a parent of the old hotkey passes on to the new one what it passed on to the old one
      show total UInt64.toNat (t.keys .children p netuid) + weight UInt64.toNat (r.parents.lookup p) ≤ _
      rw [ht, hp p]
      by_cases hold : p = oldHotkey
      · have hnone : edge p oldHotkey = none := by
          rw [hold]
          exact hedge.oriented.no_loop oldHotkey
        have hbounded := hforgot.bounded p
        rw [hnone]
        simp only [weight, Option.map_none, Option.getD_none]
        omega
      · have hsum := htotal p hold
        have hbounded := hedge.bounded p
        omega
    · refine h.replace hl'.1 fun kin k n hn => ?_
      rw [hl'.2 kin k n hn, ht, helsewhere kin k n hn]
  cases hpending : (l.forget r oldHotkey netuid).pendingChildKeys.lookup (netuid, oldHotkey) with
  | none => exact hpersist _ fun _ _ _ => rfl
  | some pending =>
    obtain ⟨children, coolDownBlock⟩ := pending
    simp only [ends_bind, ends_modify]
    rw [ends_lift]
    refine ⟨fun _ _ => hpersist _ fun kin _ _ => ?_, fun _ _ => trivial⟩
    cases kin <;> rfl

/-! ## Calls -/

variable {ctx : ChildContext A} {hotkey : A} {children : KeyVec A}

theorem doScheduleChildren_ends {origin : Origin A} (h : l.Sound) :
    Returns (doScheduleChildren ctx origin hotkey netuid children) l (fun _ l' => l'.Sound) := by
  unfold doScheduleChildren scheduleOrApplyCk
  simp only [ends_bind, ends_get, ends_lift_ensure, ends_modify, ends_ite, implies_true, and_true]
  simp only [ends_lift, implies_true, and_true]
  -- none of the checks matters here: the relations are loaded and checked again
  intro coldkey _ _ _ _ _ _ r _ _ _ _
  have hsame : ({ l with transactionKeyLastBlock := fun k n =>
      if k = hotkey ∧ n = netuid then ctx.block else l.transactionKeyLastBlock k n } : ChildLinks A).Sound :=
    h.congr fun kin _ _ => by cases kin <;> rfl
  refine ⟨fun _ => hsame.congr fun kin _ _ => by cases kin <;> rfl, fun _ => ?_⟩
  exact (persistPendingChidrenOk_ends hsame).mono (fun _ _ h' => h') fun _ _ _ => trivial

/-- The calls that write child keys, each at its own block. Other code may write pending entries. -/
inductive ChildCall (A : Type) where
  | doScheduleChildren (ctx : ChildContext A) (origin : Origin A) (hotkey : A) (netuid : NetUid) (children : KeyVec A)
  | doSetPendingChildren (ctx : ChildContext A) (netuid : NetUid)
  | parentChildSwapHotkey (oldHotkey newHotkey : A) (netuid : NetUid)
  | writePending (pending : StorageMap (NetUid × A) (KeyVec A × Nat))

def ChildCall.run : ChildCall A → ChildRun A Unit
  | doScheduleChildren ctx origin hotkey netuid children =>
      Subtensor.doScheduleChildren ctx origin hotkey netuid children
  | doSetPendingChildren ctx netuid => Subtensor.doSetPendingChildren ctx netuid
  | parentChildSwapHotkey oldHotkey newHotkey netuid => Subtensor.parentChildSwapHotkey oldHotkey newHotkey netuid
  | writePending pending => modify fun l => { l with pendingChildKeys := pending }

/-- A call that fails is rolled back. -/
def ChildCall.apply (l : ChildLinks A) (call : ChildCall A) : ChildLinks A :=
  match call.run l with
  | .ok _ l'   => l'
  | .error _ _ => l

theorem ChildCall.run_sound (call : ChildCall A) (h : l.Sound) : Returns call.run l (fun _ l' => l'.Sound) := by
  cases call with
  | doScheduleChildren ctx origin hotkey netuid children => exact doScheduleChildren_ends h
  | doSetPendingChildren ctx netuid =>
    simp only [ChildCall.run, Subtensor.doSetPendingChildren, ends_bind, ends_get, ends_modify]
    refine (ends_forM (I := fun _ t => Sound t) ?_ h).mono (fun _ t ht => ?_) fun _ _ (_ : False) => trivial
    · intro e rest t ht
      exact persistPendingChidrenOk_ends ht
    · exact ht.congr fun kin _ _ => by cases kin <;> rfl
  | parentChildSwapHotkey oldHotkey newHotkey netuid => exact parentChildSwapHotkey_ends h
  | writePending pending => exact h.congr fun kin _ _ => by cases kin <;> rfl

theorem ChildCall.apply_sound (call : ChildCall A) (h : l.Sound) : (call.apply l).Sound := by
  unfold ChildCall.apply
  cases hcall : call.run l with
  | ok _ l' => exact (of_ends (call.run_sound h) hcall :)
  | error _ _ => exact h

/-- What holds of the child keys and the parent keys of a subnet. -/
structure ChildLinks.Consistent (l : ChildLinks A) (netuid : NetUid) : Prop where
  mirrored : ∀ p c x, (x, c) ∈ l.keys .children p netuid ↔ (x, p) ∈ l.keys .parents c netuid
  distinct : ∀ kin k, ((l.keys kin k netuid).map Prod.snd).Nodup
  noSelf : ∀ k x, (x, k) ∉ l.keys .children k netuid
  noMutual : ∀ p c x y, (x, c) ∈ l.keys .children p netuid → (y, p) ∉ l.keys .children c netuid
  bounded : ∀ p, ((l.keys .children p netuid).map fun e => e.1.toNat).sum ≤ 2 ^ 64 - 1

omit [DecidableEq A] in
theorem DelegatesBy.consistent (h : DelegatesBy l netuid edge) : l.Consistent netuid where
  mirrored p c x := h.mirrored.mem_iff x p c
  distinct kin k := by
    cases kin with
    | children => exact (h.mirrored.out k).nodup
    | parents => exact (h.mirrored.into k).nodup
  noSelf k x hmem := by
    have hedge := ((h.mirrored.out k).mem_iff x k).mp hmem
    rw [h.oriented.no_loop k] at hedge
    cases hedge
  noMutual p c x y hx hy := by
    have hedge := ((h.mirrored.out p).mem_iff x c).mp hx
    have hback := ((h.mirrored.out c).mem_iff y p).mp hy
    rw [h.oriented p c (by simp [hedge])] at hback
    cases hback
  bounded p := h.bounded p

/-- **Child keys and parent keys stay consistent** in every run of the calls that write them. -/
theorem child_links_consistent (hempty : ∀ kin k n, l.keys kin k n = []) (calls : List (ChildCall A))
    (netuid : NetUid) : (calls.foldl ChildCall.apply l).Consistent netuid := by
  have hstart : l.Sound := by
    intro n
    refine ⟨fun _ _ => none, ⟨fun p => ?_, fun c => ?_⟩, fun _ _ _ => rfl, fun p => ?_⟩
    · rw [hempty]
      exact Lists.nil
    · rw [hempty]
      exact Lists.nil
    · rw [hempty]
      exact Nat.zero_le _
  have hsound : (calls.foldl ChildCall.apply l).Sound :=
    List.foldlRecOn (motive := Sound) calls ChildCall.apply hstart fun _ h call _ => call.apply_sound h
  obtain ⟨edge, hedge⟩ := hsound netuid
  exact hedge.consistent

namespace Sample

/-- Before the start call of a subnet. -/
def unstarted : ChildContext Account where
  block := 1
  ifSubnetExist _ := true
  subtokenEnabled _ := false
  subnetOwnerHotkey _ := none
  coldkeyOwnsHotkey _ _ := true
  totalStakeForHotkey _ := 0
  stakeThreshold := 0
  pendingChildKeyCooldown := 0

def noLinks : ChildLinks Account := ⟨fun _ _ => none, fun _ _ => none, ∅, fun _ _ => 0⟩

/-- Hotkeys 1 and 3 have child 2, hotkey 3 also child 0, and then hotkey 0 takes the place of hotkey 2. -/
def adoptions : List (ChildCall Account) :=
  [.doScheduleChildren unstarted (.signed 3) 1 1 [(7, 2)], .doScheduleChildren unstarted (.signed 3) 3 1 [(5, 2), (6, 0)],
    .parentChildSwapHotkey 2 0 1]
end Sample

theorem child_links_consistent_swapped :
    (Sample.adoptions.foldl ChildCall.apply Sample.noLinks).keys .children 3 1 = [(5, 0)] ∧
      (Sample.adoptions.foldl ChildCall.apply Sample.noLinks).Consistent 1 :=
  ⟨by decide, child_links_consistent (fun kin _ _ => by cases kin <;> rfl) Sample.adoptions 1⟩
end Qubitum.Subtensor
