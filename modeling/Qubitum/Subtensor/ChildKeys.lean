import Qubitum.Lib.Adjacency
import Qubitum.Subtensor.State

/-!
# `Subtensor.ChildKeys` — child keys and parent keys

A hotkey passes proportions of its stake on to its child keys. `ChildKeys` has the children of a hotkey on a
subnet and `ParentKeys` its parents; the functions here keep the two in step. They work on a copy of the
relations around one hotkey, the pivot, and write the differences back on both sides.

A `BTreeMap` is a list of entries with distinct keys. The chain goes through it in the order of the keys, and so
writes the vectors in that order; nothing here reads a position of them.
-/

namespace Qubitum.Subtensor
open Outcome Mutation

variable {A : Type} [DecidableEq A]

/-! ## Storage -/

/-- A list of child keys or of parent keys, with their proportions. -/
abbrev KeyVec (A : Type) := List (UInt64 × A)

/-- The storage of child keys. Keys of `pendingChildKeys` are subnet and parent, its values the children and the
    block at which their cool-down ends. `transactionKeyLastBlock` has the entries for `SetChildren`. -/
structure ChildLinks (A : Type) where
  childKeys : A → NetUid → Option (KeyVec A)
  parentKeys : A → NetUid → Option (KeyVec A)
  pendingChildKeys : StorageMap (NetUid × A) (KeyVec A × Nat)
  transactionKeyLastBlock : A → NetUid → Nat

/-- What the functions read of the rest of the pallet. -/
structure ChildContext (A : Type) where
  block : Nat
  ifSubnetExist : NetUid → Bool
  subtokenEnabled : NetUid → Bool
  subnetOwnerHotkey : NetUid → Option A
  coldkeyOwnsHotkey : A → A → Bool
  /-- `get_total_stake_for_hotkey` -/
  totalStakeForHotkey : A → Nat
  stakeThreshold : Nat
  pendingChildKeyCooldown : Nat

abbrev ChildRun (A : Type) := EStateM DispatchError (ChildLinks A)

/-- The two sides of a relation. -/
inductive Kin where
  | children
  | parents
  deriving DecidableEq, Repr

/-- A hotkey is a parent of its children and a child of its parents. -/
def Kin.flip : Kin → Kin
  | children => parents
  | parents  => children

namespace ChildLinks

/-- The children of a hotkey, or its parents. -/
def keys (l : ChildLinks A) (kin : Kin) (hotkey : A) (netuid : NetUid) : KeyVec A :=
  match kin with
  | .children => (l.childKeys hotkey netuid).getD []
  | .parents  => (l.parentKeys hotkey netuid).getD []

/-- `ChildKeys::insert`, `ParentKeys::insert` and, without a value, their `remove` -/
def put (l : ChildLinks A) (kin : Kin) (hotkey : A) (netuid : NetUid) (value : Option (KeyVec A)) : ChildLinks A :=
  let write (m : A → NetUid → Option (KeyVec A)) : A → NetUid → Option (KeyVec A) := fun k n =>
    if k = hotkey ∧ n = netuid then value else m k n
  match kin with
  | .children => { l with childKeys := write l.childKeys }
  | .parents  => { l with parentKeys := write l.parentKeys }

/-- `set_childkeys` and `set_parentkeys`: no empty vectors are stored. -/
def setKeys (l : ChildLinks A) (kin : Kin) (hotkey : A) (netuid : NetUid) (vec : KeyVec A) : ChildLinks A :=
  l.put kin hotkey netuid (if vec.isEmpty then none else some vec)

section
variable (l : ChildLinks A) (kin kin' : Kin) (k k' : A) (n n' : NetUid)

theorem keys_put (value : Option (KeyVec A)) :
    (l.put kin k n value).keys kin' k' n' =
      if kin' = kin ∧ k' = k ∧ n' = n then value.getD [] else l.keys kin' k' n' := by
  cases kin <;> cases kin' <;> by_cases hkey : k' = k ∧ n' = n <;> simp [put, keys, hkey]

@[simp] theorem keys_setKeys (vec : KeyVec A) :
    (l.setKeys kin k n vec).keys kin' k' n' = if kin' = kin ∧ k' = k ∧ n' = n then vec else l.keys kin' k' n' := by
  unfold setKeys
  rw [keys_put]
  cases vec <;> rfl
end
end ChildLinks

/-! ## Relations around a hotkey -/

/-- A list of keys as a map; of several entries for a key the last one counts. -/
def mapOf (vec : KeyVec A) : StorageMap A UInt64 := vec.foldl (fun m e => m.insert e.2 e.1) ∅

/-- The entries of a map as they are stored. -/
def vecOf (m : StorageMap A UInt64) : KeyVec A := m.entries.map fun e => (e.2, e.1)

structure PCRelations (A : Type) where
  pivot : A
  children : StorageMap A UInt64
  parents : StorageMap A UInt64

namespace PCRelations

def new (hotkey : A) : PCRelations A := ⟨hotkey, ∅, ∅⟩

/-- The sum of the proportions, in `u128`. -/
def totalProportions (children : StorageMap A UInt64) : Nat :=
  children.entries.foldl (fun acc e => min (acc + e.2.toNat) (2 ^ 128 - 1)) 0

def ensureTotalProportions (children : StorageMap A UInt64) : Except DispatchError Unit :=
  ensure (totalProportions children ≤ 2 ^ 64 - 1) .proportionOverflow

def ensureChildkeyCount (children : StorageMap A UInt64) : Except DispatchError Unit :=
  ensure (children.entries.length ≤ 5) .tooManyChildren

def ensureNoSelfLoop (pivot : A) (hotkeySet : StorageMap A UInt64) : Except DispatchError Unit :=
  ensure (pivot ∉ hotkeySet) .invalidChild

def ensureBipartiteSeparation (children parents : StorageMap A UInt64) : Except DispatchError Unit :=
  ensure (children.keys.all (· ∉ parents)) .childParentInconsistency

/-- Whether the children of a pending entry may become those of the pivot. -/
def ensurePendingConsistency (r : PCRelations A) (pendingChildrenVec : KeyVec A) : Except DispatchError Unit := do
  let newChildren := mapOf pendingChildrenVec
  ensureNoSelfLoop r.pivot newChildren
  ensureChildkeyCount newChildren
  ensureTotalProportions newChildren
  ensureBipartiteSeparation newChildren r.parents

def linkChildren (r : PCRelations A) (newChildren : StorageMap A UInt64) : Except DispatchError (PCRelations A) := do
  ensureNoSelfLoop r.pivot newChildren
  ensureTotalProportions newChildren
  ensureBipartiteSeparation newChildren r.parents
  pure { r with children := newChildren }

def linkParents (r : PCRelations A) (newParents : StorageMap A UInt64) : Except DispatchError (PCRelations A) := do
  ensureNoSelfLoop r.pivot newParents
  ensureBipartiteSeparation r.children newParents
  pure { r with parents := newParents }

def upsertEdge (list : KeyVec A) (proportion : UInt64) (id : A) : KeyVec A := Adjacency.upsert list proportion id

def removeEdge (list : KeyVec A) (id : A) : KeyVec A := Adjacency.remove list id

def rebindPivot (r : PCRelations A) (newPivot : A) : Except DispatchError (PCRelations A) := do
  ensureNoSelfLoop newPivot r.children
  ensureNoSelfLoop newPivot r.parents
  pure { r with pivot := newPivot }

/-- The children or the parents. -/
def side (r : PCRelations A) : Kin → StorageMap A UInt64
  | .children => r.children
  | .parents  => r.parents
end PCRelations

namespace ChildLinks

/-- The keys on one side of a hotkey, without the hotkey itself. -/
def others (vec : KeyVec A) (hotkey : A) : StorageMap A UInt64 := mapOf (vec.filter fun e => e.2 ≠ hotkey)

/-- `load_child_parent_relations` with the children that are given, which is also what
    `load_relations_from_pending` does with those of a pending entry. -/
def relationsWith (l : ChildLinks A) (pivot : A) (childrenVec : KeyVec A) (netuid : NetUid) :
    Except DispatchError (PCRelations A) := do
  let rel ← (PCRelations.new pivot).linkChildren (others childrenVec pivot)
  rel.linkParents (others (l.keys .parents pivot netuid) pivot)

def loadChildParentRelations (l : ChildLinks A) (hotkey : A) (netuid : NetUid) :
    Except DispatchError (PCRelations A) :=
  l.relationsWith hotkey (l.keys .children hotkey netuid) netuid

def loadRelationsFromPending (l : ChildLinks A) (pivot : A) (pendingChildrenVec : KeyVec A) (netuid : NetUid) :
    Except DispatchError (PCRelations A) :=
  l.relationsWith pivot pendingChildrenVec netuid
end ChildLinks

/-! ## Writing them back -/

/-- The pivot is entered into the list of a relative, or its proportion there is changed. -/
def linkRelative (kin : Kin) (pivot : A) (newMap : StorageMap A UInt64) (netuid : NetUid) (key : A) :
    ChildRun A Unit := do
  let proportion ← lift (okOr (newMap.lookup key) .childParentInconsistency)
  modify fun l => l.setKeys kin.flip key netuid (PCRelations.upsertEdge (l.keys kin.flip key netuid) proportion pivot)

/-- One half of `persist_child_parent_relations`: the list of the pivot is overwritten, and the pivot is added to
    the lists of its new relatives, updated in those of the old ones that stay, and removed from the others. -/
def persistSide (kin : Kin) (pivot : A) (newMap : StorageMap A UInt64) (netuid : NetUid) : ChildRun A Unit := do
  let prev := (((← get).keys kin pivot netuid).map Prod.snd).dedup
  modify (·.setKeys kin pivot netuid (vecOf newMap))
  (newMap.keys.filter (· ∉ prev)).forM (linkRelative kin pivot newMap netuid)
  (newMap.keys.filter (· ∈ prev)).forM (linkRelative kin pivot newMap netuid)
  (prev.filter (· ∉ newMap.keys)).forM fun key => modify fun l =>
    l.setKeys kin.flip key netuid (PCRelations.removeEdge (l.keys kin.flip key netuid) pivot)

def persistChildParentRelations (relations : PCRelations A) (netuid : NetUid) : ChildRun A Unit := do
  persistSide .children relations.pivot relations.children netuid
  persistSide .parents relations.pivot relations.parents netuid

/-! ## The swap of a hotkey -/

/-- Every reference to the old hotkey is removed. The lists of its parents are written back even if they have
    become empty. -/
def ChildLinks.forget (l : ChildLinks A) (relations : PCRelations A) (oldHotkey : A) (netuid : NetUid) :
    ChildLinks A :=
  let l := relations.children.keys.foldl (fun l child =>
    l.setKeys .parents child netuid (PCRelations.removeEdge (l.keys .parents child netuid) oldHotkey)) l
  let l := relations.parents.keys.foldl (fun l parent =>
    l.put .children parent netuid (some (PCRelations.removeEdge (l.keys .children parent netuid) oldHotkey))) l
  (l.put .children oldHotkey netuid (some [])).setKeys .parents oldHotkey netuid []

def parentChildSwapHotkey (oldHotkey newHotkey : A) (netuid : NetUid) : ChildRun A Unit := do
  let relations ← lift ((← get).loadChildParentRelations oldHotkey netuid)
  modify (·.forget relations oldHotkey netuid)
  let relations ← lift (relations.rebindPivot newHotkey)
  match (← get).pendingChildKeys.lookup (netuid, oldHotkey) with
  | some (children, coolDownBlock) =>
      lift (relations.ensurePendingConsistency children)
      modify fun l => { l with
        pendingChildKeys :=
          (l.pendingChildKeys.erase (netuid, oldHotkey)).insert (netuid, newHotkey) (children, coolDownBlock) }
  | none => pure ()
  persistChildParentRelations relations netuid

/-! ## Setting children -/

/-- If the relations are not consistent any more, nothing is written. -/
def persistPendingChidrenOk (netuid : NetUid) (hotkey : A) (children : KeyVec A) : ChildRun A Unit := do
  match (← get).loadRelationsFromPending hotkey children netuid with
  | .ok relations => let _ ← attempt (persistChildParentRelations relations netuid)
  | .error _ => pure ()

/-- Before the start call, the children are set at once. -/
def scheduleOrApplyCk (ctx : ChildContext A) (netuid : NetUid) (hotkey : A) (children : KeyVec A) :
    ChildRun A Unit :=
  if ctx.subtokenEnabled netuid then
    modify fun l => { l with
      pendingChildKeys :=
        l.pendingChildKeys.insert (netuid, hotkey) (children, ctx.block + ctx.pendingChildKeyCooldown) }
  else persistPendingChidrenOk netuid hotkey children

/-- `TransactionType::SetChildren.rate_limit()` -/
def setChildrenRateLimit : Nat := 150

def checkPassesRateLimit (limit block lastBlock : Nat) : Bool := lastBlock = 0 || limit ≤ block - lastBlock

def doScheduleChildren (ctx : ChildContext A) (origin : Origin A) (hotkey : A) (netuid : NetUid)
    (children : KeyVec A) : ChildRun A Unit := do
  let coldkey ← lift (ensureSigned origin)
  let l ← get
  lift (ensure (checkPassesRateLimit setChildrenRateLimit ctx.block (l.transactionKeyLastBlock hotkey netuid))
    .txRateLimitExceeded)
  lift (ensure (netuid ≠ NetUid.root) .registrationNotPermittedOnRootSubnet)
  lift (ensure (ctx.ifSubnetExist netuid) .subnetNotExists)
  lift (ensure (ctx.coldkeyOwnsHotkey coldkey hotkey) .nonAssociatedColdKey)
  lift (ensure (children.map Prod.snd).Nodup .duplicateChild)
  let relations ← lift (l.loadChildParentRelations hotkey netuid)
  lift (relations.ensurePendingConsistency children)
  lift (ensure (children.isEmpty ∨ ctx.stakeThreshold ≤ ctx.totalStakeForHotkey hotkey ∨
    ctx.subnetOwnerHotkey netuid = some hotkey) .notEnoughStakeToSetChildkeys)
  modify fun l => { l with
    transactionKeyLastBlock := fun k n =>
      if k = hotkey ∧ n = netuid then ctx.block else l.transactionKeyLastBlock k n }
  scheduleOrApplyCk ctx netuid hotkey children

/-- The pending children whose cool-down is over, or all of them before the start call. -/
def doSetPendingChildren (ctx : ChildContext A) (netuid : NetUid) : ChildRun A Unit := do
  let due := (← get).pendingChildKeys.entries.filter fun e =>
    e.1.1 = netuid ∧ (e.2.2 < ctx.block ∨ ctx.subtokenEnabled netuid = false)
  due.forM fun e => persistPendingChidrenOk netuid e.1.2 e.2.1
  modify fun l => { l with pendingChildKeys := due.foldl (fun m e => m.erase (netuid, e.1.2)) l.pendingChildKeys }
end Qubitum.Subtensor
