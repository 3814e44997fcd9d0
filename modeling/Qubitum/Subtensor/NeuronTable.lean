import Qubitum.Lib.Slots
import Qubitum.Subtensor.Dispatch

/-!
# `Subtensor.NeuronTable` — the data of the neurons, pruning and trimming

A model of `uids.rs` and of `get_neuron_to_prune` in `registration.rs`. The vectors have an entry for each neuron of a
subnet. `Config.withNeurons` puts them, with the settings that pruning reads, into the storage of the pallet, so that
`do_register` and `do_swap_hotkey` run on them.

`StakeWeight`, the bonds, weights and other data of the mechanisms, and what is stored under a hotkey are not in the
table.
-/

namespace Qubitum.Subtensor
open Outcome Mutation Slots Function

structure NeuronTable where
  active : NetUid → List Bool
  emission : NetUid → List Nat
  consensus : NetUid → List UInt16
  dividends : NetUid → List UInt16
  validatorTrust : NetUid → List UInt16
  validatorPermit : NetUid → List Bool
  blockAtRegistration : NetUid → UInt16 → Nat
  immunityPeriod : NetUid → UInt16
  minNonImmuneUids : NetUid → UInt16
  minAllowedUids : NetUid → UInt16
  maxAllowedUids : NetUid → UInt16
  immuneOwnerUidsLimit : NetUid → UInt16

/-- `mutate` -/
def mutate {V : Type} (f : NetUid → V) (netuid : NetUid) (change : V → V) : NetUid → V :=
  update f netuid (change (f netuid))

namespace NeuronTable

section
variable (t : NeuronTable) (netuid : NetUid) (uid : UInt16) (block : Nat)

/-- Steps 3 and 4 of `append_neuron`. -/
def append : NeuronTable :=
  { t with
    active := mutate t.active netuid (· ++ [true])
    emission := mutate t.emission netuid (· ++ [0])
    consensus := mutate t.consensus netuid (· ++ [0])
    dividends := mutate t.dividends netuid (· ++ [0])
    validatorTrust := mutate t.validatorTrust netuid (· ++ [0])
    validatorPermit := mutate t.validatorPermit netuid (· ++ [false])
    blockAtRegistration := mutate t.blockAtRegistration netuid (update · uid block) }

/-- `replace_neuron` with `clear_neuron`: trust and permit stay. -/
def replace : NeuronTable :=
  { t with
    active := mutate t.active netuid (·.set uid.toNat true)
    emission := mutate t.emission netuid (·.set uid.toNat 0)
    consensus := mutate t.consensus netuid (·.set uid.toNat 0)
    dividends := mutate t.dividends netuid (·.set uid.toNat 0)
    blockAtRegistration := mutate t.blockAtRegistration netuid (update · uid block) }

/-- `get_neuron_is_immune` -/
def isImmune : Bool := block - t.blockAtRegistration netuid uid < (t.immunityPeriod netuid).toNat
end
end NeuronTable

/-- The uids below a number. -/
def uidsBelow (n : Nat) : List UInt16 := (List.range n).map UInt16.ofNat

variable {A B X Q : Type} [DecidableEq A]

section Pruning
variable (t : NeuronTable) (o : Ownership A) (n : Neurons A) (netuid : NetUid)

/-- Earlier registrations first, then smaller uids. -/
def registeredBefore (a b : Nat × UInt16 × A) : Bool := a.1 < b.1 || a.1 = b.1 && a.2.1 ≤ b.2.1

/-- `get_immune_owner_tuples` -/
def NeuronTable.immuneOwnerTuples (coldkey : A) : List (UInt16 × A) :=
  let triples := (o.ownedHotkeys coldkey).filterMap fun hotkey =>
    (n.uids netuid hotkey).map fun uid => (t.blockAtRegistration netuid uid, uid, hotkey)
  let limit := (t.immuneOwnerUidsLimit netuid).toNat
  let tuples := ((triples.insertionSort (registeredBefore · ·)).take limit).map (·.2)
  match n.subnetOwnerHotkey netuid with
  | none         => tuples
  | some ownerHk =>
      match n.uids netuid ownerHk with
      | none          => tuples
      | some ownerUid =>
          if (ownerUid, ownerHk) ∈ tuples then tuples else ((ownerUid, ownerHk) :: tuples).take limit

/-- `get_immune_owner_hotkeys` -/
def NeuronTable.immuneOwnerHotkeys (coldkey : A) : List A := (t.immuneOwnerTuples o n netuid coldkey).map (·.2)

/-- `get_immune_owner_uids` -/
def NeuronTable.immuneOwnerUids (coldkey : A) : List UInt16 := (t.immuneOwnerTuples o n netuid coldkey).map (·.1)

/-- A neuron that may be pruned. -/
structure Candidate where
  emission : Nat
  regBlock : Nat
  uid : UInt16

def Candidate.better (c best : Candidate) : Bool :=
  if c.emission ≠ best.emission then c.emission < best.emission
  else if c.regBlock ≠ best.regBlock then c.regBlock < best.regBlock
  else c.uid < best.uid

def Candidate.consider (c : Candidate) : Option Candidate → Option Candidate
  | none      => some c
  | some best => if c.better best then some c else some best

/-- What the loop of `get_neuron_to_prune` keeps. -/
structure PruneScan where
  freeCount : Nat
  bestNonImmune : Option Candidate
  bestImmune : Option Candidate

/-- The body of the loop. -/
def NeuronTable.scan (immortalHotkeys : List A) (block : Nat) (acc : PruneScan) (uid : UInt16) : PruneScan :=
  match n.keys netuid uid with
  | none    => acc
  | some hk =>
      if hk ∈ immortalHotkeys then acc
      else
        let c : Candidate := ⟨(t.emission netuid).getD uid.toNat 0, t.blockAtRegistration netuid uid, uid⟩
        if t.isImmune netuid uid block then { acc with bestImmune := c.consider acc.bestImmune }
        else { acc with freeCount := acc.freeCount + 1, bestNonImmune := c.consider acc.bestNonImmune }

/-- `get_neuron_to_prune` -/
def NeuronTable.neuronToPrune (block : Nat) : Option UInt16 :=
  let immortalHotkeys := t.immuneOwnerHotkeys o n netuid (n.subnetOwner netuid)
  let found := (uidsBelow (n.subnetworkN netuid).toNat).foldl (t.scan n netuid immortalHotkeys block) ⟨0, none, none⟩
  if (t.minNonImmuneUids netuid).toNat < found.freeCount ∧ found.bestNonImmune.isSome then
    found.bestNonImmune.map (·.uid)
  else found.bestImmune.map (·.uid)
end Pruning

/-! ## In the storage of the pallet -/

/-- The storage with a table of neurons in front of everything else. -/
def OtherStorage.withNeurons (o : OtherStorage A Q) : OtherStorage A (NeuronTable × Q) :=
  { o.beside NeuronTable with
    maxAllowedUids := fun r netuid => r.1.maxAllowedUids netuid
    neuronToPrune := fun r ownership neurons netuid block => r.1.neuronToPrune ownership neurons netuid block
    appendNeuronData := fun r netuid uid block =>
      (r.1.append netuid uid block, o.appendNeuronData r.2 netuid uid block)
    replaceNeuronData := fun r netuid uid hotkey block =>
      (r.1.replace netuid uid block, o.replaceNeuronData r.2 netuid uid hotkey block) }

def Config.withNeurons (cfg : Config A B X Q) : Config A B X (NeuronTable × Q) :=
  { cfg with other := cfg.other.withNeurons }

/-! ## Trimming -/

section Trimming

/-- `MaxImmuneUidsPercentage`, in percent -/
def maxImmuneUidsPercentage : Nat := 80

/-- `Percent::from_rational`, in percent: everything if it is more than everything, and otherwise rounded down
    twice, as both numbers are first brought below a hundred. -/
def percentOf (p q : Nat) : Nat :=
  if q = 0 ∨ q < p then 100
  else
    let factor := max ((q + 99) / 100) 1
    p / factor * 100 / (q / factor)

/-- The entries of `l` that are kept. -/
def trimmed {V : Type} [Inhabited V] (l : List V) (uids : List Nat) : List V := uids.map fun uid => l.getD uid default

/-- What is stored under a uid and its hotkey is removed. -/
def Neurons.removeUid (n : Neurons A) (netuid : NetUid) (uid : UInt16) : Neurons A :=
  let n := match n.keys netuid uid with
    | some hotkey =>
        { n with
          uids := mutate n.uids netuid (update · hotkey none)
          isNetworkMember := n.isNetworkMember.erase (hotkey, netuid) }
    | none => n
  { n with keys := mutate n.keys netuid (update · uid none) }

/-- The loop of `trim_to_max_allowed_uids`: `kept` are the emissions with their uids that were not removed. -/
structure Trim (A : Type) where
  neurons : Neurons A
  table : NeuronTable
  uidsLeftToProcess : Nat
  kept : List (Nat × Nat)

/-- The body of the loop. -/
def Trim.visit (netuid : NetUid) (ownerUids : List UInt16) (maxN block : Nat) (e : Nat × Nat) (acc : Trim A) : Trim A :=
  let uid := UInt16.ofNat e.2
  if acc.uidsLeftToProcess = maxN ∨ uid ∈ ownerUids ∨ acc.table.isImmune netuid uid block then
    { acc with kept := e :: acc.kept }
  else
    { acc with
      neurons := acc.neurons.removeUid netuid uid
      table := { acc.table with
        blockAtRegistration := mutate acc.table.blockAtRegistration netuid (update · uid 0) }
      uidsLeftToProcess := acc.uidsLeftToProcess - 1 }

/-- The emissions with their uids, the largest first. -/
def NeuronTable.emissionsByUid (t : NeuronTable) (netuid : NetUid) : List (Nat × Nat) :=
  (t.emission netuid).zipIdx.insertionSort fun a b => b.1 ≤ a.1

/-- After the loop the uids are compressed to the left. -/
def Trim.compress (acc : Trim A) (defaultAccount : A) (netuid : NetUid) (maxN : UInt16) : Neurons A × NeuronTable :=
  let kept := acc.kept.insertionSort fun a b => a.2 ≤ b.2
  let trimmedUids := kept.map (·.2)
  let n := acc.neurons
  let t := acc.table
  let keys := compact UInt16.ofNat (n.keys netuid) trimmedUids 0
  let neurons := { n with
    keys := update n.keys netuid keys
    uids := update n.uids netuid (rebuild (fun uid => (keys uid).getD defaultAccount) (uidsBelow trimmedUids.length))
    subnetworkN := update n.subnetworkN netuid maxN }
  let table := { t with
    emission := update t.emission netuid (kept.map (·.1))
    active := mutate t.active netuid (trimmed · trimmedUids)
    consensus := mutate t.consensus netuid (trimmed · trimmedUids)
    dividends := mutate t.dividends netuid (trimmed · trimmedUids)
    validatorTrust := mutate t.validatorTrust netuid (trimmed · trimmedUids)
    validatorPermit := mutate t.validatorPermit netuid (trimmed · trimmedUids)
    blockAtRegistration := mutate t.blockAtRegistration netuid (compact UInt16.ofNat · trimmedUids 0) }
  (neurons, table)

/-- `trim_to_max_allowed_uids`: the neurons with the smallest emissions go, but for those that are immune. -/
def trimToMaxAllowedUids (defaultAccount : A) (netuid : NetUid) (maxN : UInt16) : Run A B X (NeuronTable × Q) Unit := do
  let s ← get
  let t := s.rest.1
  lift (ensure (s.pools.ifSubnetExist netuid) .subnetNotExists)
  lift (ensure (t.minAllowedUids netuid ≤ maxN) .invalidValue)
  lift (ensure (maxN ≤ t.maxAllowedUids netuid) .invalidValue)
  let t := { t with maxAllowedUids := update t.maxAllowedUids netuid maxN }
  set { s with rest := (t, s.rest.2) }
  let currentN := s.neurons.subnetworkN netuid
  if maxN < currentN then
    let ownerUids := t.immuneOwnerUids s.ownership s.neurons netuid (s.neurons.subnetOwner netuid)
    let immuneCount := (uidsBelow currentN.toNat).countP fun uid =>
      uid ∈ ownerUids || t.isImmune netuid uid s.block
    lift (ensure (percentOf immuneCount maxN.toNat < maxImmuneUidsPercentage) .trimmingWouldExceedMaxImmunePercentage)
    let emissions := t.emissionsByUid netuid
    -- from the end; what is beyond the number of neurons is not looked at
    let acc := (emissions.take currentN.toNat).foldr (Trim.visit netuid ownerUids maxN.toNat s.block)
      ⟨s.neurons, t, currentN.toNat, emissions.drop currentN.toNat⟩
    let (neurons, table) := acc.compress defaultAccount netuid maxN
    set { s with neurons, rest := (table, s.rest.2) }
end Trimming
end Qubitum.Subtensor
