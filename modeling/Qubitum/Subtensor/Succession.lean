import Qubitum.Subtensor.WeightMasks

/-!
# `Subtensor.Succession` — what a neuron leaves to the one that takes its uid

`replace_neuron` removes what the old hotkey served and resets the data under its uid. Whatever they were, the storage is
the same afterwards exactly if two vectors agree that `clear_neuron` does not reset (`replaced_without_trace`): the new
neuron has the trust and the permit of the old one, and with the permit it may set weights (`permit_inherited`).
-/

namespace Qubitum.Subtensor
open Function

/-- The storage of the neurons. `E`, `I`, `C` and `P` are addresses, axons, certificates and Prometheus endpoints. -/
structure NeuronStorage (A E I C P : Type) where
  neurons : Neurons A
  table : NeuronTable
  mechanismCountCurrent : NetUid → MechId
  stakeWeight : NetUid → List UInt16
  incentive : MechanismIndex → List UInt16
  lastUpdate : MechanismIndex → List Nat
  bonds : MechanismIndex → UInt16 → List (UInt16 × UInt16)
  weights : MechanismIndex → UInt16 → List (UInt16 × UInt16)
  associatedEvmAddress : NetUid → UInt16 → Option E
  axons : NetUid → A → Option I
  neuronCertificates : NetUid → A → Option C
  prometheus : NetUid → A → Option P

/-- What is stored for one neuron and its hotkey. -/
structure NeuronData (I C P : Type) where
  emission : Nat
  consensus : UInt16
  dividends : UInt16
  validatorTrust : UInt16
  validatorPermit : Bool
  incentive : MechanismIndex → UInt16
  bonds : MechanismIndex → List (UInt16 × UInt16)
  weights : MechanismIndex → List (UInt16 × UInt16)
  axon : Option I
  certificate : Option C
  prometheus : Option P

variable {A E I C P V : Type} [DecidableEq A]

/-- The loop over the mechanisms of a subnet. -/
def onMechanisms (count : MechId) (netuid : NetUid) (f : MechanismIndex → V) (change : MechanismIndex → V → V) :
    MechanismIndex → V := fun i =>
  if (List.range count.toNat).any fun m => i = getMechanismStorageIndex netuid (.ofNat m) then change i (f i) else f i

/-- The weights without those set by `uid` and for it. -/
def clearRows (uid : UInt16) (rows : UInt16 → List (UInt16 × UInt16)) (i : UInt16) : List (UInt16 × UInt16) :=
  if i = uid then [] else (rows i).map fun e => (e.1, if e.1 = uid then 0 else e.2)

namespace NeuronStorage
variable (s : NeuronStorage A E I C P) (netuid : NetUid) (uid : UInt16)

/-- `clear_neuron`, but for what the table has. -/
def clearNeuron : NeuronStorage A E I C P :=
  let count := s.mechanismCountCurrent netuid
  { s with
    incentive := onMechanisms count netuid s.incentive fun _ v => v.set uid.toNat 0
    bonds := onMechanisms count netuid s.bonds fun _ rows => update rows uid []
    weights := onMechanisms count netuid s.weights fun _ => clearRows uid
    stakeWeight := mutate s.stakeWeight netuid (·.set uid.toNat 0) }

/-- `replace_neuron` under a uid that has a key. -/
def replaceNeuron (newHotkey : A) (block : Nat) : NeuronStorage A E I C P :=
  match s.neurons.keys netuid uid with
  | none => s
  | some oldHotkey =>
      if s.neurons.subnetOwnerHotkey netuid = some oldHotkey then s
      else
        { s.clearNeuron netuid uid with
          neurons := s.neurons.replace netuid uid oldHotkey newHotkey
          table := s.table.replace netuid uid block
          lastUpdate := onMechanisms (s.mechanismCountCurrent netuid) netuid s.lastUpdate fun _ v =>
            v.set uid.toNat block
          associatedEvmAddress := mutate s.associatedEvmAddress netuid (update · uid none)
          axons := mutate s.axons netuid (update · oldHotkey none)
          neuronCertificates := mutate s.neuronCertificates netuid (update · oldHotkey none)
          prometheus := mutate s.prometheus netuid (update · oldHotkey none) }

/-- The same storage with other data under a uid and its hotkey. -/
def put (hotkey : A) (x : NeuronData I C P) : NeuronStorage A E I C P :=
  let count := s.mechanismCountCurrent netuid
  { s with
    table := { s.table with
      emission := mutate s.table.emission netuid (·.set uid.toNat x.emission)
      consensus := mutate s.table.consensus netuid (·.set uid.toNat x.consensus)
      dividends := mutate s.table.dividends netuid (·.set uid.toNat x.dividends)
      validatorTrust := mutate s.table.validatorTrust netuid (·.set uid.toNat x.validatorTrust)
      validatorPermit := mutate s.table.validatorPermit netuid (·.set uid.toNat x.validatorPermit) }
    incentive := onMechanisms count netuid s.incentive fun i v => v.set uid.toNat (x.incentive i)
    bonds := onMechanisms count netuid s.bonds fun i rows => update rows uid (x.bonds i)
    weights := onMechanisms count netuid s.weights fun i rows => update rows uid (x.weights i)
    axons := mutate s.axons netuid (update · hotkey x.axon)
    neuronCertificates := mutate s.neuronCertificates netuid (update · hotkey x.certificate)
    prometheus := mutate s.prometheus netuid (update · hotkey x.prometheus) }
end NeuronStorage

theorem onMechanisms_onMechanisms {count : MechId} {netuid : NetUid} {f : MechanismIndex → V}
    {g h : MechanismIndex → V → V} :
    onMechanisms count netuid (onMechanisms count netuid f g) h = onMechanisms count netuid f fun i v => h i (g i v) := by
  funext i
  unfold onMechanisms
  split_ifs <;> rfl

theorem clearRows_update {uid : UInt16} {rows : UInt16 → List (UInt16 × UInt16)} {row : List (UInt16 × UInt16)} :
    clearRows uid (update rows uid row) = clearRows uid rows := by
  funext i
  unfold clearRows
  by_cases hi : i = uid
  · rw [if_pos hi, if_pos hi]
  · rw [if_neg hi, if_neg hi, update_of_ne hi]

/-- Written at one position, two lists agree exactly when the values do, if there is such a position. -/
theorem set_eq_set_iff {l : List V} {i : Nat} {v v' : V} : l.set i v = l.set i v' ↔ (i < l.length → v = v') := by
  refine ⟨fun h hi => ?_, fun h => ?_⟩
  · have hget := congrArg (·[i]?) h
    simpa [List.getElem?_set_self hi] using hget
  · by_cases hi : i < l.length
    · rw [h hi]
    · rw [List.set_eq_of_length_le (by omega), List.set_eq_of_length_le (by omega)]

/-- Two storages that differ in the data of one neuron are the same after another hotkey has replaced it, if and only
    if they have the same trust and permit for it. -/
theorem replaced_without_trace (s : NeuronStorage A E I C P) (netuid : NetUid) (uid : UInt16) (oldHotkey newHotkey : A)
    (block : Nat) (x y : NeuronData I C P) (hkey : s.neurons.keys netuid uid = some oldHotkey)
    (howner : s.neurons.subnetOwnerHotkey netuid ≠ some oldHotkey) :
    (s.put netuid uid oldHotkey x).replaceNeuron netuid uid newHotkey block =
        (s.put netuid uid oldHotkey y).replaceNeuron netuid uid newHotkey block ↔
      (uid.toNat < (s.table.validatorTrust netuid).length → x.validatorTrust = y.validatorTrust) ∧
        (uid.toNat < (s.table.validatorPermit netuid).length → x.validatorPermit = y.validatorPermit) := by
  rw [← set_eq_set_iff, ← set_eq_set_iff]
  simp only [NeuronStorage.replaceNeuron, NeuronStorage.put, NeuronStorage.clearNeuron, NeuronTable.replace, hkey,
    if_neg howner, onMechanisms_onMechanisms, clearRows_update, mutate, update_self, update_idem, List.set_set]
  constructor
  · intro h
    have htable := congrArg NeuronStorage.table h
    have htrust := congrFun (congrArg NeuronTable.validatorTrust htable) netuid
    have hpermit := congrFun (congrArg NeuronTable.validatorPermit htable) netuid
    simp only [update_self] at htrust hpermit
    exact ⟨htrust, hpermit⟩
  · rintro ⟨htrust, hpermit⟩
    rw [htrust, hpermit]

namespace Sample

/-- Hotkey 1 has uid 0 on subnet 1. -/
def lone : NeuronStorage Account Unit Unit Unit Unit :=
  ⟨emptySubnet.neurons.append 1 1, emptyTable.append 1 0 0, fun _ => 1, fun _ => [0], fun _ => [0], fun _ => [0],
    fun _ _ => [], fun _ _ => [], fun _ _ => none, fun _ _ => none, fun _ _ => none, fun _ _ => none⟩

def idle (permit : Bool) : NeuronData Unit Unit Unit :=
  ⟨0, 0, 0, 0, permit, fun _ => 0, fun _ => [], fun _ => [], none, none, none⟩
end Sample
open Sample

theorem replaced_without_trace_lone :
    (lone.put 1 0 1 { idle true with emission := 7 }).replaceNeuron 1 0 2 5 =
        (lone.put 1 0 1 (idle true)).replaceNeuron 1 0 2 5 ∧
      (lone.put 1 0 1 (idle true)).replaceNeuron 1 0 2 5 ≠ (lone.put 1 0 1 (idle false)).replaceNeuron 1 0 2 5 := by
  refine ⟨(replaced_without_trace lone 1 0 1 2 5 _ _ (by decide) (by decide)).mpr ⟨fun _ => rfl, fun _ => rfl⟩, ?_⟩
  intro h
  exact absurd (((replaced_without_trace lone 1 0 1 2 5 _ _ (by decide) (by decide)).mp h).2 (by decide)) (by decide)

/-- Hotkey 2 replaces hotkey 1, and may set weights if hotkey 1 had a permit, but not otherwise. -/
theorem permit_inherited :
    let after := fun permit => (lone.put 1 0 1 (idle permit)).replaceNeuron 1 0 2 5
    let allowed := fun permit => WeightsEnv.checkValidatorPermit { permissive with
      neurons := (after permit).neurons
      validatorPermit := (after permit).table.validatorPermit } 1 0 [1] [65535]
    (after true).neurons.keys 1 0 = some 2 ∧ (after false).neurons.keys 1 0 = some 2 ∧
      allowed true = true ∧ allowed false = false := by
  decide +kernel
end Qubitum.Subtensor
