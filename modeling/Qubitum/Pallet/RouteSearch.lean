import Qubitum.Pallet.Routing
import Qubitum.Lib.Cyclic

/-!
# `Pallet.RouteSearch` — which route a request gets

`route_assignment` runs two nested searches in cyclic order, from positions that the request's seeds give: through the
eligible miners, and for each of them through the eligible validators. Both loops skip over what does not fit, and both
have exits that end the whole search. On the lists they are run on, none of these exits is taken: each loop is a
`find?` over the rotated list (`routeActiveValidator_eq_find`, `routeAssignment_eq_find`).
-/

namespace Qubitum
open Scale Outcome Ledger Cyclic

variable {A L : Type} {w : Nat} {cfg : Config A L w} {reg : Registry w} {subnetId : SubnetId}

/-- The stored operator commitments of a miner and a validator differ. -/
def Registry.operatorsDiffer (reg : Registry w) (minerId : MinerId) (validatorId : ValidatorId) : Bool :=
  match reg.miners minerId, reg.validators validatorId with
  | some miner, some validator => miner.operatorCommitment ≠ validator.operatorCommitment
  | _, _                       => false

/-- The eligible miners in the order in which a request's search tries them. -/
def minersInOrder (cfg : Config A L w) (reg : Registry w) (subnetId : SubnetId) (requestId : RequestId)
    (assignmentBlinding : Commitment) : List MinerId :=
  let ids := activeMinerRouteIds cfg reg subnetId
  ids.rotate ((routeSeed cfg "qubitum.route.miner.v1" requestId subnetId assignmentBlinding).toNat % ids.length)

/-- The eligible validators in the order in which a request's search tries them. -/
def validatorsInOrder (cfg : Config A L w) (reg : Registry w) (subnetId : SubnetId) (seed : UInt64) :
    List ValidatorId :=
  let ids := activeValidatorRouteIds cfg reg subnetId
  ids.rotate (seed.toNat % ids.length)

variable {requestId : RequestId} {minerId : MinerId} {seed : UInt64} {validatorId : ValidatorId} {start : Nat}
  {offsets : List Nat} {miner : ChainMiner}

/-! ## The validator loop -/

/-- Over routable validators, the loop stops at the first one with another operator commitment. -/
theorem routeActiveValidatorFrom_eq {minerCommitment : Commitment} {ids visited : List ValidatorId}
    (hvisits : (offsets.map fun offset => ids[(start + offset) % ids.length]?) = visited.map some)
    (hroutable : ∀ id ∈ visited, ∃ validator, RoutableValidator cfg reg subnetId id validator) :
    routeActiveValidatorFrom cfg reg subnetId minerCommitment ids start offsets =
      visited.find? fun id => (reg.validators id).any fun validator =>
        validator.operatorCommitment ≠ minerCommitment := by
  induction visited generalizing offsets with
  | nil =>
    obtain rfl := List.map_eq_nil_iff.mp hvisits
    rfl
  | cons id rest ih =>
    obtain ⟨offset, offsets, rfl, hget, hrest⟩ := List.map_eq_cons_iff.mp hvisits
    have hnext := ih hrest fun id' hid' => hroutable id' (List.mem_cons_of_mem _ hid')
    obtain ⟨validator, hv⟩ := hroutable id (List.mem_cons_self ..)
    have heligible := hv.eligible
    simp only [validatorIsRouteEligible, Bool.and_eq_true, decide_eq_true_eq] at heligible
    obtain ⟨⟨hactive, hlocked⟩, hbound⟩ := heligible
    rw [routeActiveValidatorFrom, List.find?_cons, hget]
    simp only [hv.stored, Option.any_some]
    -- of the five checks of the loop body only the commitment is open
    by_cases hne : validator.operatorCommitment = minerCommitment
    · rw [if_neg fun hall => hall.2.2.2.1 hne, hnext]
      simp [hne]
    · rw [if_pos ⟨hv.subnet, hactive, hlocked, hne, hbound⟩]
      simp [hne]

theorem routeActiveValidator_eq_find (cfg : Config A L w) (reg : Registry w) (subnetId : SubnetId) (seed : UInt64)
    (minerCommitment : Commitment) :
    routeActiveValidator cfg reg subnetId seed minerCommitment =
      (validatorsInOrder cfg reg subnetId seed).find? fun id => (reg.validators id).any fun validator =>
        validator.operatorCommitment ≠ minerCommitment := by
  have hroutable : ∀ id ∈ validatorsInOrder cfg reg subnetId seed,
      ∃ validator, RoutableValidator cfg reg subnetId id validator := by
    intro id hid
    exact mem_activeValidatorRouteIds.mp (List.mem_rotate.mp hid)
  unfold routeActiveValidator validatorsInOrder at *
  generalize activeValidatorRouteIds cfg reg subnetId = ids at *
  simp only at hroutable ⊢
  cases hempty : ids.isEmpty with
  | true =>
    rw [List.isEmpty_iff.mp hempty]
    simp
  | false =>
    have hlength : ids.length ≠ 0 := by
      intro hzero
      rw [List.length_eq_zero_iff.mp hzero] at hempty
      cases hempty
    simp only [Bool.false_eq_true, if_false, routeIndex, if_neg hlength, Option.bind_eq_bind, Option.bind_some]
    exact routeActiveValidatorFrom_eq (visits_rotate ids _) hroutable

/-! ## The miner loop -/

/-- The route from one miner, if a validator fits. -/
def routeFrom (cfg : Config A L w) (reg : Registry w) (subnetId : SubnetId) (requestId : RequestId)
    (validatorSeed : UInt64) (minerId : MinerId) : Option ChainAssignment :=
  ((validatorsInOrder cfg reg subnetId validatorSeed).find? (reg.operatorsDiffer minerId)).map
    (⟨requestId, subnetId, minerId, ·⟩)

/-- The search for a partner of a stored miner looks at its operator commitment only. -/
theorem find_operatorsDiffer (hstored : reg.miners minerId = some miner) (ids : List ValidatorId) :
    ids.find? (reg.operatorsDiffer minerId) = ids.find? fun id => (reg.validators id).any fun validator =>
      validator.operatorCommitment ≠ miner.operatorCommitment := by
  congr 1
  funext id
  unfold Registry.operatorsDiffer
  rw [hstored]
  cases reg.validators id with
  | none => rfl
  | some validator => simp [ne_comm]

/-- Over routable miners, the loop stops at the first one with a partner. -/
theorem routeAssignmentFrom_eq {ids visited : List MinerId}
    (hvisits : (offsets.map fun offset => ids[(start + offset) % ids.length]?) = visited.map some)
    (hroutable : ∀ id ∈ visited, ∃ miner, RoutableMiner cfg reg subnetId id miner) :
    routeAssignmentFrom cfg reg subnetId requestId seed ids start offsets =
      visited.findSome? (routeFrom cfg reg subnetId requestId seed) := by
  induction visited generalizing offsets with
  | nil =>
    obtain rfl := List.map_eq_nil_iff.mp hvisits
    rfl
  | cons id rest ih =>
    obtain ⟨offset, offsets, rfl, hget, hrest⟩ := List.map_eq_cons_iff.mp hvisits
    have hnext := ih hrest fun id' hid' => hroutable id' (List.mem_cons_of_mem _ hid')
    obtain ⟨miner, hm⟩ := hroutable id (List.mem_cons_self ..)
    have heligible := hm.eligible
    simp only [minerIsRouteEligible, Bool.and_eq_true, decide_eq_true_eq] at heligible
    obtain ⟨⟨hactive, hlocked⟩, hbound⟩ := heligible
    have hpartner : routeActiveValidator cfg reg subnetId seed miner.operatorCommitment =
        (validatorsInOrder cfg reg subnetId seed).find? (reg.operatorsDiffer id) := by
      rw [routeActiveValidator_eq_find, find_operatorsDiffer hm.stored]
    rw [routeAssignmentFrom, List.findSome?_cons, hget, routeFrom, ← hpartner]
    simp only [hm.stored]
    rw [if_neg (by simp [hm.subnet, hactive, hlocked, hbound])]
    cases hroute : routeActiveValidator cfg reg subnetId seed miner.operatorCommitment with
    | none => exact hnext
    | some validatorId =>
      -- a partner that was found is stored and distinct, so the search does not end without a result
      obtain ⟨validator, hv, hne⟩ := routeActiveValidator_some hroute
      have hdistinct : ensureDistinctOperators miner validator = .ok () := ensure_eq_ok.mpr hne.symm
      simp only [hv.stored, hdistinct]
      rfl

theorem routeAssignment_eq_find {subnet : ChainSubnet} (hsubnet : reg.subnets subnetId = some subnet)
    (hactive : subnet.active = true) (requestId : RequestId) (blinding : Commitment) :
    routeAssignment cfg reg subnetId requestId blinding =
      (minersInOrder cfg reg subnetId requestId blinding).findSome? (routeFrom cfg reg subnetId requestId
        (routeSeed cfg "qubitum.route.validator.v1" requestId subnetId blinding)) := by
  have hroutable : ∀ id ∈ minersInOrder cfg reg subnetId requestId blinding,
      ∃ miner, RoutableMiner cfg reg subnetId id miner := by
    intro id hid
    exact mem_activeMinerRouteIds.mp (List.mem_rotate.mp hid)
  unfold routeAssignment minersInOrder at *
  simp only [hsubnet, Option.bind_eq_bind, Option.bind_some, hactive, Bool.not_true, Bool.false_eq_true, if_false]
    at hroutable ⊢
  generalize activeMinerRouteIds cfg reg subnetId = ids at *
  cases hempty : ids.isEmpty with
  | true =>
    rw [List.isEmpty_iff.mp hempty]
    simp
  | false =>
    have hlength : ids.length ≠ 0 := by
      intro hzero
      rw [List.length_eq_zero_iff.mp hzero] at hempty
      cases hempty
    simp only [Bool.false_eq_true, if_false, routeIndex, if_neg hlength, Option.bind_some]
    exact routeAssignmentFrom_eq (visits_rotate ids _) hroutable

/-! ## What the route is -/

theorem ok_of_isOk {x : Except DispatchError Unit} (h : x.isOk = true) : x = .ok () := by
  cases x with
  | ok _ => rfl
  | error _ => cases h

/-- A routed pair passes the check that opening a request makes of its assignment. -/
theorem RoutedPair.ensureRequestAssignment {validator : ChainValidator}
    (h : RoutedPair cfg reg subnetId minerId validatorId miner validator) :
    Qubitum.ensureRequestAssignment cfg reg subnetId minerId validatorId = .ok () := by
  have hminer := h.routable.eligible
  have hvalidator := h.partner.eligible
  simp only [minerIsRouteEligible, validatorIsRouteEligible, Bool.and_eq_true, decide_eq_true_eq] at hminer hvalidator
  have hbound := ok_of_isOk hminer.2
  have hbound' := ok_of_isOk hvalidator.2
  refine okOr_bind_eq_ok.mpr ⟨miner, h.routable.stored, okOr_bind_eq_ok.mpr ⟨validator, h.partner.stored, ?_⟩⟩
  refine ensure_bind_eq_ok.mpr ⟨⟨h.routable.subnet, h.partner.subnet⟩, ?_⟩
  refine ensure_bind_eq_ok.mpr ⟨⟨hminer.1.1, hvalidator.1.1⟩, ?_⟩
  refine ensure_bind_eq_ok.mpr ⟨h.distinct, ?_⟩
  refine okOr_bind_eq_ok.mpr ⟨miner, h.routable.stored, okOr_bind_eq_ok.mpr ⟨validator, h.partner.stored, ?_⟩⟩
  exact bind_eq_ok.mpr ⟨(), hbound, hbound'⟩

/-- **The route of a request.** On an active subnet a request is routed exactly if some eligible miner and some
    eligible validator have different operator commitments. The route then goes to the first miner, in cyclic order
    from the position its seed gives, that has such a validator, and to the first such validator in cyclic order from
    the position of the other seed; and the pair passes the check of the assignment. -/
theorem route_assignment_canonical (cfg : Config A L w) (reg : Registry w) (subnetId : SubnetId)
    (requestId : RequestId) (assignmentBlinding : Commitment) {subnet : ChainSubnet}
    (hsubnet : reg.subnets subnetId = some subnet) (hactive : subnet.active = true) :
    let miners := activeMinerRouteIds cfg reg subnetId
    let validators := activeValidatorRouteIds cfg reg subnetId
    let minerSeed := routeSeed cfg "qubitum.route.miner.v1" requestId subnetId assignmentBlinding
    let validatorSeed := routeSeed cfg "qubitum.route.validator.v1" requestId subnetId assignmentBlinding
    let route := routeAssignment cfg reg subnetId requestId assignmentBlinding
    miners.Pairwise (· ≤ ·) ∧ validators.Pairwise (· ≤ ·) ∧
    (route.isSome ↔ ∃ m ∈ miners, ∃ v ∈ validators, reg.operatorsDiffer m v) ∧
    ∀ assignment, route = some assignment →
      assignment.requestId = requestId ∧ assignment.subnetId = subnetId ∧
      (miners.rotate (minerSeed.toNat % miners.length)).find? (fun m => validators.any (reg.operatorsDiffer m)) =
        some assignment.minerId ∧
      (validators.rotate (validatorSeed.toNat % validators.length)).find? (reg.operatorsDiffer assignment.minerId) =
        some assignment.validatorId ∧
      ensureRequestAssignment cfg reg subnetId assignment.minerId assignment.validatorId = .ok () := by
  intro miners validators minerSeed validatorSeed route
  -- whether a miner has a partner does not depend on where the search for it starts
  have hpartner : ∀ m, (routeFrom cfg reg subnetId requestId validatorSeed m).isSome =
      validators.any (reg.operatorsDiffer m) := by
    intro m
    rw [routeFrom, Option.isSome_map, Bool.eq_iff_iff, List.any_eq_true]
    exact find_rotate_isSome ..
  have hroute : route = ((minersInOrder cfg reg subnetId requestId assignmentBlinding).find? fun m =>
      validators.any (reg.operatorsDiffer m)).bind (routeFrom cfg reg subnetId requestId validatorSeed) := by
    simp only [← hpartner, ← findSome_eq_find]
    exact routeAssignment_eq_find hsubnet hactive requestId assignmentBlinding
  refine ⟨List.pairwise_insertionSort _ _, List.pairwise_insertionSort _ _, ?_, ?_⟩
  · have hfound := find_rotate_isSome miners (minerSeed.toNat % miners.length) fun m =>
      validators.any (reg.operatorsDiffer m)
    simp only [List.any_eq_true] at hfound
    rw [← hfound, hroute]
    show _ ↔ ((minersInOrder cfg reg subnetId requestId assignmentBlinding).find? _).isSome = true
    cases hfind : (minersInOrder cfg reg subnetId requestId assignmentBlinding).find? fun m =>
        validators.any (reg.operatorsDiffer m) with
    | none => simp
    | some m =>
      have hm := List.find?_some hfind
      rw [← hpartner] at hm
      simpa using hm
  · intro assignment hsome
    obtain ⟨-, miner, validator, hpair⟩ := routeAssignment_some hsome
    rw [hroute] at hsome
    obtain ⟨m, hfirst, hsome⟩ := Option.bind_eq_some_iff.mp hsome
    obtain ⟨v, hvalidator, rfl⟩ := Option.map_eq_some_iff.mp hsome
    exact ⟨rfl, rfl, hfirst, hvalidator, hpair.ensureRequestAssignment⟩

/-! ### A miner that is passed over

Accounts 1 and 2 operate a miner each, and account 1 also the only validator. -/

namespace Sample

def sharedMiner (id : MinerId) (operator : UInt64) : ChainMiner :=
  { mixedMiner with id, operatorCommitment := config.operatorCommitment operator }

def sharedIdentity (id : MinerId) (operator : UInt64) : Identity where
  commitments := some ⟨some (commitment 20), none⟩
  signatureBundle := some (bundle 21)
  signatureChallenge := some
    (config.minerIdentitySignatureChallenge id (config.operatorCommitment operator) (some (commitment 20)) none)

def sharedRegistry : Registry 64 :=
  { mixedRegistry with
    minerCount := 2
    miners := fun id => if id = 0 then some (sharedMiner 0 1) else if id = 1 then some (sharedMiner 1 2) else none
    validators := fun id =>
      if id = 0 then some { mixedValidator with operatorCommitment := config.operatorCommitment 1 } else none
    minerIdentity := (IdentityStore.empty.set 0 (sharedIdentity 0 1)).set 1 (sharedIdentity 1 2)
    validatorIdentity := IdentityStore.empty.set 0 ⟨some ⟨some (commitment 30), none⟩, some (bundle 31),
      some (config.validatorIdentitySignatureChallenge 0 (config.operatorCommitment 1) (some (commitment 30)) none)⟩
    minerLockedBond := fun id => if id < 2 then some 50 else none }
end Sample
open Sample

theorem route_assignment_canonical_skips :
    routeAssignment config sharedRegistry 0 0 (commitment 41) = some ⟨0, 0, 1, 0⟩ ∧
      activeMinerRouteIds config sharedRegistry 0 = [0, 1] ∧
      ensureRequestAssignment config sharedRegistry 0 1 0 = .ok () := by
  have hroute : routeAssignment config sharedRegistry 0 0 (commitment 41) = some ⟨0, 0, 1, 0⟩ := by decide +kernel
  have hspec := route_assignment_canonical config sharedRegistry 0 0 (commitment 41) rfl rfl
  exact ⟨hroute, by decide +kernel, (hspec.2.2.2 _ hroute).2.2.2.2⟩
end Qubitum
