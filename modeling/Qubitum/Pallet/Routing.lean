import Qubitum.Pallet.Lifecycle

/-!
# `Pallet.Routing` — whom a request can be routed to, and self-validation

A stored participant commits to its operator in one of two forms: the role commitment, or the legacy
account commitment that records from before the role forms still carry. Authorization accepts both. The
guard against self-validation, however, compares the **stored commitments** of the miner and the validator,
so it separates two accounts, and also the two forms of one account.

What a route or an accepted submission can pair is therefore characterised exactly: two different accounts,
or one account that is stored in one form as the miner and in the other form as the validator
(`MixedPair`).
-/

namespace Qubitum
open Scale Outcome Ledger Dense

variable {A L : Type} {w : Nat} {cfg : Config A L w} {reg : Registry w} {subnetId : SubnetId}

/-! ## What a route returns -/

section Routes

/-- A miner a request on the subnet can be routed to. -/
structure RoutableMiner (cfg : Config A L w) (reg : Registry w) (subnetId : SubnetId) (minerId : MinerId)
    (miner : ChainMiner) : Prop where
  known : minerId < reg.minerCount
  stored : reg.miners minerId = some miner
  subnet : miner.subnetId = subnetId
  eligible : minerIsRouteEligible cfg reg minerId miner = true

/-- A validator a request on the subnet can be routed to. -/
structure RoutableValidator (cfg : Config A L w) (reg : Registry w) (subnetId : SubnetId)
    (validatorId : ValidatorId) (validator : ChainValidator) : Prop where
  known : validatorId < reg.validatorCount
  stored : reg.validators validatorId = some validator
  subnet : validator.subnetId = subnetId
  eligible : validatorIsRouteEligible cfg reg validatorId validator = true

variable {minerId : MinerId} {start : Nat} {offsets : List Nat} {requestId : RequestId}
  {assignment : ChainAssignment} {validator : ChainValidator}

/-- The miner index lists the routable miners. -/
theorem mem_activeMinerRouteIds :
    minerId ∈ activeMinerRouteIds cfg reg subnetId ↔ ∃ miner, RoutableMiner cfg reg subnetId minerId miner := by
  simp only [activeMinerRouteIds, List.mem_insertionSort, List.mem_map, List.mem_filter, minerRecords,
    Bool.and_eq_true, decide_eq_true_eq]
  constructor
  · rintro ⟨⟨_, miner⟩, ⟨hmem, hsubnet, heligible⟩, rfl⟩
    obtain ⟨hknown, hstored⟩ := mem_recordsBelow.mp hmem
    exact ⟨miner, hknown, hstored, hsubnet, heligible⟩
  · rintro ⟨miner, hknown, hstored, hsubnet, heligible⟩
    exact ⟨(minerId, miner), ⟨mem_recordsBelow.mpr ⟨hknown, hstored⟩, hsubnet, heligible⟩, rfl⟩

variable {validatorId : ValidatorId} {minerCommitment : Commitment} {seed : UInt64}

/-- The validator index lists the routable validators. -/
theorem mem_activeValidatorRouteIds :
    validatorId ∈ activeValidatorRouteIds cfg reg subnetId ↔
      ∃ validator, RoutableValidator cfg reg subnetId validatorId validator := by
  simp only [activeValidatorRouteIds, List.mem_insertionSort, List.mem_map, List.mem_filter,
    validatorRecords, Bool.and_eq_true, decide_eq_true_eq]
  constructor
  · rintro ⟨⟨_, validator⟩, ⟨hmem, hsubnet, heligible⟩, rfl⟩
    obtain ⟨hknown, hstored⟩ := mem_recordsBelow.mp hmem
    exact ⟨validator, hknown, hstored, hsubnet, heligible⟩
  · rintro ⟨validator, hknown, hstored, hsubnet, heligible⟩
    exact ⟨(validatorId, validator), ⟨mem_recordsBelow.mpr ⟨hknown, hstored⟩, hsubnet, heligible⟩, rfl⟩

/-- The validator loop returns one of the listed validators, with another stored commitment than the
    miner's. -/
theorem routeActiveValidatorFrom_some {ids : List ValidatorId}
    (h : routeActiveValidatorFrom cfg reg subnetId minerCommitment ids start offsets = some validatorId) :
    validatorId ∈ ids ∧ ∃ validator, reg.validators validatorId = some validator ∧
      validator.operatorCommitment ≠ minerCommitment := by
  induction offsets with
  | nil => cases h
  | cons offset offsets ih =>
    unfold routeActiveValidatorFrom at h
    split at h
    · cases h
    · rename_i candidate hget
      split at h
      · exact ih h
      · rename_i validator hvalidator
        split at h
        · -- the candidate passed every check of the loop body
          rename_i hchecks
          obtain rfl := Option.some.inj h
          exact ⟨List.mem_of_getElem? hget, validator, hvalidator, hchecks.2.2.2.1⟩
        · exact ih h

theorem routeActiveValidator_some (h : routeActiveValidator cfg reg subnetId seed minerCommitment = some validatorId) :
    ∃ validator, RoutableValidator cfg reg subnetId validatorId validator ∧
      validator.operatorCommitment ≠ minerCommitment := by
  unfold routeActiveValidator at h
  simp only at h
  split at h
  · cases h
  · obtain ⟨start, _, h⟩ := Option.bind_eq_some_iff.mp h
    obtain ⟨hmem, validator, hvalidator, hdistinct⟩ := routeActiveValidatorFrom_some h
    obtain ⟨validator', hroutable⟩ := mem_activeValidatorRouteIds.mp hmem
    obtain rfl : validator = validator' := Option.some.inj (hvalidator.symm.trans hroutable.stored)
    exact ⟨validator, hroutable, hdistinct⟩

/-- What a returned assignment consists of. -/
structure RoutedPair (cfg : Config A L w) (reg : Registry w) (subnetId : SubnetId) (minerId : MinerId)
    (validatorId : ValidatorId) (miner : ChainMiner) (validator : ChainValidator) : Prop where
  routable : RoutableMiner cfg reg subnetId minerId miner
  partner : RoutableValidator cfg reg subnetId validatorId validator
  distinct : miner.operatorCommitment ≠ validator.operatorCommitment

/-- The miner loop returns a routed pair, if the miners it goes through are the listed ones. -/
theorem routeAssignmentFrom_some
    (h : routeAssignmentFrom cfg reg subnetId requestId seed (activeMinerRouteIds cfg reg subnetId) start
      offsets = some assignment) :
    ∃ miner validator, RoutedPair cfg reg subnetId assignment.minerId assignment.validatorId miner validator := by
  induction offsets with
  | nil => cases h
  | cons offset offsets ih =>
    unfold routeAssignmentFrom at h
    split at h
    · cases h
    · rename_i minerId hget
      split at h
      · exact ih h
      · rename_i miner hminer
        split at h
        · exact ih h
        · split at h
          · exact ih h
          · rename_i validatorId hroute
            obtain ⟨validator, hvalidator, hdistinct⟩ := routeActiveValidator_some hroute
            rw [hvalidator.stored] at h
            simp only at h
            split at h
            · obtain rfl := Option.some.inj h
              obtain ⟨miner', hroutable⟩ := mem_activeMinerRouteIds.mp (List.mem_of_getElem? hget)
              obtain rfl : miner = miner' := Option.some.inj (hminer.symm.trans hroutable.stored)
              exact ⟨miner, validator, hroutable, hvalidator, hdistinct.symm⟩
            · cases h

/-- **A route joins two routable participants of an active subnet with different stored commitments.** -/
theorem routeAssignment_some {blinding : Commitment}
    (h : routeAssignment cfg reg subnetId requestId blinding = some assignment) :
    (∃ subnet, reg.subnets subnetId = some subnet ∧ subnet.active = true) ∧
      ∃ miner validator, RoutedPair cfg reg subnetId assignment.minerId assignment.validatorId miner validator := by
  obtain ⟨subnet, hsubnet, h⟩ := Option.bind_eq_some_iff.mp h
  split at h
  · cases h
  · rename_i hactive
    simp only at h
    split at h
    · cases h
    · obtain ⟨start, _, h⟩ := Option.bind_eq_some_iff.mp h
      exact ⟨⟨subnet, hsubnet, by simpa using hactive⟩, routeAssignmentFrom_some h⟩

/-! ## What a route can return -/

/-- Some request starts the two searches at any two given positions. -/
def SeedsReach (cfg : Config A L w) (subnetId : SubnetId) (miners validators : Nat) : Prop :=
  ∀ i < miners, ∀ j < validators, ∃ requestId blinding,
    (routeSeed cfg "qubitum.route.miner.v1" requestId subnetId blinding).toNat % miners = i ∧
    (routeSeed cfg "qubitum.route.validator.v1" requestId subnetId blinding).toNat % validators = j

/-- A search that starts at an acceptable validator returns it. -/
theorem routeActiveValidator_eq (hv : RoutableValidator cfg reg subnetId validatorId validator)
    (hne : validator.operatorCommitment ≠ minerCommitment)
    (hget : (activeValidatorRouteIds cfg reg subnetId)[seed.toNat %
      (activeValidatorRouteIds cfg reg subnetId).length]? = some validatorId) :
    routeActiveValidator cfg reg subnetId seed minerCommitment = some validatorId := by
  have heligible := hv.eligible
  simp only [validatorIsRouteEligible, Bool.and_eq_true, decide_eq_true_eq] at heligible
  obtain ⟨⟨hactive, hlocked⟩, hbound⟩ := heligible
  unfold routeActiveValidator
  generalize activeValidatorRouteIds cfg reg subnetId = ids at hget
  have hpos : 0 < ids.length := by
    rcases Nat.eq_zero_or_pos ids.length with hzero | hpos
    · rw [List.length_eq_zero_iff.mp hzero] at hget
      cases hget
    · exact hpos
  obtain ⟨n, hn⟩ : ∃ n, ids.length = n + 1 := ⟨ids.length - 1, by omega⟩
  have hempty : ids.isEmpty = false := by
    cases ids with
    | nil => cases hpos
    | cons _ _ => rfl
  simp only [hempty, Bool.false_eq_true, if_false, routeIndex, Nat.ne_of_gt hpos]
  show routeActiveValidatorFrom cfg reg subnetId minerCommitment ids _ (List.range ids.length) = _
  rw [hn, List.range_succ_eq_map, ← hn, routeActiveValidatorFrom]
  rw [Nat.add_zero, Nat.mod_mod, hget]
  simp only [hv.stored]
  rw [if_pos ⟨hv.subnet, hactive, hlocked, hne, hbound⟩]

/-- **Every routable pair with different stored commitments is the route of some request**, as far as the
    seeds reach. -/
theorem routeAssignment_reaches {subnet : ChainSubnet} {miner : ChainMiner}
    (hsubnet : reg.subnets subnetId = some subnet) (hactive : subnet.active = true)
    (hpair : RoutedPair cfg reg subnetId minerId validatorId miner validator)
    (hseeds : SeedsReach cfg subnetId (activeMinerRouteIds cfg reg subnetId).length
      (activeValidatorRouteIds cfg reg subnetId).length) :
    ∃ requestId blinding, routeAssignment cfg reg subnetId requestId blinding =
      some ⟨requestId, subnetId, minerId, validatorId⟩ := by
  have heligible := hpair.routable.eligible
  simp only [minerIsRouteEligible, Bool.and_eq_true, decide_eq_true_eq] at heligible
  obtain ⟨⟨hstatus, hlocked⟩, hbound⟩ := heligible
  -- place both searches at the pair
  obtain ⟨i, hi⟩ := List.mem_iff_getElem?.mp (mem_activeMinerRouteIds.mpr ⟨miner, hpair.routable⟩)
  obtain ⟨j, hj⟩ := List.mem_iff_getElem?.mp (mem_activeValidatorRouteIds.mpr ⟨validator, hpair.partner⟩)
  obtain ⟨requestId, blinding, hminer, hvalidator⟩ := hseeds i (List.getElem?_eq_some_iff.mp hi).1 j
    (List.getElem?_eq_some_iff.mp hj).1
  refine ⟨requestId, blinding, ?_⟩
  rw [← hvalidator] at hj
  have hroute := routeActiveValidator_eq hpair.partner hpair.distinct.symm hj
  unfold routeAssignment
  rw [hsubnet]
  simp only [Option.bind_eq_bind, Option.bind_some, hactive, Bool.not_true, Bool.false_eq_true, if_false]
  generalize activeMinerRouteIds cfg reg subnetId = ids at hi hminer
  have hlt : i < ids.length := (List.getElem?_eq_some_iff.mp hi).1
  obtain ⟨n, hn⟩ : ∃ n, ids.length = n + 1 := ⟨ids.length - 1, by omega⟩
  have hempty : ids.isEmpty = false := by
    cases ids with
    | nil => cases hlt
    | cons _ _ => rfl
  have hne : ids.length ≠ 0 := by omega
  simp only [hempty, Bool.false_eq_true, if_false, routeIndex, hne, Option.bind_some]
  rw [hn, List.range_succ_eq_map, ← hn, routeAssignmentFrom]
  simp only [Nat.add_zero, hminer, Nat.mod_eq_of_lt hlt, hi, hpair.routable.stored]
  rw [if_neg (by simp [hpair.routable.subnet, hstatus, hlocked, hbound]), hroute]
  simp only [hpair.partner.stored]
  have hdistinct : (ensureDistinctOperators miner validator).isOk = true := by
    have hok : ensureDistinctOperators miner validator = .ok () := ensure_eq_ok.mpr hpair.distinct
    rw [hok]
    rfl
  rw [if_pos hdistinct]
end Routes

/-! ## Two forms of one account -/

section SelfValidation
variable [FixedCodec A] {U : Set Bytes}

/-- Who operates the participants; each stored record carries one of the two commitments of its operator. -/
structure OperatedBy (cfg : Config A L w) (reg : Registry w) (minerOperator : MinerId → A)
    (validatorOperator : ValidatorId → A) : Prop where
  miners : ∀ id miner, reg.miners id = some miner →
    cfg.operatorCommitmentMatches miner.operatorCommitment (minerOperator id) = true
  validators : ∀ id validator, reg.validators id = some validator →
    cfg.operatorCommitmentMatches validator.operatorCommitment (validatorOperator id) = true

/-- One commitment is the role form and the other the legacy form of an account. -/
def MixedForms (cfg : Config A L w) (who : A) (a b : Commitment) : Prop :=
  (a = cfg.operatorCommitment who ∧ b = cfg.accountCommitment who) ∨
    (a = cfg.accountCommitment who ∧ b = cfg.operatorCommitment who)

/-- A miner and a validator that one account operates, stored in different forms. -/
def MixedPair (cfg : Config A L w) (minerOperator : MinerId → A) (validatorOperator : ValidatorId → A)
    (minerId : MinerId) (validatorId : ValidatorId) (miner : ChainMiner) (validator : ChainValidator) : Prop :=
  minerOperator minerId = validatorOperator validatorId ∧
    MixedForms cfg (minerOperator minerId) miner.operatorCommitment validator.operatorCommitment

variable {who claimed requestUser : A} {verify : ProofVerifier} {s s' : State L w} {origin : Origin A}
  {submission : InferenceProofSubmission} {assignmentBlinding : Commitment}
  {termsWitness : InferenceRequestTermsWitness w}

/-- Two different commitments that match one account are its two forms. -/
theorem mixedForms_of_matches {a b : Commitment} (ha : cfg.operatorCommitmentMatches a who = true)
    (hb : cfg.operatorCommitmentMatches b who = true) (hne : a ≠ b) : MixedForms cfg who a b := by
  simp only [Config.operatorCommitmentMatches, Bool.or_eq_true, decide_eq_true_eq] at ha hb
  rcases ha with rfl | rfl <;> rcases hb with rfl | rfl
  · exact absurd rfl hne
  · exact .inl ⟨rfl, rfl⟩
  · exact .inr ⟨rfl, rfl⟩
  · exact absurd rfl hne

/-- The account that matches a stored commitment, in whichever form, is its operator. -/
theorem operator_of_matches_both (hU : Set.InjOn cfg.blake2_256 U) {stored : Commitment} {operator : A}
    (hop : AccountIn U operator) (hclaimed : AccountIn U claimed)
    (hstored : cfg.operatorCommitmentMatches stored operator = true)
    (h : cfg.operatorCommitmentMatches stored claimed = true) : claimed = operator := by
  have hforms := hstored
  simp only [Config.operatorCommitmentMatches, Bool.or_eq_true, decide_eq_true_eq] at hforms h
  rcases hforms with rfl | rfl
  · refine operator_of_matches hU (operatorPreimage_mem hop) (operatorPreimage_mem hclaimed)
      (accountPreimage_mem hclaimed) ?_
    simpa [Config.operatorCommitmentMatches] using h
  · rcases h with h | h
    · exact absurd (hU (operatorPreimage_mem hclaimed) (accountPreimage_mem hop) h.symm)
        (roleAccountPreimage_ne_account (by decide) claimed operator)
    · exact encode_inj (hU (accountPreimage_mem hclaimed) (accountPreimage_mem hop) h.symm)

/-- A submission that is valid names a miner and a validator of the operators that act. -/
theorem validateSubmission_parties {policy : ProofVerificationPolicy} {validatorOperator minerOperator : A}
    (h : validateSubmission cfg s submission validatorOperator minerOperator assignmentBlinding = .ok policy) :
    ∃ miner validator, s.registry.miners submission.minerId = some miner ∧
      s.registry.validators submission.validatorId = some validator ∧
      miner.operatorCommitment ≠ validator.operatorCommitment ∧
      cfg.operatorCommitmentMatches miner.operatorCommitment minerOperator = true ∧
      cfg.operatorCommitmentMatches validator.operatorCommitment validatorOperator = true := by
  obtain ⟨⟨policy', miner, validator⟩, hrequest, h⟩ := bind_ok h
  obtain ⟨_, hminerOp, h⟩ := bind_ok h
  obtain ⟨_, hvalidatorOp, _⟩ := bind_ok h
  iterate 4 obtain ⟨_, _, hrequest⟩ := bind_ok hrequest
  obtain ⟨_, hrequest⟩ := ensure_ok hrequest
  obtain ⟨_, _, hrequest⟩ := okOr_ok hrequest
  iterate 2 obtain ⟨_, hrequest⟩ := ensure_ok hrequest
  obtain ⟨_, _, hrequest⟩ := bind_ok hrequest
  obtain ⟨_, _, hrequest⟩ := okOr_ok hrequest
  iterate 3 obtain ⟨_, hrequest⟩ := ensure_ok hrequest
  iterate 2 obtain ⟨_, _, hrequest⟩ := bind_ok hrequest
  obtain ⟨miner', hminer, hrequest⟩ := okOr_ok hrequest
  iterate 2 obtain ⟨_, hrequest⟩ := ensure_ok hrequest
  obtain ⟨validator', hvalidator, hrequest⟩ := okOr_ok hrequest
  obtain ⟨_, hrequest⟩ := ensure_ok hrequest
  obtain ⟨_, hdistinct, hrequest⟩ := bind_ok hrequest
  obtain ⟨_, _, hok⟩ := bind_ok hrequest
  cases pure_ok hok
  exact ⟨miner, validator, hminer, hvalidator, ensure_eq_ok.mp hdistinct, ensure_eq_ok.mp hminerOp,
    ensure_eq_ok.mp hvalidatorOp⟩

/-- The stored records of two participants are a mixed pair. -/
def StoredMixed (cfg : Config A L w) (reg : Registry w) (minerOperator : MinerId → A)
    (validatorOperator : ValidatorId → A) (minerId : MinerId) (validatorId : ValidatorId) : Prop :=
  ∃ miner validator, reg.miners minerId = some miner ∧ reg.validators validatorId = some validator ∧
    MixedPair cfg minerOperator validatorOperator minerId validatorId miner validator

/-- A routable mixed pair on an active subnet. -/
def RoutableMixed (cfg : Config A L w) (reg : Registry w) (minerOperator : MinerId → A)
    (validatorOperator : ValidatorId → A) (subnetId : SubnetId) : Prop :=
  ∃ subnet minerId validatorId miner validator,
    reg.subnets subnetId = some subnet ∧ subnet.active = true ∧
    RoutableMiner cfg reg subnetId minerId miner ∧
    RoutableValidator cfg reg subnetId validatorId validator ∧
    MixedPair cfg minerOperator validatorOperator minerId validatorId miner validator

variable {minerOperator : MinerId → A} {validatorOperator : ValidatorId → A}

section
variable (ops : OperatedBy cfg reg minerOperator validatorOperator)
include ops

/-- A routed pair is operated by one account exactly when it is mixed. -/
theorem OperatedBy.same_iff_mixed
    {minerId : MinerId} {validatorId : ValidatorId} {miner : ChainMiner} {validator : ChainValidator}
    (hpair : RoutedPair cfg reg subnetId minerId validatorId miner validator) :
    minerOperator minerId = validatorOperator validatorId ↔
      MixedPair cfg minerOperator validatorOperator minerId validatorId miner validator := by
  constructor
  · intro hsame
    have hm := ops.miners minerId miner hpair.routable.stored
    have hv := ops.validators validatorId validator hpair.partner.stored
    rw [← hsame] at hv
    exact ⟨hsame, mixedForms_of_matches hm hv hpair.distinct⟩
  · exact fun hmixed => hmixed.1

/-- Routing keeps operators apart exactly when the subnet has no routable mixed pair. -/
theorem OperatedBy.routes_apart_iff
    (hU : Set.InjOn cfg.blake2_256 U) (hminers : ∀ id, (reg.miners id).isSome → AccountIn U (minerOperator id))
    (hseeds : SeedsReach cfg subnetId (activeMinerRouteIds cfg reg subnetId).length
      (activeValidatorRouteIds cfg reg subnetId).length) :
    (∀ requestId blinding a, routeAssignment cfg reg subnetId requestId blinding = some a →
      minerOperator a.minerId ≠ validatorOperator a.validatorId) ↔
    ¬ RoutableMixed cfg reg minerOperator validatorOperator subnetId := by
  constructor
  · rintro hapart ⟨subnet, minerId, validatorId, miner, validator, hsubnet, hactive, hm, hv, hsame, hforms⟩
    have hwho := hminers minerId (by rw [hm.stored]; rfl)
    -- the two forms of an account differ
    have hne : cfg.operatorCommitment _ ≠ cfg.accountCommitment _ := fun heq =>
      absurd (hU (operatorPreimage_mem hwho) (accountPreimage_mem hwho) heq)
        (roleAccountPreimage_ne_account (by decide) _ _)
    have hdistinct : miner.operatorCommitment ≠ validator.operatorCommitment := by
      rcases hforms with ⟨ha, hb⟩ | ⟨ha, hb⟩
      · rw [ha, hb]; exact hne
      · rw [ha, hb]; exact hne.symm
    obtain ⟨requestId, blinding, hroute⟩ := routeAssignment_reaches hsubnet hactive ⟨hm, hv, hdistinct⟩ hseeds
    exact hapart requestId blinding _ hroute hsame
  · intro hnone requestId blinding a hroute hsame
    obtain ⟨⟨subnet, hsubnet, hactive⟩, miner, validator, hpair⟩ := routeAssignment_some hroute
    exact hnone ⟨subnet, a.minerId, a.validatorId, miner, validator, hsubnet, hactive, hpair.routable,
      hpair.partner, (ops.same_iff_mixed hpair).mp hsame⟩
end

/-- An accepted submission has one account on both sides exactly when the pair is mixed. -/
theorem OperatedBy.submission_same_iff (hU : Set.InjOn cfg.blake2_256 U)
    (ops : OperatedBy cfg s.registry minerOperator validatorOperator)
    (hminers : ∀ id, (s.registry.miners id).isSome → AccountIn U (minerOperator id))
    (hvalidators : ∀ id, (s.registry.validators id).isSome →
      AccountIn U (validatorOperator id)) (hsigner : SignerHashed cfg U origin)
    (hclaimed : AccountIn U claimed)
    (h : submitProof cfg verify s origin submission requestUser claimed assignmentBlinding termsWitness = .ok s') :
    signer cfg origin = some claimed ↔
      StoredMixed cfg s.registry minerOperator validatorOperator submission.minerId submission.validatorId := by
  obtain ⟨who, hpayload, h⟩ := bind_ok h
  obtain ⟨policy, hvalidate, _⟩ := bind_ok h
  obtain ⟨miner, validator, hminer, hvalidator, hdistinct, hmatchM, hmatchV⟩ := validateSubmission_parties hvalidate
  have hwho : signer cfg origin = some who := by simp [signer, hpayload]
  have hm := ops.miners _ miner hminer
  have hv := ops.validators _ validator hvalidator
  have hwhoH := hsigner who hpayload
  -- both accounts are the operators of the records they were matched against
  have hc : claimed = minerOperator submission.minerId :=
    operator_of_matches_both hU (hminers _ (by rw [hminer]; rfl)) hclaimed hm hmatchM
  have hw : who = validatorOperator submission.validatorId :=
    operator_of_matches_both hU (hvalidators _ (by rw [hvalidator]; rfl)) hwhoH hv hmatchV
  rw [hwho, Option.some.injEq]
  constructor
  · intro hsame
    have hops : minerOperator submission.minerId = validatorOperator submission.validatorId := by
      rw [← hc, ← hw, hsame]
    rw [← hops] at hv
    exact ⟨miner, validator, hminer, hvalidator, hops, mixedForms_of_matches hm hv hdistinct⟩
  · rintro ⟨_, _, _, _, hops, _⟩
    rw [hc, hw, hops]

/-- **Self-validation happens for mixed pairs, and for no others.** In a registry whose records carry one
    of the two commitments of their operators: a returned route joins a miner and a validator of one
    account exactly when their records are that account's two forms; on a subnet whose searches can start
    anywhere, routing keeps operators apart exactly when no routable pair is mixed; and an accepted
    submission is signed by the operator of the miner exactly when the pair is mixed. -/
theorem self_validation_iff_mixed (ops : OperatedBy cfg reg minerOperator validatorOperator)
    (hU : Set.InjOn cfg.blake2_256 U)
    (hminers : ∀ id, (reg.miners id).isSome → ∀ p ∈ accountPreimages (minerOperator id), p ∈ U)
    (hvalidators : ∀ id, (reg.validators id).isSome → ∀ p ∈ accountPreimages (validatorOperator id), p ∈ U) :
    (∀ subnetId requestId blinding a, routeAssignment cfg reg subnetId requestId blinding = some a →
      (minerOperator a.minerId = validatorOperator a.validatorId ↔
        StoredMixed cfg reg minerOperator validatorOperator a.minerId a.validatorId)) ∧
    (∀ subnetId, SeedsReach cfg subnetId (activeMinerRouteIds cfg reg subnetId).length
        (activeValidatorRouteIds cfg reg subnetId).length →
      ((∀ requestId blinding a, routeAssignment cfg reg subnetId requestId blinding = some a →
          minerOperator a.minerId ≠ validatorOperator a.validatorId) ↔
        ¬ RoutableMixed cfg reg minerOperator validatorOperator subnetId)) ∧
    ∀ verify (s s' : State L w) origin submission requestUser claimed assignmentBlinding termsWitness,
      s.registry = reg → SignerHashed cfg U origin → (∀ p ∈ accountPreimages claimed, p ∈ U) →
      submitProof cfg verify s origin submission requestUser claimed assignmentBlinding termsWitness = .ok s' →
      (signer cfg origin = some claimed ↔
        StoredMixed cfg reg minerOperator validatorOperator submission.minerId submission.validatorId) := by
  refine ⟨?_, fun subnetId hseeds => ops.routes_apart_iff hU hminers hseeds, ?_⟩
  · intro subnetId requestId blinding a hroute
    obtain ⟨_, miner, validator, hpair⟩ := routeAssignment_some hroute
    rw [ops.same_iff_mixed hpair]
    constructor
    · intro hmixed
      exact ⟨miner, validator, hpair.routable.stored, hpair.partner.stored, hmixed⟩
    · rintro ⟨miner', validator', hminer, hvalidator, hmixed⟩
      obtain rfl : miner = miner' := Option.some.inj (hpair.routable.stored.symm.trans hminer)
      obtain rfl : validator = validator' := Option.some.inj (hpair.partner.stored.symm.trans hvalidator)
      exact hmixed
  · intro verify s s' origin submission requestUser claimed assignmentBlinding termsWitness hreg hsigner
      hclaimed h
    subst hreg
    exact OperatedBy.submission_same_iff hU ops hminers hvalidators hsigner hclaimed h
end SelfValidation

/-! ### One account on both sides

Account 1 operates the only miner, stored under its role commitment, and the only validator, stored under
its legacy account commitment. -/

namespace Sample

def mixedMiner : ChainMiner where
  id := 0
  operatorCommitment := config.operatorCommitment 1
  subnetId := 0
  modelCommitment := commitment 50
  proofSystem := .stark
  bondCommitment := config.minerBondCommitment 0 (config.operatorCommitment 1) .active
  status := .active

def mixedValidator : ChainValidator where
  id := 0
  operatorCommitment := config.accountCommitment 1
  subnetId := 0
  stakeCommitment := config.validatorStakeCommitment 0 (config.accountCommitment 1) .active
  status := .active

def mixedRegistry : Registry 64 where
  subnetCount := 1
  minerCount := 1
  validatorCount := 1
  subnets id := if id = 0 then
      some ⟨0, config.subnetOwnerCommitment 1, .general, .stark, config.subnetPolicyCommitment 0 .general .stark, true⟩
    else none
  miners id := if id = 0 then some mixedMiner else none
  validators id := if id = 0 then some mixedValidator else none
  minerIdentity := IdentityStore.empty.set 0 ⟨some ⟨some (commitment 20), none⟩, some (bundle 21),
    some (config.minerIdentitySignatureChallenge 0 mixedMiner.operatorCommitment (some (commitment 20)) none)⟩
  validatorIdentity := IdentityStore.empty.set 0 ⟨some ⟨some (commitment 30), none⟩, some (bundle 31),
    some (config.validatorIdentitySignatureChallenge 0 mixedValidator.operatorCommitment (some (commitment 30)) none)⟩
  minerLockedBond id := if id = 0 then some 50 else none
  validatorLockedStake id := if id = 0 then some 60 else none

/-- The mixed registry, after account 7 opened a request. -/
def mixedOpened : State Ledger 64 :=
  (Exec.run config ⟨{ State.empty ⟨fun _ _ => 0, fun _ => 1000⟩ 1 with registry := mixedRegistry }, ⟨[], [], []⟩⟩
    [signed 7 (.requestInferenceAutoRoute 0 params)]).state

theorem mixedOpened_registry : mixedOpened.registry = mixedRegistry := by
  unfold mixedOpened Exec.run
  rw [List.foldl_cons, List.foldl_nil, signed]
  generalize hstart : ({ State.empty ⟨fun _ _ => 0, fun _ => 1000⟩ 1 with registry := mixedRegistry } :
    State Ledger 64) = s
  have hregistry : s.registry = mixedRegistry := by rw [← hstart]
  cases hdispatch : dispatch config (fun _ _ => .ok .valid) s (.signed 7) (.requestInferenceAutoRoute 0 params) with
  | error err => rw [Exec.step_of_error hdispatch, hregistry]
  | ok s' =>
    rw [Exec.step_of_ok hdispatch, ← hregistry]
    iterate 3 obtain ⟨_, _, hdispatch⟩ := bind_ok hdispatch
    obtain ⟨_, _, hdispatch⟩ := okOr_ok hdispatch
    iterate 5 obtain ⟨_, _, hdispatch⟩ := bind_ok hdispatch
    obtain rfl := pure_ok hdispatch
    rfl

/-- A submission for that request; the transcript is the hash of the rest. -/
def mixedSubmission : InferenceProofSubmission :=
  let submission : InferenceProofSubmission :=
    { requestId := 0, subnetId := 0, minerId := 0, validatorId := 0, inputCommitment := commitment 40
      outputCommitment := commitment 60, modelCommitment := commitment 50
      proof := ⟨commitment 61, commitment 62, commitment 63, .starkV1⟩
      proofSystem := .stark, proofSizeBytes := 100, verificationLatencyMs := 100, submittedAt := 1 }
  { submission with
    proof := { submission.proof with journalCommitment := config.proofTranscriptCommitment submission } }

theorem mixed_operatedBy : OperatedBy config mixedRegistry (fun _ => 1) (fun _ => 1) := by
  refine ⟨?_, ?_⟩
  · intro id miner hstored
    simp only [mixedRegistry, Option.ite_none_right_eq_some, Option.some.injEq] at hstored
    obtain ⟨_, rfl⟩ := hstored
    simp [Config.operatorCommitmentMatches, mixedMiner]
  · intro id validator hstored
    simp only [mixedRegistry, Option.ite_none_right_eq_some, Option.some.injEq] at hstored
    obtain ⟨_, rfl⟩ := hstored
    simp [Config.operatorCommitmentMatches, mixedValidator]
end Sample
open Sample

/-- **One account validates itself**: its mixed records are routed together, and a proof it submits as the
    validator, naming itself as the operator of the miner, is accepted and settled. -/
theorem self_validation_accepted :
    OperatedBy config mixedRegistry (fun _ => 1) (fun _ => 1) ∧
      mixedOpened.registry = mixedRegistry ∧
      routeAssignment config mixedRegistry 0 0 (commitment 41) = some ⟨0, 0, 0, 0⟩ ∧
      (submitProof config (fun _ _ => .ok .valid) mixedOpened (.signed 1)
        mixedSubmission 7 1 (commitment 41) ⟨⟨100, 500, 100⟩, commitment 43⟩).isOk = true :=
  ⟨mixed_operatedBy, mixedOpened_registry, by decide +kernel, by decide +kernel⟩

theorem self_validation_iff_mixed_sample : StoredMixed config mixedRegistry (fun _ => 1) (fun _ => 1) 0 0 := by
  have hinj : Set.InjOn config.blake2_256 {p | p ∈ accountPreimages (1 : UInt64)} := by
    have h : ∀ p ∈ accountPreimages (1 : UInt64), ∀ q ∈ accountPreimages (1 : UInt64),
        Sample.hash p = Sample.hash q → p = q := by decide +kernel
    exact fun p hp q hq => h p hp q hq
  have hroute : routeAssignment config mixedRegistry 0 0 (commitment 41) = some ⟨0, 0, 0, 0⟩ := by decide +kernel
  exact ((self_validation_iff_mixed mixed_operatedBy hinj (fun _ _ _ hp => hp)
    fun _ _ _ hp => hp).1 0 0 (commitment 41) _ hroute).mp rfl
end Qubitum
