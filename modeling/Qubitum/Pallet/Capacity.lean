import Qubitum.Pallet.RouteSet
import Qubitum.Pallet.Custody
import Qubitum.Pallet.Frames

/-!
# `Pallet.Capacity` — how many participants a subnet routes to

A participant enters the route set of its subnet by activation, by attesting while `Pending` (validators)
and by re-attesting while `Active` (miners), and each of these takes the capacity check itself; every other
call can only shrink the set. So the limits hold in every reachable execution (`route_capacity`).

`ensure_route_capacity` compares `ids.len() as u32`. A miner that re-attests has already been counted, so the
result for miners asks for a limit below `u32::MAX`, where the cast cannot wrap. An `Active` validator is always in
the route set (`RouteView.Armed`), so its re-attestation adds nobody.
-/

namespace Qubitum
open Scale Outcome Ledger Dense RouteView Function

variable {A L : Type} {w : Nat}

/-! ## The two kinds of participants -/

section Views
variable [Codec A] (cfg : Config A L w) (reg : Registry w)

def minerView : RouteView w where
  count := reg.minerCount
  entry id := (reg.miners id).map fun miner => (miner.subnetId, miner.status, miner.operatorCommitment)
  locked := reg.minerLockedBond
  identity := reg.minerIdentity.get

def validatorView : RouteView w where
  count := reg.validatorCount
  entry id := (reg.validators id).map fun validator =>
    (validator.subnetId, validator.status, validator.operatorCommitment)
  locked := reg.validatorLockedStake
  identity := reg.validatorIdentity.get

section
omit [Codec A]

def Config.minerRoute : RouteRule w where
  floor := cfg.minMinerBond
  bound id commitment identity :=
    (ensureStoredSignatureBundleBound cfg identity (cfg.minerIdentitySignatureChallenge id commitment) commitment).isOk

def Config.validatorRoute : RouteRule w where
  floor := cfg.minValidatorStake
  bound id commitment identity :=
    (ensureStoredSignatureBundleBound cfg identity (cfg.validatorIdentitySignatureChallenge id commitment)
      commitment).isOk

/-- The route set of the pallet is the one of the view, in another order. -/
theorem activeMinerRouteIds_perm (subnetId : SubnetId) :
    (activeMinerRouteIds cfg reg subnetId).Perm ((minerView reg).routeIds cfg.minerRoute subnetId) := by
  refine (List.perm_insertionSort _ _).trans (.of_eq ?_)
  unfold minerRecords
  rw [map_fst_filter_recordsBelow]
  refine List.filter_congr fun id _ => ?_
  cases hminer : reg.miners id with
  | none => simp [RouteView.eligible, minerView, hminer]
  | some miner =>
    simp only [RouteView.eligible, minerView, hminer, Option.any_some, Option.map_some]
    rfl

theorem activeValidatorRouteIds_perm (subnetId : SubnetId) : (activeValidatorRouteIds cfg reg subnetId).Perm
      ((validatorView reg).routeIds cfg.validatorRoute subnetId) := by
  refine (List.perm_insertionSort _ _).trans (.of_eq ?_)
  unfold validatorRecords
  rw [map_fst_filter_recordsBelow]
  refine List.filter_congr fun id _ => ?_
  cases hvalidator : reg.validators id with
  | none => simp [RouteView.eligible, validatorView, hvalidator]
  | some validator =>
    simp only [RouteView.eligible, validatorView, hvalidator, Option.any_some, Option.map_some]
    rfl
end
end Views

/-! ## The calls

Each lemma reads one call backwards, as far as the registry is concerned. -/

section Calls
variable [Codec A] {cfg : Config A L w} {s s' : State L w} {reg reg' : Registry w} {origin : Origin A}

/-- What a call does to the participants of both kinds. A miner can re-enter the route set. -/
structure Admits (cfg : Config A L w) (reg reg' : Registry w) : Prop where
  miners : ViewStep cfg.minerRoute cfg.maxActiveMinersPerSubnet True (minerView reg) (minerView reg')
  validators :
    ViewStep cfg.validatorRoute cfg.maxActiveValidatorsPerSubnet False (validatorView reg) (validatorView reg')

section Rewrites
variable {id : UInt64} {miner : ChainMiner} {validator : ChainValidator}

omit [Codec A] in
theorem minerView_entry (h : reg.miners id = some miner) :
    (minerView reg).entry id = some (miner.subnetId, miner.status, miner.operatorCommitment) := by
  simp only [minerView, h, Option.map_some]

omit [Codec A] in
theorem validatorView_entry (h : reg.validators id = some validator) :
    (validatorView reg).entry id = some (validator.subnetId, validator.status, validator.operatorCommitment) := by
  simp only [validatorView, h, Option.map_some]

variable {lock : Option (BitVec w)}

omit [Codec A] in
/-- One participant rewritten. -/
theorem RouteView.eq_put {v v' : RouteView w} {entry : SubnetId × RegistryStatus × Commitment}
    (hentry : v'.entry = update v.entry id (some entry)) (hlocked : v'.locked = update v.locked id lock)
    (hrest : v' = { v with entry := v'.entry, locked := v'.locked }) : v' = v.put id entry lock := by
  rw [hrest, hentry, hlocked]
  rfl
end Rewrites

variable {proofSystem : ProofSystem} {subnetId : SubnetId} {operator : A} {slashBps : UInt16}
  {expected : Option Commitment → Option Commitment → Commitment} {operatorCommitment : Commitment}
  {shielded endpoint shieldedIdentityCommitment endpointCommitment : Option Commitment}

theorem registerMiner_admits {modelCommitment : Commitment}
    (h : registerMiner cfg s origin subnetId modelCommitment proofSystem = .ok s') :
    Admits cfg s.registry s'.registry := by
  obtain ⟨operator, _, h⟩ := bind_ok h
  obtain ⟨_, _, h⟩ := bind_ok h
  obtain ⟨_, _, h⟩ := bind_ok h
  obtain ⟨subnet, _, h⟩ := okOr_ok h
  obtain ⟨_, h⟩ := ensure_ok h
  obtain ⟨s1, hburn, h⟩ := bind_ok h
  obtain ⟨⟨minerId, registry⟩, hnext, hok⟩ := bind_ok h
  obtain ⟨next, hadd, hreg⟩ := okOr_ok hnext
  obtain ⟨rfl, rfl⟩ := Prod.mk.inj (pure_ok hreg)
  obtain rfl := pure_ok hok
  rw [← burnFree_registry _ hburn]
  refine ⟨.registered subnetId (cfg.operatorCommitment operator) (Checked.add64_eq_some hadd) ?_
    (update_eq_self _ _).symm rfl, .same rfl⟩
  exact update_map _ _ _ _

theorem registerValidator_admits {stake : BitVec w}
    (h : registerValidator cfg s origin subnetId stake = .ok s') : Admits cfg s.registry s'.registry := by
  obtain ⟨operator, _, h⟩ := bind_ok h
  obtain ⟨_, h⟩ := ensure_ok h
  obtain ⟨_, h⟩ := ensure_ok h
  obtain ⟨⟨validatorId, registry⟩, hnext, h⟩ := bind_ok h
  obtain ⟨next, hadd, hreg⟩ := okOr_ok hnext
  obtain ⟨rfl, rfl⟩ := Prod.mk.inj (pure_ok hreg)
  obtain ⟨_, _, h⟩ := bind_ok h
  obtain ⟨ledger, _, hok⟩ := bind_ok h
  obtain rfl := pure_ok hok
  refine ⟨.same rfl, .registered subnetId (cfg.operatorCommitment operator) (Checked.add64_eq_some hadd) ?_ rfl rfl⟩
  exact update_map _ _ _ _

variable {minerId : MinerId} {validatorId : ValidatorId} {signatureBundle : SignatureBundle}

/-- **Activation** is checked before the miner counts. -/
theorem activateMiner_admits {bond : BitVec w} (h : activateMiner cfg s origin minerId bond = .ok s') :
    Admits cfg s.registry s'.registry := by
  obtain ⟨operator, _, h⟩ := bind_ok h
  obtain ⟨miner, hminer, h⟩ := okOr_ok h
  obtain ⟨_, _, h⟩ := bind_ok h
  obtain ⟨hstatus, h⟩ := ensure_ok h
  obtain ⟨_, h⟩ := ensure_ok h
  obtain ⟨⟨hmin, _⟩, h⟩ := ensure_ok h
  obtain ⟨_, _, h⟩ := bind_ok h
  obtain ⟨ledger, _, h⟩ := bind_ok h
  obtain ⟨_, hroom, hok⟩ := bind_ok h
  obtain rfl := pure_ok hok
  have hnot : minerId ∉ (minerView s.registry).routeIds cfg.minerRoute miner.subnetId := by
    rw [mem_routeIds]
    rintro ⟨-, commitment, hactive, -⟩
    rw [minerView_entry hminer, hstatus] at hactive
    cases hactive
  have hroom' := (ensureRouteCapacity_ok hroom (activeMinerRouteIds_perm cfg _ _)).2 hnot
  exact ⟨.activated_put (RouteView.eq_put (update_map ..) rfl rfl) rfl trivial (decide_eq_true hmin) hroom', .same rfl⟩

/-! ### Leaving and slashing -/

omit [Codec A] in
/-- A slash leaves a participant active only with capital at or above the floor. -/
theorem slashedStatus_active {floor remaining : BitVec w} {status : RegistryStatus}
    (h : slashedStatus floor remaining status = .active) : status = .active ∧ floor ≤ remaining := by
  unfold slashedStatus at h
  split at h
  · cases h
  · split at h
    · cases h
    · exact ⟨h, BitVec.not_lt.mp ‹_›⟩

theorem slashMinerBond_admits (h : slashMinerBond cfg s minerId operator slashBps = .ok s') :
    Admits cfg s.registry s'.registry := by
  obtain ⟨_, h⟩ := ensure_ok h
  obtain ⟨miner, hminer, h⟩ := okOr_ok h
  obtain ⟨_, _, h⟩ := bind_ok h
  obtain ⟨current, _, h⟩ := bind_ok h
  obtain ⟨⟨ledger, remaining⟩, _, hok⟩ := bind_ok h
  obtain rfl := pure_ok hok
  refine ⟨.rewritten (minerView_entry hminer) (RouteView.eq_put (update_map ..) rfl rfl) rfl fun hactive => ?_, .same rfl⟩
  obtain ⟨hwas, hfloor⟩ := slashedStatus_active hactive
  exact ⟨hwas, decide_eq_true hfloor⟩

theorem slashValidatorStake_admits (h : slashValidatorStake cfg s validatorId operator slashBps = .ok s') :
    Admits cfg s.registry s'.registry := by
  obtain ⟨_, h⟩ := ensure_ok h
  obtain ⟨validator, hvalidator, h⟩ := okOr_ok h
  obtain ⟨_, _, h⟩ := bind_ok h
  obtain ⟨current, _, h⟩ := bind_ok h
  obtain ⟨⟨ledger, remaining⟩, _, hok⟩ := bind_ok h
  obtain rfl := pure_ok hok
  refine ⟨.same rfl, .rewritten (validatorView_entry hvalidator) (RouteView.eq_put (update_map ..) rfl rfl) rfl
    fun hactive => ?_⟩
  obtain ⟨hwas, hfloor⟩ := slashedStatus_active hactive
  exact ⟨hwas, decide_eq_true hfloor⟩

/-! ### Identities -/

section
omit [Codec A]

variable (h : ensureIdentitySignatureBundleBound cfg signatureBundle (expected shielded endpoint)
  operatorCommitment shielded endpoint = .ok ())
include h

/-- A bundle that was just checked and stored is bound. -/
theorem stored_bound :
    (ensureStoredSignatureBundleBound cfg
      ⟨some ⟨shielded, endpoint⟩, some signatureBundle, some (expected shielded endpoint)⟩ expected
      operatorCommitment).isOk = true := by
  unfold ensureStoredSignatureBundleBound
  simp [okOr, ensure, h, bind, Except.bind, Except.isOk, Except.toBool]

theorem stored_bound_set {store : IdentityStore} {id : UInt64} :
    (ensureStoredSignatureBundleBound cfg
      ((store.set id ⟨some ⟨shielded, endpoint⟩, some signatureBundle, some (expected shielded endpoint)⟩).get id)
      expected operatorCommitment).isOk = true := by
  rw [IdentityStore.get_set_self]
  exact stored_bound h
end

/-- **Re-attesting** while active is checked with the new bundle in place. -/
theorem setMinerIdentityCommitments_admits
    (h : setMinerIdentityCommitments cfg s origin minerId shieldedIdentityCommitment endpointCommitment
      signatureBundle = .ok s') : Admits cfg s.registry s'.registry := by
  obtain ⟨operator, _, h⟩ := bind_ok h
  obtain ⟨miner, hminer, h⟩ := okOr_ok h
  obtain ⟨_, _, h⟩ := bind_ok h
  obtain ⟨_, _, h⟩ := bind_ok h
  obtain ⟨_, _, h⟩ := bind_ok h
  obtain ⟨_, h⟩ := ensure_ok h
  have hoff : ∀ identity, AgreeOff minerId (minerView s.registry)
      (minerView { s.registry with minerIdentity := s.registry.minerIdentity.set minerId identity }) :=
    fun identity => ⟨rfl, fun _ _ => rfl, fun _ _ => rfl, fun _ hne => IdentityStore.get_set_of_ne _ _ hne⟩
  split at h
  · obtain ⟨_, _, h⟩ := bind_ok h
    split at h
    · rename_i hstatus
      obtain ⟨_, _, h⟩ := bind_ok h
      obtain ⟨_, hroom, hok⟩ := bind_ok h
      obtain rfl := pure_ok hok
      have hroom' := ensureRouteCapacity_ok hroom (activeMinerRouteIds_perm cfg _ _)
      have hwas := minerView_entry hminer
      rw [hstatus] at hwas
      exact ⟨.reattested (hoff _) trivial hwas rfl rfl hroom'.1, .same rfl⟩
    · rename_i hstatus
      obtain rfl := pure_ok h
      refine ⟨.inactive (hoff _) fun subnetId commitment hentry => hstatus ?_, .same rfl⟩
      have hmap := (minerView_entry hminer).symm.trans hentry
      exact (Prod.mk.inj (Prod.mk.inj (Option.some.inj hmap)).2).1
  · obtain ⟨_, _, hok⟩ := bind_ok h
    obtain rfl := pure_ok hok
    refine ⟨.cleared (hoff _) trivial rfl rfl fun commitment => ?_, .same rfl⟩
    show (ensureStoredSignatureBundleBound cfg
      ((s.registry.minerIdentity.set minerId ⟨none, none, none⟩).get minerId) _ _).isOk = false
    rw [IdentityStore.get_set_self]
    rfl

/-- **Attesting** carries a pending validator into the route set, checked before it counts. -/
theorem setValidatorIdentityCommitments_admits
    (h : setValidatorIdentityCommitments cfg s origin validatorId shieldedIdentityCommitment
      endpointCommitment signatureBundle = .ok s') : Admits cfg s.registry s'.registry := by
  obtain ⟨operator, _, h⟩ := bind_ok h
  obtain ⟨validator, hvalidator, h⟩ := okOr_ok h
  obtain ⟨_, _, h⟩ := bind_ok h
  obtain ⟨_, _, h⟩ := bind_ok h
  obtain ⟨_, _, h⟩ := bind_ok h
  obtain ⟨_, h⟩ := ensure_ok h
  have hoff : ∀ identity validators, (∀ id, id ≠ validatorId → validators id = s.registry.validators id) →
      AgreeOff validatorId (validatorView s.registry) (validatorView { s.registry with
        validators, validatorIdentity := s.registry.validatorIdentity.set validatorId identity }) :=
    fun identity validators hrest => ⟨rfl, fun id hne => by simp only [validatorView, hrest id hne], fun _ _ => rfl,
      fun _ hne => IdentityStore.get_set_of_ne _ _ hne⟩
  have hwas := validatorView_entry hvalidator
  split at h
  · obtain ⟨_, hbundle, h⟩ := bind_ok h
    split at h
    · rename_i hstatus
      obtain ⟨_, hstake, h⟩ := bind_ok h
      obtain ⟨_, h⟩ := ensure_ok h
      obtain ⟨_, hroom, hok⟩ := bind_ok h
      obtain rfl := pure_ok hok
      -- the check ran on the pending record, which counts with the new identity as little as with the old
      have hmid := hoff ⟨some ⟨shieldedIdentityCommitment, endpointCommitment⟩, some signatureBundle,
        some (cfg.validatorIdentitySignatureChallenge validatorId validator.operatorCommitment
          shieldedIdentityCommitment endpointCommitment)⟩ s.registry.validators fun _ _ => rfl
      have hpending : ∀ subnetId commitment,
          (validatorView s.registry).entry validatorId ≠ some (subnetId, .active, commitment) := by
        intro subnetId commitment hentry
        rw [hwas, hstatus] at hentry
        cases hentry
      have hroom' := (ensureRouteCapacity_ok hroom (activeValidatorRouteIds_perm cfg _ _)).2 fun hmem => by
        obtain ⟨commitment, hentry, -⟩ := (mem_routeIds.mp hmem).eligible
        exact hpending _ commitment hentry
      rw [length_eq_of_inactive hmid ⟨rfl, fun _ _ => rfl, fun _ _ => rfl,
        fun id hne => (hmid.identity id hne).symm⟩ hpending hpending] at hroom'
      refine ⟨.same rfl, .activated validator.operatorCommitment
        (hoff _ _ fun _ hne => update_of_ne hne _ _) ?_ ?_ (fun _ => stored_bound_set hbundle) hroom'⟩
      · exact (validatorView_entry (update_self ..)).trans rfl
      · exact ensure_eq_ok.mp hstake
    · rename_i hnotPending
      obtain ⟨hstatus, h⟩ := ensure_ok h
      obtain ⟨_, hroom, hok⟩ := bind_ok h
      obtain rfl := pure_ok hok
      have hactive := hstatus.resolve_right hnotPending
      rw [hactive] at hwas
      refine ⟨.same rfl, .refreshed (hoff _ _ fun _ hne => update_of_ne hne _ _) not_false hwas ?_ rfl
        (stored_bound_set hbundle)⟩
      exact (validatorView_entry (update_self ..)).trans rfl
  · obtain ⟨_, _, hok⟩ := bind_ok h
    obtain rfl := pure_ok hok
    by_cases hactive : validator.status = .active
    · simp only [if_pos hactive]
      refine ⟨.same rfl, .inactive (hoff _ _ fun _ hne => update_of_ne hne _ _) ?_⟩
      intro subnetId commitment hentry
      cases (validatorView_entry (update_self ..)).symm.trans hentry
    · simp only [if_neg hactive]
      refine ⟨.same rfl, .inactive (hoff _ _ fun _ _ => rfl) fun subnetId commitment hentry => hactive ?_⟩
      have hmap := hwas.symm.trans hentry
      exact (Prod.mk.inj (Prod.mk.inj (Option.some.inj hmap)).2).1

/-! ## Runs -/

/-- Both kinds of participants are within their limits; the miners, if the cast cannot wrap. -/
structure Capped (cfg : Config A L w) (reg : Registry w) : Prop where
  minersArmed : (minerView reg).Armed cfg.minerRoute True
  validatorsArmed : (validatorView reg).Armed cfg.validatorRoute False
  miners : cfg.maxActiveMinersPerSubnet.toNat + 1 < 2 ^ 32 →
    Within cfg.minerRoute cfg.maxActiveMinersPerSubnet (minerView reg)
  validators : Within cfg.validatorRoute cfg.maxActiveValidatorsPerSubnet (validatorView reg)

omit [Codec A] in
theorem Admits.capped (h : Admits cfg reg reg') (hc : Capped cfg reg) : Capped cfg reg' where
  minersArmed := h.miners.armed hc.minersArmed
  validatorsArmed := h.validators.armed hc.validatorsArmed
  miners hmax := (h.miners.routes hc.minersArmed).within (hc.miners hmax) fun _ => hmax
  validators := (h.validators.routes hc.validatorsArmed).within hc.validators nofun

omit [Codec A] in
theorem Capped.empty : Capped cfg .empty where
  minersArmed _ _ _ h := nomatch h
  validatorsArmed _ _ _ h := nomatch h
  miners _ _ := Nat.zero_le _
  validators _ := Nat.zero_le _

/-- **Every successful call keeps the limits.** -/
theorem dispatch_capped {verify : ProofVerifier} {call : Call A w} (hc : Capped cfg s.registry) :
    Yields (fun s' => Capped cfg s'.registry) (dispatch cfg verify s origin call) := by
  refine dispatch_registry hc (fun _ _ _ _ h => (slashMinerBond_admits h).capped hc)
    (fun _ hc _ _ _ _ h => (slashValidatorStake_admits h).capped hc) fun hown s' h => Admits.capped ?_ hc
  cases call with
  | createSubnet =>
    obtain ⟨owner, _, h⟩ := bind_ok h
    obtain ⟨_, _, h⟩ := bind_ok h
    obtain ⟨s1, hburn, h⟩ := bind_ok h
    obtain ⟨⟨subnetId, registry⟩, hnext, hok⟩ := bind_ok h
    obtain ⟨next, _, hreg⟩ := okOr_ok hnext
    obtain ⟨rfl, rfl⟩ := Prod.mk.inj (pure_ok hreg)
    obtain rfl := pure_ok hok
    rw [← burnFree_registry _ hburn]
    exact ⟨.same rfl, .same rfl⟩
  | registerMiner => exact registerMiner_admits h
  | activateMiner => exact activateMiner_admits h
  | registerValidator => exact registerValidator_admits h
  | deactivateMiner =>
    obtain ⟨operator, _, h⟩ := bind_ok h
    obtain ⟨exitAt, _, h⟩ := okOr_ok h
    obtain ⟨miner, hminer, h⟩ := okOr_ok h
    obtain ⟨_, _, h⟩ := bind_ok h
    obtain ⟨_, h⟩ := ensure_ok h
    obtain ⟨_, hok⟩ := ensure_ok h
    obtain rfl := pure_ok hok
    exact ⟨.rewritten (minerView_entry hminer) (RouteView.eq_put (update_map ..) (update_eq_self _ _).symm rfl)
      rfl nofun, .same rfl⟩
  | withdrawMinerBond =>
    obtain ⟨operator, _, h⟩ := bind_ok h
    obtain ⟨miner, hminer, h⟩ := okOr_ok h
    obtain ⟨_, _, h⟩ := bind_ok h
    split at h
    · obtain ⟨_, h⟩ := ensure_ok h
      obtain ⟨bond, _, h⟩ := bind_ok h
      obtain ⟨ledger, _, hok⟩ := bind_ok h
      obtain rfl := pure_ok hok
      exact ⟨.rewritten (minerView_entry hminer) (RouteView.eq_put (update_map ..) rfl rfl) rfl nofun, .same rfl⟩
    · cases h
  | deactivateValidator =>
    obtain ⟨operator, _, h⟩ := bind_ok h
    obtain ⟨exitAt, _, h⟩ := okOr_ok h
    obtain ⟨validator, hvalidator, h⟩ := okOr_ok h
    obtain ⟨_, _, h⟩ := bind_ok h
    obtain ⟨_, h⟩ := ensure_ok h
    obtain ⟨_, hok⟩ := ensure_ok h
    obtain rfl := pure_ok hok
    exact ⟨.same rfl, .rewritten (validatorView_entry hvalidator)
      (RouteView.eq_put (update_map ..) (update_eq_self _ _).symm rfl) rfl nofun⟩
  | withdrawValidatorStake =>
    obtain ⟨operator, _, h⟩ := bind_ok h
    obtain ⟨validator, hvalidator, h⟩ := okOr_ok h
    obtain ⟨_, _, h⟩ := bind_ok h
    split at h
    · obtain ⟨_, h⟩ := ensure_ok h
      obtain ⟨stake, _, h⟩ := bind_ok h
      obtain ⟨ledger, _, hok⟩ := bind_ok h
      obtain rfl := pure_ok hok
      exact ⟨.same rfl, .rewritten (validatorView_entry hvalidator) (RouteView.eq_put (update_map ..) rfl rfl) rfl nofun⟩
    · cases h
  | setMinerIdentityCommitments => exact setMinerIdentityCommitments_admits h
  | setValidatorIdentityCommitments => exact setValidatorIdentityCommitments_admits h
  | _ => exact hown.elim

theorem Reachable.capped {U : Set Bytes} {e : Exec A L w} (h : Reachable cfg U e) : Capped cfg e.state.registry := by
  induction h with
  | empty ledger blockNumber unheld => exact .empty
  | @step e action hashed _ ih =>
    cases action with
    | advance blocks => exact ih
    | dispatch verify origin call =>
      cases hdispatch : Qubitum.dispatch cfg verify e.state origin call with
      | error err => rw [Exec.step_of_error hdispatch]; exact ih
      | ok s' => rw [Exec.step_of_ok hdispatch]; exact dispatch_capped ih s' hdispatch
  | outside ledger held _ ih => exact ih

/-- **Routing capacity.** In every reachable execution, whatever the currency, the hash and the verifiers
    answer, no subnet routes to more validators than their limit, and to no more miners than theirs, if
    that is below `u32::MAX`. -/
theorem route_capacity {U : Set Bytes} {e : Exec A L w} (h : Reachable cfg U e) (subnetId : SubnetId) :
    (cfg.maxActiveMinersPerSubnet.toNat < 2 ^ 32 - 1 →
      (activeMinerRouteIds cfg e.state.registry subnetId).length ≤ cfg.maxActiveMinersPerSubnet.toNat) ∧
    (activeValidatorRouteIds cfg e.state.registry subnetId).length ≤ cfg.maxActiveValidatorsPerSubnet.toNat := by
  have hc := h.capped
  refine ⟨fun hmax => ?_, ?_⟩
  · rw [(activeMinerRouteIds_perm cfg _ _).length_eq]
    exact hc.miners (by omega) subnetId
  · rw [(activeValidatorRouteIds_perm cfg _ _).length_eq]
    exact hc.validators subnetId
end Calls

theorem route_capacity_opened :
    (activeMinerRouteIds Sample.config Sample.opened.state.registry 0).length ≤ 8 ∧
      (activeValidatorRouteIds Sample.config Sample.opened.state.registry 0).length ≤ 8 :=
  ⟨(route_capacity Sample.opened_reachable 0).1 (by decide), (route_capacity Sample.opened_reachable 0).2⟩

end Qubitum
