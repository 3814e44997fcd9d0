import Qubitum.Pallet.Invariant

/-!
# `Pallet.Capital` — the calls about subnets, participants and their capital

Each successful call of this group is a `Transition` that leaves the request book alone. A call is read
backwards once (its guards, the records it found, the state it built); what it did is then stated as a
step of one side.
-/

namespace Qubitum
open Scale Outcome Ledger Tally Dense Function

variable {A L : Type} {w : Nat} [FixedCodec A] [DecidableEq A] {cfg : Config A L w} {U : Set Bytes}
  {e e' : Exec A L w} {s' : State L w} {origin : Origin A}

/-! ## Identifying the operator -/

section
omit [DecidableEq A]

/-- The commitments of an account were hashed within `U`. -/
abbrev AccountIn (U : Set Bytes) (who : A) : Prop := ∀ p ∈ accountPreimages who, p ∈ U

/-- The commitments of the account a call acts for were hashed within `U`. -/
def SignerHashed (cfg : Config A L w) (U : Set Bytes) (origin : Origin A) : Prop :=
  ∀ who, ensurePayloadSigner cfg origin = .ok who → ∀ p ∈ accountPreimages who, p ∈ U
end

variable {who operator : A} {lock : Option (BitVec w)} {minerId : MinerId} {remaining : BitVec w} {slashBps : UInt16}
  {old : RegistryStatus} {validatorId : ValidatorId} {miner : ChainMiner} {validator : ChainValidator}

section
omit [DecidableEq A]

theorem accountPreimage_mem (h : AccountIn U who) : accountPreimage who ∈ U := h _ (by simp [accountPreimages])

theorem operatorPreimage_mem (h : AccountIn U who) : operatorPreimage who ∈ U := h _ (by simp [accountPreimages])

theorem requestUserPreimage_mem (h : AccountIn U who) : requestUserPreimage who ∈ U := h _ (by simp [accountPreimages])
end

namespace Invariant
variable {who : A} {id : MinerId}

/-- An account accepted as the operator of a stored participant is the one that registered it. -/
theorem operator_of_side {p : Side A w} {bearing : RegistryStatus → Bool} {floor : BitVec w}
    (hsound : p.Sound ⟨bearing, floor, cfg.operatorCommitment⟩) (hU : Set.InjOn cfg.blake2_256 U)
    (hops : ∀ q ∈ p.operators, operatorPreimage q.2 ∈ U) {id : UInt64} {commitment : Commitment}
    {status : RegistryStatus} (hwho : AccountIn U who) (hrec : p.record id = some (commitment, status))
    (hmatch : cfg.operatorCommitmentMatches commitment who = true) :
    (id, who) ∈ p.operators ∧ commitment = cfg.operatorCommitment who := by
  obtain ⟨operator, hp, rfl⟩ := hsound.operator_of_record hrec
  obtain rfl := operator_of_matches hU (hops _ hp) (operatorPreimage_mem hwho) (accountPreimage_mem hwho) hmatch
  exact ⟨hp, rfl⟩

variable {id : ValidatorId} {cfg : Config A L w} (inv : Invariant cfg U e)

section
variable (hU : Set.InjOn cfg.blake2_256 U) (hwho : AccountIn U who)
include inv hU hwho

theorem minerOperator (hm : e.state.registry.miners id = some miner)
    (hop : ensureMinerOperator cfg miner who = .ok ()) :
    (id, who) ∈ e.history.minerOperators ∧ miner.operatorCommitment = cfg.operatorCommitment who :=
  operator_of_side inv.miners hU inv.hashed.miners hwho (Exec.minerSide_record hm) (ensure_eq_ok.mp hop)

theorem validatorOperator (hv : e.state.registry.validators id = some validator)
    (hop : cfg.operatorCommitmentMatches validator.operatorCommitment who = true) :
    (id, who) ∈ e.history.validatorOperators ∧ validator.operatorCommitment = cfg.operatorCommitment who :=
  operator_of_side inv.validators hU inv.hashed.validators hwho (Exec.validatorSide_record hv) hop
end

/-! ## The record of a participant -/

omit [FixedCodec A] in
theorem minerLockOk [Codec A] (inv : Invariant cfg U e) (hm : e.state.registry.miners id = some miner) :
    cfg.minerRule.LockOk miner.status (e.state.registry.minerLockedBond id) :=
  inv.miners.lockOk id miner.operatorCommitment miner.status (Exec.minerSide_record hm)

omit [FixedCodec A] in
theorem validatorLockOk [Codec A] (inv : Invariant cfg U e) (hv : e.state.registry.validators id = some validator) :
    cfg.validatorRule.LockOk validator.status (e.state.registry.validatorLockedStake id) :=
  inv.validators.lockOk id validator.operatorCommitment validator.status (Exec.validatorSide_record hv)

include inv in
/-- **The account-wide fallback is never taken**: a bond is read from the miner's own record. -/
theorem lockedMinerBond_eq_ok {bond : BitVec w} :
    lockedMinerBond cfg e.state.registry e.state.ledger id who = .ok bond ↔
      e.state.registry.minerLockedBond id = some bond := by
  unfold lockedMinerBond
  cases hlock : e.state.registry.minerLockedBond id with
  | some x => simp
  | none =>
    simp only [reduceCtorEq, iff_false]
    intro h
    obtain ⟨miner, hm, h⟩ := okOr_ok h
    obtain ⟨_, _, h⟩ := bind_ok h
    obtain ⟨⟨hbearing, _⟩, _⟩ := ensure_ok h
    -- a bearing status comes with a record
    have hsome := (inv.minerLockOk hm).present.mpr hbearing
    rw [hlock] at hsome
    cases hsome

include inv in
/-- **The account-wide fallback is never taken**: a stake is read from the validator's own record. -/
theorem lockedValidatorStake_eq_ok {stake : BitVec w} :
    lockedValidatorStake cfg e.state.registry e.state.ledger id who = .ok stake ↔
      e.state.registry.validatorLockedStake id = some stake := by
  unfold lockedValidatorStake
  cases hlock : e.state.registry.validatorLockedStake id with
  | some x => simp
  | none =>
    simp only [reduceCtorEq, iff_false]
    intro h
    obtain ⟨validator, hv, h⟩ := okOr_ok h
    obtain ⟨_, _, h⟩ := bind_ok h
    obtain ⟨⟨hbearing, _⟩, _⟩ := ensure_ok h
    have hsome := (inv.validatorLockOk hv).present.mpr hbearing
    rw [hlock] at hsome
    cases hsome
end Invariant

/-! ## Steps of one side -/

theorem update_map {R S : Type} (f : UInt64 → Option R) (g : R → S) (id : UInt64) (r : R) :
    (fun i => (update f id (some r) i).map g) = update (fun i => (f i).map g) id (some (g r)) := by
  funext i
  by_cases hi : i = id
  · subst hi; simp
  · simp [hi]

variable {proofSystem : ProofSystem} {subnetId : SubnetId} {ledger ledger' : L} {reason : HoldReason}
  {current : BitVec w} {rule : CapitalRule A w} {identity : Identity} {events : List Event}
  {shieldedIdentityCommitment endpointCommitment : Option Commitment} {signatureBundle : SignatureBundle}

omit [FixedCodec A] [DecidableEq A] in
/-- A side of which nothing but the funds could have changed is unchanged if they are. -/
theorem Side.eq_of_held {p p' : Side A w} (hrest : p' = { p with held := p'.held }) (hheld : ∀ a, p'.held a = p.held a) :
    p' = p := by
  rw [hrest, funext hheld]

variable (hx : cfg.currency.Exact) (hU : Set.InjOn cfg.blake2_256 U) (inv : Invariant cfg U e)
  (hs : SignerHashed cfg U origin)

/-! ## Subnets and registrations -/

section
include hx

omit [FixedCodec A] in
theorem burnFree_ok {s s' : State L w} {amount : BitVec w}
    (h : burnFree cfg s who amount = .ok s') :
    ∃ ledger, (∀ reason a, cfg.currency.heldNat ledger reason a = cfg.currency.heldNat s.ledger reason a) ∧
      s' = { s with ledger, totals := s.totals.recordBurned } := by
  obtain ⟨⟨burned, ledger⟩, hburn, hok⟩ := bind_ok h
  obtain rfl := pure_ok hok
  have hshift := (hx.burnFrom (mapError_eq_ok.mp hburn)).2
  exact ⟨ledger, fun reason a => hshift.heldNat_eq rfl, rfl⟩

theorem createSubnet_transition {domain : SubnetDomain}
    (h : createSubnet cfg e.state origin domain proofSystem = .ok s') : Transition cfg e ⟨s', e.history⟩ := by
  obtain ⟨owner, _, h⟩ := bind_ok h
  obtain ⟨_, _, h⟩ := bind_ok h
  obtain ⟨s1, hburn, h⟩ := bind_ok h
  obtain ⟨ledger, hheld, rfl⟩ := burnFree_ok hx hburn
  obtain ⟨⟨subnetId, registry⟩, hnext, hok⟩ := bind_ok h
  obtain ⟨next, _, hreg⟩ := okOr_ok hnext
  obtain ⟨rfl, rfl⟩ := Prod.mk.inj (pure_ok hreg)
  obtain rfl := pure_ok hok
  exact ⟨.same (Side.eq_of_held rfl (hheld _)), .same (Side.eq_of_held rfl (hheld _)),
    .same rfl rfl (hheld _)⟩

include inv in
theorem registerMiner_transition {modelCommitment : Commitment}
    (h : registerMiner cfg e.state origin subnetId modelCommitment proofSystem = .ok s') :
    Transition cfg e ⟨s', e.history.record cfg e.state origin
      (.registerMiner subnetId modelCommitment proofSystem)⟩ := by
  obtain ⟨operator, hwho, h⟩ := bind_ok h
  obtain ⟨_, _, h⟩ := bind_ok h
  obtain ⟨_, _, h⟩ := bind_ok h
  obtain ⟨subnet, _, h⟩ := okOr_ok h
  obtain ⟨_, h⟩ := ensure_ok h
  obtain ⟨s1, hburn, h⟩ := bind_ok h
  obtain ⟨ledger, hheld, rfl⟩ := burnFree_ok hx hburn
  obtain ⟨⟨minerId, registry⟩, hnext, hok⟩ := bind_ok h
  obtain ⟨next, hadd, hreg⟩ := okOr_ok hnext
  obtain ⟨rfl, rfl⟩ := Prod.mk.inj (pure_ok hreg)
  obtain rfl := pure_ok hok
  refine ⟨?_, .same (Side.eq_of_held rfl (hheld _)), .same rfl rfl (hheld _)⟩
  refine .registered operator .pending none (Checked.add64_eq_some hadd) ?_ ?_ ?_ ?_ rfl ?_
  · exact update_map _ _ _ _
  · exact (update_eq_self_iff.mpr inv.miners.locked_count.symm).symm
  · intro a
    rw [lockedAmount_none, ite_self, add_zero]
    exact hheld .minerBond a
  · simp [Exec.minerSide, History.record, signer, hwho]
  · exact ⟨by simp [Config.minerRule, minerCapitalBearingStatus], by rintro ⟨⟩⟩

theorem registerValidator_transition {stake : BitVec w}
    (h : registerValidator cfg e.state origin subnetId stake = .ok s') :
    Transition cfg e ⟨s', e.history.record cfg e.state origin (.registerValidator subnetId stake)⟩ := by
  obtain ⟨operator, hwho, h⟩ := bind_ok h
  obtain ⟨_, h⟩ := ensure_ok h
  obtain ⟨hstake, h⟩ := ensure_ok h
  obtain ⟨⟨validatorId, registry⟩, hnext, h⟩ := bind_ok h
  obtain ⟨next, hadd, hreg⟩ := okOr_ok hnext
  obtain ⟨rfl, rfl⟩ := Prod.mk.inj (pure_ok hreg)
  obtain ⟨_, _, h⟩ := bind_ok h
  obtain ⟨ledger, hhold, hok⟩ := bind_ok h
  obtain rfl := pure_ok hok
  have hshift := hx.hold (mapError_eq_ok.mp hhold)
  refine ⟨.same (Side.eq_of_held rfl fun a => hshift.held_of_ne rfl a (by decide)), ?_,
    .same rfl rfl fun a => hshift.held_of_ne rfl a (by decide)⟩
  refine .registered operator .pending (some stake) (Checked.add64_eq_some hadd) ?_ rfl ?_ ?_ rfl ?_
  · exact update_map _ _ _ _
  · intro a
    exact hshift.held_added rfl a
  · simp [Exec.validatorSide, History.record, signer, hwho]
  · exact ⟨by simp [Config.validatorRule, validatorCapitalBearingStatus], by rintro ⟨⟩⟩

/-! ## Activation -/

include hU inv hs in
theorem activateMiner_transition {bond : BitVec w}
    (h : activateMiner cfg e.state origin minerId bond = .ok s') : Transition cfg e ⟨s', e.history⟩ := by
  obtain ⟨operator, hwho, h⟩ := bind_ok h
  obtain ⟨miner, hminer, h⟩ := okOr_ok h
  obtain ⟨_, hop, h⟩ := bind_ok h
  obtain ⟨hstatus, h⟩ := ensure_ok h
  obtain ⟨_, h⟩ := ensure_ok h
  obtain ⟨⟨hmin, _⟩, h⟩ := ensure_ok h
  obtain ⟨_, _, h⟩ := bind_ok h
  obtain ⟨ledger, hhold, h⟩ := bind_ok h
  obtain ⟨_, _, hok⟩ := bind_ok h
  obtain rfl := pure_ok hok
  obtain ⟨hp, hc⟩ := inv.minerOperator hU (hs operator hwho) hminer hop
  have hshift := hx.hold (mapError_eq_ok.mp hhold)
  -- a pending miner has no record yet
  have hlock : e.state.registry.minerLockedBond minerId = none := by
    have hpresent := (inv.minerLockOk hminer).present
    rw [hstatus] at hpresent
    simpa [Config.minerRule, minerCapitalBearingStatus] using hpresent
  refine ⟨.put hp hc (Exec.minerSide_record hminer) hlock rfl (update_map ..) rfl ?_ rfl (fun _ _ => rfl) ?_
      (.inr ⟨rfl, ?_⟩),
    .same (Side.eq_of_held rfl fun a => hshift.held_of_ne rfl a (by decide)),
    .same rfl rfl fun a => hshift.held_of_ne rfl a (by decide)⟩
  · intro a
    rw [lockedAmount_none, ite_self, add_zero]
    exact hshift.held_added rfl a
  · exact ⟨by simp [Config.minerRule, minerCapitalBearingStatus], fun _ => ⟨bond, rfl, hmin⟩⟩
  · intro hwork
    exact .inl rfl

/-! ## Slashing -/

omit [FixedCodec A] in
/-- Slashing burns exactly what it takes off the record. -/
theorem slashCapital_ok (h : slashCapital cfg ledger reason who current slashBps = .ok (ledger', remaining)) :
    ∃ burned : BitVec w, proRata current slashBps = .ok burned ∧ burned.toNat ≤ current.toNat ∧
      cfg.currency.Shift ledger ledger' (.burnHeld reason who burned) ∧
      ∀ a, cfg.currency.heldNat ledger' reason a + (if who = a then current.toNat else 0) =
        cfg.currency.heldNat ledger reason a + if who = a then remaining.toNat else 0 := by
  obtain ⟨slashAmount, hamount, h⟩ := bind_ok h
  obtain ⟨⟨burned, ledger1⟩, hburn, h⟩ := bind_ok h
  obtain ⟨rest, hsub, hok⟩ := okOr_ok h
  obtain ⟨rfl, rfl⟩ := Prod.mk.inj (pure_ok hok)
  obtain ⟨rfl, hshift⟩ := hx.burnHeld (mapError_eq_ok.mp hburn)
  have hsum := Checked.sub_eq_some hsub
  refine ⟨burned, hamount, by omega, hshift, fun a => ?_⟩
  have htaken := hshift.held_taken rfl a
  split_ifs at htaken ⊢ <;> omega
end

omit [FixedCodec A] [DecidableEq A] in
/-- A slashed participant still meets the rule: below the floor it is `Slashed` or leaving. -/
theorem slashedStatus_lockOk (hslashed : rule.bearing .slashed = true) (h : rule.LockOk old (some current)) :
    rule.LockOk (slashedStatus rule.floor remaining old) (some remaining) := by
  have hold : rule.bearing old = true := h.present.mp rfl
  have hbearing : rule.bearing (slashedStatus rule.floor remaining old) = true := by
    unfold slashedStatus
    split
    · exact hold
    · split
      · exact hslashed
      · exact hold
  refine ⟨⟨fun _ => hbearing, fun _ => rfl⟩, fun hactive => ⟨remaining, rfl, ?_⟩⟩
  unfold slashedStatus at hactive
  split at hactive
  · cases hactive
  · split at hactive
    · cases hactive
    · rename_i hge
      exact BitVec.not_lt.mp hge

theorem slashedStatus_working {floor : BitVec w} (h : old.Working) : (slashedStatus floor remaining old).Working := by
  rcases h with rfl | rfl <;> simp only [slashedStatus] <;> split <;>
    simp [RegistryStatus.Working]

/-- A slash leaves the requests, the escrow and the free balances alone. -/
structure LeavesRequests (cfg : Config A L w) (s s' : State L w) : Prop where
  requests : s'.requests = s.requests
  escrow : ∀ a, cfg.currency.heldNat s'.ledger .inferencePayment a = cfg.currency.heldNat s.ledger .inferencePayment a
  free : ∀ a, cfg.currency.freeNat s'.ledger a = cfg.currency.freeNat s.ledger a

section
variable (hwho : AccountIn U operator)
include hx hU inv hwho

theorem slashMinerBond_ok (h : slashMinerBond cfg e.state minerId operator slashBps = .ok s') :
    SideStep cfg.minerRule e.state.requests.pendingMiner (e.minerSide cfg)
        (Exec.minerSide cfg ⟨s', e.history⟩) ∧
      Exec.validatorSide cfg ⟨s', e.history⟩ = e.validatorSide cfg ∧ LeavesRequests cfg e.state s' := by
  obtain ⟨_, h⟩ := ensure_ok h
  obtain ⟨miner, hminer, h⟩ := okOr_ok h
  obtain ⟨_, hop, h⟩ := bind_ok h
  obtain ⟨current, hlocked, h⟩ := bind_ok h
  obtain ⟨⟨ledger, remaining⟩, hslash, hok⟩ := bind_ok h
  obtain rfl := pure_ok hok
  obtain ⟨hp, hc⟩ := inv.minerOperator hU hwho hminer hop
  have hlock := inv.lockedMinerBond_eq_ok.mp hlocked
  obtain ⟨burned, -, -, hshift, hburned⟩ := slashCapital_ok hx hslash
  refine ⟨.put hp hc (Exec.minerSide_record hminer) hlock rfl (update_map ..) rfl hburned rfl (fun _ _ => rfl)
      ?_ (.inr ⟨rfl, slashedStatus_working⟩),
    Side.eq_of_held rfl fun a => hshift.held_of_ne rfl a (by decide),
    ⟨rfl, fun a => hshift.held_of_ne rfl a (by decide), fun a => hshift.freeNat_eq rfl⟩⟩
  have hrule := inv.minerLockOk hminer
  rw [hlock] at hrule
  exact slashedStatus_lockOk rfl hrule

theorem slashValidatorStake_ok (h : slashValidatorStake cfg e.state validatorId operator slashBps = .ok s') :
    SideStep cfg.validatorRule e.state.requests.pendingValidator (e.validatorSide cfg)
        (Exec.validatorSide cfg ⟨s', e.history⟩) ∧
      Exec.minerSide cfg ⟨s', e.history⟩ = e.minerSide cfg ∧ LeavesRequests cfg e.state s' := by
  obtain ⟨_, h⟩ := ensure_ok h
  obtain ⟨validator, hvalidator, h⟩ := okOr_ok h
  obtain ⟨_, hop, h⟩ := bind_ok h
  obtain ⟨current, hlocked, h⟩ := bind_ok h
  obtain ⟨⟨ledger, remaining⟩, hslash, hok⟩ := bind_ok h
  obtain rfl := pure_ok hok
  obtain ⟨hp, hc⟩ := inv.validatorOperator hU hwho hvalidator (ensure_eq_ok.mp hop)
  have hlock := inv.lockedValidatorStake_eq_ok.mp hlocked
  obtain ⟨burned, -, -, hshift, hburned⟩ := slashCapital_ok hx hslash
  refine ⟨.put hp hc (Exec.validatorSide_record hvalidator) hlock rfl (update_map ..) rfl hburned rfl (fun _ _ => rfl)
      ?_ (.inr ⟨rfl, slashedStatus_working⟩),
    Side.eq_of_held rfl fun a => hshift.held_of_ne rfl a (by decide),
    ⟨rfl, fun a => hshift.held_of_ne rfl a (by decide), fun a => hshift.freeNat_eq rfl⟩⟩
  have hrule := inv.validatorLockOk hvalidator
  rw [hlock] at hrule
  exact slashedStatus_lockOk rfl hrule

theorem slashMinerBond_keeps (h : slashMinerBond cfg e.state minerId operator slashBps = .ok s') :
    Invariant cfg U ⟨s', e.history⟩ ∧ LeavesRequests cfg e.state s' := by
  obtain ⟨hminers, hvalidators, hleaves⟩ := slashMinerBond_ok hx hU inv hwho h
  exact ⟨Transition.invariant ⟨hminers, .same hvalidators, .same hleaves.requests rfl hleaves.escrow⟩ inv inv.hashed,
    hleaves⟩

theorem slashValidatorStake_keeps (h : slashValidatorStake cfg e.state validatorId operator slashBps = .ok s') :
    Invariant cfg U ⟨s', e.history⟩ ∧ LeavesRequests cfg e.state s' := by
  obtain ⟨hvalidators, hminers, hleaves⟩ := slashValidatorStake_ok hx hU inv hwho h
  exact ⟨Transition.invariant ⟨.same hminers, hvalidators, .same hleaves.requests rfl hleaves.escrow⟩ inv inv.hashed,
    hleaves⟩

theorem slashMiner_transition (h : slashMiner cfg e.state origin minerId operator slashBps = .ok s') :
    Transition cfg e ⟨s', e.history⟩ := by
  obtain ⟨_, _, h⟩ := bind_ok h
  obtain ⟨_, _, h⟩ := bind_ok h
  obtain ⟨_, h⟩ := ensure_ok h
  obtain ⟨_, h⟩ := ensure_ok h
  obtain ⟨s1, hslash, hok⟩ := bind_ok h
  obtain rfl := pure_ok hok
  obtain ⟨hminers, hvalidators, hleaves⟩ := slashMinerBond_ok hx hU inv hwho hslash
  exact ⟨hminers, .same hvalidators, .same hleaves.requests rfl hleaves.escrow⟩

theorem slashValidator_transition (h : slashValidator cfg e.state origin validatorId operator slashBps = .ok s') :
    Transition cfg e ⟨s', e.history⟩ := by
  obtain ⟨_, _, h⟩ := bind_ok h
  obtain ⟨_, _, h⟩ := bind_ok h
  obtain ⟨_, h⟩ := ensure_ok h
  obtain ⟨_, h⟩ := ensure_ok h
  obtain ⟨s1, hslash, hok⟩ := bind_ok h
  obtain rfl := pure_ok hok
  obtain ⟨hvalidators, hminers, hleaves⟩ := slashValidatorStake_ok hx hU inv hwho hslash
  exact ⟨.same hminers, hvalidators, .same hleaves.requests rfl hleaves.escrow⟩
end

/-! ## Leaving -/

omit [FixedCodec A] [DecidableEq A] in
/-- Between bearing statuses other than `Active` the record may stay as it is. -/
theorem CapitalRule.LockOk.keep {status : RegistryStatus} (h : rule.LockOk old lock)
    (hold : rule.bearing old = true) (hnew : rule.bearing status = true) (hne : status ≠ .active) :
    rule.LockOk status lock :=
  ⟨⟨fun _ => hnew, fun _ => h.present.mpr hold⟩, fun hactive => absurd hactive hne⟩

omit [FixedCodec A] in
include hx in
/-- Withdrawing releases exactly the record, also when it is empty. -/
theorem releaseCapital_ok {capital : BitVec w} (h : releaseCapital cfg ledger reason who capital = .ok ledger') :
    (∀ a, cfg.currency.heldNat ledger' reason a + (if who = a then capital.toNat else 0) =
        cfg.currency.heldNat ledger reason a) ∧
      ∀ r a, r ≠ reason → cfg.currency.heldNat ledger' r a = cfg.currency.heldNat ledger r a := by
  unfold releaseCapital at h
  split at h
  · rename_i hzero
    cases h
    exact ⟨fun a => by simp [hzero], fun _ _ _ => rfl⟩
  · have hshift := hx.release (mapError_eq_ok.mp h)
    exact ⟨hshift.held_taken rfl, fun r a => hshift.held_of_ne rfl a⟩

section
include hU inv hs

theorem deactivateMiner_transition (h : deactivateMiner cfg e.state origin minerId = .ok s') :
    Transition cfg e ⟨s', e.history⟩ := by
  obtain ⟨operator, hwho, h⟩ := bind_ok h
  obtain ⟨exitAt, _, h⟩ := okOr_ok h
  obtain ⟨miner, hminer, h⟩ := okOr_ok h
  obtain ⟨_, hop, h⟩ := bind_ok h
  obtain ⟨hstatus, h⟩ := ensure_ok h
  obtain ⟨hidle, hok⟩ := ensure_ok h
  obtain rfl := pure_ok hok
  obtain ⟨hp, hc⟩ := inv.minerOperator hU (hs operator hwho) hminer hop
  refine ⟨.put hp hc (Exec.minerSide_record hminer) rfl rfl (update_map ..) (update_eq_self _ _).symm (fun _ => rfl) rfl
    (fun _ _ => rfl) ?_ (.inl hidle), .same rfl, .same rfl rfl fun _ => rfl⟩
  refine (inv.minerLockOk hminer).keep ?_ rfl (by simp)
  rcases hstatus with h | h <;> rw [h] <;> rfl

theorem deactivateValidator_transition (h : deactivateValidator cfg e.state origin validatorId = .ok s') :
    Transition cfg e ⟨s', e.history⟩ := by
  obtain ⟨operator, hwho, h⟩ := bind_ok h
  obtain ⟨exitAt, _, h⟩ := okOr_ok h
  obtain ⟨validator, hvalidator, h⟩ := okOr_ok h
  obtain ⟨_, hop, h⟩ := bind_ok h
  obtain ⟨hstatus, h⟩ := ensure_ok h
  obtain ⟨hidle, hok⟩ := ensure_ok h
  obtain rfl := pure_ok hok
  obtain ⟨hp, hc⟩ := inv.validatorOperator hU (hs operator hwho) hvalidator (ensure_eq_ok.mp hop)
  refine ⟨.same rfl, .put hp hc (Exec.validatorSide_record hvalidator) rfl rfl (update_map ..) (update_eq_self _ _).symm
    (fun _ => rfl) rfl (fun _ _ => rfl) ?_ (.inl hidle), .same rfl rfl fun _ => rfl⟩
  refine (inv.validatorLockOk hvalidator).keep ?_ rfl (by simp)
  rcases hstatus with h | h | h <;> rw [h] <;> rfl

include hx in
theorem withdrawMinerBond_transition (h : withdrawMinerBond cfg e.state origin minerId = .ok s') :
    Transition cfg e ⟨s', e.history⟩ := by
  obtain ⟨operator, hwho, h⟩ := bind_ok h
  obtain ⟨miner, hminer, h⟩ := okOr_ok h
  obtain ⟨_, hop, h⟩ := bind_ok h
  obtain ⟨hp, hc⟩ := inv.minerOperator hU (hs operator hwho) hminer hop
  split at h
  · rename_i exitAt hstatus
    obtain ⟨_, h⟩ := ensure_ok h
    obtain ⟨bond, hlocked, h⟩ := bind_ok h
    obtain ⟨ledger, hrelease, hok⟩ := bind_ok h
    obtain rfl := pure_ok hok
    have hlock := inv.lockedMinerBond_eq_ok.mp hlocked
    obtain ⟨hheld, hother⟩ := releaseCapital_ok hx hrelease
    refine ⟨.put hp hc (Exec.minerSide_record hminer) hlock rfl (update_map ..) rfl ?_ rfl (fun _ _ => rfl) ?_
      (.inr ⟨rfl, ?_⟩),
      .same (Side.eq_of_held rfl fun a => hother _ a (by decide)),
      .same rfl rfl fun a => hother _ a (by decide)⟩
    · intro a
      rw [lockedAmount_none, ite_self, add_zero]
      exact hheld a
    · exact ⟨by simp [Config.minerRule, minerCapitalBearingStatus], by rintro ⟨⟩⟩
    · -- an exiting miner is not working
      intro hwork
      rw [hstatus] at hwork
      rcases hwork with h | h <;> cases h
  · cases h

include hx in
theorem withdrawValidatorStake_transition (h : withdrawValidatorStake cfg e.state origin validatorId = .ok s') :
    Transition cfg e ⟨s', e.history⟩ := by
  obtain ⟨operator, hwho, h⟩ := bind_ok h
  obtain ⟨validator, hvalidator, h⟩ := okOr_ok h
  obtain ⟨_, hop, h⟩ := bind_ok h
  obtain ⟨hp, hc⟩ := inv.validatorOperator hU (hs operator hwho) hvalidator (ensure_eq_ok.mp hop)
  split at h
  · rename_i exitAt hstatus
    obtain ⟨_, h⟩ := ensure_ok h
    obtain ⟨stake, hlocked, h⟩ := bind_ok h
    obtain ⟨ledger, hrelease, hok⟩ := bind_ok h
    obtain rfl := pure_ok hok
    have hlock := inv.lockedValidatorStake_eq_ok.mp hlocked
    obtain ⟨hheld, hother⟩ := releaseCapital_ok hx hrelease
    refine ⟨.same (Side.eq_of_held rfl fun a => hother _ a (by decide)),
      .put hp hc (Exec.validatorSide_record hvalidator) hlock rfl (update_map ..) rfl ?_ rfl (fun _ _ => rfl) ?_
        (.inr ⟨rfl, ?_⟩),
      .same rfl rfl fun a => hother _ a (by decide)⟩
    · intro a
      rw [lockedAmount_none, ite_self, add_zero]
      exact hheld a
    · exact ⟨by simp [Config.validatorRule, validatorCapitalBearingStatus], by rintro ⟨⟩⟩
    · intro hwork
      rw [hstatus] at hwork
      rcases hwork with h | h <;> cases h
  · cases h
end

/-! ## Identities -/

include inv in
/-- A miner without open work replaced its identity, and nothing else. -/
theorem minerIdentity_transition (hminer : e.state.registry.miners minerId = some miner)
    (hp : (minerId, operator) ∈ e.history.minerOperators)
    (hc : miner.operatorCommitment = cfg.operatorCommitment operator)
    (hidle : e.state.requests.pendingMiner minerId = 0) : Transition cfg e
      ⟨{ e.state with
          registry := { e.state.registry with
            minerIdentity := e.state.registry.minerIdentity.set minerId identity }
          events }, e.history⟩ := by
  refine ⟨.put hp hc (Exec.minerSide_record hminer) rfl rfl ?_ (update_eq_self _ _).symm (fun _ => rfl) rfl ?_
    (inv.minerLockOk hminer) (.inl hidle), .same rfl, .same rfl rfl fun _ => rfl⟩
  · exact (update_eq_self_iff.mpr (Exec.minerSide_record hminer).symm).symm
  · exact fun _ hne => IdentityStore.get_set_of_ne _ _ hne

include hU inv hs in
theorem setMinerIdentityCommitments_transition
    (h : setMinerIdentityCommitments cfg e.state origin minerId shieldedIdentityCommitment endpointCommitment
      signatureBundle = .ok s') : Transition cfg e ⟨s', e.history⟩ := by
  obtain ⟨operator, hwho, h⟩ := bind_ok h
  obtain ⟨miner, hminer, h⟩ := okOr_ok h
  obtain ⟨_, hop, h⟩ := bind_ok h
  obtain ⟨_, _, h⟩ := bind_ok h
  obtain ⟨_, _, h⟩ := bind_ok h
  obtain ⟨hidle, h⟩ := ensure_ok h
  obtain ⟨hp, hc⟩ := inv.minerOperator hU (hs operator hwho) hminer hop
  split at h
  · obtain ⟨_, _, h⟩ := bind_ok h
    -- an active miner must still have its bond and fit the subnet; this changes nothing
    split at h
    · obtain ⟨_, _, h⟩ := bind_ok h
      obtain ⟨_, _, hok⟩ := bind_ok h
      obtain rfl := pure_ok hok
      exact minerIdentity_transition inv hminer hp hc hidle
    · obtain rfl := pure_ok h
      exact minerIdentity_transition inv hminer hp hc hidle
  · obtain ⟨_, _, hok⟩ := bind_ok h
    obtain rfl := pure_ok hok
    exact minerIdentity_transition inv hminer hp hc hidle

omit [DecidableEq A] in
/-- A record that passes the stake check is one an active validator may have. -/
theorem validatorLockOk_active {reg : Registry w} (h : ensureValidatorLockedStakeRecord cfg reg validatorId = .ok ()) :
    cfg.validatorRule.LockOk .active (reg.validatorLockedStake validatorId) := by
  have hrec := ensure_eq_ok.mp h
  unfold validatorHasActiveLockedStakeRecord at hrec
  split at hrec
  · rename_i stake hstake
    rw [hstake]
    exact ⟨⟨fun _ => rfl, fun _ => rfl⟩, fun _ => ⟨stake, rfl, of_decide_eq_true hrec⟩⟩
  · cases hrec

/-- A validator without open work replaced its identity and its status, keeping its record. -/
theorem validatorIdentity_transition {validators : ValidatorId → Option ChainValidator} {status : RegistryStatus}
    (hvalidator : e.state.registry.validators validatorId = some validator)
    (hp : (validatorId, operator) ∈ e.history.validatorOperators)
    (hc : validator.operatorCommitment = cfg.operatorCommitment operator)
    (hrecord : (fun id => (validators id).map fun validator => (validator.operatorCommitment, validator.status)) =
      update (e.validatorSide cfg).record validatorId (some (validator.operatorCommitment, status)))
    (hok : cfg.validatorRule.LockOk status (e.state.registry.validatorLockedStake validatorId))
    (hidle : e.state.requests.pendingValidator validatorId = 0) : Transition cfg e
      ⟨{ e.state with
          registry := { e.state.registry with
            validators
            validatorIdentity := e.state.registry.validatorIdentity.set validatorId identity }
          events }, e.history⟩ := by
  exact ⟨.same rfl, .put hp hc (Exec.validatorSide_record hvalidator) rfl rfl hrecord (update_eq_self _ _).symm
    (fun _ => rfl) rfl (fun _ hne => IdentityStore.get_set_of_ne _ _ hne) hok (.inl hidle), .same rfl rfl fun _ => rfl⟩

include hU inv hs in
theorem setValidatorIdentityCommitments_transition
    (h : setValidatorIdentityCommitments cfg e.state origin validatorId shieldedIdentityCommitment
      endpointCommitment signatureBundle = .ok s') : Transition cfg e ⟨s', e.history⟩ := by
  obtain ⟨operator, hwho, h⟩ := bind_ok h
  obtain ⟨validator, hvalidator, h⟩ := okOr_ok h
  obtain ⟨_, hop, h⟩ := bind_ok h
  obtain ⟨_, _, h⟩ := bind_ok h
  obtain ⟨_, _, h⟩ := bind_ok h
  obtain ⟨hidle, h⟩ := ensure_ok h
  obtain ⟨hp, hc⟩ := inv.validatorOperator hU (hs operator hwho) hvalidator (ensure_eq_ok.mp hop)
  have hrule := inv.validatorLockOk hvalidator
  split at h
  · obtain ⟨_, _, h⟩ := bind_ok h
    -- the validator ends up active: it was, or it was pending and its stake was just checked
    split at h
    · obtain ⟨_, hstake, h⟩ := bind_ok h
      obtain ⟨_, h⟩ := ensure_ok h
      obtain ⟨_, _, hok⟩ := bind_ok h
      obtain rfl := pure_ok hok
      exact validatorIdentity_transition (e := e) hvalidator hp hc (update_map ..) (validatorLockOk_active hstake) hidle
    · rename_i hnotPending
      obtain ⟨hstatus, h⟩ := ensure_ok h
      obtain ⟨_, _, hok⟩ := bind_ok h
      obtain rfl := pure_ok hok
      exact validatorIdentity_transition (e := e) hvalidator hp hc (update_map ..)
        ((hstatus.resolve_right hnotPending) ▸ hrule) hidle
  · obtain ⟨_, _, hok⟩ := bind_ok h
    obtain rfl := pure_ok hok
    by_cases hactive : validator.status = .active
    · -- without an identity an active validator falls back to pending, its stake staying locked
      simp only [if_pos hactive]
      exact validatorIdentity_transition (e := e) hvalidator hp hc (update_map ..)
        (hrule.keep (by rw [hactive]; rfl) rfl (by simp)) hidle
    · simp only [if_neg hactive]
      exact validatorIdentity_transition (e := e) hvalidator hp hc
        (update_eq_self_iff.mpr (@Exec.validatorSide_record _ _ _ cfg _ _ _ hvalidator).symm).symm hrule hidle
end Qubitum
