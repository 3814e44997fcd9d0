import Qubitum.Protocol.Supply

/-!
# `Protocol.Atomicity` — what a failed operation leaves behind

An operation that returns `Err` should leave the state as it was. Most do: their last check comes before
their first balance move, or the move is the check. Two do not.

* `create_subnet` burns first and allocates the identifier afterwards; once all 65535 identifiers that the
  counter can hand out are used, the burn is kept and no subnet is created.
* A settlement makes three transfers in a row and stops at the first the payer cannot afford, with the
  earlier ones made.

`StopsMidway` says exactly when either happens to have moved money, in terms of the state before the call.
-/

namespace Qubitum
open Outcome Mutation MapSum

namespace ProtocolState
variable {s s' : ProtocolState} {a b : AccountId} {n : Balance} {op : Operation}

/-- Nothing an observer can read has changed. -/
structure Same (s s' : ProtocolState) : Prop where
  ledger : ∀ account, s'.ledger account = s.ledger account
  registry : SameRegistry s s'
  totalBurned : s'.totalBurned = s.totalBurned

theorem Same.trans {s'' : ProtocolState} (h : Same s s') (h' : Same s' s'') : Same s s'' :=
  ⟨fun account => (h'.ledger account).trans (h.ledger account), h.registry.trans h'.registry,
    h'.totalBurned.trans h.totalBurned⟩

theorem Same.free (h : Same s s') (a : AccountId) : s'.free a = s.free a := by
  unfold ProtocolState.free
  rw [h.ledger a]

theorem same_touched (h : Touched s s') : Same s s' := by
  refine ⟨fun account => ?_, sameRegistry_touched h, totalBurned_touched h⟩
  obtain rfl | ⟨a, rfl⟩ := h
  · rfl
  · by_cases ha : account = a
    · rw [ha, ledger_put_self]
    · rw [ledger_put_of_ne ha]

/-! ## What a transfer costs its source -/

/-- What leaves `a` when it transfers `n` to `b`: nothing, if they are the same account. -/
def spent (a b : AccountId) (n : Balance) : Nat := if b = a then 0 else n.toNat

theorem free_paid (h : n.toNat ≤ s.free a) : (s.paid a b n).free a + spent a b n = s.free a := by
  unfold paid credited spent
  rw [free_put]
  by_cases hab : a = b
  · subst hab
    simp only [if_true, debited, ledger_put_self, BitVec.sub_add_cancel]
    rfl
  · rw [if_neg hab, if_neg (Ne.symm hab)]
    unfold debited
    rw [free_put, if_pos rfl, toNat_sub_of_le h]
    unfold free at h ⊢
    omega

theorem free_of_paid (hs : s' = s.paid a b n) (h : n.toNat ≤ s.free a) : s'.free a + spent a b n = s.free a :=
  hs ▸ free_paid h

/-- A transfer that costs its source nothing changes no ledger. -/
theorem same_paid (h : spent a b n = 0) : Same s (s.paid a b n) := by
  refine ⟨fun account => ?_, sameRegistry_paid, rfl⟩
  unfold spent at h
  unfold paid credited debited
  by_cases hab : b = a
  · subst hab
    rw [ledger_put_self, put_put, BitVec.sub_add_cancel]
    exact (same_touched .put).ledger account
  · rw [if_neg hab] at h
    have hn : n = 0#128 := BitVec.eq_of_toNat_eq h
    subst hn
    rw [BitVec.sub_zero, BitVec.add_zero]
    exact (same_touched (s := s.put a (s.ledger a)) .put).ledger account |>.trans ((same_touched .put).ledger account)

/-! ## Stopping midway -/

/-- The payer can afford the first transfer but not all three, and some of its money is gone by then. -/
def PartPaid (s : ProtocolState) (call : SettlementCall) (minerOperator validatorOperator : AccountId)
    (settlement : InferenceSettlement) : Prop :=
  let toMiner := spent call.payer minerOperator settlement.minerPayment
  let toValidator := spent call.payer validatorOperator settlement.validatorFee
  settlement.minerPayment.toNat ≤ s.free call.payer ∧
    ((s.free call.payer < toMiner + settlement.validatorFee.toNat ∧ 0 < toMiner) ∨
      (toMiner + settlement.validatorFee.toNat ≤ s.free call.payer ∧
        s.free call.payer < toMiner + toValidator + settlement.treasuryFee.toNat ∧
        0 < toMiner + toValidator))

/-- The operation will fail after it has moved money. -/
def Operation.StopsMidway (s : ProtocolState) : Operation → Prop
  | .createSubnet owner _ creationBurn =>
      minerRegistrationBurn.toNat ≤ creationBurn.toNat ∧ creationBurn.toNat ≤ s.free owner ∧
        s.nextSubnetId.toNat = 65535
  | op =>
      ∃ call minerOperator validatorOperator settlement, op.settles s = some call ∧
        call.plan s = .ok (minerOperator, validatorOperator, settlement) ∧
        s.PartPaid call minerOperator validatorOperator settlement

theorem begins_of_stopsMidway (h : op.StopsMidway s) : op.Begins s := by
  cases op with
  | createSubnet => exact ⟨h.1, h.2.1⟩
  | _ =>
    obtain ⟨call, minerOperator, validatorOperator, settlement, hop, hplan, hpart⟩ := h
    exact ⟨call, minerOperator, validatorOperator, settlement, hop, hplan, hpart.1⟩

theorem stopsMidway_of_settles {call : SettlementCall} {minerOperator validatorOperator : AccountId}
    {settlement : InferenceSettlement} (hop : op.settles s = some call)
    (hplan : call.plan s = .ok (minerOperator, validatorOperator, settlement)) :
    op.StopsMidway s ↔ s.PartPaid call minerOperator validatorOperator settlement := by
  have hstops : op.StopsMidway s ↔ ∃ call minerOperator validatorOperator settlement,
      op.settles s = some call ∧ call.plan s = .ok (minerOperator, validatorOperator, settlement) ∧
        s.PartPaid call minerOperator validatorOperator settlement := by
    cases op with
    | createSubnet => cases hop
    | _ => exact Iff.rfl
  rw [hstops]
  constructor
  · rintro ⟨call', _, _, _, hop', hplan', hpart⟩
    cases hop.symm.trans hop'
    cases hplan.symm.trans hplan'
    exact hpart
  · exact fun h => ⟨call, minerOperator, validatorOperator, settlement, hop, hplan, h⟩

/-- **An operation that fails changes nothing, exactly unless it stops midway.** -/
theorem atomic_iff (hs : s.Reachable) {e : ProtocolError} (h : op.exec s = .error e s') :
    Same s s' ↔ ¬ op.StopsMidway s := by
  have hsound := hs.sound
  have he := exec_effect hsound.regular op
  rw [h] at he
  cases he with
  | refused ht hearly =>
    exact iff_of_true (same_touched ht) fun hstop => hearly (begins_of_stopsMidway hstop)
  | @subnetIdsExhausted owner domain creationBurn _ hmin hfree hnext =>
    -- the burn is at least the registration burn, so it shows in the burned total
    have hid := s.nextSubnetId.toNat_lt
    have hburned := (burnt_supply hsound hfree).2
    have hpos : minerRegistrationBurn.toNat = 10000000000 := rfl
    refine iff_of_false (fun hsame => ?_) (not_not.mpr ⟨hmin, hfree, by omega⟩)
    rw [hsame.totalBurned] at hburned
    omega
  | @partPaidMiner _ call minerOperator validatorOperator settlement s1 _ hop hplan h1 hs1 h2 =>
    rw [stopsMidway_of_settles hop hplan]
    have hcost := free_paid (b := minerOperator) h1
    rw [← hs1] at hcost
    have htouch : Same s1 (s1.put call.payer (s1.ledger call.payer)) := same_touched .put
    constructor
    · rintro hsame ⟨-, ⟨-, hpos⟩ | ⟨hle, -⟩⟩
      · have := hsame.free call.payer
        have := htouch.free call.payer
        omega
      · omega
    · intro hnot
      have hzero : spent call.payer minerOperator settlement.minerPayment = 0 := by
        by_contra hne
        exact hnot ⟨h1, Or.inl ⟨by omega, by omega⟩⟩
      exact (hs1 ▸ same_paid hzero : Same s s1).trans htouch
  | @partPaidValidator _ call minerOperator validatorOperator settlement s1 s2 _ hop hplan h1 hs1 h2 hs2 h3 =>
    rw [stopsMidway_of_settles hop hplan]
    have hcost1 := free_paid (b := minerOperator) h1
    have hcost2 := free_paid (b := validatorOperator) h2
    rw [← hs1] at hcost1
    rw [← hs2] at hcost2
    have htouch : Same s2 (s2.put call.payer (s2.ledger call.payer)) := same_touched .put
    constructor
    · rintro hsame ⟨-, ⟨hlt, -⟩ | ⟨-, -, hpos⟩⟩
      · omega
      · have := hsame.free call.payer
        have := htouch.free call.payer
        omega
    · intro hnot
      have hzero : spent call.payer minerOperator settlement.minerPayment +
          spent call.payer validatorOperator settlement.validatorFee = 0 := by
        by_contra hne
        exact hnot ⟨h1, Or.inr ⟨by omega, by omega, by omega⟩⟩
      have hsame1 : Same s s1 := hs1 ▸ same_paid (by omega)
      have hsame2 : Same s1 s2 := hs2 ▸ same_paid (by omega)
      exact (hsame1.trans hsame2).trans htouch

open Sample

/-- A proof for request 42 by the miner and the validator of the sample. -/
def submission : InferenceProofSubmission where
  requestId := 42
  subnetId := 0
  minerId := 0
  validatorId := 0
  inputCommitment := commitment 1
  outputCommitment := commitment 2
  modelCommitment := commitment 10
  proof := ⟨commitment 11, commitment 12, commitment 13, .riscZeroV1⟩
  proofSystem := .riscZeroStark
  proofSizeBytes := targetProofSizeMinBytes
  verificationLatencyMs := 10
  submittedAt := 77

/-- A payer with 980 cannot pay the miner's part of 97000: the call fails with nothing changed. -/
theorem atomic_unaffordable : let s := genesis.run opened
    let op : Operation := .submitValidProof (account 4) submission 100000 250 50
    Ends op.exec s (fun _ _ => False) fun e s' => e = .insufficientBalance ∧ Same s s' := by
  intro s op
  have hfails : Ends op.exec s (fun _ _ => False) fun e _ => e = .insufficientBalance := by decide +kernel
  have hbefore : ¬ op.StopsMidway s := by
    rintro ⟨call, minerOperator, validatorOperator, settlement, hop, hplan, hfirst, -⟩
    obtain rfl := Option.some.inj hop
    have hpoor : ∀ plan ∈ (s.settlementPlan submission 100000 250 50).toOption,
        s.free (account 4) < plan.2.2.minerPayment.toNat := by
      decide +kernel
    exact absurd hfirst (Nat.not_le.mpr (hpoor _ (by rw [show s.settlementPlan _ _ _ _ = _ from hplan]; rfl)))
  unfold Ends at hfails ⊢
  cases hrun : op.exec s with
  | ok _ _ =>
    rw [hrun] at hfails
    exact hfails.elim
  | error e s' =>
    rw [hrun] at hfails
    exact ⟨hfails, (atomic_iff ⟨_, _, _, opened, genesis_ok, rfl⟩ hrun).mpr hbefore⟩

/-- A payer with 980 settles a payment of 1000: the miner's 970 are transferred, then the validator's fee
    of 25 cannot be paid, and the call fails with the miner paid and no record written. -/
theorem settlement_part_paid : let s := genesis.run opened
    let op : Operation := .submitValidProof (account 4) submission 1000 250 50
    s.Reachable ∧
      Ends op.exec s (fun _ _ => False) (fun e s' => e = .insufficientBalance ∧
        s.free (account 4) = 980 ∧ s'.free (account 4) = 10 ∧
        s'.free (account 2) = s.free (account 2) + 970 ∧ s'.records.lookup 42 = none) := by
  refine ⟨⟨_, _, _, _, genesis_ok, rfl⟩, ?_⟩
  decide +kernel
end ProtocolState
end Qubitum
