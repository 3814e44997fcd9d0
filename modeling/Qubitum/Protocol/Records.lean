import Qubitum.Protocol.Atomicity
import Qubitum.Protocol.Backing

/-!
# `Protocol.Records` — one settlement per request, and who is slashed

Two laws over whole runs: once a request is recorded, its record stays and nobody is charged for it again
(`SettledOnce`); and a rejected proof cuts only the bond of a miner that was active on the subnet of the
submission (`SlashesRightly`).

Neither is checked by the code. `submit_valid_proof` does not look whether the request is recorded, and the
rejecting branch of `process_proof` slashes whatever miner the submission names. The run satisfies both
laws exactly when no operation of it is such a second settlement (`Resettles`) or such a misdirected slash
(`Misdirects`); both are stated on the state before the operation.
-/

namespace Qubitum
open Outcome Mutation MapSum

namespace ProtocolState
variable {s s' : ProtocolState} {op : Operation} {r : RequestId}

/-- Who pays in an operation about request `r`. -/
def Operation.payerFor (r : RequestId) : Operation → Option AccountId
  | .submitValidProof payer submission _ _ _ => if submission.requestId = r then some payer else none
  | .processProof payer submission _ _ _ _   => if submission.requestId = r then some payer else none
  | _                                        => none

/-- The operation takes money from the payer of request `r`. -/
def Charged (s : ProtocolState) (op : Operation) (r : RequestId) : Prop :=
  ∃ payer, op.payerFor r = some payer ∧ (s.step op).free payer < s.free payer

/-- The bond of a miner is smaller after the operation. -/
def CutsBond (s : ProtocolState) (op : Operation) (minerId : MinerId) (miner : MinerRegistration) : Prop :=
  s.miners.lookup minerId = some miner ∧
    ∃ miner', (s.step op).miners.lookup minerId = some miner' ∧ miner'.bond.toNat < miner.bond.toNat

/-- Once a request is recorded, no later operation changes the record or charges for the request. -/
def SettledOnce (s : ProtocolState) (ops : List Operation) : Prop :=
  ∀ pre mid op post, ops = pre ++ mid ++ op :: post → ∀ r record,
    (s.run pre).records.lookup r = some record →
    (s.run (pre ++ mid ++ [op])).records.lookup r = some record ∧ ¬ (s.run (pre ++ mid)).Charged op r

/-- Processing a proof cuts only bonds of miners that were active on the subnet of the submission. -/
def SlashesRightly (s : ProtocolState) (ops : List Operation) : Prop :=
  ∀ pre payer submission payment validatorFeeBps treasuryFeeBps verify post,
    ops = pre ++ .processProof payer submission payment validatorFeeBps treasuryFeeBps verify :: post →
    ∀ minerId miner,
      (s.run pre).CutsBond (.processProof payer submission payment validatorFeeBps treasuryFeeBps verify)
        minerId miner →
      miner.status = .active ∧ miner.subnetId = submission.subnetId

/-! ## Settling again -/

/-- The payer can make all three transfers of a settlement. -/
def Affords (s : ProtocolState) (call : SettlementCall) (minerOperator validatorOperator : AccountId)
    (settlement : InferenceSettlement) : Prop :=
  let toMiner := spent call.payer minerOperator settlement.minerPayment
  let toValidator := spent call.payer validatorOperator settlement.validatorFee
  settlement.minerPayment.toNat ≤ s.free call.payer ∧
    toMiner + settlement.validatorFee.toNat ≤ s.free call.payer ∧
    toMiner + toValidator + settlement.treasuryFee.toNat ≤ s.free call.payer

instance (s : ProtocolState) (call : SettlementCall) (minerOperator validatorOperator : AccountId)
    (settlement : InferenceSettlement) :
    Decidable (s.Affords call minerOperator validatorOperator settlement) :=
  inferInstanceAs (Decidable (_ ∧ _ ∧ _))

/-- What leaves the payer, in the transfers that come before the first it cannot make. -/
def cost (s : ProtocolState) (call : SettlementCall) (minerOperator validatorOperator : AccountId)
    (settlement : InferenceSettlement) : Nat :=
  let toMiner := spent call.payer minerOperator settlement.minerPayment
  let toValidator := spent call.payer validatorOperator settlement.validatorFee
  let toTreasury := spent call.payer s.treasuryAccount settlement.treasuryFee
  if s.free call.payer < settlement.minerPayment.toNat then 0
  else if s.free call.payer < toMiner + settlement.validatorFee.toNat then toMiner
  else if s.free call.payer < toMiner + toValidator + settlement.treasuryFee.toNat then
    toMiner + toValidator
  else toMiner + toValidator + toTreasury

/-- A settlement of a request that is already recorded, which costs its payer something or replaces the
    record by another. -/
def Resettles (s : ProtocolState) (op : Operation) : Prop :=
  ∃ call minerOperator validatorOperator settlement record, op.settles s = some call ∧
    call.plan s = .ok (minerOperator, validatorOperator, settlement) ∧
    s.records.lookup call.submission.requestId = some record ∧
    (0 < s.cost call minerOperator validatorOperator settlement ∨
      (s.Affords call minerOperator validatorOperator settlement ∧
        InferenceRecord.fromValidSubmission call.submission ≠ record))

/-- A rejected proof that names a miner which is not active on the subnet of the submission, and takes a
    part of its bond. -/
def Misdirects (s : ProtocolState) (op : Operation) : Prop :=
  ∃ payer submission payment validatorFeeBps treasuryFeeBps verify slashBps miner subnet amount,
    op = .processProof payer submission payment validatorFeeBps treasuryFeeBps verify ∧
    s.verdict submission verify = some (.invalid slashBps) ∧
    s.miners.lookup submission.minerId = some miner ∧ s.subnets.lookup miner.subnetId = some subnet ∧
    subnet.policy.minerBond.slashAmount miner.bond slashBps = .ok amount ∧ 0 < amount.toNat ∧
    ¬ (miner.status = .active ∧ miner.subnetId = submission.subnetId)

/-! ## What one operation does to the records -/

variable {call : SettlementCall} {minerId : MinerId} {slashBps : UInt16} {miner : MinerRegistration}

theorem settles_payerFor (h : op.settles s = some call) :
    op.payerFor r = if call.submission.requestId = r then some call.payer else none := by
  cases op with
  | submitValidProof => cases h; rfl
  | processProof payer submission payment validatorFeeBps treasuryFeeBps verify =>
    simp only [Operation.settles] at h
    split at h
    · cases h; rfl
    · cases h
  | _ => cases h

theorem settles_eq_none_of_slashes {p : MinerId × UInt16} (h : op.slashes s = some p) : op.settles s = none := by
  cases op with
  | processProof payer submission payment validatorFeeBps treasuryFeeBps verify =>
    simp only [Operation.slashes] at h
    split at h
    · rename_i hverdict
      exact if_neg (by rw [hverdict]; simp)
    · cases h
  | submitValidProof => cases h
  | _ => rfl

/-- A settlement that passes its checks costs the payer `cost`, and is recorded if it can be paid. -/
theorem step_settles (hs : s.Sound) {minerOperator validatorOperator : AccountId}
    {settlement : InferenceSettlement} (hop : op.settles s = some call)
    (hplan : call.plan s = .ok (minerOperator, validatorOperator, settlement)) :
    (s.step op).free call.payer + s.cost call minerOperator validatorOperator settlement =
        s.free call.payer ∧
      (s.step op).records =
        if s.Affords call minerOperator validatorOperator settlement then
          s.records.insert call.submission.requestId (.fromValidSubmission call.submission) else s.records := by
  have he := exec_effect hs.regular op
  unfold step
  generalize op.exec s = result at he
  cases he with
  | refused ht hearly =>
    have hpoor : s.free call.payer < settlement.minerPayment.toNat := by
      by_contra hle
      exact hearly ((begins_of_settles hop).mpr ⟨_, _, _, hplan, Nat.not_lt.mp hle⟩)
    have hsame := same_touched ht
    have hcost : s.cost call minerOperator validatorOperator settlement = 0 := if_pos hpoor
    rw [hcost, if_neg (fun hafford => absurd hafford.1 (Nat.not_le.mpr hpoor))]
    exact ⟨hsame.free call.payer, hsame.registry.records⟩
  | @settled _ _ _ _ _ s1 s2 s3 hop' hplan' h1 hs1 h2 hs2 h3 hs3 =>
    cases hop.symm.trans hop'
    cases hplan.symm.trans hplan'
    have hfree1 := free_of_paid hs1 h1
    have hfree2 := free_of_paid hs2 h2
    have hfree3 := free_of_paid hs3 h3
    have hafford : s.Affords call minerOperator validatorOperator settlement := ⟨h1, by omega, by omega⟩
    refine ⟨?_, (if_pos hafford).symm⟩
    show s3.free call.payer + _ = s.free call.payer
    unfold cost
    rw [if_neg (by omega), if_neg (by omega), if_neg (by omega)]
    omega
  | @partPaidMiner _ _ _ _ _ s1 _ hop' hplan' h1 hs1 h2 =>
    cases hop.symm.trans hop'
    cases hplan.symm.trans hplan'
    have hfree1 := free_of_paid hs1 h1
    rw [if_neg (fun hafford => absurd hafford.2.1 (by omega))]
    refine ⟨?_, by rw [hs1]; rfl⟩
    show (s1.put call.payer (s1.ledger call.payer)).free call.payer + _ = s.free call.payer
    rw [(same_touched .put).free]
    unfold cost
    rw [if_neg (by omega), if_pos (by omega)]
    exact hfree1
  | @partPaidValidator _ _ _ _ _ s1 s2 _ hop' hplan' h1 hs1 h2 hs2 h3 =>
    cases hop.symm.trans hop'
    cases hplan.symm.trans hplan'
    have hfree1 := free_of_paid hs1 h1
    have hfree2 := free_of_paid hs2 h2
    rw [if_neg (fun hafford => absurd hafford.2.2 (by omega))]
    refine ⟨?_, by rw [hs2, hs1]; rfl⟩
    show (s2.put call.payer (s2.ledger call.payer)).free call.payer + _ = s.free call.payer
    rw [(same_touched .put).free]
    unfold cost
    rw [if_neg (by omega), if_neg (by omega), if_pos (by omega)]
    omega
  | slashed hslash => rw [settles_eq_none_of_slashes hslash] at hop; cases hop
  | _ => cases hop

/-- An operation that attempts no settlement, or whose settlement fails its checks, keeps the records and
    takes nothing from a payer. -/
theorem step_not_settles (hs : s.Sound) (hnot : ∀ call, op.settles s = some call → ∀ plan, call.plan s ≠ .ok plan) :
    (s.step op).records = s.records ∧ ¬ s.Charged op r := by
  suffices h : (s.step op).records = s.records ∧
      ∀ payer, op.payerFor r = some payer → (s.step op).free payer = s.free payer by
    refine ⟨h.1, ?_⟩
    rintro ⟨payer, hpayer, hlt⟩
    have := h.2 payer hpayer
    omega
  have he := exec_effect hs.regular op
  unfold step
  generalize op.exec s = result at he
  cases he with
  | refused ht _ => exact ⟨(same_touched ht).registry.records, fun payer _ => (same_touched ht).free payer⟩
  | settled hop hplan => exact absurd hplan (hnot _ hop _)
  | partPaidMiner hop hplan => exact absurd hplan (hnot _ hop _)
  | partPaidValidator hop hplan => exact absurd hplan (hnot _ hop _)
  | slashed =>
    refine ⟨rfl, fun payer _ => ?_⟩
    show (s.put _ _).free payer = s.free payer
    rw [free_put]
    split
    · rename_i ha; rw [ha]; rfl
    · rfl
  | _ => exact ⟨rfl, nofun⟩

/-- One operation keeps every record and charges for no recorded request, exactly unless it settles one
    again. -/
theorem settled_once_step (hs : s.Sound) :
    (∀ r record, s.records.lookup r = some record →
      (s.step op).records.lookup r = some record ∧ ¬ s.Charged op r) ↔ ¬ s.Resettles op := by
  by_cases hsettles : ∃ call, op.settles s = some call ∧ ∃ plan, call.plan s = .ok plan
  · obtain ⟨call, hop, ⟨minerOperator, validatorOperator, settlement⟩, hplan⟩ := hsettles
    obtain ⟨hfree, hrecords⟩ := step_settles hs hop hplan
    constructor
    · rintro h ⟨call', _, _, _, record, hop', hplan', hrecord, hbad⟩
      cases hop.symm.trans hop'
      cases hplan.symm.trans hplan'
      obtain ⟨hkept, hnot⟩ := h _ record hrecord
      cases hbad with
      | inl hpos =>
        refine hnot ⟨call.payer, ?_, by omega⟩
        rw [settles_payerFor hop, if_pos rfl]
      | inr hother =>
        rw [hrecords, if_pos hother.1, Finmap.lookup_insert] at hkept
        exact hother.2 (Option.some.inj hkept)
    · intro h r record hrecord
      by_cases hr : call.submission.requestId = r
      · subst hr
        have hzero : s.cost call minerOperator validatorOperator settlement = 0 := by
          by_contra hne
          exact h ⟨call, _, _, _, record, hop, hplan, hrecord, Or.inl (Nat.pos_of_ne_zero hne)⟩
        refine ⟨?_, ?_⟩
        · rw [hrecords]
          split
          · rename_i hafford
            rw [Finmap.lookup_insert]
            by_contra hne
            refine h ⟨call, _, _, _, record, hop, hplan, hrecord, Or.inr ⟨hafford, fun heq => ?_⟩⟩
            exact hne (congrArg some heq)
          · exact hrecord
        · rintro ⟨payer, hpayer, hlt⟩
          rw [settles_payerFor hop, if_pos rfl] at hpayer
          cases hpayer
          omega
      · refine ⟨?_, ?_⟩
        · rw [hrecords]
          split
          · rw [Finmap.lookup_insert_of_ne _ (Ne.symm hr)]
            exact hrecord
          · exact hrecord
        · rintro ⟨payer, hpayer, -⟩
          rw [settles_payerFor hop, if_neg hr] at hpayer
          cases hpayer
  · have hnot : ∀ call, op.settles s = some call → ∀ plan, call.plan s ≠ .ok plan :=
      fun call hop plan hplan => hsettles ⟨call, hop, plan, hplan⟩
    refine iff_of_true (fun r record hrecord => ?_) ?_
    · obtain ⟨hrecords, hcharge⟩ := step_not_settles (r := r) hs hnot
      exact ⟨by rw [hrecords]; exact hrecord, hcharge⟩
    · rintro ⟨call, _, _, _, _, hop, hplan, -⟩
      exact hnot call hop _ hplan

/-! ## What one operation does to the bonds -/

/-- A slash that passes its checks goes through: the operator has the bond locked. -/
theorem slashMiner_cuts (hs : s.Regular) {subnet : SubnetConfig} {amount : Balance}
    (hminer : s.miners.lookup minerId = some miner) (hsubnet : s.subnets.lookup miner.subnetId = some subnet)
    (hslash : subnet.policy.minerBond.slashAmount miner.bond slashBps = .ok amount)
    (hlocked : miner.bond.toNat ≤ s.locked miner.operator) : Ends (slashMiner minerId slashBps) s
      (fun _ s' => ∃ miner', s'.miners.lookup minerId = some miner' ∧
        miner'.bond.toNat + amount.toNat = miner.bond.toNat) (fun _ _ => False) := by
  have hle : amount.toNat ≤ miner.bond.toNat := by
    rw [hs.policies hsubnet] at hslash
    exact MinerBondPolicy.slashAmount_le hslash
  unfold slashMiner
  simp only [ends_bind, ends_get, ends_lift_okOr]
  refine ⟨fun _ hm => ?_, fun hnone => by rw [hminer] at hnone; cases hnone⟩
  cases hminer.symm.trans hm
  refine ⟨fun _ hc => ?_, fun hnone => by rw [hsubnet] at hnone; cases hnone⟩
  cases hsubnet.symm.trans hc
  rw [hslash, ends_lift_ok]
  refine ⟨fun remaining hsub => ?_, fun hnone => ?_⟩
  · have hremaining := Checked.sub_eq_some hsub
    refine (ends_burnLocked hs.fits).mono ?_ fun _ _ h => by omega
    rintro _ _ ⟨-, rfl⟩
    refine (ends_updateMiner (s := s.burntLocked miner.operator amount) hminer).mono ?_ fun _ _ h => h
    rintro _ _ rfl
    exact ⟨_, Finmap.lookup_insert _, hremaining⟩
  · unfold Checked.sub at hnone
    rw [if_pos hle] at hnone
    cases hnone

/-- Processing a rejected proof ends as slashing the miner it names does. -/
theorem ends_processProof_rejected {payer : AccountId} {submission : InferenceProofSubmission}
    {payment : Balance} {validatorFeeBps treasuryFeeBps : UInt16} {verify : ProofVerifier}
    {Q : ProtocolState → Prop} {E : ProtocolError → ProtocolState → Prop}
    (hverdict : s.verdict submission verify = some (.invalid slashBps))
    (h : Ends (slashMiner submission.minerId slashBps) s (fun _ => Q) E) :
    Ends (processProof payer submission payment validatorFeeBps treasuryFeeBps verify) s (fun _ => Q) E := by
  obtain ⟨subnet, hsubnet, hverify⟩ := Option.bind_eq_some_iff.mp hverdict
  have hok : verify submission subnet.policy = .ok (.invalid slashBps) := by
    cases hv : verify submission subnet.policy with
    | error e => rw [hv] at hverify; cases hverify
    | ok outcome => rw [hv] at hverify; cases hverify; rfl
  unfold processProof
  simp only [ends_bind, ends_get, ends_lift_okOr]
  refine ⟨fun _ hc => ?_, fun hnone => by rw [hsubnet] at hnone; cases hnone⟩
  cases hsubnet.symm.trans hc
  rw [hok]
  simp only [ends_lift_ok, ends_bind, ends_pure]
  exact h

/-- One operation cuts only bonds of miners active on the subnet of the submission, exactly unless it
    misdirects a slash. -/
theorem slashes_rightly_step (hs : s.Sound)
    (hlocked : ∀ {minerId miner}, s.miners.lookup minerId = some miner → miner.bond.toNat ≤ s.locked miner.operator) :
    (∀ payer submission payment validatorFeeBps treasuryFeeBps verify,
      op = .processProof payer submission payment validatorFeeBps treasuryFeeBps verify →
      ∀ minerId miner, s.CutsBond op minerId miner →
        miner.status = .active ∧ miner.subnetId = submission.subnetId) ↔ ¬ s.Misdirects op := by
  constructor
  · rintro h ⟨payer, submission, payment, validatorFeeBps, treasuryFeeBps, verify, slashBps, miner, subnet,
      amount, rfl, hverdict, hminer, hsubnet, hslash, hpos, hwrong⟩
    refine hwrong (h _ _ _ _ _ _ rfl submission.minerId miner ⟨hminer, ?_⟩)
    have hcuts := slashMiner_cuts hs.regular hminer hsubnet hslash (hlocked hminer)
    refine left_of_ends (P := fun s' => ∃ miner', s'.miners.lookup submission.minerId = some miner' ∧
      miner'.bond.toNat < miner.bond.toNat) (ends_bind.mpr (ends_processProof_rejected hverdict ?_))
    refine hcuts.mono ?_ fun _ _ hfalse => hfalse.elim
    rintro _ s' ⟨miner', hminer', hbond⟩
    exact ⟨miner', hminer', by omega⟩
  · rintro hnot payer submission payment validatorFeeBps treasuryFeeBps verify rfl minerId miner
      ⟨hminer, miner', hminer', hlt⟩
    have he := exec_effect hs.regular (.processProof payer submission payment validatorFeeBps treasuryFeeBps verify)
    unfold step at hminer'
    generalize Operation.exec _ s = result at he hminer'
    have hsame : ∀ {s' : ProtocolState}, s'.miners = s.miners → s'.miners.lookup minerId = some miner' → False := by
      intro s' hminers h
      rw [hminers, hminer] at h
      cases h
      omega
    cases result with
    | error e s' => exact (hsame he.failed.1.miners hminer').elim
    | ok u s' => ?_
    cases he with
    | settled _ _ _ hs1 _ hs2 _ hs3 =>
      subst hs1 hs2 hs3
      exact (@hsame s rfl hminer').elim
    | @slashed _ named slashBps cut subnet amount remaining hop hcut hsubnet hslash hamount =>
      simp only [Operation.slashes] at hop
      split at hop
      · rename_i hverdict
        cases hop
        have hinsert : (s.miners.insert submission.minerId
            (slashedMiner subnet.policy.minerBond remaining cut)).lookup minerId = some miner' := hminer'
        by_cases hid : minerId = submission.minerId
        · subst hid
          rw [Finmap.lookup_insert] at hinsert
          cases hinsert
          cases hminer.symm.trans hcut
          have hcutbond : (slashedMiner subnet.policy.minerBond remaining miner).bond = remaining := rfl
          rw [hcutbond] at hlt
          by_contra hwrong
          exact hnot ⟨payer, submission, payment, validatorFeeBps, treasuryFeeBps, verify, slashBps, miner,
            subnet, amount, rfl, hverdict, hminer, hsubnet, hslash, by omega, hwrong⟩
        · rw [Finmap.lookup_insert_of_ne _ hid, hminer] at hinsert
          cases hinsert
          omega
      · cases hop

/-! ## Runs -/

theorem bond_le_locked {treasuryAccount : AccountId} {endowed : List (AccountId × Balance)}
    {genesis : ProtocolState} (hgenesis : withGenesis treasuryAccount endowed = .ok genesis)
    (ops : List Operation) (hminer : (genesis.run ops).miners.lookup minerId = some miner) :
    miner.bond.toNat ≤ (genesis.run ops).locked miner.operator := by
  rw [backed_run (sound_genesis hgenesis) (backed_genesis hgenesis)]
  have hle := weightAt_le_total (bondFor miner.operator) (genesis.run ops).miners minerId
  rw [weightAt_some hminer, bondFor, if_pos rfl] at hle
  unfold bondsOf
  omega

/-- A record that every operation keeps is kept by the run. -/
theorem settledOnce_iff {ops : List Operation} :
    s.SettledOnce ops ↔ ∀ pre op post, ops = pre ++ op :: post → ∀ r record,
      (s.run pre).records.lookup r = some record →
      ((s.run pre).step op).records.lookup r = some record ∧ ¬ (s.run pre).Charged op r := by
  have hsnoc : ∀ pre op, s.run (pre ++ [op]) = (s.run pre).step op := fun _ _ => List.foldl_append
  constructor
  · intro h pre op post hops r record hrecord
    have hstep := h pre [] op post (by rw [List.append_nil]; exact hops) r record hrecord
    rw [List.append_nil, hsnoc] at hstep
    exact hstep
  · intro h pre mid op post hops r record hrecord
    rw [hsnoc]
    refine h (pre ++ mid) op post hops r record ?_
    -- induction from the end of `mid`: each operation of it keeps the record
    induction mid using List.reverseRecOn generalizing op post with
    | nil => rw [List.append_nil]; exact hrecord
    | append_singleton mid op' ih =>
      have hops' : ops = pre ++ mid ++ op' :: (op :: post) := by
        rw [hops]
        simp only [List.append_assoc, List.cons_append, List.nil_append]
      have hkept := ih op' (op :: post) hops'
      rw [← List.append_assoc, hsnoc]
      exact (h (pre ++ mid) op' (op :: post) hops' r record hkept).1

/-- **Requests are settled once and slashes hit the right miner, exactly in the runs without a second
    settlement and without a misdirected slash.** -/
theorem settled_once_iff {treasuryAccount : AccountId} {endowed : List (AccountId × Balance)}
    {genesis : ProtocolState} (hgenesis : withGenesis treasuryAccount endowed = .ok genesis) (ops : List Operation) :
    genesis.SettledOnce ops ∧ genesis.SlashesRightly ops ↔
      ∀ pre op post, ops = pre ++ op :: post →
        ¬ (genesis.run pre).Resettles op ∧ ¬ (genesis.run pre).Misdirects op := by
  have hsound : ∀ pre, (genesis.run pre).Sound := fun pre => (sound_genesis hgenesis).run pre
  rw [settledOnce_iff]
  constructor
  · rintro ⟨honce, hright⟩ pre op post hops
    refine ⟨(settled_once_step (hsound pre)).mp (honce pre op post hops), ?_⟩
    refine (slashes_rightly_step (hsound pre) (bond_le_locked hgenesis pre)).mp ?_
    rintro payer submission payment validatorFeeBps treasuryFeeBps verify rfl
    exact hright pre payer submission payment validatorFeeBps treasuryFeeBps verify post hops
  · intro h
    refine ⟨fun pre op post hops => (settled_once_step (hsound pre)).mpr (h pre op post hops).1, ?_⟩
    intro pre payer submission payment validatorFeeBps treasuryFeeBps verify post hops
    exact (slashes_rightly_step (hsound pre) (bond_le_locked hgenesis pre)).mpr (h pre _ post hops).2
      payer submission payment validatorFeeBps treasuryFeeBps verify rfl

open Sample

/-- Request 42 is settled and the proof for request 43 rejected. -/
def settledAndSlashed : List Operation :=
  opened ++ [.submitValidProof (account 1) submission 1000 250 50,
    .processProof (account 1) { submission with requestId := 43 } 1000 250 50 fun _ _ => .ok (.invalid 1000)]

theorem settled_once_slashed :
    (genesis.run settledAndSlashed).records.lookup 42 = some (.fromValidSubmission submission) ∧
      ((genesis.run settledAndSlashed).miners.lookup 0).map (·.bond) = some 90000000000 ∧
      genesis.SettledOnce settledAndSlashed ∧ genesis.SlashesRightly settledAndSlashed := by
  refine ⟨by decide +kernel, by decide +kernel, (settled_once_iff genesis_ok settledAndSlashed).mpr ?_⟩
  -- no request that is settled has a record, and the miner is active when it is slashed
  have hfresh : ∀ i < 6, ∀ op ∈ settledAndSlashed[i]?, ∀ call ∈ op.settles (genesis.run (settledAndSlashed.take i)),
      (genesis.run (settledAndSlashed.take i)).records.lookup call.submission.requestId = none := by
    decide +kernel
  have hactive : ∀ miner ∈ (genesis.run (settledAndSlashed.take 5)).miners.lookup 0,
      miner.status = .active ∧ miner.subnetId = 0 := by
    decide +kernel
  intro pre op post hops
  have hlen : pre.length < 6 := by
    have := congrArg List.length hops
    simp only [settledAndSlashed, opened, List.length_append, List.length_cons, List.length_nil] at this
    omega
  have hop : settledAndSlashed[pre.length]? = some op := by simp [hops]
  have hpre : settledAndSlashed.take pre.length = pre := by simp [hops]
  constructor
  · rintro ⟨call, -, -, -, record, hsettles, -, hrecord, -⟩
    have hnone := hfresh _ hlen op hop call (by rw [hpre]; exact hsettles)
    rw [hpre, hrecord] at hnone
    cases hnone
  · rintro ⟨_, _, _, _, _, _, _, miner, _, _, rfl, -, hminer, -, -, -, hwrong⟩
    rw [← hpre] at hminer
    generalize pre.length = i at hlen hop hminer
    interval_cases i <;> cases hop
    exact hwrong (hactive miner hminer)

/-- Request 42 is settled, and settled again with another output: the payer pays 1000 a second time and the
    record is replaced. And a rejected proof of a miner that is leaving takes a tenth of its bond. -/
theorem settled_twice : let again := { submission with outputCommitment := commitment 3 }
    let s := genesis.run (opened ++ [.submitValidProof (account 1) submission 1000 250 50])
    let s' := s.step (.submitValidProof (account 1) again 1000 250 50)
    let t := genesis.run (opened ++ [.beginMinerExit 0 10])
    let t' := t.step (.processProof (account 1) submission 1000 250 50 fun _ _ => .ok (.invalid 1000))
    (s.records.lookup 42 = some (.fromValidSubmission submission) ∧
      s'.records.lookup 42 = some (.fromValidSubmission again) ∧
      again.outputCommitment ≠ submission.outputCommitment ∧
      s'.free (account 1) + 1000 = s.free (account 1)) ∧
    (t.miners.lookup 0).map (·.status) ≠ some .active ∧
      (t.miners.lookup 0).map (·.bond) = some 100000000000 ∧
      (t'.miners.lookup 0).map (·.bond) = some 90000000000 := by
  decide +kernel
end ProtocolState
end Qubitum
