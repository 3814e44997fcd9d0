import Qubitum.Protocol.State

/-!
# `Protocol.Effects` — what an operation can do

The money of a state is what all accounts hold plus what has been burned. As long as it fits a `u128`, no
addition of the state machine overflows, so every balance move either happens in full or stops at the
balance check, having written nothing but a default ledger (`Touched`).

`Effect s op r` lists every way an operation can end from such a state, and `exec_effect` says that there
is no other. The two ways to stop *after* money has moved are `subnetIdsExhausted` and the two `partPaid`
cases.
-/

namespace Qubitum
open Outcome Mutation MapSum

def AccountLedger.sum (l : AccountLedger) : Nat := l.free.toNat + l.locked.toNat

namespace ProtocolState
variable {s s' : ProtocolState} {a b : AccountId} {l l' : AccountLedger} {n : Balance}

/-- The free balance of an account. -/
def free (s : ProtocolState) (a : AccountId) : Nat := (s.ledger a).free.toNat

/-- The locked balance of an account. -/
def locked (s : ProtocolState) (a : AccountId) : Nat := (s.ledger a).locked.toNat

/-- What all accounts hold together, free and locked. -/
def money (s : ProtocolState) : Nat := total AccountLedger.sum s.accounts

/-- What all accounts hold locked. -/
def lockedMoney (s : ProtocolState) : Nat := total (fun l => l.locked.toNat) s.accounts

/-! ## Writing one ledger -/

@[simp] theorem ledger_put_self : (s.put a l).ledger a = l := by simp [ledger, put]

theorem ledger_put_of_ne (h : b ≠ a) : (s.put a l).ledger b = s.ledger b := by
  unfold ledger put
  rw [Finmap.lookup_insert_of_ne _ h]

@[simp] theorem put_put : (s.put a l).put a l' = s.put a l' := by simp [put]

theorem weightAt_accounts {f : AccountLedger → Nat} (hf : f default = 0) (s : ProtocolState)
    (a : AccountId) : weightAt f s.accounts a = f (s.ledger a) := by
  unfold ledger weightAt
  cases s.accounts.lookup a <;> simp [hf]

section
variable (s : ProtocolState) (a : AccountId)

theorem money_put (l : AccountLedger) : (s.put a l).money + (s.ledger a).sum = s.money + l.sum := by
  rw [← weightAt_accounts (f := AccountLedger.sum) rfl]
  exact total_insert _ _ _ _

theorem lockedMoney_put (l : AccountLedger) :
    (s.put a l).lockedMoney + s.locked a = s.lockedMoney + l.locked.toNat := by
  unfold locked
  rw [← weightAt_accounts (f := fun l => l.locked.toNat) rfl]
  exact total_insert _ _ _ _

theorem sum_le_money : s.free a + s.locked a ≤ s.money := by
  have h := weightAt_le_total AccountLedger.sum s.accounts a
  rwa [weightAt_accounts rfl] at h

/-! ## Balance moves as functions -/

/-- `n` taken from the free balance of `a`. -/
def debited (n : Balance) : ProtocolState := s.put a ⟨(s.ledger a).free - n, (s.ledger a).locked⟩

/-- `n` added to the free balance of `a`. -/
def credited (n : Balance) : ProtocolState := s.put a ⟨(s.ledger a).free + n, (s.ledger a).locked⟩

/-- `n` burned from the free balance of `a`. -/
def burnt (n : Balance) : ProtocolState := { s.debited a n with totalBurned := s.totalBurned + n }

/-- `n` burned from the locked balance of `a`. -/
def burntLocked (n : Balance) : ProtocolState :=
  { s.put a ⟨(s.ledger a).free, (s.ledger a).locked - n⟩ with totalBurned := s.totalBurned + n }

/-- `n` moved from the free to the locked balance of `a`. -/
def lockedUp (n : Balance) : ProtocolState := s.put a ⟨(s.ledger a).free - n, (s.ledger a).locked + n⟩

/-- `n` moved from the locked to the free balance of `a`. -/
def unlocked (n : Balance) : ProtocolState := s.put a ⟨(s.ledger a).free + n, (s.ledger a).locked - n⟩
end

/-- `n` moved from the free balance of `a` to that of `b`. -/
def paid (s : ProtocolState) (a b : AccountId) (n : Balance) : ProtocolState := (s.debited a n).credited b n

/-- The state with the entry of one account written out. -/
def Touched (s s' : ProtocolState) : Prop := s' = s ∨ ∃ a, s' = s.put a (s.ledger a)

theorem Touched.refl : Touched s s := Or.inl rfl

theorem Touched.put : Touched s (s.put a (s.ledger a)) := Or.inr ⟨a, rfl⟩

/-- All money that exists fits a balance. -/
def Fits (s : ProtocolState) : Prop := s.money + s.totalBurned.toNat < 2 ^ 128

variable {m n : Balance} {c : SettlementCall} {minerId : MinerId}

theorem toNat_sub_of_le (h : n.toNat ≤ m.toNat) : (m - n).toNat = m.toNat - n.toNat :=
  BitVec.toNat_sub_of_le (BitVec.le_def.mpr h)

theorem toNat_add_of_lt (h : m.toNat + n.toNat < 2 ^ 128) : (m + n).toNat = m.toNat + n.toNat := by
  rw [BitVec.toNat_add, Nat.mod_eq_of_lt h]

theorem money_debited (h : n.toNat ≤ s.free a) : (s.debited a n).money + n.toNat = s.money := by
  have hput := money_put s a ⟨(s.ledger a).free - n, (s.ledger a).locked⟩
  simp only [AccountLedger.sum, toNat_sub_of_le h] at hput
  unfold debited
  unfold free at h
  omega

theorem money_credited (h : s.money + n.toNat < 2 ^ 128) : (s.credited a n).money = s.money + n.toNat := by
  have hput := money_put s a ⟨(s.ledger a).free + n, (s.ledger a).locked⟩
  have hle := sum_le_money s a
  unfold free locked at hle
  simp only [AccountLedger.sum] at hput
  rw [toNat_add_of_lt (by omega)] at hput
  unfold credited
  omega

/-! ## How the balance moves end -/

/-- `debit_free` takes the amount, or stops at the balance check. -/
theorem ends_debitFree : Ends (debitFree a n) s (fun _ s' => n.toNat ≤ s.free a ∧ s' = s.debited a n)
      (fun _ s' => s.free a < n.toNat ∧ s' = s.put a (s.ledger a)) := by
  simp only [debitFree, entry, ends_bind, ends_get, ends_modify, ends_pure, ends_lift_ensure,
    ends_lift_okOr, put_put, BitVec.lt_def]
  refine ⟨fun hle => ⟨fun free hsub => ?_, fun hnone => ?_⟩, fun hlt => ⟨not_not.mp hlt, trivial⟩⟩
  · unfold Checked.sub at hsub
    split at hsub
    · cases hsub
      exact ⟨‹_›, rfl⟩
    · cases hsub
  · unfold Checked.sub at hnone
    rw [if_pos (Nat.not_lt.mp hle)] at hnone
    cases hnone

theorem ends_credit (h : s.money + n.toNat < 2 ^ 128) :
    Ends (credit a n) s (fun _ s' => s' = s.credited a n) (fun _ _ => False) := by
  have hfit : (s.ledger a).free.toNat + n.toNat < 2 ^ 128 := by
    have := sum_le_money s a
    unfold free at this
    omega
  simp only [credit, entry, ends_bind, ends_get, ends_modify, ends_pure, ends_lift_okOr, put_put,
    Checked.add, if_pos hfit]
  exact ⟨fun free hfree => by cases hfree; rfl, fun hnone => by cases hnone⟩

theorem ends_addBurned (h : s.totalBurned.toNat + n.toNat < 2 ^ 128) :
    Ends (addBurned n) s (fun _ s' => s' = { s with totalBurned := s.totalBurned + n }) (fun _ _ => False) := by
  simp only [addBurned, ends_bind, ends_get, ends_modify, ends_lift_okOr, Checked.add, if_pos h]
  exact ⟨fun total htotal => by cases htotal; rfl, fun hnone => by cases hnone⟩

section
variable (hfit : s.Fits)
include hfit

theorem ends_burn :
    Ends (burn a n) s (fun _ s' => n.toNat ≤ s.free a ∧ s' = s.burnt a n)
      (fun _ s' => s.free a < n.toNat ∧ s' = s.put a (s.ledger a)) := by
  unfold burn
  rw [ends_bind]
  refine ends_debitFree.mono ?_ fun _ _ h => h
  rintro _ _ ⟨hle, rfl⟩
  have hmoney := money_debited hle
  have hburn : (s.debited a n).totalBurned.toNat + n.toNat < 2 ^ 128 := by
    have : (s.debited a n).totalBurned = s.totalBurned := rfl
    unfold Fits at hfit
    rw [this]
    omega
  exact (ends_addBurned hburn).mono (fun _ _ h => ⟨hle, h⟩) (fun _ _ h => h.elim)

theorem ends_burnLocked :
    Ends (burnLocked a n) s (fun _ s' => n.toNat ≤ s.locked a ∧ s' = s.burntLocked a n)
      (fun _ s' => s.locked a < n.toNat ∧ s' = s.put a (s.ledger a)) := by
  simp only [burnLocked, entry, ends_bind, ends_get, ends_modify, ends_pure, ends_lift_ensure,
    ends_lift_okOr, put_put, BitVec.lt_def]
  refine ⟨fun hle => ⟨fun remaining hsub => ?_, fun hnone => ?_⟩, fun hlt => ⟨not_not.mp hlt, trivial⟩⟩
  · unfold Checked.sub at hsub
    rw [if_pos (Nat.not_lt.mp hle)] at hsub
    cases hsub
    have hburn : s.totalBurned.toNat + n.toNat < 2 ^ 128 := by
      have := sum_le_money s a
      have : n.toNat ≤ s.locked a := Nat.not_lt.mp hle
      unfold Fits at hfit
      omega
    exact (ends_addBurned (s := s.put a _) hburn).mono (fun _ _ h => ⟨Nat.not_lt.mp hle, h⟩) (fun _ _ h => h.elim)
  · unfold Checked.sub at hnone
    rw [if_pos (Nat.not_lt.mp hle)] at hnone
    cases hnone

theorem ends_transfer :
    Ends (transfer a b n) s (fun _ s' => n.toNat ≤ s.free a ∧ s' = s.paid a b n)
      (fun _ s' => s.free a < n.toNat ∧ s' = s.put a (s.ledger a)) := by
  unfold transfer
  rw [ends_bind]
  refine ends_debitFree.mono ?_ fun _ _ h => h
  rintro _ _ ⟨hle, rfl⟩
  have hmoney := money_debited hle
  unfold Fits at hfit
  exact (ends_credit (by omega)).mono (fun _ _ h => ⟨hle, h⟩) (fun _ _ h => h.elim)

theorem ends_lock :
    Ends (lock a n) s (fun _ s' => n.toNat ≤ s.free a ∧ s' = s.lockedUp a n)
      (fun _ s' => s' = s.put a (s.ledger a)) := by
  unfold lock
  rw [ends_bind]
  refine ends_debitFree.mono ?_ fun _ _ h => h.2
  rintro _ _ ⟨hle, rfl⟩
  have hadd : (s.ledger a).locked.toNat + n.toNat < 2 ^ 128 := by
    have hsum := sum_le_money s a
    unfold Fits at hfit
    unfold locked at hsum
    omega
  simp only [entry, ends_bind, ends_get, ends_modify, ends_pure, ends_lift_okOr, debited, put_put,
    ledger_put_self, Checked.add, if_pos hadd]
  exact ⟨fun total htotal => by cases htotal; exact ⟨hle, rfl⟩, fun hnone => by cases hnone⟩

theorem ends_unlock :
    Ends (unlock a n) s (fun _ s' => n.toNat ≤ s.locked a ∧ s' = s.unlocked a n)
      (fun _ s' => s' = s.put a (s.ledger a)) := by
  simp only [unlock, entry, ends_bind, ends_get, ends_modify, ends_pure, ends_lift_ensure,
    ends_lift_okOr, put_put, BitVec.lt_def]
  refine ⟨fun hle => ?_, fun _ => trivial⟩
  have hle' : n.toNat ≤ (s.ledger a).locked.toNat := Nat.not_lt.mp hle
  have hadd : (s.ledger a).free.toNat + n.toNat < 2 ^ 128 := by
    have hsum := sum_le_money s a
    unfold Fits at hfit
    unfold free locked at hsum
    omega
  simp only [Checked.sub, Checked.add, if_pos hle', if_pos hadd]
  refine ⟨fun remaining hsub => ⟨fun free hfree => ?_, fun hnone => by cases hnone⟩, fun hnone => by cases hnone⟩
  cases hsub
  cases hfree
  exact ⟨hle', rfl⟩
end

/-! ## Attempts -/

/-- The arguments of a settlement. -/
structure SettlementCall where
  payer : AccountId
  submission : InferenceProofSubmission
  payment : Balance
  validatorFeeBps : UInt16
  treasuryFeeBps : UInt16

/-- What the verifier answers to a proof that reaches it. -/
def verdict (s : ProtocolState) (submission : InferenceProofSubmission) (verify : ProofVerifier) :
    Option VerificationOutcome := do
  let subnet ← s.subnets.lookup submission.subnetId
  (verify submission subnet.policy).toOption

/-- The settlement an operation attempts: a proof taken as valid, or found valid by the verifier. -/
def Operation.settles (s : ProtocolState) : Operation → Option SettlementCall
  | .submitValidProof payer submission payment validatorFeeBps treasuryFeeBps =>
      some ⟨payer, submission, payment, validatorFeeBps, treasuryFeeBps⟩
  | .processProof payer submission payment validatorFeeBps treasuryFeeBps verify =>
      if s.verdict submission verify = some .valid then
        some ⟨payer, submission, payment, validatorFeeBps, treasuryFeeBps⟩
      else none
  | _ => none

/-- The slash an operation attempts: a direct one, or that of the miner a rejected proof names. -/
def Operation.slashes (s : ProtocolState) : Operation → Option (MinerId × UInt16)
  | .slashMiner minerId slashBps => some (minerId, slashBps)
  | .processProof _ submission _ _ _ verify =>
      match s.verdict submission verify with
      | some (.invalid slashBps) => some (submission.minerId, slashBps)
      | _ => none
  | _ => none

def SettlementCall.plan (c : SettlementCall) (s : ProtocolState) :
    Except ProtocolError (AccountId × AccountId × InferenceSettlement) :=
  s.settlementPlan c.submission c.payment c.validatorFeeBps c.treasuryFeeBps

/-- The operation passes its checks and its first balance move, if it creates a subnet or settles a proof:
    the two that can still fail after that. -/
def Operation.Begins (s : ProtocolState) : Operation → Prop
  | .createSubnet owner _ creationBurn =>
      minerRegistrationBurn.toNat ≤ creationBurn.toNat ∧ creationBurn.toNat ≤ s.free owner
  | op =>
      ∃ c minerOperator validatorOperator settlement, op.settles s = some c ∧
        c.plan s = .ok (minerOperator, validatorOperator, settlement) ∧
        settlement.minerPayment.toNat ≤ s.free c.payer

/-! ## Effects -/

/-- The new record of a miner whose bond is cut to `remaining`. -/
def slashedMiner (policy : MinerBondPolicy) (remaining : Balance) (miner : MinerRegistration) :
    MinerRegistration :=
  { miner with
    bond := remaining
    status := if remaining < policy.minBond then .slashed else miner.status }

/-- **Every way an operation can end** in a state whose money fits. -/
inductive Effect (s : ProtocolState) : Operation → EStateM.Result ProtocolError ProtocolState Unit → Prop
  | refused {op e s'} (h : Touched s s') (hearly : ¬ op.Begins s) : Effect s op (.error e s')
  | subnetCreated {owner domain creationBurn}
      (hmin : minerRegistrationBurn.toNat ≤ creationBurn.toNat) (hfree : creationBurn.toNat ≤ s.free owner)
      (hnext : s.nextSubnetId.toNat + 1 < 2 ^ 16) :
      Effect s (.createSubnet owner domain creationBurn)
        (.ok () { s.burnt owner creationBurn with
          nextSubnetId := s.nextSubnetId + 1
          subnets := s.subnets.insert s.nextSubnetId ⟨s.nextSubnetId, owner, domain, SubnetPolicy.qubitum, true⟩ })
  | subnetIdsExhausted {owner domain creationBurn e}
      (hmin : minerRegistrationBurn.toNat ≤ creationBurn.toNat) (hfree : creationBurn.toNat ≤ s.free owner)
      (hnext : ¬ s.nextSubnetId.toNat + 1 < 2 ^ 16) :
      Effect s (.createSubnet owner domain creationBurn) (.error e (s.burnt owner creationBurn))
  | minerRegistered {operator subnetId modelCommitment proofSystem}
      (hfree : minerRegistrationBurn.toNat ≤ s.free operator)
      (hnext : s.nextMinerId.toNat + 1 < 2 ^ 64) :
      Effect s (.registerMiner operator subnetId modelCommitment proofSystem)
        (.ok () { s.burnt operator minerRegistrationBurn with
          nextMinerId := s.nextMinerId + 1
          miners := s.miners.insert s.nextMinerId
            ⟨s.nextMinerId, operator, subnetId, modelCommitment, proofSystem, 0, .pending, none, none⟩ })
  | minerActivated {minerId bond miner} (hminer : s.miners.lookup minerId = some miner)
      (hfree : bond.toNat ≤ s.free miner.operator) :
      Effect s (.activateMiner minerId bond)
        (.ok () { s.lockedUp miner.operator bond with
          miners := s.miners.insert minerId { miner with bond, status := .active } })
  | exitBegun {minerId currentBlock miner exitAvailableAt} (hminer : s.miners.lookup minerId = some miner) :
      Effect s (.beginMinerExit minerId currentBlock)
        (.ok () { s with
          miners := s.miners.insert minerId { miner with status := .exiting exitAvailableAt } })
  | exitCompleted {minerId currentBlock miner} (hminer : s.miners.lookup minerId = some miner)
      (hlocked : miner.bond.toNat ≤ s.locked miner.operator) :
      Effect s (.completeMinerExit minerId currentBlock)
        (.ok () { s.unlocked miner.operator miner.bond with
          miners := s.miners.insert minerId { miner with bond := 0, status := .disabled } })
  | validatorRegistered {operator subnetId stake} (hmin : minMinerBond.toNat ≤ stake.toNat)
      (hfree : stake.toNat ≤ s.free operator) (hnext : s.nextValidatorId.toNat + 1 < 2 ^ 64) :
      Effect s (.registerValidator operator subnetId stake)
        (.ok () { s.lockedUp operator stake with
          nextValidatorId := s.nextValidatorId + 1
          validators := s.validators.insert s.nextValidatorId
            ⟨s.nextValidatorId, operator, stake, [subnetId], .active⟩ })
  | settled {op c minerOperator validatorOperator settlement s1 s2 s3} (hop : op.settles s = some c)
      (hplan : c.plan s = .ok (minerOperator, validatorOperator, settlement))
      (h1 : settlement.minerPayment.toNat ≤ s.free c.payer)
      (hs1 : s1 = s.paid c.payer minerOperator settlement.minerPayment)
      (h2 : settlement.validatorFee.toNat ≤ s1.free c.payer)
      (hs2 : s2 = s1.paid c.payer validatorOperator settlement.validatorFee)
      (h3 : settlement.treasuryFee.toNat ≤ s2.free c.payer)
      (hs3 : s3 = s2.paid c.payer s.treasuryAccount settlement.treasuryFee) :
      Effect s op
        (.ok () { s3 with
          records := s.records.insert c.submission.requestId (.fromValidSubmission c.submission) })
  | partPaidMiner {op c minerOperator validatorOperator settlement s1 e} (hop : op.settles s = some c)
      (hplan : c.plan s = .ok (minerOperator, validatorOperator, settlement))
      (h1 : settlement.minerPayment.toNat ≤ s.free c.payer)
      (hs1 : s1 = s.paid c.payer minerOperator settlement.minerPayment)
      (h2 : s1.free c.payer < settlement.validatorFee.toNat) :
      Effect s op (.error e (s1.put c.payer (s1.ledger c.payer)))
  | partPaidValidator {op c minerOperator validatorOperator settlement s1 s2 e}
      (hop : op.settles s = some c)
      (hplan : c.plan s = .ok (minerOperator, validatorOperator, settlement))
      (h1 : settlement.minerPayment.toNat ≤ s.free c.payer)
      (hs1 : s1 = s.paid c.payer minerOperator settlement.minerPayment)
      (h2 : settlement.validatorFee.toNat ≤ s1.free c.payer)
      (hs2 : s2 = s1.paid c.payer validatorOperator settlement.validatorFee)
      (h3 : s2.free c.payer < settlement.treasuryFee.toNat) :
      Effect s op (.error e (s2.put c.payer (s2.ledger c.payer)))
  | slashed {op minerId slashBps miner subnet amount remaining}
      (hop : op.slashes s = some (minerId, slashBps)) (hminer : s.miners.lookup minerId = some miner)
      (hsubnet : s.subnets.lookup miner.subnetId = some subnet)
      (hslash : subnet.policy.minerBond.slashAmount miner.bond slashBps = .ok amount)
      (hamount : amount.toNat + remaining.toNat = miner.bond.toNat)
      (hlocked : amount.toNat ≤ s.locked miner.operator) :
      Effect s op
        (.ok () { s.burntLocked miner.operator amount with
          miners := s.miners.insert minerId (slashedMiner subnet.policy.minerBond remaining miner) })

/-! ## There is no other way to end -/

/-- What the effects rely on: money fits, every subnet has the protocol's policy, and the next identifiers
    are free. -/
structure Regular (s : ProtocolState) : Prop where
  fits : s.Fits
  policies : ∀ {id c}, s.subnets.lookup id = some c → c.policy = SubnetPolicy.qubitum
  subnetFresh : s.subnets.lookup s.nextSubnetId = none
  minerRoom : s.nextMinerId.toNat + 1 < 2 ^ 64
  validatorRoom : s.nextValidatorId.toNat + 1 < 2 ^ 64

/-- The run of `x` from `s` is one of the effects of `op`. -/
def Effects {α : Type} (x : Op α) (s : ProtocolState) (op : Operation) : Prop :=
  Ends x s (fun _ s' => Effect s op (.ok () s')) (fun e s' => Effect s op (.error e s'))

variable {op : Operation} {owner operator payer : AccountId} {domain : SubnetDomain} {subnetId : SubnetId}
  {creationBurn bond stake payment : Balance} {currentBlock : BlockNumber} {modelCommitment : Commitment}
  {proofSystem : ProofSystem} {submission : InferenceProofSubmission} {validatorFeeBps treasuryFeeBps slashBps : UInt16}
  {verify : ProofVerifier}

theorem not_begins (hop : op.settles s = none)
    (hcreate : ∀ owner domain creationBurn, op ≠ .createSubnet owner domain creationBurn) : ¬ op.Begins s := by
  cases op with
  | createSubnet owner domain creationBurn => exact absurd rfl (hcreate owner domain creationBurn)
  | _ => rintro ⟨c, _, _, _, hc, -⟩; rw [hop] at hc; cases hc

theorem begins_of_settles (hop : op.settles s = some c) :
    op.Begins s ↔ ∃ minerOperator validatorOperator settlement,
      c.plan s = .ok (minerOperator, validatorOperator, settlement) ∧
        settlement.minerPayment.toNat ≤ s.free c.payer := by
  have hbegins : op.Begins s ↔ ∃ c minerOperator validatorOperator settlement,
      op.settles s = some c ∧ c.plan s = .ok (minerOperator, validatorOperator, settlement) ∧
        settlement.minerPayment.toNat ≤ s.free c.payer := by
    cases op with
    | createSubnet => cases hop
    | _ => exact Iff.rfl
  rw [hbegins]
  constructor
  · rintro ⟨c', minerOperator, validatorOperator, settlement, hc', h⟩
    rw [hop] at hc'
    cases hc'
    exact ⟨minerOperator, validatorOperator, settlement, h⟩
  · rintro ⟨minerOperator, validatorOperator, settlement, h⟩
    exact ⟨c, minerOperator, validatorOperator, settlement, hop, h⟩

/-- A slash is not a settlement. -/
theorem not_begins_of_slashes {p : MinerId × UInt16} (hop : op.slashes s = some p) : ¬ op.Begins s := by
  cases op with
  | slashMiner => exact not_begins rfl fun _ _ _ h => by cases h
  | processProof payer submission payment validatorFeeBps treasuryFeeBps verify =>
    refine not_begins ?_ fun _ _ _ h => by cases h
    simp only [Operation.slashes] at hop
    split at hop
    · rename_i hverdict
      exact if_neg (by rw [hverdict]; simp)
    · cases hop
  | _ => cases hop

theorem effects_discard {α : Type} {x : Op α} (h : Effects x s op) : Effects (do let _ ← x) s op := by
  unfold Effects
  rw [ends_bind]
  exact h

theorem effect_of_effects {x : Op Unit} (h : Effects x s op) : Effect s op (x s) := by
  unfold Effects Ends at h
  cases hx : x s with
  | ok _ s' => rw [hx] at h; exact h
  | error e s' => rw [hx] at h; exact h

/-- The miner that was read before a balance move is still there after it. -/
theorem ends_updateMiner {miner : MinerRegistration} {f : MinerRegistration → MinerRegistration}
    (h : s.miners.lookup minerId = some miner) : Ends (updateMiner minerId f) s
      (fun _ s' => s' = { s with miners := s.miners.insert minerId (f miner) }) (fun _ _ => False) := by
  simp only [updateMiner, ends_bind, ends_get, ends_modify, ends_lift_okOr, h]
  exact ⟨fun m hm => by cases hm; rfl, fun hnone => by cases hnone⟩

theorem effects_createSubnet (hs : s.Regular) :
    Effects (createSubnet owner domain creationBurn) s (.createSubnet owner domain creationBurn) := by
  unfold Effects createSubnet
  rw [ends_bind, ends_lift]
  unfold SubnetPolicy.validateCreationBurn
  refine ⟨fun amount hamount => ?_, fun e herror => .refused .refl fun hb => ?_⟩
  rotate_left
  · have hnot : ¬ creationBurn < SubnetPolicy.qubitum.creationBurn := Nat.not_lt.mpr hb.1
    rw [if_neg hnot] at herror
    cases herror
  have hmin : minerRegistrationBurn.toNat ≤ creationBurn.toNat := by
    split at hamount
    · cases hamount
    · exact Nat.not_lt.mp ‹_›
  rw [ends_bind]
  refine (ends_burn hs.fits).mono ?_ ?_
  · rintro _ _ ⟨hfree, rfl⟩
    have hfresh : (s.subnets.lookup s.nextSubnetId).isNone = true := by rw [hs.subnetFresh]; rfl
    have hid : (s.burnt owner creationBurn).nextSubnetId = s.nextSubnetId := rfl
    simp only [ends_bind, ends_get, ends_modify, ends_pure, ends_lift_okOr, ends_lift_ensure, hid]
    -- the burn is final here; only a counter at its maximum stops the operation now
    by_cases hnext : s.nextSubnetId.toNat + 1 < 2 ^ 16
    · have hadd : Checked.add16 s.nextSubnetId 1 = some (s.nextSubnetId + 1) := if_pos hnext
      rw [hadd]
      refine ⟨fun next hn => ?_, fun hnone => by cases hnone⟩
      cases hn
      exact ⟨fun _ => .subnetCreated hmin hfree hnext, fun hdup => absurd hfresh hdup⟩
    · have hadd : Checked.add16 s.nextSubnetId 1 = none := if_neg hnext
      rw [hadd]
      exact ⟨fun _ hsome => (by cases hsome), fun _ => .subnetIdsExhausted hmin hfree hnext⟩
  · rintro e _ ⟨hpoor, rfl⟩
    exact .refused .put fun hb => absurd hb.2 (Nat.not_le.mpr hpoor)

theorem effects_registerMiner (hs : s.Regular) :
    Effects (registerMiner operator subnetId modelCommitment proofSystem) s
      (.registerMiner operator subnetId modelCommitment proofSystem) := by
  have hearly : ¬ (Operation.registerMiner operator subnetId modelCommitment proofSystem).Begins s :=
    not_begins rfl fun _ _ _ h => by cases h
  unfold Effects registerMiner
  simp only [ends_bind, ends_get, ends_lift_okOr, ends_lift_ensure]
  refine ⟨fun subnet hsubnet => ⟨fun _ => ?_, fun _ => .refused .refl hearly⟩, fun _ => .refused .refl hearly⟩
  rw [ends_lift]
  refine ⟨fun _ _ => ?_, fun _ _ => .refused .refl hearly⟩
  have hburn : subnet.policy.minerBond.registrationBurn = minerRegistrationBurn := by
    rw [hs.policies hsubnet]; rfl
  rw [hburn]
  refine (ends_burn hs.fits).mono ?_ ?_
  · rintro _ _ ⟨hfree, rfl⟩
    have hadd : Checked.add64 (s.burnt operator minerRegistrationBurn).nextMinerId 1 =
        some (s.nextMinerId + 1) := if_pos hs.minerRoom
    rw [hadd]
    exact ⟨fun next hn => by cases hn; exact .minerRegistered hfree hs.minerRoom, fun hnone => by cases hnone⟩
  · rintro e _ ⟨-, rfl⟩
    exact .refused .put hearly

theorem effects_activateMiner (hs : s.Regular) :
    Effects (activateMiner minerId bond) s (.activateMiner minerId bond) := by
  have hearly : ¬ (Operation.activateMiner minerId bond).Begins s := not_begins rfl fun _ _ _ h => by cases h
  unfold Effects activateMiner
  simp only [ends_bind, ends_get, ends_lift_okOr]
  refine ⟨fun miner hminer => ⟨fun subnet _ => ?_, fun _ => .refused .refl hearly⟩, fun _ => .refused .refl hearly⟩
  rw [ends_lift]
  refine ⟨fun _ _ => ?_, fun _ _ => .refused .refl hearly⟩
  refine (ends_lock hs.fits).mono ?_ ?_
  · rintro _ _ ⟨hfree, rfl⟩
    refine (ends_updateMiner (s := s.lockedUp miner.operator bond) hminer).mono ?_ fun _ _ h => h.elim
    rintro _ _ rfl
    exact .minerActivated hminer hfree
  · rintro e _ rfl
    exact .refused .put hearly

theorem effects_beginMinerExit :
    Effects (beginMinerExit minerId currentBlock) s (.beginMinerExit minerId currentBlock) := by
  have hearly : ¬ (Operation.beginMinerExit minerId currentBlock).Begins s := not_begins rfl fun _ _ _ h => by cases h
  unfold Effects beginMinerExit
  simp only [ends_bind, ends_get, ends_lift_okOr]
  refine ⟨fun miner hminer => ⟨fun subnet _ => ?_, fun _ => .refused .refl hearly⟩, fun _ => .refused .refl hearly⟩
  rw [ends_lift]
  refine ⟨fun exitAvailableAt _ => ?_, fun _ _ => .refused .refl hearly⟩
  refine (ends_updateMiner hminer).mono ?_ fun _ _ h => h.elim
  rintro _ _ rfl
  exact .exitBegun hminer

theorem effects_completeMinerExit (hs : s.Regular) :
    Effects (completeMinerExit minerId currentBlock) s (.completeMinerExit minerId currentBlock) := by
  have hearly : ¬ (Operation.completeMinerExit minerId currentBlock).Begins s := not_begins rfl fun _ _ _ h => by cases h
  unfold Effects completeMinerExit
  simp only [ends_bind, ends_get, ends_lift_okOr]
  refine ⟨fun miner hminer => ?_, fun _ => .refused .refl hearly⟩
  cases miner.status with
  | exiting exitAvailableAt =>
    simp only [ends_bind, ends_lift_ensure]
    refine ⟨fun _ => ?_, fun _ => .refused .refl hearly⟩
    refine (ends_unlock hs.fits).mono ?_ ?_
    · rintro _ _ ⟨hlocked, rfl⟩
      refine (ends_updateMiner (s := s.unlocked miner.operator miner.bond) hminer).mono ?_ fun _ _ h => h.elim
      rintro _ _ rfl
      exact .exitCompleted hminer hlocked
    · rintro e _ rfl
      exact .refused .put hearly
  | _ => exact ends_throw.mpr (.refused .refl hearly)

theorem effects_registerValidator (hs : s.Regular) :
    Effects (registerValidator operator subnetId stake) s (.registerValidator operator subnetId stake) := by
  have hearly : ¬ (Operation.registerValidator operator subnetId stake).Begins s :=
    not_begins rfl fun _ _ _ h => by cases h
  unfold Effects registerValidator
  simp only [ends_bind, ends_get, ends_lift_okOr]
  refine ⟨fun subnet hsubnet => ?_, fun _ => .refused .refl hearly⟩
  rw [ends_lift]
  refine ⟨fun amount hamount => ?_, fun _ _ => .refused .refl hearly⟩
  have hmin : minMinerBond.toNat ≤ stake.toNat := by
    rw [hs.policies hsubnet] at hamount
    unfold SubnetPolicy.validateValidatorStake at hamount
    split at hamount
    · cases hamount
    · exact Nat.not_lt.mp ‹_›
  refine (ends_lock hs.fits).mono ?_ ?_
  · rintro _ _ ⟨hfree, rfl⟩
    have hadd : Checked.add64 (s.lockedUp operator stake).nextValidatorId 1 =
        some (s.nextValidatorId + 1) := if_pos hs.validatorRoom
    rw [hadd]
    exact ⟨fun next hn => by cases hn; exact .validatorRegistered hmin hfree hs.validatorRoom,
      fun hnone => by cases hnone⟩
  · rintro e _ rfl
    exact .refused .put hearly

theorem money_paid (hfit : s.Fits) (h : n.toNat ≤ s.free a) : (s.paid a b n).money = s.money := by
  have hdebit := money_debited h
  unfold Fits at hfit
  unfold paid
  rw [money_credited (by omega)]
  exact hdebit

theorem fits_paid (hfit : s.Fits) (h : n.toNat ≤ s.free a) : (s.paid a b n).Fits := by
  unfold Fits
  rw [money_paid hfit h]
  exact hfit

section
variable (hs : s.Regular)
include hs

/-- A settlement ends with all three transfers made, or stops at one of them. -/
theorem effects_submitValidProof (hop : op.settles s = some c) :
    Effects (submitValidProof c.payer c.submission c.payment c.validatorFeeBps c.treasuryFeeBps) s op := by
  unfold Effects submitValidProof
  rw [ends_bind, ends_get, ends_bind, ends_lift]
  refine ⟨?_, fun e herror => .refused .refl ?_⟩
  rotate_left
  · rw [begins_of_settles hop]
    rintro ⟨_, _, _, hplan, -⟩
    cases herror.symm.trans hplan
  rintro ⟨minerOperator, validatorOperator, settlement⟩ hplan
  show Ends (_ >>= fun _ => _) s _ _
  rw [ends_bind]
  refine (ends_transfer hs.fits).mono ?_ ?_
  rotate_left
  · rintro e _ ⟨hpoor, rfl⟩
    refine .refused .put ?_
    rw [begins_of_settles hop]
    rintro ⟨_, _, _, hplan', h⟩
    cases hplan.symm.trans hplan'
    exact absurd h (Nat.not_le.mpr hpoor)
  rintro _ s1 ⟨h1, hs1⟩
  have hfit1 : s1.Fits := hs1 ▸ fits_paid hs.fits h1
  rw [ends_bind]
  refine (ends_transfer hfit1).mono ?_ fun e _ h => by
    rw [h.2]; exact .partPaidMiner hop hplan h1 hs1 h.1
  rintro _ s2 ⟨h2, hs2⟩
  have hfit2 : s2.Fits := hs2 ▸ fits_paid hfit1 h2
  rw [ends_bind]
  refine (ends_transfer hfit2).mono ?_ fun e _ h => by
    rw [h.2]; exact .partPaidValidator hop hplan h1 hs1 h2 hs2 h.1
  rintro _ s3 ⟨h3, hs3⟩
  simp only [ends_bind, ends_modify, ends_pure]
  have hrecords : s3.records = s.records := by rw [hs3, hs2, hs1]; rfl
  rw [hrecords]
  exact .settled hop hplan h1 hs1 h2 hs2 h3 hs3

theorem effects_slashMiner (hop : op.slashes s = some (minerId, slashBps)) :
    Effects (slashMiner minerId slashBps) s op := by
  have hearly := not_begins_of_slashes hop
  unfold Effects slashMiner
  simp only [ends_bind, ends_get, ends_lift_okOr]
  refine ⟨fun miner hminer => ⟨fun subnet hsubnet => ?_, fun _ => .refused .refl hearly⟩,
    fun _ => .refused .refl hearly⟩
  rw [ends_lift]
  refine ⟨fun amount hslash => ⟨fun remaining hsub => ?_, fun _ => .refused .refl hearly⟩,
    fun _ _ => .refused .refl hearly⟩
  have hamount := Checked.sub_eq_some hsub
  refine (ends_burnLocked hs.fits).mono ?_ ?_
  · rintro _ _ ⟨hlocked, rfl⟩
    refine (ends_updateMiner (s := s.burntLocked miner.operator amount) hminer).mono ?_ fun _ _ h => h.elim
    rintro _ _ rfl
    exact .slashed hop hminer hsubnet hslash (by omega) hlocked
  · rintro e _ ⟨-, rfl⟩
    exact .refused .put hearly

theorem effects_processProof :
    Effects (processProof payer submission payment validatorFeeBps treasuryFeeBps verify) s
      (.processProof payer submission payment validatorFeeBps treasuryFeeBps verify) := by
  have hearly : s.verdict submission verify ≠ some .valid →
      ¬ (Operation.processProof payer submission payment validatorFeeBps treasuryFeeBps verify).Begins s :=
    fun h => not_begins (if_neg h) fun _ _ _ hcreate => by cases hcreate
  unfold Effects processProof
  simp only [ends_bind, ends_get, ends_lift_okOr]
  refine ⟨fun subnet hsubnet => ?_, fun hnone => .refused .refl (hearly ?_)⟩
  rotate_left
  · unfold verdict
    rw [hnone]
    exact fun hvalid => by cases hvalid
  rw [ends_lift]
  refine ⟨fun outcome houtcome => ?_, fun e herror => .refused .refl (hearly ?_)⟩
  rotate_left
  · unfold verdict
    rw [hsubnet]
    show (verify submission subnet.policy).toOption ≠ some .valid
    rw [herror]
    exact fun hvalid => by cases hvalid
  have hverdict : s.verdict submission verify = some outcome := by
    unfold verdict
    rw [hsubnet]
    show (verify submission subnet.policy).toOption = some outcome
    rw [houtcome]
    rfl
  cases outcome with
  | valid =>
    rw [ends_bind]
    exact effects_submitValidProof hs
      (c := ⟨payer, submission, payment, validatorFeeBps, treasuryFeeBps⟩) (if_pos hverdict)
  | invalid slashBps =>
    rw [ends_bind]
    apply effects_slashMiner hs
    simp only [Operation.slashes, hverdict]
  | error => exact ends_throw.mpr (.refused .refl (hearly (by rw [hverdict]; simp)))

/-- **An operation has one of its effects**, and no other. -/
theorem exec_effect (op : Operation) : Effect s op (op.exec s) := by
  apply effect_of_effects
  cases op with
  | createSubnet => exact effects_discard (effects_createSubnet hs)
  | registerMiner => exact effects_discard (effects_registerMiner hs)
  | activateMiner => exact effects_activateMiner hs
  | beginMinerExit => exact effects_beginMinerExit
  | completeMinerExit => exact effects_completeMinerExit hs
  | registerValidator => exact effects_discard (effects_registerValidator hs)
  | submitValidProof payer submission payment validatorFeeBps treasuryFeeBps =>
    exact effects_discard (effects_submitValidProof hs
      (c := ⟨payer, submission, payment, validatorFeeBps, treasuryFeeBps⟩) rfl)
  | processProof => exact effects_discard (effects_processProof hs)
  | slashMiner => exact effects_discard (effects_slashMiner hs rfl)
end
end ProtocolState
end Qubitum
