import Qubitum.Protocol.Supply

/-!
# `Protocol.Backing` — what backs a locked balance

The locked balance of an account should be the bonds of the miners and the stakes of the validators it
operates. Every operation moves both sides together, except one: `activate_miner` does not look at the
status of the miner, and a second activation locks a new bond and *overwrites* the old one. The overwritten
bond stays locked with no registration left that could release or slash it.

`stranded` adds up the bonds a run overwrites, and the locked balance is the registered capital plus
exactly that amount. So it is backed precisely when no activation of the run found a bond to overwrite.
-/

namespace Qubitum
open Outcome Mutation MapSum

namespace ProtocolState
variable {s s' : ProtocolState} {a b : AccountId} {op : Operation}

/-- What a miner contributes to the capital of `a`. -/
def bondFor (a : AccountId) (miner : MinerRegistration) : Nat :=
  if miner.operator = a then miner.bond.toNat else 0

/-- What a validator contributes to the capital of `a`. -/
def stakeFor (a : AccountId) (validator : ValidatorRegistration) : Nat :=
  if validator.operator = a then validator.staked.toNat else 0

/-- The sum of the bonds of the miners operated by `a`. -/
def bondsOf (s : ProtocolState) (a : AccountId) : Nat := total (bondFor a) s.miners

/-- The sum of the stakes of the validators operated by `a`. -/
def stakesOf (s : ProtocolState) (a : AccountId) : Nat := total (stakeFor a) s.validators

/-- What an operation overwrites of the bonds of the miners operated by `a`. -/
def overwritten (s : ProtocolState) (op : Operation) (a : AccountId) : Nat :=
  match op with
  | .activateMiner minerId bond =>
      match activateMiner minerId bond s with
      | .ok _ _    => weightAt (bondFor a) s.miners minerId
      | .error _ _ => 0
  | _ => 0

/-- What a run overwrites of the bonds of the miners operated by `a`. -/
def stranded (s : ProtocolState) : List Operation → AccountId → Nat
  | [], _        => 0
  | op :: ops, a => overwritten s op a + stranded (s.step op) ops a

/-! ## One operation -/

theorem overwritten_of_error {e : ProtocolError} (h : op.exec s = .error e s') : overwritten s op a = 0 := by
  cases op with
  | activateMiner minerId bond =>
    have h' : activateMiner minerId bond s = .error e s' := h
    simp only [overwritten, h']
  | _ => rfl

theorem overwritten_of_settles {c : SettlementCall} (h : op.settles s = some c) : overwritten s op a = 0 := by
  cases op with
  | activateMiner => cases h
  | _ => rfl

theorem overwritten_of_slashes {p : MinerId × UInt16} (h : op.slashes s = some p) : overwritten s op a = 0 := by
  cases op with
  | activateMiner => cases h
  | _ => rfl

theorem locked_touched (h : Touched s s') : s'.locked a = s.locked a := by
  obtain rfl | ⟨b, rfl⟩ := h
  · rfl
  · rw [locked_put]
    split
    · rename_i hab; subst hab; rfl
    · rfl

/-- An operation that fails has moved free balances at most. -/
theorem Effect.failed {e : ProtocolError} (h : Effect s op (.error e s')) :
    SameRegistry s s' ∧ ∀ a, s'.locked a = s.locked a := by
  cases h with
  | refused ht _ => exact ⟨sameRegistry_touched ht, fun _ => locked_touched ht⟩
  | subnetIdsExhausted => exact ⟨⟨rfl, rfl, rfl, rfl, rfl, rfl, rfl, rfl⟩, fun _ => locked_burnt⟩
  | partPaidMiner _ _ _ hs1 _ =>
    subst hs1
    exact ⟨sameRegistry_paid.trans sameRegistry_put, fun _ => (locked_touched .put).trans locked_paid⟩
  | partPaidValidator _ _ _ hs1 _ hs2 _ =>
    subst hs1 hs2
    exact ⟨(sameRegistry_paid.trans sameRegistry_paid).trans sameRegistry_put,
      fun _ => (locked_touched .put).trans (locked_paid.trans locked_paid)⟩

variable {excess : Nat}

/-- Nothing that counts has changed. -/
theorem backed_same (hm : s'.miners = s.miners) (hv : s'.validators = s.validators)
    (hl : s'.locked a = s.locked a) (h : s.locked a = s.bondsOf a + s.stakesOf a + excess) :
    s'.locked a = s'.bondsOf a + s'.stakesOf a + (excess + 0) := by
  unfold bondsOf stakesOf
  rw [hm, hv, hl]
  exact h

/-- A miner's record rewritten: the locked balance of its operator has to follow the bond. -/
theorem backed_rebond (s' : ProtocolState) {minerId : MinerId} {miner miner' : MinerRegistration}
    (moved : Nat) (hminer : s.miners.lookup minerId = some miner) (hval : s'.validators = s.validators)
    (h : s.locked a = s.bondsOf a + s.stakesOf a + excess)
    (hlocked : s'.locked a + bondFor a miner = s.locked a + bondFor a miner' + moved) :
    let s'' := { s' with miners := s.miners.insert minerId miner' }
    s''.locked a = s''.bondsOf a + s''.stakesOf a + (excess + moved) := by
  have hwrite := total_insert (bondFor a) s.miners minerId miner'
  rw [weightAt_some hminer] at hwrite
  have hle := weightAt_le_total (bondFor a) s.miners minerId
  show s'.locked a = total _ (s.miners.insert minerId miner') + total _ s'.validators + _
  rw [hval]
  unfold bondsOf stakesOf at h
  omega

/-- An operation moves the locked balance with the registered capital, up to what it overwrites. -/
theorem backed_effect (hs : s.Sound) {r : EStateM.Result ProtocolError ProtocolState Unit}
    (hr : op.exec s = r) (he : Effect s op r) (h : s.locked a = s.bondsOf a + s.stakesOf a + excess) :
    (left r).locked a = (left r).bondsOf a + (left r).stakesOf a + (excess + overwritten s op a) := by
  cases r with
  | error e s' =>
    obtain ⟨hreg, hlocked⟩ := he.failed
    rw [overwritten_of_error hr]
    exact backed_same hreg.miners hreg.validators (hlocked a) h
  | ok u s' => ?_
  cases he with
  | @subnetCreated owner _ creationBurn _ _ _ =>
    refine backed_same (s := s) rfl rfl ?_ h
    exact (locked_congr (s := s.burnt owner creationBurn) rfl).trans locked_burnt
  | @minerRegistered operator subnetId modelCommitment proofSystem _ _ =>
    have hzero : total (bondFor a) (s.miners.insert s.nextMinerId
        ⟨s.nextMinerId, operator, subnetId, modelCommitment, proofSystem, 0, .pending, none, none⟩) =
        total (bondFor a) s.miners := by
      rw [total_insert_absent (lookup_next_eq_none hs.minerIds)]
      unfold bondFor
      simp
    show (s.debited _ _).locked a = total _ (s.miners.insert _ _) + s.stakesOf a + _
    rw [hzero, locked_debited]
    exact h
  | @minerActivated minerId bond miner hminer hfree =>
    have hover : overwritten s (.activateMiner minerId bond) a = bondFor a miner := by
      have hok : activateMiner minerId bond s = .ok () _ := hr
      simp only [overwritten, hok]
      exact weightAt_some hminer
    rw [hover]
    refine backed_rebond (s.lockedUp miner.operator bond) _ hminer rfl h ?_
    rw [locked_lockedUp hs.fits hfree]
    rfl
  | exitBegun hminer => exact backed_rebond s 0 hminer rfl h rfl
  | @exitCompleted minerId currentBlock miner hminer hlocked =>
    refine backed_rebond (s.unlocked miner.operator miner.bond) 0 hminer rfl h ?_
    unfold bondFor
    show _ + (if miner.operator = a then miner.bond.toNat else 0) = _
    rw [unlocked, locked_put_sub hlocked]
    show s.locked a = s.locked a + (if miner.operator = a then 0 else 0)
    rw [ite_self, Nat.add_zero]
  | @validatorRegistered operator subnetId stake _ hfree _ =>
    have hadd : total (stakeFor a) (s.validators.insert s.nextValidatorId
        ⟨s.nextValidatorId, operator, stake, [subnetId], .active⟩) =
        (if operator = a then stake.toNat else 0) + total (stakeFor a) s.validators :=
      total_insert_absent (lookup_next_eq_none hs.validatorIds)
    show (s.lockedUp operator stake).locked a = s.bondsOf a + total _ (s.validators.insert _ _) + (excess + 0)
    rw [hadd, locked_lockedUp hs.fits hfree]
    unfold stakesOf at h
    omega
  | @settled _ c _ _ _ s1 s2 s3 hop _ _ hs1 _ hs2 _ hs3 =>
    have hlocked : s3.locked a = s.locked a := by rw [hs3, locked_paid, hs2, locked_paid, hs1, locked_paid]
    subst hs1 hs2 hs3
    rw [overwritten_of_settles hop]
    exact backed_same (s := s) rfl rfl hlocked h
  | @slashed _ minerId slashBps miner subnet amount remaining hop hminer _ _ hamount hlocked =>
    rw [overwritten_of_slashes hop]
    refine backed_rebond (s.burntLocked miner.operator amount) 0 hminer rfl h ?_
    have hburnt := locked_burntLocked (c := a) hlocked
    show _ + (if miner.operator = a then miner.bond.toNat else 0) =
      s.locked a + (if miner.operator = a then remaining.toNat else 0)
    split_ifs at hburnt ⊢ <;> omega

/-! ## Runs -/

theorem backed_run (hs : s.Sound) (h : s.locked a = s.bondsOf a + s.stakesOf a + excess) (ops : List Operation) :
    (s.run ops).locked a = (s.run ops).bondsOf a + (s.run ops).stakesOf a + (excess + stranded s ops a) := by
  induction ops generalizing s excess with
  | nil => exact h
  | cons op ops ih =>
    have hstep := backed_effect hs rfl (exec_effect hs.regular op) h
    have htail := ih (hs.step op) hstep
    rw [run_cons]
    show _ = _ + _ + (excess + (overwritten s op a + stranded (s.step op) ops a))
    omega

/-- The operation activates a miner that already has a bond. -/
def Overwrites (s : ProtocolState) (op : Operation) : Prop :=
  ∃ minerId bond miner s', op = .activateMiner minerId bond ∧ op.exec s = .ok () s' ∧
    s.miners.lookup minerId = some miner ∧ miner.bond ≠ 0

theorem overwritten_eq_zero_iff : (∀ a, overwritten s op a = 0) ↔ ¬ s.Overwrites op := by
  constructor
  · rintro h ⟨minerId, bond, miner, s', rfl, hok, hminer, hbond⟩
    have hok' : activateMiner minerId bond s = .ok () s' := hok
    have hzero := h miner.operator
    simp only [overwritten, hok', weightAt_some hminer, bondFor, if_true] at hzero
    exact hbond (BitVec.eq_of_toNat_eq hzero)
  · intro h a
    cases op with
    | activateMiner minerId bond =>
      cases hexec : activateMiner minerId bond s with
      | error e s' =>
        have h' : (Operation.activateMiner minerId bond).exec s = .error e s' := hexec
        exact overwritten_of_error h'
      | ok u s' =>
        simp only [overwritten, hexec]
        cases hminer : s.miners.lookup minerId with
        | none => exact weightAt_none hminer
        | some miner =>
          rw [weightAt_some hminer]
          have hbond : miner.bond = 0 := by
            by_contra hne
            exact h ⟨minerId, bond, miner, s', rfl, hexec, hminer, hne⟩
          unfold bondFor
          rw [hbond]
          simp
    | _ => rfl

theorem stranded_eq_zero_iff (ops : List Operation) :
    (∀ a, stranded s ops a = 0) ↔ ∀ pre op post, ops = pre ++ op :: post → ¬ (s.run pre).Overwrites op := by
  induction ops generalizing s with
  | nil => exact ⟨fun _ pre op post h => by simp at h, fun _ _ => rfl⟩
  | cons op ops ih =>
    have hsplit : (∀ a, stranded s (op :: ops) a = 0) ↔
        (∀ a, overwritten s op a = 0) ∧ ∀ a, stranded (s.step op) ops a = 0 := by
      have hcons : ∀ a, stranded s (op :: ops) a = overwritten s op a + stranded (s.step op) ops a := fun _ => rfl
      simp only [hcons, Nat.add_eq_zero_iff, forall_and]
    rw [hsplit, overwritten_eq_zero_iff, ih]
    constructor
    · rintro ⟨hhead, htail⟩ pre op' post hops
      cases pre with
      | nil => cases hops; exact hhead
      | cons op1 pre => cases hops; exact htail pre op' post rfl
    · intro h
      refine ⟨h [] op ops rfl, fun pre op' post hops => ?_⟩
      exact h (op :: pre) op' post (by rw [hops]; rfl)

theorem backed_genesis {treasuryAccount : AccountId} {endowed : List (AccountId × Balance)}
    (h : withGenesis treasuryAccount endowed = .ok s) : s.locked a = s.bondsOf a + s.stakesOf a + 0 := by
  obtain ⟨-, hnew, hlocked⟩ := genesis_issues h
  have hminers : s.miners = ∅ := by rw [hnew]; rfl
  have hvalidators : s.validators = ∅ := by rw [hnew]; rfl
  unfold bondsOf stakesOf
  rw [hlocked a, hminers, hvalidators]
  rfl

/-- **Locked funds are backed exactly when no bond is overwritten.** In the state a run from a successful
    genesis reaches, every locked balance is the sum of the bonds and stakes its account operates if and
    only if no activation of the run found a miner that already had a bond. -/
theorem locked_backed_iff {treasuryAccount : AccountId} {endowed : List (AccountId × Balance)}
    {genesis : ProtocolState} (hgenesis : withGenesis treasuryAccount endowed = .ok genesis) (ops : List Operation) :
    (∀ a, (genesis.run ops).locked a = (genesis.run ops).bondsOf a + (genesis.run ops).stakesOf a) ↔
      ∀ pre op post, ops = pre ++ op :: post → ¬ (genesis.run pre).Overwrites op := by
  rw [← stranded_eq_zero_iff]
  refine forall_congr' fun a => ?_
  rw [backed_run (sound_genesis hgenesis) (backed_genesis hgenesis)]
  omega

open Sample

/-- Activated twice, the miner has one bond and its operator has locked two. -/
theorem locked_twice : let s := genesis.run (opened ++ [.activateMiner 0 minMinerBond])
    s.Reachable ∧ s.locked (account 2) = 200000000000 ∧
      s.bondsOf (account 2) = 100000000000 ∧ s.stakesOf (account 2) = 0 := by
  refine ⟨⟨_, _, _, _, genesis_ok, rfl⟩, ?_⟩
  decide +kernel

theorem locked_backed_opened :
    (∀ a, (genesis.run opened).locked a =
      (genesis.run opened).bondsOf a + (genesis.run opened).stakesOf a) ↔
      ∀ pre op post, opened = pre ++ op :: post → ¬ (genesis.run pre).Overwrites op :=
  locked_backed_iff genesis_ok opened
end ProtocolState
end Qubitum
