import Qubitum.Protocol.Effects

/-!
# `Protocol.Supply` — conservation of the supply

Every balance move shifts an amount between a free balance, a locked balance and the burned total; the
lemmas of the first section say by how much each of the three sums changes. With them the invariant
`Sound` is checked once per effect. Next to the supply it carries what keeps the identifier counters from
overflowing: every miner has cost a registration burn, every validator a stake that stays locked, and
there is not enough supply to pay for 2^64 of either.
-/

namespace Qubitum
open Outcome Mutation MapSum

/-- What a miner has locked. -/
def MinerRegistration.bonded (miner : MinerRegistration) : Nat := miner.bond.toNat

/-- What a validator has locked. -/
def ValidatorRegistration.stakes (validator : ValidatorRegistration) : Nat := validator.staked.toNat

namespace ProtocolState
variable {s s' : ProtocolState} {a b c : AccountId} {l : AccountLedger} {n : Balance} {op : Operation}

/-! ## What the balance moves do to the sums -/

theorem free_put : (s.put a l).free c = if c = a then l.free.toNat else s.free c := by
  unfold free
  by_cases h : c = a
  · rw [if_pos h, h, ledger_put_self]
  · rw [if_neg h, ledger_put_of_ne h]

theorem locked_put : (s.put a l).locked c = if c = a then l.locked.toNat else s.locked c := by
  unfold locked
  by_cases h : c = a
  · rw [if_pos h, h, ledger_put_self]
  · rw [if_neg h, ledger_put_of_ne h]

theorem lockedMoney_debited : (s.debited a n).lockedMoney = s.lockedMoney := by
  have h := lockedMoney_put s a ⟨(s.ledger a).free - n, (s.ledger a).locked⟩
  unfold debited
  simp only [locked] at h
  omega

theorem totalBurned_add (hfit : s.Fits) (h : n.toNat ≤ s.money) :
    (s.totalBurned + n).toNat = s.totalBurned.toNat + n.toNat := by
  unfold Fits at hfit
  exact toNat_add_of_lt (by omega)

theorem money_burntLocked (h : n.toNat ≤ s.locked a) : (s.burntLocked a n).money + n.toNat = s.money := by
  have hput := money_put s a ⟨(s.ledger a).free, (s.ledger a).locked - n⟩
  simp only [AccountLedger.sum, toNat_sub_of_le h] at hput
  show (s.put a ⟨(s.ledger a).free, (s.ledger a).locked - n⟩).money + n.toNat = s.money
  unfold locked at h
  omega

theorem lockedMoney_burntLocked (h : n.toNat ≤ s.locked a) :
    (s.burntLocked a n).lockedMoney + n.toNat = s.lockedMoney := by
  have hput := lockedMoney_put s a ⟨(s.ledger a).free, (s.ledger a).locked - n⟩
  simp only [toNat_sub_of_le h] at hput
  show (s.put a ⟨(s.ledger a).free, (s.ledger a).locked - n⟩).lockedMoney + n.toNat = s.lockedMoney
  unfold locked at h hput
  omega

section
variable (hfit : s.Fits)
include hfit

/-- Locking cannot overflow: the amount is part of the money there is. -/
theorem locked_add (h : n.toNat ≤ s.free a) :
    ((s.ledger a).locked + n).toNat = s.locked a + n.toNat := by
  have hsum := sum_le_money s a
  unfold Fits at hfit
  unfold locked at hsum
  exact toNat_add_of_lt (by omega)

theorem free_add (h : n.toNat ≤ s.locked a) : ((s.ledger a).free + n).toNat = s.free a + n.toNat := by
  have hsum := sum_le_money s a
  unfold Fits at hfit
  unfold free at hsum
  exact toNat_add_of_lt (by omega)

theorem money_lockedUp (h : n.toNat ≤ s.free a) : (s.lockedUp a n).money = s.money := by
  have hput := money_put s a ⟨(s.ledger a).free - n, (s.ledger a).locked + n⟩
  have hlocked := locked_add hfit h
  simp only [AccountLedger.sum, toNat_sub_of_le h, hlocked] at hput
  unfold lockedUp
  unfold free at h
  unfold locked at hput
  omega

theorem lockedMoney_lockedUp (h : n.toNat ≤ s.free a) :
    (s.lockedUp a n).lockedMoney = s.lockedMoney + n.toNat := by
  have hput := lockedMoney_put s a ⟨(s.ledger a).free - n, (s.ledger a).locked + n⟩
  simp only [locked_add hfit h] at hput
  unfold lockedUp
  omega

theorem money_unlocked (h : n.toNat ≤ s.locked a) : (s.unlocked a n).money = s.money := by
  have hput := money_put s a ⟨(s.ledger a).free + n, (s.ledger a).locked - n⟩
  have hfree := free_add hfit h
  simp only [AccountLedger.sum, toNat_sub_of_le h, hfree] at hput
  unfold unlocked
  unfold locked at h
  unfold free at hput
  omega
end

theorem lockedMoney_unlocked (h : n.toNat ≤ s.locked a) : (s.unlocked a n).lockedMoney + n.toNat = s.lockedMoney := by
  have hput := lockedMoney_put s a ⟨(s.ledger a).free + n, (s.ledger a).locked - n⟩
  simp only [toNat_sub_of_le h] at hput
  unfold unlocked
  unfold locked at h hput
  omega

theorem lockedMoney_paid : (s.paid a b n).lockedMoney = s.lockedMoney := by
  have hput := lockedMoney_put (s.debited a n) b
    ⟨((s.debited a n).ledger b).free + n, ((s.debited a n).ledger b).locked⟩
  rw [← lockedMoney_debited (s := s) (a := a) (n := n)]
  unfold paid credited
  simp only [locked] at hput
  omega

theorem locked_debited : (s.debited a n).locked c = s.locked c := by
  unfold debited
  rw [locked_put]
  split
  · rename_i hca; subst hca; rfl
  · rfl

theorem locked_congr (h : s'.accounts = s.accounts) : s'.locked c = s.locked c := by
  unfold locked ledger
  rw [h]

theorem locked_burnt : (s.burnt a n).locked c = s.locked c :=
  (locked_congr (s := s.debited a n) rfl).trans locked_debited

theorem locked_credited : (s.credited a n).locked c = s.locked c := by
  unfold credited
  rw [locked_put]
  split
  · rename_i hca; subst hca; rfl
  · rfl

theorem locked_paid : (s.paid a b n).locked c = s.locked c := locked_credited.trans locked_debited

theorem locked_lockedUp (hfit : s.Fits) (h : n.toNat ≤ s.free a) :
    (s.lockedUp a n).locked c = s.locked c + if a = c then n.toNat else 0 := by
  unfold lockedUp
  rw [locked_put, locked_add hfit h]
  by_cases hca : c = a
  · rw [if_pos hca, if_pos hca.symm, hca]
  · rw [if_neg hca, if_neg (Ne.symm hca), Nat.add_zero]

/-- Unlocking and burning take the same from the locked balance. -/
theorem locked_put_sub {free : Balance} (h : n.toNat ≤ s.locked a) :
    (s.put a ⟨free, (s.ledger a).locked - n⟩).locked c + (if a = c then n.toNat else 0) = s.locked c := by
  rw [locked_put, toNat_sub_of_le h]
  by_cases hca : c = a
  · rw [if_pos hca, if_pos hca.symm, hca]
    exact Nat.sub_add_cancel h
  · rw [if_neg hca, if_neg (Ne.symm hca), Nat.add_zero]

theorem locked_burntLocked (h : n.toNat ≤ s.locked a) :
    (s.burntLocked a n).locked c + (if a = c then n.toNat else 0) = s.locked c := by
  have hput : (s.burntLocked a n).locked c =
      (s.put a ⟨(s.ledger a).free, (s.ledger a).locked - n⟩).locked c := locked_congr rfl
  exact locked_put_sub h

theorem money_touched (h : Touched s s') : s'.money = s.money := by
  obtain rfl | ⟨a, rfl⟩ := h
  · rfl
  · have hput := money_put s a (s.ledger a)
    omega

theorem lockedMoney_touched (h : Touched s s') : s'.lockedMoney = s.lockedMoney := by
  obtain rfl | ⟨a, rfl⟩ := h
  · rfl
  · have hput := lockedMoney_put s a (s.ledger a)
    unfold locked at hput
    omega

/-- Everything but the money of two states is the same. -/
structure SameRegistry (s s' : ProtocolState) : Prop where
  treasuryAccount : s'.treasuryAccount = s.treasuryAccount
  subnets : s'.subnets = s.subnets
  miners : s'.miners = s.miners
  validators : s'.validators = s.validators
  records : s'.records = s.records
  nextSubnetId : s'.nextSubnetId = s.nextSubnetId
  nextMinerId : s'.nextMinerId = s.nextMinerId
  nextValidatorId : s'.nextValidatorId = s.nextValidatorId

theorem SameRegistry.refl : SameRegistry s s := ⟨rfl, rfl, rfl, rfl, rfl, rfl, rfl, rfl⟩

theorem SameRegistry.trans {s'' : ProtocolState} (h : SameRegistry s s') (h' : SameRegistry s' s'') :
    SameRegistry s s'' :=
  ⟨h'.1.trans h.1, h'.2.trans h.2, h'.3.trans h.3, h'.4.trans h.4, h'.5.trans h.5, h'.6.trans h.6,
    h'.7.trans h.7, h'.8.trans h.8⟩

theorem sameRegistry_put : SameRegistry s (s.put a l) := ⟨rfl, rfl, rfl, rfl, rfl, rfl, rfl, rfl⟩

theorem sameRegistry_paid : SameRegistry s (s.paid a b n) := ⟨rfl, rfl, rfl, rfl, rfl, rfl, rfl, rfl⟩

theorem sameRegistry_touched (h : Touched s s') : SameRegistry s s' := by
  obtain rfl | ⟨a, rfl⟩ := h
  · exact .refl
  · exact sameRegistry_put

/-! ## The invariant -/

/-- What holds in every state of a run. -/
structure Sound (s : ProtocolState) : Prop where
  supply : s.money + s.totalBurned.toNat = initialSupply.toNat
  policies : ∀ {id c}, s.subnets.lookup id = some c → c.policy = SubnetPolicy.qubitum
  subnetIds : ∀ {id c}, s.subnets.lookup id = some c → id.toNat < s.nextSubnetId.toNat
  minerIds : ∀ {id m}, s.miners.lookup id = some m → id.toNat < s.nextMinerId.toNat
  validatorIds : ∀ {id v}, s.validators.lookup id = some v → id.toNat < s.nextValidatorId.toNat
  minerBurns : s.nextMinerId.toNat * minerRegistrationBurn.toNat ≤ s.totalBurned.toNat
  validatorStakes : s.nextValidatorId.toNat * minMinerBond.toNat ≤ total ValidatorRegistration.stakes s.validators
  backing : total MinerRegistration.bonded s.miners + total ValidatorRegistration.stakes s.validators ≤ s.lockedMoney

theorem lockedMoney_le_money (s : ProtocolState) : s.lockedMoney ≤ s.money := by
  apply Multiset.sum_map_le_sum_map
  intro e _
  exact Nat.le_add_left _ _

theorem initialSupply_toNat : initialSupply.toNat = 21000000000000000 := rfl

theorem Sound.fits (hs : s.Sound) : s.Fits := by
  have h := hs.supply
  have := initialSupply_toNat
  unfold Fits
  omega

section Counters
variable {K V : Type} [DecidableEq K] {m : Map K V} {toNat : K → Nat} {next : K} {v w : V}
  (h : ∀ {id w}, m.lookup id = some w → toNat id < toNat next)
include h

/-- The registry part of a new identifier: keys stay below the counter. -/
theorem lookup_insert_lt {next' id : K} (hnext : toNat next' = toNat next + 1)
    (hw : (m.insert next v).lookup id = some w) : toNat id < toNat next' := by
  rw [hnext]
  by_cases hid : id = next
  · subst hid; exact Nat.lt_succ_self _
  · rw [Finmap.lookup_insert_of_ne _ hid] at hw
    exact Nat.lt_succ_of_lt (h hw)

theorem lookup_next_eq_none : m.lookup next = none := by
  cases hw : m.lookup next with
  | none => rfl
  | some w => exact absurd (h hw) (Nat.lt_irrefl _)
end Counters

/-- The counters cannot reach their maximum: every identifier has cost more than the supply divided by
    2^64. -/
theorem Sound.regular (hs : s.Sound) : s.Regular where
  fits := hs.fits
  policies := hs.policies
  subnetFresh := lookup_next_eq_none hs.subnetIds
  minerRoom := by
    have hburn : minerRegistrationBurn.toNat = 10000000000 := rfl
    have hpaid := hs.minerBurns
    have hsupply := hs.supply
    have := initialSupply_toNat
    rw [hburn] at hpaid
    omega
  validatorRoom := by
    have hstake : minMinerBond.toNat = 100000000000 := rfl
    have hpaid := hs.validatorStakes
    have hbacking := hs.backing
    have hlocked := lockedMoney_le_money s
    have hsupply := hs.supply
    have := initialSupply_toNat
    rw [hstake] at hpaid
    omega

theorem Sound.touched (hs : s.Sound) (h : Touched s s') (hb : s'.totalBurned = s.totalBurned) : s'.Sound := by
  obtain ⟨-, hsub, hmin, hval, -, hns, hnm, hnv⟩ := sameRegistry_touched h
  obtain ⟨h1, h2, h3, h4, h5, h6, h7, h8⟩ := hs
  constructor
  · rw [money_touched h, hb]; exact h1
  · rw [hsub]; exact h2
  · rw [hsub, hns]; exact h3
  · rw [hmin, hnm]; exact h4
  · rw [hval, hnv]; exact h5
  · rw [hnm, hb]; exact h6
  · rw [hnv, hval]; exact h7
  · rw [hmin, hval, lockedMoney_touched h]; exact h8

theorem totalBurned_touched (h : Touched s s') : s'.totalBurned = s.totalBurned := by
  obtain rfl | ⟨a, rfl⟩ := h <;> rfl

section
variable (hs : s.Sound) (h : n.toNat ≤ s.free a)
include hs h

/-- Money moved between accounts, nothing else. -/
theorem Sound.paid : (s.paid a b n).Sound where
  supply := by rw [money_paid hs.fits h]; exact hs.supply
  policies := hs.policies
  subnetIds := hs.subnetIds
  minerIds := hs.minerIds
  validatorIds := hs.validatorIds
  minerBurns := hs.minerBurns
  validatorStakes := hs.validatorStakes
  backing := by rw [lockedMoney_paid]; exact hs.backing

theorem burnt_supply :
    (s.burnt a n).money + (s.burnt a n).totalBurned.toNat = initialSupply.toNat ∧
      (s.burnt a n).totalBurned.toNat = s.totalBurned.toNat + n.toNat := by
  have hmoney := money_debited h
  have hburned : (s.burnt a n).totalBurned.toNat = s.totalBurned.toNat + n.toNat := totalBurned_add hs.fits (by omega)
  have hsame : (s.burnt a n).money = (s.debited a n).money := rfl
  have hsupply := hs.supply
  exact ⟨by omega, hburned⟩

theorem Sound.burnt : (s.burnt a n).Sound where
  supply := (burnt_supply hs h).1
  policies := hs.policies
  subnetIds := hs.subnetIds
  minerIds := hs.minerIds
  validatorIds := hs.validatorIds
  minerBurns := by
    have hburned := (burnt_supply hs h).2
    have hpaid := hs.minerBurns
    show s.nextMinerId.toNat * _ ≤ _
    omega
  validatorStakes := hs.validatorStakes
  backing := by
    show _ ≤ (s.debited a n).lockedMoney
    rw [lockedMoney_debited]
    exact hs.backing
end

/-! ## Steps -/

/-- A miner's record rewritten together with the locked money that backs it. -/
theorem Sound.rebond (hs : s.Sound) (s' : ProtocolState) {minerId : MinerId} {miner miner' : MinerRegistration}
    (hminer : s.miners.lookup minerId = some miner) (hreg : SameRegistry s s')
    (hsupply : s'.money + s'.totalBurned.toNat = initialSupply.toNat)
    (hburned : s.totalBurned.toNat ≤ s'.totalBurned.toNat)
    (hlocked : s.lockedMoney + miner'.bonded ≤ s'.lockedMoney + miner.bonded) :
    Sound { s' with miners := s.miners.insert minerId miner' } where
  supply := hsupply
  policies := by rw [hreg.subnets]; exact hs.policies
  subnetIds := by rw [hreg.subnets, hreg.nextSubnetId]; exact hs.subnetIds
  minerIds := by
    intro id m hm
    rw [hreg.nextMinerId]
    by_cases hid : id = minerId
    · subst hid; exact hs.minerIds hminer
    · rw [Finmap.lookup_insert_of_ne _ hid] at hm
      exact hs.minerIds hm
  validatorIds := by rw [hreg.validators, hreg.nextValidatorId]; exact hs.validatorIds
  minerBurns := by
    rw [hreg.nextMinerId]
    exact hs.minerBurns.trans hburned
  validatorStakes := by rw [hreg.nextValidatorId, hreg.validators]; exact hs.validatorStakes
  backing := by
    have hbacking := hs.backing
    have hwrite := total_insert MinerRegistration.bonded s.miners minerId miner'
    rw [weightAt_some hminer] at hwrite
    rw [hreg.validators]
    show total _ (s.miners.insert minerId miner') + _ ≤ s'.lockedMoney
    omega

/-- **One operation keeps the invariant**, however it ends. -/
theorem Sound.effect (hs : s.Sound) {r : EStateM.Result ProtocolError ProtocolState Unit}
    (h : Effect s op r) : (left r).Sound := by
  cases h with
  | refused ht _ => exact hs.touched ht (totalBurned_touched ht)
  | subnetIdsExhausted _ hfree _ => exact hs.burnt hfree
  | @subnetCreated owner domain creationBurn _ hfree hnext =>
    have hb := hs.burnt hfree
    have hid : (s.nextSubnetId + 1).toNat = s.nextSubnetId.toNat + 1 := by
      exact Nat.mod_eq_of_lt hnext
    refine ⟨hb.supply, ?_, fun hc => lookup_insert_lt hs.subnetIds hid hc, hb.minerIds, hb.validatorIds,
      hb.minerBurns, hb.validatorStakes, hb.backing⟩
    intro id c hc
    by_cases h : id = s.nextSubnetId
    · subst h
      simp only [left, Finmap.lookup_insert, Option.some.injEq] at hc
      rw [← hc]
    · exact hs.policies (by simpa only [left, Finmap.lookup_insert_of_ne _ h] using hc)
  | @minerRegistered operator subnetId modelCommitment proofSystem hfree hnext =>
    have hb := hs.burnt hfree
    refine ⟨hb.supply, hb.policies, hb.subnetIds, fun hm => lookup_insert_lt hs.minerIds (Checked.toNat_succ64 hnext) hm,
      hb.validatorIds, ?_, hb.validatorStakes, ?_⟩
    · -- the new identifier is paid for by the burn of this registration
      have hburned := (burnt_supply hs hfree).2
      have hpaid := hs.minerBurns
      show (s.nextMinerId + 1).toNat * _ ≤ (s.burnt operator minerRegistrationBurn).totalBurned.toNat
      rw [Checked.toNat_succ64 hnext, Nat.add_mul, Nat.one_mul]
      omega
    · have hzero : total MinerRegistration.bonded (s.miners.insert s.nextMinerId
          ⟨s.nextMinerId, operator, subnetId, modelCommitment, proofSystem, 0, .pending, none, none⟩) =
          total MinerRegistration.bonded s.miners := by
        rw [total_insert_absent (lookup_next_eq_none hs.minerIds)]
        exact Nat.zero_add _
      show total _ (s.miners.insert _ _) + _ ≤ _
      rw [hzero]
      exact hb.backing
  | @minerActivated minerId bond miner hminer hfree =>
    refine hs.rebond (s.lockedUp miner.operator bond) hminer sameRegistry_put ?_ (le_refl _) ?_
    · rw [money_lockedUp hs.fits hfree]; exact hs.supply
    · rw [lockedMoney_lockedUp hs.fits hfree]
      show _ + bond.toNat ≤ _
      omega
  | @exitBegun minerId currentBlock miner exitAvailableAt hminer =>
    exact hs.rebond s hminer .refl hs.supply (le_refl _) (le_refl _)
  | @exitCompleted minerId currentBlock miner hminer hlocked =>
    refine hs.rebond (s.unlocked miner.operator miner.bond) hminer sameRegistry_put ?_ (le_refl _) ?_
    · rw [money_unlocked hs.fits hlocked]; exact hs.supply
    · rw [← lockedMoney_unlocked hlocked]
      show _ + 0 ≤ _ + miner.bond.toNat
      omega
  | @validatorRegistered operator subnetId stake hmin hfree hnext =>
    have habs := lookup_next_eq_none hs.validatorIds
    have hadd : total ValidatorRegistration.stakes (s.validators.insert s.nextValidatorId
        ⟨s.nextValidatorId, operator, stake, [subnetId], .active⟩) =
        stake.toNat + total ValidatorRegistration.stakes s.validators := total_insert_absent habs
    refine ⟨?_, hs.policies, hs.subnetIds, hs.minerIds,
      fun hv => lookup_insert_lt hs.validatorIds (Checked.toNat_succ64 hnext) hv, hs.minerBurns, ?_, ?_⟩
    · have hmoney : (s.lockedUp operator stake).money = s.money := money_lockedUp hs.fits hfree
      show (s.lockedUp operator stake).money + s.totalBurned.toNat = _
      rw [hmoney]
      exact hs.supply
    · have hpaid := hs.validatorStakes
      show (s.nextValidatorId + 1).toNat * _ ≤ total _ (s.validators.insert _ _)
      rw [Checked.toNat_succ64 hnext, Nat.add_mul, Nat.one_mul, hadd]
      omega
    · have hbacking := hs.backing
      show _ + total _ (s.validators.insert _ _) ≤ (s.lockedUp operator stake).lockedMoney
      rw [hadd, lockedMoney_lockedUp hs.fits hfree]
      show total _ s.miners + _ ≤ _
      omega
  | settled _ _ h₁ hs1 h₂ hs2 h₃ hs3 =>
    subst hs1 hs2 hs3
    obtain ⟨r1, r2, r3, r4, r5, r6, r7, r8⟩ := ((hs.paid h₁).paid h₂).paid (b := s.treasuryAccount) h₃
    exact ⟨r1, r2, r3, r4, r5, r6, r7, r8⟩
  | partPaidMiner _ _ h₁ hs1 _ =>
    subst hs1
    exact (hs.paid h₁).touched .put rfl
  | partPaidValidator _ _ h₁ hs1 h₂ hs2 _ =>
    subst hs1 hs2
    exact ((hs.paid h₁).paid h₂).touched .put rfl
  | @slashed _ minerId slashBps miner subnet amount remaining _ hminer _ _ hamount hlocked =>
    have hmoney := money_burntLocked hlocked
    have hburned : (s.totalBurned + amount).toNat = s.totalBurned.toNat + amount.toNat :=
      totalBurned_add hs.fits (by omega)
    refine hs.rebond (s.burntLocked miner.operator amount) hminer ⟨rfl, rfl, rfl, rfl, rfl, rfl, rfl, rfl⟩ ?_ ?_ ?_
    · have hsupply := hs.supply
      show _ + (s.totalBurned + amount).toNat = _
      omega
    · show _ ≤ (s.totalBurned + amount).toNat
      omega
    · have hl := lockedMoney_burntLocked hlocked
      unfold MinerRegistration.bonded slashedMiner
      dsimp only
      omega

/-! ## Runs -/

/-- What a genesis does: it hands out money. -/
def Issues (s s' : ProtocolState) : Prop := s' = { s with accounts := s'.accounts } ∧ ∀ a, s'.locked a = s.locked a

theorem Issues.trans {s'' : ProtocolState} (h : Issues s s') (h' : Issues s' s'') : Issues s s'' := by
  refine ⟨?_, fun a => (h'.2 a).trans (h.2 a)⟩
  rw [h'.1, h.1]

theorem issues_credited : Issues s (s.credited a n) := ⟨rfl, fun _ => locked_credited⟩

/-- The loop of the genesis: what has been issued is what the accounts hold. -/
theorem ends_endow (endowed : List (AccountId × Balance)) (issued : Balance) (s : ProtocolState)
    (h : s.money = issued.toNat) :
    Returns (endow endowed issued) s (fun issued' s' => s'.money = issued'.toNat ∧ Issues s s') := by
  induction endowed generalizing issued s with
  | nil => exact ⟨h, rfl, fun _ => rfl⟩
  | cons e endowed ih =>
    obtain ⟨account, amount⟩ := e
    unfold endow
    simp only [ends_bind, ends_lift_okOr]
    refine ⟨fun issued' hadd => ?_, fun _ => trivial⟩
    have hsum := Checked.add_eq_some hadd
    have hfit : s.money + amount.toNat < 2 ^ 128 := by omega
    refine (ends_credit hfit).mono ?_ fun _ _ h => h.elim
    rintro _ _ rfl
    have hmoney : (s.credited account amount).money = issued'.toNat := by
      rw [money_credited hfit]
      omega
    refine (ih issued' _ hmoney).weaken ?_
    exact fun _ _ h => ⟨h.1, issues_credited.trans h.2⟩

section
variable {treasuryAccount : AccountId} {endowed : List (AccountId × Balance)} {genesis : ProtocolState}
  (h : withGenesis treasuryAccount endowed = .ok genesis)
include h

/-- A genesis hands out exactly the initial supply. -/
theorem genesis_issues : genesis.money = initialSupply.toNat ∧ Issues (new treasuryAccount) genesis := by
  have hends : Returns (issue treasuryAccount endowed) (new treasuryAccount)
      (fun _ s' => s'.money = initialSupply.toNat ∧ Issues (new treasuryAccount) s') := by
    refine ends_bind.mpr ?_
    refine (ends_endow endowed 0 _ rfl).weaken ?_
    rintro issued s1 ⟨hmoney, hissues⟩
    simp only [ends_bind, ends_lift_ensure, ends_lift_okOr]
    refine ⟨fun _ => ⟨fun remainder hsub => ?_, fun _ => trivial⟩, fun _ => trivial⟩
    have hrest := Checked.sub_eq_some hsub
    have hfit : s1.money + remainder.toNat < 2 ^ 128 := by omega
    refine (ends_credit hfit).mono ?_ fun _ _ h => h.elim
    rintro _ _ rfl
    refine ⟨?_, hissues.trans issues_credited⟩
    rw [money_credited hfit]
    omega
  unfold withGenesis at h
  cases hrun : issue treasuryAccount endowed (new treasuryAccount) with
  | error e s' => rw [hrun] at h; cases h
  | ok _ s' =>
    rw [hrun] at h
    cases h
    exact (of_ends hends hrun :)

theorem sound_genesis : genesis.Sound := by
  obtain ⟨hmoney, hnew, -⟩ := genesis_issues h
  have hburned : genesis.totalBurned = 0 := by rw [hnew]; rfl
  have hminers : genesis.miners = ∅ := by rw [hnew]; rfl
  have hvalidators : genesis.validators = ∅ := by rw [hnew]; rfl
  have hsubnets : genesis.subnets = ∅ := by rw [hnew]; rfl
  have hmid : genesis.nextMinerId = 0 := by rw [hnew]; rfl
  have hvid : genesis.nextValidatorId = 0 := by rw [hnew]; rfl
  refine ⟨by rw [hmoney, hburned]; rfl, ?_, ?_, ?_, ?_, ?_, ?_, ?_⟩
  · intro id c hc; rw [hsubnets] at hc; cases hc
  · intro id c hc; rw [hsubnets] at hc; cases hc
  · intro id m hm; rw [hminers] at hm; cases hm
  · intro id v hv; rw [hvalidators] at hv; cases hv
  · rw [hmid]; exact Nat.zero_le _
  · rw [hvid]; exact Nat.zero_le _
  · rw [hminers, hvalidators]; exact Nat.zero_le _
end

theorem Sound.step (hs : s.Sound) (op : Operation) : (s.step op).Sound := hs.effect (exec_effect hs.regular op)

theorem Sound.run (hs : s.Sound) (ops : List Operation) : (s.run ops).Sound := by
  induction ops generalizing s with
  | nil => exact hs
  | cons op ops ih => exact ih (hs.step op)

theorem Reachable.sound (h : s.Reachable) : s.Sound := by
  obtain ⟨treasuryAccount, endowed, genesis, ops, hgenesis, rfl⟩ := h
  exact (sound_genesis hgenesis).run ops

/-- **The supply is conserved.** Over any run from a successful genesis, through operations that return
    and operations that fail, the accounts and the burned total add up to the initial supply. -/
theorem supply_conserved {treasuryAccount : AccountId} {endowed : List (AccountId × Balance)}
    {genesis : ProtocolState} (hgenesis : withGenesis treasuryAccount endowed = .ok genesis) (ops : List Operation) :
    total (fun l : AccountLedger => l.free.toNat + l.locked.toNat) (genesis.run ops).accounts +
      (genesis.run ops).totalBurned.toNat = initialSupply.toNat :=
  ((sound_genesis hgenesis).run ops).supply

/-! ## A run -/

namespace Sample

def account (seed : UInt8) : AccountId := List.Vector.replicate 32 seed

def commitment (seed : UInt8) : Commitment := List.Vector.replicate 32 seed

/-- Four endowed accounts; the rest of the supply is the treasury's. -/
def genesis : ProtocolState :=
  match withGenesis (account 99)
      [(account 1, 1000000000000000), (account 2, 1000000000000000), (account 3, 1000000000000000),
        (account 4, 980)] with
  | .ok s    => s
  | .error _ => new (account 99)

theorem genesis_ok : withGenesis (account 99)
      [(account 1, 1000000000000000), (account 2, 1000000000000000), (account 3, 1000000000000000),
        (account 4, 980)] = .ok genesis := rfl

/-- One subnet with an active miner of account 2 and a validator of account 3. -/
def opened : List Operation :=
  [.createSubnet (account 1) .code minerRegistrationBurn,
    .registerMiner (account 2) 0 (commitment 10) .riscZeroStark,
    .activateMiner 0 minMinerBond,
    .registerValidator (account 3) 0 minMinerBond]
end Sample

theorem supply_conserved_opened : total (fun l : AccountLedger => l.free.toNat + l.locked.toNat)
        (Sample.genesis.run Sample.opened).accounts +
      (Sample.genesis.run Sample.opened).totalBurned.toNat = initialSupply.toNat :=
  supply_conserved Sample.genesis_ok Sample.opened

/-- **The protocol is solvent**: recorded capital is locked, identifiers are paid for, one policy holds. -/
theorem solvent (h : s.Reachable) :
    total MinerRegistration.bonded s.miners + total ValidatorRegistration.stakes s.validators ≤ s.lockedMoney ∧
      s.nextMinerId.toNat * minerRegistrationBurn.toNat ≤ s.totalBurned.toNat ∧
      s.nextValidatorId.toNat * minMinerBond.toNat ≤ total ValidatorRegistration.stakes s.validators ∧
      ∀ id c, s.subnets.lookup id = some c → c.policy = .qubitum := by
  have hs := h.sound
  exact ⟨hs.backing, hs.minerBurns, hs.validatorStakes, fun _ _ => hs.policies⟩

theorem solvent_opened : minMinerBond.toNat ≤
    total ValidatorRegistration.stakes (Sample.genesis.run Sample.opened).validators :=
  (solvent ⟨_, _, _, Sample.opened, Sample.genesis_ok, rfl⟩).2.2.1
end ProtocolState
end Qubitum
