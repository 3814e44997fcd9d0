import Qubitum.Subtensor.RootClaiming

/-!
# `Subtensor.Leasing` — leased subnets and their dividends

A model of `leasing.rs`. A leased subnet is owned by a coldkey that nobody can sign for. A part of every owner cut
is for those who have paid for the subnet: it is accumulated, and paid out of the stake of that coldkey when the
block number is a multiple of an interval. All the payments of one distribution are made, or none is.

Of `do_register_leased_network` the model has what it stores about the lease; the crowdloan, the registration of the
network and the refunds are not in it.
-/

namespace Qubitum.Subtensor
open Fixed Outcome Mutation Function UFixed

variable {A B X R : Type} [DecidableEq A]

structure Percent where
  parts : Nat
  le : parts ≤ 100

def Percent.mulCeil (p : Percent) (x : Nat) : Nat := (p.parts * x + 99) / 100

abbrev LeaseId := Nat

structure SubnetLease (A : Type) where
  beneficiary : A
  coldkey : A
  hotkey : A
  emissionsShare : Percent
  endBlock : Option Nat
  netuid : NetUid

structure Leases (A : Type) where
  subnetLeases : LeaseId → Option (SubnetLease A)
  subnetLeaseShares : LeaseId → StorageMap A U64F64
  accumulatedLeaseDividends : LeaseId → Nat

structure LeaseConfig (A R : Type) where
  leaseDividendsDistributionInterval : Nat
  maxContributors : Nat
  /-- the proxy pallet, with its storage -/
  removeLeaseBeneficiaryProxy : R → A → A → Except DispatchError R

namespace Leases

def setAccumulated (ls : Leases A) (leaseId : LeaseId) (value : Nat) : Leases A :=
  { ls with accumulatedLeaseDividends := update ls.accumulatedLeaseDividends leaseId value }

/-- The part of the raised amount that a contributor has given. -/
def share (raised amount : Nat) : U64F64 := (ofNat amount).saturatingDiv (ofNat raised)

/-- What `do_register_leased_network` stores: the lease, and a share for everybody but the beneficiary. -/
def register (ls : Leases A) (leaseId : LeaseId) (lease : SubnetLease A) (raised : Nat)
    (contributions : StorageMap A Nat) : Leases A :=
  { ls with
    subnetLeases := update ls.subnetLeases leaseId (some lease)
    subnetLeaseShares := update ls.subnetLeaseShares leaseId
      ((contributions.entries.filter (·.1 ≠ lease.beneficiary)).foldl
        (fun shares e => shares.insert e.1 (share raised e.2)) (ls.subnetLeaseShares leaseId)) }

/-- `SubnetLeaseShares::clear_prefix`, which stops at the limit. -/
def clearShares (ls : Leases A) (leaseId : LeaseId) (limit : Nat) : Leases A :=
  let shares := ls.subnetLeaseShares leaseId
  let remaining : StorageMap A U64F64 :=
    ⟨shares.entries.drop limit, shares.nodupKeys.sublist (List.drop_sublist limit shares.entries)⟩
  { ls with subnetLeaseShares := update ls.subnetLeaseShares leaseId remaining }
end Leases

/-- Rounded up, in favour of the contributor. -/
def alphaForContributor (share : U64F64) (totalContributorsCutAlpha : Nat) : Nat :=
  (share.saturatingMul (ofNat totalContributorsCutAlpha)).ceil.toU64

section Model
variable (cfg : Config A B X R) (lcfg : LeaseConfig A R)

/-- The payments of one distribution. The beneficiary gets what is left. -/
def payLeaseDividends (lease : SubnetLease A) (shares : StorageMap A U64F64) (totalContributorsCutAlpha : Nat) :
    Run A B X R Unit := do
  let alphaDistributed ← shares.entries.foldlM
    (fun alphaDistributed e => do
      let alpha := alphaForContributor e.2 totalContributorsCutAlpha
      let _ ← transferStakeWithinSubnet cfg lease.coldkey lease.hotkey e.1 lease.hotkey lease.netuid alpha
      return alphaDistributed + alpha) 0
  let _ ← transferStakeWithinSubnet cfg lease.coldkey lease.hotkey lease.beneficiary lease.hotkey lease.netuid
    (totalContributorsCutAlpha - alphaDistributed)

def SubnetLease.ended (lease : SubnetLease A) (block : Nat) : Bool := lease.endBlock.any (· ≤ block)

/-- What there is to distribute with an owner cut. -/
def Leases.due (ls : Leases A) (leaseId : LeaseId) (lease : SubnetLease A) (ownerCutAlpha : Nat) : Nat :=
  ls.accumulatedLeaseDividends leaseId + lease.emissionsShare.mulCeil ownerCutAlpha

def distributeLeasedNetworkDividends (s : State A B X R) (ls : Leases A) (leaseId : LeaseId) (ownerCutAlpha : Nat) :
    State A B X R × Leases A :=
  match ls.subnetLeases leaseId with
  | none       => (s, ls)
  | some lease =>
      let total := ls.due leaseId lease ownerCutAlpha
      if lease.ended s.block then (s, ls)
      else if lcfg.leaseDividendsDistributionInterval = 0 then (s, ls.setAccumulated leaseId total)
      else if 0 < s.block % lcfg.leaseDividendsDistributionInterval then (s, ls.setAccumulated leaseId total)
      else
        match payLeaseDividends cfg lease (ls.subnetLeaseShares leaseId) total s with
        | .ok _ s'   => (s', ls.setAccumulated leaseId 0)
        | .error _ _ => (s, ls.setAccumulated leaseId total)

/-- The subnet goes to the beneficiary, and everything that is stored about the lease is removed. -/
def doTerminateLease (s : State A B X R) (ls : Leases A) (origin : Origin A) (leaseId : LeaseId) (hotkey : A) :
    Except DispatchError (State A B X R × Leases A) := do
  let who ← ensureSigned origin
  let lease ← okOr (ls.subnetLeases leaseId) .leaseDoesNotExist
  ensure (lease.beneficiary = who) .expectedBeneficiaryOrigin
  let endBlock ← okOr lease.endBlock .leaseHasNoEndBlock
  ensure (endBlock ≤ s.block) .leaseHasNotEnded
  ensure (s.ownership.coldkeyOwnsHotkey lease.beneficiary hotkey) .beneficiaryDoesNotOwnHotkey
  let neurons := { s.neurons with
    subnetOwner := update s.neurons.subnetOwner lease.netuid lease.beneficiary
    subnetOwnerHotkey := update s.neurons.subnetOwnerHotkey lease.netuid (some hotkey) }
  let ls := ls.clearShares leaseId lcfg.maxContributors
  let ls := ls.setAccumulated leaseId 0
  let ls := { ls with subnetLeases := update ls.subnetLeases leaseId none }
  let rest ← lcfg.removeLeaseBeneficiaryProxy s.rest lease.coldkey lease.beneficiary
  return ({ s with neurons, rest }, ls)
end Model

/-! ## Payments out of one stake -/

section Payments
variable {st : Stakes A} {hotkey coldkey c : A} {netuid : NetUid}

/-- One payment, whose amount is not taken if it is not there. -/
def Stakes.payOut (hotkey coldkey : A) (netuid : NetUid) (st : Stakes A) (payment : A × Nat) : Stakes A :=
  (st.decrease hotkey coldkey netuid payment.2).increase hotkey payment.1 netuid payment.2

/-- What somebody is paid. -/
def paidTo (payments : List (A × Nat)) (c : A) : Nat := (payments.map fun p => if p.1 = c then p.2 else 0).sum

def paidOut (payments : List (A × Nat)) : Nat := (payments.map (·.2)).sum

theorem stake_payments_other (hc : c ≠ coldkey) (payments : List (A × Nat)) :
    (payments.foldl (Stakes.payOut hotkey coldkey netuid) st).stake hotkey c netuid =
      st.stake hotkey c netuid + paidTo payments c := by
  induction payments generalizing st with
  | nil => rfl
  | cons p rest ih =>
    -- whoever is paid gets it, whether or not it is taken
    unfold paidTo at ih ⊢
    rw [List.foldl_cons, ih, List.map_cons, List.sum_cons, Stakes.payOut, Stakes.stake_increase, Stakes.stake_decrease,
      if_neg fun hall => hc hall.2.1]
    by_cases hself : p.1 = c
    · simp [hself, Nat.add_assoc]
    · simp [hself, Ne.symm hself]

variable {payment : A × Nat}

/-- A payment that is covered moves stake, -/
theorem payOut_covered (hother : payment.1 ≠ coldkey)
    (hledger : st.stake hotkey coldkey netuid ≤ st.totalHotkeyAlpha hotkey netuid)
    (hcovered : payment.2 ≤ st.stake hotkey coldkey netuid) :
    (st.payOut hotkey coldkey netuid payment).stake hotkey coldkey netuid =
        st.stake hotkey coldkey netuid - payment.2 ∧
      (st.payOut hotkey coldkey netuid payment).totalHotkeyAlpha hotkey netuid = st.totalHotkeyAlpha hotkey netuid := by
  unfold Stakes.payOut
  constructor
  · rw [Stakes.stake_increase, Stakes.stake_decrease]
    simp [hcovered, Ne.symm hother]
  · rw [totalHotkeyAlpha_increase, totalHotkeyAlpha_decrease hcovered]
    simp only [and_self, if_true]
    omega

/-- and one that is not creates it. -/
theorem payOut_uncovered (hother : payment.1 ≠ coldkey) (huncovered : st.stake hotkey coldkey netuid < payment.2) :
    (st.payOut hotkey coldkey netuid payment).stake hotkey coldkey netuid = st.stake hotkey coldkey netuid ∧
      (st.payOut hotkey coldkey netuid payment).totalHotkeyAlpha hotkey netuid =
        st.totalHotkeyAlpha hotkey netuid + payment.2 := by
  have hnot : ¬payment.2 ≤ st.stake hotkey coldkey netuid := by omega
  unfold Stakes.payOut Stakes.decrease
  rw [if_neg hnot, Stakes.stake_increase, totalHotkeyAlpha_increase]
  simp [Ne.symm hother]

section
variable (payments : List (A × Nat)) (hother : ∀ p ∈ payments, p.1 ≠ coldkey)
  (hledger : st.stake hotkey coldkey netuid ≤ st.totalHotkeyAlpha hotkey netuid)
include hother hledger

/-- **Payments that are covered** together leave the total as it is. -/
theorem payments_covered (hcovered : paidOut payments ≤ st.stake hotkey coldkey netuid) :
    (payments.foldl (Stakes.payOut hotkey coldkey netuid) st).stake hotkey coldkey netuid =
        st.stake hotkey coldkey netuid - paidOut payments ∧
      (payments.foldl (Stakes.payOut hotkey coldkey netuid) st).totalHotkeyAlpha hotkey netuid =
        st.totalHotkeyAlpha hotkey netuid := by
  induction payments generalizing st with
  | nil => exact ⟨rfl, rfl⟩
  | cons p rest ih =>
    unfold paidOut at hcovered ih ⊢
    rw [List.map_cons, List.sum_cons] at hcovered ⊢
    obtain ⟨hstake, htotal⟩ := payOut_covered (hother p (List.mem_cons_self ..)) hledger
      (Nat.le_trans (Nat.le_add_right _ _) hcovered)
    obtain ⟨hstake', htotal'⟩ := @ih (st.payOut hotkey coldkey netuid p)
      (fun q hq => hother q (List.mem_cons_of_mem _ hq)) (by omega) (by omega)
    rw [List.foldl_cons, hstake', htotal']
    omega

/-- Payments never make the total smaller, and make it larger if one of them is not covered. -/
theorem payments_uncovered (hpos : ∀ p ∈ payments, 0 < p.2) :
    st.totalHotkeyAlpha hotkey netuid ≤
        (payments.foldl (Stakes.payOut hotkey coldkey netuid) st).totalHotkeyAlpha hotkey netuid ∧
      (st.stake hotkey coldkey netuid < paidOut payments →
        st.totalHotkeyAlpha hotkey netuid <
          (payments.foldl (Stakes.payOut hotkey coldkey netuid) st).totalHotkeyAlpha hotkey netuid) := by
  induction payments generalizing st with
  | nil => exact ⟨le_refl _, fun hlt => absurd hlt (Nat.not_lt_zero _)⟩
  | cons p rest ih =>
    have hself := hother p (List.mem_cons_self ..)
    unfold paidOut at ih ⊢
    rw [List.map_cons, List.sum_cons, List.foldl_cons]
    -- an uncovered payment already adds to the total; after a covered one the rest is as much too large
    by_cases hcovered : p.2 ≤ st.stake hotkey coldkey netuid
    · obtain ⟨hstake, htotal⟩ := payOut_covered hself hledger hcovered
      have hrest := @ih (st.payOut hotkey coldkey netuid p) (fun q hq => hother q (List.mem_cons_of_mem _ hq))
        (by omega) fun q hq => hpos q (List.mem_cons_of_mem _ hq)
      rw [htotal, hstake] at hrest
      exact ⟨hrest.1, fun hlt => hrest.2 (by omega)⟩
    · obtain ⟨hstake, htotal⟩ := payOut_uncovered hself (Nat.lt_of_not_le hcovered)
      have hrest := @ih (st.payOut hotkey coldkey netuid p) (fun q hq => hother q (List.mem_cons_of_mem _ hq))
        (by omega) fun q hq => hpos q (List.mem_cons_of_mem _ hq)
      omega
end
end Payments

/-! ## One distribution -/

section Distribution
variable {cfg : Config A B X R} {lcfg : LeaseConfig A R} {s : State A B X R} {ls : Leases A} {leaseId : LeaseId}
  {lease : SubnetLease A} {shares : StorageMap A U64F64} {total ownerCutAlpha : Nat}

def contributorPayments (shares : List (Sigma fun _ : A => U64F64)) (total : Nat) : List (A × Nat) :=
  shares.map fun e => (e.1, alphaForContributor e.2 total)

/-- Who is paid what in a distribution. -/
def leasePayments (lease : SubnetLease A) (shares : StorageMap A U64F64) (total : Nat) : List (A × Nat) :=
  contributorPayments shares.entries total ++
    [(lease.beneficiary, total - paidOut (contributorPayments shares.entries total))]

/-- The stakes after some payments. -/
def SubnetLease.pay (lease : SubnetLease A) (st : Stakes A) (payments : List (A × Nat)) : Stakes A :=
  payments.foldl (Stakes.payOut lease.hotkey lease.coldkey lease.netuid) st

/-- Whether an amount of alpha is worth the minimum at the current price, below which a transfer fails. -/
def State.worthMoving (cfg : Config A B X R) (s : State A B X R) (netuid : NetUid) (alpha : Nat) : Bool :=
  defaultMinStake ≤ ((cfg.swapInterface.currentAlphaPrice s.swap s.pools netuid).saturatingMul (ofNat alpha)).toU64

omit [DecidableEq A] in
theorem pos_of_worthMoving {netuid : NetUid} {alpha : Nat} (h : s.worthMoving cfg netuid alpha = true) : 0 < alpha := by
  refine Nat.pos_of_ne_zero ?_
  rintro rfl
  unfold State.worthMoving at h
  rw [toU64_saturatingMul_ofNat_zero] at h
  cases h

omit [DecidableEq A] in
theorem worthMoving_congr {t : State A B X R} {netuid : NetUid} {alpha : Nat} (hswap : t.swap = s.swap)
    (hpools : t.pools = s.pools) : t.worthMoving cfg netuid alpha = s.worthMoving cfg netuid alpha := by
  unfold State.worthMoving
  rw [hswap, hpools]

/-- A transfer moves stake and leaves the price as it is. -/
theorem leaseTransfer_ends {c : A} {alpha : Nat} :
    Ends (transferStakeWithinSubnet cfg lease.coldkey lease.hotkey c lease.hotkey lease.netuid alpha) s
      (fun _ s' => s'.stakes = s.stakes.payOut lease.hotkey lease.coldkey lease.netuid (c, alpha) ∧
        s'.swap = s.swap ∧ s'.pools = s.pools ∧ s.worthMoving cfg lease.netuid alpha = true)
      (fun _ _ => s.worthMoving cfg lease.netuid alpha = false) := by
  unfold transferStakeWithinSubnet
  simp only [ends_bind, ends_get, ends_modify, ends_lift_ensure, ends_pure]
  exact ⟨fun hmin => ⟨rfl, trivial, trivial, decide_eq_true hmin⟩, fun hmin => decide_eq_false hmin⟩

theorem contributors_ends (es : List (Sigma fun _ : A => U64F64)) (paid : Nat) :
    Ends (es.foldlM
      (fun alphaDistributed e => do
        let alpha := alphaForContributor e.2 total
        let _ ← transferStakeWithinSubnet cfg lease.coldkey lease.hotkey e.1 lease.hotkey lease.netuid alpha
        return alphaDistributed + alpha) paid) s
      (fun alphaDistributed s' => alphaDistributed = paid + paidOut (contributorPayments es total) ∧
        s'.stakes = lease.pay s.stakes (contributorPayments es total) ∧ s'.swap = s.swap ∧ s'.pools = s.pools ∧
        (contributorPayments es total).all (s.worthMoving cfg lease.netuid ·.2) = true)
      (fun _ _ => (contributorPayments es total).all (s.worthMoving cfg lease.netuid ·.2) = false) := by
  induction es generalizing s paid with
  | nil => exact ⟨rfl, rfl, rfl, rfl, rfl⟩
  | cons e rest ih =>
    have hall : (contributorPayments (e :: rest) total).all (s.worthMoving cfg lease.netuid ·.2) =
        (s.worthMoving cfg lease.netuid (alphaForContributor e.2 total) &&
          (contributorPayments rest total).all (s.worthMoving cfg lease.netuid ·.2)) := rfl
    simp only [List.foldlM_cons, ends_bind, ends_pure]
    refine leaseTransfer_ends.mono ?_ fun _ _ hnot => by rw [hall, hnot, Bool.false_and]
    rintro _ t ⟨hstakes, hswap, hpools, hworth⟩
    have hsame : (contributorPayments rest total).all (t.worthMoving cfg lease.netuid ·.2) =
        (contributorPayments rest total).all (s.worthMoving cfg lease.netuid ·.2) := by
      simp only [worthMoving_congr hswap hpools]
    rw [hall, hworth, Bool.true_and, ← hsame]
    refine (ih _).mono ?_ fun _ _ hnot => hnot
    rintro _ s' ⟨rfl, hrest, hswap', hpools', hworth'⟩
    refine ⟨?_, ?_, hswap'.trans hswap, hpools'.trans hpools, hworth'⟩
    · show paid + _ + paidOut (contributorPayments rest total) = paid + paidOut (_ :: contributorPayments rest total)
      unfold paidOut
      rw [List.map_cons, List.sum_cons, Nat.add_assoc]
    · rw [hrest, hstakes]
      rfl

/-- **The payments of a distribution** are made exactly if each of them is worth the minimum. -/
theorem payLeaseDividends_ends (cfg : Config A B X R) (s : State A B X R) (lease : SubnetLease A)
    (shares : StorageMap A U64F64) (total : Nat) : Ends (payLeaseDividends cfg lease shares total) s
      (fun _ s' => s'.stakes = lease.pay s.stakes (leasePayments lease shares total) ∧
        (leasePayments lease shares total).all (s.worthMoving cfg lease.netuid ·.2) = true)
      (fun _ _ => (leasePayments lease shares total).all (s.worthMoving cfg lease.netuid ·.2) = false) := by
  unfold payLeaseDividends leasePayments
  simp only [ends_bind, ends_pure, List.all_append, List.all_cons, List.all_nil, Bool.and_true]
  refine (contributors_ends shares.entries 0).mono ?_ fun _ _ hnot => by rw [hnot, Bool.false_and]
  rintro _ t ⟨rfl, hstakes, hswap, hpools, hworth⟩
  rw [hworth, Bool.true_and, ← worthMoving_congr hswap hpools, Nat.zero_add]
  refine leaseTransfer_ends.mono ?_ fun _ _ hnot => hnot
  rintro _ s' ⟨hstakes', -, -, hlast⟩
  refine ⟨?_, hlast⟩
  unfold SubnetLease.pay
  rw [List.foldl_append, hstakes', hstakes]
  rfl

omit [DecidableEq A] in
/-- If the beneficiary gets something, everything is paid out. -/
theorem paidOut_leasePayments (hpos : ∀ p ∈ leasePayments lease shares total, 0 < p.2) :
    paidOut (leasePayments lease shares total) = total := by
  have hlast : 0 < total - paidOut (contributorPayments shares.entries total) :=
    hpos (lease.beneficiary, _) (List.mem_append_right _ (List.mem_singleton.mpr rfl))
  have hsum : paidOut (leasePayments lease shares total) = paidOut (contributorPayments shares.entries total) +
      (total - paidOut (contributorPayments shares.entries total)) := by
    unfold leasePayments paidOut
    simp
  omega

section
variable (cfg : Config A B X R) (lcfg : LeaseConfig A R) (s : State A B X R)

/-- Whether a distribution pays out: the lease is running, it is time, and every payment is worth the minimum. -/
def paysOut (lease : SubnetLease A) (shares : StorageMap A U64F64) (total : Nat) : Bool :=
  !lease.ended s.block && lcfg.leaseDividendsDistributionInterval ≠ 0 &&
    s.block % lcfg.leaseDividendsDistributionInterval = 0 &&
    (leasePayments lease shares total).all (s.worthMoving cfg lease.netuid ·.2)

/-- **What a distribution does**: it pays everything out, or nothing happens to the stakes. -/
theorem distribute_eq (ownerCutAlpha : Nat) (hlease : ls.subnetLeases leaseId = some lease) :
    let due := ls.due leaseId lease ownerCutAlpha
    let shares := ls.subnetLeaseShares leaseId
    let after := distributeLeasedNetworkDividends cfg lcfg s ls leaseId ownerCutAlpha
    if paysOut cfg lcfg s lease shares due then
      after.2 = ls.setAccumulated leaseId 0 ∧
        after.1.stakes = lease.pay s.stakes (leasePayments lease shares due) ∧
        ∀ p ∈ leasePayments lease shares due, 0 < p.2
    else
      after.1 = s ∧ after.2 = if lease.ended s.block then ls else ls.setAccumulated leaseId due := by
  intro due shares
  unfold distributeLeasedNetworkDividends paysOut
  simp only [hlease]
  by_cases hended : lease.ended s.block
  · simp [hended]
  by_cases hinterval : lcfg.leaseDividendsDistributionInterval = 0
  · simp [hended, hinterval, due]
  by_cases htime : s.block % lcfg.leaseDividendsDistributionInterval = 0
  · have hends := payLeaseDividends_ends cfg s lease shares due
    unfold Ends at hends
    cases hrun : payLeaseDividends cfg lease shares due s with
    | ok _ s' =>
      rw [hrun] at hends
      obtain ⟨hstakes, hworth⟩ := hends
      have hpos : ∀ p ∈ leasePayments lease shares due, 0 < p.2 :=
        fun p hp => pos_of_worthMoving (List.all_eq_true.mp hworth p hp)
      simpa only [hended, hinterval, htime, hrun, hworth, due, shares, Bool.not_false, Bool.true_and, if_false, if_true,
        lt_irrefl, decide_true, ne_eq, not_false_eq_true, Bool.false_eq_true, Bool.and_self, true_and] using
        ⟨hstakes, hpos⟩
    | error _ _ =>
      rw [hrun] at hends
      simp [hended, hinterval, htime, hends, due, shares]
  · simp [hended, hinterval, htime, Nat.pos_of_ne_zero htime, due]

/-- Nobody can sign for the coldkey of the lease: it is neither a contributor nor the beneficiary. -/
def SubnetLease.Apart (lease : SubnetLease A) (shares : StorageMap A U64F64) : Prop :=
  lease.beneficiary ≠ lease.coldkey ∧ lease.coldkey ∉ shares

omit [DecidableEq A] in
theorem SubnetLease.Apart.ne (hapart : lease.Apart shares) (total : Nat) :
    ∀ p ∈ leasePayments lease shares total, p.1 ≠ lease.coldkey := by
  intro p hp
  rcases List.mem_append.mp hp with hp | hp
  · obtain ⟨e, he, rfl⟩ := List.mem_map.mp hp
    rintro hself
    exact hapart.2 (hself ▸ AList.mem_keys.mpr (List.mem_keys_of_mem he))
  · rw [List.mem_singleton.mp hp]
    exact hapart.1

/-- Everybody who may be paid. -/
def SubnetLease.receivers (lease : SubnetLease A) (shares : StorageMap A U64F64) : List A :=
  (lease.beneficiary :: shares.keys).dedup

/-- The receivers get every payment. -/
theorem sum_paidTo {receivers : List A} (hnodup : receivers.Nodup) (payments : List (A × Nat))
    (hall : ∀ p ∈ payments, p.1 ∈ receivers) : (receivers.map (paidTo payments)).sum = paidOut payments := by
  induction payments with
  | nil =>
    show (receivers.map fun _ => 0).sum = 0
    simp
  | cons p rest ih =>
    have hone : (receivers.map fun c => if p.1 = c then p.2 else 0).sum = p.2 := by
      rw [← List.sum_toFinset _ hnodup, Finset.sum_ite_eq,
        if_pos (List.mem_toFinset.mpr (hall p (List.mem_cons_self ..)))]
    have hsplit : (receivers.map (paidTo (p :: rest))).sum =
        (receivers.map fun c => (if p.1 = c then p.2 else 0) + paidTo rest c).sum := rfl
    rw [hsplit, List.sum_map_add, hone, ih fun q hq => hall q (List.mem_cons_of_mem _ hq)]
    rfl

theorem leasePayments_receivers (total : Nat) :
    ∀ p ∈ leasePayments lease shares total, p.1 ∈ lease.receivers shares := by
  intro p hp
  rw [SubnetLease.receivers, List.mem_dedup]
  rcases List.mem_append.mp hp with hp | hp
  · obtain ⟨e, he, rfl⟩ := List.mem_map.mp hp
    exact List.mem_cons_of_mem _ (List.mem_keys_of_mem he)
  · rw [List.mem_singleton.mp hp]
    exact List.mem_cons_self ..

/-- What the receivers have gained. -/
def SubnetLease.gained (lease : SubnetLease A) (shares : StorageMap A U64F64) (st st' : Stakes A) : Nat :=
  ((lease.receivers shares).map fun c =>
    st'.stake lease.hotkey c lease.netuid - st.stake lease.hotkey c lease.netuid).sum

/-- The total is the same, the coldkey of the lease has paid for what the others gained, and that is what was due. -/
structure SubnetLease.Conserves (lease : SubnetLease A) (shares : StorageMap A U64F64) (due : Nat) (st st' : Stakes A) :
    Prop where
  total : st'.totalHotkeyAlpha lease.hotkey lease.netuid = st.totalHotkeyAlpha lease.hotkey lease.netuid
  payer : st'.stake lease.hotkey lease.coldkey lease.netuid + lease.gained shares st st' =
    st.stake lease.hotkey lease.coldkey lease.netuid
  due : lease.gained shares st st' = due

theorem gained_pay (hapart : lease.Apart shares) (st : Stakes A) (total : Nat) :
    lease.gained shares st (lease.pay st (leasePayments lease shares total)) =
      paidOut (leasePayments lease shares total) := by
  rw [← sum_paidTo (List.nodup_dedup _) _ (leasePayments_receivers total)]
  unfold SubnetLease.gained SubnetLease.receivers
  refine congrArg List.sum (List.map_congr_left fun c hc => ?_)
  have hother : c ≠ lease.coldkey := by
    rintro rfl
    rcases List.mem_cons.mp (List.mem_dedup.mp hc) with hself | hshare
    · exact hapart.1 hself.symm
    · exact hapart.2 (AList.mem_keys.mpr hshare)
  unfold SubnetLease.pay
  rw [stake_payments_other hother, Nat.add_sub_cancel_left]

/-- **When a distribution conserves stake.** The total is unchanged if and only if nothing is paid out or the coldkey of
    the lease has what is due. All of it holds, also that the receivers gain what is due, if and only if the payments are
    made and the coldkey has what is due, or nothing is due. Payments are made in the blocks for them, if each is worth
    the minimum. -/
theorem lease_distribution_conserves_iff
    (ls : Leases A) (leaseId : LeaseId) (ownerCutAlpha : Nat) (lease : SubnetLease A)
    (hlease : ls.subnetLeases leaseId = some lease) (hapart : lease.Apart (ls.subnetLeaseShares leaseId))
    (hledger : s.stakes.stake lease.hotkey lease.coldkey lease.netuid ≤
      s.stakes.totalHotkeyAlpha lease.hotkey lease.netuid) :
    let due := ls.due leaseId lease ownerCutAlpha
    let shares := ls.subnetLeaseShares leaseId
    let after := (distributeLeasedNetworkDividends cfg lcfg s ls leaseId ownerCutAlpha).1.stakes
    (after.totalHotkeyAlpha lease.hotkey lease.netuid = s.stakes.totalHotkeyAlpha lease.hotkey lease.netuid ↔
      (paysOut cfg lcfg s lease shares due → due ≤ s.stakes.stake lease.hotkey lease.coldkey lease.netuid)) ∧
    (lease.Conserves shares due s.stakes after ↔
      if paysOut cfg lcfg s lease shares due then due ≤ s.stakes.stake lease.hotkey lease.coldkey lease.netuid
      else due = 0) := by
  intro due shares after
  have heq := distribute_eq cfg lcfg s ownerCutAlpha hlease
  have hother := hapart.ne due
  by_cases hpays : paysOut cfg lcfg s lease shares due
  · rw [if_pos hpays] at heq
    obtain ⟨-, hpaid, hpos⟩ := heq
    have hafter : after = lease.pay s.stakes (leasePayments lease shares due) := hpaid
    have hall := paidOut_leasePayments hpos
    have hgained : lease.gained shares s.stakes after = due := by rw [hafter, gained_pay hapart, hall]
    have htotal : after.totalHotkeyAlpha lease.hotkey lease.netuid = s.stakes.totalHotkeyAlpha lease.hotkey lease.netuid ↔
        due ≤ s.stakes.stake lease.hotkey lease.coldkey lease.netuid := by
      refine ⟨fun htotal => ?_, fun hcovered => ?_⟩
      · -- what is not there would have been added to the total
        by_contra hless
        have hmore := (payments_uncovered _ hother hledger hpos).2 (hall ▸ Nat.lt_of_not_le hless)
        exact absurd htotal (by rw [hafter]; exact Nat.ne_of_gt hmore)
      · rw [hafter]
        exact (payments_covered _ hother hledger (hall.symm ▸ hcovered)).2
    rw [if_pos hpays]
    refine ⟨htotal.trans ⟨fun h _ => h, fun h => h hpays⟩, fun h => htotal.mp h.total, fun hcovered => ?_⟩
    refine ⟨htotal.mpr hcovered, ?_, hgained⟩
    have hstake := (payments_covered _ hother hledger (hall.symm ▸ hcovered)).1
    rw [hall] at hstake
    rw [hgained, hafter]
    exact (congrArg (· + due) hstake).trans (Nat.sub_add_cancel hcovered)
  · rw [if_neg hpays] at heq
    have hsame : after = s.stakes := congrArg State.stakes heq.1
    have hgained : lease.gained shares s.stakes after = 0 := by
      rw [hsame]
      unfold SubnetLease.gained
      simp
    rw [if_neg hpays]
    refine ⟨⟨fun _ h => absurd h hpays, fun _ => by rw [hsame]⟩, fun h => ?_, fun hdue => ?_⟩
    · rw [← h.due, hgained]
    · exact ⟨by rw [hsame], by rw [hgained, hsame, Nat.add_zero], hgained.trans hdue.symm⟩
end
end Distribution

/-! ## A lease from its registration to its end -/

section Runs

/-- An owner cut, and whatever has happened before it: also the block number is another one. -/
structure OwnerCut (A B X R : Type) where
  before : State A B X R → State A B X R
  alpha : Nat

variable (cfg : Config A B X R) (lcfg : LeaseConfig A R) (leaseId : LeaseId) (lease : SubnetLease A)

/-- The owner cuts of a lease, one after the other. -/
def leaseRun (s : State A B X R) (ls : Leases A) : List (OwnerCut A B X R) → State A B X R × Leases A
  | [] => (s, ls)
  | cut :: rest =>
      let after := distributeLeasedNetworkDividends cfg lcfg (cut.before s) ls leaseId cut.alpha
      leaseRun after.1 after.2 rest

/-- What the distributions have added to the stake of a coldkey on the hotkey of the lease. -/
def leaseReceived (c : A) (s : State A B X R) (ls : Leases A) : List (OwnerCut A B X R) → Nat
  | [] => 0
  | cut :: rest =>
      let after := distributeLeasedNetworkDividends cfg lcfg (cut.before s) ls leaseId cut.alpha
      (after.1.stakes.stake lease.hotkey c lease.netuid - (cut.before s).stakes.stake lease.hotkey c lease.netuid) +
        leaseReceived c after.1 after.2 rest

/-- The contributors' parts of the owner cuts, while the lease was running. -/
def contributorsCuts (s : State A B X R) (ls : Leases A) : List (OwnerCut A B X R) → Nat
  | [] => 0
  | cut :: rest =>
      let after := distributeLeasedNetworkDividends cfg lcfg (cut.before s) ls leaseId cut.alpha
      (if lease.ended (cut.before s).block then 0 else lease.emissionsShare.mulCeil cut.alpha) +
        contributorsCuts after.1 after.2 rest
end Runs

section Received
variable {cfg : Config A B X R} {lcfg : LeaseConfig A R} {s : State A B X R} {ls : Leases A} {leaseId : LeaseId}
  {lease : SubnetLease A} {shares : StorageMap A U64F64} {share : U64F64} {c : A} {total : Nat}

/-- A share of at most one, of a `u64`, is rounded up to a whole number. -/
theorem le_alphaForContributor (hshare : share.bits ≤ 2 ^ 64) (htotal : total < 2 ^ 64) :
    share.bits * total ≤ 2 ^ 64 * alphaForContributor share total := by
  have hle : share.bits * total ≤ 2 ^ 64 * total := Nat.mul_le_mul_right total hshare
  have hwhole : (ofNat total : U64F64).bits = total * 2 ^ 64 := bits_ofNat (by omega)
  have hproduct : share.bits * (total * 2 ^ 64) / 2 ^ 64 = share.bits * total := by
    rw [← Nat.mul_assoc]
    exact Nat.mul_div_cancel _ (by decide)
  have hmul : (share.saturatingMul (ofNat total)).bits = share.bits * total := by
    rw [bits_saturatingMul (by rw [hwhole, hproduct]; omega), hwhole, hproduct]
  have hceil : (share.saturatingMul (ofNat total)).ceil.bits =
      (share.bits * total + (2 ^ 64 - 1)) / 2 ^ 64 * 2 ^ 64 := by
    unfold ceil
    rw [hmul]
    exact bits_saturate (by omega)
  unfold alphaForContributor toU64
  rw [hceil]
  omega

theorem le_paidTo (lease : SubnetLease A) (total : Nat) (hshare : shares.lookup c = some share) :
    alphaForContributor share total ≤ paidTo (leasePayments lease shares total) c := by
  have hmem : (⟨c, share⟩ : Sigma fun _ : A => U64F64) ∈ shares.entries := AList.mem_lookup_iff.mp hshare
  have hpayment : alphaForContributor share total ∈
      (leasePayments lease shares total).map fun p => if p.1 = c then p.2 else 0 := by
    refine List.mem_map.mpr ⟨(c, alphaForContributor share total), ?_, if_pos rfl⟩
    exact List.mem_append_left _ (List.mem_map.mpr ⟨⟨c, share⟩, hmem, rfl⟩)
  exact List.le_sum_of_mem hpayment

section
variable (cfg : Config A B X R) (lcfg : LeaseConfig A R) (s : State A B X R)

/-- **One distribution**: what a contributor gets is at least the share of what is no longer accumulated. -/
theorem received_step (alpha : Nat) (hlease : ls.subnetLeases leaseId = some lease)
    (hshare : (ls.subnetLeaseShares leaseId).lookup c = some share) (hone : share.bits ≤ 2 ^ 64)
    (hc : c ≠ lease.coldkey)
    (htotal : ls.accumulatedLeaseDividends leaseId +
      (if lease.ended s.block then 0 else lease.emissionsShare.mulCeil alpha) < 2 ^ 64) :
    let after := distributeLeasedNetworkDividends cfg lcfg s ls leaseId alpha
    let cut := if lease.ended s.block then 0 else lease.emissionsShare.mulCeil alpha
    share.bits * (ls.accumulatedLeaseDividends leaseId + cut) ≤
        2 ^ 64 * (after.1.stakes.stake lease.hotkey c lease.netuid - s.stakes.stake lease.hotkey c lease.netuid) +
          share.bits * after.2.accumulatedLeaseDividends leaseId ∧
      after.2.accumulatedLeaseDividends leaseId ≤ ls.accumulatedLeaseDividends leaseId + cut ∧
      after.2.subnetLeases = ls.subnetLeases ∧ after.2.subnetLeaseShares = ls.subnetLeaseShares := by
  intro after cut
  have heq := distribute_eq cfg lcfg s alpha hlease
  cases hpays : paysOut cfg lcfg s lease (ls.subnetLeaseShares leaseId) (ls.due leaseId lease alpha) with
  | true =>
    rw [if_pos hpays] at heq
    obtain ⟨hleases, hstakes, -⟩ := heq
    have hrunning : lease.ended s.block = false := by
      unfold paysOut at hpays
      simp only [Bool.and_eq_true] at hpays
      simpa using hpays.1.1.1
    have hcut : ls.accumulatedLeaseDividends leaseId + cut = ls.due leaseId lease alpha := by
      simp only [cut, hrunning, Bool.false_eq_true, if_false]
      rfl
    have hgain : after.1.stakes.stake lease.hotkey c lease.netuid = s.stakes.stake lease.hotkey c lease.netuid +
        paidTo (leasePayments lease (ls.subnetLeaseShares leaseId) (ls.due leaseId lease alpha)) c := by
      rw [hstakes]
      exact stake_payments_other hc _
    have hpaid := le_paidTo lease (ls.due leaseId lease alpha) hshare
    have hround := le_alphaForContributor hone (hcut ▸ htotal)
    have hzero : after.2.accumulatedLeaseDividends leaseId = 0 := by
      rw [hleases]
      exact update_self ..
    rw [hcut, hgain, Nat.add_sub_cancel_left, hzero]
    exact ⟨by omega, Nat.zero_le _, by rw [hleases]; rfl, by rw [hleases]; rfl⟩
  | false =>
    rw [if_neg (by simpa using hpays)] at heq
    obtain ⟨hstate, hleases⟩ := heq
    have hnone : after.1.stakes.stake lease.hotkey c lease.netuid - s.stakes.stake lease.hotkey c lease.netuid = 0 := by
      rw [hstate, Nat.sub_self]
    have hacc : after.2.accumulatedLeaseDividends leaseId = ls.accumulatedLeaseDividends leaseId + cut := by
      rw [hleases]
      by_cases hended : lease.ended s.block
      · simp [hended, cut]
      · simp [hended, cut, Leases.setAccumulated, Leases.due]
    rw [hnone, hacc]
    refine ⟨by omega, le_refl _, ?_, ?_⟩
    · rw [hleases]
      split_ifs <;> rfl
    · rw [hleases]
      split_ifs <;> rfl

/-- **A run of a lease**: nothing is lost but what is still accumulated. -/
theorem received_run (cuts : List (OwnerCut A B X R)) (hlease : ls.subnetLeases leaseId = some lease)
    (hshare : (ls.subnetLeaseShares leaseId).lookup c = some share) (hone : share.bits ≤ 2 ^ 64)
    (hc : c ≠ lease.coldkey)
    (htotal : ls.accumulatedLeaseDividends leaseId + contributorsCuts cfg lcfg leaseId lease s ls cuts < 2 ^ 64) :
    share.bits * (ls.accumulatedLeaseDividends leaseId + contributorsCuts cfg lcfg leaseId lease s ls cuts) ≤
      2 ^ 64 * leaseReceived cfg lcfg leaseId lease c s ls cuts +
        share.bits * (leaseRun cfg lcfg leaseId s ls cuts).2.accumulatedLeaseDividends leaseId := by
  induction cuts generalizing s ls with
  | nil => simp [contributorsCuts, leaseReceived, leaseRun]
  | cons cut rest ih =>
    simp only [contributorsCuts] at htotal
    simp only [contributorsCuts, leaseReceived, leaseRun]
    obtain ⟨hstep, hacc, hleases, hshares⟩ := received_step cfg lcfg (cut.before s) cut.alpha
      hlease hshare hone hc (by omega)
    have hrest := @ih (distributeLeasedNetworkDividends cfg lcfg (cut.before s) ls leaseId cut.alpha).2
      (distributeLeasedNetworkDividends cfg lcfg (cut.before s) ls leaseId cut.alpha).1
      (by rw [hleases]; exact hlease) (by rw [hshares]; exact hshare) (by omega)
    simp only [Nat.mul_add] at hstep hrest ⊢
    omega
end

/-! ### The shares of a new lease -/

/-- Inserted one after the other, entries with distinct keys are all there. -/
theorem lookup_foldl_insert {f : Nat → U64F64} (es : List (Sigma fun _ : A => Nat))
    (hnodup : es.NodupKeys) (m : StorageMap A U64F64) :
    (es.foldl (fun m e => m.insert e.1 (f e.2)) m).lookup c = match es.dlookup c with
      | some amount => some (f amount)
      | none        => m.lookup c := by
  induction es generalizing m with
  | nil => rfl
  | cons e rest ih =>
    obtain ⟨key, value⟩ := e
    rw [List.nodupKeys_cons] at hnodup
    rw [List.foldl_cons, ih hnodup.2]
    by_cases hkey : c = key
    · subst hkey
      have hnone : rest.dlookup c = none := List.dlookup_eq_none.mpr hnodup.1
      rw [hnone, List.dlookup_cons_eq]
      exact AList.lookup_insert m
    · have hrest : (⟨key, value⟩ :: rest : List (Sigma fun _ : A => Nat)).dlookup c = rest.dlookup c :=
        List.dlookup_cons_ne rest ⟨key, value⟩ hkey
      rw [hrest, AList.lookup_insert_ne hkey]

variable {raised amount : Nat}

theorem share_le (hle : amount ≤ raised) (hraised : raised < 2 ^ 64) : (Leases.share raised amount).bits ≤ 2 ^ 64 := by
  refine le_trans bits_saturate_le ?_
  rw [bits_ofNat (by omega), bits_ofNat (by omega), Nat.mul_div_mul_right _ _ (by decide)]
  refine Nat.div_le_of_le_mul ?_
  rw [Nat.mul_comm raised]
  exact Nat.mul_le_mul_right _ hle |>.trans_eq (Nat.mul_comm _ _)

/-- The share of a contributor who is not the beneficiary. -/
theorem lookup_register {contributions : StorageMap A Nat} (hamount : contributions.lookup c = some amount)
    (hc : c ≠ lease.beneficiary) :
    ((ls.register leaseId lease raised contributions).subnetLeaseShares leaseId).lookup c =
      some (Leases.share raised amount) := by
  have hmem : (⟨c, amount⟩ : Sigma fun _ : A => Nat) ∈
      contributions.entries.filter (·.1 ≠ lease.beneficiary) := by
    refine List.mem_filter.mpr ⟨AList.mem_lookup_iff.mp hamount, ?_⟩
    simpa using hc
  have hnodup : (contributions.entries.filter (·.1 ≠ lease.beneficiary)).NodupKeys :=
    contributions.nodupKeys.sublist List.filter_sublist
  have hlookup : (contributions.entries.filter (·.1 ≠ lease.beneficiary)).dlookup c = some amount :=
    (List.mem_dlookup_iff hnodup).mpr hmem
  unfold Leases.register
  simp only [update_self]
  rw [lookup_foldl_insert _ hnodup, hlookup]

/-- When a lease is terminated nothing is paid. -/
theorem terminate_removes {t s' : State A B X R} {ls' : Leases A} {origin : Origin A} {hotkey : A}
    (hok : doTerminateLease lcfg t ls origin leaseId hotkey = .ok (s', ls')) :
    s'.stakes = t.stakes ∧ ls'.subnetLeases leaseId = none ∧ ls'.accumulatedLeaseDividends leaseId = 0 := by
  obtain ⟨who, -, hok⟩ := bind_ok hok
  obtain ⟨lease, -, hok⟩ := okOr_ok hok
  obtain ⟨-, hok⟩ := ensure_ok hok
  obtain ⟨endBlock, -, hok⟩ := okOr_ok hok
  obtain ⟨-, hok⟩ := ensure_ok hok
  obtain ⟨-, hok⟩ := ensure_ok hok
  obtain ⟨rest, -, hok⟩ := bind_ok hok
  obtain ⟨rfl, rfl⟩ := Prod.mk.inj (pure_ok hok)
  exact ⟨rfl, update_self .., update_self ..⟩
end Received

/-- **Contributors are paid.** Whenever a lease is terminated, each contributor has received at least the share of
    all the contributors' cuts that are no longer accumulated: of all of them, if nothing is. What is accumulated then
    is removed with the lease, and not paid any more. -/
theorem lease_contributor_receives (cfg : Config A B X R) (lcfg : LeaseConfig A R) (s t s' : State A B X R)
    (ls ls' : Leases A) (leaseId : LeaseId) (lease : SubnetLease A) (raised amount : Nat)
    (contributions : StorageMap A Nat) (cuts : List (OwnerCut A B X R)) (c hotkey : A) (origin : Origin A)
    (hnew : ls.accumulatedLeaseDividends leaseId = 0) (hraised : raised < 2 ^ 64) (hle : amount ≤ raised)
    (hamount : contributions.lookup c = some amount) (hbeneficiary : c ≠ lease.beneficiary)
    (hcoldkey : c ≠ lease.coldkey) : let registered := ls.register leaseId lease raised contributions
    let total := contributorsCuts cfg lcfg leaseId lease s registered cuts
    let received := leaseReceived cfg lcfg leaseId lease c s registered cuts
    let final := (leaseRun cfg lcfg leaseId s registered cuts).2
    let accumulated := final.accumulatedLeaseDividends leaseId
    total < 2 ^ 64 → doTerminateLease lcfg t final origin leaseId hotkey = .ok (s', ls') →
      (Leases.share raised amount).bits * (total - accumulated) / 2 ^ 64 ≤ received ∧
      (accumulated = 0 → ((Leases.share raised amount).saturatingMul (ofNat total)).toU64 ≤ received) ∧
      s'.stakes = t.stakes ∧ ls'.subnetLeases leaseId = none ∧ ls'.accumulatedLeaseDividends leaseId = 0 := by
  intro registered total received final accumulated hsmall hok
  have hacc : registered.accumulatedLeaseDividends leaseId = 0 := hnew
  have hfound : registered.subnetLeases leaseId = some lease := update_self ..
  have hrun := received_run cfg lcfg s cuts hfound
    (lookup_register hamount hbeneficiary) (share_le hle hraised) hcoldkey (by rw [hacc, Nat.zero_add]; exact hsmall)
  rw [hacc, Nat.zero_add] at hrun
  refine ⟨?_, fun hzero => ?_, terminate_removes hok⟩
  · refine Nat.div_le_of_le_mul ?_
    rw [Nat.mul_sub]
    exact Nat.sub_le_of_le_add hrun
  · have hall : (Leases.share raised amount).bits * total ≤ 2 ^ 64 * received := by
      have hnone : (Leases.share raised amount).bits * accumulated = 0 := by rw [hzero, Nat.mul_zero]
      exact hrun.trans_eq (congrArg (2 ^ 64 * received + ·) hnone)
    calc ((Leases.share raised amount).saturatingMul (ofNat total)).toU64
        ≤ ((Leases.share raised amount).saturatingMul (ofNat total)).bits / 2 ^ 64 := toU64_le
      _ ≤ (Leases.share raised amount).bits * (total * 2 ^ 64) / 2 ^ 64 / 2 ^ 64 := by
          refine Nat.div_le_div_right (bits_saturatingMul_le.trans (Nat.div_le_div_right ?_))
          exact Nat.mul_le_mul_left _ bits_saturate_le
      _ = (Leases.share raised amount).bits * total / 2 ^ 64 := by
          rw [← Nat.mul_assoc, Nat.mul_div_cancel _ (by decide)]
      _ ≤ received := Nat.div_le_of_le_mul hall

namespace Sample

/-- Coldkey 0 and hotkey 1 for beneficiary 2, with all of the owner cut for the contributors until block 1000. -/
def lease : SubnetLease Account := ⟨2, 0, 1, ⟨100, by decide⟩, some 1000, 1⟩

/-- Account 3 has paid for half of it. -/
def contributions : StorageMap Account Nat := AList.insert 3 1000 (AList.insert 2 1000 ∅)

def noLeases : Leases Account := ⟨fun _ => none, fun _ => ∅, fun _ => 0⟩

def leases : Leases Account := noLeases.register 0 lease 2000 contributions

/-- Dividends are distributed every hundred blocks. -/
def leaseConfig : LeaseConfig Account Unit := ⟨100, 500, fun _ _ _ => .ok ()⟩

/-- The lease has some stake on its hotkey, at block 100. -/
def leased (stake : Nat) : State Account (Account → Nat) Unit Unit :=
  { fresh with stakes := fresh.stakes.increase 1 0 1 stake, block := 100 }
end Sample
open Sample

/-- The owner cut of 10000000 was staked on the hotkey of the lease. -/
theorem lease_distribution_conserves_covered : lease.Conserves (leases.subnetLeaseShares 0) 10000000
    (leased 10000000).stakes
      (distributeLeasedNetworkDividends config leaseConfig (leased 10000000) leases 0 10000000).1.stakes :=
  have hall := lease_distribution_conserves_iff config leaseConfig (leased 10000000) leases 0
    10000000 lease rfl ⟨by decide, by decide +kernel⟩ (by decide)
  hall.2.mpr (by decide +kernel)

/-- With another owner hotkey the owner cut is staked there. The contributors and the beneficiary are paid all the
    same, with stake that nobody has given up. -/
theorem lease_distribution_creates_stake :
    (leased 0).stakes.totalHotkeyAlpha 1 1 = 0 ∧
      (distributeLeasedNetworkDividends config leaseConfig (leased 0) leases 0
        10000000).1.stakes.totalHotkeyAlpha 1 1 = 10000000 :=
  ⟨by decide, by decide +kernel⟩

namespace Sample

/-- An owner cut of 10000000 at a block, staked by the lease. -/
def cutAt (block : Nat) : OwnerCut Account (Account → Nat) Unit Unit where
  before s := { s with stakes := s.stakes.increase 1 0 1 10000000, block }
  alpha := 10000000

/-- The end of the lease, with hotkey 3 of the beneficiary as the new owner hotkey. -/
def leaseEnd : State Account (Account → Nat) Unit Unit := { fresh.createAccountIfNonExistent 2 3 with block := 1000 }
end Sample

/-- Cuts at blocks 150 and 200: account 3 receives half of both when they are distributed at block 200, -/
theorem lease_contributor_receives_half : 10000000 ≤ leaseReceived config leaseConfig 0 lease 3 fresh leases
      [cutAt 150, cutAt 200] :=
  have hhalf : 10000000 ≤ ((Leases.share 2000 1000).saturatingMul (ofNat (contributorsCuts config
      leaseConfig 0 lease fresh leases [cutAt 150, cutAt 200]))).toU64 := by
    decide +kernel
  hhalf.trans ((lease_contributor_receives config leaseConfig fresh leaseEnd _
    noLeases _ 0 lease 2000 1000 contributions [cutAt 150, cutAt 200] 3 3 (.signed 2)
    rfl (by decide) (by decide) (by decide +kernel) (by decide) (by decide) (by decide +kernel) rfl).2.1
    (by decide +kernel))

/-- but it receives nothing of a cut at block 150 if no other one comes before the end. -/
theorem lease_contributor_unpaid :
    contributorsCuts config leaseConfig 0 lease fresh leases [cutAt 150] =
        10000000 ∧
      leaseReceived config leaseConfig 0 lease 3 fresh leases [cutAt 150] = 0 ∧
      ∃ s' ls', doTerminateLease leaseConfig leaseEnd
        (leaseRun config leaseConfig 0 fresh leases [cutAt 150]).2 (.signed 2) 0 3 =
          .ok (s', ls') ∧ ls'.accumulatedLeaseDividends 0 = 0 :=
  ⟨by decide +kernel, by decide +kernel, _, _, rfl, rfl⟩
end Qubitum.Subtensor
