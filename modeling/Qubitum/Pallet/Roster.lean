import Qubitum.Pallet.Run
import Qubitum.Lib.Tally

/-!
# `Pallet.Roster` — locked capital of one kind of participant

Miners and validators lock capital under different statuses, floors and hold reasons, but the accounting is
one and the same: each participant has an operator, a status and possibly a recorded amount, and the
operator's hold must be the sum of the records of everything they operate. `Roster` is that common view
and `Roster.Sound` the invariant over it:

* identifiers are dense and every one of them carries the commitment of the account that registered it;
* a record exists exactly for the statuses that bear capital, and an active participant's is at least the
  floor (`LockOk`);
* each account's hold is the sum of the records it operates (`Tally.Backed`).

Two rules keep it: registering a participant (`Sound.register`) and changing one (`Sound.change`).

A participant with open work is **pinned**: it is `Active` or `Slashed`, and its identity is the one it had
when the work was assigned (`Side.Pins`). `SideStep` lists what a call can do to one kind of participant;
every step keeps the accounting and the pins (`SideStep.sound`, `SideStep.pins`).
-/

namespace Qubitum
open Tally Dense Function

variable {A : Type} {w : Nat}

/-- One kind of participant as the accounting sees it. -/
structure Roster (A : Type) (w : Nat) where
  count : UInt64
  /-- operator commitment and status of a stored record -/
  record : UInt64 → Option (Commitment × RegistryStatus)
  locked : UInt64 → Option (BitVec w)
  held : A → Nat
  /-- who registered each identifier -/
  operators : List (UInt64 × A)

/-- What a kind of participant is subject to. -/
structure CapitalRule (A : Type) (w : Nat) where
  /-- the statuses that bear capital -/
  bearing : RegistryStatus → Bool
  /-- the least amount of an active participant -/
  floor : BitVec w
  commit : A → Commitment

/-- A record exists exactly for a capital-bearing status, and is at least the floor while active. -/
structure CapitalRule.LockOk (rule : CapitalRule A w) (status : RegistryStatus) (lock : Option (BitVec w)) :
    Prop where
  present : lock.isSome ↔ rule.bearing status = true
  floor_le : status = .active → ∃ amount, lock = some amount ∧ rule.floor ≤ amount

/-- The amount a record contributes to its operator's hold. -/
def lockedAmount (lock : Option (BitVec w)) : Nat := (lock.getD 0).toNat

@[simp] theorem lockedAmount_none : lockedAmount (none : Option (BitVec w)) = 0 := by simp [lockedAmount]

@[simp] theorem lockedAmount_some (x : BitVec w) : lockedAmount (some x) = x.toNat := rfl

variable [DecidableEq A] {rule : CapitalRule A w}

/-- What participant `p` contributes to the hold of `who`. -/
def Roster.weight (r : Roster A w) (who : A) (p : UInt64 × A) : Nat :=
  if p.2 = who then lockedAmount (r.locked p.1) else 0

/-- The accounting invariant. -/
structure Roster.Sound (rule : CapitalRule A w) (r : Roster A w) : Prop where
  ids : r.operators.map Prod.fst = idsBelow r.count
  recorded : ∀ p ∈ r.operators, ∃ status, r.record p.1 = some (rule.commit p.2, status)
  known : ∀ id, (r.record id).isSome → id < r.count
  unlocked : ∀ id, r.record id = none → r.locked id = none
  lockOk : ∀ id commitment status, r.record id = some (commitment, status) → rule.LockOk status (r.locked id)
  backed : Backed r.held r.weight r.operators

namespace Roster.Sound
variable {r r' : Roster A w} {id : UInt64} {status : RegistryStatus} {lock : Option (BitVec w)}

/-- Nobody has registered yet. -/
theorem empty (hcount : r.count = 0) (hops : r.operators = []) (hrecord : ∀ id, r.record id = none)
    (hlocked : ∀ id, r.locked id = none) (hheld : ∀ a, r.held a = 0) : r.Sound rule := by
  refine ⟨?_, ?_, ?_, fun id _ => hlocked id, ?_, ?_⟩
  · rw [hops, hcount, idsBelow_zero]; rfl
  · rw [hops]; exact nofun
  · intro id hsome
    rw [hrecord id] at hsome
    cases hsome
  · intro id commitment status hrec
    rw [hrecord id] at hrec
    cases hrec
  · rw [hops]; exact .nil hheld

theorem nodup (h : r.Sound rule) : (r.operators.map Prod.fst).Nodup := by
  rw [h.ids]
  exact idsBelow_nodup r.count

variable {who : A}

section
variable (h : r.Sound rule)
include h

theorem mem_of_record (hid : (r.record id).isSome) : ∃ who, (id, who) ∈ r.operators := by
  have hmem : id ∈ r.operators.map Prod.fst := by
    rw [h.ids, mem_idsBelow]
    exact h.known id hid
  obtain ⟨⟨id', who⟩, hp, rfl⟩ := List.mem_map.mp hmem
  exact ⟨who, hp⟩

/-- A stored record belongs to the account that registered it. -/
theorem operator_of_record {commitment : Commitment} (hrec : r.record id = some (commitment, status)) :
    ∃ who, (id, who) ∈ r.operators ∧ commitment = rule.commit who := by
  obtain ⟨who, hp⟩ := h.mem_of_record (by rw [hrec]; rfl)
  obtain ⟨status', hrec'⟩ := h.recorded _ hp
  rw [hrec, Option.some.injEq, Prod.mk.injEq] at hrec'
  exact ⟨who, hp, hrec'.1⟩

theorem record_of_operator (hp : (id, who) ∈ r.operators) :
    ∃ status, r.record id = some (rule.commit who, status) := h.recorded (id, who) hp

/-- The next identifier has no record and nothing locked. -/
theorem locked_count : r.locked r.count = none := by
  refine h.unlocked r.count ?_
  by_contra hsome
  exact UInt64.lt_irrefl _ (h.known r.count (Option.isSome_iff_ne_none.mpr hsome))
end

section Update
variable {commitment : Commitment}

section
variable (h : r.Sound rule) (hrecord : r'.record = update r.record id (some (commitment, status)))
  (hlocked : r'.locked = update r.locked id lock)
include h hrecord hlocked

/-- Writing the record and the lock of one participant keeps "no record, nothing locked" … -/
theorem unlocked_update (id' : UInt64) (hnone : r'.record id' = none) :
    r'.locked id' = none := by
  by_cases heq : id' = id
  · rw [hrecord, heq, update_self] at hnone
    cases hnone
  · rw [hrecord, update_of_ne heq] at hnone
    rw [hlocked, update_of_ne heq]
    exact h.unlocked id' hnone

/-- … and the rule, when the new pair meets it. -/
theorem lockOk_update (hok : rule.LockOk status lock) (id' : UInt64)
    (commitment' : Commitment) (status' : RegistryStatus)
    (hrec : r'.record id' = some (commitment', status')) : rule.LockOk status' (r'.locked id') := by
  by_cases heq : id' = id
  · rw [hrecord, heq, update_self, Option.some.injEq, Prod.mk.injEq] at hrec
    rw [hlocked, heq, update_self, ← hrec.2]
    exact hok
  · rw [hrecord, update_of_ne heq] at hrec
    rw [hlocked, update_of_ne heq]
    exact h.lockOk id' commitment' status' hrec
end
end Update

/-- **Registering.** The identifier handed out gets a record of the new operator; what is locked for it is
    put on the operator's hold. -/
theorem register (h : r.Sound rule) (hcount : r'.count.toNat = r.count.toNat + 1)
    (hrecord : r'.record = update r.record r.count (some (rule.commit who, status)))
    (hlocked : r'.locked = update r.locked r.count lock)
    (hheld : ∀ a, r'.held a = r.held a + if who = a then lockedAmount lock else 0)
    (hops : r'.operators = r.operators ++ [(r.count, who)]) (hok : rule.LockOk status lock) : r'.Sound rule := by
  have hfresh : ∀ p ∈ r.operators, p.1 ≠ r.count := by
    intro p hp heq
    have hmem : r.count ∈ r.operators.map Prod.fst := heq ▸ List.mem_map_of_mem hp
    rw [h.ids] at hmem
    exact not_mem_idsBelow r.count hmem
  refine ⟨?_, ?_, ?_, ?_, ?_, ?_⟩
  · rw [hops, List.map_append, h.ids, idsBelow_next hcount]; rfl
  · intro p hp
    rw [hops, List.mem_append, List.mem_singleton] at hp
    rcases hp with hp | rfl
    · rw [hrecord, update_of_ne (hfresh p hp)]
      exact h.recorded p hp
    · exact ⟨status, by rw [hrecord, update_self]⟩
  · intro id hid
    rw [UInt64.lt_iff_toNat_lt, hcount]
    by_cases heq : id = r.count
    · rw [heq]; omega
    · rw [hrecord, update_of_ne heq] at hid
      have := UInt64.lt_iff_toNat_lt.mp (h.known id hid)
      omega
  · exact h.unlocked_update hrecord hlocked
  · exact h.lockOk_update hrecord hlocked hok
  · rw [hops]
    refine h.backed.append ?_ ?_
    · intro a p hp
      simp only [Roster.weight, hlocked, update_of_ne (hfresh p hp)]
    · intro a
      rw [hheld a]
      simp only [Roster.weight, hlocked, update_self]

/-- **Changing one participant.** Its status and record change within the rule, and its operator's hold
    changes by as much as the record. -/
theorem change (h : r.Sound rule) (hp : (id, who) ∈ r.operators) (hcount : r'.count = r.count)
    (hrecord : r'.record = update r.record id (some (rule.commit who, status)))
    (hlocked : r'.locked = update r.locked id lock)
    (hheld : ∀ a, r'.held a + (if who = a then lockedAmount (r.locked id) else 0) =
      r.held a + if who = a then lockedAmount lock else 0) (hops : r'.operators = r.operators)
    (hok : rule.LockOk status lock) : r'.Sound rule := by
  refine ⟨?_, ?_, ?_, ?_, ?_, ?_⟩
  · rw [hops, hcount]; exact h.ids
  · intro p hp'
    rw [hops] at hp'
    by_cases heq : p.1 = id
    · have hwho : p.2 = who := congrArg Prod.snd (List.inj_on_of_nodup_map h.nodup hp' hp heq)
      exact ⟨status, by rw [hrecord, heq, update_self, hwho]⟩
    · rw [hrecord, update_of_ne heq]
      exact h.recorded p hp'
  · intro id' hid'
    rw [hcount]
    by_cases heq : id' = id
    · obtain ⟨st, hrec⟩ := h.record_of_operator hp
      exact heq ▸ h.known id (by rw [hrec]; rfl)
    · rw [hrecord, update_of_ne heq] at hid'
      exact h.known id' hid'
  · exact h.unlocked_update hrecord hlocked
  · exact h.lockOk_update hrecord hlocked hok
  · rw [hops]
    refine h.backed.change h.nodup hp ?_ ?_
    · intro a p _ hne
      simp only [Roster.weight, hlocked, update_of_ne hne]
    · intro a
      have := hheld a
      simpa only [Roster.weight, hlocked, update_self] using this
end Roster.Sound

/-! ## Participants with identities and open work -/

/-- One kind of participant: its roster and its identities. -/
structure Side (A : Type) (w : Nat) extends Roster A w where
  identity : UInt64 → Identity

/-- The statuses in which a participant may have open work. -/
def RegistryStatus.Working (status : RegistryStatus) : Prop := status = .active ∨ status = .slashed

omit [DecidableEq A] in
/-- Participant `id` is working and has kept the identity `identity`. -/
def Side.Pins (p : Side A w) (id : UInt64) (identity : Identity) : Prop :=
  (∃ commitment status, p.record id = some (commitment, status) ∧ status.Working) ∧ p.identity id = identity

/-- What one call does to one kind of participant, of which `load` has open requests. -/
inductive SideStep (rule : CapitalRule A w) (load : UInt64 → RequestId) (p p' : Side A w) : Prop
  | same (eq : p' = p)
  | registered (who : A) (status : RegistryStatus) (lock : Option (BitVec w))
      (count : p'.count.toNat = p.count.toNat + 1)
      (record : p'.record = update p.record p.count (some (rule.commit who, status)))
      (locked : p'.locked = update p.locked p.count lock)
      (held : ∀ a, p'.held a = p.held a + if who = a then lockedAmount lock else 0)
      (operators : p'.operators = p.operators ++ [(p.count, who)])
      (identity : p'.identity = p.identity) (lockOk : rule.LockOk status lock)
  | changed (id : UInt64) (who : A) (old status : RegistryStatus) (lock : Option (BitVec w))
      (registered : (id, who) ∈ p.operators) (was : p.record id = some (rule.commit who, old))
      (count : p'.count = p.count)
      (record : p'.record = update p.record id (some (rule.commit who, status)))
      (locked : p'.locked = update p.locked id lock)
      (held : ∀ a, p'.held a + (if who = a then lockedAmount (p.locked id) else 0) =
        p.held a + if who = a then lockedAmount lock else 0)
      (operators : p'.operators = p.operators)
      (identity : ∀ i, i ≠ id → p'.identity i = p.identity i) (lockOk : rule.LockOk status lock)
      (idle : load id = 0 ∨ (p'.identity id = p.identity id ∧ (old.Working → status.Working)))

namespace SideStep
variable {load : UInt64 → RequestId} {p p' : Side A w}

/-- One participant was rewritten for the operator its record commits to. -/
theorem put {id : UInt64} {who : A} {commitment : Commitment} {old status : RegistryStatus}
    {held0 lock : Option (BitVec w)} (hp : (id, who) ∈ p.operators) (hc : commitment = rule.commit who)
    (was : p.record id = some (commitment, old)) (hlock : p.locked id = held0) (count : p'.count = p.count)
    (record : p'.record = update p.record id (some (commitment, status))) (locked : p'.locked = update p.locked id lock)
    (held : ∀ a, p'.held a + (if who = a then lockedAmount held0 else 0) =
      p.held a + if who = a then lockedAmount lock else 0)
    (operators : p'.operators = p.operators) (identity : ∀ i, i ≠ id → p'.identity i = p.identity i)
    (lockOk : rule.LockOk status lock)
    (idle : load id = 0 ∨ (p'.identity id = p.identity id ∧ (old.Working → status.Working))) :
    SideStep rule load p p' :=
  .changed id who old status lock hp (hc ▸ was) count (hc ▸ record) locked (hlock ▸ held) operators identity lockOk idle

/-- A step keeps the accounting. -/
theorem sound (hstep : SideStep rule load p p') (h : p.Sound rule) : p'.Sound rule := by
  cases hstep with
  | same eq => rw [eq]; exact h
  | registered who status lock count record locked held operators _ lockOk =>
    exact h.register count record locked held operators lockOk
  | changed id who old status lock registered _ count record locked held operators _ lockOk =>
    exact h.change registered count record locked held operators lockOk

/-- A step keeps the pins of every participant with open work. -/
theorem pins (hstep : SideStep rule load p p') (h : p.Sound rule) {id : UInt64} {identity : Identity}
    (hload : load id ≠ 0) (hpin : p.Pins id identity) : p'.Pins id identity := by
  obtain ⟨⟨commitment, status, hrec, hwork⟩, hident⟩ := hpin
  cases hstep with
  | same eq => rw [eq]; exact ⟨⟨commitment, status, hrec, hwork⟩, hident⟩
  | registered who _ _ _ record _ _ _ hsame _ =>
    -- the identifier handed out has no record yet, so it is another participant
    have hne : id ≠ p.count := by
      intro heq
      have hlt := h.known id (by rw [hrec]; rfl)
      rw [heq] at hlt
      exact UInt64.lt_irrefl _ hlt
    refine ⟨⟨commitment, status, ?_, hwork⟩, ?_⟩
    · rw [record, update_of_ne hne]; exact hrec
    · rw [hsame]; exact hident
  | changed id' who old status' _ _ was _ record _ _ _ hother _ idle =>
    by_cases heq : id = id'
    · subst heq
      rw [hrec, Option.some.injEq, Prod.mk.injEq] at was
      obtain ⟨rfl, rfl⟩ := was
      rcases idle with hzero | ⟨hkeep, hstays⟩
      · exact absurd hzero hload
      · exact ⟨⟨rule.commit who, status', by rw [record, update_self], hstays hwork⟩,
          hkeep.trans hident⟩
    · refine ⟨⟨commitment, status, ?_, hwork⟩, ?_⟩
      · rw [record, update_of_ne heq]; exact hrec
      · rw [hother id heq]; exact hident
end SideStep
end Qubitum
