import Qubitum.Pallet.Run

/-!
# `Pallet.RouteSet` — the route sets of a subnet, and how a call can change them

The route set of a subnet is not stored: it is recomputed from the status, the locked capital and the
signature bundle of every participant. `RouteView` is what the route set of one kind of participant depends
on, and `RouteStep` how a call can change the set: it shrinks, or one participant joins after a check made
*before* (`joined`) or *after* (`rejoined`) it counts.

A step keeps the limit as long as the length it compares, cast to `u32`, has not wrapped
(`RouteStep.within`). The lemmas after it say what each kind of write to a participant amounts to.
-/

namespace Qubitum
open Scale Outcome Ledger Dense Function

variable {w : Nat}

/-- What the route set of one kind of participant depends on. -/
structure RouteView (w : Nat) where
  count : UInt64
  /-- subnet, status and operator commitment of a stored record -/
  entry : UInt64 → Option (SubnetId × RegistryStatus × Commitment)
  locked : UInt64 → Option (BitVec w)
  identity : UInt64 → Identity

/-- What a kind of participant needs to be routed. -/
structure RouteRule (w : Nat) where
  floor : BitVec w
  /-- the identity of a participant carries a bundle bound to it -/
  bound : UInt64 → Commitment → Identity → Bool

/-- The record is present and at least the floor. -/
def RouteRule.funds (rule : RouteRule w) : Option (BitVec w) → Bool
  | some amount => rule.floor ≤ amount
  | none        => false

namespace RouteView
variable {rule : RouteRule w} {v v' : RouteView w} {subnetId : SubnetId} {id : UInt64}

def eligible (rule : RouteRule w) (v : RouteView w) (subnetId : SubnetId) (id : UInt64) : Bool :=
  match v.entry id with
  | some (subnet, status, commitment) =>
      subnet = subnetId && (status = .active && rule.funds (v.locked id) && rule.bound id commitment (v.identity id))
  | none => false

/-- The participants a subnet routes to. -/
def routeIds (rule : RouteRule w) (v : RouteView w) (subnetId : SubnetId) : List UInt64 :=
  (idsBelow v.count).filter (v.eligible rule subnetId)

/-- The subnet routes to the participant. -/
structure Routes (rule : RouteRule w) (v : RouteView w) (subnetId : SubnetId) (id : UInt64) : Prop where
  known : id < v.count
  eligible : ∃ commitment, v.entry id = some (subnetId, .active, commitment) ∧
    rule.funds (v.locked id) = true ∧ rule.bound id commitment (v.identity id) = true

theorem mem_routeIds : id ∈ v.routeIds rule subnetId ↔ v.Routes rule subnetId id := by
  unfold routeIds
  rw [List.mem_filter, mem_idsBelow]
  constructor
  · rintro ⟨hlt, he⟩
    unfold RouteView.eligible at he
    split at he
    · rename_i subnet status commitment hentry
      simp only [Bool.and_eq_true, decide_eq_true_eq] at he
      obtain ⟨rfl, ⟨rfl, hfunds⟩, hbound⟩ := he
      exact ⟨hlt, commitment, hentry, hfunds, hbound⟩
    · cases he
  · rintro ⟨hlt, commitment, hentry, hfunds, hbound⟩
    refine ⟨hlt, ?_⟩
    simp [RouteView.eligible, hentry, hfunds, hbound]

theorem routeIds_nodup : (v.routeIds rule subnetId).Nodup := (idsBelow_nodup v.count).filter _

theorem routeIds_length_le (h : ∀ id, v'.Routes rule subnetId id → v.Routes rule subnetId id) :
    (v'.routeIds rule subnetId).length ≤ (v.routeIds rule subnetId).length :=
  (routeIds_nodup.subperm fun id hid => mem_routeIds.mpr (h id (mem_routeIds.mp hid))).length_le
end RouteView
open RouteView

/-! ## How the route set can change -/

/-- **What a call can do to the route sets** of one kind of participant; `reenters` if one that is already
    active can come back into the set. -/
inductive RouteStep (rule : RouteRule w) (max : UInt32) (reenters : Prop) (v v' : RouteView w) : Prop
  | narrowed (h : ∀ subnetId id, v'.Routes rule subnetId id → v.Routes rule subnetId id)
  | joined (subnetId : SubnetId) (id : UInt64)
      (h : ∀ subnetId' id', v'.Routes rule subnetId' id' →
        v.Routes rule subnetId' id' ∨ (subnetId' = subnetId ∧ id' = id))
      (room : UInt32.ofNat (v.routeIds rule subnetId).length < max)
  | rejoined (subnetId : SubnetId) (id : UInt64) (again : reenters)
      (h : ∀ subnetId' id', v'.Routes rule subnetId' id' →
        v.Routes rule subnetId' id' ∨ (subnetId' = subnetId ∧ id' = id))
      (room : UInt32.ofNat (v'.routeIds rule subnetId).length ≤ max)

/-- No subnet routes to more participants than the limit. -/
def Within (rule : RouteRule w) (max : UInt32) (v : RouteView w) : Prop :=
  ∀ subnetId, (v.routeIds rule subnetId).length ≤ max.toNat

section Steps
variable {rule : RouteRule w} {max : UInt32} {reenters : Prop} {v v' : RouteView w} {subnetId : SubnetId} {id : UInt64}

/-- One participant more on one subnet, at most. -/
theorem length_of_joined (h : ∀ subnetId' id', v'.Routes rule subnetId' id' →
      v.Routes rule subnetId' id' ∨ (subnetId' = subnetId ∧ id' = id)) (subnetId' : SubnetId) :
    (v'.routeIds rule subnetId').length ≤
      (v.routeIds rule subnetId').length + if subnetId' = subnetId then 1 else 0 := by
  by_cases heq : subnetId' = subnetId
  · rw [if_pos heq]
    refine (routeIds_nodup.subperm fun id' hid => ?_ : (v'.routeIds rule subnetId').Subperm (id :: _)).length_le
    rcases h subnetId' id' (mem_routeIds.mp hid) with hold | ⟨-, rfl⟩
    · exact List.mem_cons_of_mem _ (mem_routeIds.mpr hold)
    · exact List.mem_cons_self
  · rw [if_neg heq]
    exact routeIds_length_le fun id' hid => (h subnetId' id' hid).resolve_right fun hnew => heq hnew.1

/-- **A step keeps the limit**, if the cast of the length that it compares cannot wrap. -/
theorem RouteStep.within (hstep : RouteStep rule max reenters v v') (h : Within rule max v)
    (hcast : reenters → max.toNat + 1 < 2 ^ 32) : Within rule max v' := by
  intro subnetId'
  have hle := h subnetId'
  have hlimit : max.toNat < 2 ^ 32 := max.toNat_lt
  cases hstep with
  | narrowed hsub => exact le_trans (routeIds_length_le (hsub subnetId')) hle
  | joined subnetId id hsub room =>
    have hnew := length_of_joined hsub subnetId'
    split at hnew
    · rename_i heq
      subst heq
      have hlt := UInt32.lt_iff_toNat_lt.mp room
      rw [UInt32.toNat_ofNat_of_lt' (lt_of_le_of_lt hle hlimit)] at hlt
      omega
    · omega
  | rejoined subnetId id again hsub room =>
    have hnew := length_of_joined hsub subnetId'
    have hfit := hcast again
    split at hnew
    · rename_i heq
      subst heq
      have hcount := UInt32.le_iff_toNat_le.mp room
      rwa [UInt32.toNat_ofNat_of_lt' (show _ < 2 ^ 32 by omega)] at hcount
    · omega

/-- The two views differ at one participant at most. -/
structure AgreeOff (id : UInt64) (v v' : RouteView w) : Prop where
  count : v'.count = v.count
  entry : ∀ id', id' ≠ id → v'.entry id' = v.entry id'
  locked : ∀ id', id' ≠ id → v'.locked id' = v.locked id'
  identity : ∀ id', id' ≠ id → v'.identity id' = v.identity id'

theorem AgreeOff.routes (h : AgreeOff id v v') {id' : UInt64} (hne : id' ≠ id)
    (hr : v'.Routes rule subnetId id') : v.Routes rule subnetId id' := by
  obtain ⟨hlt, commitment, hentry, hfunds, hbound⟩ := hr
  refine ⟨h.count ▸ hlt, commitment, ?_, ?_, ?_⟩
  · rw [← h.entry id' hne]; exact hentry
  · rw [← h.locked id' hne]; exact hfunds
  · rw [← h.identity id' hne]; exact hbound

theorem RouteStep.narrowed_at (h : AgreeOff id v v')
    (hid : ∀ subnetId, v'.Routes rule subnetId id → v.Routes rule subnetId id) : RouteStep rule max reenters v v' := by
  refine .narrowed fun subnetId id' hr => ?_
  by_cases heq : id' = id
  · subst heq; exact hid subnetId hr
  · exact h.routes heq hr

/-- Only the participant that changed can be new, and only on its own subnet. -/
theorem AgreeOff.joins (h : AgreeOff id v v') (hsub : ∀ subnetId', v'.Routes rule subnetId' id → subnetId' = subnetId) :
    ∀ subnetId' id', v'.Routes rule subnetId' id' →
      v.Routes rule subnetId' id' ∨ (subnetId' = subnetId ∧ id' = id) := by
  intro subnetId' id' hr
  by_cases heq : id' = id
  · subst heq; exact Or.inr ⟨hsub subnetId' hr, rfl⟩
  · exact Or.inl (h.routes heq hr)

variable {ids ids' : List UInt64} {error : DispatchError} {id : UInt64} {max : UInt32}
  {lock : Option (BitVec w)} {commitment : Commitment} {entry : SubnetId × RegistryStatus × Commitment}

/-- What a passed capacity check says about the identifiers it counted. -/
theorem ensureRouteCapacity_ok (h : ensureRouteCapacity ids (some id) max error = .ok ()) (hperm : ids.Perm ids') :
    (id ∈ ids' → UInt32.ofNat ids'.length ≤ max) ∧ (id ∉ ids' → UInt32.ofNat ids'.length < max) := by
  unfold ensureRouteCapacity at h
  simp only [Option.any_some, List.contains_iff_mem, hperm.mem_iff, hperm.length_eq] at h
  constructor
  · intro hmem
    rw [if_pos hmem] at h
    exact ensure_eq_ok.mp h
  · intro hmem
    rw [if_neg hmem] at h
    exact ensure_eq_ok.mp h

/-- An active participant has its capital; where nobody can re-enter, it also has its bundle. -/
def RouteView.Armed (rule : RouteRule w) (reenters : Prop) (v : RouteView w) : Prop :=
  ∀ id subnetId commitment, v.entry id = some (subnetId, .active, commitment) →
    rule.funds (v.locked id) = true ∧ (¬ reenters → rule.bound id commitment (v.identity id) = true)

/-- What a call does to one kind of participant. -/
structure ViewStep (rule : RouteRule w) (max : UInt32) (reenters : Prop) (v v' : RouteView w) : Prop where
  routes : v.Armed rule reenters → RouteStep rule max reenters v v'
  armed : v.Armed rule reenters → v'.Armed rule reenters

theorem ViewStep.same (h : v' = v) : ViewStep rule max reenters v v' :=
  ⟨fun _ => .narrowed fun _ _ hr => h ▸ hr, fun ha => h ▸ ha⟩

/-- Off the participant that changed, active participants are what they were. -/
theorem AgreeOff.armed (h : AgreeOff id v v') (ha : v.Armed rule reenters)
    (hid : ∀ subnetId commitment, v'.entry id = some (subnetId, .active, commitment) →
      rule.funds (v'.locked id) = true ∧ (¬ reenters → rule.bound id commitment (v'.identity id) = true)) :
    v'.Armed rule reenters := by
  intro id' subnetId commitment hentry
  by_cases heq : id' = id
  · subst heq; exact hid subnetId commitment hentry
  · rw [h.locked id' heq, h.identity id' heq]
    exact ha id' subnetId commitment (h.entry id' heq ▸ hentry)

/-- A new participant is `Pending`, so nobody is routed to it yet. -/
theorem ViewStep.registered (subnetId : SubnetId) (commitment : Commitment)
    (hcount : v'.count.toNat = v.count.toNat + 1)
    (hentry : v'.entry = update v.entry v.count (some (subnetId, .pending, commitment)))
    (hlocked : v'.locked = update v.locked v.count lock) (hidentity : v'.identity = v.identity) :
    ViewStep rule max reenters v v' := by
  have hold : ∀ {id subnetId commitment}, v'.entry id = some (subnetId, .active, commitment) →
      id ≠ v.count ∧ v.entry id = some (subnetId, .active, commitment) ∧ v'.locked id = v.locked id := by
    intro id subnetId commitment h
    by_cases heq : id = v.count
    · subst heq
      rw [hentry, update_self] at h
      cases h
    · rw [hentry, update_of_ne heq] at h
      rw [hlocked, update_of_ne heq]
      exact ⟨heq, h, rfl⟩
  constructor
  · intro _
    refine .narrowed fun subnetId id hr => ?_
    obtain ⟨hlt, commitment, hactive, hfunds, hbound⟩ := hr
    obtain ⟨hne, hwas, hlock⟩ := hold hactive
    rw [hlock] at hfunds
    rw [hidentity] at hbound
    refine ⟨?_, commitment, hwas, hfunds, hbound⟩
    have hne' : id.toNat ≠ v.count.toNat := fun heq => hne (UInt64.toNat.inj heq)
    rw [UInt64.lt_iff_toNat_lt] at hlt ⊢
    omega
  · intro ha id subnetId commitment hactive
    obtain ⟨-, hwas, hlock⟩ := hold hactive
    rw [hlock, hidentity]
    exact ha id subnetId commitment hwas

/-- The view after the record of a participant, and its capital, were written. -/
def RouteView.put (v : RouteView w) (id : UInt64) (entry : SubnetId × RegistryStatus × Commitment)
    (lock : Option (BitVec w)) : RouteView w :=
  { v with entry := update v.entry id (some entry), locked := update v.locked id lock }

section Put
variable {entry : SubnetId × RegistryStatus × Commitment} {lock : Option (BitVec w)}

@[simp] theorem entry_put : (v.put id entry lock).entry id = some entry := update_self ..

@[simp] theorem locked_put : (v.put id entry lock).locked id = lock := update_self ..

theorem AgreeOff.put : AgreeOff id v (v.put id entry lock) :=
  ⟨rfl, fun _ hne => update_of_ne hne _ _, fun _ hne => update_of_ne hne _ _, fun _ _ => rfl⟩
end Put

/-- A participant whose record is rewritten is active afterwards only if it was, with its capital. -/
theorem ViewStep.rewritten {status status' : RegistryStatus}
    (hwas : v.entry id = some (subnetId, status, commitment)) (his : v' = v.put id entry lock)
    (hentry : entry = (subnetId, status', commitment))
    (hactive : status' = .active → status = .active ∧ rule.funds lock = true) : ViewStep rule max reenters v v' := by
  subst his hentry
  constructor
  · intro ha
    refine .narrowed_at .put fun subnetId' hr => ?_
    obtain ⟨hlt, commitment', hentry, hfunds, hbound⟩ := hr
    cases entry_put.symm.trans hentry
    obtain ⟨rfl, -⟩ := hactive rfl
    exact ⟨hlt, commitment, hwas, (ha id subnetId commitment hwas).1, hbound⟩
  · intro ha
    refine AgreeOff.put.armed ha fun subnetId' commitment' hentry => ?_
    cases entry_put.symm.trans hentry
    obtain ⟨rfl, hfunds⟩ := hactive rfl
    rw [locked_put]
    exact ⟨hfunds, (ha id subnetId commitment hwas).2⟩

/-- A participant that is active now joins its subnet, which had room for it before. -/
theorem ViewStep.activated (commitment : Commitment) (h : AgreeOff id v v')
    (his : v'.entry id = some (subnetId, .active, commitment)) (hfunds : rule.funds (v'.locked id) = true)
    (hbound : ¬ reenters → rule.bound id commitment (v'.identity id) = true)
    (room : UInt32.ofNat (v.routeIds rule subnetId).length < max) : ViewStep rule max reenters v v' := by
  constructor
  · intro _
    refine .joined subnetId id (h.joins fun subnetId' hr => ?_) room
    obtain ⟨commitment', hentry, -⟩ := hr.eligible
    cases his.symm.trans hentry
    rfl
  · intro ha
    refine h.armed ha fun subnetId' commitment' hentry => ?_
    cases his.symm.trans hentry
    exact ⟨hfunds, hbound⟩

theorem ViewStep.activated_put (his : v' = v.put id entry lock)
    (hentry : entry = (subnetId, .active, commitment)) (hre : reenters) (hfunds : rule.funds lock = true)
    (room : UInt32.ofNat (v.routeIds rule subnetId).length < max) : ViewStep rule max reenters v v' := by
  subst his hentry
  refine .activated commitment .put entry_put ?_ (fun h => absurd hre h) room
  rw [locked_put]
  exact hfunds

section
variable (h : AgreeOff id v v')
include h

/-- An active participant with a new identity, checked with the identity in place: it is back, or it is
    still not routed to. -/
theorem ViewStep.reattested (hre : reenters)
    (hwas : v.entry id = some (subnetId, .active, commitment)) (his : v'.entry id = v.entry id)
    (hlocked : v'.locked id = v.locked id)
    (room : id ∈ v'.routeIds rule subnetId → UInt32.ofNat (v'.routeIds rule subnetId).length ≤ max) :
    ViewStep rule max reenters v v' := by
  have honly : ∀ subnetId', v'.Routes rule subnetId' id → subnetId' = subnetId := by
    intro subnetId' hr
    obtain ⟨commitment', hentry, -⟩ := hr.eligible
    rw [his, hwas] at hentry
    cases hentry
    rfl
  constructor
  · intro _
    by_cases hmem : id ∈ v'.routeIds rule subnetId
    · exact .rejoined subnetId id hre (h.joins honly) (room hmem)
    · refine .narrowed_at h fun subnetId' hr => absurd (mem_routeIds.mpr ?_) hmem
      rw [← honly subnetId' hr]
      exact hr
  · intro ha
    refine h.armed ha fun subnetId' commitment' hentry => ⟨?_, fun hno => absurd hre hno⟩
    rw [his] at hentry
    rw [hlocked]
    exact (ha id subnetId' commitment' hentry).1

/-- An active participant with a new bound identity, where active participants are always routed to. -/
theorem ViewStep.refreshed (hno : ¬ reenters) (hwas : v.entry id = some (subnetId, .active, commitment))
    (his : v'.entry id = some (subnetId, .active, commitment)) (hlocked : v'.locked id = v.locked id)
    (hbound : rule.bound id commitment (v'.identity id) = true) : ViewStep rule max reenters v v' := by
  constructor
  · intro ha
    obtain ⟨hfunds, hb⟩ := ha id subnetId commitment hwas
    refine .narrowed_at h fun subnetId' hr => ?_
    obtain ⟨commitment', hentry, -⟩ := hr.eligible
    cases his.symm.trans hentry
    exact ⟨h.count ▸ hr.known, commitment, hwas, hfunds, hb hno⟩
  · intro ha
    refine h.armed ha fun subnetId' commitment' hentry => ?_
    cases his.symm.trans hentry
    rw [hlocked]
    exact ⟨(ha id subnetId commitment hwas).1, fun _ => hbound⟩

/-- A participant without a bound identity is not routed to. -/
theorem ViewStep.cleared (hre : reenters) (his : v'.entry id = v.entry id)
    (hlocked : v'.locked id = v.locked id) (hunbound : ∀ commitment, rule.bound id commitment (v'.identity id) = false) :
    ViewStep rule max reenters v v' := by
  constructor
  · intro _
    refine .narrowed_at h fun subnetId hr => ?_
    obtain ⟨commitment, -, -, hbound⟩ := hr.eligible
    rw [hunbound commitment] at hbound
    cases hbound
  · intro ha
    refine h.armed ha fun subnetId commitment hentry => ⟨?_, fun hno => absurd hre hno⟩
    rw [his] at hentry
    rw [hlocked]
    exact (ha id subnetId commitment hentry).1

/-- A participant that is not active counts neither before nor after it changes. -/
theorem length_eq_of_inactive (h' : AgreeOff id v' v)
    (hnot : ∀ subnetId commitment, v.entry id ≠ some (subnetId, .active, commitment))
    (hnot' : ∀ subnetId commitment, v'.entry id ≠ some (subnetId, .active, commitment)) (subnetId : SubnetId) :
    (v'.routeIds rule subnetId).length = (v.routeIds rule subnetId).length := by
  refine le_antisymm (routeIds_length_le fun id' hr => h.routes ?_ hr)
    (routeIds_length_le fun id' hr => h'.routes ?_ hr)
  · rintro rfl
    obtain ⟨commitment, hentry, -⟩ := hr.eligible
    exact hnot' subnetId commitment hentry
  · rintro rfl
    obtain ⟨commitment, hentry, -⟩ := hr.eligible
    exact hnot subnetId commitment hentry

/-- A participant that changed and is not active. -/
theorem ViewStep.inactive (hnot : ∀ subnetId commitment, v'.entry id ≠ some (subnetId, .active, commitment)) :
    ViewStep rule max reenters v v' :=
  ⟨fun _ => .narrowed_at h fun _ hr => let ⟨_, hentry, _⟩ := hr.eligible; absurd hentry (hnot _ _),
    fun ha => h.armed ha fun _ _ hentry => absurd hentry (hnot _ _)⟩
end
end Steps
end Qubitum
