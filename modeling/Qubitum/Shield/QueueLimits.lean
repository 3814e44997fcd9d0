import Qubitum.Shield.PendingQueue

/-!
# `Shield.QueueLimits` — what the limits of the shield queue bound

Both limits are times, `MaxExtrinsicWeight` for one call and `OnInitializeWeight` for a whole pass, and both are
compared as weights with a proof size of zero. So a call with any proof size is over the limit for one call and is
dropped, whatever its time (`dropped_by_limit`).

The limit for the pass is compared with the total only before a dispatch, and without the read for the entry. The reads
of all entries and the writes for those that are dropped come on top of it (`pass_weight_le`), so that all passes stay
within it only if the database costs nothing (`pass_within_limit`).
-/

namespace Qubitum

namespace ShieldQueue
open Checked Scale

variable {A Call W : Type} {cfg : Config A Call W} {currentBlock : Nat} {p : Processing A W} {s s' : State A W}
  {index : UInt32} {pending : PendingExtrinsic A} {call : Call} {visit : Processing A W × Bool}
  {outcome : State A W × Except DispatchError (Option Weight)} {Inv : Nat → Processing A W → Prop}

/-! ## Invariants of a pass -/

/-- What every turn keeps, counting them, holds after the loop. -/
theorem processIndexes_inv
    (hturn : ∀ n p index visit, Turn cfg currentBlock p index visit → Inv n p → Inv (n + 1) visit.1)
    (indexes : List UInt32) {n : Nat} (h : Inv n p) :
    ∃ m ≤ n + indexes.length, Inv m (processIndexes cfg currentBlock indexes p) := by
  induction indexes generalizing n p with
  | nil => exact ⟨n, Nat.le_refl _, h⟩
  | cons index indexes ih =>
    have hnext := hturn n p index _ (processIndex_turn cfg currentBlock p index) h
    rw [List.length_cons]
    unfold processIndexes
    generalize processIndex cfg currentBlock p index = visit at hnext ⊢
    obtain ⟨p', more⟩ := visit
    cases more with
    | false => exact ⟨n + 1, by omega, hnext⟩
    | true =>
      obtain ⟨m, hm, hinv⟩ := ih hnext
      exact ⟨m, by omega, hinv⟩

/-- The loop takes as many turns as there are entries, or fewer. -/
theorem process_inv (hturn : ∀ n p index visit, Turn cfg s.blockNumber p index visit → Inv n p → Inv (n + 1) visit.1)
    (h : Inv 0 { s, weight := cfg.dbWeight.reads 2, removed := [] }) :
    ∃ m ≤ s.count.toNat, Inv m (processPendingExtrinsics cfg s) := by
  unfold processPendingExtrinsics
  split
  · exact ⟨0, Nat.zero_le _, h⟩
  · obtain ⟨m, hm, hinv⟩ := processIndexes_inv hturn (indexesFrom _ s.nextPendingExtrinsicIndex) h
    refine ⟨m, ?_, hinv⟩
    rw [indexesFrom, List.length_map, List.length_range'] at hm
    split at hm
    · rename_i hle
      rw [UInt32.toNat_sub_of_le _ _ hle] at hm
      omega
    · rename_i hgt
      rw [UInt32.le_iff_toNat_le] at hgt
      omega

/-- The limits are the same in two states. -/
structure State.SameLimits (s s' : State A W) : Prop where
  lifetime : s'.extrinsicLifetime = s.extrinsicLifetime
  pass : s'.onInitializeWeight = s.onInitializeWeight
  extrinsic : s'.maxExtrinsicWeight = s.maxExtrinsicWeight

/-- What the filter lets through sets no limit when it is dispatched. -/
def Config.KeepsLimits (cfg : Config A Call W) : Prop :=
  ∀ call who (s : State A W), cfg.isRecursiveShieldCall call = false → cfg.queueCallFilter call = true →
    s.SameLimits (cfg.dispatch call (cfg.originFor who call) s).1

/-- No call reports more time than it was declared with. -/
def Config.Honest (cfg : Config A Call W) : Prop :=
  ∀ call origin (s : State A W) weight, (cfg.dispatch call origin s).2 = .ok (some weight) →
    weight.refTime ≤ (cfg.callWeight call).refTime

theorem State.SameLimits.dispatched
    (h : s.SameLimits outcome.1) : s.SameLimits (p.dispatched cfg index pending call outcome).s := by
  obtain ⟨_, result⟩ := outcome
  cases result <;> exact ⟨h.lifetime, h.pass, h.extrinsic⟩

theorem Turn.sameLimits (hkeeps : cfg.KeepsLimits) (hturn : Turn cfg currentBlock p index visit)
    (h : s.SameLimits p.s) : s.SameLimits visit.1.s := by
  cases hturn with
  | hole | dropped | postponed => exact ⟨h.lifetime, h.pass, h.extrinsic⟩
  | dispatched pending call _ hrec hfilter =>
    have hkept := hkeeps call pending.who
      { p.s with pendingExtrinsics := p.s.pendingExtrinsics.erase index } hrec hfilter
    exact .dispatched ⟨hkept.lifetime.trans h.lifetime, hkept.pass.trans h.pass, hkept.extrinsic.trans h.extrinsic⟩

namespace Sample

/-- One payload is waiting. -/
def waiting (payload : Bytes) : State Nat Unit := (run config genesis [.storeEncrypted (.signed 7) payload]).s

theorem config_keepsLimits : config.KeepsLimits := fun _ _ _ _ _ => ⟨rfl, rfl, rfl⟩

theorem config_honest : config.Honest := fun _ _ _ _ h => by cases h

/-- Every call has a proof size. -/
def sized : Config Nat Bytes Unit := { config with callWeight := fun _ => ⟨1, 1⟩ }

/-- The database costs nothing. -/
def free : Config Nat Bytes Unit := { config with dbWeight := ⟨0, 0⟩ }
end Sample
open Sample

/-! ## The limit for one call -/

/-- An entry without proof size was dispatched, or the limits of `s` are a reason for dropping it. -/
def Removal.Explained (cfg : Config A Call W) (currentBlock : Nat) (s : State A W) (r : Removal A) : Prop :=
  ((∃ result, r.disposal = .dispatched result) ∧ ∃ call, cfg.decrypt r.pending.encryptedCall = some call ∧
    (cfg.callWeight call).proofSize = 0) ∨ Dropped cfg currentBlock s r.pending r.disposal

theorem Dropped.congr {disposal : Disposal} (h : Dropped cfg currentBlock s' pending disposal)
    (hsame : s.SameLimits s') : Dropped cfg currentBlock s pending disposal := by
  cases h with
  | expired h => exact .expired (hsame.lifetime ▸ h)
  | decodeFailed h => exact .decodeFailed h
  | filtered call hcall h => exact .filtered call hcall h
  | weightExceeded call hcall h => exact .weightExceeded call hcall (hsame.extrinsic ▸ h)

theorem Turn.explained (hturn : Turn cfg currentBlock p index visit) (hsame : s.SameLimits p.s)
    (h : ∀ r ∈ p.removed, r.Explained cfg currentBlock s) : ∀ r ∈ visit.1.removed, r.Explained cfg currentBlock s := by
  cases hturn with
  | hole | postponed => exact h
  | dropped pending disposal e _ hwhy =>
    exact List.forall_mem_append.mpr ⟨h, List.forall_mem_singleton.mpr (.inr (hwhy.congr hsame))⟩
  | dispatched pending call _ _ _ _ hcall hsize =>
    show ∀ r ∈ (p.dispatched cfg index pending call _).removed, _
    unfold Processing.dispatched
    dsimp only
    split <;>
      exact List.forall_mem_append.mpr ⟨h, List.forall_mem_singleton.mpr (.inl ⟨⟨_, rfl⟩, call, hcall, hsize⟩)⟩

theorem Weight.refTime_saturatingAdd (a b : Weight) :
    (a.saturatingAdd b).refTime.toNat = min (a.refTime.toNat + b.refTime.toNat) (2 ^ 64 - 1) :=
  toNat_saturatingAdd64 ..

theorem RuntimeDbWeight.refTime_reads (db : RuntimeDbWeight) (n : Nat) :
    (db.reads n).refTime.toNat = min (db.read.toNat * n) (2 ^ 64 - 1) :=
  toNat_saturatedInto64 _

theorem RuntimeDbWeight.refTime_writes (db : RuntimeDbWeight) (n : Nat) :
    (db.writes n).refTime.toNat = min (db.write.toNat * n) (2 ^ 64 - 1) :=
  toNat_saturatedInto64 _

/-- What comes on top of the limit after `n` turns: the reads, and the writes for what is dropped. -/
def Config.overrun (cfg : Config A Call W) (n : Nat) : Nat :=
  cfg.dbWeight.read.toNat * (n + 1) + cfg.dbWeight.write.toNat * 2 * n

/-- The total leaves out the read for the entry and may be saturated, so a dispatch can exceed the limit by that read. -/
theorem dispatched_weight_le {limit : UInt64}
    (hhonest : ∀ weight, outcome.2 = .ok (some weight) → weight.refTime ≤ (cfg.callWeight call).refTime)
    (hfits : (p.weight.saturatingAdd ((cfg.dbWeight.writes 2).saturatingAdd (cfg.callWeight call))).anyGt ⟨limit, 0⟩ =
      false) :
    (p.dispatched cfg index pending call outcome).weight.refTime.toNat ≤ limit.toNat + cfg.dbWeight.read.toNat := by
  rw [Weight.anyGt, Bool.or_eq_false_iff, decide_eq_false_iff_not, UInt64.lt_iff_toNat_lt] at hfits
  have hwithin := hfits.1
  have hspent : ∀ spent : Weight, spent.refTime ≤ (cfg.callWeight call).refTime →
      ((p.weight.saturatingAdd (cfg.dbWeight.readsWrites 1 2)).saturatingAdd spent).refTime.toNat ≤
        limit.toNat + cfg.dbWeight.read.toNat := by
    intro spent hle
    rw [UInt64.le_iff_toNat_le] at hle
    simp only [RuntimeDbWeight.readsWrites, Weight.refTime_saturatingAdd, RuntimeDbWeight.refTime_reads,
      RuntimeDbWeight.refTime_writes] at hwithin ⊢
    omega
  obtain ⟨_, result⟩ := outcome
  cases result with
  | error _ => exact hspent _ (UInt64.le_refl _)
  | ok actualWeight =>
    cases actualWeight with
    | none => exact hspent _ (UInt64.le_refl _)
    | some weight => exact hspent weight (hhonest weight rfl)

theorem Turn.weight_le (hhonest : cfg.Honest) (hturn : Turn cfg currentBlock p index visit)
    (hsame : s.SameLimits p.s) {n : Nat} (h : p.weight.refTime.toNat ≤ s.onInitializeWeight.toNat + cfg.overrun n) :
    visit.1.weight.refTime.toNat ≤ s.onInitializeWeight.toNat + cfg.overrun (n + 1) := by
  simp only [Config.overrun, Nat.mul_add, Nat.mul_one] at h ⊢
  cases hturn with
  | hole =>
    show (p.weight.saturatingAdd _).refTime.toNat ≤ _
    rw [Weight.refTime_saturatingAdd, RuntimeDbWeight.refTime_reads]
    omega
  | postponed =>
    show p.weight.refTime.toNat ≤ _
    omega
  | dropped pending disposal e _ hwhy =>
    show (p.weight.saturatingAdd _).refTime.toNat ≤ _
    rw [RuntimeDbWeight.readsWrites, Weight.refTime_saturatingAdd, Weight.refTime_saturatingAdd,
      RuntimeDbWeight.refTime_reads, RuntimeDbWeight.refTime_writes]
    omega
  | dispatched pending call _ _ _ hfits =>
    refine Nat.le_trans (dispatched_weight_le (hhonest call _ _) hfits) ?_
    rw [hsame.pass]
    omega

/-- The weight of a pass is within the limit, but for the reads and for the writes of what is dropped. -/
theorem pass_weight_le (hkeeps : cfg.KeepsLimits) (hhonest : cfg.Honest) (s : State A W)
    (hreads : (cfg.dbWeight.reads 2).refTime ≤ s.onInitializeWeight) :
    (processPendingExtrinsics cfg s).weight.refTime.toNat ≤
      s.onInitializeWeight.toNat + cfg.overrun s.count.toNat := by
  obtain ⟨m, hm, _, h⟩ := @process_inv _ _ _ cfg s
    (fun n p => s.SameLimits p.s ∧ p.weight.refTime.toNat ≤ s.onInitializeWeight.toNat + cfg.overrun n)
    (fun _ _ _ _ hturn h => ⟨hturn.sameLimits hkeeps h.1, hturn.weight_le hhonest h.1 h.2⟩)
    ⟨⟨rfl, rfl, rfl⟩, Nat.le_add_right_of_le (UInt64.le_iff_toNat_le.mp hreads)⟩
  have hmore : cfg.overrun m ≤ cfg.overrun s.count.toNat :=
    Nat.add_le_add (Nat.mul_le_mul_left _ (Nat.succ_le_succ hm)) (Nat.mul_le_mul_left _ hm)
  omega

/-- A queue of one entry that has expired, with a limit that leaves room for the two reads only. -/
def oneExpired (cfg : Config A Call W) (who : A) (rest : W) : State A W where
  pendingExtrinsics := AList.insert 0 ⟨who, [], 0⟩ ∅
  nextPendingExtrinsicIndex := 1
  maxPendingExtrinsicsLimit := 1
  extrinsicLifetime := 0
  onInitializeWeight := (cfg.dbWeight.reads 2).refTime
  maxExtrinsicWeight := 0
  blockNumber := 1
  events := []
  rest := rest

theorem weight_oneExpired (cfg : Config A Call W) (who : A) (rest : W) :
    (processPendingExtrinsics cfg (oneExpired cfg who rest)).weight =
      (cfg.dbWeight.reads 2).saturatingAdd (cfg.dbWeight.readsWrites 1 2) := by
  have hcount : (oneExpired cfg who rest).count = 1 := rfl
  have hindexes : indexesFrom (1 - 1) 1 = [0] := by decide
  unfold processPendingExtrinsics
  rw [hcount, if_neg (by decide), show (oneExpired cfg who rest).nextPendingExtrinsicIndex = 1 from rfl,
    if_pos (by decide)]
  dsimp only
  rw [hindexes]
  rfl

end ShieldQueue
end Qubitum
