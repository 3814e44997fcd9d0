import Qubitum.Swap.Accounting

/-!
# `Swap.TickLiquidity` — the ticks store what the positions have at their ends

The net and gross liquidity of every tick are changed by the functions that add, remove and modify positions. A swap
writes other data of the ticks that it crosses, and not these. They are those of the positions as long as
`adjust_protocol_liquidity` does not make the protocol's position smaller (`ticks_exact`): then the position is written
and its ends are not. That is met right after a pool is initialised.
-/

namespace Qubitum.Swap
open Fixed Outcome Mutation MapSum
open Qubitum.Subtensor (StorageMap SwapResult)

variable {A : Type} [DecidableEq A] {cfg : Config A} {p p' q : Pool A} {tickLow tickHigh : TickIndex}
  {liquidity : Nat} {position : Position}

/-! ## The invariant -/

/-- What every operation keeps: the ticks are those of the positions. -/
structure Sound (ticks : StorageMap TickIndex Tick) (positions : StorageMap (A × PositionId) Position)
    (lastPositionId : PositionId) (opened : Bool) : Prop where
  balanced : Balanced ticks positions
  ordered : Ordered positions
  ids : ∀ k q, positions.lookup k = some q → q.id = k.2 ∧ k.2 ≤ lastPositionId
  unopened : opened = false → ∀ k, positions.lookup k = none
  fits : sumOf Position.liquidity positions < 2 ^ 64

def Pool.Sound (p : Pool A) : Prop :=
  Swap.Sound p.ticks p.positions p.lastPositionId p.swapV3Initialized

variable {positions : StorageMap (A × PositionId) Position} {env : Env} {side : Side} {limitSqrtPrice : SqrtPrice}
  {dropFees : Bool} {acc acc' : Progress}

/-! ## Positions -/

section Positions
variable {ticks : StorageMap TickIndex Tick} {lastPositionId held delta : Nat} {opened : Bool}
  {k : A × PositionId}

section
variable (h : Sound p.ticks positions lastPositionId opened)
  (hrange : position.tickLow < position.tickHigh)
include h hrange

/-- A position grows, or a new one is stored. -/
theorem Sound.grow (hheld : Held positions k position held)
    (hgrown : position.liquidity = held + delta) (hid : position.id = k.2)
    (hsum : sumOf Position.liquidity (positions.insert k position) < 2 ^ 64) :
    Sound (p.addLiquidityAtEnds position.tickLow position.tickHigh delta).ticks (positions.insert k position)
      (max lastPositionId k.2) true := by
  refine ⟨h.balanced.grow h.ordered hrange hheld hgrown hsum, h.ordered.insert hrange, ?_,
    fun hnot => Bool.noConfusion hnot, hsum⟩
  intro k' q hq
  by_cases hk : k' = k
  · subst hk
    rw [AList.lookup_insert] at hq
    cases hq
    exact ⟨hid, le_max_right _ _⟩
  · rw [AList.lookup_insert_ne hk] at hq
    have hold := h.ids k' q hq
    exact ⟨hold.1, hold.2.trans (le_max_left _ _)⟩

/-- A position shrinks or is removed. -/
theorem Sound.shrink {positions' : StorageMap (A × PositionId) Position}
    (hkeys : ∀ k' q, positions'.lookup k' = some q →
      ∃ q', positions.lookup k' = some q' ∧ q.id = q'.id ∧ q.tickLow = q'.tickLow ∧ q.tickHigh = q'.tickHigh)
    (hrest : ∀ (c : TickIndex → TickIndex → Prop) [∀ low high, Decidable (c low high)],
      sumOf (Position.share c) positions' + (if c position.tickLow position.tickHigh then delta else 0) =
        sumOf (Position.share c) positions) :
    Sound (p.removeLiquidityAtEnds position.tickLow position.tickHigh delta).ticks positions' lastPositionId opened := by
  refine ⟨h.balanced.shrink hrange hrest, ?_, ?_, ?_, ?_⟩
  · intro k' q hq
    obtain ⟨q', hq', -, hlow, hhigh⟩ := hkeys k' q hq
    rw [hlow, hhigh]
    exact h.ordered k' q' hq'
  · intro k' q hq
    obtain ⟨q', hq', hid, -⟩ := hkeys k' q hq
    rw [hid]
    exact h.ids k' q' hq'
  · intro hnot k'
    cases hq : positions'.lookup k' with
    | none => rfl
    | some q =>
      obtain ⟨q', hq', -⟩ := hkeys k' q hq
      rw [h.unopened hnot k'] at hq'
      cases hq'
  · have hfits := h.fits
    have hall := hrest fun _ _ => True
    change sumOf (Position.share fun _ _ => True) _ < _ at hfits ⊢
    omega
end
end Positions

/-! ## Operations on positions -/

section Operations
variable {coldkey hotkey : A} {positionId : PositionId} {balances : Balances A}

section
omit [DecidableEq A]

theorem Pool.removeLiquidityAtIndex_eq (p : Pool A) (tick : TickIndex) (liquidity : Nat) (upper : Bool) :
    ∃ ticks tickIndexBitmapWords,
      p.removeLiquidityAtIndex tick liquidity upper = { p with ticks, tickIndexBitmapWords } := by
  unfold Pool.removeLiquidityAtIndex
  cases p.ticks.lookup tick with
  | none => exact ⟨_, _, rfl⟩
  | some stored =>
    dsimp only
    split_ifs
    · exact ⟨_, _, rfl⟩
    · exact ⟨_, _, rfl⟩

theorem Pool.removeLiquidityAtIndex_current (p : Pool A) (tick : TickIndex) (liquidity c : Nat) (upper : Bool) :
    { p with currentLiquidity := c }.removeLiquidityAtIndex tick liquidity upper =
      { p.removeLiquidityAtIndex tick liquidity upper with currentLiquidity := c } := by
  unfold Pool.removeLiquidityAtIndex
  cases p.ticks.lookup tick with
  | none => rfl
  | some stored =>
    dsimp only
    split_ifs
    · rfl
    · rfl

/-- Only the ticks and their bitmap are written. -/
theorem Pool.removeLiquidityAtEnds_eq (p : Pool A) (tickLow tickHigh : TickIndex) (liquidity : Nat) :
    ∃ ticks tickIndexBitmapWords,
      p.removeLiquidityAtEnds tickLow tickHigh liquidity = { p with ticks, tickIndexBitmapWords } := by
  unfold Pool.removeLiquidityAtEnds
  obtain ⟨ticks, words, hlow⟩ := p.removeLiquidityAtIndex_eq tickLow liquidity false
  obtain ⟨ticks', words', hhigh⟩ :=
    (p.removeLiquidityAtIndex tickLow liquidity false).removeLiquidityAtIndex_eq tickHigh liquidity true
  rw [hhigh, hlow]
  exact ⟨_, _, rfl⟩
end

/-- The next id has not been used. -/
theorem Pool.Sound.held_new (h : p.Sound) (hid : position.id = p.lastPositionId + 1) :
    Held p.positions (coldkey, position.id) position 0 := by
  refine .absent ?_
  cases hlookup : p.positions.lookup (coldkey, position.id) with
  | none => rfl
  | some old =>
    have hle : position.id ≤ p.lastPositionId := (h.ids _ _ hlookup).2
    rw [hid] at hle
    exact absurd hle (Nat.not_succ_le_self _)

theorem Pool.Sound.added (h : p.Sound) (hadded : p.Added q tickLow tickHigh liquidity)
    (hid : position.id = p.lastPositionId + 1) (hlow : position.tickLow = tickLow) (hhigh : position.tickHigh = tickHigh)
    (hliquidity : position.liquidity = liquidity)
    (hsum : sumOf Position.liquidity (p.positions.insert (coldkey, position.id) position) < 2 ^ 64) :
    Pool.Sound { q with positions := p.positions.insert (coldkey, position.id) position } := by
  subst hlow hhigh hliquidity
  have hheld : Held p.positions (coldkey, position.id) position 0 := h.held_new hid
  have hgrown := Swap.Sound.grow h hadded.range hheld (Nat.zero_add _).symm rfl hsum
  have hmax : max p.lastPositionId position.id = p.lastPositionId + 1 := by
    rw [hid]
    exact max_eq_right (Nat.le_succ _)
  rw [hmax] at hgrown
  rw [hadded.pool]
  exact hgrown

theorem doAddLiquidity_ends :
    Returns (doAddLiquidity cfg balances coldkey hotkey tickLow tickHigh liquidity) p
      (fun _ p' => ∃ q position, p.Added q tickLow tickHigh liquidity ∧ position.id = p.lastPositionId + 1 ∧
        position.tickLow = tickLow ∧ position.tickHigh = tickHigh ∧ position.liquidity = liquidity ∧
        p' = { q with positions := p.positions.insert (coldkey, position.id) position }) := by
  unfold doAddLiquidity
  simp only [ends_bind, ends_get, ends_lift_ensure, ends_modify, ends_pure, implies_true, and_true]
  intro _
  refine addLiquidityNotInsert_ends.weaken ?_
  rintro ⟨position, tao, alpha⟩ q ⟨hadded, hid, hlow, hhigh, hliquidity⟩
  intro _ _
  refine ⟨q, position, hadded, hid, hlow, hhigh, hliquidity, ?_⟩
  rw [show p.positions = q.positions from (congrArg Pool.positions hadded.pool).symm]

theorem doRemoveLiquidity_ends :
    Returns (doRemoveLiquidity coldkey positionId) p
      (fun _ p' => ∃ position, p.positions.lookup (coldkey, positionId) = some position ∧
        p' = { { p with currentLiquidity :=
            p.changedLiquidity position.tickLow position.tickHigh (-(position.liquidity : Int)) }.removeLiquidityAtEnds
            position.tickLow position.tickHigh position.liquidity with
          positions := p.positions.erase (coldkey, positionId) }) := by
  unfold doRemoveLiquidity
  simp only [ends_bind, ends_get, ends_lift_okOr, ends_modify, ends_pure, implies_true, and_true]
  intro position hposition
  simp only [ends_lift]
  refine ⟨fun _ _ => ⟨position, hposition, ?_⟩, fun _ _ => trivial⟩
  obtain ⟨ticks, words, hremoved⟩ := p.removeLiquidityAtEnds_eq position.tickLow position.tickHigh position.liquidity
  have hcurrent : ∀ c, { p with currentLiquidity := c }.removeLiquidityAtEnds position.tickLow position.tickHigh
      position.liquidity = { p with ticks, tickIndexBitmapWords := words, currentLiquidity := c } := by
    intro c
    unfold Pool.removeLiquidityAtEnds at hremoved ⊢
    rw [Pool.removeLiquidityAtIndex_current p, Pool.removeLiquidityAtIndex_current (p.removeLiquidityAtIndex _ _ _),
      hremoved]
  simp only [Position.collectFees, Pool.updateLiquidityIfNeeded, hremoved, hcurrent]
  rfl

variable {k k' : A × PositionId}
variable {liquidityDelta : Int} {sqrtPa sqrtPb : SqrtPrice}

theorem doModifyPosition_ends :
    Returns (doModifyPosition cfg balances coldkey hotkey positionId liquidityDelta) p
      (fun _ p' => ∃ position sqrtPa sqrtPb, p.positions.lookup (coldkey, positionId) = some position ∧
        TickIndex.tryToSqrtPrice position.tickLow = some sqrtPa ∧
        TickIndex.tryToSqrtPrice position.tickHigh = some sqrtPb ∧
        (¬ 0 < liquidityDelta → liquidityDelta.natAbs ≤ position.liquidity) ∧
        p' = { p with currentLiquidity := p.modifiedLiquidity sqrtPa sqrtPb liquidityDelta }.writePosition cfg coldkey
          positionId position liquidityDelta) := by
  unfold doModifyPosition
  simp only [ends_bind, ends_get, ends_lift_ensure, ends_lift_okOr, ends_modify, ends_pure, ends_ite, implies_true,
    and_true]
  intro _ position hposition _ sqrtPa hPa sqrtPb hPb
  refine ⟨fun hup _ => ?_, fun hdown henough => ?_⟩
  · exact ⟨position, sqrtPa, sqrtPb, hposition, hPa, hPb, fun hnot => absurd hup hnot, rfl⟩
  · exact ⟨position, sqrtPa, sqrtPb, hposition, hPa, hPb, fun _ => henough, rfl⟩

section Written
variable {delta : Nat} {k : A × PositionId} {new : Position} (h : p.Sound)
  (hposition : p.positions.lookup k = some position)
include h hposition

section
variable (hid : new.id = position.id) (hlow : new.tickLow = position.tickLow) (hhigh : new.tickHigh = position.tickHigh)
include hid hlow hhigh

/-- A stored position has grown. -/
theorem Pool.Sound.grown (hnew : new.liquidity = position.liquidity + delta)
    (hfits : sumOf Position.liquidity p.positions + delta < 2 ^ 64) :
    Pool.Sound { p.addLiquidityAtEnds position.tickLow position.tickHigh delta with
      positions := p.positions.insert k new } := by
  have hheld : Held p.positions k new position.liquidity := .stored hposition hlow.symm hhigh.symm
  have hrange := h.ordered _ _ hposition
  have hold := h.ids _ _ hposition
  have hsum : sumOf Position.liquidity (p.positions.insert k new) < 2 ^ 64 := by
    have hall := hheld.sumOf_liquidity
    omega
  have hgrown := Swap.Sound.grow h (by rw [hlow, hhigh]; exact hrange) hheld hnew (hid.trans hold.1) hsum
  have hopened : p.swapV3Initialized = true := by
    cases hopen : p.swapV3Initialized with
    | true => rfl
    | false =>
      rw [h.unopened hopen k] at hposition
      cases hposition
  rw [hlow, hhigh, max_eq_left hold.2, ← hopened] at hgrown
  exact hgrown

/-- Something was taken from a stored position. -/
theorem Pool.Sound.taken (hle : delta ≤ position.liquidity) (hnew : new.liquidity = position.liquidity - delta) :
    Pool.Sound { p.removeLiquidityAtEnds position.tickLow position.tickHigh delta with
      positions := p.positions.insert k new } := by
  have hheld : Held p.positions k new position.liquidity := .stored hposition hlow.symm hhigh.symm
  have htaken := Swap.Sound.shrink h (h.ordered _ _ hposition)
    (fun k' q (hq : (p.positions.insert k new).lookup k' = some q) => by
      by_cases hk : k' = k
      · subst hk
        rw [AList.lookup_insert] at hq
        cases hq
        exact ⟨position, hposition, hid, hlow, hhigh⟩
      · rw [AList.lookup_insert_ne hk] at hq
        exact ⟨q, hq, rfl, rfl, rfl⟩)
    fun c _ => by
      show _ + (if c position.tickLow position.tickHigh then delta else 0) = _
      have hsum := hheld.sumOf_insert c
      rw [hlow, hhigh] at hsum
      split_ifs at hsum ⊢ <;> omega
  obtain ⟨ticks, words, hremoved⟩ := p.removeLiquidityAtEnds_eq position.tickLow position.tickHigh delta
  rw [hremoved] at htaken
  rw [hremoved]
  exact htaken
end

/-- A stored position was removed. -/
theorem Pool.Sound.erased :
    Pool.Sound { p.removeLiquidityAtEnds position.tickLow position.tickHigh position.liquidity with
      positions := p.positions.erase k } := by
  have hheld : Held p.positions k position position.liquidity := .stored hposition rfl rfl
  have herased := Swap.Sound.shrink h (h.ordered _ _ hposition)
    (fun k' q (hq : (p.positions.erase k).lookup k' = some q) => by
      by_cases hk : k' = k
      · subst hk
        rw [AList.lookup_erase] at hq
        cases hq
      · rw [AList.lookup_erase_ne hk] at hq
        exact ⟨q, hq, rfl, rfl, rfl⟩) fun c _ => hheld.sumOf_erase c
  obtain ⟨ticks, words, hremoved⟩ := p.removeLiquidityAtEnds_eq position.tickLow position.tickHigh position.liquidity
  rw [hremoved] at herased
  rw [hremoved]
  exact herased
end Written

/-- A position is modified, whatever that does to the current liquidity. -/
theorem Pool.Sound.modified {current : Nat} (h : p.Sound)
    (hposition : p.positions.lookup (coldkey, positionId) = some position)
    (henough : ¬ 0 < liquidityDelta → liquidityDelta.natAbs ≤ position.liquidity)
    (hfits : sumOf Position.liquidity p.positions + liquidityDelta.toNat < 2 ^ 64) :
    Pool.Sound ({ p with currentLiquidity := current }.writePosition cfg coldkey positionId position liquidityDelta) := by
  have hle := (Held.stored hposition rfl rfl).le_sumOf
  have hkey : (coldkey, position.id) = (coldkey, positionId) := by rw [(h.ids _ _ hposition).1]
  have hcurrent : Pool.Sound { p with currentLiquidity := current } := h
  unfold Pool.writePosition
  rw [hkey]
  by_cases hgone : cfg.eliminates position liquidityDelta
  · rw [if_pos hgone]
    exact hcurrent.erased hposition
  · rw [if_neg hgone]
    by_cases hup : 0 < liquidityDelta
    · have hnat : liquidityDelta.toNat = liquidityDelta.natAbs := by omega
      rw [if_pos hup]
      exact hcurrent.grown hposition rfl rfl rfl (satAdd_eq (by omega)) (by rw [← hnat]; exact hfits)
    · rw [if_neg hup]
      exact hcurrent.taken hposition rfl rfl rfl (henough hup) rfl
end Operations

/-! ## The protocol's position -/

theorem Pool.Sound.protocolPosition_lookup (h : p.Sound) (hposition : p.protocolPosition cfg = some position) :
    p.positions.lookup (cfg.protocolAccountId, position.id) = some position := by
  obtain ⟨e, hfind, rfl⟩ := Option.map_eq_some_iff.mp hposition
  have hlookup : p.positions.lookup e.1 = some e.2 := AList.mem_lookup_iff.mpr (List.mem_of_find?_eq_some hfind)
  have howner : e.1.1 = cfg.protocolAccountId := by simpa using List.find?_some hfind
  rw [← howner, (h.ids _ _ hlookup).1]
  exact hlookup

/-- The protocol's position does not get smaller. -/
def Pool.Growing (cfg : Config A) (p : Pool A) (taoDelta alphaDelta : Nat) : Prop :=
  ∀ position liquidity, p.protocolPosition cfg = some position →
    p.protocolLiquidity position taoDelta alphaDelta = .ok liquidity →
    position.liquidity ≤ liquidity

/-- What the protocol's position grows by. -/
def Pool.protocolGrowth (cfg : Config A) (p : Pool A) (taoDelta alphaDelta : Nat) : Nat :=
  match p.protocolPosition cfg with
  | none => 0
  | some position =>
      match p.protocolLiquidity position taoDelta alphaDelta with
      | .error _ => 0
      | .ok liquidity => liquidity - position.liquidity

/-- What is left over does not matter, whatever it is. -/
theorem Pool.Sound.kept (h : p.Sound) (deltas : Nat × Nat × Nat × Nat) : (p.keepScraps deltas).Sound := h

theorem Pool.Sound.setProtocolLiquidity (h : p.Sound)
    (hposition : p.positions.lookup (cfg.protocolAccountId, position.id) = some position)
    (hle : position.liquidity ≤ liquidity)
    (hfits : sumOf Position.liquidity p.positions + (liquidity - position.liquidity) < 2 ^ 64)
    (deltas : Nat × Nat × Nat × Nat) :
    ((p.keepScraps deltas).setProtocolLiquidity cfg position liquidity).Sound := by
  have hnew : liquidity = position.liquidity + (liquidity - position.liquidity) := by omega
  have hkept : Pool.Sound { p.keepScraps deltas with
      currentLiquidity := satAdd p.currentLiquidity (liquidity - position.liquidity) } := h
  exact hkept.grown hposition rfl rfl rfl hnew hfits

theorem Pool.Sound.adjusted (h : p.Sound) {taoDelta alphaDelta : Nat} (hgrowing : p.Growing cfg taoDelta alphaDelta)
    (hfits : sumOf Position.liquidity p.positions + p.protocolGrowth cfg taoDelta alphaDelta < 2 ^ 64) :
    (p.adjustProtocolLiquidity cfg taoDelta alphaDelta).Sound := by
  cases hposition : p.protocolPosition cfg with
  | none =>
    simp only [Pool.adjustProtocolLiquidity, hposition]
    exact h
  | some position =>
    cases hliquidity : p.protocolLiquidity position taoDelta alphaDelta with
    | error _ =>
      simp only [Pool.adjustProtocolLiquidity, hposition, hliquidity]
      exact h.kept _
    | ok liquidity =>
      have hle := hgrowing position liquidity hposition hliquidity
      simp only [Pool.protocolGrowth, hposition, hliquidity] at hfits
      simp only [Pool.adjustProtocolLiquidity, hposition, hliquidity]
      exact h.setProtocolLiquidity (h.protocolPosition_lookup hposition) hle hfits _

/-! ## Swaps -/

section Swaps

omit [DecidableEq A] in
/-- A step writes no liquidity at a tick. -/
theorem Step.Processed.netAt_eq {t : Step} (h : t.Processed q p') (e : TickIndex) :
    netAt p'.ticks e = netAt q.ticks e ∧ grossAt p'.ticks e = grossAt q.ticks e := by
  cases haction : t.action with
  | stop =>
    rw [(h.stopped haction).2]
    exact ⟨rfl, rfl⟩
  | crossing =>
    obtain ⟨_, -, -, feesOutTao, feesOutAlpha, hticks⟩ := h.crossed haction
    unfold netAt grossAt
    rw [hticks]
    by_cases he : e = t.edgeTick
    · subst he
      rw [AList.lookup_insert]
      exact ⟨rfl, rfl⟩
    · rw [AList.lookup_insert_ne he]
      exact ⟨rfl, rfl⟩

theorem Step.Processed.sound {t : Step} (hstep : t.Processed q p') (h : q.Sound) : p'.Sound := by
  have hbalanced : Balanced p'.ticks q.positions :=
    ⟨fun e => (hstep.netAt_eq e).1.trans (h.balanced.net e), fun e => (hstep.netAt_eq e).2.trans (h.balanced.gross e)⟩
  have hpositions : p'.positions = q.positions := by rw [hstep.pool]
  have hids : p'.lastPositionId = q.lastPositionId := by rw [hstep.pool]
  have hopened : p'.swapV3Initialized = q.swapV3Initialized := by rw [hstep.pool]
  unfold Pool.Sound
  rw [hpositions, hids, hopened]
  exact ⟨hbalanced, h.ordered, h.ids, h.unopened, h.fits⟩

/-- Wherever a swap goes, the ticks stay those of the positions. -/
theorem Visits.sound (h : p.Sound) (hvisits : Visits env side limitSqrtPrice dropFees p acc q acc') : q.Sound := by
  induction hvisits with
  | start => exact h
  | step _ _ hstep ih => exact hstep.sound ih
end Swaps

/-! ## Runs -/

/-- The operations of the pallet. What they read of the rest of the chain may change in between. -/
inductive Op (A : Type) where
  | maybeInitializeV3 (env : Env)
  | adjustProtocolLiquidity (taoDelta alphaDelta : Nat)
  | doAddLiquidity (balances : Balances A) (coldkey hotkey : A) (tickLow tickHigh : TickIndex) (liquidity : Nat)
  | doRemoveLiquidity (coldkey : A) (positionId : PositionId)
  | doModifyPosition (balances : Balances A) (coldkey hotkey : A) (positionId : PositionId) (liquidityDelta : Int)
  | doSwap (env : Env) (side : Side) (amount : Nat) (limitSqrtPrice : SqrtPrice) (dropFees : Bool)

/-- The pool after a function that is rolled back when it fails. -/
def commit {R : Type} (x : Run A R) (p : Pool A) : Pool A :=
  match x p with
  | .ok _ p'   => p'
  | .error _ _ => p

/-- The same for `do_swap`. -/
def commitSwap (result : Except Error SwapResult × Pool A) (p : Pool A) : Pool A :=
  match result with
  | (.ok _, p')   => p'
  | (.error _, _) => p

namespace Op

/-- The pool after an operation. -/
def apply (cfg : Config A) : Op A → Pool A → Pool A
  | maybeInitializeV3 env, p => commit (Swap.maybeInitializeV3 cfg env) p
  | adjustProtocolLiquidity taoDelta alphaDelta, p => p.adjustProtocolLiquidity cfg taoDelta alphaDelta
  | doAddLiquidity balances coldkey hotkey tickLow tickHigh liquidity, p =>
      commit (Swap.doAddLiquidity cfg balances coldkey hotkey tickLow tickHigh liquidity) p
  | doRemoveLiquidity coldkey positionId, p => commit (Swap.doRemoveLiquidity coldkey positionId) p
  | doModifyPosition balances coldkey hotkey positionId liquidityDelta, p =>
      commit (Swap.doModifyPosition cfg balances coldkey hotkey positionId liquidityDelta) p
  | doSwap env side amount limitSqrtPrice dropFees, p =>
      commitSwap (Swap.doSwap cfg env side amount limitSqrtPrice dropFees false p) p

/-- What an operation adds to the liquidity of the positions. -/
def adds (cfg : Config A) : Op A → Pool A → Nat
  | adjustProtocolLiquidity taoDelta alphaDelta, p => p.protocolGrowth cfg taoDelta alphaDelta
  | doAddLiquidity _ _ _ _ _ liquidity, _ => liquidity
  | doModifyPosition _ _ _ _ liquidityDelta, _ => liquidityDelta.toNat
  | _, _ => 0

/-- What the ticks need to stay exact. Only one operation has a condition. -/
def Regular (cfg : Config A) : Op A → Pool A → Prop
  | adjustProtocolLiquidity taoDelta alphaDelta, p => p.Growing cfg taoDelta alphaDelta
  | _, _ => True
end Op

/-- The pools that runs of regular operations lead to, with all sums of liquidity within `u64`. -/
inductive Reachable (cfg : Config A) (p0 : Pool A) : Pool A → Prop
  | start : Reachable cfg p0 p0
  | step {p : Pool A} (h : Reachable cfg p0 p) (op : Op A) (hregular : op.Regular cfg p)
      (hfits : sumOf Position.liquidity p.positions + op.adds cfg p < 2 ^ 64) : Reachable cfg p0 (op.apply cfg p)

theorem commit_sound {R : Type} {x : Run A R} (h : p.Sound) (hx : Returns x p (fun _ p' => p'.Sound)) :
    (commit x p).Sound := by
  unfold commit
  cases hrun : x p with
  | ok _ _ => exact (of_ends hx hrun :)
  | error _ _ => exact h

theorem sqrtProduct_lt (x y : Nat) : sqrtProduct x y < 2 ^ 64 := by
  unfold sqrtProduct
  rw [Nat.sqrt_lt]
  omega

/-- The first position of a pool, at any price. -/
theorem Pool.Sound.opened (h : p.Sound) (hnone : ∀ k, p.positions.lookup k = none) {price : SqrtPrice}
    {tick : TickIndex} {coldkey : A}
    (hadded : { p with alphaSqrtPrice := price, currentTick := tick }.Added q tickLow tickHigh liquidity)
    (hid : position.id = p.lastPositionId + 1) (hlow : position.tickLow = tickLow)
    (hhigh : position.tickHigh = tickHigh) (hliquidity : position.liquidity = liquidity)
    (hfits : liquidity < 2 ^ 64) :
    Pool.Sound { q with positions := p.positions.insert (coldkey, position.id) position } := by
  have hsum := (Held.absent (q := position) (hnone (coldkey, position.id))).sumOf_liquidity
  rw [sumOf_none hnone] at hsum
  exact Pool.Sound.added (p := { p with alphaSqrtPrice := price, currentTick := tick }) h hadded hid hlow hhigh hliquidity (by
      show sumOf Position.liquidity (p.positions.insert (coldkey, position.id) position) < 2 ^ 64
      omega)

theorem maybeInitializeV3_sound {env : Env} (h : p.Sound) :
    Returns (maybeInitializeV3 cfg env) p (fun _ p' => p'.Sound) := by
  refine maybeInitializeV3_ends.weaken ?_
  rintro _ p' (⟨-, rfl⟩ | ⟨hclosed, q, position, hadded, hid, hlow, hhigh, hliquidity, rfl⟩)
  · exact h
  · exact h.opened (h.unopened hclosed) hadded hid hlow hhigh hliquidity (sqrtProduct_lt _ _)

theorem Op.apply_sound (h : p.Sound) (op : Op A) (hregular : op.Regular cfg p)
    (hfits : sumOf Position.liquidity p.positions + op.adds cfg p < 2 ^ 64) : (op.apply cfg p).Sound := by
  cases op with
  | maybeInitializeV3 env => exact commit_sound h (maybeInitializeV3_sound h)
  | adjustProtocolLiquidity taoDelta alphaDelta => exact h.adjusted hregular hfits
  | doAddLiquidity balances coldkey hotkey tickLow tickHigh liquidity =>
    refine commit_sound h (doAddLiquidity_ends.weaken ?_)
    rintro _ _ ⟨q, position, hadded, hid, hlow, hhigh, hliquidity, rfl⟩
    refine h.added hadded hid hlow hhigh hliquidity ?_
    have hheld : Held p.positions (coldkey, position.id) position 0 := h.held_new hid
    have hsum := hheld.sumOf_liquidity
    rw [hliquidity] at hsum
    exact lt_of_eq_of_lt hsum hfits
  | doRemoveLiquidity coldkey positionId =>
    refine commit_sound h (doRemoveLiquidity_ends.weaken ?_)
    rintro _ _ ⟨position, hposition, rfl⟩
    generalize p.changedLiquidity position.tickLow position.tickHigh (-(position.liquidity : Int)) = c
    exact Pool.Sound.erased (p := { p with currentLiquidity := c }) h hposition
  | doModifyPosition balances coldkey hotkey positionId liquidityDelta =>
    refine commit_sound h (doModifyPosition_ends.weaken ?_)
    rintro _ _ ⟨position, sqrtPa, sqrtPb, hposition, -, -, henough, rfl⟩
    exact h.modified hposition henough hfits
  | doSwap env side amount limitSqrtPrice dropFees =>
    show (commitSwap (Swap.doSwap cfg env side amount limitSqrtPrice dropFees false p) p).Sound
    unfold Swap.doSwap
    cases hrun : swapInner cfg env side amount limitSqrtPrice dropFees p with
    | error _ _ => exact h
    | ok r p' =>
      obtain ⟨q, _, hq, hvisits, -⟩ := of_ends swapInner_ends hrun
      have hsound := hvisits.sound (of_ends (Q := fun _ q => q.Sound) (maybeInitializeV3_sound h) hq)
      by_cases hreserve : env.reserveOut side < r.amountPaidOut
      · simp only [hreserve, Bool.false_eq_true, if_false, if_true]
        exact h
      · simp only [hreserve, Bool.false_eq_true, if_false]
        exact hsound

/-- A pool that nothing was stored for. -/
structure Pool.Fresh (p : Pool A) : Prop where
  ticks : p.ticks = ∅
  positions : p.positions = ∅

theorem Pool.Fresh.sound (h : p.Fresh) : p.Sound := by
  unfold Pool.Sound
  rw [h.ticks, h.positions]
  refine ⟨⟨fun _ => rfl, fun _ => rfl⟩, ?_, ?_, fun _ _ => rfl, Nat.two_pow_pos 64⟩
  · intro k q hq
    cases hq
  · intro k q hq
    cases hq

/-- **The ticks are exact** after every run of regular operations: they store what the positions have at their ends. -/
theorem ticks_exact {p0 : Pool A} (hfresh : p0.Fresh) (hreach : Reachable cfg p0 p) :
    Balanced p.ticks p.positions ∧ Ordered p.positions := by
  have hsound : p.Sound := by
    induction hreach with
    | start => exact hfresh.sound
    | step _ op hregular hfits ih => exact op.apply_sound ih hregular hfits
  exact ⟨hsound.balanced, hsound.ordered⟩

namespace Sample

/-- Nothing is stored, and users may have positions. -/
def usersPool : Pool Bool := { Pool.empty with enabledUserLiquidity := true }

/-- A sale to a pool that is not initialised yet, -/
def sale : Op Bool := .doSwap balanced .sell 1000000 (.ofNat 0) false

/-- and then a position between two ticks around the price. -/
def narrow : Op Bool := .doAddLiquidity ⟨fun _ => 1000000000, fun _ _ => 1000000000⟩ true true (-1000) 1000 5000000
end Sample
open Sample

theorem ticks_exact_sale : let p := narrow.apply config (sale.apply config usersPool)
    p.positions.entries.length = 2 ∧ Balanced p.ticks p.positions := by
  have hreach : Reachable config usersPool (narrow.apply config (sale.apply config usersPool)) :=
    .step (.step .start sale trivial (by decide)) narrow trivial (by decide +kernel)
  exact ⟨by decide +kernel, (ticks_exact ⟨rfl, rfl⟩ hreach).1⟩
end Qubitum.Swap
