import Qubitum.Swap.Engine

/-!
# `Swap.Effects` — what one step of a swap has written, and invariants of the loop

`Step.Processed` says everything a step does to the pool and what it reports. What holds before a swap and is
kept by every step holds when the loop returns (`swapLoop_ends`); `Visits` are the points the loop goes through.
-/

namespace Qubitum.Swap
open Fixed Outcome Mutation
open Qubitum.Subtensor (SwapResult)

variable {A : Type} {cfg : Config A} {env : Env} {p p' : Pool A} {t : Step}
  {side : Side} {limitSqrtPrice : SqrtPrice} {dropFees : Bool}

/-! ## Adding a position -/

/-- `q` is the pool after liquidity was added between two ticks, before the position is stored. -/
structure Pool.Added (p q : Pool A) (tickLow tickHigh : TickIndex) (liquidity : Nat) : Prop where
  pool : q = { p with
    ticks := (p.addLiquidityAtEnds tickLow tickHigh liquidity).ticks
    tickIndexBitmapWords := q.tickIndexBitmapWords
    alphaSqrtPrice := p.clampedSqrtPrice p.currentBounded
    currentLiquidity := p.changedLiquidity tickLow tickHigh liquidity
    lastPositionId := p.lastPositionId + 1
    swapV3Initialized := true }
  range : tickLow < tickHigh

theorem addLiquidityNotInsert_ends [DecidableEq A] {coldkey : A} {tickLow tickHigh : TickIndex} {liquidity : Nat} :
    Returns (addLiquidityNotInsert cfg coldkey tickLow tickHigh liquidity) p
      (fun r q => p.Added q tickLow tickHigh liquidity ∧
        r.1.id = p.lastPositionId + 1 ∧ r.1.tickLow = tickLow ∧ r.1.tickHigh = tickHigh ∧
        r.1.liquidity = liquidity) := by
  unfold addLiquidityNotInsert
  simp only [ends_bind, ends_get, ends_modify, ends_lift_ensure]
  refine ⟨fun _ => ⟨fun hrange => ?_, fun _ => trivial⟩, fun _ => trivial⟩
  simp only [ends_lift, ends_pure]
  exact ⟨fun _ _ => ⟨⟨rfl, hrange⟩, rfl, rfl, rfl, rfl⟩, fun _ _ => trivial⟩

theorem maybeInitializeV3_ends [DecidableEq A] : Returns (maybeInitializeV3 cfg env) p
      (fun _ q => (p.swapV3Initialized = true ∧ q = p) ∨
        (p.swapV3Initialized = false ∧ ∃ q0 position,
          { p with
            alphaSqrtPrice := initialSqrtPrice env
            currentTick := TickIndex.fromSqrtPriceBounded (initialSqrtPrice env) }.Added q0 TickIndex.min TickIndex.max
              (sqrtProduct env.taoReserve env.alphaReserve) ∧
          position.id = p.lastPositionId + 1 ∧ position.tickLow = TickIndex.min ∧
          position.tickHigh = TickIndex.max ∧ position.liquidity = sqrtProduct env.taoReserve env.alphaReserve ∧
          q = { q0 with positions := p.positions.insert (cfg.protocolAccountId, position.id) position })) := by
  unfold maybeInitializeV3
  simp only [ends_bind, ends_get, ends_ite, ends_pure, ends_modify]
  refine ⟨fun hinit => .inl ⟨hinit, trivial⟩, fun hnot => ?_⟩
  refine addLiquidityNotInsert_ends.weaken ?_
  rintro ⟨position, amounts⟩ q0 ⟨hadded, hposition⟩
  refine .inr ⟨Bool.eq_false_iff.mpr hnot, q0, position, hadded, hposition.1, hposition.2.1, hposition.2.2.1,
    hposition.2.2.2, ?_⟩
  rw [show p.positions = q0.positions from (congrArg Pool.positions hadded.pool).symm]

/-! ## One step -/

/-- What a step reports. -/
def Step.report (t : Step) (p : Pool A) : StepResult where
  amountToTake := satAdd t.deltaIn t.fee
  feePaid := t.fee
  deltaIn := t.deltaIn
  deltaOut := t.side.convertDeltas (.ofNat p.currentLiquidity) p.alphaSqrtPrice t.deltaIn
  feeToBlockAuthor := if 0 < t.deltaIn then t.fee - t.lpFee else 0

/-- `p'` is the pool after the step `t`. -/
structure Step.Processed (t : Step) (p p' : Pool A) : Prop where
  pool : p' = { p with
    alphaSqrtPrice := t.finalPrice
    currentTick := TickIndex.fromSqrtPriceBounded t.finalPrice
    currentLiquidity := p'.currentLiquidity
    ticks := p'.ticks
    feeGlobalTao := p'.feeGlobalTao
    feeGlobalAlpha := p'.feeGlobalAlpha }
  gave : 0 < t.deltaIn → 0 < (t.report p).deltaOut
  stopped : t.action = .stop → p'.currentLiquidity = p.currentLiquidity ∧ p'.ticks = p.ticks
  crossed : t.action = .crossing → ∃ tick, p.ticks.lookup (p.crossedTick t.side) = some tick ∧
    p'.currentLiquidity = p.liquidityAcross t.side tick ∧
    ∃ feesOutTao feesOutAlpha, p'.ticks =
      p.ticks.insert t.edgeTick { (p.ticks.lookup t.edgeTick).getD default with feesOutTao, feesOutAlpha }

/-- Holding fees back does not touch anything else. -/
theorem Step.holdFees_eq (cfg : Config A) (t : Step) (p : Pool A) :
    ∃ feeGlobalTao feeGlobalAlpha, t.holdFees cfg p = { p with feeGlobalTao, feeGlobalAlpha } := by
  unfold Step.holdFees Pool.addFees
  split_ifs
  · exact ⟨_, _, rfl⟩
  · cases t.side with
    | buy => exact ⟨_, _, rfl⟩
    | sell => exact ⟨_, _, rfl⟩
  · exact ⟨_, _, rfl⟩

theorem Step.processSwap_ends : Returns (t.processSwap cfg) p (fun r p' => r = t.report p ∧ t.Processed p p') := by
  unfold Step.processSwap Step.cross
  simp only [ends_bind, ends_get, ends_modify, ends_lift_ensure, ends_ite, ends_set, ends_pure, ends_lift_okOr,
    implies_true, and_true]
  intro hgave
  obtain ⟨feeTao, feeAlpha, hfees⟩ := t.holdFees_eq cfg p
  rw [hfees]
  refine ⟨fun haction tick htick => ?_, fun haction => ?_⟩
  · exact ⟨rfl, rfl, hgave, fun hstop => absurd (haction.symm.trans hstop) (by decide),
      fun _ => ⟨tick, htick, rfl, _, _, rfl⟩⟩
  · exact ⟨rfl, rfl, hgave, fun _ => ⟨rfl, rfl⟩, fun hcross => absurd hcross haction⟩

/-! ## The loop -/

/-- The step that the loop takes from a pool. -/
def Pool.nextStep (p : Pool A) (env : Env) (side : Side) (limitSqrtPrice : SqrtPrice) (dropFees : Bool)
    (amountRemaining : Nat) : Step :=
  (Step.new p env.mechanism side amountRemaining limitSqrtPrice dropFees).determineAction p

theorem swapPass_ends {acc : Progress} : Returns (swapPass cfg env side limitSqrtPrice dropFees acc) p
      (fun acc' p' =>
        let step := p.nextStep env side limitSqrtPrice dropFees acc.amountRemaining
        acc' = acc.add (step.report p) step.action ∧ step.Processed p p') := by
  unfold swapPass
  simp only [ends_bind, ends_get, ends_pure]
  refine Step.processSwap_ends.weaken ?_
  rintro r p' ⟨rfl, hp'⟩
  exact ⟨rfl, hp'⟩

/-- **Invariants of the loop**: what every step keeps holds when the loop returns. -/
theorem swapLoop_ends {I : Pool A → Progress → Prop}
    (hstep : ∀ p acc p', I p acc → acc.amountRemaining ≠ 0 →
      let step := p.nextStep env side limitSqrtPrice dropFees acc.amountRemaining
      step.Processed p p' → I p' (acc.add (step.report p) step.action)) :
    ∀ {left : Nat} {acc : Progress} {p : Pool A}, I p acc →
      Returns (swapLoop cfg env side limitSqrtPrice dropFees left acc) p
        (fun acc' p' => I p' acc' ∧ acc'.amountRemaining = 0) := by
  intro left
  induction left with
  | zero =>
    intro acc p h
    unfold swapLoop
    simp only [ends_ite, ends_pure, ends_bind, ends_throw]
    refine ⟨fun hdone => ⟨h, hdone⟩, fun _ => ?_⟩
    exact swapPass_ends.mono (fun _ _ _ => trivial) fun _ _ _ => trivial
  | succ left ih =>
    intro acc p h
    unfold swapLoop
    simp only [ends_ite, ends_pure, ends_bind]
    refine ⟨fun hdone => ⟨h, hdone⟩, fun hmore => ?_⟩
    refine swapPass_ends.weaken ?_
    rintro acc' p' ⟨rfl, hp'⟩
    exact ih (hstep p acc p' h hmore hp')

/-- The pools and the progress that a swap from `p` goes through, before each of its steps and at its end. -/
inductive Visits (env : Env) (side : Side) (limitSqrtPrice : SqrtPrice) (dropFees : Bool) (p : Pool A)
    (acc : Progress) : Pool A → Progress → Prop
  | start : Visits env side limitSqrtPrice dropFees p acc p acc
  | step {q q' : Pool A} {acc' : Progress} (h : Visits env side limitSqrtPrice dropFees p acc q acc')
      (hmore : acc'.amountRemaining ≠ 0)
      (hstep : (q.nextStep env side limitSqrtPrice dropFees acc'.amountRemaining).Processed q q') :
      Visits env side limitSqrtPrice dropFees p acc q'
        (acc'.add ((q.nextStep env side limitSqrtPrice dropFees acc'.amountRemaining).report q)
          (q.nextStep env side limitSqrtPrice dropFees acc'.amountRemaining).action)

/-- **Swaps**: a swap that succeeds ends at a point it visits, with nothing remaining. -/
theorem swapInner_ends [DecidableEq A] {amount : Nat} :
    Returns (swapInner cfg env side amount limitSqrtPrice dropFees) p
      (fun r p' => ∃ q acc, maybeInitializeV3 cfg env p = .ok () q ∧
        Visits env side limitSqrtPrice dropFees q ⟨amount, 0, 0, 0, 0⟩ p' acc ∧ acc.amountRemaining = 0 ∧
        r = ⟨acc.inAcc, acc.amountPaidOut, acc.feeAcc, acc.feeToBlockAuthorAcc⟩) := by
  unfold swapInner
  simp only [ends_bind, ends_get, ends_lift_ensure, ends_pure, implies_true, and_true]
  intro _
  refine maybeInitializeV3_ends.weaken_of_run ?_
  intro _ q hq _ _
  refine (swapLoop_ends (I := Visits env side limitSqrtPrice dropFees q ⟨amount, 0, 0, 0, 0⟩)
    (fun _ _ _ hvisit hmore hstep => hvisit.step hmore hstep) .start).weaken ?_
  rintro acc p' ⟨hvisit, hdone⟩
  exact ⟨q, acc, hq, hvisit, hdone, rfl⟩
end Qubitum.Swap
