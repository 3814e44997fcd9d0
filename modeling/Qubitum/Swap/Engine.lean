import Qubitum.Swap.Liquidity

/-!
# `Swap.Engine` — swaps, one price range at a time

`BasicSwapStep` moves the price from where it is to the first of three prices: the one at which the rest of the
order is filled, the limit, and the next active tick. The two implementations of `SwapStep`, for buying alpha and
for selling it, are functions of `Side`. `swap_inner` repeats the step, and `do_swap` wraps it in a transaction.
-/

namespace Qubitum.Swap
open Fixed Outcome Mutation
open Qubitum.Subtensor (Order SwapResult)

variable {A : Type}

/-! ## The two directions -/

/-- `GetAlphaForTao` or `GetTaoForAlpha` -/
inductive Side where
  | buy
  | sell
  deriving DecidableEq, Repr

/-- `SwapStepAction` -/
inductive SwapStepAction where
  | crossing
  | stop
  deriving DecidableEq, Repr

/-- `max_price_inner` -/
def maxPrice : Nat :=
  -- the square is far out of range, and rounding does not change it
  ((TickIndex.maxSqrtPrice.saturatingMul TickIndex.maxSqrtPrice).saturatingMul (.ofNat 1000000000)).toU64

/-- `min_price_inner` -/
def minPrice : Nat :=
  ((TickIndex.minSqrtPrice.saturatingMul TickIndex.minSqrtPrice).saturatingMul (.ofNat 1000000000)).toU64

namespace Side

/-- The input needed to reach a price. -/
def deltaIn (side : Side) (liquidity : U64F64) (current target : SqrtPrice) : Nat :=
  match side with
  | buy  => (liquidity.saturatingMul (target.saturatingSub current)).toU64
  | sell =>
      let one : U64F64 := .ofNat 1
      (liquidity.saturatingMul ((one.safeDiv target).saturatingSub (one.safeDiv current))).toU64

/-- The next active tick in the direction of the trade. -/
def tickEdge (side : Side) (w : BitmapWords) (price : SqrtPrice) (tick : TickIndex) : TickIndex :=
  match side with
  | buy  => (w.findClosestHigher (tick.next.getD TickIndex.max)).getD TickIndex.max
  | sell =>
      if w.tickIsActive tick ∧ tick.asSqrtPriceBounded < price then (w.findClosestLower tick).getD TickIndex.min
      else (w.findClosestLower (tick.prev.getD TickIndex.min)).getD TickIndex.min

/-- The price at which all of the input is exchanged. -/
def sqrtPriceTarget (side : Side) (liquidity : U64F64) (current : SqrtPrice) (delta : Nat) : SqrtPrice :=
  match side with
  | buy  =>
      if liquidity.bits = 0 then .ofNat maxPrice
      else ((UFixed.ofNat delta).safeDiv liquidity).saturatingAdd current
  | sell =>
      if liquidity.bits = 0 then .ofNat minPrice
      else
        let one : U64F64 := .ofNat 1
        one.safeDiv (((UFixed.ofNat delta).safeDiv liquidity).saturatingAdd (one.safeDiv current))

/-- `price_is_closer` -/
def closer (side : Side) (price1 price2 : SqrtPrice) : Prop :=
  match side with
  | buy  => price1 ≤ price2
  | sell => price2 ≤ price1

instance (side : Side) (price1 price2 : SqrtPrice) : Decidable (side.closer price1 price2) := by
  cases side <;> exact inferInstanceAs (Decidable (_ ≤ _))

def actionOnEdgeSqrtPrice : Side → SwapStepAction
  | buy  => .crossing
  | sell => .stop

/-- The output for an input within one price range. -/
def convertDeltas (side : Side) (liquidity : U64F64) (current : SqrtPrice) (delta : Nat) : Nat :=
  if delta = 0 then 0
  else
    let deltaFixed : U64F64 := .ofNat delta
    match side with
    | buy  =>
        let a := ((liquidity.saturatingMul current).saturatingAdd deltaFixed).saturatingMul current
        ((liquidity.safeDiv a).saturatingMul deltaFixed).toU64
    | sell =>
        let denom := (liquidity.safeDiv current).saturatingAdd deltaFixed
        (deltaFixed.saturatingMul ((liquidity.safeDiv denom).saturatingMul current)).toU64

/-- `is_beyond_price_limit` -/
def isBeyondPriceLimit (side : Side) (price limit : SqrtPrice) : Prop :=
  match side with
  | buy  => price < limit
  | sell => limit < price

instance (side : Side) (price limit : SqrtPrice) : Decidable (side.isBeyondPriceLimit price limit) := by
  cases side <;> exact inferInstanceAs (Decidable (_ < _))
end Side

/-! ## One step -/

namespace Pool

/-- `calculate_fee_amount` -/
def calculateFeeAmount (p : Pool A) (mechanism : UInt16) (amount : Nat) (dropFees : Bool) : Nat :=
  if dropFees then 0
  else if mechanism = 1 then
    ((UFixed.ofNat amount).saturatingMul ((UFixed.ofNat p.feeRate.toNat : U64F64).safeDiv (UFixed.ofNat 65535))).toU64
  else 0

/-- The fee on top of an input: what it is less the fee. -/
def feeOnTop (p : Pool A) (amount : Nat) (dropFees : Bool) : Nat :=
  let feeRate : U64F64 := if dropFees then .ofNat 0 else .ofNat p.feeRate.toNat
  ((UFixed.ofNat amount).saturatingMul (feeRate.safeDiv ((UFixed.ofNat 65535).saturatingSub feeRate))).toU64

/-- `add_fees` -/
def addFees (p : Pool A) (side : Side) (liquidity : U64F64) (fee : Nat) : Pool A :=
  if liquidity.bits = 0 then p
  else
    let share := (UFixed.ofNat fee).safeDiv liquidity
    match side with
    | .buy  => { p with feeGlobalTao := p.feeGlobalTao.saturatingAdd share }
    | .sell => { p with feeGlobalAlpha := p.feeGlobalAlpha.saturatingAdd share }

/-- The tick that `update_liquidity_at_crossing` reads: found again, from the bounded current tick. -/
def crossedTick (p : Pool A) (side : Side) : TickIndex :=
  side.tickEdge p.tickIndexBitmapWords p.alphaSqrtPrice p.currentBounded

/-- The current liquidity on the other side of a tick. -/
def liquidityAcross (p : Pool A) (side : Side) (tick : Tick) : Nat :=
  if 0 ≤ tick.liquidityNet ↔ side = .buy then satAdd p.currentLiquidity tick.liquidityNetAsU64
  else p.currentLiquidity - tick.liquidityNetAsU64
end Pool

/-- `BasicSwapStep` -/
structure Step where
  side : Side
  dropFees : Bool
  currentLiquidity : U64F64
  possibleDeltaIn : Nat
  targetSqrtPrice : SqrtPrice
  limitSqrtPrice : SqrtPrice
  currentSqrtPrice : SqrtPrice
  edgeSqrtPrice : SqrtPrice
  edgeTick : TickIndex
  action : SwapStepAction
  deltaIn : Nat
  finalPrice : SqrtPrice
  fee : Nat

/-- `SwapStepResult` -/
structure StepResult where
  amountToTake : Nat
  feePaid : Nat
  deltaIn : Nat
  deltaOut : Nat
  feeToBlockAuthor : Nat
  deriving DecidableEq, Repr

namespace Step

def new (p : Pool A) (mechanism : UInt16) (side : Side) (amountRemaining : Nat) (limitSqrtPrice : SqrtPrice)
    (dropFees : Bool) : Step :=
  let edgeTick := side.tickEdge p.tickIndexBitmapWords p.alphaSqrtPrice p.currentTick
  let fee := p.calculateFeeAmount mechanism amountRemaining dropFees
  let target := side.sqrtPriceTarget (.ofNat p.currentLiquidity) p.alphaSqrtPrice (amountRemaining - fee)
  { side, dropFees, limitSqrtPrice, edgeTick, fee
    currentLiquidity := .ofNat p.currentLiquidity
    possibleDeltaIn := amountRemaining - fee
    targetSqrtPrice := target
    currentSqrtPrice := p.alphaSqrtPrice
    edgeSqrtPrice := edgeTick.asSqrtPriceBounded
    action := .stop
    deltaIn := 0
    finalPrice := target }

/-- The step to the price where the order ends, the limit or the edge is reached. -/
def choose (t : Step) (p : Pool A) : Step :=
  let reach (price : SqrtPrice) : Step :=
    let deltaIn := t.side.deltaIn t.currentLiquidity t.currentSqrtPrice price
    -- the fee was calculated for all of the amount
    { t with deltaIn, finalPrice := price, fee := p.feeOnTop deltaIn t.dropFees }
  if t.side.closer t.targetSqrtPrice t.limitSqrtPrice ∧ t.side.closer t.targetSqrtPrice t.edgeSqrtPrice then
    { t with action := .stop, finalPrice := t.targetSqrtPrice, deltaIn := t.possibleDeltaIn }
  else if t.side.closer t.limitSqrtPrice t.targetSqrtPrice ∧ t.side.closer t.limitSqrtPrice t.edgeSqrtPrice then
    { reach t.limitSqrtPrice with action := .stop }
  else { reach t.edgeSqrtPrice with action := .crossing }

/-- Where the step would stop if there were no edge. -/
def naturalReasonStopPrice (t : Step) : SqrtPrice :=
  if t.side.closer t.limitSqrtPrice t.targetSqrtPrice then t.limitSqrtPrice else t.targetSqrtPrice

/-- `determine_action`: the tick belongs to the range above it, so that exactly at the edge a purchase crosses
    and a sale stops. -/
def determineAction (t : Step) (p : Pool A) : Step :=
  let chosen := t.choose p
  if t.naturalReasonStopPrice = t.edgeSqrtPrice then { chosen with action := t.side.actionOnEdgeSqrtPrice }
  else chosen

/-- `DefaultFeeSplit`, in parts of a billion: the pool keeps nothing. -/
def feeSplit : Nat := 0

/-- The pool's part of the fee. -/
def lpFee (t : Step) : Nat := t.fee * feeSplit / 1000000000

variable [DecidableEq A] (cfg : Config A)

/-- What crossing a tick writes. -/
def cross (t : Step) : Run A Unit := do
  let p ← get
  let tick := (p.ticks.lookup t.edgeTick).getD default
  let crossed ← lift (okOr (p.ticks.lookup (p.crossedTick t.side)) .insufficientLiquidity)
  set { p with
    currentLiquidity := p.liquidityAcross t.side crossed
    ticks := p.ticks.insert t.edgeTick { tick with
      feesOutTao := (p.feeGlobal true).saturatingSub tick.feesOutTao
      feesOutAlpha := (p.feeGlobal false).saturatingSub tick.feesOutAlpha } }

/-- The pool's part of the fee is held back, relative to the current liquidity less the minimum. -/
def holdFees (t : Step) (p : Pool A) : Pool A :=
  if 0 < t.deltaIn ∧ t.lpFee ≠ 0 then
    p.addFees t.side (.ofNat (p.currentLiquidity - cfg.minimumLiquidity)) t.lpFee
  else p

def processSwap (t : Step) : Run A StepResult := do
  let p ← get
  let deltaOut := t.side.convertDeltas (.ofNat p.currentLiquidity) p.alphaSqrtPrice t.deltaIn
  lift (ensure (0 < t.deltaIn → 0 < deltaOut) .reservesTooLow)
  modify (t.holdFees cfg)
  if t.action = .crossing then t.cross
  modify fun p => { p with
    alphaSqrtPrice := t.finalPrice
    currentTick := TickIndex.fromSqrtPriceBounded t.finalPrice }
  return {
    amountToTake := satAdd t.deltaIn t.fee
    feePaid := t.fee
    deltaIn := t.deltaIn
    deltaOut := deltaOut
    feeToBlockAuthor := if 0 < t.deltaIn then t.fee - t.lpFee else 0 }
end Step

/-! ## Swaps -/

/-- What a swap has done so far. -/
structure Progress where
  amountRemaining : Nat
  amountPaidOut : Nat
  inAcc : Nat
  feeAcc : Nat
  feeToBlockAuthorAcc : Nat
  deriving DecidableEq, Repr

/-- What a step adds, and what remains after it: nothing if the step is the last one or took nothing. -/
def Progress.add (acc : Progress) (r : StepResult) (action : SwapStepAction) : Progress where
  amountRemaining := if action = .stop ∨ r.amountToTake = 0 then 0 else acc.amountRemaining - r.amountToTake
  amountPaidOut := satAdd acc.amountPaidOut r.deltaOut
  inAcc := satAdd acc.inAcc r.deltaIn
  feeAcc := satAdd acc.feeAcc r.feePaid
  feeToBlockAuthorAcc := satAdd acc.feeToBlockAuthorAcc r.feeToBlockAuthor

variable [DecidableEq A] (cfg : Config A) (env : Env)

/-- One step of the loop of `swap_inner`. -/
def swapPass (side : Side) (limitSqrtPrice : SqrtPrice) (dropFees : Bool) (acc : Progress) : Run A Progress := do
  let p ← get
  let step := (Step.new p env.mechanism side acc.amountRemaining limitSqrtPrice dropFees).determineAction p
  let r ← step.processSwap cfg
  return acc.add r step.action

/-- The loop of `swap_inner`, with the number of steps that are still allowed. The step that is one too many is
    taken before it is counted. -/
def swapLoop (side : Side) (limitSqrtPrice : SqrtPrice) (dropFees : Bool) : Nat → Progress → Run A Progress
  | 0, acc => do
      if acc.amountRemaining = 0 then return acc
      let _ ← swapPass cfg env side limitSqrtPrice dropFees acc
      throw .tooManySwapSteps
  | left + 1, acc => do
      if acc.amountRemaining = 0 then return acc
      let acc ← swapPass cfg env side limitSqrtPrice dropFees acc
      swapLoop side limitSqrtPrice dropFees left acc

/-- `MAX_SWAP_ITERATIONS` -/
def maxSwapIterations : Nat := 1000

/-- The reserve of the token that is paid out. -/
def Env.reserveOut (env : Env) : Side → Nat
  | .buy  => env.alphaReserve
  | .sell => env.taoReserve

def swapInner (side : Side) (amount : Nat) (limitSqrtPrice : SqrtPrice) (dropFees : Bool) : Run A SwapResult := do
  lift (ensure (cfg.minimumReserve ≤ env.reserveOut side) .reservesTooLow)
  maybeInitializeV3 cfg env
  lift (ensure (side.isBeyondPriceLimit (← get).alphaSqrtPrice limitSqrtPrice) .priceLimitExceeded)
  let acc ← swapLoop cfg env side limitSqrtPrice dropFees maxSwapIterations ⟨amount, 0, 0, 0, 0⟩
  return {
    amountPaidIn := acc.inAcc
    amountPaidOut := acc.amountPaidOut
    feePaid := acc.feeAcc
    feeToBlockAuthor := acc.feeToBlockAuthorAcc }

/-- `do_swap`: the transaction is rolled back if the swap is simulated or fails, but it is committed when the
    output exceeds the reserve, with an error. -/
def doSwap (side : Side) (amount : Nat) (limitSqrtPrice : SqrtPrice) (dropFees simulate : Bool) (p : Pool A) :
    Except Error SwapResult × Pool A :=
  match swapInner cfg env side amount limitSqrtPrice dropFees p with
  | .error e _ => (.error e, p)
  | .ok r p'   =>
      if simulate then (.ok r, p)
      else if env.reserveOut side < r.amountPaidOut then (.error .insufficientLiquidity, p')
      else (.ok r, p')
end Qubitum.Swap
