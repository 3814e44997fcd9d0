import Qubitum.Swap.State

/-!
# `Swap.Liquidity` — positions, the liquidity at ticks and the protocol's own position

`maybe_initialize_v3`, `adjust_protocol_liquidity` and the three functions that add, remove and modify a position.
-/

namespace Qubitum.Swap
open Fixed Outcome Mutation

variable {A : Type}

/-! ## Ticks -/

namespace Pool
variable (p : Pool A)

/-- What a position with this end at a tick adds to its net liquidity. -/
def netChange (liquidity : Nat) (upper : Bool) : Int := if upper then -(liquidity : Int) else liquidity

@[simp] theorem netChange_lower (liquidity : Nat) : netChange liquidity false = liquidity := rfl

@[simp] theorem netChange_upper (liquidity : Nat) : netChange liquidity true = -(liquidity : Int) := rfl

section
variable (tick : TickIndex) (liquidity : Nat) (upper : Bool)

/-- The tick that is stored when the first position has an end there. -/
def newTick : Tick where
  liquidityNet := netChange liquidity upper
  liquidityGross := liquidity
  feesOutTao := if p.currentBounded < tick then p.feeGlobal true else .ofNat 0
  feesOutAlpha := if p.currentBounded < tick then p.feeGlobal false else .ofNat 0

def addLiquidityAtIndex : Pool A :=
  let t := match p.ticks.lookup tick with
    | some t => { t with
        liquidityNet := t.liquidityNet + netChange liquidity upper
        liquidityGross := satAdd t.liquidityGross liquidity }
    | none => p.newTick tick liquidity upper
  { p with
    ticks := p.ticks.insert tick t
    tickIndexBitmapWords := p.tickIndexBitmapWords.insert tick }

def removeLiquidityAtIndex : Pool A :=
  match p.ticks.lookup tick with
  | none => p
  | some t =>
      if t.liquidityGross - liquidity = 0 then
        { p with
          ticks := p.ticks.erase tick
          tickIndexBitmapWords := p.tickIndexBitmapWords.remove tick }
      else
        { p with
          ticks := p.ticks.insert tick { t with
            liquidityNet := t.liquidityNet - netChange liquidity upper
            liquidityGross := t.liquidityGross - liquidity } }
end

/-- Liquidity is added at both ends of a position. -/
def addLiquidityAtEnds (tickLow tickHigh : TickIndex) (liquidity : Nat) : Pool A :=
  (p.addLiquidityAtIndex tickLow liquidity false).addLiquidityAtIndex tickHigh liquidity true

/-- Liquidity is removed at both ends of a position. -/
def removeLiquidityAtEnds (tickLow tickHigh : TickIndex) (liquidity : Nat) : Pool A :=
  (p.removeLiquidityAtIndex tickLow liquidity false).removeLiquidityAtIndex tickHigh liquidity true

/-- Whether a position is in range at the current tick. -/
def inRange (tickLow tickHigh : TickIndex) : Prop := tickLow ≤ p.currentBounded ∧ p.currentBounded < tickHigh

instance (p : Pool A) (tickLow tickHigh : TickIndex) : Decidable (p.inRange tickLow tickHigh) :=
  inferInstanceAs (Decidable (_ ∧ _))

/-- The current liquidity after a signed change in a range. -/
def changedLiquidity (tickLow tickHigh : TickIndex) (liquidity : Int) : Nat :=
  if p.inRange tickLow tickHigh then
    let change := min liquidity.natAbs (2 ^ 64 - 1)
    if liquidity < 0 then p.currentLiquidity - change else satAdd p.currentLiquidity change
  else p.currentLiquidity

def updateLiquidityIfNeeded (tickLow tickHigh : TickIndex) (liquidity : Int) : Pool A :=
  { p with currentLiquidity := p.changedLiquidity tickLow tickHigh liquidity }

/-- The price for a tick: the ends of the range have prices of their own. -/
def clampedSqrtPrice (tick : TickIndex) : SqrtPrice :=
  if TickIndex.max ≤ tick ∨ tick ≤ TickIndex.min then tick.asSqrtPriceBounded else p.alphaSqrtPrice

def clampSqrtPrice (tick : TickIndex) : Pool A := { p with alphaSqrtPrice := p.clampedSqrtPrice tick }
end Pool

variable [DecidableEq A] (cfg : Config A)

/-! ## Positions -/

/-- The position, which is not stored yet, and its TAO and alpha. -/
def addLiquidityNotInsert (coldkey : A) (tickLow tickHigh : TickIndex) (liquidity : Nat) :
    Run A (Position × Nat × Nat) := do
  lift (ensure ((← get).countPositions coldkey < cfg.maxPositions) .maxPositionsExceeded)
  lift (ensure (tickLow < tickHigh) .invalidTickRange)
  modify fun p =>
    let p := p.addLiquidityAtEnds tickLow tickHigh liquidity
    let p := p.clampSqrtPrice p.currentBounded
    let p := p.updateLiquidityIfNeeded tickLow tickHigh liquidity
    { p with lastPositionId := p.lastPositionId + 1 }
  let p ← get
  let position := Position.new p p.lastPositionId tickLow tickHigh liquidity
  let (tao, alpha) ← lift (position.toTokenAmounts p.alphaSqrtPrice)
  modify fun p => { p with swapV3Initialized := true }
  return (position, tao, alpha)

def doAddLiquidity (balances : Balances A) (coldkey hotkey : A) (tickLow tickHigh : TickIndex) (liquidity : Nat) :
    Run A (PositionId × Nat × Nat) := do
  lift (ensure ((← get).enabledUserLiquidity) .userLiquidityDisabled)
  let (position, tao, alpha) ← addLiquidityNotInsert cfg coldkey tickLow tickHigh liquidity
  lift (ensure (tao ≤ balances.tao coldkey ∧ alpha ≤ balances.alpha coldkey hotkey) .insufficientBalance)
  lift (ensure (cfg.minimumLiquidity ≤ liquidity) .invalidLiquidityValue)
  modify fun p => { p with positions := p.positions.insert (coldkey, position.id) position }
  return (position.id, tao, alpha)

/-- `RemoveLiquidityResult` -/
structure RemoveLiquidityResult where
  tao : Nat
  alpha : Nat
  feeTao : Nat
  feeAlpha : Nat
  tickLow : TickIndex
  tickHigh : TickIndex
  liquidity : Nat

def doRemoveLiquidity (coldkey : A) (positionId : PositionId) : Run A RemoveLiquidityResult := do
  let p ← get
  let position ← lift (okOr (p.positions.lookup (coldkey, positionId)) .liquidityNotFound)
  let (position, feeTao, feeAlpha) := position.collectFees p
  let (tao, alpha) ← lift (position.toTokenAmounts p.alphaSqrtPrice)
  modify fun p =>
    let p := p.removeLiquidityAtEnds position.tickLow position.tickHigh position.liquidity
    let p := p.updateLiquidityIfNeeded position.tickLow position.tickHigh (-position.liquidity)
    { p with positions := p.positions.erase (coldkey, positionId) }
  return {
    tao, alpha, feeTao, feeAlpha
    tickLow := position.tickLow
    tickHigh := position.tickHigh
    liquidity := position.liquidity }

/-- `UpdateLiquidityResult` -/
structure UpdateLiquidityResult where
  tao : Nat
  alpha : Nat
  feeTao : Nat
  feeAlpha : Nat
  removed : Bool
  tickLow : TickIndex
  tickHigh : TickIndex

/-- The price that the tokens of a change are counted at: the current one, or the end of the position's range
    that is closest to it. -/
def sqrtPriceBox (current low high : SqrtPrice) : SqrtPrice :=
  if current < low then low else if high < current then high else current

/-- Whether a position is in range at the current price. -/
def Pool.pricedIn (p : Pool A) (sqrtPa sqrtPb : SqrtPrice) : Prop :=
  ¬ p.alphaSqrtPrice < sqrtPa ∧ ¬ sqrtPb < p.alphaSqrtPrice

instance (p : Pool A) (sqrtPa sqrtPb : SqrtPrice) : Decidable (p.pricedIn sqrtPa sqrtPb) :=
  inferInstanceAs (Decidable (_ ∧ _))

/-- The current liquidity when a position is modified: here the price decides whether it is in range. -/
def Pool.modifiedLiquidity (p : Pool A) (sqrtPa sqrtPb : SqrtPrice) (liquidityDelta : Int) : Nat :=
  if p.pricedIn sqrtPa sqrtPb then
    if 0 < liquidityDelta then satAdd p.currentLiquidity liquidityDelta.natAbs
    else p.currentLiquidity - liquidityDelta.natAbs
  else p.currentLiquidity

/-- A rest below the minimum is removed with what is taken. -/
def Config.eliminates (cfg : Config A) (position : Position) (liquidityDelta : Int) : Prop :=
  liquidityDelta < 0 ∧ position.liquidity - liquidityDelta.natAbs < cfg.minimumLiquidity

instance (cfg : Config A) (position : Position) (liquidityDelta : Int) :
    Decidable (cfg.eliminates position liquidityDelta) := inferInstanceAs (Decidable (_ ∧ _))

/-- The modified position, with its fees collected, and the liquidity at its ends. -/
def Pool.writePosition (p : Pool A) (coldkey : A) (positionId : PositionId) (position : Position)
    (liquidityDelta : Int) : Pool A :=
  let delta := liquidityDelta.natAbs
  let collected := (position.collectFees p).1
  if cfg.eliminates position liquidityDelta then
    { p.removeLiquidityAtEnds position.tickLow position.tickHigh position.liquidity with
      positions := p.positions.erase (coldkey, positionId) }
  else if 0 < liquidityDelta then
    { p.addLiquidityAtEnds position.tickLow position.tickHigh delta with
      positions := p.positions.insert (coldkey, position.id)
        { collected with liquidity := satAdd position.liquidity delta } }
  else
    { p.removeLiquidityAtEnds position.tickLow position.tickHigh delta with
      positions := p.positions.insert (coldkey, position.id)
        { collected with liquidity := position.liquidity - delta } }

def doModifyPosition (balances : Balances A) (coldkey hotkey : A) (positionId : PositionId) (liquidityDelta : Int) :
    Run A UpdateLiquidityResult := do
  lift (ensure ((← get).enabledUserLiquidity) .userLiquidityDisabled)
  let position ← lift (okOr ((← get).positions.lookup (coldkey, positionId)) .liquidityNotFound)
  lift (ensure (cfg.minimumLiquidity ≤ liquidityDelta.natAbs) .invalidLiquidityValue)
  let delta := liquidityDelta.natAbs
  let sqrtPa ← lift (okOr (TickIndex.tryToSqrtPrice position.tickLow) .invalidTickRange)
  let sqrtPb ← lift (okOr (TickIndex.tryToSqrtPrice position.tickHigh) .invalidTickRange)
  let box := sqrtPriceBox (← get).alphaSqrtPrice sqrtPa sqrtPb
  modify fun p => { p with currentLiquidity := p.modifiedLiquidity sqrtPa sqrtPb liquidityDelta }
  let one : U64F64 := .ofNat 1
  let alpha := ((UFixed.ofNat delta).saturatingMul ((one.safeDiv box).saturatingSub (one.safeDiv sqrtPb))).toU64
  let tao := ((UFixed.ofNat delta).saturatingMul (box.saturatingSub sqrtPa)).toU64
  if 0 < liquidityDelta then
    lift (ensure (tao ≤ balances.tao coldkey ∧ alpha ≤ balances.alpha coldkey hotkey) .insufficientBalance)
  else
    lift (ensure (delta ≤ position.liquidity) .insufficientLiquidity)
  let (_, feeTao, feeAlpha) := position.collectFees (← get)
  modify fun p => p.writePosition cfg coldkey positionId position liquidityDelta
  return {
    tao, alpha, feeTao, feeAlpha
    removed := cfg.eliminates position liquidityDelta
    tickLow := position.tickLow
    tickHigh := position.tickHigh }

/-! ## The protocol's position -/

/-- `SqrtPrice::saturating_from_num(0.000000000001)` -/
def sqrtEpsilon : SqrtPrice := ⟨18446744, by decide⟩

/-- The square root of a product, as an integer (`helpers_128bit::sqrt`). -/
def sqrtProduct (x y : Nat) : Nat := Nat.sqrt (min (x * y) (2 ^ 128 - 1))

/-- The square root price of two reserves. -/
def initialSqrtPrice (env : Env) : SqrtPrice :=
  ((UFixed.ofNat env.taoReserve).safeDiv (UFixed.ofNat env.alphaReserve)).checkedSqrt sqrtEpsilon

def maybeInitializeV3 (env : Env) : Run A Unit := do
  if (← get).swapV3Initialized then return ()
  let price := initialSqrtPrice env
  modify fun p => { p with alphaSqrtPrice := price, currentTick := TickIndex.fromSqrtPriceBounded price }
  let liquidity := sqrtProduct env.taoReserve env.alphaReserve
  let (position, _) ← addLiquidityNotInsert cfg cfg.protocolAccountId TickIndex.min TickIndex.max liquidity
  modify fun p => { p with positions := p.positions.insert (cfg.protocolAccountId, position.id) position }

/-- Two amounts in proportion to the price, and what is left of each. -/
def getProportionalAlphaTaoAndRemainders (sqrtAlphaPrice : SqrtPrice) (amountTao amountAlpha : Nat) :
    Nat × Nat × Nat × Nat :=
  let price := sqrtAlphaPrice.saturatingMul sqrtAlphaPrice
  let taoEquivalent := ((UFixed.ofNat amountAlpha).saturatingMul price).toU64
  if taoEquivalent ≤ amountTao then (taoEquivalent, amountAlpha, amountTao - taoEquivalent, 0)
  else
    let alphaEquivalent := ((UFixed.ofNat amountTao).safeDiv price).toU64
    (amountTao, alphaEquivalent, 0, amountAlpha - alphaEquivalent)

/-- The first position of the protocol's account. -/
def Pool.protocolPosition (p : Pool A) : Option Position :=
  (p.positions.entries.find? fun e => e.1.1 = cfg.protocolAccountId).map fun e => e.2

/-- What is added to the protocol's position, its fees and what was left the last time included, and what is left. -/
def Pool.protocolDeltas (p : Pool A) (position : Position) (taoDelta alphaDelta : Nat) : Nat × Nat × Nat × Nat :=
  let (_, taoFees, alphaFees) := position.collectFees p
  getProportionalAlphaTaoAndRemainders p.alphaSqrtPrice
    (satAdd (satAdd taoDelta taoFees) p.scrapReservoirTao)
    (satAdd (satAdd alphaDelta alphaFees) p.scrapReservoirAlpha)

/-- The liquidity of the protocol's position is calculated anew from its tokens. -/
def Pool.protocolLiquidity (p : Pool A) (position : Position) (taoDelta alphaDelta : Nat) : Except Error Nat := do
  let (tao, alpha) ← position.toTokenAmounts p.alphaSqrtPrice
  let (taoDelta, alphaDelta, _) := p.protocolDeltas position taoDelta alphaDelta
  return sqrtProduct (satAdd tao taoDelta) (satAdd alpha alphaDelta)

/-- The protocol's position gets another liquidity. The current liquidity and the ticks only grow. -/
def Pool.setProtocolLiquidity (p : Pool A) (position : Position) (liquidity : Nat) : Pool A :=
  -- zero if the liquidity gets smaller
  let liquidityDelta := liquidity - position.liquidity
  let collected := (position.collectFees p).1
  let p := { p with currentLiquidity := satAdd p.currentLiquidity liquidityDelta }
  { p.addLiquidityAtEnds position.tickLow position.tickHigh liquidityDelta with
    positions := p.positions.insert (cfg.protocolAccountId, position.id) { collected with liquidity } }

/-- What is left is kept for the next time. -/
def Pool.keepScraps (p : Pool A) (deltas : Nat × Nat × Nat × Nat) : Pool A :=
  { p with scrapReservoirTao := deltas.2.2.1, scrapReservoirAlpha := deltas.2.2.2 }

def Pool.adjustProtocolLiquidity (p : Pool A) (taoDelta alphaDelta : Nat) : Pool A :=
  match p.protocolPosition cfg with
  | none => p
  | some position =>
      let kept := p.keepScraps (p.protocolDeltas position taoDelta alphaDelta)
      match p.protocolLiquidity position taoDelta alphaDelta with
      | .error _ => kept
      | .ok liquidity => kept.setProtocolLiquidity cfg position liquidity
end Qubitum.Swap
