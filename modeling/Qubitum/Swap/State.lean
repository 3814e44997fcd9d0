import Qubitum.Swap.Bitmap
import Qubitum.Subtensor.State

/-!
# `Swap.State` — storage of the swap pallet

The storage of one subnet, with the counter of position ids that all subnets share. What the pallet reads from
elsewhere is in `Env` and `Balances`, and may change between any two calls.

`u64` amounts are natural numbers with the saturation written out (`satAdd`); the net liquidity of a tick is an
integer, since `i128` is never left by sums of `u64`.
-/

namespace Qubitum.Swap
open Fixed Outcome Mutation
open Qubitum.Subtensor (StorageMap)

/-- The errors of the functions modelled here. -/
inductive Error where
  | insufficientLiquidity
  | priceLimitExceeded
  | insufficientBalance
  | liquidityNotFound
  | invalidTickRange
  | maxPositionsExceeded
  | tooManySwapSteps
  | invalidLiquidityValue
  | reservesTooLow
  | userLiquidityDisabled
  deriving DecidableEq, Repr

/-- `u64::saturating_add` -/
def satAdd (x y : Nat) : Nat := min (x + y) (2 ^ 64 - 1)

theorem satAdd_eq {x y : Nat} (h : x + y < 2 ^ 64) : satAdd x y = x + y := by
  unfold satAdd
  omega

theorem satAdd_le (x y : Nat) : satAdd x y ≤ x + y := Nat.min_le_left _ _

structure Tick where
  liquidityNet : Int
  liquidityGross : Nat
  feesOutTao : I64F64
  feesOutAlpha : I64F64
  deriving DecidableEq

instance : Inhabited Tick := ⟨⟨0, 0, .ofNat 0, .ofNat 0⟩⟩

/-- `liquidity_net_as_u64` -/
def Tick.liquidityNetAsU64 (t : Tick) : Nat := min t.liquidityNet.natAbs (2 ^ 64 - 1)

abbrev PositionId := Nat

structure Position where
  id : PositionId
  tickLow : TickIndex
  tickHigh : TickIndex
  liquidity : Nat
  feesTao : I64F64
  feesAlpha : I64F64
  deriving DecidableEq

/-- What the pallet stores for a subnet. Keys of `positions` are the owner and the id. -/
structure Pool (A : Type) where
  feeRate : UInt16
  feeGlobalTao : U64F64
  feeGlobalAlpha : U64F64
  ticks : StorageMap TickIndex Tick
  swapV3Initialized : Bool
  alphaSqrtPrice : SqrtPrice
  currentTick : TickIndex
  currentLiquidity : Nat
  enabledUserLiquidity : Bool
  positions : StorageMap (A × PositionId) Position
  lastPositionId : PositionId
  tickIndexBitmapWords : BitmapWords
  scrapReservoirTao : Nat
  scrapReservoirAlpha : Nat

/-- What the pallet reads of a subnet. -/
structure Env where
  taoReserve : Nat
  alphaReserve : Nat
  mechanism : UInt16

/-- What the pallet reads of accounts: the TAO of a coldkey, and its alpha on a hotkey. -/
structure Balances (A : Type) where
  tao : A → Nat
  alpha : A → A → Nat

/-- The constants of the runtime. -/
structure Config (A : Type) where
  protocolAccountId : A
  minimumReserve : Nat
  minimumLiquidity : Nat
  maxPositions : Nat

namespace Sample

/-- The constants of the runtime; the protocol's account is `false`. -/
def config : Config Bool := ⟨false, 1000000, 1000, 100⟩

/-- The same number of TAO and alpha. -/
def balanced : Env := ⟨1000000000, 1000000000, 1⟩
end Sample

/-- A function of the pallet: what it has written when it returns an error stays written, until a transaction
    around it is rolled back. -/
abbrev Run (A : Type) := EStateM Error (Pool A)

variable {A : Type}

namespace Pool

/-- `TickIndex::current_bounded` -/
def currentBounded (p : Pool A) : TickIndex := TickIndex.bounded p.currentTick

/-- A subnet nothing was stored for. -/
def empty : Pool A where
  feeRate := 33
  feeGlobalTao := .ofNat 0
  feeGlobalAlpha := .ofNat 0
  ticks := ∅
  swapV3Initialized := false
  alphaSqrtPrice := .ofNat 0
  currentTick := 0
  currentLiquidity := 0
  enabledUserLiquidity := false
  positions := ∅
  lastPositionId := 0
  tickIndexBitmapWords := fun _ _ => 0
  scrapReservoirTao := 0
  scrapReservoirAlpha := 0

/-- The fees of all positions so far, in TAO (`quote`) or in alpha. -/
def feeGlobal (p : Pool A) (quote : Bool) : I64F64 := .ofUnsigned (if quote then p.feeGlobalTao else p.feeGlobalAlpha)

/-- The fees on the other side of a tick. -/
def feesOut (p : Pool A) (tick : TickIndex) (quote : Bool) : I64F64 :=
  let t := (p.ticks.lookup tick).getD default
  if quote then t.feesOutTao else t.feesOutAlpha

/-- `fees_above` -/
def feesAbove (p : Pool A) (tick : TickIndex) (quote : Bool) : I64F64 :=
  if tick ≤ p.currentBounded then (p.feeGlobal quote).saturatingSub (p.feesOut tick quote) else p.feesOut tick quote

/-- `fees_below` -/
def feesBelow (p : Pool A) (tick : TickIndex) (quote : Bool) : I64F64 :=
  if tick ≤ p.currentBounded then p.feesOut tick quote else (p.feeGlobal quote).saturatingSub (p.feesOut tick quote)

/-- `fees_in_range` -/
def feesInRange (p : Pool A) (tickLow tickHigh : TickIndex) (quote : Bool) : I64F64 :=
  ((p.feeGlobal quote).saturatingSub (p.feesBelow tickLow quote)).saturatingSub (p.feesAbove tickHigh quote)

/-- `count_positions` -/
def countPositions [DecidableEq A] (p : Pool A) (account : A) : Nat :=
  (p.positions.keys.filter fun k => k.1 = account).length
end Pool

namespace Position

/-- `Position::new` -/
def new (p : Pool A) (id : PositionId) (tickLow tickHigh : TickIndex) (liquidity : Nat) : Position where
  id := id
  tickLow := tickLow
  tickHigh := tickHigh
  liquidity := liquidity
  feesTao := p.feesInRange tickLow tickHigh true
  feesAlpha := p.feesInRange tickLow tickHigh false

/-- TAO and alpha of a position at a price. -/
def toTokenAmounts (q : Position) (sqrtPriceCurr : SqrtPrice) : Except Error (Nat × Nat) := do
  let one : U64F64 := .ofNat 1
  let sqrtPriceLow ← okOr (TickIndex.tryToSqrtPrice q.tickLow) .invalidTickRange
  let sqrtPriceHigh ← okOr (TickIndex.tryToSqrtPrice q.tickHigh) .invalidTickRange
  let liquidity : U64F64 := .ofNat q.liquidity
  return if sqrtPriceCurr < sqrtPriceLow then
      (0, (liquidity.saturatingMul ((one.safeDiv sqrtPriceLow).saturatingSub (one.safeDiv sqrtPriceHigh))).toU64)
    else if sqrtPriceHigh < sqrtPriceCurr then
      ((liquidity.saturatingMul (sqrtPriceHigh.saturatingSub sqrtPriceLow)).toU64, 0)
    else
      ((liquidity.saturatingMul (sqrtPriceCurr.saturatingSub sqrtPriceLow)).toU64,
        (liquidity.saturatingMul ((one.safeDiv sqrtPriceCurr).saturatingSub (one.safeDiv sqrtPriceHigh))).toU64)

/-- The position with its fees collected, and the fees in TAO and alpha. -/
def collectFees (q : Position) (p : Pool A) : Position × Nat × Nat :=
  let feeTaoAgg := p.feesInRange q.tickLow q.tickHigh true
  let feeAlphaAgg := p.feesInRange q.tickLow q.tickHigh false
  let liquidity := I64F64.ofNat q.liquidity
  ({ q with feesTao := feeTaoAgg, feesAlpha := feeAlphaAgg },
    (liquidity.saturatingMul (feeTaoAgg.saturatingSub q.feesTao)).toU64,
    (liquidity.saturatingMul (feeAlphaAgg.saturatingSub q.feesAlpha)).toU64)
end Position
end Qubitum.Swap
