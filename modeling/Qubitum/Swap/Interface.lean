import Qubitum.Swap.Engine

/-!
# `Swap.Interface` — the swap pallet as the staking pallet sees it

`SwapHandler` for the pallet: its storage for all subnets, the reserves it reads from the staking pallet, and
the conversion of limit prices.
-/

namespace Qubitum.Swap
open Fixed
open Qubitum.Subtensor (NetUid Pools Order SwapResult SwapInterface)

variable {A : Type}

/-- The storage of the pallet. The counter of position ids in each pool is not used. -/
structure Storage (A : Type) where
  pools : NetUid → Pool A
  lastPositionId : PositionId

namespace Storage

def pool (s : Storage A) (netuid : NetUid) : Pool A := { s.pools netuid with lastPositionId := s.lastPositionId }

def setPool (s : Storage A) (netuid : NetUid) (p : Pool A) : Storage A where
  pools := Function.update s.pools netuid p
  lastPositionId := p.lastPositionId

/-- No subnet has a pool yet. -/
def empty : Storage A := ⟨fun _ => Pool.empty, 0⟩
end Storage

/-- What the pallet reads of a subnet: the reserves with what users provided. -/
def Env.of (pools : Pools) (netuid : NetUid) : Env where
  taoReserve := satAdd (pools.subnetTao netuid) (pools.subnetTaoProvided netuid)
  alphaReserve := satAdd (pools.subnetAlphaIn netuid) (pools.subnetAlphaInProvided netuid)
  mechanism := pools.subnetMechanism netuid

/-- The index of the error in the pallet. -/
def Error.toDispatchError : Error → Subtensor.DispatchError
  | .insufficientLiquidity => .other 2
  | .priceLimitExceeded    => .other 3
  | .insufficientBalance   => .other 4
  | .liquidityNotFound     => .other 5
  | .invalidTickRange      => .other 6
  | .maxPositionsExceeded  => .other 7
  | .tooManySwapSteps      => .other 8
  | .invalidLiquidityValue => .other 9
  | .reservesTooLow        => .other 10
  | .userLiquidityDisabled => .other 12

/-- The direction and the input of an order. -/
def Side.ofOrder : Order → Side × Nat
  | .getAlphaForTao tao   => (.buy, tao)
  | .getTaoForAlpha alpha => (.sell, alpha)

/-- `default_price_limit` -/
def Side.defaultPriceLimit : Side → Nat
  | .buy  => maxPrice
  | .sell => minPrice

/-- `SqrtPrice::saturating_from_num(0.0000000001)` -/
def limitEpsilon : SqrtPrice := ⟨1844674407, by decide⟩

/-- A limit price is in parts of a billion. -/
def limitSqrtPriceOf (priceLimit : Nat) : SqrtPrice :=
  ((UFixed.ofNat priceLimit).safeDiv (.ofNat 1000000000)).checkedSqrt limitEpsilon

/-- `current_price` -/
def Pool.currentPrice (p : Pool A) (env : Env) : U96F32 :=
  if env.mechanism = 1 then
    if p.swapV3Initialized then (p.alphaSqrtPrice.saturatingMul p.alphaSqrtPrice).convert
    -- zero if there is no alpha
    else (UFixed.ofNat env.taoReserve).safeDiv (.ofNat env.alphaReserve)
  else .ofNat 1

variable [DecidableEq A] (cfg : Config A)

/-- `SwapEngine::swap` -/
def Storage.swap (s : Storage A) (pools : Pools) (netuid : NetUid) (order : Order) (priceLimit : Nat)
    (dropFees shouldRollback : Bool) : Except Subtensor.DispatchError SwapResult × Storage A :=
  let (side, amount) := Side.ofOrder order
  let (result, p) := doSwap cfg (Env.of pools netuid) side amount (limitSqrtPriceOf priceLimit) dropFees shouldRollback
    (s.pool netuid)
  (result.mapError Error.toDispatchError, s.setPool netuid p)

def Storage.simSwap (s : Storage A) (pools : Pools) (netuid : NetUid) (order : Order) :
    Except Subtensor.DispatchError SwapResult :=
  if pools.subnetMechanism netuid = 1 then
    (s.swap cfg pools netuid order (Side.ofOrder order).1.defaultPriceLimit false true).1
  else
    .ok (SwapResult.stable (if pools.ifSubnetExist netuid then (Side.ofOrder order).2 else 0))

/-- `SwapHandler` -/
def swapHandler : SwapInterface (Storage A) where
  swap := Storage.swap cfg
  simSwap := Storage.simSwap cfg
  approxFeeAmount s pools netuid amount :=
    (s.pool netuid).calculateFeeAmount (pools.subnetMechanism netuid) amount false
  currentAlphaPrice s pools netuid := (s.pool netuid).currentPrice (Env.of pools netuid)
  minPrice := minPrice
  maxPrice := maxPrice
  adjustProtocolLiquidity s _ netuid tao alpha :=
    s.setPool netuid ((s.pool netuid).adjustProtocolLiquidity cfg tao alpha)
end Qubitum.Swap
