import Qubitum.Subtensor.Keys

/-!
# `Subtensor.Staking` — root claims, swaps, staking and unstaking

`stake_into_subnet`, `unstake_from_subnet` and `transfer_stake_within_subnet`, with the two swaps of
`stake_utils.rs` they are made of and the adjustment of root claims. Share pools are exact ledgers, as in `Subtensor.Keys`.
-/

namespace Qubitum.Subtensor
open Fixed Outcome Mutation Function

variable {A B X R : Type} [DecidableEq A]

/-! ## Root claims -/

namespace RootClaims
variable (rc : RootClaims A)

/-- `RootClaimed(netuid, hotkey, coldkey) := value` -/
def setClaimed (netuid : NetUid) (hotkey coldkey : A) (value : Nat) : RootClaims A :=
  { rc with rootClaimed := rc.rootClaimed.insert (netuid, hotkey, coldkey) value }

/-- What a rate gives for an amount of root stake. -/
def claimableFor (rate : I96F32) (amount : Nat) : Nat := (rate.saturatingMul (I96F32.ofNat amount)).toUnsigned 128

/-- `add_stake_adjust_root_claimed_for_hotkey_and_coldkey` -/
def addStakeAdjust (hotkey coldkey : A) (amount : Nat) : RootClaims A :=
  (rc.rootClaimable hotkey).entries.foldl
    (fun rc e => rc.setClaimed e.1 hotkey coldkey (rc.claimed e.1 hotkey coldkey + claimableFor e.2 amount)) rc

/-- `remove_stake_adjust_root_claimed_for_hotkey_and_coldkey` -/
def removeStakeAdjust (hotkey coldkey : A) (amount : Nat) : RootClaims A :=
  (rc.rootClaimable hotkey).entries.foldl
    (fun rc e =>
      -- root is skipped here, though not when stake is added
      if e.1 = NetUid.root then rc
      else rc.setClaimed e.1 hotkey coldkey (rc.claimed e.1 hotkey coldkey - claimableFor e.2 amount)) rc

/-- `maybe_add_coldkey_index` -/
def maybeAddColdkeyIndex (coldkey : A) : RootClaims A :=
  if (rc.stakingColdkeys coldkey).isSome then rc
  else
    { rc with
      stakingColdkeysByIndex := update rc.stakingColdkeysByIndex rc.numStakingColdkeys (some coldkey)
      stakingColdkeys := update rc.stakingColdkeys coldkey (some rc.numStakingColdkeys)
      numStakingColdkeys := rc.numStakingColdkeys + 1 }

/-- `get_root_claimable_for_hotkey_coldkey` -/
def claimableOf (st : Stakes A) (hotkey coldkey : A) (netuid : NetUid) : I96F32 :=
  (((rc.rootClaimable hotkey).lookup netuid).getD (I96F32.ofNat 0)).saturatingMul
    (I96F32.ofNat (st.stake hotkey coldkey NetUid.root))

/-- `get_root_owed_for_hotkey_coldkey_float` -/
def owedFloat (st : Stakes A) (hotkey coldkey : A) (netuid : NetUid) : I96F32 :=
  (rc.claimableOf st hotkey coldkey netuid).saturatingSub (I96F32.ofNat (rc.claimed netuid hotkey coldkey))

/-- `get_root_owed_for_hotkey_coldkey` -/
def owed (st : Stakes A) (hotkey coldkey : A) (netuid : NetUid) : Nat :=
  let owed := rc.owedFloat st hotkey coldkey netuid
  if owed.isNegative then 0 else owed.toUnsigned 64

/-- `transfer_root_claimed_for_new_keys` -/
def transferClaimed (netuid : NetUid) (oldHotkey newHotkey oldColdkey newColdkey : A) : RootClaims A :=
  let oldRootClaimed := rc.claimed netuid oldHotkey oldColdkey
  let rc := { rc with rootClaimed := rc.rootClaimed.erase (netuid, oldHotkey, oldColdkey) }
  rc.setClaimed netuid newHotkey newColdkey (oldRootClaimed + rc.claimed netuid newHotkey newColdkey)

/-- `transfer_root_claimable_for_new_hotkey` -/
def transferClaimable (oldHotkey newHotkey : A) : RootClaims A :=
  let dst := (rc.rootClaimable oldHotkey).entries.foldl
    (fun (dst : StorageMap NetUid I96F32) e =>
      dst.insert e.1 (match dst.lookup e.1 with
        | some total => total.saturatingAdd e.2
        | none       => e.2))
    (rc.rootClaimable newHotkey)
  { rc with
    rootClaimable := update (update rc.rootClaimable oldHotkey ∅) newHotkey dst }

/-- The coldkeys with an entry of `RootClaimed` under a subnet and a hotkey. -/
def claimedColdkeys (netuid : NetUid) (hotkey : A) : List A :=
  rc.rootClaimed.keys.filterMap fun (n, h, c) => if n = netuid ∧ h = hotkey then some c else none

/-- Step 9 of `perform_hotkey_swap_on_one_subnet`. -/
def swapHotkey (oldHotkey newHotkey : A) : RootClaims A :=
  let rc := rc.transferClaimable oldHotkey newHotkey
  (rc.rootClaimable newHotkey).keys.foldl
    (fun rc subnet => (rc.claimedColdkeys subnet oldHotkey).foldl
      (fun rc coldkey => rc.transferClaimed subnet oldHotkey newHotkey coldkey coldkey) rc)
    rc
end RootClaims

/-! ## Balances -/

variable (cfg : Config A B X R)

/-- `add_balance_to_coldkey_account` -/
def addBalanceToColdkeyAccount (s : State A B X R) (coldkey : A) (amount : Nat) : State A B X R :=
  { s with ledger := cfg.currency.deposit s.ledger coldkey amount }

def canRemoveBalanceFromColdkeyAccount (s : State A B X R) (coldkey : A) (amount : Nat) : Bool :=
  amount ≤ cfg.currency.reducibleBalance s.ledger coldkey && cfg.currency.canWithdraw s.ledger coldkey amount

/-- `remove_balance_from_coldkey_account`: the credit is dropped, its amount returned. -/
def removeBalanceFromColdkeyAccount (coldkey : A) (amount : Nat) : Run A B X R Nat := do
  if amount = 0 then return 0
  let s ← get
  let (credit, ledger) ← lift ((cfg.currency.withdraw s.ledger coldkey amount).mapError
    fun _ => .balanceWithdrawalError)
  set { s with ledger }
  lift (ensure (credit ≠ 0) .zeroBalanceAfterWithdrawn)
  return credit

/-- `kill_coldkey_account` -/
def killColdkeyAccount (coldkey : A) (amount : Nat) : Run A B X R Nat := do
  if amount = 0 then return 0
  let s ← get
  let (credit, ledger) ← lift ((cfg.currency.withdrawForced s.ledger coldkey amount).mapError
    fun _ => .balanceWithdrawalError)
  set { s with ledger }
  lift (ensure (credit ≠ 0) .zeroBalanceAfterWithdrawn)
  return credit

/-! ## Swaps -/

/-- `T::SwapInterface::swap`: its storage is written also when it fails. -/
def swapOrder (netuid : NetUid) (order : Order) (priceLimit : Nat) (dropFees shouldRollback : Bool) :
    Run A B X R SwapResult := do
  let s ← get
  let (result, swap) := cfg.swapInterface.swap s.swap s.pools netuid order priceLimit dropFees shouldRollback
  set { s with swap }
  lift result

/-- The reserves after TAO was swapped for alpha. -/
def Pools.bought (p : Pools) (netuid : NetUid) (tao : Nat) (r : SwapResult) : Pools :=
  { p with
    subnetAlphaIn := update p.subnetAlphaIn netuid (p.subnetAlphaIn netuid - r.paidOutReserveDelta)
    subnetAlphaOut := update p.subnetAlphaOut netuid (p.subnetAlphaOut netuid + r.amountPaidOut)
    subnetTao := update p.subnetTao netuid (p.subnetTao netuid + r.paidInReserveDelta)
    subnetVolume := update p.subnetVolume netuid (p.subnetVolume netuid + tao) }

/-- The reserves after alpha was swapped for TAO. -/
def Pools.sold (p : Pools) (netuid : NetUid) (r : SwapResult) : Pools :=
  { p with
    subnetAlphaIn := update p.subnetAlphaIn netuid (p.subnetAlphaIn netuid + r.paidInReserveDelta)
    subnetAlphaOut := update p.subnetAlphaOut netuid (p.subnetAlphaOut netuid - r.paidInReserveDelta)
    subnetTao := update p.subnetTao netuid (p.subnetTao netuid - r.paidOutReserveDelta)
    subnetVolume := update p.subnetVolume netuid (p.subnetVolume netuid + r.amountPaidOut) }

def swapTaoForAlpha (netuid : NetUid) (tao priceLimit : Nat) (dropFees : Bool) : Run A B X R SwapResult := do
  let result ← if (← get).pools.subnetMechanism netuid = 1 then
      swapOrder cfg netuid (.getAlphaForTao tao) priceLimit dropFees false
    else pure (SwapResult.stable tao)
  modify fun s => { s with
    pools := s.pools.bought netuid tao result
    -- all of the payment counts, its fee and what the limit price left unspent included
    totals := { s.totals with totalStake := s.totals.totalStake + tao } }
  return result

def swapAlphaForTao (netuid : NetUid) (alpha priceLimit : Nat) (dropFees : Bool) : Run A B X R SwapResult := do
  let result ← if (← get).pools.subnetMechanism netuid = 1 then
      swapOrder cfg netuid (.getTaoForAlpha alpha) priceLimit dropFees false
    else pure (SwapResult.stable alpha)
  modify fun s => { s with
    pools := s.pools.sold netuid result
    totals := { s.totals with totalStake := s.totals.totalStake - result.amountPaidOut } }
  return result

/-! ## Staking -/

/-- `record_tao_inflow`, `record_tao_outflow` -/
def Pools.recordTaoFlow (p : Pools) (netuid : NetUid) (tao : Int) : Pools :=
  { p with subnetTaoFlow := update p.subnetTaoFlow netuid (p.subnetTaoFlow netuid + tao) }

/-- `LastColdkeyHotkeyStakeBlock(coldkey, hotkey) := block` -/
def RateLimits.setStakeBlock (l : RateLimits A) (coldkey hotkey : A) (block : Nat) : RateLimits A :=
  { l with
    lastColdkeyHotkeyStakeBlock := update l.lastColdkeyHotkeyStakeBlock coldkey
      (update (l.lastColdkeyHotkeyStakeBlock coldkey) hotkey (some block)) }

/-- `set_stake_operation_limit` -/
def RateLimits.setStakeOperationLimit (l : RateLimits A) (hotkey coldkey : A) (netuid : NetUid) : RateLimits A :=
  { l with
    stakingOperationRateLimiter := update l.stakingOperationRateLimiter hotkey
      (update (l.stakingOperationRateLimiter hotkey) coldkey
        (update (l.stakingOperationRateLimiter hotkey coldkey) netuid true)) }

/-- The block author's fee of a purchase: credited, or burnt if there is no author. -/
def payAuthorTao (s : State A B X R) (fee : Nat) : State A B X R :=
  match s.author with
  | some author => addBalanceToColdkeyAccount cfg s author fee
  | none        => { s with totals := { s.totals with totalIssuance := s.totals.totalIssuance - fee } }

def stakeIntoSubnet (hotkey coldkey : A) (netuid : NetUid) (tao priceLimit : Nat) (setLimit dropFees : Bool) :
    Run A B X R Nat := do
  let result ← swapTaoForAlpha cfg netuid tao priceLimit dropFees
  lift (ensure (result.amountPaidOut ≠ 0) .amountTooLow)
  lift (ensure (cfg.simUpdateValueForOne ((← get).stakes.totalHotkeyAlpha hotkey netuid) result.amountPaidOut)
    .insufficientLiquidity)
  modify fun s => { s with
    stakes := (s.stakes.increase hotkey coldkey netuid result.amountPaidOut).addStakingHotkey coldkey hotkey }
  -- the fee has been counted as stake already
  modify fun s => payAuthorTao cfg s result.feeToBlockAuthor
  modify fun s => { s with
    pools := s.pools.recordTaoFlow netuid result.amountPaidIn
    limits := (if setLimit then s.limits.setStakeOperationLimit hotkey coldkey netuid else s.limits).setStakeBlock
      coldkey hotkey s.block
    rootClaims :=
      if netuid = NetUid.root then
        (s.rootClaims.addStakeAdjust hotkey coldkey result.amountPaidOut).maybeAddColdkeyIndex coldkey
      else s.rootClaims }
  return result.amountPaidOut

/-- The block author's fee of a sale is alpha: it is sold without a fee and the TAO credited. Without an
    author it stays where it is. -/
def payAuthorAlpha (netuid : NetUid) (fee : Nat) : Run A B X R Nat := do
  match (← get).author with
  | some author =>
      let result ← swapAlphaForTao cfg netuid fee cfg.swapInterface.minPrice true
      modify fun s => addBalanceToColdkeyAccount cfg s author result.amountPaidOut
      return result.amountPaidOut
  | none => return 0

/-- The alpha that a limit price left unsold. -/
def unsold (alpha : Nat) (r : SwapResult) : Nat := alpha - (r.amountPaidIn + r.feePaid)

def unstakeFromSubnet (hotkey coldkey : A) (netuid : NetUid) (alpha priceLimit : Nat) (dropFees : Bool) :
    Run A B X R Nat := do
  modify fun s => { s with stakes := s.stakes.decrease hotkey coldkey netuid alpha }
  let result ← swapAlphaForTao cfg netuid alpha priceLimit dropFees
  let refund := unsold alpha result
  modify fun s => { s with
    stakes := if refund = 0 then s.stakes else s.stakes.increase hotkey coldkey netuid refund }
  let feeOutflow ← payAuthorAlpha cfg netuid result.feeToBlockAuthor
  modify fun s => { s with
    -- adjusted by all of `alpha`, what was given back included
    rootClaims :=
      if netuid = NetUid.root then s.rootClaims.removeStakeAdjust hotkey coldkey alpha else s.rootClaims
    pools := s.pools.recordTaoFlow netuid (-(result.amountPaidOut + feeOutflow))
    limits := s.limits.setStakeBlock coldkey hotkey s.block }
  return result.amountPaidOut

def transferStakeWithinSubnet (originColdkey originHotkey destinationColdkey destinationHotkey : A)
    (netuid : NetUid) (alpha : Nat) : Run A B X R Nat := do
  modify fun s => { s with
    stakes := s.stakes.decrease originHotkey originColdkey netuid alpha
    rootClaims :=
      if netuid = NetUid.root then s.rootClaims.removeStakeAdjust originHotkey originColdkey alpha
      else s.rootClaims }
  modify fun s => { s with
    stakes := s.stakes.increase destinationHotkey destinationColdkey netuid alpha
    rootClaims :=
      if netuid = NetUid.root then s.rootClaims.addStakeAdjust destinationHotkey destinationColdkey alpha
      else s.rootClaims }
  let s ← get
  let price := cfg.swapInterface.currentAlphaPrice s.swap s.pools netuid
  let taoEquivalent := (price.saturatingMul (UFixed.ofNat alpha)).toU64
  -- the minimum is checked when the stake has moved; the dispatch rolls the move back
  lift (ensure (defaultMinStake ≤ taoEquivalent) .amountTooLow)
  modify fun s => { s with limits := s.limits.setStakeBlock destinationColdkey destinationHotkey s.block }
  return taoEquivalent
end Qubitum.Subtensor
