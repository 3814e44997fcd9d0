import Qubitum.Subtensor.Staking

/-!
# `Subtensor.Dispatch` — adding, removing and moving stake, registering, and the coinbase's injection

The calls of `add_stake.rs`, `remove_stake.rs`, `move_stake.rs` and `registration.rs` that move TAO between a
coldkey and the pools, with the checks they make first, and `inject_and_maybe_swap`, with which the coinbase
puts the block's emission into the pools.
-/

namespace Qubitum.Subtensor
open Fixed Outcome Mutation Function

variable {A B X R : Type} [DecidableEq A]

/-- `u64::MAX` -/
def u64Max : Nat := 2 ^ 64 - 1

variable (cfg : Config A B X R)

/-! ## Checks -/

section Checks
variable (s : State A B X R)

def ensureSubtokenEnabled (netuid : NetUid) : Except DispatchError Unit :=
  ensure (cfg.subtokenEnabled netuid) .subtokenDisabled

def ensureStakeOperationLimitNotExceeded (hotkey coldkey : A) (netuid : NetUid) : Except DispatchError Unit :=
  ensure (!s.limits.stakingOperationRateLimiter hotkey coldkey netuid) .stakingOperationRateLimitExceeded

/-- `T::SwapInterface::sim_swap` -/
def simSwap (netuid : NetUid) (order : Order) : Except DispatchError SwapResult :=
  cfg.swapInterface.simSwap s.swap s.pools netuid order

/-- The smallest amount that may be added: the minimum stake and the fee on it. -/
def minAddAmount (netuid : NetUid) : Nat :=
  defaultMinStake + match simSwap cfg s netuid (.getAlphaForTao defaultMinStake) with
    | .ok r    => r.feePaid
    | .error _ => cfg.swapInterface.approxFeeAmount s.swap s.pools netuid defaultMinStake

def validateAddStake (coldkey hotkey : A) (netuid : NetUid) (stakeToBeAdded maxAmount : Nat) (allowPartial : Bool) :
    Except DispatchError Unit := do
  ensure (s.pools.ifSubnetExist netuid) .subnetNotExists
  ensureSubtokenEnabled cfg netuid
  ensure (minAddAmount cfg s netuid ≤ stakeToBeAdded) .amountTooLow
  ensure (allowPartial ∨ stakeToBeAdded ≤ maxAmount) .slippageTooHigh
  -- only the balance and the swap are checked for the amount that will be used
  let stakeToBeAdded := if allowPartial then min maxAmount stakeToBeAdded else stakeToBeAdded
  ensure (canRemoveBalanceFromColdkeyAccount cfg s coldkey stakeToBeAdded) .notEnoughBalanceToStake
  ensure (s.ownership.hotkeyAccountExists hotkey) .hotKeyAccountNotExists
  let result ← (simSwap cfg s netuid (.getAlphaForTao stakeToBeAdded)).mapError fun _ => .insufficientLiquidity
  ensure (defaultMinStake ≤ result.amountPaidIn) .amountTooLow
  ensure (result.amountPaidOut ≠ 0) .insufficientLiquidity
  ensure (cfg.simUpdateValueForOne (s.stakes.totalHotkeyAlpha hotkey netuid) result.amountPaidOut)
    .insufficientLiquidity

def calculateReducedStakeOnSubnet (hotkey coldkey : A) (netuid : NetUid) (decrement : Nat) :
    Except DispatchError Nat := do
  let currentStake := s.stakes.stake hotkey coldkey netuid
  ensure (decrement ≤ currentStake) .notEnoughStakeToWithdraw
  return currentStake - decrement

def validateRemoveStake (coldkey hotkey : A) (netuid : NetUid) (alphaUnstaked maxAmount : Nat)
    (allowPartial : Bool) : Except DispatchError Unit := do
  ensure (s.pools.ifSubnetExist netuid) .subnetNotExists
  ensureStakeOperationLimitNotExceeded s hotkey coldkey netuid
  ensure (alphaUnstaked ≠ 0) .amountTooLow
  let remainingAlphaStake ← calculateReducedStakeOnSubnet s hotkey coldkey netuid alphaUnstaked
  let result ← (simSwap cfg s netuid (.getTaoForAlpha alphaUnstaked)).mapError fun _ => .insufficientLiquidity
  -- whoever unstakes everything need not take out the minimum
  ensure (remainingAlphaStake = 0 ∨ defaultMinStake ≤ result.amountPaidOut) .amountTooLow
  ensure (allowPartial ∨ alphaUnstaked ≤ maxAmount) .slippageTooHigh
  ensure (s.ownership.hotkeyAccountExists hotkey) .hotKeyAccountNotExists

def validateStakeTransition (originColdkey destinationColdkey originHotkey destinationHotkey : A)
    (originNetuid destinationNetuid : NetUid) (alphaAmount maxAmount : Nat) (maybeAllowPartial : Option Bool)
    (checkTransferToggle : Bool) : Except DispatchError Unit := do
  ensure (originColdkey = destinationColdkey ∧ originHotkey = destinationHotkey →
    originNetuid ≠ destinationNetuid) .sameNetuid
  ensureStakeOperationLimitNotExceeded s originHotkey originColdkey originNetuid
  ensure (s.pools.ifSubnetExist originNetuid) .subnetNotExists
  ensure (originNetuid ≠ destinationNetuid → s.pools.ifSubnetExist destinationNetuid) .subnetNotExists
  ensureSubtokenEnabled cfg originNetuid
  ensureSubtokenEnabled cfg destinationNetuid
  ensure (s.ownership.hotkeyAccountExists originHotkey) .hotKeyAccountNotExists
  ensure (s.ownership.hotkeyAccountExists destinationHotkey) .hotKeyAccountNotExists
  ensure (alphaAmount ≤ s.stakes.stake originHotkey originColdkey originNetuid) .notEnoughStakeToWithdraw
  if originNetuid ≠ destinationNetuid then
    let result ← (simSwap cfg s originNetuid (.getTaoForAlpha alphaAmount)).mapError fun _ => .insufficientLiquidity
    ensure (defaultMinStake < result.amountPaidOut) .amountTooLow
    ensure (maybeAllowPartial = some false → alphaAmount ≤ maxAmount) .slippageTooHigh
  if checkTransferToggle then
    ensure (cfg.transferToggle originNetuid) .transferDisallowed
    ensure (originNetuid ≠ destinationNetuid → cfg.transferToggle destinationNetuid) .transferDisallowed
end Checks

/-! ## Price limits -/

/-- The largest amount that can be swapped at a limit price: everything or nothing where the price is fixed,
    otherwise what a swap that is rolled back would take in. -/
def getMaxAmount (netuid : NetUid) (atPar : Bool) (order : Order) (limitPrice : Nat) : Run A B X R Nat := do
  if netuid = NetUid.root ∨ (← get).pools.subnetMechanism netuid = 0 then
    lift (ensure atPar .zeroMaxStakeAmount)
    return u64Max
  else
    let r ← swapOrder cfg netuid order limitPrice false true
    lift (ensure (r.amountPaidIn + r.feePaid ≠ 0) .zeroMaxStakeAmount)
    return r.amountPaidIn + r.feePaid

def getMaxAmountAdd (netuid : NetUid) (limitPrice : Nat) : Run A B X R Nat :=
  getMaxAmount cfg netuid (1000000000 ≤ limitPrice) (.getAlphaForTao u64Max) limitPrice

def getMaxAmountRemove (netuid : NetUid) (limitPrice : Nat) : Run A B X R Nat :=
  getMaxAmount cfg netuid (limitPrice ≤ 1000000000) (.getTaoForAlpha u64Max) limitPrice

/-- The main case of `get_max_amount_move`: both subnets are dynamic. -/
def maxAmountBetween (s : State A B X R) (originNetuid destinationNetuid : NetUid) (limitPrice : Nat) :
    Except DispatchError Nat := do
  let tao1 : Nat := s.pools.subnetTao originNetuid + s.pools.subnetTaoProvided originNetuid
  let tao2 : Nat := s.pools.subnetTao destinationNetuid + s.pools.subnetTaoProvided destinationNetuid
  ensure (tao1 ≠ 0 ∧ tao2 ≠ 0) .zeroMaxStakeAmount
  let alpha1 : Nat := s.pools.subnetAlphaIn originNetuid + s.pools.subnetAlphaInProvided originNetuid
  let alpha2 : Nat := s.pools.subnetAlphaIn destinationNetuid + s.pools.subnetAlphaInProvided destinationNetuid
  ensure (alpha1 ≠ 0 ∧ alpha2 ≠ 0) .zeroMaxStakeAmount
  let limit : U64F64 := (UFixed.ofNat limitPrice).safeDiv (UFixed.ofNat 1000000000)
  let price := cfg.swapInterface.currentAlphaPrice s.swap s.pools
  let currentPrice := (price originNetuid).safeDiv (price destinationNetuid)
  ensure (¬ currentPrice.ltAcross limit) .zeroMaxStakeAmount
  if limitPrice = 0 then
    return u64Max
  else
    let t1 : U64F64 := UFixed.ofNat tao1
    let t2 : U64F64 := UFixed.ofNat tao2
    let sum := t2.saturatingAdd t1
    let result := ((((UFixed.ofNat alpha2).saturatingMul (t1.safeDiv sum)).safeDiv limit).saturatingSub
      ((UFixed.ofNat alpha1).saturatingMul (t2.safeDiv sum))).toU64
    ensure (result ≠ 0) .zeroMaxStakeAmount
    return result

def getMaxAmountMove (originNetuid destinationNetuid : NetUid) (limitPrice : Nat) : Run A B X R Nat := do
  let s ← get
  let fixed (netuid : NetUid) : Bool := netuid = NetUid.root ∨ s.pools.subnetMechanism netuid = 0
  let dynamic (netuid : NetUid) : Bool := s.pools.subnetMechanism netuid = 1
  let tao : U64F64 := UFixed.ofNat 1000000000
  if fixed originNetuid && fixed destinationNetuid then
    lift (ensure (limitPrice ≤ 1000000000) .zeroMaxStakeAmount)
    return u64Max
  else if fixed originNetuid && dynamic destinationNetuid then
    if limitPrice = 0 then
      return u64Max
    else
      -- the limit is the price of the origin in the destination's alpha
      getMaxAmountAdd cfg destinationNetuid ((tao.safeDiv (UFixed.ofNat limitPrice)).saturatingMul tao).toU64
  else if fixed destinationNetuid && dynamic originNetuid then
    getMaxAmountRemove cfg originNetuid limitPrice
  else
    lift (maxAmountBetween cfg s originNetuid destinationNetuid limitPrice)

/-! ## Adding stake -/

def maybeBecomeDelegate (s : State A B X R) (hotkey : A) : State A B X R :=
  if (s.neurons.delegates hotkey).isSome then s
  else
    { s with neurons := { s.neurons with
        delegates := update s.neurons.delegates hotkey (some cfg.defaultDelegateTake) } }

/-- A nominator makes the hotkey a delegate. -/
def State.delegateFor (s : State A B X R) (coldkey hotkey : A) : State A B X R :=
  if s.ownership.owner hotkey = some coldkey then s else maybeBecomeDelegate cfg s hotkey

def doAddStake (origin : Origin A) (hotkey : A) (netuid : NetUid) (stakeToBeAdded : Nat) : Run A B X R Nat := do
  let coldkey ← lift (ensureSigned origin)
  -- checked here and once more by the validation
  lift (ensureSubtokenEnabled cfg netuid)
  lift (validateAddStake cfg (← get) coldkey hotkey netuid stakeToBeAdded stakeToBeAdded false)
  let taoStaked ← removeBalanceFromColdkeyAccount cfg coldkey stakeToBeAdded
  stakeIntoSubnet cfg hotkey coldkey netuid taoStaked cfg.swapInterface.maxPrice true false

def doAddStakeLimit (origin : Origin A) (hotkey : A) (netuid : NetUid) (stakeToBeAdded limitPrice : Nat)
    (allowPartial : Bool) : Run A B X R Nat := do
  let coldkey ← lift (ensureSigned origin)
  let maxAmount ← getMaxAmountAdd cfg netuid limitPrice
  lift (validateAddStake cfg (← get) coldkey hotkey netuid stakeToBeAdded maxAmount allowPartial)
  modify fun s => s.delegateFor cfg coldkey hotkey
  let taoStaked ← removeBalanceFromColdkeyAccount cfg coldkey (min stakeToBeAdded maxAmount)
  stakeIntoSubnet cfg hotkey coldkey netuid taoStaked limitPrice true false

/-! ## Removing stake -/

/-- Stake on somebody else's hotkey that is worth less than the required minimum. -/
def State.isSmallNomination (s : State A B X R) (hotkey coldkey : A) (netuid : NetUid) : Bool :=
  let alphaStake := s.stakes.stake hotkey coldkey netuid
  let minAlphaStake := ((UFixed.ofNat cfg.nominatorMinRequiredStake : U96F32).safeDiv
    (cfg.swapInterface.currentAlphaPrice s.swap s.pools netuid)).toU64
  !s.ownership.coldkeyOwnsHotkey coldkey hotkey && 0 < alphaStake && alphaStake < minAlphaStake

/-- An error of the unstaking is dropped: the rest of the stake is cleared without being sold. -/
def clearSmallNominationIfRequired (hotkey coldkey : A) (netuid : NetUid) : Run A B X R Unit := do
  let s ← get
  if s.isSmallNomination cfg hotkey coldkey netuid then
    match ← attempt (unstakeFromSubnet cfg hotkey coldkey netuid (s.stakes.stake hotkey coldkey netuid)
      cfg.swapInterface.minPrice false) with
    | .ok clearedStake => modify fun s => addBalanceToColdkeyAccount cfg s coldkey clearedStake
    | .error _ => modify fun s => { s with
        stakes := s.stakes.decrease hotkey coldkey netuid (s.stakes.stake hotkey coldkey netuid) }

def getTotalStakeForHotkey (s : State A B X R) (hotkey : A) : Nat :=
  (s.pools.allSubnetNetuids.foldl
    (fun (sum : U96F32) netuid => sum.saturatingAdd ((UFixed.ofNat (s.stakes.totalHotkeyAlpha hotkey netuid)).saturatingMul
      (cfg.swapInterface.currentAlphaPrice s.swap s.pools netuid)))
    (UFixed.ofNat 0)).toU64

/-- The last steps of `do_remove_stake` and `do_remove_stake_limit`. -/
def creditUnstaked (hotkey coldkey : A) (netuid : NetUid) (taoUnstaked : Nat) : Run A B X R Unit := do
  modify fun s => addBalanceToColdkeyAccount cfg s coldkey taoUnstaked
  clearSmallNominationIfRequired cfg hotkey coldkey netuid
  modify fun s =>
    if getTotalStakeForHotkey cfg s hotkey < cfg.stakeThreshold then
      { s with rest := s.pools.allSubnetNetuids.foldl (cfg.other.removePendingChildren · hotkey ·) s.rest }
    else s

def doRemoveStake (origin : Origin A) (hotkey : A) (netuid : NetUid) (alphaUnstaked : Nat) : Run A B X R Unit := do
  let coldkey ← lift (ensureSigned origin)
  lift (ensureSubtokenEnabled cfg netuid)
  -- asking for more than there is means all of it
  let alphaUnstaked := min alphaUnstaked ((← get).stakes.stake hotkey coldkey netuid)
  lift (validateRemoveStake cfg (← get) coldkey hotkey netuid alphaUnstaked alphaUnstaked false)
  let taoUnstaked ← unstakeFromSubnet cfg hotkey coldkey netuid alphaUnstaked cfg.swapInterface.minPrice false
  creditUnstaked cfg hotkey coldkey netuid taoUnstaked

def doRemoveStakeLimit (origin : Origin A) (hotkey : A) (netuid : NetUid) (alphaUnstaked limitPrice : Nat)
    (allowPartial : Bool) : Run A B X R Unit := do
  let coldkey ← lift (ensureSigned origin)
  let maxAmount ← getMaxAmountRemove cfg netuid limitPrice
  -- the amount is not cut to the stake here: asking for more fails
  lift (validateRemoveStake cfg (← get) coldkey hotkey netuid alphaUnstaked maxAmount allowPartial)
  let taoUnstaked ← unstakeFromSubnet cfg hotkey coldkey netuid (min alphaUnstaked maxAmount) limitPrice false
  creditUnstaked cfg hotkey coldkey netuid taoUnstaked

/-- Whether `do_unstake_all_alpha` unstakes on a subnet. -/
def unstakesAlphaOn (s : State A B X R) (hotkey coldkey : A) (netuid : NetUid) : Bool :=
  let alphaUnstaked := s.stakes.stake hotkey coldkey netuid
  cfg.subtokenEnabled netuid && netuid ≠ NetUid.root && alphaUnstaked ≠ 0 &&
    (validateRemoveStake cfg s coldkey hotkey netuid alphaUnstaked alphaUnstaked false).isOk

/-- The loop body of `do_unstake_all_alpha`, with the TAO unstaked so far. -/
def unstakeAllAlphaOn (hotkey coldkey : A) (totalTaoUnstaked : Nat) (netuid : NetUid) : Run A B X R Nat := do
  let s ← get
  let alphaUnstaked := s.stakes.stake hotkey coldkey netuid
  if unstakesAlphaOn cfg s hotkey coldkey netuid then
    let taoUnstaked ← unstakeFromSubnet cfg hotkey coldkey netuid alphaUnstaked cfg.swapInterface.minPrice false
    clearSmallNominationIfRequired cfg hotkey coldkey netuid
    return totalTaoUnstaked + taoUnstaked
  else return totalTaoUnstaked

def doUnstakeAllAlpha (origin : Origin A) (hotkey : A) : Run A B X R Unit := do
  let coldkey ← lift (ensureSigned origin)
  lift (ensure ((← get).ownership.hotkeyAccountExists hotkey) .hotKeyAccountNotExists)
  let totalTaoUnstaked ← (← get).pools.allSubnetNetuids.foldlM (unstakeAllAlphaOn cfg hotkey coldkey) 0
  let _ ← stakeIntoSubnet cfg hotkey coldkey NetUid.root totalTaoUnstaked cfg.swapInterface.maxPrice false false

/-! ## Moving stake -/

/-- The largest amount that a transition may move. -/
def transitionMaxAmount (originNetuid destinationNetuid : NetUid) (alphaAmount : Nat) : Option Nat → Run A B X R Nat
  | some limitPrice =>
      if originNetuid ≠ destinationNetuid then getMaxAmountMove cfg originNetuid destinationNetuid limitPrice
      else pure alphaAmount
  | none => pure alphaAmount

/-- `move_stake`, `transfer_stake` and `swap_stake` -/
def transitionStakeInternal (originColdkey destinationColdkey originHotkey destinationHotkey : A)
    (originNetuid destinationNetuid : NetUid) (alphaAmount : Nat) (maybeLimitPrice : Option Nat)
    (maybeAllowPartial : Option Bool) (checkTransferToggle setLimit : Bool) : Run A B X R Nat := do
  let alphaAmount := min alphaAmount ((← get).stakes.stake originHotkey originColdkey originNetuid)
  let maxAmount ← transitionMaxAmount cfg originNetuid destinationNetuid alphaAmount maybeLimitPrice
  lift (validateStakeTransition cfg (← get) originColdkey destinationColdkey originHotkey destinationHotkey
    originNetuid destinationNetuid alphaAmount maxAmount maybeAllowPartial checkTransferToggle)
  let moveAmount := min alphaAmount maxAmount
  if originNetuid ≠ destinationNetuid then
    let dropFeeOrigin : Bool := originNetuid = NetUid.root
    let taoUnstaked ← unstakeFromSubnet cfg originHotkey originColdkey originNetuid moveAmount
      cfg.swapInterface.minPrice dropFeeOrigin
    -- too little is not staked again
    if defaultMinStake ≤ taoUnstaked then
      modify fun s => s.delegateFor cfg destinationColdkey destinationHotkey
      let _ ← stakeIntoSubnet cfg destinationHotkey destinationColdkey destinationNetuid taoUnstaked
        cfg.swapInterface.maxPrice setLimit !dropFeeOrigin
    return taoUnstaked
  else
    transferStakeWithinSubnet cfg originColdkey originHotkey destinationColdkey destinationHotkey originNetuid
      moveAmount

/-! ## Registering -/

namespace Neurons

/-- `append_neuron` -/
def append (n : Neurons A) (netuid : NetUid) (hotkey : A) : Neurons A :=
  let uid := n.subnetworkN netuid
  { n with
    subnetworkN := update n.subnetworkN netuid (if uid.toNat + 1 < 2 ^ 16 then uid + 1 else uid)
    keys := update n.keys netuid (update (n.keys netuid) uid (some hotkey))
    uids := update n.uids netuid (update (n.uids netuid) hotkey (some uid))
    isNetworkMember := n.isNetworkMember.insert (hotkey, netuid) true }

/-- `replace_neuron` under a hotkey that is not the subnet owner's. -/
def replace (n : Neurons A) (netuid : NetUid) (uid : UInt16) (oldHotkey newHotkey : A) : Neurons A :=
  { n with
    keys := update n.keys netuid (update (n.keys netuid) uid (some newHotkey))
    uids := update n.uids netuid (update (update (n.uids netuid) oldHotkey none) newHotkey (some uid))
    isNetworkMember := (n.isNetworkMember.erase (oldHotkey, netuid)).insert (newHotkey, netuid) true }
end Neurons

/-- A uid that can be pruned has a key; the neuron of the subnet's owner stays, and the call succeeds. -/
def State.replaceNeuron (s : State A B X R) (netuid : NetUid) (uid : UInt16) (newHotkey : A) : State A B X R :=
  match s.neurons.keys netuid uid with
  | none => s
  | some oldHotkey =>
      if s.neurons.subnetOwnerHotkey netuid = some oldHotkey then s
      else
        { s with
          neurons := s.neurons.replace netuid uid oldHotkey newHotkey
          rest := cfg.other.replaceNeuronData s.rest netuid uid oldHotkey s.block }

def registerNeuron (netuid : NetUid) (hotkey : A) : Run A B X R Unit := do
  let s ← get
  if s.neurons.subnetworkN netuid < cfg.other.maxAllowedUids s.rest netuid then
    set { s with
      neurons := s.neurons.append netuid hotkey
      rest := cfg.other.appendNeuronData s.rest netuid (s.neurons.subnetworkN netuid) s.block }
  else
    let uid ← lift (okOr (cfg.other.neuronToPrune s.rest s.ownership s.neurons netuid s.block) .noNeuronIdAvailable)
    set (s.replaceNeuron cfg netuid uid hotkey)

/-- `recycle_subnet_alpha` -/
def Pools.recycleSubnetAlpha (p : Pools) (netuid : NetUid) (amount : Nat) : Pools :=
  { p with subnetAlphaOut := update p.subnetAlphaOut netuid (p.subnetAlphaOut netuid - amount) }

def doRegister (origin : Origin A) (netuid : NetUid) (hotkey : A) : Run A B X R Unit := do
  let coldkey ← lift (ensureSigned origin)
  let s ← get
  lift (ensure (netuid ≠ NetUid.root) .registrationNotPermittedOnRootSubnet)
  lift (ensure (s.pools.ifSubnetExist netuid) .subnetNotExists)
  lift (ensure (cfg.other.networkRegistrationAllowed s.rest netuid) .subNetRegistrationDisabled)
  lift (ensure ((s.neurons.uids netuid hotkey).isNone) .hotKeyAlreadyRegisteredInSubNet)
  let registrationCost := cfg.other.burn s.rest netuid
  lift (ensure (canRemoveBalanceFromColdkeyAccount cfg s coldkey registrationCost) .notEnoughBalanceToStake)
  -- a hotkey of somebody else stays with its owner, and the next check fails
  modify fun s => s.createAccountIfNonExistent coldkey hotkey
  lift (ensure ((← get).ownership.coldkeyOwnsHotkey coldkey hotkey) .nonAssociatedColdKey)
  lift (ensure (cfg.other.maxAllowedUids s.rest netuid ≠ 0) .noNeuronIdAvailable)
  lift (ensure (s.neurons.subnetworkN netuid < cfg.other.maxAllowedUids s.rest netuid ∨
    (cfg.other.neuronToPrune s.rest (← get).ownership s.neurons netuid s.block).isSome) .noNeuronIdAvailable)
  let actualBurnAmount ← removeBalanceFromColdkeyAccount cfg coldkey registrationCost
  let result ← swapTaoForAlpha cfg netuid actualBurnAmount cfg.swapInterface.maxPrice false
  -- the alpha is recycled at once, and no author is paid for this purchase
  modify fun s => { s with pools := s.pools.recycleSubnetAlpha netuid result.amountPaidOut }
  registerNeuron cfg netuid hotkey
  modify fun s => { s with rest := cfg.other.countRegistration s.rest netuid registrationCost }

/-! ## The coinbase -/

/-- `tou64!(map.get(netuid).unwrap_or(&0))` -/
def emissionOf (emission : StorageMap NetUid U96F32) (netuid : NetUid) : Nat :=
  ((emission.lookup netuid).getD (UFixed.ofNat 0)).toU64

/-- The loop body of `inject_and_maybe_swap`. The issuance grows by the excess TAO also if the swap fails. -/
def injectOn (taoIn alphaIn excessTao : StorageMap NetUid U96F32) (netuid : NetUid) : Run A B X R Unit := do
  let tao := emissionOf taoIn netuid
  let alpha := emissionOf alphaIn netuid
  let excess := emissionOf excessTao netuid
  modify fun s => { s with swap := cfg.swapInterface.adjustProtocolLiquidity s.swap s.pools netuid tao alpha }
  if 0 < excess then
    match ← attempt (swapTaoForAlpha cfg netuid excess cfg.swapInterface.maxPrice true) with
    | .ok result => modify fun s => { s with pools := s.pools.recycleSubnetAlpha netuid result.amountPaidOut }
    | .error _ => pure ()
  modify fun s => { s with
    pools := { s.pools with
      subnetAlphaIn := update s.pools.subnetAlphaIn netuid (s.pools.subnetAlphaIn netuid + alpha)
      subnetTao := update s.pools.subnetTao netuid (s.pools.subnetTao netuid + tao) }
    totals :=
      { totalStake := s.totals.totalStake + tao
        totalIssuance := s.totals.totalIssuance + tao + excess } }

def injectAndMaybeSwap (subnetsToEmitTo : List NetUid) (taoIn alphaIn excessTao : StorageMap NetUid U96F32) :
    Run A B X R Unit :=
  subnetsToEmitTo.forM (injectOn cfg taoIn alphaIn excessTao)
end Qubitum.Subtensor
