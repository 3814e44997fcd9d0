import Qubitum.Subtensor.Staking

/-!
# `Subtensor.KeySwap` — swapping a hotkey and swapping a coldkey

`do_swap_hotkey` replaces a hotkey on one subnet or on all of them, with or without the stake on it.
`do_swap_coldkey` hands everything of one coldkey to another.
-/

namespace Qubitum.Subtensor
open Outcome Mutation Function

variable {A B X R : Type} [DecidableEq A]

/-! ## Hotkeys -/

namespace RateLimits

def setBlock (l : RateLimits A) (key : RateLimitKey A) (block : Nat) : RateLimits A :=
  { l with lastRateLimitedBlock := update l.lastRateLimitedBlock key block }

/-- Steps 8 to 10 of `do_swap_hotkey`. -/
def copyLastBlocks (l : RateLimits A) (oldHotkey newHotkey : A) : RateLimits A :=
  ((l.setBlock (.lastTxBlock newHotkey) (l.lastRateLimitedBlock (.lastTxBlock oldHotkey))).setBlock
    (.lastTxBlockDelegateTake newHotkey) (l.lastRateLimitedBlock (.lastTxBlockDelegateTake oldHotkey))).setBlock
    (.lastTxBlockChildKeyTake newHotkey) (l.lastRateLimitedBlock (.lastTxBlockChildKeyTake oldHotkey))

/-- Steps 6 to 8 of `perform_hotkey_swap_on_all_subnets`; a removed block reads as 0. -/
def removeLastBlocks (l : RateLimits A) (hotkey : A) : RateLimits A :=
  ((l.setBlock (.lastTxBlock hotkey) 0).setBlock (.lastTxBlockDelegateTake hotkey) 0).setBlock
    (.lastTxBlockChildKeyTake hotkey) 0

/-- `LastHotkeySwapOnNetuid(netuid, coldkey) := block` -/
def setHotkeySwap (l : RateLimits A) (netuid : NetUid) (coldkey : A) (block : Nat) : RateLimits A :=
  { l with
    lastHotkeySwapOnNetuid := update l.lastHotkeySwapOnNetuid netuid
      (update (l.lastHotkeySwapOnNetuid netuid) coldkey block) }
end RateLimits

namespace Neurons

/-- `IsNetworkMember(hotkey, netuid)`, which is false by default -/
def isMember (n : Neurons A) (hotkey : A) (netuid : NetUid) : Bool :=
  (n.isNetworkMember.lookup (hotkey, netuid)).getD false

section
variable (n : Neurons A) (oldHotkey newHotkey : A)

/-- Steps 3.1 and 3.2 of `perform_hotkey_swap_on_one_subnet`. -/
def swapMembership (netuid : NetUid) : Neurons A :=
  let isNetworkMember := n.isMember oldHotkey netuid
  let n := { n with
    isNetworkMember := (n.isNetworkMember.erase (oldHotkey, netuid)).insert (newHotkey, netuid) isNetworkMember }
  -- a hotkey that is not a member has no neuron to hand over
  match isNetworkMember, n.uids netuid oldHotkey with
  | true, some uid =>
      { n with
        uids := update n.uids netuid (update (update (n.uids netuid) oldHotkey none) newHotkey (some uid))
        keys := update n.keys netuid (update (n.keys netuid) uid (some newHotkey)) }
  | _, _ => n

/-- Step 6.4: the coldkeys that stake automatically to the old hotkey. -/
def swapAutoStakeDestination (netuid : NetUid) : Neurons A :=
  match n.autoStakeDestinationColdkeys oldHotkey netuid with
  | none => n
  | some coldkeys =>
      let removed := update n.autoStakeDestinationColdkeys oldHotkey
        (update (n.autoStakeDestinationColdkeys oldHotkey) netuid none)
      { n with
        autoStakeDestination := coldkeys.foldl
          (fun dest c => update dest c (update (dest c) netuid (some newHotkey)))
          n.autoStakeDestination
        -- the list of the new hotkey, if it had one, is overwritten
        autoStakeDestinationColdkeys := update removed newHotkey (update (removed newHotkey) netuid (some coldkeys)) }

/-- Step 7. -/
def swapSubnetOwnerHotkey (netuid : NetUid) : Neurons A :=
  if n.subnetOwnerHotkey netuid = some oldHotkey then
    { n with subnetOwnerHotkey := update n.subnetOwnerHotkey netuid (some newHotkey) }
  else n

/-- Step 9 of `perform_hotkey_swap_on_all_subnets`. -/
def swapDelegate : Neurons A :=
  match n.delegates oldHotkey with
  | none => n
  | some take =>
      { n with delegates := update (update n.delegates oldHotkey none) newHotkey (some take) }
end
end Neurons

variable (cfg : Config A B X R)

def exceedsTxRateLimit (prevTxBlock currentBlock : Nat) : Bool :=
  cfg.txRateLimit ≠ 0 && prevTxBlock ≠ 0 && currentBlock - prevTxBlock ≤ cfg.txRateLimit

/-- `recycle_tao` -/
def State.recycleTao (s : State A B X R) (amount : Nat) : State A B X R :=
  { s with totals := { s.totals with totalIssuance := s.totals.totalIssuance - amount } }

/-- Steps 8 and 9 of `perform_hotkey_swap_on_one_subnet`: the dividend records, the stake and, on root, the
    claims. -/
def State.swapStake (s : State A B X R) (oldHotkey newHotkey : A) (netuid : NetUid) : State A B X R :=
  let rest := cfg.other.moveDividends s.rest oldHotkey newHotkey netuid
  { s with
    stakes := s.stakes.swapHotkey oldHotkey newHotkey netuid
    -- claims of every subnet are earned by stake on root, so they all move with root
    rootClaims := if netuid = NetUid.root then s.rootClaims.swapHotkey oldHotkey newHotkey else s.rootClaims
    rest := if netuid = NetUid.root then cfg.other.moveAutoParentDelegation rest oldHotkey newHotkey else rest }

def performHotkeySwapOnOneSubnet (oldHotkey newHotkey : A) (netuid : NetUid) (keepStake : Bool) : Run A B X R Unit := do
  modify fun s => { s with
    neurons := s.neurons.swapMembership oldHotkey newHotkey netuid
    rest := if s.neurons.isMember oldHotkey netuid then cfg.other.moveNeuronData s.rest oldHotkey newHotkey netuid
      else s.rest }
  let rest ← lift (cfg.other.parentChildSwapHotkey (← get).rest oldHotkey newHotkey netuid)
  modify fun s => { s with
    rest := cfg.other.movePendingChild rest oldHotkey newHotkey netuid
    neurons := (s.neurons.swapAutoStakeDestination oldHotkey newHotkey netuid).swapSubnetOwnerHotkey
      oldHotkey newHotkey netuid }
  if !keepStake then modify fun s => s.swapStake cfg oldHotkey newHotkey netuid

def performHotkeySwapOnAllSubnets (oldHotkey newHotkey coldkey : A) (keepStake : Bool) : Run A B X R Unit := do
  -- read before the loop, which empties the entries of the old hotkey
  let oldAlphaValues := (← get).stakes.alphaIterSinglePrefix oldHotkey
  modify fun s => { s with ownership := s.ownership.swapHotkey oldHotkey newHotkey coldkey }
  (← get).pools.allSubnetNetuids.forM fun netuid =>
    performHotkeySwapOnOneSubnet cfg oldHotkey newHotkey netuid keepStake
  modify fun s => { s with
    limits := s.limits.removeLastBlocks oldHotkey
    neurons := s.neurons.swapDelegate oldHotkey newHotkey
    stakes := if keepStake then s.stakes else s.stakes.renameStakingHotkeys oldHotkey newHotkey oldAlphaValues }

/-- Pay for a key swap: the cost is withdrawn and recycled. -/
def paySwapCost (coldkey : A) (swapCost : Nat) : Run A B X R Unit := do
  lift (ensure (canRemoveBalanceFromColdkeyAccount cfg (← get) coldkey swapCost) .notEnoughBalanceToPaySwapHotKey)
  let actualRecycleAmount ← removeBalanceFromColdkeyAccount cfg coldkey swapCost
  modify fun s => s.recycleTao actualRecycleAmount

/-- The old hotkey keeps its owner. -/
def swapHotkeyOnSubnet (coldkey oldHotkey newHotkey : A) (netuid : NetUid) (keepStake : Bool) : Run A B X R Unit := do
  let s ← get
  lift (ensure (s.limits.lastHotkeySwapOnNetuid netuid coldkey + cfg.hotkeySwapOnSubnetInterval < s.block)
    .hotKeySwapOnSubnetIntervalNotPassed)
  lift (ensure (!s.neurons.isHotkeyRegisteredOnSpecificNetwork newHotkey netuid) .hotKeyAlreadyRegisteredInSubNet)
  paySwapCost cfg coldkey cfg.keySwapOnSubnetCost
  -- nobody asks whose hotkey the new one was
  modify fun s => { s with ownership := s.ownership.assign coldkey newHotkey }
  performHotkeySwapOnOneSubnet cfg oldHotkey newHotkey netuid keepStake
  modify fun s => { s with
    limits := (s.limits.setBlock (.lastTxBlock coldkey) s.block).setHotkeySwap netuid coldkey s.block }

/-- Step 7 of `do_swap_hotkey`. -/
def ensureNewHotkeyNotRegistered (s : State A B X R) (newHotkey : A) : Option NetUid → Except DispatchError Unit
  | some netuid =>
      ensure (!s.neurons.isHotkeyRegisteredOnSpecificNetwork newHotkey netuid) .hotKeyAlreadyRegisteredInSubNet
  | none => ensure (!s.neurons.isHotkeyRegisteredOnAnyNetwork newHotkey) .hotKeyAlreadyRegisteredInSubNet

/-- Step 7.2: a swap that touches root needs a new hotkey that is clean on root. -/
def ensureNewHotkeyCleanOnRoot (s : State A B X R) (newHotkey : A) (netuid : Option NetUid) :
    Except DispatchError Unit :=
  let touchesRoot := match netuid with
    | none   => true
    | some n => n = NetUid.root
  if touchesRoot then
    ensure ((s.rootClaims.rootClaimable newHotkey).entries = [] ∧
      s.stakes.totalHotkeyAlpha newHotkey NetUid.root = 0) .newHotKeyNotCleanForRootSwap
  else .ok ()

def doSwapHotkey (origin : Origin A) (oldHotkey newHotkey : A) (netuid : Option NetUid) (keepStake : Bool) :
    Run A B X R Unit := do
  let coldkey ← lift (ensureSigned origin)
  let s ← get
  lift (ensure (s.ownership.coldkeyOwnsHotkey coldkey oldHotkey) .nonAssociatedColdKey)
  lift (ensure (oldHotkey ≠ newHotkey) .newHotKeyIsSameWithOld)
  lift (ensure (!exceedsTxRateLimit cfg (s.limits.lastRateLimitedBlock (.lastTxBlock coldkey)) s.block)
    .hotKeySetTxRateLimitExceeded)
  lift (ensureNewHotkeyNotRegistered s newHotkey netuid)
  lift (ensureNewHotkeyCleanOnRoot s newHotkey netuid)
  modify fun s => { s with limits := s.limits.copyLastBlocks oldHotkey newHotkey }
  match netuid with
  | some netuid => swapHotkeyOnSubnet cfg coldkey oldHotkey newHotkey netuid keepStake
  | none =>
      paySwapCost cfg coldkey cfg.keySwapCost
      performHotkeySwapOnAllSubnets cfg oldHotkey newHotkey coldkey keepStake
      modify fun s => { s with limits := s.limits.setBlock (.lastTxBlock coldkey) s.block }

/-! ## Coldkeys -/

namespace Neurons

def transferSubnetOwnership (n : Neurons A) (netuid : NetUid) (oldColdkey newColdkey : A) : Neurons A :=
  if n.subnetOwner netuid = oldColdkey then
    { n with subnetOwner := update n.subnetOwner netuid newColdkey }
  else n

def transferAutoStakeDestination (n : Neurons A) (netuid : NetUid) (oldColdkey newColdkey : A) : Neurons A :=
  match n.autoStakeDestination oldColdkey netuid with
  | none => n
  | some hotkey =>
      let removed := update n.autoStakeDestination oldColdkey (update (n.autoStakeDestination oldColdkey) netuid none)
      let coldkeys := (n.autoStakeDestinationColdkeys hotkey netuid).getD []
      { n with
        autoStakeDestination := update removed newColdkey (update (removed newColdkey) netuid (some hotkey))
        autoStakeDestinationColdkeys := update n.autoStakeDestinationColdkeys hotkey
          (update (n.autoStakeDestinationColdkeys hotkey) netuid
            (some ((coldkeys.filter fun c => c ≠ oldColdkey ∧ c ≠ newColdkey) ++ [newColdkey]))) }
end Neurons

/-- The loop body of `transfer_coldkey_stake`: what is claimed follows the stake of the *same* subnet. -/
def State.transferHotkeyStake (s : State A B X R) (netuid : NetUid) (oldColdkey newColdkey hotkey : A) :
    State A B X R :=
  let stakes := s.stakes.move hotkey oldColdkey hotkey newColdkey netuid
  let rootClaims :=
    if stakes.stake hotkey newColdkey netuid ≠ 0 then
      let moved := s.rootClaims.transferClaimed netuid hotkey hotkey oldColdkey newColdkey
      if netuid = NetUid.root then moved.maybeAddColdkeyIndex newColdkey else moved
    else s.rootClaims
  { s with stakes, rootClaims }

def State.transferColdkeyStake (s : State A B X R) (netuid : NetUid) (oldColdkey newColdkey : A) :
    State A B X R :=
  (s.stakes.stakingHotkeys oldColdkey).foldl (·.transferHotkeyStake netuid oldColdkey newColdkey ·) s

/-- The body of the loop over the subnets in `do_swap_coldkey`. -/
def State.swapColdkeyOnSubnet (s : State A B X R) (oldColdkey newColdkey : A) (netuid : NetUid) : State A B X R :=
  let neurons := (s.neurons.transferSubnetOwnership netuid oldColdkey newColdkey).transferAutoStakeDestination
    netuid oldColdkey newColdkey
  { s with neurons }.transferColdkeyStake netuid oldColdkey newColdkey

def doSwapColdkey (oldColdkey newColdkey : A) : Run A B X R Unit := do
  let s ← get
  lift (ensure (s.stakes.stakingHotkeys newColdkey = []) .coldKeyAlreadyAssociated)
  lift (ensure (!s.ownership.hotkeyAccountExists newColdkey) .newColdKeyIsHotkey)
  modify fun s => { s with rest := cfg.other.moveIdentity s.rest oldColdkey newColdkey }
  modify fun s => s.pools.allSubnetNetuids.foldl (·.swapColdkeyOnSubnet oldColdkey newColdkey ·) s
  -- the loop reads the list of the old coldkey, which is handed over only now
  modify fun s => { s with
    stakes := s.stakes.transferStakingHotkeys oldColdkey newColdkey
    ownership := s.ownership.transferHotkeysOwnership oldColdkey newColdkey }
  let remainingBalance := cfg.currency.reducibleBalance (← get).ledger oldColdkey
  if remainingBalance ≠ 0 then
    let _ ← killColdkeyAccount cfg oldColdkey remainingBalance
    modify fun s => addBalanceToColdkeyAccount cfg s newColdkey remainingBalance
  modify fun s => { s with limits := s.limits.setBlock (.lastTxBlock newColdkey) s.block }
end Qubitum.Subtensor
