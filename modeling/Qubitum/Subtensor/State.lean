import Mathlib.Algebra.BigOperators.Fin
import Mathlib.Data.List.AList
import Qubitum.Lib.Fixed
import Qubitum.Lib.Mutation
import Qubitum.Pallet.Types

/-!
# `Subtensor.State` — storage and configuration of the staking pallet

Accounts `A`, the currency's ledger `B` and the storage `X` of the swap pallet stay abstract, and so does
`R`: the data attached to neurons and to child keys, which the functions modelled here move from one key to
another but never read.

Amounts of TAO and of alpha are natural numbers: `saturating_add` is `+`, which is what it is as long as no
sum leaves `u64`, and `saturating_sub` is the truncated `-`. The share pool of a hotkey on a subnet is an
exact ledger: `alpha` has what each coldkey has staked, and an entry that becomes zero is removed.

Storage that is iterated over is a list of entries with distinct keys. The chain goes through it in the order
of the hashed keys; no function here depends on the order.
-/

namespace Qubitum.Subtensor
open Fixed Function

/-- A subnet; `NetUid::ROOT` is the root network. -/
abbrev NetUid := UInt16

abbrev NetUid.root : NetUid := 0

/-- A storage map that is iterated over. -/
abbrev StorageMap (K V : Type) := AList fun _ : K => V

/-- The errors of the functions modelled here. `other` stands for the errors of the swap pallet and of the
    child-key storage. -/
inductive DispatchError where
  | badOrigin
  | nonAssociatedColdKey
  | newHotKeyIsSameWithOld
  | hotKeySetTxRateLimitExceeded
  | hotKeyAlreadyRegisteredInSubNet
  | newHotKeyNotCleanForRootSwap
  | notEnoughBalanceToPaySwapHotKey
  | hotKeySwapOnSubnetIntervalNotPassed
  | coldKeyAlreadyAssociated
  | newColdKeyIsHotkey
  | balanceWithdrawalError
  | zeroBalanceAfterWithdrawn
  | amountTooLow
  | insufficientLiquidity
  | subnetNotExists
  | subtokenDisabled
  | slippageTooHigh
  | notEnoughBalanceToStake
  | hotKeyAccountNotExists
  | stakingOperationRateLimitExceeded
  | notEnoughStakeToWithdraw
  | zeroMaxStakeAmount
  | sameNetuid
  | transferDisallowed
  | registrationNotPermittedOnRootSubnet
  | rootNetworkDoesNotExist
  | tooManyRegistrationsThisBlock
  | tooManyRegistrationsThisInterval
  | stakeTooLowForRoot
  | subNetRegistrationDisabled
  | noNeuronIdAvailable
  | txRateLimitExceeded
  | duplicateChild
  | invalidChild
  | tooManyChildren
  | proportionOverflow
  | childParentInconsistency
  | notEnoughStakeToSetChildkeys
  | leaseDoesNotExist
  | expectedBeneficiaryOrigin
  | leaseHasNoEndBlock
  | leaseHasNotEnded
  | beneficiaryDoesNotOwnHotkey
  | invalidValue
  | trimmingWouldExceedMaxImmunePercentage
  | mechanismDoesNotExist
  | commitRevealDisabled
  | hotKeyNotRegisteredInSubNet
  | committingWeightsTooFast
  | tooManyUnrevealedCommits
  | noWeightsCommitFound
  | expiredWeightCommit
  | revealTooEarly
  | invalidRevealCommitHashNotMatch
  | inputLengthsUnequal
  | canNotSetRootNetworkWeights
  | weightVecNotEqualSize
  | uidsLengthExceedUidsInSubNet
  | notEnoughStakeToSetWeights
  | incorrectWeightVersionKey
  | settingWeightsTooFast
  | neuronNoValidatorPermit
  | duplicateUids
  | uidVecContainInvalidOne
  | weightVecLengthIsLow
  | maxWeightExceeded
  | cannotBurnOrRecycleOnRootSubnet
  | other (code : UInt8)
  deriving DecidableEq, Repr

/-! ## Storage -/

/-- Which coldkey a hotkey belongs to, and the hotkeys of a coldkey. -/
structure Ownership (A : Type) where
  owner : A → Option A
  ownedHotkeys : A → List A

/-- What coldkeys have staked: keys of `alpha` are hotkey, coldkey and subnet. -/
structure Stakes (A : Type) where
  stakingHotkeys : A → List A
  alpha : StorageMap (A × A × NetUid) Nat
  totalHotkeyAlpha : A → NetUid → Nat

/-- Dividends of root stake: what a hotkey's stakers can claim for each unit of root stake, and what each of
    them has claimed. Keys of `rootClaimed` are subnet, hotkey and coldkey. -/
structure RootClaims (A : Type) where
  rootClaimable : A → StorageMap NetUid I96F32
  rootClaimed : StorageMap (NetUid × A × A) Nat
  stakingColdkeys : A → Option Nat
  stakingColdkeysByIndex : Nat → Option A
  numStakingColdkeys : Nat

/-- The subnets and their pools. -/
structure Pools where
  networksAdded : StorageMap NetUid Bool
  subnetMechanism : NetUid → UInt16
  subnetTao : NetUid → Nat
  subnetTaoProvided : NetUid → Nat
  subnetAlphaIn : NetUid → Nat
  subnetAlphaInProvided : NetUid → Nat
  subnetAlphaOut : NetUid → Nat
  subnetVolume : NetUid → Nat
  subnetTaoFlow : NetUid → Int

structure Totals where
  totalStake : Nat
  totalIssuance : Nat

/-- The neurons of the subnets and what else is stored under a hotkey or a subnet's owner. -/
structure Neurons (A : Type) where
  isNetworkMember : StorageMap (A × NetUid) Bool
  uids : NetUid → A → Option UInt16
  keys : NetUid → UInt16 → Option A
  subnetworkN : NetUid → UInt16
  subnetOwner : NetUid → A
  subnetOwnerHotkey : NetUid → Option A
  autoStakeDestination : A → NetUid → Option A
  autoStakeDestinationColdkeys : A → NetUid → Option (List A)
  delegates : A → Option UInt16

inductive RateLimitKey (A : Type) where
  | lastTxBlock (key : A)
  | lastTxBlockDelegateTake (key : A)
  | lastTxBlockChildKeyTake (key : A)
  deriving DecidableEq

/-- Block numbers that limit how often something may be done; a key that is absent is at block 0. -/
structure RateLimits (A : Type) where
  lastRateLimitedBlock : RateLimitKey A → Nat
  lastHotkeySwapOnNetuid : NetUid → A → Nat
  stakingOperationRateLimiter : A → A → NetUid → Bool
  lastColdkeyHotkeyStakeBlock : A → A → Option Nat

/-- Storage of the pallet, with the ledger, the swap pallet's storage, the block number and the block's
    author. -/
structure State (A B X R : Type) where
  ownership : Ownership A
  stakes : Stakes A
  rootClaims : RootClaims A
  pools : Pools
  totals : Totals
  neurons : Neurons A
  limits : RateLimits A
  ledger : B
  swap : X
  rest : R
  block : Nat
  author : Option A

/-- A function of the pallet: what it has written when it returns an error stays written, until the call it
    is part of is rolled back. -/
abbrev Run (A B X R : Type) := EStateM DispatchError (State A B X R)

/-! ## Configuration -/

/-- The currency (`Inspect + Balanced`) over an opaque ledger. -/
structure Currency (A B : Type) where
  totalIssuance : B → Nat
  /-- `reducible_balance(who, Expendable, Polite)` -/
  reducibleBalance : B → A → Nat
  /-- `can_withdraw(who, amount).into_result(false).is_ok()` -/
  canWithdraw : B → A → Nat → Bool
  /-- `deposit(who, amount, BestEffort)`, its result dropped -/
  deposit : B → A → Nat → B
  /-- `withdraw(who, amount, BestEffort, Preserve, Polite)`, with the credit -/
  withdraw : B → A → Nat → Except Unit (Nat × B)
  /-- `withdraw(who, amount, Exact, Expendable, Force)`, with the credit -/
  withdrawForced : B → A → Nat → Except Unit (Nat × B)

/-- An exact ledger: a deposit creates what it is given, a dropped credit destroys what was withdrawn. -/
structure Currency.Exact {A B : Type} (c : Currency A B) : Prop where
  deposit : ∀ l who amount, c.totalIssuance (c.deposit l who amount) = c.totalIssuance l + amount
  withdraw : ∀ {l l' who amount credit}, c.withdraw l who amount = .ok (credit, l') →
    c.totalIssuance l' + credit = c.totalIssuance l
  withdrawForced : ∀ {l l' who amount credit}, c.withdrawForced l who amount = .ok (credit, l') →
    c.totalIssuance l' + credit = c.totalIssuance l

/-- What a swap took and gave. The fees are in the token that was paid in. -/
structure SwapResult where
  amountPaidIn : Nat
  amountPaidOut : Nat
  feePaid : Nat
  feeToBlockAuthor : Nat
  deriving DecidableEq, Repr

namespace SwapResult

/-- `paid_in_reserve_delta_i64().unsigned_abs()` -/
def paidInReserveDelta (r : SwapResult) : Nat := min r.amountPaidIn (2 ^ 63 - 1)

/-- `paid_out_reserve_delta_i64().unsigned_abs()` -/
def paidOutReserveDelta (r : SwapResult) : Nat := min r.amountPaidOut (2 ^ 63)

/-- The result on a subnet with the stable mechanism: one for one, without fees. -/
def stable (amount : Nat) : SwapResult := ⟨amount, amount, 0, 0⟩
end SwapResult

inductive Order where
  | getAlphaForTao (tao : Nat)
  | getTaoForAlpha (alpha : Nat)
  deriving DecidableEq, Repr

/-- The swap pallet. It reads the reserves of the subnets and writes its own storage, also when it returns an
    error. -/
structure SwapInterface (X : Type) where
  /-- `swap(netuid, order, price_limit, drop_fees, should_rollback)` -/
  swap : X → Pools → NetUid → Order → Nat → Bool → Bool → Except DispatchError SwapResult × X
  simSwap : X → Pools → NetUid → Order → Except DispatchError SwapResult
  approxFeeAmount : X → Pools → NetUid → Nat → Nat
  currentAlphaPrice : X → Pools → NetUid → U96F32
  minPrice : Nat
  maxPrice : Nat
  adjustProtocolLiquidity : X → Pools → NetUid → Nat → Nat → X

/-- The storage that is only moved or cleared here, and the hyperparameters kept with it. -/
structure OtherStorage (A R : Type) where
  /-- `Prometheus`, `Axons`, `WeightCommits`, `LoadedEmission` and `NeuronCertificates` of a hotkey -/
  moveNeuronData : R → A → A → NetUid → R
  parentChildSwapHotkey : R → A → A → NetUid → Except DispatchError R
  /-- the hotkey as a pending child of others -/
  movePendingChild : R → A → A → NetUid → R
  /-- `TotalHotkeyAlphaLastEpoch`, `AlphaDividendsPerSubnet` and `VotingPower` of a hotkey -/
  moveDividends : R → A → A → NetUid → R
  /-- `AutoParentDelegationEnabled` -/
  moveAutoParentDelegation : R → A → A → R
  /-- `IdentitiesV2` -/
  moveIdentity : R → A → A → R
  /-- `PendingChildKeys(netuid, hotkey)` -/
  removePendingChildren : R → A → NetUid → R
  networkRegistrationAllowed : R → NetUid → Bool
  burn : R → NetUid → Nat
  maxAllowedUids : R → NetUid → UInt16
  /-- `get_neuron_to_prune` at a block -/
  neuronToPrune : R → Ownership A → Neurons A → NetUid → Nat → Option UInt16
  /-- the per-neuron vectors when a neuron is appended -/
  appendNeuronData : R → NetUid → UInt16 → Nat → R
  /-- the per-neuron data when a neuron is replaced -/
  replaceNeuronData : R → NetUid → UInt16 → A → Nat → R
  /-- `bump_registration_price_after_registration`, `RegistrationsThisBlock`, `increase_rao_recycled` -/
  countRegistration : R → NetUid → Nat → R

/-- The runtime's configuration of the pallet and the parameters that only the administration sets. -/
structure Config (A B X R : Type) where
  currency : Currency A B
  swapInterface : SwapInterface X
  other : OtherStorage A R
  /-- `sim_update_value_for_one`: whether a pool with this total is precise enough for an addition -/
  simUpdateValueForOne : Nat → Nat → Bool
  txRateLimit : Nat
  keySwapCost : Nat
  keySwapOnSubnetCost : Nat
  hotkeySwapOnSubnetInterval : Nat
  subtokenEnabled : NetUid → Bool
  transferToggle : NetUid → Bool
  nominatorMinRequiredStake : Nat
  stakeThreshold : Nat
  defaultDelegateTake : UInt16

/-- Storage that the other calls neither read nor write. -/
def OtherStorage.beside {A R : Type} (Q : Type) (o : OtherStorage A R) : OtherStorage A (Q × R) where
  moveNeuronData r oldHotkey newHotkey netuid := (r.1, o.moveNeuronData r.2 oldHotkey newHotkey netuid)
  parentChildSwapHotkey r oldHotkey newHotkey netuid :=
    (o.parentChildSwapHotkey r.2 oldHotkey newHotkey netuid).map fun q => (r.1, q)
  movePendingChild r oldHotkey newHotkey netuid := (r.1, o.movePendingChild r.2 oldHotkey newHotkey netuid)
  moveDividends r oldHotkey newHotkey netuid := (r.1, o.moveDividends r.2 oldHotkey newHotkey netuid)
  moveAutoParentDelegation r oldHotkey newHotkey := (r.1, o.moveAutoParentDelegation r.2 oldHotkey newHotkey)
  moveIdentity r oldColdkey newColdkey := (r.1, o.moveIdentity r.2 oldColdkey newColdkey)
  removePendingChildren r hotkey netuid := (r.1, o.removePendingChildren r.2 hotkey netuid)
  networkRegistrationAllowed r netuid := o.networkRegistrationAllowed r.2 netuid
  burn r netuid := o.burn r.2 netuid
  maxAllowedUids r netuid := o.maxAllowedUids r.2 netuid
  neuronToPrune r ownership neurons netuid block := o.neuronToPrune r.2 ownership neurons netuid block
  appendNeuronData r netuid uid block := (r.1, o.appendNeuronData r.2 netuid uid block)
  replaceNeuronData r netuid uid hotkey block := (r.1, o.replaceNeuronData r.2 netuid uid hotkey block)
  countRegistration r netuid cost := (r.1, o.countRegistration r.2 netuid cost)

def Config.beside {A B X R : Type} (Q : Type) (cfg : Config A B X R) : Config A B X (Q × R) :=
  { cfg with other := cfg.other.beside Q }

/-- `DefaultMinStake` -/
def defaultMinStake : Nat := 2000000

/-! ## Reading storage -/

variable {A : Type}

section
variable [DecidableEq A]

/-- `StorageMap::get` of a map whose default is zero. -/
def StorageMap.getD {K : Type} [DecidableEq K] (m : StorageMap K Nat) (k : K) : Nat := (m.lookup k).getD 0

/-- `get_stake_for_hotkey_and_coldkey_on_subnet` -/
def Stakes.stake (st : Stakes A) (hotkey coldkey : A) (netuid : NetUid) : Nat :=
  StorageMap.getD st.alpha (hotkey, coldkey, netuid)

/-- The value of `RootClaimed` for a subnet, a hotkey and a coldkey. -/
def RootClaims.claimed (rc : RootClaims A) (netuid : NetUid) (hotkey coldkey : A) : Nat :=
  StorageMap.getD rc.rootClaimed (netuid, hotkey, coldkey)
end

namespace Ownership

def hotkeyAccountExists (o : Ownership A) (hotkey : A) : Bool := (o.owner hotkey).isSome

def coldkeyOwnsHotkey [DecidableEq A] (o : Ownership A) (coldkey hotkey : A) : Bool := o.owner hotkey = some coldkey
end Ownership

namespace Pools

/-- `get_all_subnet_netuids`: every key of `NetworksAdded`, whatever its value. -/
def allSubnetNetuids (p : Pools) : List NetUid := p.networksAdded.keys

def ifSubnetExist (p : Pools) (netuid : NetUid) : Bool := (p.networksAdded.lookup netuid).getD false
end Pools

namespace Neurons

/-- `IsNetworkMember::contains_key`: an entry `false` counts. -/
def isHotkeyRegisteredOnSpecificNetwork [DecidableEq A] (n : Neurons A) (hotkey : A) (netuid : NetUid) : Bool :=
  (n.isNetworkMember.lookup (hotkey, netuid)).isSome

/-- An entry `true` of `IsNetworkMember` under the hotkey. -/
def isHotkeyRegisteredOnAnyNetwork [DecidableEq A] (n : Neurons A) (hotkey : A) : Bool :=
  n.isNetworkMember.entries.any fun e => e.1.1 = hotkey && e.2
end Neurons

def ensureSigned : Origin A → Except DispatchError A
  | .signed who => .ok who
  | _           => .error .badOrigin

/-! ## A small runtime -/

namespace Sample

abbrev Account := Fin 4

instance account_neZero : NeZero 4 := ⟨by decide⟩

/-- One balance for each account. -/
def currency : Currency Account (Account → Nat) where
  totalIssuance l := ∑ who, l who
  reducibleBalance l who := l who
  canWithdraw l who amount := amount ≤ l who
  deposit l who amount := update l who (l who + amount)
  withdraw l who amount :=
    if min amount (l who) = 0 then .error ()
    else .ok (min amount (l who), update l who (l who - min amount (l who)))
  withdrawForced l who amount :=
    if amount ≤ l who then .ok (amount, update l who (l who - amount)) else .error ()

theorem sum_update_add (l : Account → Nat) (who : Account) (value : Nat) :
    (∑ x, update l who value x) + l who = (∑ x, l x) + value := by
  rw [Finset.sum_update_of_mem (Finset.mem_univ who), ← Finset.add_sum_erase _ l (Finset.mem_univ who),
    Finset.sdiff_singleton_eq_erase]
  omega

theorem currency_exact : currency.Exact where
  deposit l who amount := by
    have hsum := sum_update_add l who (l who + amount)
    show (∑ x, update l who (l who + amount) x) = (∑ x, l x) + amount
    omega
  withdraw := by
    intro l l' who amount credit h
    simp only [currency] at h ⊢
    split_ifs at h
    obtain ⟨rfl, rfl⟩ := by simpa using h
    have hsum := sum_update_add l who (l who - min amount (l who))
    omega
  withdrawForced := by
    intro l l' who amount credit h
    simp only [currency] at h ⊢
    split_ifs at h
    obtain ⟨rfl, rfl⟩ := by simpa using h
    have hsum := sum_update_add l who (l who - amount)
    omega

/-- One for one, with a fee of one in a hundred that goes to the block's author. -/
def swapResult (amount : Nat) (dropFees : Bool) : SwapResult :=
  let fee := if dropFees then 0 else amount / 100
  ⟨amount - fee, amount - fee, fee, fee⟩

def orderAmount : Order → Nat
  | .getAlphaForTao tao   => tao
  | .getTaoForAlpha alpha => alpha

def swapInterface : SwapInterface Unit where
  swap _ _ _ order _ dropFees _ := (.ok (swapResult (orderAmount order) dropFees), ())
  simSwap _ _ _ order := .ok (swapResult (orderAmount order) false)
  approxFeeAmount _ _ _ amount := amount / 100
  currentAlphaPrice _ _ _ := UFixed.ofNat 1
  minPrice := 0
  maxPrice := 2 ^ 64 - 1
  adjustProtocolLiquidity _ _ _ _ _ := ()

def other : OtherStorage Account Unit where
  moveNeuronData _ _ _ _ := ()
  parentChildSwapHotkey _ _ _ _ := .ok ()
  movePendingChild _ _ _ _ := ()
  moveDividends _ _ _ _ := ()
  moveAutoParentDelegation _ _ _ := ()
  moveIdentity _ _ _ := ()
  removePendingChildren _ _ _ := ()
  networkRegistrationAllowed _ _ := true
  burn _ _ := 10
  maxAllowedUids _ _ := 8
  neuronToPrune _ _ _ _ _ := none
  appendNeuronData _ _ _ _ := ()
  replaceNeuronData _ _ _ _ _ := ()
  countRegistration _ _ _ := ()

def config : Config Account (Account → Nat) Unit Unit where
  currency := currency
  swapInterface := swapInterface
  other := other
  simUpdateValueForOne _ _ := true
  txRateLimit := 0
  keySwapCost := 1
  keySwapOnSubnetCost := 1
  hotkeySwapOnSubnetInterval := 0
  subtokenEnabled _ := true
  transferToggle _ := true
  nominatorMinRequiredStake := 0
  stakeThreshold := 0
  defaultDelegateTake := 0

/-- Root and one subnet, nobody staked, every account with a balance. -/
def fresh : State Account (Account → Nat) Unit Unit where
  ownership := { owner := fun _ => none, ownedHotkeys := fun _ => [] }
  stakes := { stakingHotkeys := fun _ => [], alpha := ∅, totalHotkeyAlpha := fun _ _ => 0 }
  rootClaims :=
    { rootClaimable := fun _ => ∅, rootClaimed := ∅, stakingColdkeys := fun _ => none
      stakingColdkeysByIndex := fun _ => none, numStakingColdkeys := 0 }
  pools :=
    { networksAdded := (AList.insert 0 true ∅).insert 1 true, subnetMechanism := fun n => if n = 0 then 0 else 1
      subnetTao := fun _ => 1000000000, subnetTaoProvided := fun _ => 0, subnetAlphaIn := fun _ => 1000000000
      subnetAlphaInProvided := fun _ => 0, subnetAlphaOut := fun _ => 0, subnetVolume := fun _ => 0
      subnetTaoFlow := fun _ => 0 }
  totals := { totalStake := 0, totalIssuance := 40000000 }
  neurons :=
    { isNetworkMember := ∅, uids := fun _ _ => none, keys := fun _ _ => none, subnetworkN := fun _ => 0
      subnetOwner := fun _ => 0, subnetOwnerHotkey := fun _ => none, autoStakeDestination := fun _ _ => none
      autoStakeDestinationColdkeys := fun _ _ => none, delegates := fun _ => none }
  limits :=
    { lastRateLimitedBlock := fun _ => 0, lastHotkeySwapOnNetuid := fun _ _ => 0
      stakingOperationRateLimiter := fun _ _ _ => false, lastColdkeyHotkeyStakeBlock := fun _ _ => none }
  ledger := fun _ => 10000000
  swap := ()
  rest := ()
  block := 1
  author := some 3
end Sample
end Qubitum.Subtensor
