import Qubitum.Lib.Scan
import Qubitum.Shield.KeyRotation

/-!
# `Runtime.Calls` — the calls of the runtime that carry calls

A `RuntimeCall` of the runtime can carry further calls: the wrappers of the utility, proxy, sudo and multisig
pallets dispatch their arguments at once, the scheduler keeps its argument for a later block, a crowdloan
keeps the call it will dispatch when it is finalized, and a noted preimage is a byte string that may be the
encoding of a call.

Only the arguments that some scanner or dispatch reads are kept; a call that carries none and is of no
interest to them is `other`.
-/

namespace Qubitum
open Scale Scan

/-! ## The pallets -/

section Pallets
variable (A C : Type)

inductive UtilityCall where
  | batch (calls : List C)
  | asDerivative (index : UInt16) (call : C)
  | batchAll (calls : List C)
  | dispatchAs (asOrigin : Origin A) (call : C)
  | forceBatch (calls : List C)
  | withWeight (call : C)
  | ifElse (main fallback : C)
  | dispatchAsFallible (asOrigin : Origin A) (call : C)

inductive ProxyCall where
  | proxy (real : A) (call : C)
  | proxyAnnounced (delegate real : A) (call : C)
  | other

-- `sudo` is a keyword of Lean
inductive SudoCall where
  | sudoCall (call : C)
  | sudoUncheckedWeight (call : C)
  | sudoAs (who : A) (call : C)
  | other

inductive MultisigCall where
  | asMultiThreshold1 (otherSignatories : List A) (call : C)
  | asMulti (threshold : UInt16) (otherSignatories : List A) (call : C)
  | other

inductive SchedulerCall where
  | schedule (call : C)
  | scheduleNamed (call : C)
  | scheduleAfter (call : C)
  | scheduleNamedAfter (call : C)
  | other

inductive PreimageCall where
  | notePreimage (bytes : Bytes)
  | other

inductive CrowdloanCall where
  | create (call : Option C)
  | other

inductive SubtensorCall where
  | announceColdkeySwap (newColdkeyHash : Bytes)
  | swapColdkeyAnnounced (newColdkey : A)
  | disputeColdkeySwap
  | clearColdkeySwapAnnouncement
  | resetColdkeySwap (coldkey : A)
  | swapColdkey (oldColdkey newColdkey : A) (swapCost : Nat)
  | other
end Pallets

/-- The runtime's calls, for accounts `A` and Qubitum calls `Q`. -/
inductive RuntimeCall (A Q : Type) where
  | utility (inner : UtilityCall A (RuntimeCall A Q))
  | sudoPallet (inner : SudoCall A (RuntimeCall A Q))
  | multisig (inner : MultisigCall A (RuntimeCall A Q))
  | preimage (inner : PreimageCall)
  | scheduler (inner : SchedulerCall (RuntimeCall A Q))
  | proxy (inner : ProxyCall A (RuntimeCall A Q))
  | crowdloan (inner : CrowdloanCall (RuntimeCall A Q))
  | mevShield (inner : Shield.Call)
  | subtensorModule (inner : SubtensorCall A)
  | qubitum (inner : Q)
  | other

namespace RuntimeCall
variable {A Q : Type}

/-! ## What a call carries -/

/-- The arguments dispatched at once, with the origin of the caller. -/
inductive Batches : RuntimeCall A Q → RuntimeCall A Q → Prop where
  | batch {calls call} : call ∈ calls → Batches (.utility (.batch calls)) call
  | batchAll {calls call} : call ∈ calls → Batches (.utility (.batchAll calls)) call
  | forceBatch {calls call} : call ∈ calls → Batches (.utility (.forceBatch calls)) call
  | main {main fallback} : Batches (.utility (.ifElse main fallback)) main
  | fallback {main fallback} : Batches (.utility (.ifElse main fallback)) fallback

/-- The arguments dispatched at once, with an origin that the wrapper chooses. -/
inductive Reroutes : RuntimeCall A Q → RuntimeCall A Q → Prop where
  | asDerivative {index call} : Reroutes (.utility (.asDerivative index call)) call
  | dispatchAs {asOrigin call} : Reroutes (.utility (.dispatchAs asOrigin call)) call
  | withWeight {call} : Reroutes (.utility (.withWeight call)) call
  | dispatchAsFallible {asOrigin call} : Reroutes (.utility (.dispatchAsFallible asOrigin call)) call
  | proxy {real call} : Reroutes (.proxy (.proxy real call)) call
  | proxyAnnounced {delegate real call} : Reroutes (.proxy (.proxyAnnounced delegate real call)) call
  | sudoCall {call} : Reroutes (.sudoPallet (.sudoCall call)) call
  | sudoUncheckedWeight {call} : Reroutes (.sudoPallet (.sudoUncheckedWeight call)) call
  | sudoAs {who call} : Reroutes (.sudoPallet (.sudoAs who call)) call
  | asMultiThreshold1 {otherSignatories call} : Reroutes (.multisig (.asMultiThreshold1 otherSignatories call)) call
  | asMulti {threshold otherSignatories call} : Reroutes (.multisig (.asMulti threshold otherSignatories call)) call

/-- The argument kept for a later block. -/
inductive Schedules : RuntimeCall A Q → RuntimeCall A Q → Prop where
  | schedule {call} : Schedules (.scheduler (.schedule call)) call
  | scheduleNamed {call} : Schedules (.scheduler (.scheduleNamed call)) call
  | scheduleAfter {call} : Schedules (.scheduler (.scheduleAfter call)) call
  | scheduleNamedAfter {call} : Schedules (.scheduler (.scheduleNamedAfter call)) call

/-- The call a new crowdloan is to dispatch. -/
inductive Pledges : RuntimeCall A Q → RuntimeCall A Q → Prop where
  | create {call} : Pledges (.crowdloan (.create (some call))) call

/-- The call in front of the bytes noted as a preimage, nested at most `limit` deep. -/
inductive Notes (decoder : DepthDecoder (RuntimeCall A Q)) (limit : Nat) :
    RuntimeCall A Q → RuntimeCall A Q → Prop where
  | notePreimage {bytes call} : decoder.Finds limit bytes call →
      Notes decoder limit (.preimage (.notePreimage bytes)) call

/-! ## What a call is -/

def isQubitum : RuntimeCall A Q → Bool
  | .qubitum _ => true
  | _          => false

/-- A Qubitum call, or ciphertext for the shield queue outside the wrapper made for it. -/
def isPrivate : RuntimeCall A Q → Bool
  | .qubitum _                   => true
  | .mevShield (.storeEncrypted _) => true
  | _                            => false

/-- A call that feeds the shield pool or its queue. -/
def isShieldSubmission : RuntimeCall A Q → Bool
  | .mevShield (.submitEncrypted _) | .mevShield (.storeEncrypted _) => true
  | _ => false
end RuntimeCall
end Qubitum
