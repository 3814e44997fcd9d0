import Qubitum.Drand.Pulses
import Qubitum.Migration.Preservation
import Qubitum.Pallet.Capacity
import Qubitum.Pallet.Isolation
import Qubitum.Pallet.Slashing
import Qubitum.Primitives.SquareRoot
import Qubitum.Protocol.Records
import Qubitum.Runtime.ColdkeySwap
import Qubitum.Shield.QueueLimits
import Qubitum.Subtensor.BlockEmission
import Qubitum.Subtensor.CommitSwap
import Qubitum.Subtensor.Delegation
import Qubitum.Subtensor.EmissionBound
import Qubitum.Subtensor.Leasing
import Qubitum.Subtensor.PotPayout
import Qubitum.Subtensor.Reachability
import Qubitum.Subtensor.RevealOrder
import Qubitum.Subtensor.RootClaimBound
import Qubitum.Subtensor.Transitions
import Qubitum.Swap.TickLiquidity
import Qubitum.Swap.Amounts
import Qubitum.TransactionFee.AlphaFees
