import Vtt.Chain.Finality
import Vtt.Chain.Rejection
import Vtt.Chain.Replay
import Vtt.Executor.Fees
import Vtt.State.Rollback
import Vtt.Node.Attestation
import Vtt.Identity
import Vtt.Chain.ForkChoice
import Vtt.Consensus.Election
import Vtt.Chain.Punished
import Vtt.Executor.Nonces
import Vtt.Executor.Liquidity
import Vtt.Executor.Unstaking
import Vtt.Executor.Closing
import Vtt.Executor.Withdrawal
import Vtt.Executor.Calls
import Vtt.Chain.Downtime
import Vtt.Refusal
import Vtt.Consensus.VoteOrder
import Vtt.Metering
import Vtt.State.Feeds
import Vtt.State.Legacy
import Vtt.Dex.Quote
import Vtt.SharedSecurity
import Vtt.Bridge
import Vtt.Chain.Pruning
