import Interchain.Chain.Description
import Interchain.Connection
import Interchain.Envelope.Untyped
import Interchain.Event.Bus
import Interchain.Event.Relay
import Interchain.Failure.Report
import Interchain.Host.Basic
import Interchain.Ledger.Document
import Interchain.Ledger.Script
import Interchain.Metrics.Exposition
import Interchain.Settings
import Interchain.Time.Parser
import Interchain.Proofs.Ledger.State
import Interchain.Proofs.Ledger.Journal
import Interchain.Proofs.Ledger.Reachable
import Interchain.Proofs.Asset.Call
import Interchain.Proofs.Envelope.Arguments
import Interchain.Proofs.Abi.Size
import Interchain.Proofs.Asset.Atomicity
import Interchain.Proofs.Abi.RoundTrip
import Interchain.Proofs.Abi.Reading
import Interchain.Proofs.Envelope.RoundTrip
import Interchain.Proofs.Asset.Replay
import Interchain.Proofs.Chain
import Interchain.Proofs.Host.Books
import Interchain.Proofs.Host.Exchange
import Interchain.Proofs.Host.Sound
import Interchain.Proofs.Host.Call
import Interchain.Proofs.Host.Closing
import Interchain.Proofs.Host.Run
import Interchain.Proofs.Host.Conservation
import Interchain.Proofs.Ledger.Script
import Interchain.Proofs.Asset.Progress
import Interchain.Proofs.Ledger.Unit
import Interchain.Proofs.Host.Tracking
import Interchain.Proofs.Host.Moves
import Interchain.Proofs.Host.Progress
import Interchain.Proofs.Host.Timeouts
import Interchain.Proofs.Host.Settlement
import Interchain.Proofs.Host.Requests
import Interchain.Proofs.Host.Turns
import Interchain.Proofs.Host.Lifetime
import Interchain.Proofs.Host.Transfer
import Interchain.Proofs.Ledger.Restore
import Interchain.Proofs.Ledger.Handover
import Interchain.Proofs.Asset.Snapshot
import Interchain.Proofs.Asset.Guard
import Interchain.Proofs.Asset.Acceptance
import Interchain.Proofs.Event.Relay
import Interchain.Proofs.Event.Traffic
import Interchain.Proofs.Event.Overlap
import Interchain.Proofs.Event.Delivery
import Interchain.Proofs.Envelope.Exact
import Interchain.Proofs.Envelope.Accepted
import Interchain.Proofs.Envelope.Untyped
import Interchain.Proofs.Envelope.Refusal
import Interchain.Proofs.Asset.Outbound
import Interchain.Proofs.Host.Rounds
import Interchain.Proofs.Host.Expiry
import Interchain.Proofs.Host.Deliveries
import Interchain.Proofs.Host.Answers
import Interchain.Proofs.Asset.Inbound
import Interchain.Proofs.Host.Query
import Interchain.Proofs.Host.Overdue
import Interchain.Proofs.Host.Acknowledgements
import Interchain.Proofs.Bytes.Word
import Interchain.Proofs.Double
import Interchain.Proofs.Chain.Grammar
import Interchain.Proofs.Event.Subscription
import Interchain.Proofs.Address.Spelling
import Interchain.Proofs.Ledger.Accounts
import Interchain.Proofs.Json.RoundTrip
import Interchain.Proofs.Text.Decimal
import Interchain.Proofs.Event.Wire
import Interchain.Proofs.Event.Connection
import Interchain.Proofs.Metrics
import Interchain.Proofs.Asset.Fleet
import Interchain.Proofs.Double.Great
import Interchain.Proofs.Gateway.Faults
import Interchain.Proofs.Gateway.Countdown
import Interchain.Proofs.Gateway.Disabled
import Interchain.Proofs.Gateway.Accounting
