import StoreClient.Text.Quoted
import StoreClient.Text.Blank
import StoreClient.Number.Binary32.Decimal
import StoreClient.Wire.Value
import StoreClient.Wire.Encoding
import StoreClient.Wire.Entry
import StoreClient.Wire.Batch
import StoreClient.Wire.Framing
import StoreClient.Packet
import StoreClient.Config.Url
import StoreClient.Connection
import StoreClient.Pool
import StoreClient.Pool.Desk
import StoreClient.Wire.ToValue
import StoreClient.Proofs.Prefixes
import StoreClient.Proofs.Agreement
import StoreClient.Proofs.Streaming
import StoreClient.Proofs.RoundTrip
import StoreClient.Proofs.Commands
import StoreClient.Proofs.WellFormed
import StoreClient.Proofs.Ledger
import StoreClient.Proofs.Lending
import StoreClient.Proofs.Calls
import StoreClient.Proofs.Sessions
import StoreClient.Proofs.Discipline
import StoreClient.Proofs.Grammar
import StoreClient.Proofs.Recognition
import StoreClient.Proofs.Breaking
import StoreClient.Proofs.Severity
import StoreClient.Proofs.Broadcasts
import StoreClient.Proofs.Exclusive
import StoreClient.Proofs.Noticing
import StoreClient.Proofs.Rereading
import StoreClient.Proofs.Condition
import StoreClient.Proofs.Lifetimes
import StoreClient.Proofs.Pipelining
import StoreClient.Proofs.Limits
import StoreClient.Proofs.Closing
import StoreClient.Proofs.Redialing
import StoreClient.Proofs.Sites
import StoreClient.Proofs.Settings
import StoreClient.Proofs.Selections
import StoreClient.Proofs.Scanning
import StoreClient.Proofs.InPlace
import StoreClient.Proofs.Refusals
import StoreClient.Proofs.Outcomes
import StoreClient.Proofs.Drafts
import StoreClient.Proofs.Salvage
import StoreClient.Proofs.Offences
import StoreClient.Proofs.Normalizing
import StoreClient.Proofs.Borrowing
import StoreClient.Proofs.Counting
import StoreClient.Proofs.Urls
import StoreClient.Proofs.Cursors
import StoreClient.Proofs.Amplification
import StoreClient.Proofs.Replies
import StoreClient.Proofs.Wording
