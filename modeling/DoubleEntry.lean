import DoubleEntry.Accounts.Basic
import DoubleEntry.Accounts.Breaker
import DoubleEntry.Accounts.Call
import DoubleEntry.Accounts.Client
import DoubleEntry.Api.Request
import DoubleEntry.Api.Response
import DoubleEntry.Audit
import DoubleEntry.Binary64.Shortest
import DoubleEntry.Chart
import DoubleEntry.Client.Basic
import DoubleEntry.Client.Call
import DoubleEntry.Command.Basic
import DoubleEntry.Command.Field
import DoubleEntry.Command.Json
import DoubleEntry.CommandLine.Invocation
import DoubleEntry.CommandLine.Output
import DoubleEntry.CommandLine.Words
import DoubleEntry.Config
import DoubleEntry.Currency
import DoubleEntry.Decimal.Basic
import DoubleEntry.Decimal.Round
import DoubleEntry.Decimal.Sum
import DoubleEntry.Decimal.Text
import DoubleEntry.Digest.Sha256
import DoubleEntry.Digest.Signature
import DoubleEntry.Duration
import DoubleEntry.Environment
import DoubleEntry.Error
import DoubleEntry.Halt
import DoubleEntry.Http.Address
import DoubleEntry.Http.ErrorPolicy
import DoubleEntry.Http.Exchange
import DoubleEntry.Http.MediaType
import DoubleEntry.Http.Message
import DoubleEntry.Http.OpenApi
import DoubleEntry.Http.Server
import DoubleEntry.Http.Status
import DoubleEntry.Http.Uri
import DoubleEntry.Http.Wire
import DoubleEntry.Idempotency
import DoubleEntry.Instant.Basic
import DoubleEntry.Instant.Text
import DoubleEntry.Journal.Basic
import DoubleEntry.Journal.Json
import DoubleEntry.Json.Basic
import DoubleEntry.Json.Codec
import DoubleEntry.Json.Decoder
import DoubleEntry.Json.Draft
import DoubleEntry.Json.Parser
import DoubleEntry.Json.Pointer
import DoubleEntry.Json.Printer
import DoubleEntry.Main
import DoubleEntry.Outbox
import DoubleEntry.Payment
import DoubleEntry.Power
import DoubleEntry.Proofs.AgreeingJobs
import DoubleEntry.Proofs.AgreeingPostings
import DoubleEntry.Proofs.AgreeingRequests
import DoubleEntry.Proofs.Agreement
import DoubleEntry.Proofs.AllOrNothing
import DoubleEntry.Proofs.Amount
import DoubleEntry.Proofs.AmountText
import DoubleEntry.Proofs.AuditTrail
import DoubleEntry.Proofs.Balance
import DoubleEntry.Proofs.Books
import DoubleEntry.Proofs.BreakerLimits
import DoubleEntry.Proofs.Calendar
import DoubleEntry.Proofs.Command
import DoubleEntry.Proofs.Committed
import DoubleEntry.Proofs.Deeds
import DoubleEntry.Proofs.Delivery
import DoubleEntry.Proofs.Effects
import DoubleEntry.Proofs.EncodedInserts
import DoubleEntry.Proofs.EncodedOutbox
import DoubleEntry.Proofs.Encoding
import DoubleEntry.Proofs.ExactBooks
import DoubleEntry.Proofs.HoldAnswers
import DoubleEntry.Proofs.HoldKeys
import DoubleEntry.Proofs.HoldSettled
import DoubleEntry.Proofs.Identifier
import DoubleEntry.Proofs.InstantText
import DoubleEntry.Proofs.Interleaving
import DoubleEntry.Proofs.Job
import DoubleEntry.Proofs.JsonRecord
import DoubleEntry.Proofs.JsonStored
import DoubleEntry.Proofs.JsonText
import DoubleEntry.Proofs.KeptAnswer
import DoubleEntry.Proofs.Ledger
import DoubleEntry.Proofs.Memory
import DoubleEntry.Proofs.Millionths
import DoubleEntry.Proofs.OneAnswer
import DoubleEntry.Proofs.OrderedDelivery
import DoubleEntry.Proofs.OrderedText
import DoubleEntry.Proofs.OutboxClaims
import DoubleEntry.Proofs.OutboxQueue
import DoubleEntry.Proofs.OutboxRows
import DoubleEntry.Proofs.PaymentTrace
import DoubleEntry.Proofs.PlainTrace
import DoubleEntry.Proofs.Posting
import DoubleEntry.Proofs.PostingTrace
import DoubleEntry.Proofs.Probes
import DoubleEntry.Proofs.ReadBack
import DoubleEntry.Proofs.Recovery
import DoubleEntry.Proofs.RelayTask
import DoubleEntry.Proofs.RelayTrace
import DoubleEntry.Proofs.Replay
import DoubleEntry.Proofs.Sending
import DoubleEntry.Proofs.Session
import DoubleEntry.Proofs.SingleWorker
import DoubleEntry.Proofs.StatementPages
import DoubleEntry.Proofs.StatementTotals
import DoubleEntry.Proofs.StoredPostings
import DoubleEntry.Proofs.StoredRows
import DoubleEntry.Proofs.StoredViews
import DoubleEntry.Proofs.Takeover
import DoubleEntry.Proofs.Trace
import DoubleEntry.Proofs.Units
import DoubleEntry.Relay.Backoff
import DoubleEntry.Relay.Loop
import DoubleEntry.Relay.Publisher
import DoubleEntry.Relay.Worker
import DoubleEntry.Service.Listings
import DoubleEntry.Service.Payments
import DoubleEntry.Service.Postings
import DoubleEntry.Service.Program
import DoubleEntry.Statement
import DoubleEntry.Store.Basic
import DoubleEntry.Store.Call
import DoubleEntry.Store.Cells
import DoubleEntry.Store.Column
import DoubleEntry.Store.Memory
import DoubleEntry.Store.Rows
import DoubleEntry.Store.Tables
import DoubleEntry.Store.TypedRows
import DoubleEntry.Text.Blank
import DoubleEntry.Text.Digit
import DoubleEntry.Text.Number
import DoubleEntry.Text.Quoted
import DoubleEntry.Text.Unprintable
import DoubleEntry.Text.Utf8
import DoubleEntry.Uuid
import DoubleEntry.Proofs.AuditAnswers
import DoubleEntry.Proofs.KeptRows
import DoubleEntry.Proofs.LenientText
import DoubleEntry.Proofs.MaskedErrors
import DoubleEntry.Proofs.RecordFields
import DoubleEntry.Proofs.ClientCalls
import DoubleEntry.Proofs.LastingFacts
import DoubleEntry.Proofs.ExactSums
import DoubleEntry.Proofs.Iterations
import DoubleEntry.Proofs.AmountGrammar
import DoubleEntry.Proofs.AmountAnswers
import DoubleEntry.Proofs.Spelling
import DoubleEntry.Proofs.SpelledFields
import DoubleEntry.Proofs.CanonicalRequests
import DoubleEntry.Proofs.ShownAmounts
import DoubleEntry.Proofs.TimeColumns
import DoubleEntry.Proofs.ReachedStores
import DoubleEntry.Proofs.Pages
import DoubleEntry.Proofs.ManualEntries
import DoubleEntry.Proofs.Counterparties
import DoubleEntry.Proofs.GuardedCalls
import DoubleEntry.Proofs.KeyedEvents
import DoubleEntry.Proofs.ClaimTimes
import DoubleEntry.Proofs.HeldRows
import DoubleEntry.Proofs.GivenEvents
import DoubleEntry.Proofs.WorkerLoop
import DoubleEntry.Proofs.WorkerSignal
import DoubleEntry.Proofs.WorkerRuns
