import OrderBroker.Http.Site
import OrderBroker.Launch
import OrderBroker.Main
import OrderBroker.Rehearsal.FileTree
import OrderBroker.Rehearsal.World
import OrderBroker.Stream.Delivery
import OrderBroker.Stream.Encoder
import OrderBroker.Proofs.Poller.Table
import OrderBroker.Proofs.Run
import OrderBroker.Proofs.Poller.Operations
import OrderBroker.Proofs.Poller.Steps
import OrderBroker.Proofs.Poller.Waiters
import OrderBroker.Proofs.Poller.Memory
import OrderBroker.Proofs.Job.Collect
import OrderBroker.Proofs.Job.Steps
import OrderBroker.Proofs.Job.Guard
import OrderBroker.Proofs.Service.Effects
import OrderBroker.Proofs.Service.Visits
import OrderBroker.Proofs.Service.Endings
import OrderBroker.Proofs.Service.Results
import OrderBroker.Proofs.Approval
import OrderBroker.Proofs.Cancellation
import OrderBroker.Proofs.Text.Utf8
import OrderBroker.Proofs.Sse.Reading
import OrderBroker.Proofs.Sse.RoundTrip
import OrderBroker.Proofs.Base64
import OrderBroker.Proofs.Net.IpAddress
import OrderBroker.Proofs.Calendar.Date
import OrderBroker.Proofs.Json.Numbers
import OrderBroker.Proofs.Json.Strings
import OrderBroker.Proofs.Json.Syntax
import OrderBroker.Proofs.Json.Records
import OrderBroker.Proofs.Wire.Order
import OrderBroker.Proofs.Wire.BankId
import OrderBroker.Proofs.Wire.Freja
import OrderBroker.Proofs.Wire.RoundTrip
import OrderBroker.Proofs.OrderStream.Events
import OrderBroker.Proofs.OrderStream.Grammar
import OrderBroker.Proofs.BankId.Watch
import OrderBroker.Proofs.OrderStream.Keeping
import OrderBroker.Proofs.OrderIdentity
import OrderBroker.Proofs.OrderStream.Course
import OrderBroker.Proofs.BankId.Handover
import OrderBroker.Proofs.Job.Watching
import OrderBroker.Proofs.Job.Changes
import OrderBroker.Proofs.Poller.Rounds
import OrderBroker.Proofs.Poller.Agreement
import OrderBroker.Proofs.Poller.Unknown
import OrderBroker.Proofs.Poller.Latecomers
import OrderBroker.Proofs.Json.Compact
import OrderBroker.Proofs.Stream.Formats
import OrderBroker.Proofs.OrderStream.Words
import OrderBroker.Proofs.Job.Bounds
import OrderBroker.Proofs.Service.Bounds
import OrderBroker.Proofs.Service.Polling
import OrderBroker.Proofs.Calls
import OrderBroker.Proofs.Exchanges
import OrderBroker.Proofs.Operations
import OrderBroker.Proofs.Http.Requests
import OrderBroker.Proofs.Http.ClientErrors
import OrderBroker.Proofs.Job.Refusals
import OrderBroker.Proofs.Service.Refusals
import OrderBroker.Proofs.Http.VendorErrors
import OrderBroker.Proofs.Freja.Addressing
import OrderBroker.Proofs.Job.Times
import OrderBroker.Proofs.Service.Times
import OrderBroker.Proofs.Nameless
import OrderBroker.Proofs.OrderStream.Clock
import OrderBroker.Proofs.Job.Pace
import OrderBroker.Proofs.Waiting
import OrderBroker.Proofs.Poller.Iterations
import OrderBroker.Proofs.Poller.RequestRate
import OrderBroker.Proofs.Poller.Abandoned
import OrderBroker.Proofs.Starting
import OrderBroker.Proofs.BankId.Orders
import OrderBroker.Proofs.Freja.Signing
import OrderBroker.Proofs.Ndjson.Reading
import OrderBroker.Proofs.Ndjson.RoundTrip
import OrderBroker.Proofs.Stream.Delivery
import OrderBroker.Proofs.OrderStream.Ending
import OrderBroker.Proofs.Job.Streaming
import OrderBroker.Proofs.Config
import OrderBroker.Proofs.BankId.QrCode
import OrderBroker.Proofs.Text.Natural
import OrderBroker.Proofs.Freja.Refusals
import OrderBroker.Proofs.Wire.Growth
