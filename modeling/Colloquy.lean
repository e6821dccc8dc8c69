import Colloquy.Arguments
import Colloquy.Broker
import Colloquy.Broker.Manual
import Colloquy.Broker.Memory
import Colloquy.Channels
import Colloquy.Conversation
import Colloquy.Decimal.Finite
import Colloquy.Decimal.Scaled
import Colloquy.Decimal.Shortest
import Colloquy.Demo
import Colloquy.Ending
import Colloquy.Failure
import Colloquy.Ident
import Colloquy.Inbox
import Colloquy.Instant
import Colloquy.Invocation
import Colloquy.Invocation.Page
import Colloquy.Json.Mismatch
import Colloquy.Json.Printer
import Colloquy.Json.Reader
import Colloquy.Json.Record
import Colloquy.Json.Typed
import Colloquy.Json.Value
import Colloquy.Message
import Colloquy.Message.Payload
import Colloquy.Message.Wire
import Colloquy.Monitor
import Colloquy.Note
import Colloquy.Program
import Colloquy.Receipt
import Colloquy.Request
import Colloquy.Request.Options
import Colloquy.Roles
import Colloquy.Script
import Colloquy.Session.Agenda
import Colloquy.Session.Basic
import Colloquy.Session.Clock
import Colloquy.Session.Command
import Colloquy.Session.Delivery
import Colloquy.Session.Exchange
import Colloquy.Session.Request
import Colloquy.Session.Summary
import Colloquy.Settings
import Colloquy.Settlement
import Colloquy.Table
import Colloquy.Text.Blank
import Colloquy.Text.Quoted
import Colloquy.Text.Unprintable
import Colloquy.Timers
import Colloquy.Toml.Reader
import Colloquy.Toml.Value
import Colloquy.Topic
import Colloquy.Trace
import Colloquy.Utf8
import Colloquy.Word
import Colloquy.Main
import Colloquy.Proofs.Course
import Colloquy.Proofs.Table
import Colloquy.Proofs.Counting
import Colloquy.Proofs.Contributions
import Colloquy.Proofs.Balance
import Colloquy.Proofs.Meeting
import Colloquy.Proofs.Telling
import Colloquy.Proofs.Ends
import Colloquy.Proofs.Pending
import Colloquy.Proofs.Minding
import Colloquy.Proofs.Lifetime
import Colloquy.Proofs.Window
import Colloquy.Proofs.Closing
import Colloquy.Proofs.Deeds
import Colloquy.Proofs.Entries
import Colloquy.Proofs.Filing
import Colloquy.Proofs.Displacement
import Colloquy.Proofs.Shutdown
import Colloquy.Proofs.Reasons
import Colloquy.Proofs.Rollback
import Colloquy.Proofs.Scripts
import Colloquy.Proofs.LastWord
import Colloquy.Proofs.Teardown
import Colloquy.Proofs.Encoding
import Colloquy.Proofs.Spelling
import Colloquy.Proofs.Rendering
import Colloquy.Proofs.Records
import Colloquy.Proofs.Envelope
import Colloquy.Proofs.Canonical
import Colloquy.Proofs.Conservation
import Colloquy.Proofs.Order
import Colloquy.Proofs.Subscribers
import Colloquy.Proofs.Handlers
import Colloquy.Proofs.Likeness
import Colloquy.Proofs.Willing
import Colloquy.Proofs.Neighbours
import Colloquy.Proofs.Company
import Colloquy.Proofs.Line
import Colloquy.Proofs.Upkeep
import Colloquy.Proofs.Answers
import Colloquy.Proofs.Deadlines
import Colloquy.Proofs.Refusals
import Colloquy.Proofs.Owners
import Colloquy.Proofs.Idents
import Colloquy.Proofs.Clock
import Colloquy.Proofs.Staff
import Colloquy.Proofs.Recital
import Colloquy.Proofs.Speech
import Colloquy.Proofs.Steps
import Colloquy.Proofs.Sitting
import Colloquy.Proofs.Rehearsal
import Colloquy.Proofs.Demonstration
import Colloquy.Proofs.Interleavings
import Colloquy.Proofs.Grammar
import Colloquy.Proofs.Statistics
import Colloquy.Proofs.Serving
import Colloquy.Proofs.Settlements
import Colloquy.Proofs.Expiry
import Colloquy.Proofs.Wording
import Colloquy.Proofs.Extents
import Colloquy.Proofs.Fields
import Colloquy.Proofs.Commuting
import Colloquy.Proofs.Rearrangement
