/-
Summaries: one line about a part of a session.

A summary names the kind of the part and shows some of its fields.  Two dots say that the
part has more than it shows.
-/
import Colloquy.Session.Basic
import Colloquy.Text.Quoted

namespace Colloquy

structure Summary where
  kind : String
  fields : List (String × String)
  more : Bool := true

namespace Summary

def flag (b : Bool) : String := if b then "true" else "false"

/-- The kind, and the fields between braces. -/
def text (s : Summary) : String :=
  let shown := s.fields.map fun f => f.1 ++ ": " ++ f.2
  let parts := if s.more then shown ++ [".."] else shown
  s.kind ++ " \x7b " ++ String.intercalate ", " parts ++ " \x7d"

end Summary

/-- A part of a session that has a summary. -/
inductive Part where
  | channels
  | consumer (topic : String)
  | producer (topic : String)
  | conversation (name : String)
  | inbox (topic : String)
  | inboxes
  | responder (name : String)
  | server (name : String)
  | held
  | broker
  | timers

namespace Session

open Text (quoted)
open Summary (flag)

def summarizeConsumer (s : Session) (n : Nat) : Option Summary :=
  (s.channels.made.get? n).map fun k =>
    { kind := "Consumer"
      fields := [("topic", quoted k.topic), ("subscribed", flag k.handler.isSome)] }

def summarizeConversation (c : Conversation) : Summary where
  kind := "Collector"
  fields := [("correlation_id", "CorrelationId(" ++ quoted c.correlation ++ ")"),
    ("response_topic", quoted c.topic), ("ended", flag c.ended)]

def summarizeReceipt (r : Receipt) : Summary where
  kind := "AcknowledgementHandler"
  fields := [("topic", quoted r.topic), ("redelivered", flag r.redelivered),
    ("state", r.state.title), ("auto_acknowledgement", flag r.auto)]
  more := false

def summarize (s : Session) : Part → Option Summary
  | .channels => some {
      kind := "ChannelManager"
      fields := [("producers", Decimal.natText s.channels.producers.size),
        ("consumers", Decimal.natText s.channels.consumers.size),
        ("shut_down", flag s.channels.shutDown)] }
  | .consumer topic => (s.consumers.get? topic).bind s.summarizeConsumer
  | .producer topic =>
    (s.producers.get? topic).map fun _ =>
      { kind := "Producer", fields := [("topic", quoted topic)] }
  | .conversation name => do
    let n ← s.conversations.get? name
    let x ← s.exchanges.get? n
    summarizeConversation x.conversation
  | .inbox topic => some {
      kind := "CollectorMultiplexer"
      fields := [("topic", quoted topic),
        ("collectors", Decimal.natText (s.inbox .own topic).members.size)] }
  | .inboxes => some {
      kind := "MultiplexerRegistry"
      fields := [("topics", Decimal.natText s.own.inboxes.size)] }
  | .responder name =>
    (s.responders.get? name).map fun r =>
      { kind := "Responder"
        fields := [("responder_id", quoted r.id), ("request", quoted r.request.id)] }
  | .server name =>
    (s.servers.get? name).map fun sv =>
      { kind := "ResponderServer", fields := [("namespace", quoted sv.namesp)] }
  | .held => do
    let n ← s.held.head?
    let d ← s.deliveries.get? n
    summarizeReceipt d.receipt
  | .broker =>
    match s.channels.broker with
    | .memory b => some {
        kind := "MemoryBroker"
        fields := [("topics", Decimal.natText b.lanes.size),
          ("published", Decimal.natText b.published)] }
    | .manual _ => none
  | .timers => some {
      kind := "TimeoutScheduler"
      fields := [("shut_down", flag s.own.timers.stopped)]
      more := false }

end Session
end Colloquy
