/-
What can be done from outside a session, one command at a time, and what is answered.
-/
import Colloquy.Session.Clock
import Colloquy.Session.Summary

namespace Colloquy

/-- What a broker can be told to refuse. -/
inductive Refusal where
  | publish
  | subscribe
  | unsubscribe
  | settle
  deriving DecidableEq

def Refusal.set (what : Refusal) (on : Bool) (r : Refusals) : Refusals :=
  match what with
  | .publish => { r with publish := on }
  | .subscribe => { r with subscribe := on }
  | .unsubscribe => { r with unsubscribe := on }
  | .settle => { r with settle := on }

inductive Command where
  | producer (topic : String)
  | consumer (topic : String)
  | dropConsumer (topic : String)
  | subscribe (topic : String) (actions : List Action)
  | unsubscribe (topic : String)
  | isSubscribed (topic : String)
  | publish (topic : String) (draft : Draft)
  | publishKept (topic : String) (draft : Draft)
  | shutdown
  | isShutDown
  | monitor (agent : Agent)
  | hook (h : Hook) (topic : String)
  | stats
  | topicStats (topic : String)
  | held (index : Nat) (calls : List Receipt.Call)
  | raw (topic : String) (key : Option String) (body : Bytes)
  /-- Deliver something at once that was never published. -/
  | inject (topic : String) (body : Bytes) (redelivered : Bool)
  | injectMessage (topic : String) (draft : Draft) (redelivered : Bool)
  | deliver (only : Option String) (most : Nat)
  | queue
  | refuse (what : Refusal) (on : Bool)
  | brokerSubscribe (topic : String) (actions : List RawAction)
  | brokerUnsubscribe (topic : String)
  | brokerShutdown
  | brokerStatus (topic : String)
  | heldRaw (index : Nat) (s : Settlement)
  | place (name correlation : String) (topic : Option String) (terms : Terms)
      (callbacks : Callbacks)
  | listen (name : String)
  | wait (name : String)
  | handle (name : String) (draft : Draft)
  | abort (name : String) (why : Failure)
  | register (name : String)
  | unregister (name : String)
  | look (name : String)
  | identify (name : String)
  | inbox (topic : String)
  /-- Hand a message to an inbox, as a delivery that did not come from the broker. -/
  | dispatch (topic : String) (draft : Draft) (redelivered : Bool)
  | timers (stop : Bool)
  | sleep (ms : Nat)
  | await (name : String)
  | poll (name : String)
  | requester (name : String) (r : Requester) (joins : Option Draft)
  | send (requester name : String) (payload : Json.Value)
  | request (requester name : String) (payload : Json.Value)
  | server (s : Server)
  | serve (name : String)
  | stop (name : String)
  | responder (name : String) (draft : Draft) (template : Template)
  | answer (name : String) (payload : Json.Value)
  | acknowledge (name : String) (timeoutMs : Option Nat) (remaining : Option Int)
  | service
  | describe (p : Part)

structure View where
  ended : Bool
  remaining : Nat
  awaitsAnswers : Bool
  awaitsAcks : Bool
  timeoutMs : Nat
  arms : Nat
  acks : List String
  payloads : List String
  live : Nat
  subscribed : Bool

inductive Reply where
  | done
  | failed (why : Failure)
  | unknown
  | noContext
  | flag (b : Bool)
  | count (n : Nat)
  | producer (topic : String) (same : Option Bool)
  | consumer (topic : String) (same : Option Bool) (subscribed : Bool)
  | shutDown (channels : Bool) (context : Option Bool)
  | stats (s : Stats)
  | receipt (r : Receipt)
  | queue (items : List (String × Envelope))
  | broker (topic : String) (b : MemoryBroker Subscriber)
  | view (v : View)
  | viewAfter (v : View) (failure : Option Failure)
  | identity (correlation topic : String)
  | inbox (i : Inbox) (same : Option Bool)
  | dispatched (r : Resolution)
  | timers (stopped : Bool)
  | status (s : Session.Status)
  | requester (namesp : String) (opens : Bool)
  | sent (correlation : Option String)
  | server (namesp : String)
  | responder (id request : String)
  | service (c : Context)
  | summary (s : Summary)

namespace Session

def view (s : Session) (x : Exchange) : View :=
  let c := x.conversation
  let i := s.inbox x.desk c.topic
  { ended := c.ended
    remaining := c.remaining
    awaitsAnswers := c.awaitsAnswers
    awaitsAcks := c.awaitsAcks s.clock
    timeoutMs := c.timeoutMs
    arms := c.arms
    acks := c.acks.map Message.id
    payloads := c.payloads.map Message.id
    live := i.live
    subscribed := i.subscribed }

/-- Do something with a conversation that was placed by hand, and view it. -/
def withNamed (s : Session) (name : String)
    (act : Nat → Except Failure Unit × List Frame × Session) : Reply × Session :=
  match s.conversations.get? name with
  | none => (.unknown, s)
  | some n =>
    let (r, frames, s) := act n
    let s := s.settleAll frames
    let failure := match r with
      | .ok _ => none
      | .error why => some why
    match s.exchanges.get? n with
    | none => (.unknown, s)
    | some x => (.viewAfter (s.view x) failure, s)

def replyOf : Except Failure Unit → Reply
  | .ok _ => .done
  | .error why => .failed why

def withChannels (s : Session) (r : Except Failure Unit × Channels Handler) : Reply × Session :=
  (replyOf r.1, { s with channels := r.2 })

def findProducer (s : Session) (topic : String) : Reply × Session :=
  match s.channels.producer topic with
  | (.error why, c) => (.failed why, { s with channels := c })
  | (.ok n, c) =>
    (.producer topic ((s.producers.get? topic).map (· == n)),
      { s with channels := c, producers := s.producers.put topic n })

def findConsumer (s : Session) (topic : String) : Reply × Session :=
  match s.channels.consumer topic with
  | (.error why, c) => (.failed why, { s with channels := c })
  | (.ok n, c) =>
    (.consumer topic ((s.consumers.get? topic).map (· == n)) (c.isSubscribed topic),
      { s with channels := c, consumers := s.consumers.put topic n })

def inject (s : Session) (topic : String) (e : Envelope) : Reply × Session :=
  match s.channels.broker with
  | .memory _ => (.flag false, s)
  | .manual b =>
    match b.subscribers.get? topic with
    | none => (.flag false, s)
    | some subscriber =>
      let (frames, s) := s.deliver subscriber topic e
      (.flag true, s.settleAll frames)

/-- Deliver what is queued, one after the other, and count. -/
def deliverQueued (only : Option String) : Nat → Nat → Session → Nat × Session
  | 0, count, s => (count, s)
  | n + 1, count, s =>
    match s.channels.broker with
    | .memory _ => (count, s)
    | .manual b =>
      match b.take? only with
      | none => (count, s)
      | some (subscriber, topic, e, b) =>
        let s := { s with channels := { s.channels with broker := .manual b } }
        let (frames, s) := s.deliver subscriber topic e
        deliverQueued only n (count + 1) (s.settleAll frames)

def refuse (s : Session) (what : Refusal) (on : Bool) : Session :=
  match s.channels.broker with
  | .memory _ => s
  | .manual b =>
    { s with channels := { s.channels with
        broker := .manual { b with refuses := what.set on b.refuses } } }

def placeNamed (s : Session) (name correlation : String) (topic : Option String) (terms : Terms)
    (callbacks : Callbacks) : Reply × Session :=
  match topic with
  | none => (.failed (.missingResponseTopic "request"), s)
  | some topic =>
    let (n, s) := s.place .own correlation topic terms callbacks
    let s := { s with
      conversations := s.conversations.put name n
      handles := s.handles.put name (.ending n) }
    match s.exchanges.get? n with
    | none => (.unknown, s)
    | some x => (.view (s.view x), s)

def dispatchTo (s : Session) (topic : String) (m : Message) (redelivered : Bool) :
    Reply × Session :=
  let s := s.setInbox .own (s.inbox .own topic)
  let (d, s) := s.accept { topic, redelivered } none
  let (frames, s) := s.arrive .own topic d m
  let s := s.settleAll frames
  match s.deliveries.get? d with
  | none => (.unknown, s)
  | some d => (.dispatched d.receipt.state, s)

/-- Send a request and keep what came of it under a name. -/
def sendNamed (s : Session) (r : Requester) (name : String) (payload : Json.Value) :
    Reply × Session :=
  let (result, frames, s) := s.offer r (.ok payload)
  let s := s.settleAll frames
  match result with
  | .error why => (.failed why, s)
  | .ok none => (.sent none, s)
  | .ok (some n) =>
    (.sent (some (s.correlationOf n)), { s with handles := s.handles.put name (.conversation n) })

/-- Send a request for a single answer, and look for it once, as soon as it is sent. -/
def requestNamed (s : Session) (r : Requester) (name : String) (payload : Json.Value) :
    Reply × Session :=
  let (result, frames, s) := s.offer (single r) (.ok payload)
  let h := match result with
    | .error why => Handle.failed why
    | .ok (some n) => .answer n
    | .ok none => .failed (.internal "single-response request opened no conversation")
  let reply := Reply.status (s.status h)
  (reply, { s with handles := s.handles.put name h }.settleAll frames)

def serve (s : Session) (sv : Server) : Reply × Session :=
  match s.channels.subscribe sv.namesp (.server sv) with
  | (.error why, c) => (.failed why, { s with channels := c })
  | (.ok _, c) => (.done, { s with channels := c }.note (.serving sv.namesp))

def withContext (s : Session) (act : Context → Reply × Session) : Reply × Session :=
  match s.context with
  | none => (.noContext, s)
  | some c => act c

def withTable {α : Type} (s : Session) (t : Table String α) (name : String)
    (act : α → Reply × Session) : Reply × Session :=
  match t.get? name with
  | none => (.unknown, s)
  | some a => act a

/-- To look at an inbox makes it, if need be. -/
def lookedAt (s : Session) : Part → Session
  | .inbox topic => s.setInbox .own (s.inbox .own topic)
  | _ => s

/-- Do what a command says, up to what the workers of the broker do then. -/
def obey (s : Session) : Command → Reply × Session
  | .producer topic => s.findProducer topic
  | .consumer topic => s.findConsumer topic
  | .dropConsumer topic =>
    (.flag (s.consumers.contains topic), { s with consumers := s.consumers.erase topic })
  | .subscribe topic actions =>
    s.withChannels (s.channels.subscribe topic (.script topic actions))
  | .unsubscribe topic => s.withChannels (s.channels.unsubscribe topic)
  | .isSubscribed topic => (.flag (s.channels.isSubscribed topic), s)
  | .publish topic draft =>
    s.withChannels (s.channels.publish s.now topic (draft.at s.now))
  | .publishKept topic draft =>
    if s.producers.contains topic then
      s.withChannels (s.channels.send s.now topic (draft.at s.now))
    else (.unknown, s)
  | .shutdown =>
    let (frames, s) := s.shutdownContext
    (.done, s.settleAll frames)
  | .isShutDown => (.shutDown s.channels.shutDown (s.context.map Context.shutDown), s)
  | .monitor agent => (.done, { s with channels := { s.channels with agent } })
  | .hook h topic =>
    let stats := s.channels.stats.note h topic
    (.stats stats, { s with channels := { s.channels with stats } })
  | .stats => (.stats s.channels.stats, s)
  | .topicStats topic => (.flag (s.channels.stats.contains topic), s)
  | .held index calls =>
    match s.held[index]? with
    | none => (.unknown, s)
    | some n =>
      let s := calls.foldl (fun s c => s.settle n c) s
      match s.deliveries.get? n with
      | none => (.unknown, s)
      | some d => (.receipt d.receipt, s)
  | .raw topic key body =>
    let (r, s) := s.publishRaw topic key body
    (replyOf r, s)
  | .inject topic body redelivered => s.inject topic { body, redelivered }
  | .injectMessage topic draft redelivered =>
    match (draft.at s.now).encode with
    | .error why => (.failed why, s)
    | .ok body => s.inject topic { body, redelivered }
  | .deliver only most =>
    let (n, s) := deliverQueued only most 0 s
    (.count n, s)
  | .queue =>
    match s.channels.broker with
    | .memory _ => (.queue [], s)
    | .manual b => (.queue b.queue, s)
  | .refuse what on => (.done, s.refuse what on)
  | .brokerSubscribe topic actions =>
    let (r, s) := s.subscribeRaw topic actions
    (replyOf r, s)
  | .brokerUnsubscribe topic =>
    let (r, s) := s.unsubscribeRaw topic
    (replyOf r, s)
  | .brokerShutdown => (.done, { s with channels := s.channels.stopBroker })
  | .brokerStatus topic =>
    match s.channels.broker with
    | .memory b => (.broker topic b, s)
    | .manual _ => (.unknown, s)
  | .heldRaw index x =>
    match s.heldRaw[index]? with
    | none => (.unknown, s)
    | some (topic, body) =>
      let (r, s) := s.settleRaw topic body x
      (replyOf r, s)
  | .place name correlation topic terms callbacks =>
    s.placeNamed name correlation topic terms callbacks
  | .listen name =>
    s.withNamed name fun n =>
      let (r, s) := s.listen n
      (r, [], s)
  | .wait name => s.withNamed name fun n => (.ok (), [], s.wait n)
  | .handle name draft =>
    s.withNamed name fun n => (.ok (), s.handle n (draft.at s.now))
  | .abort name why => s.withNamed name fun n => (.ok (), s.abort n why)
  | .register name =>
    s.withNamed name fun n =>
      let (r, s) := s.register n
      (r, [], s)
  | .unregister name => s.withNamed name fun n => (.ok (), [], s.unregister n)
  | .look name => s.withNamed name fun _ => (.ok (), [], s)
  | .identify name =>
    match (s.conversations.get? name).bind s.exchanges.get? with
    | none => (.unknown, s)
    | some x => (.identity x.conversation.correlation x.conversation.topic, s)
  | .inbox topic =>
    let i := s.inbox .own topic
    (.inbox i (if s.inboxes.contains topic then some true else none),
      { s.setInbox .own i with inboxes := topic :: s.inboxes })
  | .dispatch topic draft redelivered => s.dispatchTo topic (draft.at s.now) redelivered
  | .timers stop =>
    let s := if stop then (s.perform (.stopTimers .own)).2 else s
    (.timers s.own.timers.stopped, s)
  | .sleep ms => (.done, s.sleep ms)
  | .await name =>
    s.withTable s.handles name fun h =>
      let s := s.await h
      (.status (s.status h), s)
  | .poll name => s.withTable s.handles name fun h => (.status (s.status h), s)
  | .requester name r joins =>
    s.withContext fun _ =>
      let r := { r with joins := joins.map fun d => d.at s.now }
      (.requester r.namesp r.options.opensConversation,
        { s with requesters := s.requesters.put name r })
  | .send requester name payload =>
    s.withTable s.requesters requester fun r => s.sendNamed r name payload
  | .request requester name payload =>
    s.withTable s.requesters requester fun r => s.requestNamed r name payload
  | .server sv =>
    s.withContext fun _ => (.server sv.namesp, { s with servers := s.servers.put sv.name sv })
  | .serve name => s.withTable s.servers name s.serve
  | .stop name =>
    s.withTable s.servers name fun sv => s.withChannels (s.channels.unsubscribe sv.namesp)
  | .responder name draft template =>
    s.withContext fun _ =>
      let (r, s) := s.responder (draft.at s.now) template
      (.responder r.id r.request.id, { s with responders := s.responders.put name r })
  | .answer name payload =>
    s.withTable s.responders name fun r =>
      let (result, s) := s.respond r r.deduction (some payload)
      (replyOf result, s)
  | .acknowledge name timeoutMs remaining =>
    s.withTable s.responders name fun r =>
      let (result, s) := s.respond r (r.announcement timeoutMs remaining) none
      (replyOf result, s)
  | .service =>
    match s.context with
    | none => (.unknown, s)
    | some c => (.service c, s)
  | .describe p =>
    match s.summarize p with
    | none => (.unknown, s)
    | some summary => (.summary summary, s.lookedAt p)

/-- Do what a command says, until the session is at rest. -/
def run (s : Session) (c : Command) : Reply × Session :=
  let (r, s) := s.obey c
  (r, s.settleAll [])

def plain (start : Instant) (broker : Broker Subscriber) (validateTopics : Bool) : Session where
  channels := { broker, validateTopics }
  start := start

/-- Add a messaging context to a session.  An instance without an id gets one. -/
def withSettings (s : Session) (settings : Settings) (hostname : String) (pid : Nat) :
    Except Failure Session := do
  settings.check
  let (instanceId, s) := match settings.identity.instanceId with
    | some id => (id, s)
    | none => s.fresh
  .ok { s with context := some {
    origin := {
      name := settings.identity.name
      version := settings.identity.version
      instanceId
      hostname
      pid }
    responseTimeoutMs := settings.responseTimeoutMs } }

end Session
end Colloquy
