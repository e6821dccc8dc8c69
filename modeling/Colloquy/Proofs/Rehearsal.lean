/-
A session that serves the requests it sends.

A session that `Attends` a server takes the requests to its namespace, and nothing else goes on in
it.  Such a session can send a request to the server and wait for the answers, and then it is a
sitting that begins.
-/
import Colloquy.Session.Command
import Colloquy.Proofs.Refusals
import Colloquy.Proofs.Sitting

namespace Colloquy

/-! ## A topic that is served -/

namespace Channels

variable {η : Type} {c d : Channels η} {topic : String} {handler : η}
  {b b' : MemoryBroker Subscriber}

/-- Channels with one more consumer, which has a handler. -/
structure Gains (c : Channels η) (topic : String) (handler : η) (d : Channels η) : Prop where
  consumers : d.consumers = c.consumers.put topic c.nextNumber
  made : ∀ n, d.made.get? n =
    if n = c.nextNumber then some { topic, handler := some handler } else c.made.get? n
  shutDown : d.shutDown = c.shutDown
  validateTopics : d.validateTopics = c.validateTopics

namespace Gains

variable {e : Channels η}

theorem steady (h : c.Gains topic handler d) (h' : d.Steady e) : c.Gains topic handler e where
  consumers := h'.consumers.trans h.consumers
  made := fun n => by rw [h'.made, h.made]
  shutDown := h'.shutDown.trans h.shutDown
  validateTopics := h'.validateTopics.trans h.validateTopics

theorem self (h : c.Gains topic handler d) : d.consumers.get? topic = some c.nextNumber ∧
    d.made.get? c.nextNumber = some { topic, handler := some handler } := by
  rw [h.consumers, h.made, if_pos rfl]
  exact ⟨Table.get?_put_self _ _ _, rfl⟩

theorem other (h : c.Gains topic handler d) (hc : c.Sound) {t : String} (ht : t ≠ topic) {n : Nat}
    (hn : c.consumers.get? t = some n) :
    d.consumers.get? t = some n ∧ d.made.get? n = c.made.get? n := by
  rw [h.consumers, h.made, if_neg (Nat.ne_of_lt (hc.numbered t n hn)), Table.get?_put_ne _ ht]
  exact ⟨hn, rfl⟩

end Gains

/-- A topic without a consumer gets one if the broker takes the subscription. -/
theorem subscribe_new (hb : c.broker = .memory b) (hrun : c.shutDown = false)
    (hnone : c.consumers.get? topic = none) (hcheck : c.checkNew topic = .ok ())
    (hsubscribe : b.subscribe topic (.consumer c.nextNumber) = .ok b') (handler : η) :
    ∃ d, c.subscribe topic handler = (.ok (), d) ∧ d.broker = .memory b' ∧
      c.Gains topic handler d := by
  have hmade : (c.equip topic).made = c.made.put c.nextNumber { topic } :=
    (monitor_fields _ _ _).2.1
  have hget : (c.equip topic).made.get? c.nextNumber = some { topic } := by
    rw [hmade, Table.get?_put_self]
  have hattach : (c.equip topic).attach c.nextNumber handler =
      (.ok true, { c.equip topic with
        broker := Broker.memory b'
        made := (c.equip topic).made.put c.nextNumber { topic, handler := some handler } }.record
          []) := by
    simp only [attach, hget, Option.isSome_none, Bool.false_eq_true, if_false, equip_broker, hb,
      Broker.adapter_subscribe, Broker.subscribe, hsubscribe, Except.map]
  have hsubscribed : c.subscribe topic handler = (.ok (), { c.equip topic with
      broker := Broker.memory b'
      made := (c.equip topic).made.put c.nextNumber { topic, handler := some handler } }.record
        []) := by
    simp only [subscribe, trySubscribe, consumer_of_new hrun hnone hcheck, hattach, Except.map]
  refine ⟨_, hsubscribed, rfl, equip_consumers c topic, fun n => ?_, monitor_shutDown _ _ _,
    monitor_validateTopics _ _ _⟩
  show ((c.equip topic).made.put c.nextNumber _).get? n = _
  rw [hmade, Table.get?_put, Table.get?_put]
  split_ifs <;> rfl

end Channels

/-! ## A conversation that starts -/

/-- A conversation that has set the first timer of its desk. -/
def Conversation.begun (correlation topic : String) (now : Nat) (terms : Terms) : Conversation :=
  { start correlation topic now terms with responseTimer := some 1, arms := 1 }

theorem Watch.wait_of_start (correlation topic : String) (now : Nat) {terms : Terms}
    (hwait : terms.wait.expectsAnswers = true) (self : Nat) :
    ({ conversation := .start correlation topic now terms, timers := {} } : Watch).wait self now =
      { conversation := .begun correlation topic now terms,
        timers := {
          pending := [⟨1, .response, self, now + terms.responseTimeoutMs⟩]
          next := 2 } } := by
  have hawaits : (Conversation.begun correlation topic now terms).awaitsAnswers = true := by
    show (decide (terms.wait = .untilTimeout) || decide (0 < max terms.wait.expected _)) = true
    cases hw : terms.wait with
    | none =>
      rw [hw] at hwait
      cases hwait
    | exactly n =>
      rw [hw] at hwait
      have hpos : 0 < n := of_decide_eq_true hwait
      rw [Bool.or_eq_true, decide_eq_true_eq, decide_eq_true_eq]
      exact .inr (lt_max_of_lt_left hpos)
    | untilTimeout => rfl
  have harmed : ({ conversation := .start correlation topic now terms, timers := {} } :
      Watch).armResponse self now =
        { conversation := .begun correlation topic now terms,
          timers := {
            pending := [⟨1, .response, self, now + terms.responseTimeoutMs⟩]
            next := 2 } } := by
    simp only [armResponse, Conversation.start, Timers.cancel?, Timers.schedule,
      Nat.add_sub_cancel_left, Bool.false_eq_true, if_false, List.nil_append, List.append_nil]
    rfl
  have hopen : (Conversation.start correlation topic now terms).ended = false := rfl
  simp only [wait, hopen, harmed, hawaits, Bool.false_eq_true, if_false, if_true]

theorem Session.Trial.wait {s u : Session} {j : Inbox} {correlation topic : String} {terms : Terms}
    {callbacks : Callbacks}
    (h : s.Trial ⟨.start correlation topic s.clock terms, callbacks, .shared⟩ j u)
    (hshared : s.shared = {}) (hwait : terms.wait.expectsAnswers = true) :
    u.wait s.nextExchange = u.putWatch s.nextExchange .shared
      { conversation := .begun correlation topic s.clock terms,
        timers := {
          pending := [⟨1, .response, s.nextExchange, s.clock + terms.responseTimeoutMs⟩]
          next := 2 } } := by
  have htimers : u.shared.timers = {} := by rw [h.timers, hshared]
  have hset := Watch.wait_of_start correlation topic s.clock hwait s.nextExchange
  unfold Session.wait
  simp only [h.self, h.clock, Session.watch, Session.desk, htimers, hset]

namespace Session

variable {s s' : Session} {sv : Server} {r : Requester} {p : Json.Value}

/-- A session in which a server takes the requests to its namespace, and nothing else goes on. -/
structure Attends (s : Session) (sv : Server) : Prop where
  served : ∃ b i k, s.channels.broker = .memory b ∧
    b.Lone sv.namesp i { topic := sv.namesp, subscriber := .consumer k } ∧
    s.channels.consumers.get? sv.namesp = some k ∧
    s.channels.made.get? k = some { topic := sv.namesp, handler := some (.server sv) }
  others : ∀ topic, topic ≠ sv.namesp → s.channels.consumers.get? topic = none
  sound : s.channels.Sound
  running : s.channels.shutDown = false
  own : s.own.timers.pending = []
  shared : s.shared = {}
  now : 0 ≤ s.now.seconds
  pid : s.origin.pid ≤ Word.natMax 32

namespace Attends

/-- A session in which nothing was done before can serve. -/
theorem serve (sv : Server) {validateTopics : Bool}
    (hchannels : s.channels = { broker := .memory {}, validateTopics })
    (hown : s.own = {}) (hshared : s.shared = {}) (hnow : 0 ≤ s.now.seconds)
    (hpid : s.origin.pid ≤ Word.natMax 32) (hcheck : s.channels.checkNew sv.namesp = .ok ()) :
    ∃ c, s.serve sv = (.done, { s with channels := c }) ∧
      ({ s with channels := c } : Session).Attends sv ∧ c.validateTopics = validateTopics := by
  have hsound : s.channels.Sound := hchannels ▸ .start _ _
  obtain ⟨b, hsubscribe, hlone⟩ := MemoryBroker.Lone.start sv.namesp
    (Subscriber.consumer s.channels.nextNumber)
  obtain ⟨d, hsubscribed, hd, hgains⟩ := Channels.subscribe_new (congrArg Channels.broker hchannels)
    (congrArg Channels.shutDown hchannels) (hchannels ▸ rfl) hcheck hsubscribe (Handler.server sv)
  have hagree := (Channels.subscribe_agree hsound sv.namesp (Handler.server sv)).sound
  rw [hsubscribed] at hagree
  have hothers : ∀ topic, topic ≠ sv.namesp → d.consumers.get? topic = none := fun topic ht => by
    rw [hgains.consumers, Table.get?_put_ne _ ht, hchannels]
    rfl
  refine ⟨d.note (.serving sv.namesp), ?_, ⟨⟨b, 0, _, hd, hlone, hgains.self⟩, hothers,
    ⟨hagree.made, hagree.numbered⟩,
    hgains.shutDown.trans (congrArg Channels.shutDown hchannels),
    congrArg (fun d => d.timers.pending) hown, hshared, hnow, hpid⟩,
    hgains.validateTopics.trans (congrArg Channels.validateTopics hchannels)⟩
  simp only [Session.serve, hsubscribed]
  rfl

theorem turn (h : s.Attends sv) : s.turn? = none := by
  obtain ⟨b, i, k, hb, hlone, -⟩ := h.served
  exact turn_of_idle hb (hlone.turn_none rfl)

/-- Nothing that the channels look at is changed. -/
theorem steady (h : s.Attends sv) {c : Channels Handler} (ident : Nat)
    (hsteady : s.channels.Steady c) (hb : c.broker = s.channels.broker) (hsound : c.Sound) :
    ({ s with channels := c, nextIdent := ident } : Session).Attends sv where
  served := by
    rw [hb, hsteady.consumers, hsteady.made]
    exact h.served
  others := by
    rw [hsteady.consumers]
    exact h.others
  sound := hsound
  running := hsteady.shutDown.trans h.running
  own := h.own
  shared := h.shared
  now := h.now
  pid := h.pid

/-- The answers to a request can be listened to, by a second worker. -/
theorem listen (h : s.Attends sv) {b : MemoryBroker Subscriber} {i : Nat}
    {v : MemoryBroker.Worker Subscriber} (hb : s.channels.broker = .memory b)
    (hlone : b.Lone sv.namesp i v) (correlation : String) {topic : String} (terms : Terms)
    (callbacks : Callbacks) (htopic : topic ≠ sv.namesp)
    (hcheck : s.channels.checkNew topic = .ok ()) :
    ∃ u j b', (s.place .shared correlation topic terms callbacks).2.listen s.nextExchange =
        (.ok (), u) ∧
      s.Trial ⟨(Conversation.start correlation topic s.clock terms).listen, callbacks, .shared⟩
        j u ∧
      j.topic = topic ∧ j.members.get? correlation = some s.nextExchange ∧
      s.channels.Gains topic (.inbox .shared topic) u.channels ∧
      u.channels.broker = .memory b' ∧ (b'.lane sv.namesp).worker = some i ∧
      b'.Staffed topic i b.nextWorker v
        { topic, subscriber := .consumer s.channels.nextNumber } := by
  have hlabelled : s.Labelled := fun u => by
    rw [Session.inbox, Session.desk, h.shared]
    rfl
  have hinbox : s.inbox .shared topic = { topic } := by
    rw [Session.inbox, Session.desk, h.shared]
    rfl
  have hplaced := place_trial hlabelled correlation topic terms callbacks
  obtain ⟨b', hsubscribe, hstaffed, hserved⟩ :=
    hlone.subscribe htopic (.consumer s.channels.nextNumber)
  obtain ⟨d, hsubscribed, hd, hgains⟩ := Channels.subscribe_new hb h.running
    (h.others topic htopic) hcheck hsubscribe (Handler.inbox .shared topic)
  rw [hinbox] at hplaced
  have hnew : ({ topic } : Inbox).members.get? correlation = none := rfl
  have hregister :=
    Inbox.register_new hnew s.nextExchange (Handler.inbox .shared topic) s.channels
  simp only [hsubscribed, Bool.false_eq_true, if_false] at hregister
  obtain ⟨u, hlisten, rfl, htrial⟩ := hplaced.listen hregister
  exact ⟨u, _, b', hlisten, htrial, rfl, Table.get?_put_self _ _ _, hgains, hd, hserved, hstaffed⟩

/-- When its first conversation waits, such a session is a sitting. -/
theorem sits (h : s.Attends sv) {t : Sitting} {terms : Terms} {u : Session} {j : Inbox}
    {b : MemoryBroker Subscriber} {v w : MemoryBroker.Worker Subscriber}
    (htrial : s.Trial ⟨.start t.line.correlation t.line.topic s.clock terms, t.callbacks, .shared⟩
      j u)
    (hj : j.topic = t.line.topic)
    (hentered : j.members.get? t.line.correlation = some s.nextExchange)
    (hgains : s.channels.Gains t.line.topic (.inbox .shared t.line.topic) u.channels)
    (hcheck : s.channels.checkNew t.line.topic = .ok ())
    (hb : u.channels.broker = .memory b)
    (hstaffed : b.Staffed t.line.topic t.server t.line.worker v w)
    (hw : w.subscriber = .consumer s.channels.nextNumber)
    (hexchange : t.line.exchange = s.nextExchange) (hclock : t.clock = s.clock) :
    t.Holds v w (.begun t.line.correlation t.line.topic s.clock terms)
      (u.putWatch t.line.exchange .shared
        { conversation := .begun t.line.correlation t.line.topic s.clock terms
          timers := t.timers }) := by
  obtain ⟨hconsumers, hmade⟩ := hgains.self
  have hself := htrial.self
  rw [← hexchange] at hself hentered
  have hchanged := (Changed.refl hself).putWatch .shared
    { conversation := .begun t.line.correlation t.line.topic s.clock terms, timers := t.timers }
  have hinbox : u.inbox .shared t.line.topic = j := hj ▸ htrial.inbox
  have horigin : u.origin = s.origin := by rw [origin, htrial.context, origin]
  exact {
    broker := ⟨b, hb, hstaffed⟩
    running := hgains.shutDown.trans h.running
    checked := (Channels.checkNew_congr hgains.validateTopics _).trans hcheck
    consumer := ⟨_, hw, hconsumers, hmade⟩
    entered := (congrArg (fun i => i.members.get? t.line.correlation) hinbox).trans hentered
    exchange := hchanged.self
    numbered := hexchange ▸ (Nat.lt_succ_self s.nextExchange).trans_eq htrial.nextExchange.symm
    now := (congrArg Instant.seconds htrial.now).symm ▸ h.now
    pid := (congrArg Origin.pid horigin).symm ▸ h.pid
    clock := htrial.clock.trans hclock.symm
    own := (congrArg (fun d => d.timers.pending) htrial.own).trans h.own
    timers := rfl }

/-- The request goes out to the server, and then its conversation waits. -/
theorem converse (h : s.Attends sv) (hr : r.namesp = sv.namesp)
    (hsilent : ∀ x, r.callbacks.script? x = none) (hack : r.options.ackTimeoutMs = none)
    (hwait : r.options.wait.expectsAnswers = true)
    (hcheck : s.channels.checkNew (s.origin.responseTopic r.namesp) = .ok ()) {m q : Message}
    {body : Bytes} (hencode : (m.markPublished s.now).encode = .ok body)
    (hbrings : Envelope.Brings ⟨body, false⟩ q) (hcorrelation : q.correlation = m.correlation)
    (hresponse : q.route.response = some (s.origin.responseTopic r.namesp)) :
    ∃ (s' : Session) (t : Sitting), s.converse r m = (.ok (some t.line.exchange), [], s') ∧
      t.Begins sv q r.options.wait s' ∧ t.clock = s.clock ∧
      t.due = s.clock + (s.terms r.options).responseTimeoutMs := by
  have htopic : s.origin.responseTopic r.namesp ≠ sv.namesp :=
    hr ▸ (Topic.forResponses_ne _ _).symm
  have hunlistened : ∀ correlation topic, (Conversation.start correlation topic s.clock
      (s.terms r.options)).listen = .start correlation topic s.clock (s.terms r.options) :=
    fun correlation topic => by
      simp only [Conversation.listen, Conversation.start, Session.terms, hack]
  obtain ⟨b, i, k, hb, hlone, hk, hmade⟩ := h.served
  obtain ⟨u, j, b₁, hlisten, htrial, hj, hentered, hgains, hb₁, hserved, hstaffed⟩ :=
    h.listen hb hlone m.correlation (s.terms r.options) r.callbacks htopic hcheck
  rw [hunlistened] at htrial
  obtain ⟨e, b₂, hsend, hpublish, hb₂⟩ := Channels.send_succeeds r.namesp hb₁
    hstaffed.running hencode
  have hsteady := u.channels.send_steady s.now r.namesp m
  rw [hsend] at hsteady
  have hgains' := hgains.steady hsteady
  obtain ⟨hk', hmade'⟩ := hgains'.other h.sound htopic.symm hk
  let t : Sitting := {
    line := { topic := s.origin.responseTopic r.namesp, correlation := m.correlation,
              exchange := s.nextExchange, worker := b.nextWorker }
    server := i
    clock := s.clock
    timer := 1
    due := s.clock + (s.terms r.options).responseTimeoutMs
    callbacks := r.callbacks
    silent := hsilent }
  have hholds := h.sits (t := t) (htrial.channels e) hj hentered hgains' hcheck hb₂
    (hstaffed.publish_first (hr ▸ hserved) hpublish) rfl rfl rfl
  refine ⟨({ u with channels := e } : Session).wait s.nextExchange, t, ?_, ?_, rfl, rfl⟩
  · rw [converse_eq, hlisten]
    simp only [htrial.now, hsend]
    rfl
  · rw [(htrial.channels e).wait h.shared hwait]
    exact ⟨_, _, _, hholds, ⟨⟨_, ⟨rfl, rfl, rfl⟩, hbrings⟩, ⟨k, rfl, hk', hmade'.trans hmade⟩,
      hresponse, hcorrelation⟩, ⟨rfl, rfl, rfl⟩, ⟨rfl, rfl, rfl, rfl⟩,
      ⟨(Counted.start _ _ _ (s.terms r.options)).of_book rfl, rfl, rfl, rfl⟩⟩

theorem producer (h : s.Attends sv) {topic : String} (hcheck : s.channels.checkNew topic = .ok ()) :
    ∃ n c, s.channels.producer topic = (.ok n, c) ∧ s.channels.Steady c ∧
      c.broker = s.channels.broker ∧ c.Sound := by
  have hsteady := s.channels.producer_steady topic
  have hbroker := s.channels.producer_broker topic
  have hsound := (Channels.producer_agree (P := fun _ => True) h.sound topic).sound
  obtain ⟨n, c, hproducer⟩ : ∃ n c, s.channels.producer topic = (.ok n, c) := by
    unfold Channels.producer
    rw [h.running, hcheck]
    cases s.channels.producers.get? topic <;> exact ⟨_, _, rfl⟩
  rw [hproducer] at hsteady hbroker hsound
  exact ⟨n, c, hproducer, hsteady, hbroker, hsound⟩

/-- The first request of such a session begins a sitting, if it waits for answers. -/
theorem publish (h : s.Attends sv) (hr : r.namesp = sv.namesp)
    (hsilent : ∀ x, r.callbacks.script? x = none) (hack : r.options.ackTimeoutMs = none)
    (hwait : r.options.wait.expectsAnswers = true) (httl : r.options.template.ttl = none)
    (hp : p.Plain 126) (hnamesp : s.channels.checkNew r.namesp = .ok ())
    (hcheck : s.channels.checkNew (s.origin.responseTopic r.namesp) = .ok ()) :
    ∃ (s' : Session) (t : Sitting) (q : Message),
      s.publish r p = (.ok (some t.line.exchange), [], s') ∧
      t.Begins sv q r.options.wait s' ∧ q.payload = (if p.isNull then none else some p) ∧
      t.clock = s.clock ∧ t.due = s.clock + (s.terms r.options).responseTimeoutMs := by
  obtain ⟨body, q, hencode, hdecode, hcorrelation, hresponse, hpayload, hlasting⟩ :=
    requestMessage_encodes h.now h.pid httl hp
  obtain ⟨ident, hsession⟩ := s.requestMessage_session r p
  obtain ⟨hsame, -⟩ := s.requestMessage_fields r p
  obtain ⟨n, c, hproducer, hsteady, hbroker, hsound⟩ := h.producer hnamesp
  have hopens : r.options.opensConversation = true := by
    rw [Options.opensConversation, hwait, Bool.or_true]
  obtain ⟨s', t, hconverse, hbegins, hclock, hdue⟩ :=
    (h.steady ident hsteady hbroker hsound).converse hr hsilent hack hwait
      ((Channels.checkNew_congr hsteady.validateTopics _).trans hcheck) hencode
      ⟨hdecode, hlasting⟩ (hcorrelation.trans hsame.symm) hresponse
  refine ⟨s', t, q, ?_, hbegins, hpayload, hclock, hdue⟩
  unfold Session.publish
  simp only [hsession, hproducer, hopens, if_true]
  exact hconverse

/-- A request that waits for nothing is sent, and that is all. -/
theorem publish_unawaited (h : s.Attends sv) (hopens : r.options.opensConversation = false)
    (httl : r.options.template.ttl = none) (hp : p.Plain 126)
    (hnamesp : s.channels.checkNew r.namesp = .ok ()) :
    ∃ s', s.publish r p = (.ok none, [], s') := by
  obtain ⟨body, q, hencode, -⟩ := requestMessage_encodes h.now h.pid httl hp
  obtain ⟨ident, hsession⟩ := s.requestMessage_session r p
  obtain ⟨n, c, hproducer, hsteady, hbroker, hsound⟩ := h.producer hnamesp
  obtain ⟨b, i, k, hb, hlone, -⟩ := h.served
  obtain ⟨e, b', hsend, -⟩ := Channels.send_succeeds r.namesp (hbroker.trans hb)
    hlone.running hencode
  refine ⟨{ s with channels := e, nextIdent := ident }, ?_⟩
  unfold Session.publish
  simp only [hsession, hproducer, hopens, Bool.false_eq_true, if_false]
  rw [show ({ s with nextIdent := ident, channels := c } : Session).now = s.now from rfl, hsend]

end Attends
end Session
end Colloquy
