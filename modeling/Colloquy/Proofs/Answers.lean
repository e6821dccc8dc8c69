/-
Answers find the conversation of their request.

A request goes out with the topic for its answers in its route, and its conversation is entered
under its correlation in the inbox of just this topic.  A responder has nothing but the request as
it was read: it publishes on the topic that the request names and repeats its correlation.
Whatever can be written is read back as it was, so what is `said` on the `Line` of the conversation
are the messages of its responders, with the acknowledgements and the payloads that they sent.

That is all as long as the line is up.  While the conversation is open, only one thing can take the
line down: anybody can unsubscribe from its topic.  `answer_held_back` shows what happens then.
-/
import Colloquy.Proofs.Contributions
import Colloquy.Proofs.Displacement
import Colloquy.Proofs.Envelope
import Colloquy.Proofs.Rollback
import Colloquy.Proofs.Upkeep

namespace Colloquy

/-! ## Messages as they are read -/

namespace Message

variable {m : Message} {body : Bytes}

theorem decode_of_encode (h : m.Writable) (he : m.encode = .ok body) :
    decode body = .ok { m with payload := m.content? } := by
  cases he.symm.trans (encode_eq h)
  exact Json.document_of_reads (reads_fields h)

/-- A message that was written has times that can be. -/
theorem createdAt_of_encode (he : m.encode = .ok body) : 0 ≤ m.stamp.createdAt.seconds := by
  unfold encode toJson? Stamp.toJson? Instant.toJson? at he
  by_contra hbefore
  simp [hbefore] at he

/-- What is published is stamped with a time and a duration that can be written. -/
theorem writable_published {now : Instant} (hcreated : 0 ≤ m.stamp.createdAt.seconds)
    (hnow : 0 ≤ now.seconds) (httl : ∀ n ∈ m.stamp.ttl, n ≤ Word.natMax 64)
    (hpid : m.stamp.origin.pid ≤ Word.natMax 32) (hack : ∀ a ∈ m.ack, a.Writable)
    (hpayload : ∀ v ∈ m.payload, v.Plain 126) : (m.markPublished now).Writable where
  stamp := {
    createdAt := hcreated
    publishedAt := by
      rintro t ⟨⟩
      exact hnow
    ttl_le := httl
    durationMs_le := by
      intro n hn
      obtain ⟨k, -, rfl⟩ := Option.map_eq_some_iff.mp hn
      exact Nat.le_pred_of_lt (Nat.mod_lt _ (by decide))
    pid_le := hpid }
  ack := hack
  payload := hpayload

end Message

/-- What a message of a responder has from the request and from what is sent. -/
theorem Origin.answer_eq_ok (o : Origin) (now : Instant) (id : String) {request : Message}
    {topic : String} (h : request.route.response = some topic) (template : Template)
    (a : Option Ack) (p : Option Json.Value) :
    ∃ m, o.answer now id request template a p = .ok m ∧ m.id = id ∧
      m.correlation = request.correlation ∧ m.ack = a ∧ m.payload = p ∧
      m.stamp = template.stamp o now := by
  simp only [answer, h]
  exact ⟨_, rfl, rfl, rfl, rfl, rfl, rfl⟩

/-! ## Publishing -/

namespace Channels

variable {η : Type} {c d : Channels η} {b : MemoryBroker Subscriber} {topic : String}
  {now : Instant} {m : Message} {body : Bytes}

/-- The consumers are the same, nothing was shut down, and topics are checked or not as before. -/
structure Steady (c d : Channels η) : Prop where
  consumers : d.consumers = c.consumers
  made : d.made = c.made
  shutDown : d.shutDown = c.shutDown
  validateTopics : d.validateTopics = c.validateTopics

theorem Steady.trans {e : Channels η} (h : c.Steady d) (h' : d.Steady e) : c.Steady e where
  consumers := h'.consumers.trans h.consumers
  made := h'.made.trans h.made
  shutDown := h'.shutDown.trans h.shutDown
  validateTopics := h'.validateTopics.trans h.validateTopics

theorem monitor_steady (c : Channels η) (h : Hook) (t : String) : c.Steady (c.monitor h t) where
  consumers := (monitor_fields c h t).1
  made := (monitor_fields c h t).2.1
  shutDown := monitor_shutDown c h t
  validateTopics := monitor_validateTopics c h t

theorem producer_steady (c : Channels η) (topic : String) : c.Steady (c.producer topic).2 := by
  unfold producer
  split
  · exact ⟨rfl, rfl, rfl, rfl⟩
  · split
    · exact ⟨rfl, rfl, rfl, rfl⟩
    · split
      · exact ⟨rfl, rfl, rfl, rfl⟩
      · refine .trans ?_ (monitor_steady _ _ _)
        exact ⟨rfl, rfl, rfl, rfl⟩

theorem send_steady (c : Channels η) (now : Instant) (topic : String) (m : Message) :
    c.Steady (c.send now topic m).2 := by
  unfold send
  simp only
  split
  · exact ⟨rfl, rfl, rfl, rfl⟩
  · split
    · exact ⟨rfl, rfl, rfl, rfl⟩
    · refine .trans ?_ (monitor_steady _ _ _)
      exact ⟨rfl, rfl, rfl, rfl⟩

theorem send_succeeds (topic : String) (hb : c.broker = .memory b) (hup : b.down = false)
    (henc : (m.markPublished now).encode = .ok body) :
    ∃ d b', c.send now topic m = (.ok (), d) ∧ b.publish topic body = .ok b' ∧
      d.broker = .memory b' := by
  obtain ⟨b', hpublish⟩ : ∃ b', b.publish topic body = .ok b' := by
    simp [MemoryBroker.publish, MemoryBroker.checkRunning, hup, bind, Except.bind]
  have hsend : c.send now topic m =
      (.ok (), (({ c with broker := .memory b' } : Channels η).record []).monitor .sent topic) := by
    simp only [send, henc, hb, Broker.adapter_publish, Broker.publish, hpublish, Except.map]
  exact ⟨_, b', hsend, hpublish, monitor_broker _ _ _⟩

/-- A message that can be written goes out from channels that run. -/
theorem publish_succeeds (hb : c.broker = .memory b) (hup : b.down = false)
    (hs : c.shutDown = false) (hvalid : c.checkNew topic = .ok ())
    (henc : (m.markPublished now).encode = .ok body) :
    ∃ d b', c.publish now topic m = (.ok (), d) ∧ b.publish topic body = .ok b' ∧
      d.broker = .memory b' ∧ c.Steady d := by
  have hsteady := c.producer_steady topic
  have hbroker := c.producer_broker topic
  cases hp : c.producer topic with
  | mk r e =>
    rw [hp] at hsteady hbroker
    cases r with
    | error why =>
      unfold producer at hp
      rw [hs, hvalid] at hp
      cases hn : c.producers.get? topic <;> simp [hn] at hp
    | ok n =>
      have hsent := e.send_steady now topic m
      obtain ⟨d, b', hsend, hpublish, hb'⟩ :=
        send_succeeds topic (hbroker.trans hb) hup henc
      rw [hsend] at hsent
      refine ⟨d, b', ?_, hpublish, hb', hsteady.trans hsent⟩
      simp only [publish, hp, hsend]

end Channels

/-- What is read of a message that a responder sent under an id, with an acknowledgement and a
payload. -/
structure Responder.Read (r : Responder) (id : String) (a : Ack) (p : Option Json.Value)
    (m : Message) : Prop where
  id : m.id = id
  correlation : m.correlation = r.request.correlation
  ack : m.ack = some a
  payload : m.payload = p.filter fun v => !v.isNull
  stamp : m.stamp.Writable
  /-- Without a time to live it never expires. -/
  lasting : r.template.ttl = none → ∀ now, m.isExpired now = false

namespace Session

/-- A session that can publish.  Its channels and its broker run, and its clock does not show a time
before the epoch.  It checks topics if it did at the start. -/
structure Running (s start : Session) (b : MemoryBroker Subscriber) : Prop where
  broker : s.channels.broker = .memory b
  running : b.down = false ∧ s.channels.shutDown = false
  validateTopics : s.channels.validateTopics = start.channels.validateTopics
  now : 0 ≤ s.now.seconds
  pid : s.origin.pid ≤ Word.natMax 32

/-- An answer to a request that names a valid topic goes out there, and can be read. -/
theorem respond_publishes {s start : Session} {b : MemoryBroker Subscriber} {r : Responder}
    {a : Ack} {p : Option Json.Value} {topic : String} (h : s.Running start b)
    (hvalid : start.channels.checkNew topic = .ok ())
    (hr : r.request.route.response = some topic)
    (httl : ∀ n ∈ r.template.ttl, n ≤ Word.natMax 64) (ha : a.Writable)
    (hp : ∀ v ∈ p, v.Plain 126) :
    ∃ m body d b', s.respond r a p = (.ok (), { s.fresh.2 with channels := d }) ∧
      b.publish topic body = .ok b' ∧ d.broker = .memory b' ∧ s.channels.Steady d ∧
      Message.decode body = .ok m ∧ r.Read s.fresh.1 a p m := by
  obtain ⟨k, hanswer, hkid, hkcorrelation, hkack, hkpayload, hkstamp⟩ :=
    s.fresh.2.origin.answer_eq_ok s.fresh.2.now s.fresh.1 hr r.template (some a) p
  have hwritable : (k.markPublished s.fresh.2.now).Writable := by
    refine Message.writable_published ?_ h.now ?_ ?_ ?_ ?_
    · rw [hkstamp]
      exact h.now
    · rw [hkstamp]
      exact httl
    · rw [hkstamp]
      exact h.pid
    · rw [hkack]
      rintro _ ⟨⟩
      exact ha
    · rw [hkpayload]
      exact hp
  have hencode := Message.encode_eq hwritable
  generalize (Json.Value.object (k.markPublished s.fresh.2.now).fields).render = body at hencode
  obtain ⟨d, b', hpublish, hb', hd, hsteady⟩ := Channels.publish_succeeds
    (c := s.fresh.2.channels) h.broker h.running.1 h.running.2
    ((Channels.checkNew_congr h.validateTopics topic).trans hvalid) hencode
  refine ⟨_, body, d, b', ?_, hb', hd, hsteady, Message.decode_of_encode hwritable hencode, ?_⟩
  · simp only [Session.respond, hr, hanswer, hpublish]
  · refine ⟨hkid, hkcorrelation, hkack, ?_, hwritable.stamp, fun hnone now => ?_⟩
    · exact congrArg (Option.filter fun v => !v.isNull) hkpayload
    · simp only [Message.isExpired, Message.markPublished, hkstamp, Template.stamp, hnone]

end Session

namespace Line

/-- What a responder sends with an acknowledgement and a payload goes out on a line.  The broker
takes it on the topic, and it is read as a message of the line, which never expires if the responder
gives its messages no time to live. -/
def GoesOut (l : Line) (r : Responder) (a : Ack) (p : Option Json.Value)
    (b : MemoryBroker Subscriber) (s' : Session) : Prop :=
  ∃ body b' m, b.publish l.topic body = .ok b' ∧ s'.channels.broker = .memory b' ∧
    Message.decode body = .ok m ∧ l.said [.published l.topic body] = [m] ∧
    m.correlation = l.correlation ∧ m.ack = some a ∧ m.payload = p.filter (fun v => !v.isNull) ∧
    (r.template.ttl = none → ∀ now, m.isExpired now = false)

variable {l : Line} {s start : Session} {b : MemoryBroker Subscriber} {r : Responder} {a : Ack}
  {p : Option Json.Value}

theorem said_published {m : Message} {body : Bytes} (h : Message.decode body = .ok m)
    (hm : m.correlation = l.correlation) : l.said [.published l.topic body] = [m] := by
  rw [said, MemoryBroker.publishedOn_published, if_pos rfl, ← hm]
  exact Message.among_of_decode h

/-- A responder for a request that names the topic and has the correlation of the line sends on it,
and the line stays up. -/
theorem goesOut_of_respond (h : s.Running start b)
    (hvalid : start.channels.checkNew l.topic = .ok ())
    (hr : r.request.route.response = some l.topic)
    (hcorrelation : r.request.correlation = l.correlation)
    (httl : ∀ n ∈ r.template.ttl, n ≤ Word.natMax 64) (ha : a.Writable)
    (hp : ∀ v ∈ p, v.Plain 126) :
    (s.respond r a p).1 = .ok () ∧ l.GoesOut r a p b (s.respond r a p).2 ∧
      (b.Sound → l.Up s → l.Up (s.respond r a p).2) := by
  have hstill := s.respond_still r a p
  obtain ⟨m, body, d, b', hrespond, hb', hd, hsteady, hdecode, hread⟩ :=
    Session.respond_publishes h hvalid hr httl ha hp
  have hm := hread.correlation.trans hcorrelation
  rw [hrespond] at hstill ⊢
  refine ⟨rfl, ⟨body, b', m, hb', hd, hdecode, said_published hdecode hm, hm, hread.ack,
    hread.payload, hread.lasting⟩, fun hsound hup => ⟨?_, ?_, ?_⟩⟩
  · rw [hstill.keeps.exchanges]
    exact hup.exchange
  · rw [Session.entry_congr hstill.aside.inboxes]
    exact hup.entered
  · have hadds := MemoryBroker.publish_adds hsound hb'
    exact hup.served.aside h.broker hd hadds.steady hadds.sound hsteady.consumers hsteady.made

end Line

/-! ## Requests -/

namespace Channels

variable {η : Type} {c d : Channels η} {topic : String}

theorem Faithful.send (h : c.Faithful) (now : Instant) (topic : String) (m : Message) :
    (c.send now topic m).2.Faithful := by
  unfold Channels.send
  simp only
  split
  · exact h
  · split
    · exact h.aside (.refl h.broker) rfl rfl (le_refl _) rfl
    · rename_i hb
      refine Faithful.monitor ?_ _ _
      exact h.aside ((Broker.Aside.publish hb).keeps h.broker) rfl rfl (le_refl _) rfl

end Channels

/-- A conversation that could be registered has the topic subscribed for its inbox. -/
theorem Inbox.register_subscribed {η : Type} {i j : Inbox} {correlation : String} {member : Nat}
    {handler : η} {c d : Channels η} (h : c.Faithful)
    (hr : i.register correlation member handler c = (.ok (), j, d)) :
    d.Faithful ∧
      (i.subscribed = true ∧ d.broker = c.broker ∧ d.handler? i.topic = c.handler? i.topic ∨
        (∃ n t, c.broker.subscribe i.topic (.consumer n) = .ok (d.broker, t)) ∧
          d.handler? i.topic = some handler) := by
  have hrecorded : (c.record (i.displacement correlation member)).Faithful :=
    h.aside (.refl h.broker) rfl rfl (le_refl _) rfl
  have hentered : (i.enter correlation member).subscribed = i.subscribed ∧
      (i.enter correlation member).topic = i.topic := ⟨rfl, rfl⟩
  unfold register at hr
  simp only [hentered] at hr
  split at hr
  · rename_i hsub
    cases hr
    exact ⟨hrecorded, .inl ⟨hsub, rfl, rfl⟩⟩
  · split at hr
    · rename_i e he
      cases hr
      have hfaithful := hrecorded.subscribe i.topic handler
      rw [he] at hfaithful
      obtain ⟨why, d, hs, -⟩ | ⟨n, t, d, hs, hb⟩ := hrecorded.subscribe_cases i.topic handler
      · cases he.symm.trans hs
      · cases he.symm.trans hs
        exact ⟨hfaithful, .inr ⟨⟨n, t, hb⟩, (Channels.subscribe_ok hrecorded.sound he).2⟩⟩
    · cases hr

namespace Session

variable {s s' : Session} {r : Requester} {m : Message} {n? : Option Nat} {frames : List Frame}

theorem wait_channels (s : Session) (n : Nat) :
    ∃ t, (s.wait n).channels = s.channels.record t := by
  unfold wait
  split
  · exact ⟨[], by simp [Channels.record]⟩
  · rename_i x _
    cases hd : x.desk <;> exact ⟨_, rfl⟩

/-- A request that opened a conversation has its answers listened to, and its message was sent. -/
theorem converse_eq_ok (hl : s.Labelled) (h : s.converse r m = (.ok n?, frames, s')) :
    n? = some s.nextExchange ∧
      (∃ i c d t, (s.inbox .shared (s.origin.responseTopic r.namesp)).register m.correlation
          s.nextExchange (.inbox .shared (s.origin.responseTopic r.namesp)) s.channels =
            (.ok (), i, c) ∧
        c.send s.now r.namesp m = (.ok (), d) ∧ s'.channels = d.record t) ∧
      ∃ x, x.address? = some (s.origin.responseTopic r.namesp, m.correlation) ∧
        x.conversation.ended = false ∧ s.Opened x (some s.nextExchange) s' := by
  have htopic := hl (s.origin.responseTopic r.namesp)
  obtain ⟨x, hx, hopened⟩ := converse_opened hl r m
  rw [h] at hopened
  cases hr : (s.inbox .shared (s.origin.responseTopic r.namesp)).register m.correlation
      s.nextExchange (.inbox .shared (s.origin.responseTopic r.namesp)) s.channels with
  | mk result ic =>
  obtain ⟨i, c⟩ := ic
  obtain ⟨u, hlisten, hchannels, htrial⟩ := (place_trial hl m.correlation
    (s.origin.responseTopic r.namesp) (s.terms r.options) r.callbacks).listen
      (show _ = (result, i, c) by rw [htopic]; exact hr)
  rw [converse_eq, hlisten] at h
  cases result with
  | error why => cases h
  | ok _ =>
    dsimp only at h
    rw [hchannels, htrial.now] at h
    cases hsend : c.send s.now r.namesp m with
    | mk result d =>
      rw [hsend] at h
      cases result with
      | error why => cases h
      | ok _ =>
        cases h
        obtain ⟨t, ht⟩ := ({ u with channels := d } : Session).wait_channels s.nextExchange
        have hopen : x.conversation.ended = false := by
          by_contra hended
          obtain ⟨y, hy, hover⟩ := wait_over ⟨x, hopened.self, Bool.eq_true_of_not_eq_false hended⟩
          cases (htrial.channels d).self.symm.trans hy
          rw [Conversation.listen_eq] at hover
          cases hover
        rw [entered, hopen] at hopened
        exact ⟨rfl, ⟨i, c, d, t, rfl, hsend, ht⟩, x, hx, hopen, hopened⟩

/-- The message of a request is made by the context, with the next correlation. -/
theorem requestMessage_message (s : Session) (r : Requester) (p : Json.Value) :
    ∃ id, (s.requestMessage r p).1 = s.origin.request s.now id (s.nextCorrelation r) r.namesp
      r.options (if p.isNull then none else some p) := by
  unfold requestMessage nextCorrelation
  cases r.joins <;> exact ⟨_, rfl⟩

theorem publish_eq_ok {p : Json.Value} {n : Nat} (hl : s.Labelled)
    (h : s.publish r p = (.ok (some n), frames, s')) :
    (∃ k c i d e t, s.channels.producer r.namesp = (.ok k, c) ∧
      (s.inbox .shared (s.origin.responseTopic r.namesp)).register (s.nextCorrelation r) n
        (.inbox .shared (s.origin.responseTopic r.namesp)) c = (.ok (), i, d) ∧
      d.send s.now r.namesp (s.requestMessage r p).1 = (.ok (), e) ∧ s'.channels = e.record t) ∧
    ∃ x, s'.exchanges.get? n = some x ∧
      x.address? = some (s.origin.responseTopic r.namesp, s.nextCorrelation r) ∧
      x.conversation.ended = false ∧
      s'.entry (s.origin.responseTopic r.namesp, s.nextCorrelation r) = some n := by
  obtain ⟨ident, hsession⟩ := s.requestMessage_session r p
  obtain ⟨hcorrelation, -⟩ := s.requestMessage_fields r p
  unfold publish at h
  simp only at h
  rw [hsession] at h
  cases hp : s.channels.producer r.namesp with
  | mk result c =>
    rw [hp] at h
    cases result with
    | error why => cases h
    | ok k =>
      simp only at h
      split at h
      · obtain ⟨hn, ⟨i, d, e, t, hregister, hsend, hchannels⟩, x, hx, hopen, hopened⟩ :=
          converse_eq_ok (s := { s with nextIdent := ident, channels := c }) (hl.congr rfl) h
        cases hn
        rw [hcorrelation] at hregister hx
        exact ⟨⟨k, c, i, d, e, t, rfl, hregister, hsend, hchannels⟩, x, hopened.self, hx, hopen,
          hopened.entry hx⟩
      · split at h
        · cases h
        · cases h

end Session

/-! ## Answers -/

theorem Topic.forResponses_ne (namesp instanceId : String) :
    namesp ≠ forResponses namesp instanceId := by
  intro h
  have hlength := congrArg String.length h
  have hmiddle : 0 < ":response:".length := by decide
  rw [forResponses, String.length_append, String.length_append] at hlength
  omega

namespace Line

variable {l : Line} {s start : Session} {b b' : MemoryBroker Subscriber}

/-- What the responders for a request send goes out on a line, and as long as the line is up it
comes to the conversation in the same order, and to no other one. -/
structure Answers (l : Line) (q : Message) (start : Session) : Prop where
  up : l.Up start
  /-- The topic stays served until somebody unsubscribes from it, or something is shut down. -/
  served : ∀ {log : List (Channels.Call Handler)} {s : Session} {b : MemoryBroker Subscriber},
    start.channels.Leads log s.channels → (∀ call ∈ log, call.Spares l.topic) →
    s.channels.broker = .memory b → b.down = false → l.Served s
  /-- What the session does by itself is a run of this kind, if the line is up whenever it is the
  turn of a worker. -/
  runs : ∀ {log : List MemoryBroker.Event} {m : Machine}, l.Lasts start log m.session → ∀ n,
    (∀ k < n, (m.run k).agenda = [] → l.Up (m.run k).session) →
    ∃ seen, l.Lasts start (log ++ seen) (m.run n).session
  /-- Every answer and every acknowledgement goes out on the line, and the line stays up. -/
  sends : ∀ {s : Session} {b : MemoryBroker Subscriber} {r : Responder} {a : Ack}
    {p : Option Json.Value}, s.Running start b → r.request = q →
    (∀ n ∈ r.template.ttl, n ≤ Word.natMax 64) → a.Writable → (∀ v ∈ p, v.Plain 126) →
    (s.respond r a p).1 = .ok () ∧ l.GoesOut r a p b (s.respond r a p).2 ∧
      (b.Sound → l.Up s → l.Up (s.respond r a p).2)
  inOrder : ∀ {log : List MemoryBroker.Event} {s : Session}, l.Lasts start log s → l.Up s →
    ∃ b, s.channels.broker = .memory b ∧ b.Sound ∧
      l.said log = l.heard log ++ l.stored b (some l.worker)
  takes : ∀ {log : List MemoryBroker.Event} {s : Session} {b b' : MemoryBroker Subscriber}
    {id worker : Nat} {subscriber : Subscriber} {e : Envelope} {m : Message},
    l.Lasts start log s → l.Up s → s.channels.broker = .memory b →
    b.turnOf? id = some (.delivery worker subscriber l.topic e b') →
    Message.decode e.body = .ok m → m.correlation = l.correlation → m.isExpired s.now = false →
    Takes s l.exchange m ((s.withBroker (.memory b')).deliver subscriber l.topic e) ∧
      (((s.withBroker (.memory b')).deliver subscriber l.topic e).2.Over l.exchange ∨
        l.Up ((s.withBroker (.memory b')).deliver subscriber l.topic e).2)

theorem Up.answers {q : Message} (h : l.Up start) (hfaithful : start.channels.Faithful)
    (hb : start.channels.broker = .memory b) (hsilent : l.Silent start)
    (hq : q.route.response = some l.topic)
    (hcorrelation : q.correlation = l.correlation) : l.Answers q start := by
  have hvalid : start.channels.checkNew l.topic = .ok () := by
    obtain ⟨k, hk, -⟩ := h.served.consumer
    exact hfaithful.checked _ k hk
  have hstands := h.stands hb (hfaithful.memory_sound hb) hsilent
  refine ⟨h, fun hleads hlog hb' hup => h.served.leads hfaithful hleads hlog hb' hup,
    fun hlasts n hup => hlasts.run hb n hup, ?_, ?_, ?_⟩
  · rintro s b r a p hs rfl httl ha hp
    exact goesOut_of_respond hs hvalid hq hcorrelation httl ha hp
  · intro log s hlasts hup
    obtain ⟨b', hb', h'⟩ := hlasts.stands hb hstands
    obtain ⟨b₀, hb₀, hserved⟩ := hup.served.worker
    cases hb'.symm.trans hb₀
    exact ⟨b', hb', h'.sound, (h'.carries hserved).inOrder⟩
  · intro log s b₁ b₂ id worker subscriber e m hlasts hup hb₁ hturn hdecode hm hfresh
    obtain ⟨b', hb', h'⟩ := hlasts.stands hb hstands
    cases hb₁.symm.trans hb'
    exact hup.takes hb₁ h'.sound hturn hdecode hm hfresh

end Line

namespace Session

variable {s s' : Session} {r : Requester} {p : Json.Value} {n : Nat} {frames : List Frame}
  {b b₀ : MemoryBroker Subscriber} {c d e : Channels Handler}

/-- The message of a request can be written, and is read with what it asks for. -/
theorem requestMessage_encodes (hnow : 0 ≤ s.now.seconds) (hpid : s.origin.pid ≤ Word.natMax 32)
    (httl : r.options.template.ttl = none) (hp : p.Plain 126) :
    ∃ body q, ((s.requestMessage r p).1.markPublished s.now).encode = .ok body ∧
      Message.decode body = .ok q ∧ q.correlation = s.nextCorrelation r ∧
      q.route.response = some (s.origin.responseTopic r.namesp) ∧
      q.payload = (if p.isNull then none else some p) ∧ ∀ now, q.isExpired now = false := by
  obtain ⟨id, hm⟩ := s.requestMessage_message r p
  have httl' : ∀ k ∈ r.options.template.ttl, k ≤ Word.natMax 64 := by
    rw [httl]
    rintro _ ⟨⟩
  have hpayload : ∀ v ∈ if p.isNull then none else some p, v.Plain 126 := by
    intro v hv
    split_ifs at hv
    · cases hv
    · cases hv
      exact hp
  have hwritable := Message.writable_published
    (m := s.origin.request s.now id (s.nextCorrelation r) r.namesp r.options
      (if p.isNull then none else some p)) hnow hnow httl' hpid (fun _ ha => by cases ha) hpayload
  have hencode := Message.encode_eq hwritable
  generalize (Json.Value.object (Message.markPublished _ _).fields).render = body at hencode
  rw [hm]
  refine ⟨body, _, hencode, Message.decode_of_encode hwritable hencode, rfl, rfl, ?_,
    fun now => ?_⟩
  · show Option.filter _ (if p.isNull then none else some p) = _
    split_ifs with hnull
    · rfl
    · simp [Option.filter_some, hnull]
  · simp only [Message.isExpired, Message.markPublished, Origin.request, Template.stamp, httl]

/-- A request that was sent can be read. -/
theorem send_request (hd : d.broker = .memory b₀) (hpid : s.origin.pid ≤ Word.natMax 32)
    (httl : r.options.template.ttl = none) (hp : p.Plain 126)
    (h : d.send s.now r.namesp (s.requestMessage r p).1 = (.ok (), e)) :
    ∃ body b' q, b₀.publish r.namesp body = .ok b' ∧ e.broker = .memory b' ∧
      Message.decode body = .ok q ∧ q.correlation = s.nextCorrelation r ∧
      q.route.response = some (s.origin.responseTopic r.namesp) ∧
      q.payload = (if p.isNull then none else some p) ∧ ∀ now, q.isExpired now = false := by
  obtain ⟨body, t, hencode, hpublish⟩ := Channels.send_eq_ok h
  rw [hd] at hpublish
  obtain ⟨b', hb', hpublish⟩ := Broker.publish_memory hpublish
  have hnow : 0 ≤ s.now.seconds := by
    obtain ⟨id, hm⟩ := s.requestMessage_message r p
    rw [hm] at hencode
    exact Message.createdAt_of_encode hencode
  obtain ⟨body', q, hencode', hread⟩ := requestMessage_encodes hnow hpid httl hp
  cases hencode.symm.trans hencode'
  exact ⟨body, b', q, hpublish, hb', hread⟩

/-- The topic for the answers is subscribed for the inbox, since its first member came or now. -/
theorem served_of_register {i j : Inbox} {correlation : String} (hc : c.Faithful)
    (hb : c.broker = .memory b)
    (hinbox : i.subscribed = true → c.handler? i.topic = some (.inbox .shared i.topic) ∧
      ∃ w k, (b.lane i.topic).worker = some w ∧ b.subscriber? i.topic = some (.consumer k))
    (h : i.register correlation n (.inbox .shared i.topic) c = (.ok (), j, d)) :
    d.Faithful ∧ d.handler? i.topic = some (.inbox .shared i.topic) ∧
      ∃ b₀ w k, d.broker = .memory b₀ ∧ (b₀.lane i.topic).worker = some w ∧
        b₀.subscriber? i.topic = some (.consumer k) ∧
        (b₀ = b ∨ ∃ x, b.subscribe i.topic x = .ok b₀) := by
  obtain ⟨hd, ⟨hsub, hbroker, hhandler⟩ | ⟨⟨k, t, hsubscribe⟩, hhandler⟩⟩ :=
    Inbox.register_subscribed hc h
  · obtain ⟨hbefore, w, k, hw, hk⟩ := hinbox hsub
    exact ⟨hd, hhandler.trans hbefore, b, w, k, hbroker.trans hb, hw, hk, .inl rfl⟩
  · rw [hb] at hsubscribe
    obtain ⟨b₀, hb₀, hsubscribe⟩ := Broker.subscribe_memory hsubscribe
    have hlane : (b₀.lane i.topic).worker = some b.nextWorker := by
      obtain ⟨-, -, rfl⟩ := MemoryBroker.subscribe_eq_ok hsubscribe
      exact congrArg MemoryBroker.Lane.worker
        ((MemoryBroker.lane_put b _ _ i.topic).trans (if_pos rfl))
    have hsubscriber := MemoryBroker.subscribe_subscriber? (hc.memory_sound hb) hsubscribe i.topic
    exact ⟨hd, hhandler, b₀, _, k, hb₀, hlane, hsubscriber.trans (if_pos rfl),
      .inr ⟨_, hsubscribe⟩⟩

end Session

namespace Line

variable {l : Line} {s : Session} {b b₀ b' : MemoryBroker Subscriber}

/-- If nothing with the correlation waits, then nothing does after the topic is subscribed and the
request is out on another one. -/
theorem silent_of_publish {t : String} {body : Bytes} (hb : b.Sound)
    (h : ∀ q, l.stored b q = []) (hb₀ : b₀ = b ∨ ∃ x, b.subscribe l.topic x = .ok b₀)
    (ht : t ≠ l.topic) (hp : b₀.publish t body = .ok b') (hb' : s.channels.broker = .memory b') :
    l.Silent s := by
  have hbefore : b₀.Sound ∧ ∀ q, l.stored b₀ q = [] := by
    obtain rfl | ⟨x, hx⟩ := hb₀
    · exact ⟨hb, h⟩
    · refine ⟨MemoryBroker.subscribe_sound hb hx, fun q => ?_⟩
      rw [stored, MemoryBroker.stored_subscribe hx]
      split_ifs
      · exact h none
      · rfl
      · rfl
      · exact h q
  intro b₁ hb₁ q
  cases hb'.symm.trans hb₁
  obtain ⟨-, rfl⟩ := MemoryBroker.publish_eq_ok hp
  have hcount := MemoryBroker.tally_adds hbefore.1 (b₀.published + 1) b₀.confirmed b₀.rejected
    b₀.retried
  rw [Carries.stored_enqueue hcount.sound l t { body, redelivered := false } q,
    if_neg fun hc => ht hc.1, List.append_nil]
  exact (show l.stored _ q = l.stored b₀ q by cases q <;> rfl).trans (hbefore.2 q)

end Line

namespace Session

variable {s s' : Session} {r : Requester} {p : Json.Value} {n : Nat} {frames : List Frame}
  {b : MemoryBroker Subscriber}

/-- A request that opens a conversation comes out on its namespace as it was made, and its answers
find the conversation. -/
theorem publish_answers (hl : s.Labelled) (hc : s.channels.Faithful)
    (hb : s.channels.broker = .memory b) (hpid : s.origin.pid ≤ Word.natMax 32)
    (httl : r.options.template.ttl = none) (hp : p.Plain 126)
    (hinbox : (s.inbox .shared (s.origin.responseTopic r.namesp)).subscribed = true → ∃ worker,
      Line.Served ⟨s.origin.responseTopic r.namesp, s.nextCorrelation r, n, worker⟩ s)
    (hfresh : ∀ q, Message.among (s.nextCorrelation r)
      (b.stored (s.origin.responseTopic r.namesp) q) = [])
    (h : s.publish r p = (.ok (some n), frames, s')) :
    ∃ b₀ body b' q worker,
      (b₀ = b ∨ ∃ x, b.subscribe (s.origin.responseTopic r.namesp) x = .ok b₀) ∧
      b₀.publish r.namesp body = .ok b' ∧ s'.channels.broker = .memory b' ∧
      Message.decode body = .ok q ∧ q.correlation = s.nextCorrelation r ∧
      q.payload = (if p.isNull then none else some p) ∧ (∀ now, q.isExpired now = false) ∧
      Line.Answers ⟨s.origin.responseTopic r.namesp, s.nextCorrelation r, n, worker⟩ q s' := by
  have htopic := hl (s.origin.responseTopic r.namesp)
  obtain ⟨⟨k, c, i, d, e, t, hproducer, hregister, hsend, hchannels⟩, x, hx, hax, hopen, hentry⟩ :=
    publish_eq_ok hl h
  have hcf := hc.producer r.namesp
  have hcb := s.channels.producer_broker r.namesp
  have hch := (Channels.producer_agree (P := fun _ => True) hc.sound r.namesp).handler
    (s.origin.responseTopic r.namesp) trivial
  rw [hproducer] at hcf hcb hch
  have hbefore : (s.inbox .shared (s.origin.responseTopic r.namesp)).subscribed = true →
      s.channels.handler? (s.origin.responseTopic r.namesp) =
          some (.inbox .shared (s.origin.responseTopic r.namesp)) ∧
        ∃ w a, (b.lane (s.origin.responseTopic r.namesp)).worker = some w ∧
          b.subscriber? (s.origin.responseTopic r.namesp) = some (.consumer a) := fun hsub => by
    obtain ⟨w, hserved⟩ := hinbox hsub
    exact ⟨hserved.handler, w, (hserved.memory hb).2.imp fun _ ha => ⟨(hserved.memory hb).1, ha⟩⟩
  obtain ⟨hdf, hdh, b₀, w, a, hd, hserved, hsubscriber, hb₀⟩ := served_of_register (b := b) hcf
    (hcb.trans hb) (by rw [htopic, hch]; exact hbefore) (by rw [htopic]; exact hregister)
  rw [htopic] at hdh hserved hsubscriber hb₀
  have hef := hdf.send s.now r.namesp (s.requestMessage r p).1
  have heh := (Channels.send_agree (P := fun _ => True) hdf.sound s.now r.namesp
    (s.requestMessage r p).1).handler (s.origin.responseTopic r.namesp) trivial
  rw [hsend] at hef heh
  obtain ⟨body, b', q, hpublish, hb', hdecode, hcorrelation, hroute, hpayload, hlasting⟩ :=
    send_request hd hpid httl hp hsend
  have hs' : s'.channels.broker = .memory b' := by rw [hchannels]; exact hb'
  have hadds := MemoryBroker.publish_adds (hdf.memory_sound hd) hpublish
  have hfaithful : s'.channels.Faithful := by
    rw [hchannels]
    exact hef.aside (.refl hef.broker) rfl rfl (le_refl _) rfl
  have hhandler : s'.channels.handler? (s.origin.responseTopic r.namesp) =
      some (.inbox .shared (s.origin.responseTopic r.namesp)) := by
    rw [hchannels]
    exact heh.trans hdh
  refine ⟨b₀, body, b', q, w, hb₀, hpublish, hs', hdecode, hcorrelation, hpayload, hlasting, ?_⟩
  refine Line.Up.answers ⟨⟨x, hx, hax, hopen⟩, hentry, ?_⟩ hfaithful hs' ?_ hroute hcorrelation
  · exact .of_faithful hfaithful hhandler hs' ((hadds.steady.lane _).trans hserved)
      ((hadds.steady.subscriber? hadds.sound _).trans hsubscriber)
  · exact Line.silent_of_publish (hc.memory_sound hb) hfresh hb₀ (Topic.forResponses_ne _ _)
      hpublish hs'

end Session

namespace Machine

variable {s₀ s s' : Session} {agenda frames : List Frame} {r : Requester} {p : Json.Value} {n : Nat}
  {b : MemoryBroker Subscriber} {log : List (Channels.Call Handler)}

/-- A request with a new correlation that opens a conversation, in any run on a broker in memory: it
comes out on its namespace as it was made, and whatever its responders send comes in on the line of
the conversation, which is up as long as the conversation is open and the topic is served.  All that
is asked of the topic for the answers is that nobody took the inbox its subscription, if it had one,
and that nothing with the new correlation waits there. -/
theorem Reaches.answers_come_in
    (h : Reaches { agenda := [], session := s₀ } { agenda, session := s }) (hs : s₀.Blank)
    (hnew : s₀.channels.New) (hc : s₀.channels.Leads log s.channels)
    (hb : s.channels.broker = .memory b)
    (hpid : s.origin.pid ≤ Word.natMax 32) (httl : r.options.template.ttl = none)
    (hp : p.Plain 126)
    (hinbox : (s.inbox .shared (s.origin.responseTopic r.namesp)).subscribed = true → ∃ worker,
      Line.Served ⟨s.origin.responseTopic r.namesp, s.nextCorrelation r, n, worker⟩ s)
    (hfresh : ∀ q, Message.among (s.nextCorrelation r)
      (b.stored (s.origin.responseTopic r.namesp) q) = [])
    (hpublish : s.publish r p = (.ok (some n), frames, s')) :
    ∃ b₀ body b' q worker,
      (b₀ = b ∨ ∃ x, b.subscribe (s.origin.responseTopic r.namesp) x = .ok b₀) ∧
      b₀.publish r.namesp body = .ok b' ∧ s'.channels.broker = .memory b' ∧
      Message.decode body = .ok q ∧ q.correlation = s.nextCorrelation r ∧
      q.payload = (if p.isNull then none else some p) ∧ (∀ now, q.isExpired now = false) ∧
      Line.Answers ⟨s.origin.responseTopic r.namesp, s.nextCorrelation r, n, worker⟩ q s' ∧
      ∀ m : Machine, Reaches { agenda := [], session := s₀ } m →
        Line.Open ⟨s.origin.responseTopic r.namesp, s.nextCorrelation r, n, worker⟩ m.session →
        Line.Served ⟨s.origin.responseTopic r.namesp, s.nextCorrelation r, n, worker⟩ m.session →
        Line.Up ⟨s.origin.responseTopic r.namesp, s.nextCorrelation r, n, worker⟩ m.session := by
  obtain ⟨b₀, body, b', q, worker, hb₀, hbody, hb', hdecode, hcorrelation, hpayload, hlasting,
    hanswers⟩ := Session.publish_answers (h.tended (.of_blank hs)).filed.labelled
      (hc.faithful hnew.faithful) hb hpid httl hp hinbox hfresh hpublish
  exact ⟨b₀, body, b', q, worker, hb₀, hbody, hb', hdecode, hcorrelation, hpayload, hlasting,
    hanswers, fun m hm hopen hserved => hopen.up (hm.tended (.of_blank hs)).filed hserved⟩

/-! ### Answers that come in, and answers that do not -/

/-- A session with a context, on a broker in memory. -/
def clerkSession : Session where
  channels := { broker := .memory {} }
  start := .epoch
  context := some {
    origin := { name := "clerk", version := "1", instanceId := "i", hostname := "desk", pid := 1 }
    responseTimeoutMs := 1000 }

def questioner : Requester where
  namesp := "clerk:questions"
  options := { wait := .exactly 1 }
  callbacks := { owner := .requester "questioner" }

/-- The first request of a context opens a conversation, and its answers find it. -/
theorem answers_come_in_to_clerk :
    ∃ b' body q worker s',
      (clerkSession.publish questioner (.bool true)).2.2 = s' ∧ s'.channels.broker = .memory b' ∧
      Message.decode body = .ok q ∧ q.correlation = Ident.text 0 ∧ q.payload = some (.bool true) ∧
      Line.Answers ⟨"clerk:questions:response:i", Ident.text 0, 0, worker⟩ q s' := by
  have hopens : (clerkSession.publish questioner (.bool true)).1.toOption = some (some 0) := by
    decide +kernel
  have hblank : clerkSession.Blank := ⟨rfl, rfl, rfl, rfl, rfl⟩
  have hreaches : Reaches { agenda := [], session := clerkSession }
      { agenda := [], session := clerkSession } := .refl
  have hnew : clerkSession.channels.New :=
    .intro true .silent MemoryBroker.Sound.start fun _ _ hx => by cases hx
  cases hpublish : clerkSession.publish questioner (.bool true) with
  | mk result rest =>
    obtain ⟨frames, s'⟩ := rest
    rw [hpublish] at hopens
    cases result with
    | error why => cases hopens
    | ok n? =>
      cases hopens
      obtain ⟨-, body, b', q, worker, -, -, hb', hdecode, hcorrelation, hpayload, -, hanswers, -⟩ :=
        hreaches.answers_come_in hblank hnew .start rfl (by decide) rfl (.bool _ true)
          (fun h => absurd h (by decide)) (fun q => by cases q <;> rfl) hpublish
      exact ⟨b', body, q, worker, s', rfl, hb', hdecode, hcorrelation, hpayload, hanswers⟩

/-- A session in which the requests to the clerk are served by a script.  It takes the topic for the
answers its subscription, and then it answers. -/
def leavingSession : Session :=
  { clerkSession with
    channels := (clerkSession.channels.subscribe "clerk:questions"
      (.server { name := "clerk", namesp := "clerk:questions", template := {}, actions :=
        [.unsubscribe "clerk:questions:response:i", .answer (.integer 1)] })).2 }

/-- What comes of a request to the clerk. -/
def settled : Machine :=
  run 40 { agenda := [], session := (leavingSession.publish questioner (.bool true)).2.2 }

/-- Whether a conversation has ended, and how many answers came. -/
def answersAt (s : Session) (n : Nat) : Option (Bool × Nat) :=
  (s.exchanges.get? n).map fun x => (x.conversation.ended, x.conversation.payloads.length)

/-- How many messages a broker in memory holds back for a topic. -/
def heldBackAt (s : Session) (topic : String) : Option Nat :=
  match s.channels.broker with
  | .memory b => some (b.lane topic).backlog.length
  | .manual _ => none

theorem reaches_settled : Reaches { agenda := [], session := leavingSession } settled := by
  have hframes : (leavingSession.publish questioner (.bool true)).2.1 = [] :=
    List.length_eq_zero_iff.mp (by decide +kernel)
  have hpublish := leavingSession.publish_deed questioner (.bool true)
  rw [hframes] at hpublish
  exact (Reaches.refl.outside hpublish).trans (reaches_run 40 _)

/-- The clerk answers and nothing is left to be done, but the conversation stays open without an
answer.  It waits on a topic that is not subscribed any more. -/
theorem answer_held_back :
    leavingSession.Blank ∧
      (leavingSession.publish questioner (.bool true)).1.toOption = some (some 0) ∧
      Reaches { agenda := [], session := leavingSession } settled ∧
      settled.step?.isNone = true ∧ settled.session.isPending (.conversation 0) = true ∧
      answersAt settled.session 0 = some (false, 0) ∧
      heldBackAt settled.session "clerk:questions:response:i" = some 1 :=
  ⟨⟨rfl, rfl, rfl, rfl, by decide +kernel⟩, by decide +kernel, reaches_settled, by decide +kernel⟩

end Machine
end Colloquy
