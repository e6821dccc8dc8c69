/-
A conversation that sits beside a server.

In a `Sitting` two workers have the broker.  One delivers requests to a server, and the other what
comes back to a conversation of the same session.  There are two things that happen: the server
takes its actions, and what it sends gets behind what waits for the conversation; or the first
message of those that wait is handed over.  Each is told here with all its steps, and so a whole
script, and a whole queue, is told by induction.

The conversation of a sitting has no callbacks, so that only messages and timers move it.
-/
import Colloquy.Proofs.Speech
import Colloquy.Proofs.Staff
import Colloquy.Proofs.Steps

namespace Colloquy

open MemoryBroker (Worker)

/-- The message of the envelope can be read and never expires. -/
def Envelope.Brings (e : Envelope) (m : Message) : Prop :=
  Message.decode e.body = .ok m ∧ ∀ now, m.isExpired now = false

/-- The line of a conversation and the worker of a server beside it, with what does not change as
long as the conversation waits. -/
structure Sitting where
  line : Line
  server : Nat
  clock : Nat
  /-- The number of the timer for answers. -/
  timer : Nat
  due : Nat
  callbacks : Callbacks
  silent : ∀ r, callbacks.script? r = none

namespace Sitting

/-- The timer for answers. -/
def deadline (t : Sitting) : Timer where
  id := t.timer
  kind := .response
  owner := t.line.exchange
  due := t.due

/-- No other timer is set. -/
def timers (t : Sitting) : Timers := { pending := [t.deadline], next := t.timer + 1 }

/-- A message for the conversation that asks for no deadline. -/
structure Fits (t : Sitting) (m : Message) : Prop where
  correlation : m.correlation = t.line.correlation
  ack : ∃ a, m.ack = some a ∧ a.timeoutMs = none

/-- The conversation is the one of the line, and waits with its timer set. -/
structure Waits (t : Sitting) (c : Conversation) : Prop where
  topic : c.topic = t.line.topic
  correlation : c.correlation = t.line.correlation
  responseTimer : c.responseTimer = some t.timer
  completion : c.completion = .waiting

theorem Waits.foldl_take {t : Sitting} {c : Conversation} (h : t.Waits c) (ms : List Message) :
    t.Waits (ms.foldl Conversation.take c) := by
  induction ms generalizing c with
  | nil => exact h
  | cons m ms ih => exact ih ⟨h.topic, h.correlation, h.responseTimer, h.completion⟩

/-- How a session stands in a sitting: the two workers, and the conversation. -/
structure Holds (t : Sitting) (v w : Worker Subscriber) (c : Conversation) (s : Session) :
    Prop where
  broker : ∃ b, s.channels.broker = .memory b ∧
    b.Staffed t.line.topic t.server t.line.worker v w
  running : s.channels.shutDown = false
  checked : s.channels.checkNew t.line.topic = .ok ()
  consumer : ∃ k, w.subscriber = .consumer k ∧
    s.channels.consumers.get? t.line.topic = some k ∧ s.channels.made.get? k =
      some { topic := t.line.topic, handler := some (.inbox .shared t.line.topic) }
  entered : (s.inbox .shared t.line.topic).members.get? t.line.correlation = some t.line.exchange
  exchange : s.exchanges.get? t.line.exchange =
    some { conversation := c, callbacks := t.callbacks, desk := .shared }
  numbered : t.line.exchange < s.nextExchange
  now : 0 ≤ s.now.seconds
  pid : s.origin.pid ≤ Word.natMax 32
  clock : s.clock = t.clock
  own : s.own.timers.pending = []
  timers : s.shared.timers = t.timers

/-- The request of the conversation, and nothing else, waits for a server. -/
structure Asks (t : Sitting) (sv : Server) (q : Message) (v : Worker Subscriber) (s : Session) :
    Prop where
  waiting : ∃ e, v.Free [e] ∧ e.Brings q
  served : ∃ k, v.subscriber = .consumer k ∧ s.channels.consumers.get? sv.namesp = some k ∧
    s.channels.made.get? k = some { topic := sv.namesp, handler := some (.server sv) }
  response : q.route.response = some t.line.topic
  correlation : q.correlation = t.line.correlation

namespace Holds

variable {t : Sitting} {v w v' w' : Worker Subscriber} {c : Conversation} {s s' : Session}
  {b b' : MemoryBroker Subscriber}

/-- Something is done that moves no conversation. -/
theorem unmoved (h : t.Holds v w c s) (hs : s.Unmoved s') (hb : s'.channels.broker = .memory b')
    (hstaffed : b'.Staffed t.line.topic t.server t.line.worker v' w')
    (hw : w'.subscriber = w.subscriber) : t.Holds v' w' c s' where
  broker := ⟨b', hb, hstaffed⟩
  running := hs.channels.shutDown.trans h.running
  checked := (Channels.checkNew_congr hs.channels.validateTopics _).trans h.checked
  consumer := by
    rw [hw, hs.channels.consumers, hs.channels.made]
    exact h.consumer
  entered := by
    rw [hs.inbox]
    exact h.entered
  exchange := by
    rw [hs.keeps.exchanges]
    exact h.exchange
  numbered := by
    rw [hs.keeps.nextExchange]
    exact h.numbered
  now := by
    rw [hs.now]
    exact h.now
  pid := by
    rw [hs.origin]
    exact h.pid
  clock := hs.clock.trans h.clock
  own := by
    rw [hs.own]
    exact h.own
  timers := by
    rw [hs.shared]
    exact h.timers

theorem aside (h : t.Holds v w c s) (hs : s.Unmoved s')
    (hb : s'.channels.broker = s.channels.broker) : t.Holds v w c s' := by
  obtain ⟨b, hbroker, hstaffed⟩ := h.broker
  exact h.unmoved hs (hb.trans hbroker) hstaffed rfl

theorem running_session (h : t.Holds v w c s) (hb : s.channels.broker = .memory b) :
    s.Running s b := by
  obtain ⟨b₀, hb₀, hstaffed⟩ := h.broker
  cases hb₀.symm.trans hb
  exact ⟨hb, ⟨hstaffed.running, h.running⟩, rfl, h.now, h.pid⟩

theorem watch (h : t.Holds v w c s) :
    s.watch { conversation := c, callbacks := t.callbacks, desk := .shared } =
      { conversation := c, timers := t.timers } := by
  rw [Session.watch, Session.desk, h.timers]

/-- The conversation is put back, with the timers that there were. -/
theorem putWatch (h : t.Holds v w c s) (d : Conversation) : t.Holds v w d
    (s.putWatch t.line.exchange .shared { conversation := d, timers := t.timers }) := by
  have hchanged := (Session.Changed.refl h.exchange).putWatch .shared
    { conversation := d, timers := t.timers }
  exact { h with
    exchange := hchanged.self
    numbered := hchanged.nextExchange ▸ h.numbered
    timers := rfl }

/-! ## Settling and releasing -/

theorem confirm (h : t.Holds v w c s) (n : Nat) :
    t.Holds v w c (s.settle n (.automatic .confirm)) := by
  obtain ⟨b, hb, hstaffed⟩ := h.broker
  obtain ⟨b', hb', rfl | ⟨topic, body, rfl⟩⟩ := Session.settle_confirm_broker hb n
  · exact h.unmoved (s.settle_unmoved n _) hb' hstaffed rfl
  · exact h.unmoved (s.settle_unmoved n _) hb' (hstaffed.settle (by decide) topic body) rfl

theorem release (h : t.Holds v w c s) {worker : Nat}
    (hfinish : ∀ b : MemoryBroker Subscriber, b.Staffed t.line.topic t.server t.line.worker v w →
      (b.finish worker).Staffed t.line.topic t.server t.line.worker v' w')
    (hw : w'.subscriber = w.subscriber) :
    ∃ s', s.perform (.release worker) = ([], s') ∧ t.Holds v' w' c s' := by
  obtain ⟨b, hb, hstaffed⟩ := h.broker
  refine ⟨s.withBroker (.memory (b.finish worker)), ?_, ?_⟩
  · simp only [Session.perform, hb]
    rfl
  · exact h.unmoved (s.withBroker_unmoved _) rfl (hfinish b hstaffed) hw

theorem release_server (h : t.Holds v w c s) (hc : v.cancelled = false) :
    ∃ s', s.perform (.release t.server) = ([], s') ∧ t.Holds v.done w c s' :=
  h.release (fun _ hstaffed => hstaffed.finish_first hc) rfl

theorem release_line (h : t.Holds v w c s) (hc : w.cancelled = false) :
    ∃ s', s.perform (.release t.line.worker) = ([], s') ∧ t.Holds v w.done c s' :=
  h.release (fun _ hstaffed => hstaffed.finish_second hc) rfl

theorem idle (h : t.Holds v w c s) (hv : v.ready = false) (hw : w.ready = false) :
    s.turn? = none := by
  obtain ⟨b, hb, hstaffed⟩ := h.broker
  exact Session.turn_of_idle hb (hstaffed.turn_none hv hw)

/-- A worker takes what waits for a consumer with a handler. -/
theorem receives (h : t.Holds v w c s) (hb : s.channels.broker = .memory b) {worker k : Nat}
    {subscriber : Subscriber} {u topic : String} {e : Envelope} {m : Message} {handler : Handler}
    (hturn : b.turn? = some (.delivery worker subscriber u e b'))
    (hstaffed : b'.Staffed t.line.topic t.server t.line.worker v' w')
    (hw : w'.subscriber = w.subscriber) (hsubscriber : subscriber = .consumer k)
    (hk : s.channels.consumers.get? topic = some k)
    (hmade : s.channels.made.get? k = some { topic, handler := some handler }) (he : e.Brings m) :
    ∃ s' : Session, s.turn? =
        some ((s'.dispatch handler s.nextDelivery e.redelivered m).1 ++ [.release worker],
          (s'.dispatch handler s.nextDelivery e.redelivered m).2) ∧
      t.Holds v' w' c s' ∧ s'.nextIdent = s.nextIdent := by
  subst hsubscriber
  refine ⟨_, Session.turn_of_handler hb hturn hk hmade rfl he.1 (he.2 _), ?_, rfl⟩
  exact h.unmoved ((s.withBroker_unmoved (.memory b')).trans (Session.received_unmoved _ _ e))
    (Session.received_broker _ _ e) hstaffed hw

/-! ## Answering -/

section Answering

variable {r : Responder} {scope : Scope} {todo : List Action}

/-- An answer goes out and waits behind the others. -/
theorem respond (h : t.Holds v w c s) {ack : Ack} {p : Option Json.Value}
    (hr : r.request.route.response = some t.line.topic) (httl : r.template.ttl = none)
    (hack : ack.Writable) (hp : ∀ x ∈ p, x.Plain 126) :
    ∃ s' e m, s.respond r ack p = (.ok (), s') ∧ t.Holds v (w.push e) c s' ∧
      s'.nextIdent = s.nextIdent + 1 ∧ e.Brings m ∧
      r.Read (Ident.text s.nextIdent) ack p m := by
  obtain ⟨b, hb, hstaffed⟩ := h.broker
  have httl' : ∀ n ∈ r.template.ttl, n ≤ Word.natMax 64 := by
    rw [httl]
    rintro _ ⟨⟩
  obtain ⟨m, body, d, b', hrespond, hb', hd, hsteady, hdecode, hread⟩ :=
    Session.respond_publishes (h.running_session hb) h.checked hr httl' hack hp
  exact ⟨_, ⟨body, false⟩, m, hrespond,
    h.unmoved (s.fresh_unmoved.trans (.of_steady hsteady rfl)) hd (hstaffed.publish hb') rfl, rfl,
    ⟨hdecode, hread.lasting httl⟩, hread⟩

/-- A script that answers is taken action by action, and the answers wait in their order. -/
theorem utter (h : t.Holds v w c s) (hscope : scope.responder = some r)
    (hr : r.request.route.response = some t.line.topic) (httl : r.template.ttl = none)
    (htodo : ∀ a ∈ todo, r.CanUtter a) (guard : Guard) (rest : List Frame) :
    ∃ s' es ms, Machine.run todo.length ⟨.script scope todo guard :: rest, s⟩ =
        ⟨.script scope [] guard :: rest, s'⟩ ∧
      t.Holds v (w.pushAll es) c s' ∧ List.Forall₂ Envelope.Brings es ms ∧
      r.Utters s.nextIdent todo ms := by
  induction todo generalizing w s with
  | nil => exact ⟨s, [], [], rfl, w.pushAll_nil.symm ▸ h, .nil, .nil _⟩
  | cons a todo ih =>
    obtain ⟨ack, p, hspeech, hack, hp⟩ := htodo a List.mem_cons_self
    obtain ⟨s₁, e, m, hrespond, h₁, hident, hbrings, hread⟩ := h.respond hr httl hack hp
    obtain ⟨s', es, ms, hrun, h', hes, hutters⟩ :=
      ih h₁ fun a ha => htodo a (List.mem_cons_of_mem _ ha)
    rw [hident] at hutters
    refine ⟨s', e :: es, m :: ms, ?_, w.push_pushAll e es ▸ h', .cons hbrings hes,
      .cons hspeech hread hutters⟩
    rw [List.length_cons, Machine.run_perform (Session.perform_speech hscope hspeech hrespond _ _)]
    exact hrun

/-- The server takes the one request that waits for it, and answers. -/
theorem serve (h : t.Holds v w c s) {sv : Server} {q : Message} (hasks : t.Asks sv q v s)
    (httl : sv.template.ttl = none)
    (htodo : ∀ r : Responder, r.request = q → ∀ a ∈ sv.actions, r.CanUtter a) :
    ∃ (r : Responder) (s' : Session) (es : List Envelope) (ms : List Message), r.request = q ∧
      Machine.run (sv.actions.length + 4) ⟨[], s⟩ = ⟨[], s'⟩ ∧
      t.Holds (v.taking []).done (w.pushAll es) c s' ∧ List.Forall₂ Envelope.Brings es ms ∧
      r.Utters (s.nextIdent + 1) sv.actions ms := by
  obtain ⟨e, hv, he⟩ := hasks.waiting
  obtain ⟨k, hsubscriber, hk, hmade⟩ := hasks.served
  obtain ⟨b, hb, hstaffed⟩ := h.broker
  obtain ⟨b₁, hturn, hstaffed₁⟩ := hstaffed.turn_first hv
  obtain ⟨u, hframes, hu, hident⟩ := h.receives hb hturn hstaffed₁ rfl hsubscriber hk hmade he
  have h₁ := hu.aside (u.fresh_unmoved.trans
    (u.fresh.2.happen_unmoved (.requested sv.name q e.redelivered))) rfl
  let r := (u.responder q sv.template).1
  let scope : Scope := { delivery := some s.nextDelivery, responder := some r, message := some q }
  obtain ⟨s₂, es, ms, hrun, h₂, hes, hutters⟩ := h₁.utter (show scope.responder = some r from rfl)
    hasks.response httl (htodo r rfl) (.request sv r s.nextDelivery)
    [.verdict .done (.delivery s.nextDelivery q.id), .release t.server]
  obtain ⟨s₃, hrelease, h₃⟩ := (h₂.confirm s.nextDelivery).release_server hv.cancelled
  refine ⟨r, s₃, es, ms, rfl, ?_, h₃, hes, hident ▸ hutters⟩
  calc Machine.run (sv.actions.length + 4) ⟨[], s⟩
    _ = Machine.run (sv.actions.length + 3) _ := Machine.run_turn hframes _
    _ = Machine.run 3 _ := by
      rw [Machine.run_add]
      exact congrArg (Machine.run 3) hrun
    _ = Machine.run 2 _ := Machine.run_done rfl 2
    _ = Machine.run 1 _ := Machine.run_done rfl 1
    _ = ⟨[], s₃⟩ := Machine.run_done hrelease 0

end Answering

/-! ## Hearing -/

section Hearing

variable {e : Envelope} {es later : List Envelope} {m : Message} {ms heard : List Message}
  {wait : Wait}

/-- The first message that waits comes to the conversation.  Then the conversation is closed, if it
has ended, and the broker is told. -/
theorem hand (h : t.Holds v w c s) (hv : v.ready = false) (hw : w.Free (e :: es)) (he : e.Brings m)
    (hm : m.correlation = t.line.correlation) {a : Ack} (ha : m.ack = some a)
    (hopen : c.ended = false) :
    ∃ u n d end?, t.Holds v (w.taking es) c u ∧
      Watch.receive { conversation := c, timers := t.timers } t.line.exchange t.clock m =
        some (d, end?) ∧
      Machine.run 2 ⟨[], s⟩ = ⟨Session.closing t.line.exchange end? ++
          [.verdict .done (.delivery n m.id), .release t.line.worker],
        u.putWatch t.line.exchange .shared d⟩ := by
  obtain ⟨b, hb, hstaffed⟩ := h.broker
  obtain ⟨k, hsubscriber, hk, hmade⟩ := h.consumer
  obtain ⟨b₁, hturn, hstaffed₁⟩ := hstaffed.turn_second hv hw
  obtain ⟨u, hframes, h₁, -⟩ := h.receives hb hturn hstaffed₁ rfl hsubscriber hk hmade he
  obtain ⟨d, end?, hreceive, hdispatch⟩ := Session.dispatch_of_entered h₁.exchange rfl hopen
    (hm ▸ h₁.entered) s.nextDelivery e.redelivered
  rw [h₁.watch, h₁.clock] at hreceive
  rw [hdispatch] at hframes
  obtain ⟨r, hreport⟩ : ∃ r, Session.reportOf t.line.exchange t.callbacks m =
      [.report (some t.line.exchange) t.callbacks r] := by
    unfold Session.reportOf
    rw [ha]
    split <;> exact ⟨_, rfl⟩
  refine ⟨u, s.nextDelivery, d, end?, h₁, hreceive, ?_⟩
  rw [Machine.run_turn hframes, hreport, List.append_assoc, List.append_assoc]
  exact Machine.run_perform (Session.perform_report t.silent _ _ _) 0

/-- A message with which the conversation goes on. -/
theorem hear (h : t.Holds v w c s) (hv : v.ready = false) (hw : w.Free (e :: es)) (he : e.Brings m)
    (hm : t.Fits m) (hhears : c.Hears wait heard)
    (hcome : wait = .untilTimeout ∨ 0 < History.remaining wait (heard ++ [m])) :
    ∃ s', Machine.run 4 ⟨[], s⟩ = ⟨[], s'⟩ ∧ t.Holds v (w.taking es).done (c.take m) s' ∧
      (c.take m).Hears wait (heard ++ [m]) := by
  obtain ⟨a, ha, htimeout⟩ := hm.ack
  have huntimed : ∀ k ∈ m.ack, k.timeoutMs = none := by
    rw [ha]
    rintro _ ⟨⟩
    exact htimeout
  obtain ⟨u, n, d, end?, hu, hreceive, hrun⟩ := h.hand hv hw he hm.correlation ha hhears.ended
  obtain ⟨hgoes, hnext⟩ := Watch.receive_of_hears (w := { conversation := c, timers := t.timers })
    hhears huntimed hcome t.line.exchange t.clock
  cases hreceive.symm.trans hgoes
  obtain ⟨s', hrelease, h'⟩ := ((hu.putWatch (c.take m)).confirm n).release_line hw.cancelled
  refine ⟨s', ?_, h', hnext⟩
  calc Machine.run 4 ⟨[], s⟩
    _ = Machine.run 2 _ := by rw [Machine.run_add _ 2 2, hrun]; rfl
    _ = Machine.run 1 _ := Machine.run_done rfl 1
    _ = ⟨[], s'⟩ := Machine.run_done hrelease 0

/-- A message with which the conversation ends. -/
theorem hear_last (h : t.Holds v w c s) (hv : v.ready = false) (hw : w.Free (e :: es))
    (he : e.Brings m) (hm : t.Fits m) (hhears : c.Hears wait heard) (hwait : wait ≠ .untilTimeout)
    (hlast : History.remaining wait (heard ++ [m]) = 0) :
    ∃ rest s', Machine.run 5 ⟨[], s⟩ = ⟨rest, s'⟩ ∧
      s'.Knows t.line.exchange ((c.take m).ending .allResponsesReceived) := by
  obtain ⟨a, ha, -⟩ := hm.ack
  obtain ⟨u, n, d, end?, hu, hreceive, hrun⟩ := h.hand hv hw he hm.correlation ha hhears.ended
  obtain ⟨d', hends, hended, hclosing⟩ := Watch.receive_of_last
    (w := { conversation := c, timers := t.timers }) hhears hwait hlast t.line.exchange t.clock
  cases hreceive.symm.trans hends
  have hchanged := (Session.Changed.refl hu.exchange).putWatch .shared d
  obtain ⟨s', hcloses, hknows⟩ := Session.closes hchanged.self hended hclosing t.silent
    (hchanged.nextExchange ▸ hu.numbered) ((c.take m).ending .allResponsesReceived) _
  exact ⟨_, s', by rw [Machine.run_add _ 2 3, hrun]; exact hcloses, hknows⟩

/-- As long as something is to come after each of the messages, they are handed over one by one. -/
theorem hear_all (h : t.Holds v w c s) (hv : v.ready = false) (hw : w.Free (es ++ later))
    (hes : List.Forall₂ Envelope.Brings es ms) (hfits : ∀ m ∈ ms, t.Fits m)
    (hhears : c.Hears wait heard)
    (hcome : wait = .untilTimeout ∨
      ∀ k < ms.length, 0 < History.remaining wait (heard ++ ms.take (k + 1))) :
    ∃ s' w', Machine.run (4 * ms.length) ⟨[], s⟩ = ⟨[], s'⟩ ∧
      t.Holds v w' (ms.foldl Conversation.take c) s' ∧ w'.Free later ∧
      (ms.foldl Conversation.take c).Hears wait (heard ++ ms) := by
  induction hes generalizing w c s heard with
  | nil => exact ⟨s, w, rfl, h, hw, (List.append_nil heard).symm ▸ hhears⟩
  | @cons e m es ms he hes ih =>
    have hm := hfits m List.mem_cons_self
    obtain ⟨s₁, hrun₁, h₁, hhears₁⟩ := h.hear hv hw he hm hhears
      (hcome.imp_right fun hcome => hcome 0 (Nat.zero_lt_succ _))
    obtain ⟨s', w', hrun, h', hw', hhears'⟩ := ih h₁ hw.done
      (fun m hm => hfits m (List.mem_cons_of_mem _ hm)) hhears₁ (hcome.imp_right
        fun hcome k hk => by
          rw [List.append_assoc]
          exact hcome (k + 1) (Nat.succ_lt_succ hk))
    refine ⟨s', w', ?_, h', hw', ?_⟩
    · rw [List.length_cons, Nat.mul_succ, Nat.add_comm, Machine.run_add, hrun₁]
      exact hrun
    · rw [List.append_assoc] at hhears'
      exact hhears'

variable {responder : String} {n : Nat} {first : Message} {answers : List Message}

/-- A recital does not end a conversation that expects more. -/
theorem hear_recital (h : t.Holds v w c s) (hv : v.ready = false) (hw : w.Free es)
    (hes : List.Forall₂ Envelope.Brings es (first :: answers))
    (hfits : ∀ m ∈ first :: answers, t.Fits m) (hrecital : Recital responder n first answers)
    (hn : n ≤ countLimit) (hlength : answers.length = n) (hhears : c.Hears wait [])
    (hmore : wait = .untilTimeout ∨ n < wait.expected) :
    ∃ s' w', Machine.run (4 * (n + 1)) ⟨[], s⟩ = ⟨[], s'⟩ ∧
      t.Holds v w' ((first :: answers).foldl Conversation.take c) s' ∧ w'.Free [] ∧
      ((first :: answers).foldl Conversation.take c).Hears wait (first :: answers) := by
  have hcome : wait = .untilTimeout ∨ ∀ k < (first :: answers).length,
      0 < History.remaining wait ([] ++ (first :: answers).take (k + 1)) :=
    hmore.imp_right fun hmore k hk => by
      rw [List.length_cons] at hk
      rw [List.nil_append, hrecital.remaining_take hn (Nat.le_of_lt_succ hk)]
      omega
  rw [← List.append_nil es] at hw
  obtain ⟨s', w', hrun, h', hw', hhears'⟩ := h.hear_all hv hw hes hfits hhears hcome
  rw [List.length_cons, hlength] at hrun
  exact ⟨s', w', hrun, h', hw', hhears'⟩

/-- The last answer of a recital ends the conversation, and none before it does, if the conversation
expects some of the answers or all of them. -/
theorem hear_recital_out (h : t.Holds v w c s) (hv : v.ready = false) (hw : w.Free es)
    (hes : List.Forall₂ Envelope.Brings es (first :: answers))
    (hfits : ∀ m ∈ first :: answers, t.Fits m) (hrecital : Recital responder n first answers)
    (hn : n ≤ countLimit) (hlength : answers.length = n) (hhears : c.Hears wait [])
    (hwait : wait ≠ .untilTimeout) (hsome : 0 < n) (hle : wait.expected ≤ n) :
    ∃ rest s', Machine.run (4 * n + 5) ⟨[], s⟩ = ⟨rest, s'⟩ ∧ s'.Knows t.line.exchange
      (((first :: answers).foldl Conversation.take c).ending .allResponsesReceived) := by
  obtain ⟨begun, last, rfl⟩ : ∃ begun last, answers = begun ++ [last] := by
    refine (List.eq_nil_or_concat' answers).resolve_left ?_
    rintro rfl
    exact hsome.ne hlength
  rw [List.length_append, List.length_singleton] at hlength
  rw [← List.cons_append] at hes hfits ⊢
  have hcome : ∀ k < (first :: begun).length,
      0 < History.remaining wait ([] ++ (first :: begun).take (k + 1)) := fun k hk => by
    rw [List.length_cons] at hk
    rw [List.nil_append, hrecital.of_append.remaining_take hn (Nat.le_of_lt_succ hk)]
    omega
  have hbegun := List.forall₂_take_append es (first :: begun) [last] hes
  have hlast := List.forall₂_drop_append es (first :: begun) [last] hes
  rw [← List.take_append_drop (first :: begun).length es] at hw
  obtain ⟨s₁, w₁, hrun₁, h₁, hw₁, hhears₁⟩ := h.hear_all hv hw hbegun
    (fun m hm => hfits m (List.mem_append_left _ hm)) hhears (.inr hcome)
  generalize es.drop (first :: begun).length = later at hlast hw₁
  obtain _ | ⟨he, ⟨⟩⟩ := hlast
  have hzero : History.remaining wait (([] ++ (first :: begun)) ++ [last]) = 0 := by
    rw [List.nil_append, List.cons_append, hrecital.remaining_eq hn, List.length_append,
      List.length_singleton]
    omega
  obtain ⟨rest, s', hrun, hknows⟩ := h₁.hear_last hv hw₁ he
    (hfits last (List.mem_append_right _ List.mem_cons_self)) hhears₁ hwait hzero
  refine ⟨rest, s', ?_, ?_⟩
  · rw [List.length_cons, hlength] at hrun₁
    rw [Machine.run_add, hrun₁]
    exact hrun
  · rw [List.foldl_append]
    exact hknows

end Hearing

/-! ## Waiting -/

/-- When nothing is left to be done, the conversation waits for its timer, and that ends it. -/
theorem times_out (h : t.Holds v w c s) (hwaits : t.Waits c)
    (hopen : c.ended = false) :
    s.nextTimer? = some (.shared, t.deadline) ∧
      s.isPending (.conversation t.line.exchange) = true ∧
      (s.letFire .shared t.deadline).Knows t.line.exchange (c.ending .responseTimeout) := by
  have hregistered : (s.inbox .shared c.topic).members.get? c.correlation =
      some t.line.exchange := by
    rw [hwaits.topic, hwaits.correlation]
    exact h.entered
  have hkept : s.isAbandoned t.line.exchange
      { conversation := c, callbacks := t.callbacks, desk := .shared } = false := by
    simp only [Session.isAbandoned, Session.isRegistered, hregistered, beq_self_eq_true,
      Bool.not_true, Bool.false_and]
  refine ⟨?_, ?_, ?_⟩
  · rw [Session.nextTimer?, Timers.earliest?, h.own, Timers.earliest?, h.timers]
    rfl
  · simp only [Session.isPending, Session.status, Session.awaited, h.exchange, hwaits.completion,
      hkept, Bool.false_eq_true, if_false]
  · obtain ⟨d, u, hfire, hchanged, hended, hclosing⟩ := Session.fire_of_kept
      (s := { s with clock := max s.clock t.due }) (t := t.deadline) h.exchange rfl hkept hopen
      hwaits.responseTimer
    obtain ⟨s', hcloses, hknows⟩ := Session.closes hchanged.self hended hclosing t.silent
      (hchanged.nextExchange ▸ h.numbered) (c.ending .responseTimeout) []
    have hfew : 3 ≤ Session.stepLimit := by decide
    have hletFire : s.letFire .shared t.deadline =
        u.settleAll [.close t.line.exchange (c.ending .responseTimeout)] :=
      congrArg (fun r => r.2.settleAll r.1) hfire
    rw [hletFire]
    exact hknows.settled hcloses hfew

end Holds

/-- Nothing is left to be done, and the conversation is open. -/
structure Idles (t : Sitting) (c : Conversation) (s : Session) : Prop where
  holds : ∃ v w, t.Holds v w c s ∧ v.ready = false ∧ w.ready = false
  waits : t.Waits c
  opened : c.ended = false

namespace Idles

variable {t : Sitting} {c : Conversation} {s s' : Session}

theorem aside (h : t.Idles c s) (hs : s.Unmoved s')
    (hb : s'.channels.broker = s.channels.broker) : t.Idles c s' := by
  obtain ⟨v, w, hholds, hv, hw⟩ := h.holds
  exact ⟨⟨v, w, hholds.aside hs hb, hv, hw⟩, h.waits, h.opened⟩

theorem turn (h : t.Idles c s) : s.turn? = none := by
  obtain ⟨v, w, hholds, hv, hw⟩ := h.holds
  exact hholds.idle hv hw

theorem settleAll (h : t.Idles c s) : s.settleAll [] = s :=
  Session.settleAll_of_rest rfl (Nat.zero_le _) h.turn

/-- Who waits for its end waits until the deadline. -/
theorem await (h : t.Idles c s) :
    s.await (.conversation t.line.exchange) = s.letFire .shared t.deadline ∧
      (s.letFire .shared t.deadline).Knows t.line.exchange (c.ending .responseTimeout) := by
  obtain ⟨v, w, hholds, hv, hw⟩ := h.holds
  obtain ⟨hnext, hpending, hknows⟩ := hholds.times_out h.waits h.opened
  exact ⟨hknows.await_timer hpending hnext, hknows⟩

end Idles

/-! ## The whole of it -/

/-- A sitting at its start.  The request waits for the server, and the conversation for answers. -/
def Begins (t : Sitting) (sv : Server) (q : Message) (wait : Wait) (s : Session) : Prop :=
  ∃ v w c, t.Holds v w c s ∧ t.Asks sv q v s ∧ w.Free [] ∧ t.Waits c ∧ c.Hears wait []

namespace Begins

variable {t : Sitting} {sv : Server} {q : Message} {wait : Wait} {s : Session} {n : Nat}

/-- The server announces its answers and sends them all, before the first of them is handed over. -/
theorem recites (h : t.Begins sv q wait s) (httl : sv.template.ttl = none)
    (hactions : sv.actions = Action.recital n)
    (hn : (n : Int) ≤ Word.intMax 32) (hpayload : (q.payload.getD .null).Plain 125) :
    ∃ s' v w c es responder first answers,
      Machine.run (n + 5) ⟨[], s⟩ = ⟨[], s'⟩ ∧ t.Holds v w c s' ∧ v.ready = false ∧ w.Free es ∧
      t.Waits c ∧ c.Hears wait [] ∧ List.Forall₂ Envelope.Brings es (first :: answers) ∧
      (∀ m ∈ first :: answers, t.Fits m) ∧ Recital responder n first answers ∧
      answers.length = n ∧ ∀ reason : Reason,
        (((first :: answers).foldl Conversation.take c).ending reason).Echoes n
          (q.payload.getD .null) := by
  obtain ⟨v, w, c, hholds, hasks, hw, hwaits, hhears⟩ := h
  have htodo : ∀ r : Responder, r.request = q → ∀ a ∈ sv.actions, r.CanUtter a := by
    rintro r rfl a ha
    exact Responder.canUtter_of_mem_recital hn hpayload (hactions ▸ ha)
  obtain ⟨r, s', es, ms, rfl, hrun, h', hes, hutters⟩ := hholds.serve hasks httl htodo
  obtain ⟨e, hv, -⟩ := hasks.waiting
  rw [hactions] at hutters hrun
  rw [Action.length_recital] at hrun
  have hnumbers : Word.intMax 32 < (32 ^ Ident.width : Nat) := by decide
  obtain ⟨first, answers, rfl, hrecital, hlength, hpayloads⟩ := hutters.recital (by omega)
  refine ⟨s', _, _, c, es, r.id, first, answers, hrun, h', hv.done.not_ready, hw.pushAll es,
    hwaits, hhears, hes, fun m hm => ⟨?_, hrecital.untimed hm⟩, hrecital, hlength, ?_⟩
  · exact (hutters.forall_read hm).1.trans hasks.correlation
  · exact hrecital.ending_echoes hpayloads (fun m hm => (hutters.forall_read hm).2) hhears.counted

theorem few_steps (hn : (n : Int) ≤ Word.intMax 32) :
    (n + 5) + (4 * n + 5) ≤ Session.stepLimit := by
  have hmost : Word.intMax 32 = 2147483647 := by decide
  have hlimit : Session.stepLimit = 4611686018427387904 := by decide
  omega

/-- If the conversation expects some of the answers or all of them, its end is known when nothing is
left to be done. -/
theorem ends_with_answers (h : t.Begins sv q wait s) (httl : sv.template.ttl = none)
    (hactions : sv.actions = Action.recital n) (hn : (n : Int) ≤ Word.intMax 32)
    (hpayload : (q.payload.getD .null).Plain 125) (hwait : wait ≠ .untilTimeout) (hsome : 0 < n)
    (hle : wait.expected ≤ n) :
    ∃ e, (s.settleAll []).Knows t.line.exchange e ∧ e.reason = .allResponsesReceived ∧
      e.Echoes n (q.payload.getD .null) := by
  obtain ⟨s₁, v, w, c, es, responder, first, answers, hrun₁, h₁, hv, hw, -, hhears, hes, hfits,
    hrecital, hlength, hechoes⟩ := h.recites httl hactions hn hpayload
  have hmost : Word.intMax 32 ≤ (countLimit : Int) := by decide
  obtain ⟨rest, s', hrun, hknows⟩ := h₁.hear_recital_out hv hw hes hfits hrecital (by omega)
    hlength hhears hwait hsome hle
  have hruns : Machine.run ((n + 5) + (4 * n + 5)) ⟨[], s⟩ = ⟨rest, s'⟩ := by
    rw [Machine.run_add, hrun₁]
    exact hrun
  exact ⟨_, hknows.settled hruns (few_steps hn), rfl, hechoes _⟩

/-- If it expects more, then it is still open with all of them. -/
theorem idles_after_answers (h : t.Begins sv q wait s) (httl : sv.template.ttl = none)
    (hactions : sv.actions = Action.recital n) (hn : (n : Int) ≤ Word.intMax 32)
    (hpayload : (q.payload.getD .null).Plain 125)
    (hmore : wait = .untilTimeout ∨ n < wait.expected) :
    ∃ c, t.Idles c (s.settleAll []) ∧
      ∀ reason : Reason, (c.ending reason).Echoes n (q.payload.getD .null) := by
  obtain ⟨s₁, v, w, c, es, responder, first, answers, hrun₁, h₁, hv, hw, hwaits, hhears, hes, hfits,
    hrecital, hlength, hechoes⟩ := h.recites httl hactions hn hpayload
  have hmost : Word.intMax 32 ≤ (countLimit : Int) := by decide
  obtain ⟨s', w', hrun, h', hw', hhears'⟩ := h₁.hear_recital hv hw hes hfits hrecital (by omega)
    hlength hhears hmore
  have hidles : t.Idles _ s' :=
    ⟨⟨v, w', h', hv, hw'.not_ready⟩, hwaits.foldl_take _, hhears'.ended⟩
  have hruns : Machine.run ((n + 5) + (4 * (n + 1))) ⟨[], s⟩ = ⟨[], s'⟩ := by
    rw [Machine.run_add, hrun₁]
    exact hrun
  have hfew := few_steps hn
  rw [Session.settleAll_of_rest hruns (by omega) hidles.turn]
  exact ⟨_, hidles, hechoes⟩

end Begins
end Sitting
end Colloquy
