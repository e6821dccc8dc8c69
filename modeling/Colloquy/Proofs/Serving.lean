/-
What becomes of a request that comes to a server.

A handler of requests may send through its responder and call its receipt as it likes, may go on
after what failed, and may come out in any way.  What it has others do are its errands: the broker
takes a message or hears what became of the delivery.  If the handler comes out well, nothing more
is sent.  If it does not, the error handler is called, or the failure is reported to the requester
if the server has none, and the delivery is rejected unless it is settled or may not be settled by
the library.  The consumer hears of a success in any case, and that changes nothing any more.
-/
import Colloquy.Proofs.Answers
import Colloquy.Proofs.Handlers

namespace Colloquy

/-! ## What is left to settle -/

namespace Receipt

variable {r : Receipt} {auto : Bool}

/-- What is left for the library to settle with `x` after some calls. -/
def left (redelivered : Bool) (cs : List Call) (x : Settlement) : List Settlement :=
  match effective true cs with
  | some _ => []
  | none => if autoAfter true cs then [x.bounded redelivered] else []

/-- How far a delivery is settled if the library settles it with `x` after some calls. -/
def ending (redelivered : Bool) (cs : List Call) (x : Settlement) : Resolution :=
  match effective true cs with
  | some y => (y.bounded redelivered).resolution
  | none => if autoAfter true cs then (x.bounded redelivered).resolution else .pending

/-- Where the library settled, or was not allowed to, it settles nothing more. -/
theorem effective_append_two (cs : List Call) (x y : Settlement) :
    effective auto (cs ++ [.automatic x, .automatic y]) =
      effective auto (cs ++ [.automatic x]) := by
  rw [List.append_cons, effective_append, autoAfter_append, effective_append]
  cases effective auto cs with
  | some z => rfl
  | none => cases autoAfter auto cs <;> rfl

theorem after_settle (h : r.state = .pending) (x : Settlement) (explicit : Bool) (cs : List Call) :
    ((r.settle x explicit).receipt.after cs).state = (x.bounded r.redelivered).resolution := by
  rw [settle_of_pending h]
  exact after_of_settled (x.bounded r.redelivered).resolution_ne_pending cs

/-- A pending receipt is settled with the first effective call. -/
theorem after_state (h : r.state = .pending) (cs : List Call) :
    (r.after cs).state =
      ((effective r.auto cs).map fun x => (x.bounded r.redelivered).resolution).getD .pending := by
  induction cs generalizing r with
  | nil => exact h
  | cons c cs ih =>
    cases c with
    | explicit x => exact after_settle h x true cs
    | automatic x =>
      cases hauto : r.auto with
      | true =>
        have hcall : (r.call (.automatic x)).receipt = (r.settle x false).receipt := by
          rw [call, if_pos hauto]
        exact (congrArg (fun r => (after r cs).state) hcall).trans (after_settle h x false cs)
      | false =>
        have hcall : (r.call (.automatic x)).receipt = r := by
          rw [call, if_neg (by simp [hauto])]
        have hrest := ih h
        rw [hauto] at hrest
        exact (congrArg (fun r => (after r cs).state) hcall).trans hrest
    | setAuto on => exact ih (r := { r with auto := on }) h

variable {topic : String} {redelivered : Bool} {cs ds : List Call} {x : Settlement}

/-- After calls of a handler come calls of which the first one alone can count. -/
theorem forwarded_left
    (h : effective true (cs ++ ds) = effective true (cs ++ [.automatic x])) :
    (after { topic, redelivered } cs).forwarded ds = left redelivered cs x := by
  have hall := forwarded_append { topic, redelivered } cs ds
  rw [forwarded_eq_effective rfl, forwarded_eq_effective rfl, h, effective_append] at hall
  unfold left
  cases heffective : effective true cs with
  | some y =>
    rw [heffective] at hall
    exact List.append_right_eq_self.mp hall.symm
  | none =>
    rw [heffective] at hall
    cases hauto : autoAfter true cs with
    | true =>
      rw [hauto] at hall
      exact hall.symm
    | false =>
      rw [hauto] at hall
      exact hall.symm

theorem after_ending
    (h : effective true (cs ++ ds) = effective true (cs ++ [.automatic x])) :
    (after { topic, redelivered } (cs ++ ds)).state = ending redelivered cs x := by
  rw [after_state rfl, h, effective_append]
  unfold ending
  cases effective true cs with
  | some y => rfl
  | none => cases autoAfter true cs <;> rfl

end Receipt

/-! ## Errands -/

/-- Something a session has done by others. -/
inductive Errand where
  /-- The broker takes a message. -/
  | publish (topic : String) (key : Option String) (body : Bytes)
  /-- The broker hears what became of a delivery. -/
  | settle (x : Settlement) (topic : String) (body : Bytes)
  /-- A handler is called. -/
  | call (h : Happening)

/-- What can be seen of messages and settlements by hand, and of the handlers of requests. -/
def Trace.shown (t : Trace) : Trace :=
  t.filter fun
    | .happening (.published ..) | .happening (.settled ..) => true
    | .happening (.requested ..) | .happening (.requestFailed ..) => true
    | _ => false

@[simp] theorem Trace.shown_append (t u : Trace) : shown (t ++ u) = shown t ++ shown u :=
  List.filter_append ..

theorem Trace.shown_notes (ns : List Note) : shown (ns.map .note) = [] := by
  induction ns with
  | nil => rfl
  | cons n ns ih => exact ih

namespace Broker

variable {σ : Type} {b b' : Broker σ} {topic : String} {body : Bytes} {t : Trace}

theorem publish_shown {key : Option String} (h : b.publish topic key body = .ok (b', t)) :
    t.shown = t := by
  cases b with
  | memory m =>
    simp only [publish] at h
    cases hm : m.publish topic body <;> rw [hm] at h <;> cases h
    rfl
  | manual m =>
    simp only [publish] at h
    cases hm : m.publish topic body <;> rw [hm] at h <;> cases h
    rfl

theorem settle_shown (b : Broker σ) (x : Settlement) (topic : String) (body : Bytes) :
    (b.settle x topic body).2.shown = (b.settle x topic body).2 := by
  cases b <;> rfl

end Broker

namespace Errand

/-- The broker and what was seen, after an errand.  A broker that refuses is as before. -/
def run (w : Broker Subscriber × Trace) : Errand → Broker Subscriber × Trace
  | publish topic key body =>
    match w.1.publish topic key body with
    | .ok (b, t) => (b, w.2 ++ t)
    | .error _ => w
  | settle x topic body => (w.1.told topic body x, w.2 ++ (w.1.settle x topic body).2)
  | call h => (w.1, w.2 ++ [.happening h])

def settlement? : Errand → Option Settlement
  | settle x _ _ => some x
  | _ => none

/-- An errand of a handler: a message for the one who asked, or word of the delivery. -/
def IsFor (p : Responder) (topic : String) (body : Bytes) : Errand → Prop
  | publish t _ _ => p.request.route.response = some t
  | settle _ t b => t = topic ∧ b = body
  | call _ => False

end Errand

namespace Channels

variable {η : Type}

/-- What others can see of channels. -/
def outside (c : Channels η) : Broker Subscriber × Trace := (c.broker, c.trace.shown)

theorem record_outside {c : Channels η} {t : Trace} (h : t.shown = []) :
    (c.record t).outside = c.outside := by
  simp only [outside, record, Trace.shown_append, h, List.append_nil]

theorem monitor_outside (c : Channels η) (h : Hook) (topic : String) :
    (c.monitor h topic).outside = c.outside := by
  unfold monitor
  split
  · rfl
  · exact record_outside rfl
  · rfl

theorem producer_outside (c : Channels η) (topic : String) :
    (c.producer topic).2.outside = c.outside := by
  unfold producer
  split
  · rfl
  · split
    · rfl
    · split
      · rfl
      · exact monitor_outside _ _ _

theorem send_outside (c : Channels η) (now : Instant) (topic : String) (m : Message) :
    (∃ why, (c.send now topic m).1 = .error why ∧ (c.send now topic m).2.outside = c.outside ∧
        ((m.markPublished now).encode = .error why ∨
          ∃ body, (m.markPublished now).encode = .ok body ∧
            c.broker.publish topic m.route.routingKey body = .error why)) ∨
      ∃ body b, (c.send now topic m).1 = .ok () ∧ (m.markPublished now).encode = .ok body ∧
        c.broker.publish topic m.route.routingKey body = .ok b ∧
        (c.send now topic m).2.outside =
          Errand.run c.outside (.publish topic m.route.routingKey body) := by
  unfold send
  simp only
  split
  · rename_i why henc
    exact .inl ⟨why, rfl, rfl, .inl henc⟩
  · rename_i body henc
    split
    · rename_i why hpub
      exact .inl ⟨why, rfl, record_outside rfl, .inr ⟨body, henc, hpub⟩⟩
    · rename_i b t hpub
      refine .inr ⟨body, (b, t), rfl, henc, hpub, ?_⟩
      rw [monitor_outside]
      simp only [outside, record, Trace.shown_append, Broker.publish_shown hpub, Errand.run]
      rw [show c.broker.publish topic m.route.routingKey body = .ok (b, t) from hpub]

end Channels

namespace Session

variable {s s' s'' : Session} {es es' : List Errand}

/-- Between `s` and `s'` these errands were run, in this order, and no others. -/
def Does (s : Session) (es : List Errand) (s' : Session) : Prop :=
  s'.channels.outside = es.foldl Errand.run s.channels.outside

theorem Does.trans (h : s.Does es s') (h' : s'.Does es' s'') : s.Does (es ++ es') s'' := by
  unfold Does at *
  rw [h', h, List.foldl_append]

theorem note_does (s : Session) (why : Note) : s.Does [] (s.note why) :=
  Channels.record_outside rfl

theorem received_does (s : Session) (k : Consumer Handler) (e : Envelope) :
    s.Does [] (s.received k e) :=
  Channels.monitor_outside _ _ _

theorem forward_does {d : Delivery} {body : Bytes} (hbody : d.body = some body) (x : Settlement) :
    s.Does [.settle x d.receipt.topic body] (s.forward d x) := by
  have hshown := s.channels.broker.settle_shown x d.receipt.topic body
  unfold forward Does
  simp only [hbody, List.foldl_cons, List.foldl_nil, Errand.run, Channels.outside, Broker.told]
  split
  · rename_i b t hsettle
    rw [hsettle] at hshown ⊢
    simp [record, Channels.record, hshown]
  · rename_i why t hsettle
    rw [hsettle] at hshown ⊢
    simp [note, record, Channels.record, hshown]
    rfl

/-- A call on a receipt is the errand that the receipt forwards, if any. -/
theorem settle_does {n : Nat} {d : Delivery} {body : Bytes} (hd : s.deliveries.get? n = some d)
    (hbody : d.body = some body) (c : Receipt.Call) :
    s.Does ((d.receipt.call c).forward.toList.map (.settle · d.receipt.topic body))
      (s.settle n c) := by
  have hwrite : s.Does [] (s.write n d (d.receipt.call c)) :=
    Channels.record_outside (Trace.shown_notes _)
  rw [settle_eq hd]
  cases (d.receipt.call c).forward with
  | none => exact hwrite
  | some x =>
    have hforward := forward_does (s := s.write n d (d.receipt.call c))
      (d := { d with receipt := (d.receipt.call c).receipt }) hbody x
    rw [(d.receipt.call_fields c).1] at hforward
    exact hwrite.trans hforward

/-- Why a responder cannot send: there is no producer to be had, the message cannot be written, or
the broker refuses it. -/
def Unsendable (s : Session) (p : Responder) (topic : String) (ack : Ack)
    (payload : Option Json.Value) (why : Failure) : Prop :=
  (s.channels.producer topic).1 = .error why ∨ ∃ m, p.Sends ack payload m ∧
    (m.encode = .error why ∨ ∃ body, m.encode = .ok body ∧
      s.channels.broker.publish topic m.route.routingKey body = .error why)

/-- The errand of a responder that sends: the broker takes a message of it on the topic for answers.
There is none if the request names no such topic, or if the message cannot be sent. -/
def Posts (s : Session) (p : Responder) (ack : Ack) (payload : Option Json.Value)
    (es : List Errand) : Prop :=
  match p.request.route.response, (s.respond p ack payload).1 with
  | none, _ => es = []
  | some topic, .ok _ => ∃ m body b, p.Sends ack payload m ∧ m.encode = .ok body ∧
      s.channels.broker.publish topic m.route.routingKey body = .ok b ∧
      es = [.publish topic m.route.routingKey body]
  | some topic, .error why => s.Unsendable p topic ack payload why ∧ es = []

theorem Posts.errand {p : Responder} {ack : Ack} {payload : Option Json.Value}
    (h : s.Posts p ack payload es) :
    es = [] ∨ ∃ topic key body, p.request.route.response = some topic ∧
      es = [.publish topic key body] := by
  unfold Posts at h
  split at h
  · exact .inl h
  · rename_i topic _ htopic _
    obtain ⟨m, body, b, -, -, -, rfl⟩ := h
    exact .inr ⟨topic, _, body, htopic, rfl⟩
  · exact .inl h.2

theorem Posts.length_of_ok {p : Responder} {ack : Ack} {payload : Option Json.Value}
    (h : s.Posts p ack payload es) (htopic : p.request.route.response.isSome = true)
    (hok : (s.respond p ack payload).1.isOk = true) : es.length = 1 := by
  obtain ⟨topic, htopic⟩ := Option.isSome_iff_exists.mp htopic
  cases hsent : (s.respond p ack payload).1 with
  | error why =>
    rw [hsent] at hok
    cases hok
  | ok =>
    simp only [Posts, htopic, hsent] at h
    obtain ⟨m, body, b, -, -, -, rfl⟩ := h
    rfl

/-- A responder that sends touches no delivery, and runs its errand. -/
theorem respond_does (s : Session) (p : Responder) (ack : Ack) (payload : Option Json.Value) :
    (s.respond p ack payload).2.deliveries = s.deliveries ∧
      ∃ es, s.Posts p ack payload es ∧ s.Does es (s.respond p ack payload).2 := by
  unfold Posts
  simp only [respond]
  cases htopic : p.request.route.response with
  | none => exact ⟨rfl, [], rfl, rfl⟩
  | some topic =>
    obtain ⟨k, hanswer, -⟩ := s.fresh.2.origin.answer_eq_ok s.fresh.2.now s.fresh.1 htopic
      p.template (some ack) payload
    simp only [hanswer, Channels.publish]
    have hproducer := s.fresh.2.channels.producer_outside topic
    cases hproduce : s.fresh.2.channels.producer topic with
    | mk result c =>
      rw [hproduce] at hproducer
      have hbroker : c.broker = s.channels.broker := congrArg Prod.fst hproducer
      have hsends : p.Sends ack payload (k.markPublished s.fresh.2.now) :=
        ⟨_, _, _, _, k, hanswer, rfl⟩
      cases result with
      | error why => exact ⟨rfl, [], ⟨.inl (congrArg Prod.fst hproduce), rfl⟩, hproducer⟩
      | ok number =>
        have hsent := c.send_outside s.fresh.2.now topic k
        rw [hbroker, hproducer] at hsent
        obtain ⟨why, hresult, hsame, hwhy⟩ | ⟨body, b, hresult, henc, hpub, hrun⟩ := hsent
        · simp only [hresult]
          exact ⟨rfl, [], ⟨.inr ⟨_, hsends, hwhy⟩, rfl⟩, hsame⟩
        · simp only [hresult]
          exact ⟨rfl, _, ⟨_, body, b, hsends, henc, hpub, rfl⟩, hrun⟩

end Session

/-! ## What handlers do -/

namespace Action

/-- What a handler of requests does with its responder and its receipt. -/
def serves : Action → Bool
  | settle _ | hold | fail _ | failUnlessRedelivered _ | panic _ => true
  | acknowledge _ _ | answer _ | echo | echoNumbered _ | double | holdResponder _ => true
  | _ => false

/-- The call on the receipt that an action makes. -/
def call? : Action → Option Receipt.Call
  | settle c => some c
  | _ => none

end Action

/-- How a handler of requests behaves: what it does, and how it comes out in the end.  It need not
stop at something that fails. -/
structure Behaviour where
  deeds : List Action
  serves : ∀ a ∈ deeds, a.serves = true
  outcome : Outcome

def Behaviour.calls (b : Behaviour) : List Receipt.Call := b.deeds.filterMap Action.call?

/-- The text of a failure. -/
def Outcome.failure? : Outcome → Option String
  | done => none
  | failed reason => some reason
  | panicked reason => some (Session.panicText reason)

namespace Session

/-- The session after the deeds of a handler. -/
def after (s : Session) (scope : Scope) (deeds : List Action) : Session :=
  deeds.foldl (fun s a => (s.act scope a).session) s

/-- What is done of a script, up to the first action that does not come out well, and how the script
comes out. -/
def course (s : Session) (scope : Scope) : List Action → List Action × Outcome
  | [] => ([], .done)
  | a :: actions =>
    match (s.act scope a).outcome with
    | .done =>
      let (deeds, o) := (s.act scope a).session.course scope actions
      (a :: deeds, o)
    | o => ([a], o)

/-- What is to be done when a handler has come out, before the frames that wait. -/
def comesOut (s : Session) (scope : Scope) (b : Behaviour) (guard : Guard) (rest : List Frame) :
    Machine :=
  let (frames, s) := (s.after scope b.deeds).conclude b.outcome guard
  ⟨frames ++ rest, s⟩

end Session

namespace Errand

variable {p : Responder} {r : Receipt} {body : Bytes} {cs ds : List Receipt.Call}
  {es es' : List Errand}

/-- Errands of handlers that made these calls on the receipt `r` of a request: messages for the one
who asked, and what the receipt passes on to the broker. -/
structure AreFor (p : Responder) (r : Receipt) (body : Bytes) (cs : List Receipt.Call)
    (es : List Errand) : Prop where
  isFor : ∀ x ∈ es, x.IsFor p r.topic body
  settlements : es.filterMap settlement? = r.forwarded cs

namespace AreFor

theorem nil : AreFor p r body [] [] := ⟨List.forall_mem_nil _, rfl⟩

theorem call (c : Receipt.Call) :
    AreFor p r body [c] ((r.call c).forward.toList.map (settle · r.topic body)) where
  isFor := by
    intro x hx
    obtain ⟨y, -, rfl⟩ := List.mem_map.mp hx
    exact ⟨rfl, rfl⟩
  settlements := by
    rw [Receipt.forwarded, Receipt.forwarded, List.append_nil]
    cases (r.call c).forward <;> rfl

theorem append (h : AreFor p r body cs es) (h' : AreFor p (r.after cs) body ds es') :
    AreFor p r body (cs ++ ds) (es ++ es') where
  isFor := by
    have hthen := h'.isFor
    rw [(r.after_fields cs).1] at hthen
    exact List.forall_mem_append.mpr ⟨h.isFor, hthen⟩
  settlements := by
    rw [List.filterMap_append, h.settlements, h'.settlements, r.forwarded_append]

end AreFor

end Errand

namespace Session

variable {p : Responder} {n : Nat} {body : Bytes} {r : Receipt} {s s' s'' : Session}
  {cs ds : List Receipt.Call} {es es' : List Errand} {scope : Scope}

/-- Between `s` and `s'` handlers made these calls on the receipt of a request, and ran these
errands. -/
structure Serves (p : Responder) (n : Nat) (body : Bytes) (r : Receipt) (s : Session)
    (cs : List Receipt.Call) (es : List Errand) (s' : Session) : Prop where
  does : s.Does es s'
  errands : Errand.AreFor p r body cs es
  delivery : s'.deliveries.get? n = some { receipt := r.after cs, body := some body }

namespace Serves

theorem trans (h : Serves p n body r s cs es s') (h' : Serves p n body (r.after cs) s' ds es' s'') :
    Serves p n body r s (cs ++ ds) (es ++ es') s'' where
  does := h.does.trans h'.does
  errands := h.errands.append h'.errands
  delivery := by
    rw [r.after_append]
    exact h'.delivery

/-- Nothing that others have to do with. -/
theorem aside (hd : s.deliveries.get? n = some { receipt := r, body := some body })
    (h : s'.channels.outside = s.channels.outside) (hs : s'.deliveries = s.deliveries) :
    Serves p n body r s [] [] s' :=
  ⟨h, .nil, hs ▸ hd⟩

theorem settle (hd : s.deliveries.get? n = some { receipt := r, body := some body })
    (c : Receipt.Call) :
    Serves p n body r s [c] ((r.call c).forward.toList.map (.settle · r.topic body))
      (s.settle n c) where
  does := settle_does hd rfl c
  errands := .call c
  delivery := by
    rw [settle_deliveries hd]
    exact Table.get?_put_self _ _ _

theorem respond (hd : s.deliveries.get? n = some { receipt := r, body := some body }) (ack : Ack)
    (payload : Option Json.Value) :
    ∃ es, s.Posts p ack payload es ∧ Serves p n body r s [] es (s.respond p ack payload).2 := by
  obtain ⟨hdeliveries, es, hposts, hdoes⟩ := s.respond_does p ack payload
  obtain rfl | ⟨topic, key, text, htopic, rfl⟩ := hposts.errand
  · exact ⟨[], hposts, hdoes, .nil, hdeliveries ▸ hd⟩
  · exact ⟨_, hposts, hdoes, ⟨List.forall_mem_singleton.mpr htopic, rfl⟩, hdeliveries ▸ hd⟩

/-- An action of a handler makes the call it makes, and no other frame follows from it. -/
theorem act (hscope : scope.delivery = some n) (hp : scope.responder = some p)
    (hd : s.deliveries.get? n = some { receipt := r, body := some body }) {a : Action}
    (ha : a.serves = true) :
    (s.act scope a).frames = [] ∧
      ∃ es, Serves p n body r s a.call?.toList es (s.act scope a).session := by
  have hanswer : ∀ payload, (s.answer p payload).frames = [] ∧
      ∃ es, Serves p n body r s [] es (s.answer p payload).session := by
    intro payload
    obtain ⟨es, -, hserves⟩ := respond hd p.deduction (some payload)
    exact ⟨rfl, es, hserves⟩
  cases a with
  | settle c =>
    simp only [Session.act, hscope]
    exact ⟨trivial, _, settle hd c⟩
  | hold =>
    simp only [Session.act, hscope]
    exact ⟨trivial, [], aside hd rfl rfl⟩
  | fail reason => exact ⟨rfl, [], aside hd rfl rfl⟩
  | failUnlessRedelivered reason =>
    simp only [Session.act]
    split <;> exact ⟨rfl, [], aside hd rfl rfl⟩
  | panic reason => exact ⟨rfl, [], aside hd rfl rfl⟩
  | acknowledge timeoutMs remaining =>
    simp only [Session.act, answering, hp]
    obtain ⟨es, -, hserves⟩ := respond hd (p.announcement timeoutMs remaining) none
    exact ⟨rfl, es, hserves⟩
  | answer payload =>
    simp only [Session.act, answering, hp]
    exact hanswer payload
  | echo =>
    simp only [Session.act, answering, hp]
    exact hanswer _
  | echoNumbered index =>
    simp only [Session.act, answering, hp]
    exact hanswer _
  | double =>
    simp only [Session.act, answering, hp, answerDouble]
    split
    · exact hanswer _
    · split
      · exact hanswer _
      · exact ⟨rfl, [], aside hd rfl rfl⟩
  | holdResponder name =>
    simp only [Session.act, answering, hp]
    exact ⟨trivial, [], aside hd rfl rfl⟩
  | _ => cases ha

/-- The deeds of a handler make their calls one after the other. -/
theorem after (scope : Scope) (hscope : scope.delivery = some n) (hp : scope.responder = some p)
    (hd : s.deliveries.get? n = some { receipt := r, body := some body }) {deeds : List Action}
    (hdeeds : ∀ a ∈ deeds, a.serves = true) :
    ∃ es, Serves p n body r s (deeds.filterMap Action.call?) es (s.after scope deeds) := by
  induction deeds generalizing s r with
  | nil => exact ⟨[], aside hd rfl rfl⟩
  | cons a deeds ih =>
    obtain ⟨ha, hrest⟩ := List.forall_mem_cons.mp hdeeds
    obtain ⟨-, es, hfirst⟩ := act hscope hp hd ha
    obtain ⟨es', hthen⟩ := ih hfirst.delivery hrest
    have hcalls : (a :: deeds).filterMap Action.call? =
        a.call?.toList ++ deeds.filterMap Action.call? := by
      cases hcall : a.call? <;> simp [hcall]
    exact ⟨es ++ es', hcalls ▸ hfirst.trans hthen⟩

end Serves

end Session

/-! ## How handlers come out -/

/-- How far a delivery is settled. -/
def Session.resolution? (s : Session) (n : Nat) : Option Resolution :=
  (s.deliveries.get? n).map fun d => d.receipt.state

/-- From `m` on the session comes to what waits.  Since `s` it has run these errands and no others,
and the delivery is settled so far. -/
def Machine.Closes (m : Machine) (rest : List Frame) (s : Session) (n : Nat) (es : List Errand)
    (x : Resolution) : Prop :=
  ∃ s', m.ComesTo ⟨rest, s'⟩ ∧ s.Does es s' ∧ s'.resolution? n = some x

namespace Session

open Machine (ComesTo)

variable {p : Responder} {n : Nat} {body : Bytes} {r : Receipt} {s t : Session} {scope : Scope}
  {topic : String} {redelivered : Bool} {cs : List Receipt.Call} {x : Settlement}

/-- A script comes out like some handler that does what is done of it. -/
def Plays (s : Session) (scope : Scope) (actions : List Action) (guard : Guard)
    (rest : List Frame) : Prop :=
  (∀ a ∈ actions, a.serves = true) →
    ∃ b : Behaviour, (b.deeds, b.outcome) = s.course scope actions ∧
      ComesTo ⟨.script scope actions guard :: rest, s⟩ (s.comesOut scope b guard rest)

theorem plays (hscope : scope.delivery = some n) (hp : scope.responder = some p)
    (hd : s.deliveries.get? n = some { receipt := r, body := some body }) (actions : List Action)
    (guard : Guard) (rest : List Frame) : s.Plays scope actions guard rest := by
  intro hserves
  induction actions generalizing s r with
  | nil => exact ⟨⟨[], List.forall_mem_nil _, .done⟩, rfl, .step rfl (.refl _)⟩
  | cons a actions ih =>
    obtain ⟨ha, hactions⟩ := List.forall_mem_cons.mp hserves
    obtain ⟨hframes, es, hact⟩ := Serves.act hscope hp hd ha
    have hends : ∀ o, o ≠ .done → (s.act scope a).outcome = o →
        ComesTo ⟨.script scope (a :: actions) guard :: rest, s⟩
          (s.comesOut scope ⟨[a], List.forall_mem_singleton.mpr ha, o⟩ guard rest) := by
      intro o ho hout
      have hstep : Machine.step? ⟨.script scope (a :: actions) guard :: rest, s⟩ =
          some ⟨.verdict o guard :: rest, (s.act scope a).session⟩ := by
        cases o with
        | done => exact absurd rfl ho
        | _ => simp only [Machine.step?, perform, advance, hout, hframes, List.nil_append,
            List.cons_append]
      exact .step hstep (.step rfl (.refl _))
    cases hout : (s.act scope a).outcome with
    | done =>
      obtain ⟨b, hb, hcomes⟩ := ih hact.delivery hactions
      refine ⟨⟨a :: b.deeds, List.forall_mem_cons.mpr ⟨ha, b.serves⟩, b.outcome⟩, ?_,
        .step ?_ hcomes⟩
      · simp only [course, hout, ← hb]
      · simp only [Machine.step?, perform, advance, hout, hframes, List.nil_append,
          List.cons_append]
    | failed why => exact ⟨_, by simp only [course, hout], hends _ (by simp) hout⟩
    | panicked why => exact ⟨_, by simp only [course, hout], hends _ (by simp) hout⟩

theorem settles_does (hd : s.deliveries.get? n = some { receipt := r, body := some body })
    (cs : List Receipt.Call) :
    s.Does ((r.forwarded cs).map (.settle · r.topic body)) (cs.foldl (·.settle n ·) s) ∧
      (cs.foldl (·.settle n ·) s).deliveries.get? n =
        some { receipt := r.after cs, body := some body } := by
  induction cs generalizing s r with
  | nil => exact ⟨rfl, hd⟩
  | cons c cs ih =>
    have hdelivery : (s.settle n c).deliveries.get? n =
        some { receipt := (r.call c).receipt, body := some body } := by
      rw [settle_deliveries hd]
      exact Table.get?_put_self _ _ _
    obtain ⟨hdoes, hlast⟩ := ih hdelivery
    rw [(r.call_fields c).1] at hdoes
    refine ⟨?_, hlast⟩
    rw [Receipt.forwarded, List.map_append]
    exact (settle_does hd rfl c).trans hdoes

/-- What the library settles after the handlers. -/
theorem settles_left (ds : List Receipt.Call)
    (hd : s.deliveries.get? n =
      some { receipt := Receipt.after { topic, redelivered } cs, body := some body })
    (h : Receipt.effective true (cs ++ ds) = Receipt.effective true (cs ++ [.automatic x])) :
    s.Does ((Receipt.left redelivered cs x).map (.settle · topic body))
        (ds.foldl (·.settle n ·) s) ∧
      (ds.foldl (·.settle n ·) s).resolution? n = some (Receipt.ending redelivered cs x) := by
  obtain ⟨hdoes, hdelivery⟩ := settles_does hd ds
  rw [Receipt.forwarded_left h, (Receipt.after_fields _ _).1] at hdoes
  refine ⟨hdoes, ?_⟩
  rw [resolution?, hdelivery, ← Receipt.after_append]
  exact congrArg some (Receipt.after_ending h)

/-- A delivery is left to be confirmed. -/
theorem closes_done {id : String} {rest : List Frame} {es : List Errand}
    (hd : t.deliveries.get? n =
      some { receipt := Receipt.after { topic, redelivered } cs, body := some body })
    (hdoes : s.Does es t) :
    Machine.Closes ⟨.verdict .done (.delivery n id) :: rest, t⟩ rest s n
      (es ++ (Receipt.left redelivered cs .confirm).map (.settle · topic body))
      (Receipt.ending redelivered cs .confirm) := by
  obtain ⟨hleft, hending⟩ := settles_left [.automatic .confirm] hd rfl
  exact ⟨_, .step rfl (.refl _), hdoes.trans hleft, hending⟩

/-- A delivery is rejected if that is left to the library, and that it is to be confirmed after all
makes no difference. -/
theorem closes_rejected {id : String} {rest : List Frame} {es : List Errand}
    (hd : t.deliveries.get? n =
      some { receipt := Receipt.after { topic, redelivered } cs, body := some body })
    (hdoes : s.Does es t) :
    Machine.Closes ⟨.verdict .done (.delivery n id) :: rest, t.settle n (.automatic .reject)⟩ rest s
      n (es ++ (Receipt.left redelivered cs .reject).map (.settle · topic body))
      (Receipt.ending redelivered cs .reject) := by
  obtain ⟨hleft, hending⟩ := settles_left [.automatic .reject, .automatic .confirm] hd
    (Receipt.effective_append_two cs .reject .confirm)
  exact ⟨_, .step rfl (.refl _), hdoes.trans hleft, hending⟩

end Session

/-! ## Requests -/

/-- What a handler of requests is given. -/
def Responder.scope (p : Responder) (n : Nat) : Scope :=
  { delivery := some n, responder := some p, message := some p.request }

namespace Session

open Machine (ComesTo)

theorem happen_does {s : Session} {h : Happening}
    (hshown : Trace.shown [.happening h] = [.happening h]) : s.Does [.call h] (s.happen h) := by
  simp only [Does, List.foldl_cons, List.foldl_nil, Errand.run, Channels.outside, happen, record,
    Channels.record, Trace.shown_append, hshown]

theorem conclude_request (s : Session) (o : Outcome) (sv : Server) (p : Responder) (n : Nat) :
    s.conclude o (.request sv p n) = match o.failure? with
      | none => ([], s)
      | some reason => s.recover sv p n reason := by
  cases o <;> rfl

/-- The error handler leaves the delivery to be rejected, however it comes out. -/
theorem conclude_recovery (s : Session) (o : Outcome) (sv : Server) (n : Nat) :
    ∃ t : Session, s.conclude o (.recovery sv n) = ([], t.settle n (.automatic .reject)) ∧
      t.channels.outside = s.channels.outside ∧ t.deliveries = s.deliveries := by
  cases o with
  | done => exact ⟨s, rfl, rfl, rfl⟩
  | failed reason => exact ⟨s, rfl, rfl, rfl⟩
  | panicked reason => exact ⟨_, rfl, s.note_does _, rfl⟩

/-- The failure is reported, if it can be, before the delivery is left to be rejected. -/
theorem recover_of_none (s : Session) {sv : Server} (h : sv.recovery = none) (p : Responder)
    (n : Nat) (reason : String) :
    ∃ (t : Session) (report : List Errand),
      s.recover sv p n reason = ([], t.settle n (.automatic .reject)) ∧
      (s.note (.requestFailed p.request.correlation p.request.id sv.namesp reason)).Posts p
        p.deduction (some (Payload.serverError reason).toJson) report ∧
      s.Does report t ∧ t.deliveries = s.deliveries := by
  have hnoted := s.note_does (.requestFailed p.request.correlation p.request.id sv.namesp reason)
  unfold recover
  simp only [h]
  obtain ⟨hdeliveries, report, hposts, hdoes⟩ :=
    (s.note (.requestFailed p.request.correlation p.request.id sv.namesp reason)).respond_does p
      p.deduction (some (Payload.serverError reason).toJson)
  split
  · rename_i t hrespond
    rw [hrespond] at hdeliveries hdoes
    exact ⟨t, report, rfl, hposts, hnoted.trans hdoes, hdeliveries⟩
  · rename_i why t hrespond
    rw [hrespond] at hdeliveries hdoes
    have hboth := (hnoted.trans hdoes).trans (t.note_does (.errorAnswerFailed p.request.correlation
      why))
    rw [List.append_nil] at hboth
    exact ⟨_, report, rfl, hposts, hboth, hdeliveries⟩

/-- The error handler is called, and nothing else is done. -/
theorem recover_of_some (s : Session) {sv : Server} {actions : List Action}
    (h : sv.recovery = some actions) (p : Responder) (n : Nat) (reason : String) :
    ∃ t : Session,
      s.recover sv p n reason = ([.script (p.scope n) actions (.recovery sv n)], t) ∧
      s.Does [.call (.requestFailed sv.name reason p.request.correlation)] t ∧
      t.deliveries = s.deliveries := by
  unfold recover
  simp only [h]
  exact ⟨_, rfl, happen_does rfl, rfl⟩

theorem comesOut_eq {s t : Session} {scope : Scope} {b : Behaviour} {guard : Guard}
    {frames : List Frame} (h : (s.after scope b.deeds).conclude b.outcome guard = (frames, t))
    (rest : List Frame) : s.comesOut scope b guard rest = ⟨frames ++ rest, t⟩ := by
  simp only [comesOut, h]

/-! ### How a request comes out -/

section

variable {s t : Session} {sv : Server} {p : Responder} {n : Nat} {body : Bytes} {topic id : String}
  {redelivered : Bool} {b : Behaviour} {es : List Errand} {reason : String}

/-- The request is put to the handler of the server. -/
theorem request_begins (s : Session) (k : Consumer Handler) (e : Envelope) (sv : Server)
    (m : Message) : ∃ (p : Responder) (t : Session), p.request = m ∧
      (s.received k e).dispatch (.server sv) s.nextDelivery e.redelivered m =
        ([.script (p.scope s.nextDelivery) sv.actions (.request sv p s.nextDelivery),
          .verdict .done (.delivery s.nextDelivery m.id)], t) ∧
      s.Does [.call (.requested sv.name m e.redelivered)] t ∧
      t.deliveries.get? s.nextDelivery =
        some { receipt := { topic := k.topic, redelivered := e.redelivered },
               body := some e.body } :=
  ⟨_, _, rfl, rfl, (received_does s k e).trans (happen_does rfl), s.received_delivery k e⟩

/-- The handler succeeds. -/
theorem request_closes (rest : List Frame) (hout : b.outcome.failure? = none)
    (hd : (t.after (p.scope n) b.deeds).deliveries.get? n =
      some { receipt := Receipt.after { topic, redelivered } b.calls, body := some body })
    (hdoes : s.Does es (t.after (p.scope n) b.deeds)) :
    (t.comesOut (p.scope n) b (.request sv p n) (.verdict .done (.delivery n id) :: rest)).Closes
      rest s n (es ++ (Receipt.left redelivered b.calls .confirm).map (.settle · topic body))
      (Receipt.ending redelivered b.calls .confirm) := by
  have hconclude := (t.after (p.scope n) b.deeds).conclude_request b.outcome sv p n
  simp only [hout] at hconclude
  simp only [comesOut_eq hconclude]
  exact closes_done hd hdoes

/-- The handler fails, and the failure is reported. -/
theorem request_reported (rest : List Frame) (hout : b.outcome.failure? = some reason)
    (hrecovery : sv.recovery = none)
    (hd : (t.after (p.scope n) b.deeds).deliveries.get? n =
      some { receipt := Receipt.after { topic, redelivered } b.calls, body := some body })
    (hdoes : s.Does es (t.after (p.scope n) b.deeds)) :
    ∃ report,
      ((t.after (p.scope n) b.deeds).note
        (.requestFailed p.request.correlation p.request.id sv.namesp reason)).Posts p
          { responderId := p.id, responsesRemaining := some (-1) }
          (some (.object [("statusCode", .integer 500), ("statusMessage", .text reason)]))
          report ∧
      (t.comesOut (p.scope n) b (.request sv p n) (.verdict .done (.delivery n id) :: rest)).Closes
        rest s n
        (es ++ report ++ (Receipt.left redelivered b.calls .reject).map (.settle · topic body))
        (Receipt.ending redelivered b.calls .reject) := by
  have hconclude := (t.after (p.scope n) b.deeds).conclude_request b.outcome sv p n
  simp only [hout] at hconclude
  obtain ⟨t', report, hrecover, hposts, hreport, hd'⟩ :=
    recover_of_none (t.after (p.scope n) b.deeds) hrecovery p n reason
  simp only [comesOut_eq (hconclude.trans hrecover)]
  exact ⟨report, hposts, closes_rejected (hd' ▸ hd) (hdoes.trans hreport)⟩

/-- The handler fails, and the error handler of the server is called. -/
theorem request_recovered (rest : List Frame) (hout : b.outcome.failure? = some reason)
    {actions : List Action} (hrecovery : sv.recovery = some actions)
    (hd : (t.after (p.scope n) b.deeds).deliveries.get? n =
      some { receipt := Receipt.after { topic, redelivered } b.calls, body := some body })
    (hdoes : s.Does es (t.after (p.scope n) b.deeds)) :
    ∃ t' : Session,
      (t.comesOut (p.scope n) b (.request sv p n) (.verdict .done (.delivery n id) :: rest)).ComesTo
        ⟨.script (p.scope n) actions (.recovery sv n) :: .verdict .done (.delivery n id) :: rest,
          t'⟩ ∧
      t'.Plays (p.scope n) actions (.recovery sv n) (.verdict .done (.delivery n id) :: rest) ∧
      ∀ b' : Behaviour, ∃ es',
        Serves p n body (Receipt.after { topic, redelivered } b.calls) t' b'.calls es'
          (t'.after (p.scope n) b'.deeds) ∧
        (t'.comesOut (p.scope n) b' (.recovery sv n)
            (.verdict .done (.delivery n id) :: rest)).Closes rest s n
          (es ++ .call (.requestFailed sv.name reason p.request.correlation) :: es' ++
            (Receipt.left redelivered (b.calls ++ b'.calls) .reject).map (.settle · topic body))
          (Receipt.ending redelivered (b.calls ++ b'.calls) .reject) := by
  have hconclude := (t.after (p.scope n) b.deeds).conclude_request b.outcome sv p n
  simp only [hout] at hconclude
  obtain ⟨t', hrecover, hcalled, hd'⟩ :=
    recover_of_some (t.after (p.scope n) b.deeds) hrecovery p n reason
  have hdelivery := hd
  rw [← hd'] at hdelivery
  simp only [comesOut_eq (hconclude.trans hrecover)]
  refine ⟨t', .refl _, plays rfl rfl hdelivery _ _ _, fun b' => ?_⟩
  obtain ⟨es', hb'⟩ := Serves.after (p.scope n) rfl rfl hdelivery b'.serves
  obtain ⟨t'', hconclude', houtside, hd''⟩ :=
    conclude_recovery (t'.after (p.scope n) b'.deeds) b'.outcome sv n
  refine ⟨es', hb', ?_⟩
  simp only [comesOut_eq hconclude']
  refine closes_rejected ?_ (hdoes.trans (hcalled.trans (houtside.trans hb'.does)))
  rw [hd'', Receipt.after_append]
  exact hb'.delivery

end

/-- What becomes of a request.  It comes to the handler of the server, which may be a script or any
other that does no more than send and call its receipt.  If that comes out well, the library only
confirms what is left to settle.  If not, the error handler is called once, or else the failure is
reported once after all that the handler sent, and the library only rejects what is left to settle.
What waits goes on in any case. -/
theorem request_served {s : Session} {k : Consumer Handler} {e : Envelope} {m : Message}
    {sv : Server} {topic u : String} {id : Nat} (rest : List Frame)
    (hid : s.channels.consumers.get? topic = some id) (hk : s.channels.made.get? id = some k)
    (hhandler : k.handler = some (.server sv)) (hdecode : Message.decode e.body = .ok m)
    (hfresh : m.isExpired s.now = false) :
    ∃ (p : Responder) (t : Session),
      let n := s.nextDelivery
      let waits := .verdict .done (.delivery n m.id) :: rest
      let r : Receipt := { topic := k.topic, redelivered := e.redelivered }
      let start := .call (.requested sv.name m e.redelivered)
      let left := fun cs x => (Receipt.left e.redelivered cs x).map (.settle · k.topic e.body)
      p.request = m ∧
      s.deliver (.consumer id) u e =
        ([.script (p.scope n) sv.actions (.request sv p n), .verdict .done (.delivery n m.id)],
          t) ∧
      t.Plays (p.scope n) sv.actions (.request sv p n) waits ∧
      ∀ b : Behaviour, ∃ es, Serves p n e.body r t b.calls es (t.after (p.scope n) b.deeds) ∧
        let out := t.comesOut (p.scope n) b (.request sv p n) waits
        match b.outcome.failure?, sv.recovery with
        | none, _ =>
          out.Closes rest s n (start :: es ++ left b.calls .confirm)
            (Receipt.ending e.redelivered b.calls .confirm)
        | some reason, none => ∃ report,
          ((t.after (p.scope n) b.deeds).note
            (.requestFailed m.correlation m.id sv.namesp reason)).Posts p
              { responderId := p.id, responsesRemaining := some (-1) }
              (some (.object [("statusCode", .integer 500), ("statusMessage", .text reason)]))
              report ∧
          out.Closes rest s n (start :: es ++ report ++ left b.calls .reject)
            (Receipt.ending e.redelivered b.calls .reject)
        | some reason, some actions => ∃ t' : Session,
          out.ComesTo ⟨.script (p.scope n) actions (.recovery sv n) :: waits, t'⟩ ∧
          t'.Plays (p.scope n) actions (.recovery sv n) waits ∧
          ∀ b' : Behaviour, ∃ es',
            Serves p n e.body (r.after b.calls) t' b'.calls es' (t'.after (p.scope n) b'.deeds) ∧
            (t'.comesOut (p.scope n) b' (.recovery sv n) waits).Closes rest s n
              (start :: es ++ .call (.requestFailed sv.name reason m.correlation) :: es' ++
                left (b.calls ++ b'.calls) .reject)
              (Receipt.ending e.redelivered (b.calls ++ b'.calls) .reject) := by
  have hconsume := (deliver_cached hid hk u e).trans (consume_of_handler hhandler hdecode hfresh)
  obtain ⟨p, t, rfl, hdispatch, hstart, hd⟩ := s.request_begins k e sv m
  refine ⟨p, t, rfl, hconsume.trans hdispatch, plays rfl rfl hd _ _ _, fun b => ?_⟩
  obtain ⟨es, hb⟩ := Serves.after (p.scope s.nextDelivery) rfl rfl hd b.serves
  refine ⟨es, hb, ?_⟩
  have hsince := hstart.trans hb.does
  cases hout : b.outcome.failure? with
  | none => exact request_closes rest hout hb.delivery hsince
  | some reason =>
    cases hrecovery : sv.recovery with
    | none => exact request_reported rest hout hrecovery hb.delivery hsince
    | some actions => exact request_recovered rest hout hrecovery hb.delivery hsince

/-- A request that names a topic for answers. -/
def inquiry : Bytes :=
  Utf8.encode
    "[\"m\",\"c\",[],[\"t\",\"a:b\"],[null,[1,0],null,null,[\"\",\"\",\"\",\"\",7]],null,1]"

/-- It answers, and panics with no text. -/
def nervous : Behaviour where
  deeds := [.answer (.integer 1)]
  serves := by decide
  outcome := .panicked none

def clerk : Server where
  name := "clerk"
  namesp := "t"
  template := {}
  actions := nervous.deeds ++ [.panic none]

/-- A session with a broker that delivers by hand, in which the server listens. -/
def office : Session where
  channels :=
    { broker := .manual {}
      consumers := ({} : Table String Nat).put "t" 0
      made := ({} : Table Nat (Consumer Handler)).put 0
        { topic := "t", handler := some (.server clerk) } }
  start := .epoch

/-- The responder for the script that comes first. -/
def responder? : List Frame → Option Responder
  | .script scope _ _ :: _ => scope.responder
  | _ => none

theorem inquiry_readable :
    ∃ m, Message.decode inquiry = .ok m ∧ m.isExpired .epoch = false :=
  readable (by decide +kernel)

/-- It sends its answer, and the report of the panic as well, before the delivery is rejected. -/
theorem failing_request_served :
    ∃ (m : Message) (p : Responder) (t s' : Session) (es report : List Errand),
      Message.decode inquiry = .ok m ∧ m.isExpired office.now = false ∧ p.request = m ∧
      (office.deliver (.consumer 0) "t" ⟨inquiry, true⟩).2 = t ∧
      ((t.after (p.scope 0) nervous.deeds).note
        (.requestFailed m.correlation m.id "t" "request handler panicked")).Posts p
          { responderId := p.id, responsesRemaining := some (-1) }
          (some (.object [("statusCode", .integer 500),
            ("statusMessage", .text "request handler panicked")])) report ∧
      report.length = 1 ∧
      ComesTo (t.comesOut (p.scope 0) nervous (.request clerk p 0)
        [.verdict .done (.delivery 0 m.id)]) ⟨[], s'⟩ ∧
      office.Does
        (.call (.requested "clerk" m true) :: es ++ report ++ [.settle .reject "t" inquiry]) s' ∧
      s'.resolution? 0 = some .rejected := by
  obtain ⟨m, hdecode, hfresh⟩ := inquiry_readable
  have hsends : (responder? (office.deliver (.consumer 0) "t" ⟨inquiry, true⟩).1).all (fun p =>
      p.request.route.response.isSome &&
        (((((office.deliver (.consumer 0) "t" ⟨inquiry, true⟩).2.after (p.scope 0)
          nervous.deeds).note (.requestFailed p.request.correlation p.request.id "t"
            "request handler panicked")).respond p
              { responderId := p.id, responsesRemaining := some (-1) }
              (some (.object [("statusCode", .integer 500),
                ("statusMessage", .text "request handler panicked")]))).1.isOk)) = true := by
    decide +kernel
  generalize inquiry = body at hdecode hsends ⊢
  obtain ⟨p, t, rfl, hdeliver, -, hserved⟩ := office.request_served (e := ⟨body, true⟩) (u := "t")
    [] (show office.channels.consumers.get? "t" = some 0 from rfl) rfl rfl hdecode hfresh
  obtain ⟨es, -, report, hposts, s', hcomes, hdoes, hresolution⟩ := hserved nervous
  rw [hdeliver] at hsends
  obtain ⟨htopic, hok⟩ := Bool.and_eq_true_iff.mp hsends
  exact ⟨_, p, t, s', es, report, hdecode, hfresh, rfl, congrArg Prod.snd hdeliver, hposts,
    hposts.length_of_ok htopic hok, hcomes, hdoes, hresolution⟩

end Session
end Colloquy
