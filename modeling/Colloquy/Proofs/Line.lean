/-
Lines, on which the answers to a request come in.

A `Line` is a conversation of the context, by its address and its number, with the worker of the
broker that serves its topic.  It is `Up` while the conversation is open and is the one that is
entered at its address, and while the worker delivers to the inbox of the context.

What is published on the topic meanwhile comes out of the queue of that worker, in the same order.
This is an equation between what is seen of the broker and what waits in the queue, and every step
of the broker keeps it until the worker is cancelled, which is for good.  What comes out is handled
by the conversation, and no other one hears of it.
-/
import Colloquy.Proofs.Order
import Colloquy.Proofs.Handlers
import Colloquy.Proofs.Filing

namespace Colloquy

/-! ## Messages of a correlation -/

/-- The messages of a correlation among some bodies, as they are read. -/
def Message.among (correlation : String) (bodies : List Bytes) : List Message :=
  bodies.filterMap fun body => (decode body).toOption.filter fun m => m.correlation == correlation

namespace Message

@[simp] theorem among_append (correlation : String) (bodies more : List Bytes) :
    among correlation (bodies ++ more) = among correlation bodies ++ among correlation more :=
  List.filterMap_append

@[simp] theorem among_nil (correlation : String) : among correlation [] = [] := rfl

theorem among_of_decode {m : Message} {body : Bytes} (h : decode body = .ok m) :
    among m.correlation [body] = [m] := by
  simp [among, h, Except.toOption, Option.filter_some]

end Message

/-- A conversation of the context, and the worker that serves the topic of its answers. -/
structure Line where
  topic : String
  correlation : String
  exchange : Nat
  worker : Nat

open MemoryBroker (Event publishedOn firstsOn)

namespace MemoryBroker

variable {σ : Type} {b b' : MemoryBroker σ} {topic t : String} {id : Nat} {w : Worker σ}
  {log seen : List Event}

/-! ## Workers that were given out -/

theorem enqueue_nextWorker (b : MemoryBroker σ) (t : String) (e : Envelope) :
    (b.enqueue t e).nextWorker = b.nextWorker := by
  unfold enqueue
  simp only
  split <;> rfl

theorem stop_nextWorker (b : MemoryBroker σ) (id : Nat) (w : Worker σ) :
    (b.stop id w).nextWorker = b.nextWorker := by
  have hback (es : List Envelope) (b : MemoryBroker σ) :
      (es.foldl (fun b e => b.enqueue w.topic e) b).nextWorker = b.nextWorker := by
    induction es generalizing b with
    | nil => rfl
    | cons e es ih => exact (ih _).trans (enqueue_nextWorker b w.topic e)
  unfold stop
  simp only
  split
  · rfl
  · exact hback _ _

/-- What a step does to the workers that serve topics: a broker in order stays so, no number is
given out twice, and a worker that was there serves a topic only if it did before. -/
structure Onward (b b' : MemoryBroker σ) : Prop where
  sound : b'.Sound
  nextWorker : b.nextWorker ≤ b'.nextWorker
  served : ∀ t id, id < b.nextWorker → (b'.lane t).worker = some id →
    (b.lane t).worker = some id

theorem Onward.of_steady (h : b.Steady b') (hb : b'.Sound)
    (hnext : b'.nextWorker = b.nextWorker) : b.Onward b' :=
  ⟨hb, hnext.ge, fun t _ _ hid => (h.lane t).symm.trans hid⟩

theorem subscribe_onward (hb : b.Sound) {subscriber : σ}
    (hs : b.subscribe topic subscriber = .ok b') : b.Onward b' := by
  have hsound := subscribe_sound hb hs
  obtain ⟨-, -, rfl⟩ := subscribe_eq_ok hs
  refine ⟨hsound, Nat.le_succ _, fun t id hid hserved => ?_⟩
  have hlane := congrArg Lane.worker
    (lane_put b topic { worker := some b.nextWorker, backlog := [] } t)
  replace hserved := hlane.symm.trans hserved
  split_ifs at hserved with ht
  · cases hserved
    exact absurd hid (lt_irrefl _)
  · exact hserved

theorem unsubscribe_onward (hb : b.Sound) (topic : String) : b.Onward (b.unsubscribe topic) := by
  cases hlane : (b.lane topic).worker with
  | none =>
    rw [unsubscribe_of_none hlane]
    exact .of_steady (.refl b) hb rfl
  | some k =>
    obtain ⟨w, hw, -⟩ := hb.worker hlane
    have hsound := unsubscribe_sound hb topic
    rw [unsubscribe_of_some hlane hw] at hsound ⊢
    refine ⟨hsound, le_refl _, fun t id _ hserved => ?_⟩
    have hput := congrArg Lane.worker (lane_put b topic { backlog := (b.lane topic).backlog } t)
    replace hserved := hput.symm.trans hserved
    split_ifs at hserved with ht
    exact hserved

theorem shutdown_onward (hb : b.Sound) : b.Onward b.shutdown := by
  cases hdown : b.down with
  | true =>
    have hsame : b.shutdown = b := by simp [MemoryBroker.shutdown, hdown]
    rw [hsame]
    exact .of_steady (.refl b) hb rfl
  | false =>
    refine ⟨shutdown_sound hb, ?_, fun t id _ hserved => ?_⟩
    · rw [shutdown_of_running hdown]
    · rw [shutdown_lane hdown] at hserved
      cases hserved

theorem Step.onward (hb : b.Sound) (hs : b.Step seen b') : b.Onward b' := by
  cases hs with
  | publish hp =>
    have hadds := publish_adds hb hp
    obtain ⟨-, rfl⟩ := publish_eq_ok hp
    exact .of_steady hadds.steady hadds.sound (enqueue_nextWorker _ _ _)
  | subscribe hs => exact subscribe_onward hb hs
  | unsubscribe topic => exact unsubscribe_onward hb topic
  | settle x t body =>
    have hadds := settle_adds hb x t body
    refine .of_steady hadds.steady hadds.sound ?_
    cases x with
    | retry => exact enqueue_nextWorker _ _ _
    | _ => rfl
  | deliver hd =>
    have hgives := turnOf?_gives hb hd
    obtain ⟨w, hw, -, ⟨-, hturn⟩ | ⟨e, r, -, -, hturn⟩⟩ := turnOf?_eq_some hd
    · cases hturn
    · cases hturn
      exact .of_steady hgives.steady hgives.sound rfl
  | stop hd =>
    obtain ⟨w, hw, -, ⟨hc, hturn⟩ | ⟨e, r, -, -, hturn⟩⟩ := turnOf?_eq_some hd
    · cases hturn
      obtain ⟨hsound, hsteady, -⟩ := stop_loses hb hw hc
      exact .of_steady hsteady hsound (b.stop_nextWorker _ _)
    · cases hturn
  | finish id =>
    obtain hsame | ⟨w, hw, hc, hstop⟩ | ⟨w, hw, hfree⟩ := b.finish_cases id
    · rw [hsame]
      exact .of_steady (.refl b) hb rfl
    · rw [hstop]
      obtain ⟨hsound, hsteady, -⟩ := stop_loses hb hw hc
      exact .of_steady hsteady hsound (b.stop_nextWorker _ _)
    · rw [hfree]
      have hadds := free_adds hb hw false
      exact .of_steady hadds.steady hadds.sound rfl
  | shutdown => exact shutdown_onward hb

theorem shutdown_stored (b : MemoryBroker σ) (topic : String) (q : Option Nat) :
    b.shutdown.stored topic q = b.stored topic q := by
  cases hdown : b.down with
  | true => simp [shutdown, hdown]
  | false =>
    cases q with
    | none =>
      have hlane := shutdown_lane hdown topic
      simp only [stored, hlane]
    | some id =>
      rw [shutdown_of_running hdown]
      simp only [stored, Table.get?_map, Option.map_map]
      rfl

end MemoryBroker

/-! ## What waits on a line -/

namespace Line

open MemoryBroker (publishedOn_append publishedOn_published publishedOn_settling firstsOn_append
  firstsOn_delivered firstsOn_settling unseen)

variable {σ : Type} {l : Line} {b b' : MemoryBroker σ} {log seen : List Event}

/-- The messages of a line that wait to be delivered for the first time in some place. -/
def stored (l : Line) (b : MemoryBroker σ) (q : Option Nat) : List Message :=
  Message.among l.correlation (b.stored l.topic q)

/-- The messages that were published on a line. -/
def said (l : Line) (log : List Event) : List Message :=
  Message.among l.correlation (publishedOn l.topic log)

/-- The messages that were delivered on a line for the first time. -/
def heard (l : Line) (log : List Event) : List Message :=
  Message.among l.correlation (firstsOn l.topic log)

theorem said_append (l : Line) (log log' : List Event) :
    l.said (log ++ log') = l.said log ++ l.said log' := by
  rw [said, publishedOn_append, Message.among_append]
  rfl

theorem heard_append (l : Line) (log log' : List Event) :
    l.heard (log ++ log') = l.heard log ++ l.heard log' := by
  rw [heard, firstsOn_append, Message.among_append]
  rfl

/-- What was said on a line was heard in the same order, or waits in the queue of its worker. -/
structure Carries (l : Line) (log : List Event) (b : MemoryBroker σ) : Prop where
  sound : b.Sound
  elsewhere : ∀ q, q ≠ some l.worker → l.stored b q = []
  inOrder : l.said log = l.heard log ++ l.stored b (some l.worker)

namespace Carries

/-- Something happens that changes nothing of what waits. -/
theorem aside (h : l.Carries log b) (hsound : b'.Sound)
    (hstored : ∀ q, l.stored b' q = l.stored b q) : l.Carries log b' where
  sound := hsound
  elsewhere := fun q hq => (hstored q).trans (h.elsewhere q hq)
  inOrder := by
    rw [hstored]
    exact h.inOrder

/-- Nothing is seen that counts. -/
theorem silent (h : l.Carries log b) (hsaid : l.said seen = []) (hheard : l.heard seen = []) :
    l.Carries (log ++ seen) b where
  sound := h.sound
  elsewhere := h.elsewhere
  inOrder := by
    rw [said_append, hsaid, heard_append, hheard, List.append_nil, List.append_nil]
    exact h.inOrder

/-- An envelope that is enqueued on the topic gets behind what waits. -/
theorem stored_enqueue (hb : b.Sound) (l : Line) (t : String) (e : Envelope) (q : Option Nat) :
    l.stored (b.enqueue t e) q = l.stored b q ++
      if t = l.topic ∧ q = (b.lane l.topic).worker then
        Message.among l.correlation (unseen [e]) else [] := by
  rw [stored, MemoryBroker.stored_enqueue hb, Message.among_append]
  split_ifs <;> rfl

theorem published (h : l.Carries log b) (hserved : (b.lane l.topic).worker = some l.worker)
    {t : String} {body : Bytes} (hp : b.publish t body = .ok b') :
    l.Carries (log ++ [.published t body]) b' := by
  obtain ⟨-, rfl⟩ := MemoryBroker.publish_eq_ok hp
  have hcount := MemoryBroker.tally_adds h.sound (b.published + 1) b.confirmed b.rejected b.retried
  have hadds := MemoryBroker.enqueue_adds hcount.sound t { body, redelivered := false }
  have hsaid : l.said [.published t body] =
      if t = l.topic then Message.among l.correlation [body] else [] := by
    rw [said, publishedOn_published]
    split_ifs <;> rfl
  have hstored (q : Option Nat) := stored_enqueue hcount.sound l t { body, redelivered := false } q
  have hsame (q : Option Nat) :
      l.stored { b with published := b.published + 1 } q = l.stored b q := by
    cases q <;> rfl
  refine ⟨hadds.sound, fun q hq => ?_, ?_⟩
  · rw [hstored, hsame, h.elsewhere q hq, if_neg fun hc => hq (hc.2.trans hserved)]
    rfl
  · rw [said_append, hsaid, h.inOrder, heard_append, show l.heard [.published t body] = [] from rfl,
      List.append_nil, List.append_assoc, hstored, hsame]
    congr 2
    exact if_congr ⟨fun ht => ⟨ht, hserved.symm⟩, And.left⟩ rfl rfl

theorem subscribed (h : l.Carries log b) (hserved : (b.lane l.topic).worker = some l.worker)
    {t : String} {subscriber : σ} (hs : b.subscribe t subscriber = .ok b') :
    l.Carries log b' := by
  obtain ⟨-, hlane, -⟩ := MemoryBroker.subscribe_eq_ok hs
  have ht : t ≠ l.topic := by
    rintro rfl
    rw [hserved] at hlane
    cases hlane
  refine h.aside (MemoryBroker.subscribe_sound h.sound hs) fun q => ?_
  rw [stored, MemoryBroker.stored_subscribe hs, if_neg ht]
  split_ifs with hq hc
  · rw [stored, hq, MemoryBroker.stored_nextWorker h.sound]
  · exact absurd hc.1 ht
  · rfl

theorem settled (h : l.Carries log b) (x : Settlement) (t : String) (body : Bytes) :
    l.Carries log (b.settle x t body) := by
  refine h.aside (MemoryBroker.settle_adds h.sound x t body).sound fun q => ?_
  cases x with
  | confirm => cases q <;> rfl
  | reject => cases q <;> rfl
  | retry =>
    have hcount := MemoryBroker.tally_adds h.sound b.published b.confirmed b.rejected
      (b.retried + 1)
    refine (stored_enqueue hcount.sound l t { body, redelivered := true } q).trans ?_
    rw [show unseen [{ body, redelivered := true }] = [] from rfl, Message.among_nil, ite_self,
      List.append_nil]
    cases q <;> rfl

/-- Only the worker of the line delivers on its topic, and that from the front of its queue. -/
theorem delivered (h : l.Carries log b) (hserved : (b.lane l.topic).worker = some l.worker)
    {id worker : Nat} {subscriber : σ} {t : String} {e : Envelope}
    (hd : b.turnOf? id = some (.delivery worker subscriber t e b')) :
    l.Carries (log ++ [.delivered t e]) b' := by
  obtain ⟨w, hw, -, ⟨-, hturn⟩ | ⟨e, r, hc, hqueue, hturn⟩⟩ := MemoryBroker.turnOf?_eq_some hd
  · cases hturn
  · cases hturn
    have hsound := h.sound.queue hw r true
    have hheard : l.heard [.delivered w.topic e] =
        if w.topic = l.topic then Message.among l.correlation (unseen [e]) else [] := by
      rw [heard, firstsOn_delivered]
      split_ifs <;> rfl
    have hput (q : Option Nat) : l.stored
        { b with workers := b.workers.put id { w with queue := r, busy := true } } q =
        if q = some id then Message.among l.correlation
          (MemoryBroker.Worker.firsts l.topic { w with queue := r, busy := true })
        else l.stored b q := by
      rw [stored, MemoryBroker.stored_put]
      split_ifs <;> rfl
    by_cases ht : w.topic = l.topic
    · have hid : id = l.worker := by
        have hlane : (b.lane w.topic).worker = some id := by
          refine (h.sound.serves w.topic id).mpr ?_
          rw [MemoryBroker.badge, hw, ← hc]
          rfl
        exact Option.some.inj ((ht ▸ hlane).symm.trans hserved)
      subst hid
      have hfront : l.stored b (some l.worker) = Message.among l.correlation (unseen [e]) ++
          Message.among l.correlation
            (MemoryBroker.Worker.firsts l.topic { w with queue := r, busy := true }) := by
        rw [stored, MemoryBroker.stored_worker hw, MemoryBroker.Worker.firsts,
          MemoryBroker.Worker.firsts, if_pos ht, if_pos ht, hqueue, MemoryBroker.unseen_cons,
          Message.among_append]
      refine ⟨hsound, fun q hq => ?_, ?_⟩
      · rw [hput, if_neg hq]
        exact h.elsewhere q hq
      · rw [said_append, show l.said [.delivered w.topic e] = [] from rfl, List.append_nil,
          heard_append, hheard, if_pos ht, hput, if_pos rfl, List.append_assoc, ← hfront]
        exact h.inOrder
    · refine (h.aside hsound fun q => ?_).silent rfl (by rw [hheard, if_neg ht])
      rw [hput]
      split_ifs with hq
      · rw [hq, stored, MemoryBroker.stored_worker hw, MemoryBroker.Worker.firsts,
          MemoryBroker.Worker.firsts, if_neg ht, if_neg ht]
      · rfl

/-- A worker that stops has nothing of the line to hand back. -/
theorem stopped (h : l.Carries log b) (hserved : (b.lane l.topic).worker = some l.worker)
    {id : Nat} {w : MemoryBroker.Worker σ} (hw : b.workers.get? id = some w)
    (hc : w.cancelled = true) : l.Carries log (b.stop id w) := by
  have hid : some id ≠ some l.worker := by
    intro hid
    obtain ⟨v, hv, -, hvc⟩ := h.sound.worker hserved
    cases (Option.some.inj hid ▸ hw).symm.trans hv
    cases hc.symm.trans hvc
  have hnothing := h.elsewhere (some id) hid
  have herased (q : Option Nat) : (if q = some id then [] else l.stored b q) = l.stored b q := by
    split_ifs with hq
    · rw [hq, hnothing]
    · rfl
  refine h.aside (MemoryBroker.stop_loses h.sound hw hc).1 fun q => ?_
  cases hdown : b.down with
  | true =>
    have hstop : b.stop id w = { b with workers := b.workers.erase id } := by
      simp [MemoryBroker.stop, hdown]
    rw [hstop, stored, MemoryBroker.stored_erase, ← herased q]
    split_ifs <;> rfl
  | false =>
    rw [stored, MemoryBroker.stored_stop h.sound hw hc hdown, Message.among_append, ← herased q]
    have hback : Message.among l.correlation
        (if q = (b.lane l.topic).worker then b.stored l.topic (some id) else []) = [] := by
      split_ifs
      · exact hnothing
      · rfl
    rw [hback, List.append_nil]
    split_ifs <;> rfl

theorem finished (h : l.Carries log b) (hserved : (b.lane l.topic).worker = some l.worker)
    (id : Nat) : l.Carries log (b.finish id) := by
  obtain hsame | ⟨w, hw, hc, hstop⟩ | ⟨w, hw, hfree⟩ := b.finish_cases id
  · rw [hsame]
    exact h
  · rw [hstop]
    exact h.stopped hserved hw hc
  · rw [hfree]
    refine h.aside (MemoryBroker.free_adds h.sound hw false).sound fun q => ?_
    rw [stored, MemoryBroker.stored_rewrite (v := { w with busy := false }) hw rfl rfl]
    rfl

/-- Every step of the broker keeps the order, as long as the worker serves the topic. -/
theorem step (h : l.Carries log b) (hserved : (b.lane l.topic).worker = some l.worker)
    (hs : b.Step seen b') : l.Carries (log ++ seen) b' := by
  cases hs with
  | publish hp => exact h.published hserved hp
  | subscribe hs => exact (h.subscribed hserved hs).silent rfl rfl
  | unsubscribe t =>
    have hsame := MemoryBroker.stored_unsubscribe h.sound l.topic t
    exact (h.aside (MemoryBroker.unsubscribe_sound h.sound t)
      fun q => congrArg _ (hsame q)).silent rfl rfl
  | settle x t body =>
    exact (h.settled x t body).silent (by rw [said, publishedOn_settling, Message.among_nil])
      (by rw [heard, firstsOn_settling, Message.among_nil])
  | deliver hd => exact h.delivered hserved hd
  | stop hs =>
    obtain ⟨w, hw, -, ⟨hc, hturn⟩ | ⟨e, r, -, -, hturn⟩⟩ := MemoryBroker.turnOf?_eq_some hs
    · cases hturn
      exact (h.stopped hserved hw hc).silent rfl rfl
    · cases hturn
  | finish id => exact (h.finished hserved id).silent rfl rfl
  | shutdown =>
    exact (h.aside (MemoryBroker.shutdown_sound h.sound)
      fun q => congrArg _ (b.shutdown_stored l.topic q)).silent rfl rfl

end Carries

/-- As long as the worker of the line serves the topic, the line carries.  Once it does not, it
never will again. -/
structure Stands (l : Line) (log : List Event) (b : MemoryBroker σ) : Prop where
  sound : b.Sound
  given : l.worker < b.nextWorker
  carries : (b.lane l.topic).worker = some l.worker → l.Carries log b

namespace Stands

theorem step (h : l.Stands log b) (hs : b.Step seen b') : l.Stands (log ++ seen) b' := by
  have honward := hs.onward h.sound
  refine ⟨honward.sound, h.given.trans_le honward.nextWorker, fun hserved => ?_⟩
  have hbefore := honward.served _ _ h.given hserved
  exact (h.carries hbefore).step hbefore hs

theorem works (h : l.Stands log b) (hw : b.Works seen b') : l.Stands (log ++ seen) b' := by
  induction hw with
  | refl => exact (List.append_nil log).symm ▸ h
  | step _ hs _ ih => exact (List.append_assoc log _ _) ▸ ih.step hs

end Stands

end Line

/-! ## Deliveries -/

namespace Session

theorem received_broker (s : Session) (k : Consumer Handler) (e : Envelope) :
    (s.received k e).channels.broker = s.channels.broker :=
  Channels.monitor_broker _ _ _

theorem received_fields (s : Session) (k : Consumer Handler) (e : Envelope) :
    (s.received k e).channels.consumers = s.channels.consumers ∧
      (s.received k e).channels.made = s.channels.made := by
  obtain ⟨hconsumers, hmade, -⟩ := Channels.monitor_fields s.channels .received k.topic
  exact ⟨hconsumers, hmade⟩

theorem received_goes (s : Session) (k : Consumer Handler) (e : Envelope) :
    s.channels.Goes (s.received k e).channels := by
  refine ⟨?_, .monitor s.channels .received k.topic⟩
  rw [s.received_broker k e]
  exact .refl _

theorem settleRaw_goes (s : Session) (topic : String) (body : Bytes) (x : Settlement) :
    s.channels.Goes (s.settleRaw topic body x).2.channels := by
  unfold settleRaw
  split
  · rename_i hb
    exact .told hb _
  · exact .record s.channels _

theorem actRaw_goes (s : Session) (topic : String) (e : Envelope) (a : RawAction) :
    s.channels.Goes (s.actRaw topic e a).channels := by
  cases a with
  | settle x => exact s.settleRaw_goes topic e.body x
  | retryOnce => exact s.settleRaw_goes topic e.body _
  | unsubscribe t => exact (s.unsubscribeRaw_deals t).goes
  | publish t text => exact (s.publishRaw_deals t none _).goes
  | hold => exact .refl _

theorem dispatch_goes (s : Session) (h : Handler) (delivery : Nat) (redelivered : Bool)
    (m : Message) : s.channels.Goes (s.dispatch h delivery redelivered m).2.channels := by
  cases h with
  | script topic actions => exact .record s.channels _
  | inbox desk topic => exact (s.arrive_deals desk topic delivery m).goes
  | server sv => exact .record s.channels _

theorem consume_goes (s : Session) (k : Consumer Handler) (e : Envelope) :
    s.channels.Goes (s.consume k e).2.channels := by
  refine (s.received_goes k e).trans ?_
  obtain ⟨m, h, -, -, -, hc⟩ | ⟨-, why, hc⟩ := s.consume_cases k e
  · rw [hc]
    exact dispatch_goes _ _ _ _ _
  · rw [hc]
    exact ((note_deals _ _).trans (settle_deals _ _ _)).goes

/-- Whatever is done with a delivery, the broker delivers nothing meanwhile. -/
theorem deliver_goes (s : Session) (subscriber : Subscriber) (topic : String) (e : Envelope) :
    s.channels.Goes (s.deliver subscriber topic e).2.channels := by
  cases subscriber with
  | consumer n =>
    simp only [deliver]
    split
    · exact s.consume_goes _ e
    · exact s.settleRaw_goes topic e.body .reject
  | raw t actions =>
    simp only [deliver]
    have hall (s : Session) :
        s.channels.Goes (actions.foldl (fun s a => s.actRaw t e a) s).channels := by
      induction actions generalizing s with
      | nil => exact .refl _
      | cons a rest ih => exact (s.actRaw_goes t e a).trans (ih _)
    exact (Channels.Goes.record s.channels _).trans
      (hall (s.happen (.delivered t e.body e.redelivered)))

/-- What arrives at the inbox of the context is handed to the open conversation that is entered. -/
theorem dispatch_of_entered {s : Session} {n : Nat} {x : Exchange} {topic : String} {m : Message}
    (hx : s.exchanges.get? n = some x) (hdesk : x.desk = .shared)
    (hopen : x.conversation.ended = false)
    (hm : (s.inbox .shared topic).members.get? m.correlation = some n) (delivery : Nat)
    (redelivered : Bool) :
    ∃ v end?, (s.watch x).receive n s.clock m = some (v, end?) ∧
      s.dispatch (.inbox .shared topic) delivery redelivered m =
        (reportOf n x.callbacks m ++ closing n end? ++ [.verdict .done (.delivery delivery m.id)],
          s.putWatch n .shared v) := by
  cases hr : (s.watch x).receive n s.clock m with
  | none => cases (Watch.receive_eq_none_iff.mp hr).symm.trans hopen
  | some r => exact ⟨r.1, r.2, rfl, by simp only [dispatch, arrive, hm, handle, hx, hr, hdesk]⟩

end Session

/-! ## Lines that are up -/

namespace Line

variable {l : Line}

/-- The worker delivers to the consumer of the topic, and that has the inbox of the context as its
handler. -/
structure Served (l : Line) (s : Session) : Prop where
  worker : ∃ b, s.channels.broker = .memory b ∧ (b.lane l.topic).worker = some l.worker
  consumer : ∃ n, s.channels.consumers.get? l.topic = some n ∧
    s.channels.broker.subscriber? l.topic = some (.consumer n)
  handler : s.channels.handler? l.topic = some (.inbox .shared l.topic)

/-- The line is served, and the conversation is open and is the one that is entered. -/
structure Up (l : Line) (s : Session) : Prop where
  exchange : ∃ x, s.exchanges.get? l.exchange = some x ∧
    x.address? = some (l.topic, l.correlation) ∧ x.conversation.ended = false
  entered : s.entry (l.topic, l.correlation) = some l.exchange
  served : l.Served s

/-- A message is taken in by a conversation, and no other one hears of it. -/
structure Takes (s : Session) (n : Nat) (m : Message) (r : List Frame × Session) : Prop where
  self : ∃ x v end?, s.exchanges.get? n = some x ∧
    (s.watch x).receive n s.clock m = some (v, end?) ∧
    r.2.exchanges.get? n = some { x with conversation := v.conversation } ∧
    ∃ g, r.1 = Session.reportOf n x.callbacks m ++ Session.closing n end? ++ [.verdict .done g]
  others : ∀ k, k ≠ n → r.2.exchanges.get? k = s.exchanges.get? k

/-- No message of a line waits anywhere. -/
def Silent (l : Line) (s : Session) : Prop :=
  ∀ b, s.channels.broker = .memory b → ∀ q, l.stored b q = []

variable {s s' start : Session} {m : Message} {e : Envelope} {id worker : Nat}
  {subscriber : Subscriber} {b b' b'' : MemoryBroker Subscriber} {log seen : List Event}

theorem Served.of_faithful (h : s.channels.Faithful)
    (hhandler : s.channels.handler? l.topic = some (.inbox .shared l.topic))
    (hb : s.channels.broker = .memory b) (hworker : (b.lane l.topic).worker = some l.worker)
    {n : Nat} (hsubscriber : b.subscriber? l.topic = some (.consumer n)) : l.Served s := by
  have hpost : s.channels.broker.subscriber? l.topic = some (.consumer n) := by
    rw [hb, Broker.subscriber?, hsubscriber]
  have hcached := h.points _ _ hpost (by rw [Channels.isSubscribed, hhandler]; rfl)
  exact ⟨⟨b, hb, hworker⟩, ⟨n, hcached, hpost⟩, hhandler⟩

theorem Served.memory (h : l.Served s) (hb : s.channels.broker = .memory b) :
    (b.lane l.topic).worker = some l.worker ∧ ∃ n, b.subscriber? l.topic = some (.consumer n) := by
  obtain ⟨b₀, hb₀, hworker⟩ := h.worker
  cases hb₀.symm.trans hb
  obtain ⟨n, -, hsubscriber⟩ := h.consumer
  rw [hb, Broker.subscriber?] at hsubscriber
  exact ⟨hworker, n, hsubscriber⟩

/-- The broker did something else, and the consumers are as they were. -/
theorem Served.aside (h : l.Served s) (hb : s.channels.broker = .memory b)
    (hb' : s'.channels.broker = .memory b') (hsteady : b.Steady b') (hsound : b'.Sound)
    (hconsumers : s'.channels.consumers = s.channels.consumers)
    (hmade : s'.channels.made = s.channels.made) : l.Served s' := by
  obtain ⟨b₀, hb₀, hworker⟩ := h.worker
  cases hb₀.symm.trans hb
  obtain ⟨n, hn, hsubscriber⟩ := h.consumer
  refine ⟨⟨b', hb', (hsteady.lane _).trans hworker⟩, ⟨n, hconsumers ▸ hn, ?_⟩, ?_⟩
  · rw [hb, Broker.subscriber?] at hsubscriber
    rw [hb', Broker.subscriber?, hsteady.subscriber? hsound, hsubscriber]
  · rw [Channels.handler?, hconsumers, hmade]
    exact h.handler

/-- What the worker of a line delivers is consumed for the inbox of the context. -/
theorem Served.consumes (h : l.Served s) (hb : s.channels.broker = .memory b) (hsound : b.Sound)
    (hd : b.turnOf? id = some (.delivery worker subscriber l.topic e b')) :
    ∃ k : Consumer Handler, k.handler = some (.inbox .shared l.topic) ∧
      (s.withBroker (.memory b')).deliver subscriber l.topic e =
        (s.withBroker (.memory b')).consume k e := by
  obtain ⟨n, hn, hsubscriber⟩ := h.consumer
  obtain ⟨n', k, hn', hk, hhandler⟩ := Channels.handler?_eq_some.mp h.handler
  cases hn.symm.trans hn'
  rw [hb, Broker.subscriber?, MemoryBroker.turnOf?_subscriber? hsound hd] at hsubscriber
  cases hsubscriber
  exact ⟨k, hhandler, Session.deliver_cached (s := s.withBroker (.memory b')) hn hk l.topic e⟩

/-- A line stays up while a delivery comes to a consumer. -/
theorem Up.received (h : l.Up s) (hb : s.channels.broker = .memory b) (hsound : b.Sound)
    {t : String} (hd : b.turnOf? id = some (.delivery worker subscriber t e b'))
    (k : Consumer Handler) : l.Up ((s.withBroker (.memory b')).received k e) where
  exchange := h.exchange
  entered := h.entered
  served := by
    obtain ⟨hconsumers, hmade⟩ := (s.withBroker (.memory b')).received_fields k e
    have hgives := MemoryBroker.turnOf?_gives hsound hd
    exact h.served.aside hb (Session.received_broker _ k e) hgives.steady hgives.sound hconsumers
      hmade

/-- A message of the line is taken in by the conversation, and unless that ends it the line stays
up. -/
theorem Up.dispatch (h : l.Up s) (hm : m.correlation = l.correlation) (delivery : Nat)
    (redelivered : Bool) :
    Takes s l.exchange m (s.dispatch (.inbox .shared l.topic) delivery redelivered m) ∧
      ((s.dispatch (.inbox .shared l.topic) delivery redelivered m).2.Over l.exchange ∨
        l.Up (s.dispatch (.inbox .shared l.topic) delivery redelivered m).2) := by
  obtain ⟨x, hx, ha, hopen⟩ := h.exchange
  obtain ⟨hdesk, -⟩ := Exchange.shared_of_address? ha
  obtain ⟨v, end?, hr, hdispatch⟩ := Session.dispatch_of_entered hx hdesk hopen
    (show (s.inbox .shared l.topic).members.get? m.correlation = some l.exchange from
      hm ▸ h.entered) delivery redelivered
  have hput := (Session.Changed.refl hx).putWatch .shared v
  rw [hdispatch]
  refine ⟨⟨⟨x, v, end?, hx, hr, hput.self, _, rfl⟩, hput.others⟩, ?_⟩
  cases hend : v.conversation.ended with
  | true => exact .inl ⟨_, hput.self, hend⟩
  | false =>
    have hlater := (Exchange.address?_later (Watch.receive_later hr)).trans ha
    exact .inr ⟨⟨_, hput.self, hlater, hend⟩, h.entered,
      ⟨h.served.worker, h.served.consumer, h.served.handler⟩⟩

/-- So is a message of the line that the worker delivers. -/
theorem Up.takes (h : l.Up s) (hb : s.channels.broker = .memory b) (hsound : b.Sound)
    (hd : b.turnOf? id = some (.delivery worker subscriber l.topic e b'))
    (hdecode : Message.decode e.body = .ok m) (hm : m.correlation = l.correlation)
    (hfresh : m.isExpired s.now = false) :
    Takes s l.exchange m ((s.withBroker (.memory b')).deliver subscriber l.topic e) ∧
      (((s.withBroker (.memory b')).deliver subscriber l.topic e).2.Over l.exchange ∨
        l.Up ((s.withBroker (.memory b')).deliver subscriber l.topic e).2) := by
  obtain ⟨k, hk, hconsume⟩ := h.served.consumes hb hsound hd
  obtain ⟨htakes, hafter⟩ := (h.received hb hsound hd k).dispatch hm
    (s.withBroker (.memory b')).nextDelivery e.redelivered
  rw [hconsume, Session.consume_of_handler (s := s.withBroker (.memory b')) hk hdecode hfresh]
  exact ⟨⟨htakes.self, htakes.others⟩, hafter⟩

/-! ## Runs -/

/-- Anything may happen in a session, and its broker takes one step after the other.  But what the
broker delivers on the topic it delivers while the line is up, and the session does with it what it
does with deliveries.  The log is what was seen of the broker. -/
inductive Lasts (l : Line) (start : Session) : List Event → Session → Prop where
  | start : Lasts l start [] start
  | aside {log : List Event} {s s' : Session} : Lasts l start log s →
      s'.channels.broker = s.channels.broker → Lasts l start log s'
  | step {log seen : List Event} {s s' : Session} {b b' : MemoryBroker Subscriber} :
      Lasts l start log s → s.channels.broker = .memory b → b.Step seen b' →
      MemoryBroker.deliveredOn l.topic seen = [] → s'.channels.broker = .memory b' →
      Lasts l start (log ++ seen) s'
  | deliver {log seen : List Event} {s : Session} {b b' b'' : MemoryBroker Subscriber}
      {id worker : Nat} {subscriber : Subscriber} {e : Envelope} : Lasts l start log s → l.Up s →
      s.channels.broker = .memory b →
      b.turnOf? id = some (.delivery worker subscriber l.topic e b') → b'.Works seen b'' →
      ((s.withBroker (.memory b')).deliver subscriber l.topic e).2.channels.broker = .memory b'' →
      Lasts l start (log ++ ([.delivered l.topic e] ++ seen))
        ((s.withBroker (.memory b')).deliver subscriber l.topic e).2

theorem Up.stands (h : l.Up start) (hb : start.channels.broker = .memory b) (hsound : b.Sound)
    (hsilent : l.Silent start) : l.Stands [] b := by
  obtain ⟨b₀, hb₀, hworker⟩ := h.served.worker
  cases hb.symm.trans hb₀
  refine ⟨hsound, ?_, fun _ => ⟨hsound, fun q _ => hsilent b hb q, ?_⟩⟩
  · by_contra hnew
    cases (hsound.numbered _ (Nat.le_of_not_lt hnew)).symm.trans
      ((hsound.serves _ _).mp hworker)
  · rw [hsilent b hb]
    rfl

namespace Lasts

theorem stands (h : l.Lasts start log s) (hb : start.channels.broker = .memory b)
    (hstands : l.Stands [] b) : ∃ b', s.channels.broker = .memory b' ∧ l.Stands log b' := by
  induction h with
  | start => exact ⟨b, hb, hstands⟩
  | aside _ hsame ih =>
    obtain ⟨b', hb', h'⟩ := ih
    exact ⟨b', hsame.trans hb', h'⟩
  | step _ hb₁ hs _ hb₂ ih =>
    obtain ⟨b', hb', h'⟩ := ih
    cases hb₁.symm.trans hb'
    exact ⟨_, hb₂, h'.step hs⟩
  | deliver _ _ hb₁ hd hworks hb₂ ih =>
    obtain ⟨b', hb', h'⟩ := ih
    cases hb₁.symm.trans hb'
    exact ⟨_, hb₂, (List.append_assoc _ _ _) ▸ (h'.step (.deliver hd)).works hworks⟩

theorem works (h : l.Lasts start log s) (hb : s.channels.broker = .memory b)
    (hworks : b.Works seen b') (hb' : s'.channels.broker = .memory b') :
    l.Lasts start (log ++ seen) s' := by
  induction hworks generalizing s' with
  | refl => exact (List.append_nil log).symm ▸ h.aside (hb'.trans hb.symm)
  | @step b₁ b₂ log₁ seen₁ _ hs hnone ih =>
    have hbetween : l.Lasts start (log ++ log₁) (s.withBroker (.memory b₁)) := ih rfl
    exact (List.append_assoc log log₁ seen₁) ▸ hbetween.step rfl hs (hnone l.topic) hb'

theorem memory (h : l.Lasts start log s) (hb : start.channels.broker = .memory b) :
    ∃ b', s.channels.broker = .memory b' := by
  induction h with
  | start => exact ⟨b, hb⟩
  | aside _ hsame ih => exact ih.imp fun _ hb' => hsame.trans hb'
  | step _ _ _ _ hb' => exact ⟨_, hb'⟩
  | deliver _ _ _ _ _ hb' => exact ⟨_, hb'⟩

/-- What a session does without a delivery of its broker. -/
theorem deals (h : l.Lasts start log s) (hb : start.channels.broker = .memory b)
    (hd : s.Deals s') : ∃ seen, l.Lasts start (log ++ seen) s' := by
  obtain ⟨b₁, hb₁⟩ := h.memory hb
  obtain ⟨seen, b₂, hb₂, hworks⟩ := hd.goes.works b₁ hb₁
  exact ⟨seen, h.works hb₁ hworks hb₂⟩

/-- The turn of a worker while the line is up. -/
theorem turn (h : l.Lasts start log s) (hup : l.Up s) {frames : List Frame}
    (ht : s.turn? = some (frames, s')) : ∃ seen, l.Lasts start (log ++ seen) s' := by
  obtain ⟨b, id, hb, ⟨b', hturn, rfl⟩ | ⟨worker, subscriber, topic, e, b', hturn, rfl⟩⟩ :=
    Session.turn_cases ht
  · exact ⟨[], h.step hb (.stop hturn) rfl rfl⟩
  · obtain ⟨seen, b'', hb'', hworks⟩ :=
      (s.withBroker (.memory b')).deliver_goes subscriber topic e |>.works b' rfl
    by_cases ht : topic = l.topic
    · subst ht
      exact ⟨_, h.deliver hup hb hturn hworks hb''⟩
    · have hother : MemoryBroker.deliveredOn l.topic [.delivered topic e] = [] := by
        simp [MemoryBroker.deliveredOn, ht]
      have hstep : l.Lasts start _ (s.withBroker (.memory b')) :=
        h.step hb (.deliver hturn) hother rfl
      exact ⟨_, (List.append_assoc log _ _) ▸ hstep.works rfl hworks hb''⟩

/-- Whatever a machine does by itself, as long as the line is up whenever it is the turn of a
worker. -/
theorem run (hb : start.channels.broker = .memory b) (n : Nat) {machine : Machine}
    (h : l.Lasts start log machine.session)
    (hup : ∀ k < n, (machine.run k).agenda = [] → l.Up (machine.run k).session) :
    ∃ seen, l.Lasts start (log ++ seen) (machine.run n).session := by
  induction n generalizing machine log with
  | zero => exact ⟨[], (List.append_nil log).symm ▸ h⟩
  | succ n ih =>
    cases hstep : machine.step? with
    | none =>
      simp only [Machine.run, hstep]
      exact ⟨[], (List.append_nil log).symm ▸ h⟩
    | some next =>
      have hnow := hup 0 (Nat.succ_pos n)
      obtain ⟨seen, hnext⟩ := Machine.step_cases
        (R := fun m m' => l.Lasts start log m.session → (m.agenda = [] → l.Up m.session) →
          ∃ seen, l.Lasts start (log ++ seen) m'.session)
        (fun f _ s h _ => h.deals hb (s.perform_deals f))
        (fun hturn h hup => h.turn (hup rfl) hturn) hstep h hnow
      obtain ⟨seen', hrun⟩ := ih hnext fun k hk => by
        have hlater := hup (k + 1) (Nat.succ_lt_succ hk)
        simp only [Machine.run, hstep] at hlater
        exact hlater
      simp only [Machine.run, hstep]
      exact ⟨seen ++ seen', (List.append_assoc log _ _) ▸ hrun⟩

end Lasts
end Line
end Colloquy
