/-
A request that fails leaves nothing behind.

A request can fail before there is anything to take back, when its answers cannot be listened
to, and when it cannot go out although they are.  In the last case the conversation is torn
down, which strikes it out of its inbox again; that the inbox is then what it was before is due
to its balance, which holds at every moment of a run.
-/
import Colloquy.Proofs.Displacement

namespace Colloquy

namespace Inbox

variable {η : Type} {i j : Inbox} {correlation : String} {self : Nat} {handler : η}
  {c d : Channels η}

/-- The mark of a subscription has no part in striking out. -/
theorem strike_marked (i : Inbox) (marked : Bool) (correlation : String) (self : Nat) :
    ({ i with subscribed := marked } : Inbox).strike correlation self =
      { i.strike correlation self with subscribed := marked } := by
  unfold strike
  split <;> rfl

/-- To register a new member and to unregister it again changes nothing. -/
theorem Balanced.unregister_register (h : i.Balanced) (hnew : i.members.get? correlation = none)
    (hr : i.register correlation self handler c = (.ok (), j, d)) (e : Channels η) :
    (j.unregister correlation self e).1 = i := by
  have hstrike := strike_enter (Table.get?_eq_none_iff.mp hnew) self
  have hget := i.enter_get? correlation self
  simp only [Inbox.register] at hr
  split at hr
  · rename_i hsub
    cases hr
    have hpos : i.live ≠ 0 := Nat.ne_of_gt (h.subscribed.mp hsub)
    simp only [Inbox.unregister, if_pos hget, hstrike, hpos, decide_false, Bool.false_and,
      if_false, Bool.false_eq_true]
  · rename_i hsub
    split at hr
    · cases hr
      have hnone : i.subscribed = false := Bool.eq_false_iff.mpr hsub
      have hzero : i.live = 0 := by
        by_contra hlive
        exact hsub (h.subscribed.mpr (Nat.pos_of_ne_zero hlive))
      simp only [Inbox.unregister]
      rw [if_pos hget, strike_marked, hstrike]
      simp only [hzero, decide_true, Bool.and_self, if_true]
      have hback : ({ i with live := 0, subscribed := false } : Inbox) = i := by
        rw [← hzero, ← hnone]
      split <;> exact hback
    · cases hr

/-- Nobody is displaced by a new member. -/
theorem register_new (hnew : i.members.get? correlation = none) (self : Nat) (handler : η)
    (c : Channels η) :
    i.register correlation self handler c =
      if i.subscribed then (.ok (), i.enter correlation self, c)
      else
        match c.subscribe i.topic handler with
        | (.ok _, d) => (.ok (), { i.enter correlation self with subscribed := true }, d)
        | (.error why, d) =>
          (.error why, (i.enter correlation self).strike correlation self,
            d.note (.inboxNotSubscribed i.topic why)) := by
  have hsame : c.record (i.displacement correlation self) = c := by
    simp only [displacement, hnew, Channels.record, List.append_nil]
  simp only [register, hsame]
  rfl

end Inbox

namespace Session

variable {s s' : Session} {n : Nat}

/-! ## Balance in a session -/

/-- Every inbox of the messaging context is balanced. -/
def InBalance (s : Session) : Prop := ∀ topic, (s.inbox .shared topic).Balanced

namespace InBalance

theorem congr (h : s.InBalance) (hi : s'.shared.inboxes = s.shared.inboxes) : s'.InBalance := by
  intro topic
  rw [inbox_congr hi]
  exact h topic

theorem setInbox (h : s.InBalance) {i : Inbox} (hb : i.Balanced) :
    (s.setInbox .shared i).InBalance := by
  intro topic
  rw [inbox_setInbox]
  by_cases ht : topic = i.topic
  · rw [if_pos ht]
    exact hb
  · rw [if_neg ht]
    exact h topic

theorem register (h : s.InBalance) (n : Nat) : (s.register n).2.InBalance := by
  cases hx : s.exchanges.get? n with
  | none =>
    simp only [Session.register, hx]
    exact h
  | some x =>
    cases hd : x.desk with
    | own => exact h.congr (register_own hx hd).2
    | shared =>
      simp only [Session.register, hx, hd]
      exact (h.setInbox ((h _).register _ _ _ _)).congr rfl

theorem unregister (h : s.InBalance) (n : Nat) : (s.unregister n).InBalance := by
  cases hx : s.exchanges.get? n with
  | none =>
    simp only [Session.unregister, hx]
    exact h
  | some x =>
    cases hd : x.desk with
    | own => exact h.congr (unregister_own hx hd).2
    | shared =>
      simp only [Session.unregister, hx, hd]
      exact (h.setInbox ((h _).unregister _ _ _)).congr rfl

theorem listen (h : s.InBalance) (n : Nat) : (s.listen n).2.InBalance := by
  cases hx : s.exchanges.get? n with
  | none =>
    simp only [Session.listen, hx]
    exact h
  | some x =>
    have hset : (s.setConversation n x.conversation.listen).InBalance := h.congr rfl
    have hregister := hset.register n
    simp only [Session.listen, hx]
    split
    · rename_i hr
      rw [hr] at hregister
      exact hregister
    · rename_i hr
      rw [hr] at hregister
      exact hregister.congr rfl

theorem abort (h : s.InBalance) (n : Nat) (why : Failure) : (s.abort n why).2.InBalance := by
  cases hx : s.exchanges.get? n with
  | none =>
    simp only [Session.abort, hx]
    exact h
  | some x =>
    cases hopen : x.conversation.ended with
    | true =>
      have ha : (s.watch x).abort = (false, s.watch x) := Watch.abort_of_ended hopen
      simp only [Session.abort, hx, ha]
      exact h
    | false =>
      obtain ⟨w, hw, honward, -⟩ := abort_of_open hx hopen why
      rw [hw]
      exact (h.congr (s.putWatch_aside n x.desk honward).inboxes).unregister n

theorem place (h : s.InBalance) (desk : DeskName) (correlation topic : String) (terms : Terms)
    (callbacks : Callbacks) : (s.place desk correlation topic terms callbacks).2.InBalance := by
  cases desk with
  | own => exact h.congr rfl
  | shared => exact (h.setInbox (h topic)).congr rfl

theorem converse (h : s.InBalance) (r : Requester) (m : Message) :
    (s.converse r m).2.2.InBalance := by
  have hlisten := (h.place .shared m.correlation (s.origin.responseTopic r.namesp)
    (s.terms r.options) r.callbacks).listen s.nextExchange
  unfold Session.converse
  simp only
  rw [show (s.place .shared m.correlation (s.origin.responseTopic r.namesp)
    (s.terms r.options) r.callbacks).1 = s.nextExchange from rfl]
  generalize (s.place .shared m.correlation (s.origin.responseTopic r.namesp)
    (s.terms r.options) r.callbacks).2.listen s.nextExchange = l at hlisten ⊢
  obtain ⟨result, t⟩ := l
  cases result with
  | error why => exact hlisten
  | ok u =>
    have hsend (c : Channels Handler) : ({ t with channels := c } : Session).InBalance :=
      hlisten.congr rfl
    dsimp only
    split
    · exact (hsend _).abort _ _
    · exact (hsend _).congr (wait_aside _ _).inboxes

end InBalance

theorem Deed.in_balance {frames : List Frame} (hd : Deed s frames s') (hf : s.Filed)
    (h : s.InBalance) : s'.InBalance := by
  induction hd with
  | calm hstill _ => exact h.congr hstill.aside.inboxes
  | place s correlation topic terms callbacks => exact h.place .own _ _ _ _
  | name _ _ _ => exact h.congr rfl
  | listen _ => exact h.listen _
  | register _ => exact h.register _
  | unregister _ => exact h.unregister _
  | wait s n => exact h.congr (s.wait_aside n).inboxes
  | handle s n m => exact h.congr (s.handle_aside n m).inboxes
  | abort s n why => exact h.abort n why
  | fire ht => exact h.congr (fire_aside _ ht).inboxes
  | converse s r m => exact h.converse r m
  | andThen hd _ ih ih' => exact ih' (hd.files hf).filed (ih hf h)
  | beneath _ _ ih => exact ih hf h

theorem InBalance.perform (h : s.InBalance) (hf : s.Filed) (f : Frame) :
    (s.perform f).2.InBalance := by
  obtain ⟨k, e, rfl⟩ | ⟨k, e, rfl⟩ | ⟨-, hd⟩ := s.perform_cases f
  · cases hx : s.exchanges.get? k with
    | none =>
      simp only [Session.perform, hx]
      exact h
    | some x =>
      simp only [Session.perform, hx]
      exact h.unregister k
  · exact h.congr (s.resolve_aside k e).inboxes
  · exact hd.in_balance hf h

end Session

/-- Through every run the inboxes stay balanced. -/
theorem Machine.Reaches.in_balance {s : Session} {m : Machine}
    (h : Machine.Reaches { agenda := [], session := s } m) (hs : s.Blank) :
    m.session.InBalance := by
  induction h with
  | refl =>
    intro topic
    rw [show (({ agenda := [], session := s } : Machine).session.inbox .shared topic) = { topic } by
      rw [Session.inbox, Session.desk, hs.shared]
      rfl]
    exact .start topic
  | perform h ih => exact ih.perform (h.tended (.of_blank hs)).filed _
  | outside h hd ih => exact hd.in_balance (h.tended (.of_blank hs)).filed ih

/-- A conversation without timers is torn down. -/
theorem Watch.abort_unarmed {w : Watch} (hopen : w.conversation.ended = false)
    (hresponse : w.conversation.responseTimer = none) (hack : w.conversation.ackTimer = none) :
    w.abort = (true, { w with conversation := w.conversation.dropped }) := by
  have hcancel : w.cancelTimers = w := by
    obtain ⟨c, timers, notes⟩ := w
    cases c
    cases hresponse
    cases hack
    rfl
  simp only [abort, hopen, if_false, Bool.false_eq_true, hcancel]
  rfl

namespace Session

variable {s t : Session} {x : Exchange} {i j : Inbox}

/-! ## A conversation on trial -/

/-- A session with one conversation more, and with the inbox of its topic. -/
structure Trial (s : Session) (x : Exchange) (i : Inbox) (t : Session) : Prop where
  shared : x.desk = .shared
  topic : x.conversation.topic = i.topic
  self : t.exchanges.get? s.nextExchange = some x
  others : ∀ k, k ≠ s.nextExchange → t.exchanges.get? k = s.exchanges.get? k
  conversations : t.conversations = s.conversations
  own : t.own = s.own
  timers : t.shared.timers = s.shared.timers
  inbox : t.inbox .shared i.topic = i
  inboxes : ∀ topic, topic ≠ i.topic → t.inbox .shared topic = s.inbox .shared topic
  now : t.now = s.now
  clock : t.clock = s.clock
  context : t.context = s.context
  nextExchange : t.nextExchange = s.nextExchange + 1

/-- A session to which a conversation was added that has gone again. -/
structure RolledBack (s t : Session) : Prop where
  inboxes : ∀ name topic, t.inbox name topic = s.inbox name topic
  timers : ∀ name, (t.desk name).timers = (s.desk name).timers
  others : ∀ k, k ≠ s.nextExchange → t.exchanges.get? k = s.exchanges.get? k
  conversations : t.conversations = s.conversations
  /-- Nobody waits for it, and it keeps no timer. -/
  gone : ∀ x, t.exchanges.get? s.nextExchange = some x →
    x.conversation.ended = true ∧ t.awaited s.nextExchange = .dropped ∧
      x.conversation.responseTimer = none ∧ x.conversation.ackTimer = none

theorem RolledBack.of_none (hi : ∀ name topic, t.inbox name topic = s.inbox name topic)
    (ht : ∀ name, (t.desk name).timers = (s.desk name).timers) (hx : t.exchanges = s.exchanges)
    (hn : t.conversations = s.conversations) (hnone : s.exchanges.get? s.nextExchange = none) :
    s.RolledBack t where
  inboxes := hi
  timers := ht
  others := fun k _ => by rw [hx]
  conversations := hn
  gone := fun x hself => by
    rw [hx, hnone] at hself
    cases hself

namespace Trial

theorem channels (h : s.Trial x i t) (c : Channels Handler) :
    s.Trial x i { t with channels := c } :=
  { h with }

theorem setConversation (h : s.Trial x i t) {c : Conversation}
    (hc : c.topic = x.conversation.topic) :
    s.Trial { x with conversation := c } i (t.setConversation s.nextExchange c) where
  shared := h.shared
  topic := hc.trans h.topic
  self := ((Changed.refl h.self).setConversation c).self
  others := fun k hk =>
    (((Changed.refl h.self).setConversation c).others k hk).trans (h.others k hk)
  conversations := h.conversations
  own := h.own
  timers := h.timers
  inbox := h.inbox
  inboxes := h.inboxes
  now := h.now
  clock := h.clock
  context := h.context
  nextExchange := h.nextExchange

theorem setInbox (h : s.Trial x i t) (hj : j.topic = i.topic) (c : Channels Handler) :
    s.Trial x j { t.setInbox .shared j with channels := c } where
  shared := h.shared
  topic := h.topic.trans hj.symm
  self := h.self
  others := h.others
  conversations := h.conversations
  own := h.own
  timers := h.timers
  inbox := (inbox_setInbox t j j.topic).trans (if_pos rfl)
  inboxes := fun topic ht =>
    ((inbox_setInbox t j topic).trans (if_neg ht)).trans (h.inboxes topic (hj ▸ ht))
  now := h.now
  clock := h.clock
  context := h.context
  nextExchange := h.nextExchange

theorem rolledBack (h : s.Trial x i t) (hi : i = s.inbox .shared i.topic)
    (hended : x.conversation.ended = true) (hdropped : x.conversation.completion = .dropped)
    (hresponse : x.conversation.responseTimer = none) (hack : x.conversation.ackTimer = none) :
    s.RolledBack t where
  inboxes := fun name topic => by
    cases name with
    | own =>
      show (t.own.inboxes.getD topic _) = _
      rw [h.own]
      rfl
    | shared =>
      by_cases ht : topic = i.topic
      · rw [ht, h.inbox]
        exact hi
      · exact h.inboxes topic ht
  timers := fun name => by
    cases name with
    | own => exact congrArg Desk.timers h.own
    | shared => exact h.timers
  others := h.others
  conversations := h.conversations
  gone := fun y hy => by
    rw [h.self] at hy
    cases hy
    refine ⟨hended, ?_, hresponse, hack⟩
    simp only [awaited, h.self, hdropped]

/-! ### The steps of a request -/

theorem register (h : s.Trial x i t) {result : Except Failure Unit} {c : Channels Handler}
    (hr : i.register x.conversation.correlation s.nextExchange (.inbox .shared i.topic)
      t.channels = (result, j, c)) :
    t.register s.nextExchange = (result, { t.setInbox .shared j with channels := c }) ∧
      s.Trial x j { t.setInbox .shared j with channels := c } := by
  have hj := i.register_topic x.conversation.correlation s.nextExchange
    (.inbox .shared i.topic) t.channels
  rw [hr] at hj
  refine ⟨?_, h.setInbox hj c⟩
  simp only [Session.register, h.self, h.shared, h.topic, h.inbox, hr]

/-- A conversation that is listened to is in the inbox, and one that cannot be is refused. -/
theorem listen (h : s.Trial x i t) {result : Except Failure Unit} {c : Channels Handler}
    (hr : i.register x.conversation.correlation s.nextExchange (.inbox .shared i.topic)
      t.channels = (result, j, c)) :
    ∃ u, t.listen s.nextExchange = (result, u) ∧ u.channels = c ∧
      s.Trial { x with conversation :=
        match result with
        | .ok _ => x.conversation.listen
        | .error _ => x.conversation.listen.refuse } j u := by
  have hl := x.conversation.listen_later
  have hset := h.setConversation hl.topic
  obtain ⟨hregister, htrial⟩ :=
    hset.register (x := { x with conversation := x.conversation.listen })
    (by rw [← hr, ← hl.correlation]; rfl)
  simp only [Session.listen, h.self, hregister]
  cases result with
  | ok u => exact ⟨_, rfl, rfl, htrial⟩
  | error why => exact ⟨_, rfl, rfl, htrial.setConversation (c := x.conversation.listen.refuse) rfl⟩

theorem unregister (h : s.Trial x i t) :
    s.Trial x (i.unregister x.conversation.correlation s.nextExchange t.channels).1
      (t.unregister s.nextExchange) := by
  have heq : t.unregister s.nextExchange =
      { t.setInbox .shared
          (i.unregister x.conversation.correlation s.nextExchange t.channels).1 with
        channels := (i.unregister x.conversation.correlation s.nextExchange t.channels).2 } := by
    simp only [Session.unregister, h.self, h.shared, h.topic, h.inbox]
  rw [heq]
  exact h.setInbox (i.unregister_topic _ _ _) _

/-- An open conversation without timers is struck out when it is torn down. -/
theorem abort (h : s.Trial x i t) (hopen : x.conversation.ended = false)
    (hresponse : x.conversation.responseTimer = none) (hack : x.conversation.ackTimer = none)
    (why : Failure) :
    ∃ u, ∃ c : Channels Handler, t.abort s.nextExchange why =
        ([.report (some s.nextExchange) x.callbacks (.failed why)], u) ∧
      s.Trial { x with conversation := x.conversation.dropped }
        (i.unregister x.conversation.correlation s.nextExchange c).1 u := by
  obtain ⟨conversation, callbacks, desk⟩ := x
  obtain rfl : desk = .shared := h.shared
  let x : Exchange := { conversation, callbacks, desk := .shared }
  have hwatch := Watch.abort_unarmed (w := t.watch x) hopen hresponse hack
  have hset := h.setConversation (c := conversation.dropped) rfl
  have hput : s.Trial { x with conversation := conversation.dropped } i
      (t.putWatch s.nextExchange .shared { t.watch x with conversation := conversation.dropped }) :=
    { hset with }
  refine ⟨_, _, ?_, hput.unregister⟩
  simp only [Session.abort, h.self]
  rw [hwatch]
  rfl

end Trial

/-- A new conversation in an inbox that is there or made. -/
theorem place_trial (h : s.Labelled) (correlation topic : String) (terms : Terms)
    (callbacks : Callbacks) :
    s.Trial { conversation := .start correlation topic s.clock terms, callbacks, desk := .shared }
      (s.inbox .shared topic) (s.place .shared correlation topic terms callbacks).2 where
  shared := rfl
  topic := (h topic).symm
  self := Table.get?_put_self _ _ _
  others := fun _ hk => Table.get?_put_ne _ hk _
  conversations := rfl
  own := rfl
  timers := rfl
  inbox := (inbox_setInbox s _ _).trans (if_pos rfl)
  inboxes := fun u hu => (inbox_setInbox s _ u).trans (if_neg hu)
  now := rfl
  clock := rfl
  context := rfl
  nextExchange := rfl

/-! ## Failing -/

/-- A report to the error callback, and to no other one, of a request that left nothing behind. -/
def FailsClean (s : Session) (r : Requester) (why : Failure)
    (result : Except Failure (Option Nat) × List Frame × Session) : Prop :=
  result.1 = .error why ∧ (∃ n, result.2.1 = [.report n r.callbacks (.failed why)]) ∧
    s.RolledBack result.2.2

theorem converse_eq (s : Session) (r : Requester) (m : Message) :
    s.converse r m =
      match (s.place .shared m.correlation (s.origin.responseTopic r.namesp)
        (s.terms r.options) r.callbacks).2.listen s.nextExchange with
      | (.error why, t) => (.error why, [.report none r.callbacks (.failed why)], t)
      | (.ok _, t) =>
        match t.channels.send t.now r.namesp m with
        | (.error why, c) =>
          (.error why, ({ t with channels := c }.abort s.nextExchange why).1,
            ({ t with channels := c }.abort s.nextExchange why).2)
        | (.ok _, c) =>
          (.ok (some s.nextExchange), [], { t with channels := c }.wait s.nextExchange) := rfl

/-- The conversation of a request fails if its answers cannot be listened to, or if the message
cannot be sent. -/
theorem converse_fails (hl : s.Labelled) (hb : s.InBalance) (r : Requester) {m : Message}
    (hnew : s.entry (s.origin.responseTopic r.namesp, m.correlation) = none)
    {result : Except Failure Unit} {c : Channels Handler}
    (hr : (s.inbox .shared (s.origin.responseTopic r.namesp)).register m.correlation
      s.nextExchange (.inbox .shared (s.origin.responseTopic r.namesp)) s.channels =
        (result, j, c)) :
    match result with
    | .error why => s.FailsClean r why (s.converse r m)
    | .ok _ =>
      match (c.send s.now r.namesp m).1 with
      | .error why => s.FailsClean r why (s.converse r m)
      | .ok _ => (s.converse r m).1 = .ok (some s.nextExchange) := by
  have hbalanced := hb (s.origin.responseTopic r.namesp)
  have htopic := hl (s.origin.responseTopic r.namesp)
  obtain ⟨u, hlisten, hchannels, htrial⟩ := (place_trial hl m.correlation
    (s.origin.responseTopic r.namesp) (s.terms r.options) r.callbacks).listen
      (show _ = (result, j, c) by rw [htopic]; exact hr)
  have hj : j.topic = s.origin.responseTopic r.namesp := by
    have hkept := (s.inbox .shared (s.origin.responseTopic r.namesp)).register_topic m.correlation
      s.nextExchange (.inbox .shared (s.origin.responseTopic r.namesp)) s.channels
    rw [hr] at hkept
    exact hkept.trans htopic
  rw [converse_eq, hlisten]
  cases result with
  | error why =>
    refine ⟨rfl, ⟨none, rfl⟩, htrial.rolledBack ?_ rfl ?_ ?_ ?_⟩
    · rw [hj]
      exact hbalanced.register_error hr
    all_goals rw [Conversation.listen_eq]; rfl
  | ok _ =>
    dsimp only
    rw [hchannels, htrial.now]
    cases hsent : c.send s.now r.namesp m with
    | mk result d =>
      cases result with
      | ok _ => rfl
      | error why =>
        obtain ⟨v, e, habort, hback⟩ := (htrial.channels d).abort
          (by rw [Conversation.listen_eq]; rfl) (by rw [Conversation.listen_eq]; rfl)
          (by rw [Conversation.listen_eq]; rfl) why
        have hcorrelation : (Conversation.start m.correlation (s.origin.responseTopic r.namesp)
            s.clock (s.terms r.options)).listen.correlation = m.correlation := by
          rw [Conversation.listen_eq]
          rfl
        simp only [hcorrelation, hbalanced.unregister_register hnew hr e] at hback
        dsimp only
        rw [habort]
        refine ⟨rfl, ⟨some s.nextExchange, rfl⟩, hback.rolledBack ?_ rfl rfl ?_ ?_⟩
        · rw [htopic]
        all_goals rw [Conversation.listen_eq]; rfl

/-- The channels on which the message of a request goes out.  There is a producer for it, and if
it opens a conversation the topic for its answers is subscribed. -/
inductive Outlet (s : Session) (r : Requester) : Channels Handler → Prop where
  | alone {n : Nat} {c : Channels Handler} : s.channels.producer r.namesp = (.ok n, c) →
      r.options.opensConversation = false → Outlet s r c
  | joins {n : Nat} {c : Channels Handler} : s.channels.producer r.namesp = (.ok n, c) →
      r.options.opensConversation = true →
      (s.inbox .shared (s.origin.responseTopic r.namesp)).subscribed = true → Outlet s r c
  | first {n : Nat} {c d : Channels Handler} : s.channels.producer r.namesp = (.ok n, c) →
      r.options.opensConversation = true →
      (s.inbox .shared (s.origin.responseTopic r.namesp)).subscribed = false →
      c.subscribe (s.origin.responseTopic r.namesp)
        (.inbox .shared (s.origin.responseTopic r.namesp)) = (.ok (), d) → Outlet s r d

/-- What can be in the way of a request, at one point after the other. -/
inductive Refuses (s : Session) (r : Requester) :
    Except (Json.Fault × String) Json.Value → Failure → Prop where
  | payload (fault : Json.Fault) (detail : String) :
      Refuses s r (.error (fault, detail)) (.serialization fault detail)
  | shutDown (p : Json.Value) : s.channels.shutDown = true → Refuses s r (.ok p) .shutDown
  | topic (p : Json.Value) {why : Failure} : s.channels.shutDown = false →
      s.channels.producers.get? r.namesp = none → s.channels.checkNew r.namesp = .error why →
      Refuses s r (.ok p) why
  | subscription (p : Json.Value) {n : Nat} {c d : Channels Handler} {why : Failure} :
      s.channels.producer r.namesp = (.ok n, c) → r.options.opensConversation = true →
      (s.inbox .shared (s.origin.responseTopic r.namesp)).subscribed = false →
      c.subscribe (s.origin.responseTopic r.namesp)
        (.inbox .shared (s.origin.responseTopic r.namesp)) = (.error why, d) →
      Refuses s r (.ok p) why
  | encoding (p : Json.Value) {c : Channels Handler} {why : Failure} : s.Outlet r c →
      ((s.requestMessage r p).1.markPublished s.now).encode = .error why →
      Refuses s r (.ok p) why
  | publishing (p : Json.Value) {c : Channels Handler} {body : Bytes} {why : Failure} :
      s.Outlet r c → ((s.requestMessage r p).1.markPublished s.now).encode = .ok body →
      c.broker.publish r.namesp (s.requestMessage r p).1.route.routingKey body = .error why →
      Refuses s r (.ok p) why

/-- The message of a request takes identifiers, and nothing else changes. -/
theorem requestMessage_session (s : Session) (r : Requester) (p : Json.Value) :
    ∃ ident, (s.requestMessage r p).2 = { s with nextIdent := ident } := by
  unfold requestMessage
  cases r.joins with
  | none => exact ⟨_, rfl⟩
  | some m => exact ⟨_, rfl⟩

theorem producer_error_iff {topic : String} {why : Failure} :
    (s.channels.producer topic).1 = .error why ↔
      s.channels.shutDown = true ∧ why = .shutDown ∨
        s.channels.shutDown = false ∧ s.channels.producers.get? topic = none ∧
          s.channels.checkNew topic = .error why := by
  unfold Channels.producer
  cases hs : s.channels.shutDown with
  | true => simp [eq_comm]
  | false =>
    cases hp : s.channels.producers.get? topic with
    | some n => simp
    | none => cases hc : s.channels.checkNew topic <;> simp

/-- What comes of a request that has an outlet is decided by the broker, and by whether its message
can be written. -/
theorem send_error_iff {c : Channels Handler} {now : Instant} {topic : String} {m : Message}
    {why : Failure} :
    (c.send now topic m).1 = .error why ↔
      (m.markPublished now).encode = .error why ∨
        ∃ body, (m.markPublished now).encode = .ok body ∧
          c.broker.publish topic m.route.routingKey body = .error why := by
  unfold Channels.send
  have hkey : (m.markPublished now).route = m.route := rfl
  cases he : (m.markPublished now).encode with
  | error f => simp [he]
  | ok body =>
    cases hb : c.broker.publish topic m.route.routingKey body <;> simp [he, hb, hkey]

variable {r : Requester} {p : Json.Value}

/-- Taking identifiers and doing something with the channels is nothing to take back. -/
theorem FailsClean.at_once (hfresh : s.exchanges.get? s.nextExchange = none) (ident : Nat)
    (c : Channels Handler) (why : Failure) :
    s.FailsClean r why (.error why, [.report none r.callbacks (.failed why)],
      { s with nextIdent := ident, channels := c }) :=
  ⟨rfl, ⟨none, rfl⟩, .of_none (fun name _ => by cases name <;> rfl)
    (fun name => by cases name <;> rfl) rfl rfl hfresh⟩

theorem FailsClean.after {ident : Nat} {c : Channels Handler} {why : Failure}
    {result : Except Failure (Option Nat) × List Frame × Session}
    (h : ({ s with nextIdent := ident, channels := c } : Session).FailsClean r why result) :
    s.FailsClean r why result :=
  ⟨h.1, h.2.1, fun name topic => (h.2.2.inboxes name topic).trans (by cases name <;> rfl),
    fun name => (h.2.2.timers name).trans (by cases name <;> rfl), h.2.2.others,
    h.2.2.conversations, h.2.2.gone⟩

theorem FailsClean.after_send {ident : Nat} {c : Channels Handler}
    {result : Except Failure (Option Nat) × List Frame × Session} {sent : Except Failure Unit} :
    (match sent with
      | .error why =>
        ({ s with nextIdent := ident, channels := c } : Session).FailsClean r why result
      | .ok _ => result.1 = .ok (some s.nextExchange)) →
    match sent with
    | .error why => s.FailsClean r why result
    | .ok _ => ∃ n, result.1 = .ok n := by
  intro h
  cases sent with
  | error why => exact h.after
  | ok _ => exact ⟨_, h⟩

/-- A request that opens a conversation has its answers refused, or it has an outlet. -/
theorem converse_cases (hf : s.Filed) (hb : s.InBalance) {m : Message}
    (hnew : s.entry (s.origin.responseTopic r.namesp, m.correlation) = none) {n : Nat}
    {c : Channels Handler} (hp : s.channels.producer r.namesp = (.ok n, c))
    (hopens : r.options.opensConversation = true) (ident : Nat) :
    let t : Session := { s with nextIdent := ident, channels := c }
    (∃ d why, (s.inbox .shared (s.origin.responseTopic r.namesp)).subscribed = false ∧
        c.subscribe (s.origin.responseTopic r.namesp)
          (.inbox .shared (s.origin.responseTopic r.namesp)) = (.error why, d) ∧
        s.FailsClean r why (t.converse r m)) ∨
      ∃ d, s.Outlet r d ∧
        match (d.send s.now r.namesp m).1 with
        | .error why => s.FailsClean r why (t.converse r m)
        | .ok _ => ∃ n, (t.converse r m).1 = .ok n := by
  intro t
  have hregister := (t.inbox .shared (s.origin.responseTopic r.namesp)).register_new hnew
    s.nextExchange (.inbox .shared (s.origin.responseTopic r.namesp)) c
  rw [show (t.inbox .shared (s.origin.responseTopic r.namesp)).topic =
    s.origin.responseTopic r.namesp from hf.labelled _] at hregister
  have hfails {result : Except Failure Unit} {j : Inbox} {d : Channels Handler}
      (hr : (t.inbox .shared (s.origin.responseTopic r.namesp)).register m.correlation
        s.nextExchange (.inbox .shared (s.origin.responseTopic r.namesp)) c = (result, j, d)) :=
    converse_fails (s := t) (hf.labelled.congr rfl) (hb.congr rfl) r hnew hr
  cases hsub : (s.inbox .shared (s.origin.responseTopic r.namesp)).subscribed with
  | true =>
    have hjoined := hfails (hregister.trans (if_pos hsub))
    exact Or.inr ⟨c, .joins hp hopens hsub, FailsClean.after_send hjoined⟩
  | false =>
    replace hregister := hregister.trans (if_neg (Bool.eq_false_iff.mp hsub))
    cases hd : c.subscribe (s.origin.responseTopic r.namesp)
        (.inbox .shared (s.origin.responseTopic r.namesp)) with
    | mk result d =>
      rw [hd] at hregister
      cases result with
      | error why => exact Or.inl ⟨d, why, rfl, rfl, (hfails hregister).after⟩
      | ok _ =>
        exact Or.inr ⟨d, .first hp hopens hsub hd, FailsClean.after_send (hfails hregister)⟩

/-- A request has no producer, or its answers are refused, or it has an outlet. -/
theorem publish_cases (hf : s.Filed) (hb : s.InBalance)
    (hnew : r.options.opensConversation = true →
      s.entry (s.origin.responseTopic r.namesp, s.nextCorrelation r) = none) :
    (∃ why c, s.channels.producer r.namesp = (.error why, c) ∧
        s.FailsClean r why (s.publish r p)) ∨
      (∃ n c d why, s.channels.producer r.namesp = (.ok n, c) ∧
        r.options.opensConversation = true ∧
        (s.inbox .shared (s.origin.responseTopic r.namesp)).subscribed = false ∧
        c.subscribe (s.origin.responseTopic r.namesp)
          (.inbox .shared (s.origin.responseTopic r.namesp)) = (.error why, d) ∧
        s.FailsClean r why (s.publish r p)) ∨
      ∃ c, s.Outlet r c ∧
        match (c.send s.now r.namesp (s.requestMessage r p).1).1 with
        | .error why => s.FailsClean r why (s.publish r p)
        | .ok _ => ∃ n, (s.publish r p).1 = .ok n := by
  obtain ⟨ident, hsession⟩ := s.requestMessage_session r p
  have hcorrelation := (s.requestMessage_fields r p).1
  have hfresh := hf.fresh s.nextExchange (Nat.le_refl _)
  unfold publish
  simp only
  rw [hsession]
  cases hp : s.channels.producer r.namesp with
  | mk result c =>
    cases result with
    | error why =>
      exact Or.inl ⟨why, c, rfl, .at_once hfresh ident c why⟩
    | ok n =>
      cases hopens : r.options.opensConversation with
      | false =>
        refine Or.inr (Or.inr ⟨c, .alone hp hopens, ?_⟩)
        simp only [if_false, Bool.false_eq_true]
        rw [show ({ s with nextIdent := ident, channels := c } : Session).now = s.now from rfl]
        cases hsent : c.send s.now r.namesp (s.requestMessage r p).1 with
        | mk result d =>
          cases result with
          | error why => exact .at_once hfresh ident d why
          | ok _ => exact ⟨none, rfl⟩
      | true =>
        simp only [if_true]
        have hentry := hcorrelation ▸ hnew hopens
        obtain ⟨d, why, hsub, hd, hfails⟩ | houtlet :=
          converse_cases hf hb hentry hp hopens ident
        · exact Or.inr (Or.inl ⟨n, c, d, why, rfl, trivial, hsub, hd, hfails⟩)
        · exact Or.inr (Or.inr houtlet)

/-! ### The points of failure -/

namespace Outlet

variable {c d : Channels Handler}

theorem producer (h : s.Outlet r c) : ∃ n e, s.channels.producer r.namesp = (.ok n, e) := by
  cases h with
  | alone hp _ => exact ⟨_, _, hp⟩
  | joins hp _ _ => exact ⟨_, _, hp⟩
  | first hp _ _ _ => exact ⟨_, _, hp⟩

theorem unique (h : s.Outlet r c) (h' : s.Outlet r d) : c = d := by
  cases h <;> cases h' <;> simp_all

/-- Answers that are refused leave no outlet. -/
theorem heard (h : s.Outlet r c) {n : Nat} {d e : Channels Handler} {why : Failure}
    (hp : s.channels.producer r.namesp = (.ok n, d)) (hopens : r.options.opensConversation = true)
    (hsub : (s.inbox .shared (s.origin.responseTopic r.namesp)).subscribed = false)
    (hd : d.subscribe (s.origin.responseTopic r.namesp)
      (.inbox .shared (s.origin.responseTopic r.namesp)) = (.error why, e)) : False := by
  cases h <;> simp_all

end Outlet

variable {why other : Failure}

theorem refuses_of_no_producer {c : Channels Handler}
    (hp : s.channels.producer r.namesp = (.error why, c)) :
    s.Refuses r (.ok p) other ↔ other = why := by
  have hwhy : (s.channels.producer r.namesp).1 = .error why := by rw [hp]
  have hsame (h : (s.channels.producer r.namesp).1 = .error other) : other = why := by
    rw [hp] at h
    cases h
    rfl
  constructor
  · intro h
    cases h with
    | shutDown _ hs => exact hsame (producer_error_iff.mpr (Or.inl ⟨hs, rfl⟩))
    | topic _ hs hnone hc => exact hsame (producer_error_iff.mpr (Or.inr ⟨hs, hnone, hc⟩))
    | subscription _ hp' _ _ _ =>
      rw [hp] at hp'
      cases hp'
    | encoding _ ho _ =>
      obtain ⟨n, e, hp'⟩ := ho.producer
      rw [hp] at hp'
      cases hp'
    | publishing _ ho _ _ =>
      obtain ⟨n, e, hp'⟩ := ho.producer
      rw [hp] at hp'
      cases hp'
  · rintro rfl
    obtain ⟨hs, rfl⟩ | ⟨hs, hnone, hc⟩ := producer_error_iff.mp hwhy
    · exact .shutDown p hs
    · exact .topic p hs hnone hc

theorem producer_not_error {n : Nat} {c : Channels Handler}
    (hp : s.channels.producer r.namesp = (.ok n, c)) :
    (s.channels.producer r.namesp).1 ≠ .error why := by
  rw [hp]
  exact fun h => nomatch h

theorem refuses_of_unheard {n : Nat} {c d : Channels Handler}
    (hp : s.channels.producer r.namesp = (.ok n, c)) (hopens : r.options.opensConversation = true)
    (hsub : (s.inbox .shared (s.origin.responseTopic r.namesp)).subscribed = false)
    (hd : c.subscribe (s.origin.responseTopic r.namesp)
      (.inbox .shared (s.origin.responseTopic r.namesp)) = (.error why, d)) :
    s.Refuses r (.ok p) other ↔ other = why := by
  constructor
  · intro h
    cases h with
    | shutDown _ hs =>
      exact absurd (producer_error_iff.mpr (Or.inl ⟨hs, rfl⟩)) (producer_not_error hp)
    | topic _ hs hnone hc =>
      exact absurd (producer_error_iff.mpr (Or.inr ⟨hs, hnone, hc⟩)) (producer_not_error hp)
    | subscription _ hp' _ _ hd' =>
      rw [hp] at hp'
      cases hp'
      rw [hd] at hd'
      cases hd'
      rfl
    | encoding _ ho _ => exact (ho.heard hp hopens hsub hd).elim
    | publishing _ ho _ _ => exact (ho.heard hp hopens hsub hd).elim
  · rintro rfl
    exact .subscription p hp hopens hsub hd

theorem refuses_of_outlet {c : Channels Handler} (ho : s.Outlet r c) :
    s.Refuses r (.ok p) why ↔
      (c.send s.now r.namesp (s.requestMessage r p).1).1 = .error why := by
  rw [send_error_iff]
  constructor
  · intro h
    cases h with
    | shutDown _ hs =>
      obtain ⟨n, e, hp⟩ := ho.producer
      exact absurd (producer_error_iff.mpr (Or.inl ⟨hs, rfl⟩)) (producer_not_error hp)
    | topic _ hs hnone hc =>
      obtain ⟨n, e, hp⟩ := ho.producer
      exact absurd (producer_error_iff.mpr (Or.inr ⟨hs, hnone, hc⟩)) (producer_not_error hp)
    | subscription _ hp hopens hsub hd => exact (ho.heard hp hopens hsub hd).elim
    | encoding _ ho' he =>
      exact Or.inl he
    | publishing _ ho' he hb =>
      rw [ho'.unique ho] at hb
      exact Or.inr ⟨_, he, hb⟩
  · rintro (he | ⟨body, he, hb⟩)
    · exact .encoding p ho he
    · exact .publishing p ho he hb

/-- A request fails exactly if something is in its way, and then it fails clean. -/
theorem publish_fails (hf : s.Filed) (hb : s.InBalance)
    (hnew : r.options.opensConversation = true →
      s.entry (s.origin.responseTopic r.namesp, s.nextCorrelation r) = none) :
    ((s.publish r p).1 = .error why ↔ s.Refuses r (.ok p) why) ∧
      ((s.publish r p).1 = .error why → s.FailsClean r why (s.publish r p)) := by
  have hfails {other : Failure} (h : s.FailsClean r other (s.publish r p)) :
      ((s.publish r p).1 = .error why ↔ why = other) ∧
        ((s.publish r p).1 = .error why → s.FailsClean r why (s.publish r p)) := by
    have hsame : (s.publish r p).1 = .error why ↔ why = other := by
      rw [h.1]
      simp [eq_comm]
    exact ⟨hsame, fun he => (hsame.mp he) ▸ h⟩
  obtain ⟨other, c, hp, hclean⟩ | ⟨n, c, d, other, hp, hopens, hsub, hd, hclean⟩ | ⟨c, ho, hsent⟩ :=
    publish_cases (p := p) hf hb hnew
  · rw [refuses_of_no_producer hp]
    exact hfails hclean
  · rw [refuses_of_unheard hp hopens hsub hd]
    exact hfails hclean
  · rw [refuses_of_outlet ho]
    generalize (c.send s.now r.namesp (s.requestMessage r p).1).1 = sent at hsent ⊢
    cases sent with
    | error other =>
      have h := hfails hsent
      simp only [Except.error.injEq]
      exact ⟨h.1.trans eq_comm, h.2⟩
    | ok _ =>
      obtain ⟨n, hn⟩ := hsent
      rw [hn]
      exact ⟨⟨fun h => (nomatch h), fun h => (nomatch h)⟩, fun h => nomatch h⟩

end Session

namespace Machine

variable {s : Session} {m : Machine}

/-- At every moment of a run a request fails exactly if something is in its way: a payload that
cannot be made, channels that are shut down, its topic, the subscription for its answers, its
message, or the broker.  Then its error callback is told why, and no other callback anything; if
it does nothing with it that is all, and what the request did is taken back. -/
theorem Reaches.failed_request_rolled_back (h : Reaches { agenda := [], session := s } m)
    (hs : s.Blank) (r : Requester) (value : Except (Json.Fault × String) Json.Value)
    (hnew : r.options.opensConversation = true →
      m.session.entry (m.session.origin.responseTopic r.namesp, m.session.nextCorrelation r) =
        none) (why : Failure) :
    ((m.session.offer r value).1 = .error why ↔ m.session.Refuses r value why) ∧
      ((m.session.offer r value).1 = .error why →
        ∃ n t, m.session.offer r value =
            (.error why, [.report n r.callbacks (.failed why)], t) ∧
          m.session.RolledBack t ∧
          ∀ rest, r.callbacks.failed = some [] →
            run 2 { agenda := .report n r.callbacks (.failed why) :: rest, session := t } =
                { agenda := rest
                  session := t.happen (.reported r.callbacks.owner (.failed why)) } ∧
              m.session.RolledBack (t.happen (.reported r.callbacks.owner (.failed why)))) := by
  have hf := (h.tended (.of_blank hs)).filed
  have hoffer : ((m.session.offer r value).1 = .error why ↔ m.session.Refuses r value why) ∧
      ((m.session.offer r value).1 = .error why →
        m.session.FailsClean r why (m.session.offer r value)) := by
    cases value with
    | ok p => exact Session.publish_fails hf (h.in_balance hs) hnew
    | error e =>
      obtain ⟨fault, detail⟩ := e
      have hclean : m.session.FailsClean r (.serialization fault detail)
          (m.session.offer r (.error (fault, detail))) :=
        .at_once (hf.fresh _ (Nat.le_refl _)) m.session.nextIdent m.session.channels _
      refine ⟨⟨fun he => ?_, fun hr => ?_⟩, fun he => ?_⟩
      · cases he
        exact .payload fault detail
      · cases hr
        rfl
      · cases he
        exact hclean
  refine ⟨hoffer.1, fun he => ?_⟩
  obtain ⟨hwhy, ⟨n, hframes⟩, hback⟩ := hoffer.2 he
  refine ⟨n, (m.session.offer r value).2.2, by rw [← hwhy, ← hframes], hback, fun rest hidle => ?_⟩
  refine ⟨?_, { hback with }⟩
  simp only [run, step?, Session.perform, Session.call, Callbacks.script?, hidle, Session.advance,
    Session.conclude, List.cons_append, List.nil_append]

/-- A session of which the broker takes no message. -/
def refusing : Session :=
  { contextSession with
    channels := { broker := .manual { refuses := { publish := true } } } }

/-- The conversation of the request is opened, and taken back when the broker refuses it. -/
theorem refused_request_rolled_back :
    let why := Failure.transport "clerk:questions" "publish refused"
    refusing.Refuses joining (.ok (.bool true)) why ∧
      ∃ n t, refusing.offer joining (.ok (.bool true)) =
          (.error why, [.report n joining.callbacks (.failed why)], t) ∧
        refusing.RolledBack t := by
  intro why
  have hrefl :
      Reaches { agenda := [], session := refusing } { agenda := [], session := refusing } :=
    .refl
  have hrolled := hrefl.failed_request_rolled_back ⟨rfl, rfl, rfl, rfl, rfl⟩ joining
    (.ok (.bool true)) (fun _ => by decide +kernel) why
  have hresult : (match (refusing.offer joining (.ok (.bool true))).1 with
      | .error other => some other
      | .ok _ => none) = some why := by decide +kernel
  split at hresult
  · rename_i other hother
    cases hresult
    obtain ⟨n, t, heq, hback, -⟩ := hrolled.2 hother
    exact ⟨hrolled.1.mp hother, n, t, heq, hback⟩
  · cases hresult

end Machine
end Colloquy
