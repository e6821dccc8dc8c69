/-
Any run of the conversations of one inbox, and what becomes of each of them.

A `Circle` is a session in which some conversations share an inbox, with what is to be done next for
each of them.  They are registered and listened to, messages come to them through the inbox, their
timers fire, they are torn down, and their callbacks run, all in any order.  The run without what is
done with the others is the same for a conversation: it makes the same callbacks at the same times,
and it counts, waits and ends in the same way.  For this the broker refuses nothing, and no callback
touches another conversation.
-/
import Mathlib.Logic.Function.Basic
import Colloquy.Proofs.Neighbours
import Colloquy.Proofs.Settling

namespace Colloquy

/-! ## Callbacks -/

/-- Whether an action of a callback touches no other conversation than its own: it names no other
one, opens none, shuts nothing down and leaves the topic of the answers subscribed. -/
def Action.keepsTo (names : Table String Nat) (topic : String) (self : Nat) : Action → Bool
  | .unsubscribe t => t != topic
  | .handle name _ | .abort name _ | .listen name =>
    match names.get? name with
    | some n => n == self
    | none => true
  | .request _ _ | .chain _ _ | .shutdown => false
  | _ => true

/-- The callbacks of a conversation touch no other one. -/
def Callbacks.KeepTo (names : Table String Nat) (topic : String) (self : Nat) (c : Callbacks) :
    Prop :=
  ∀ r todo, c.script? r = some todo → ∀ a ∈ todo, a.keepsTo names topic self = true

/-- A frame that is about one conversation and touches no other. -/
def Frame.KeepsTo (names : Table String Nat) (topic : String) (self : Nat) (own : Callbacks) :
    Frame → Prop
  | .script scope todo guard => scope.delivery = none ∧ scope.responder = none ∧
      (∀ a ∈ todo, a.keepsTo names topic self = true) ∧ ∃ callback, guard = .callback callback
  | .verdict _ guard => ∃ callback, guard = .callback callback
  | .report _ callbacks _ => callbacks = own
  | .close n _ => n = self
  | .resolve n _ => n = self
  | _ => False

namespace Session

variable {name : DeskName} {topic : String} {n k : Nat} {s s' t t' : Session} {x y : Exchange}
  {names : Table String Nat} {frames : List Frame}

/-- What happens to a conversation is followed by frames that are about it. -/
theorem Meets.keepsTo (h : Meets s n frames s') (hx : s.exchanges.get? n = some x) :
    ∀ f ∈ frames, f.KeepsTo names topic n x.callbacks := by
  intro f hf
  cases h with
  | absent _ _ => cases hf
  | @present _ z w v end? o hz _ _ _ =>
    cases hz.symm.trans hx
    rcases List.mem_append.mp hf with hf | hf
    · obtain ⟨r, -, rfl⟩ := List.mem_map.mp hf
      rfl
    · cases end? with
      | none => cases hf
      | some e => cases List.mem_singleton.mp hf; rfl

theorem channels_quiet {c : Channels Handler}
    (hv : c.validateTopics = s.channels.validateTopics)
    (hc : s.channels.Ready topic → c.Ready topic ∧ c.handler? topic = s.channels.handler? topic) :
    s.Quiet topic { s with channels := c } :=
  ⟨rfl, rfl, rfl, hv, hc⟩

theorem forward_quiet (s : Session) (d : Delivery) (x : Settlement) :
    s.Quiet topic (s.forward d x) := by
  unfold forward
  split
  · simp only
    split
    · exact (record_quiet s _).trans (record_quiet _ _)
    · exact record_quiet s _
  · split
    · rename_i body _ _ b u hb
      refine Quiet.trans ?_ (record_quiet _ _)
      refine channels_quiet rfl fun h => ?_
      have hkeeps := (Broker.Aside.told s.channels.broker d.receipt.topic body x).keeps
        h.faithful.broker
      have htold : s.channels.broker.told d.receipt.topic body x = b := by
        simp only [Broker.told, hb]
      rw [htold] at hkeeps
      exact ⟨h.aside hkeeps (h.willing.settle hb) rfl rfl (Nat.le_refl _) rfl rfl h.producers, rfl⟩
    · exact (record_quiet s _).trans (record_quiet _ _)

theorem settle_quiet (s : Session) (n : Nat) (c : Receipt.Call) :
    s.Quiet topic (s.settle n c) := by
  unfold settle
  split
  · exact .refl s
  · simp only
    have hwritten (ds : Table Nat Delivery) (t : Trace) :
        s.Quiet topic (({ s with deliveries := ds } : Session).record t) := by
      have hput : s.Quiet topic { s with deliveries := ds } :=
        ⟨rfl, rfl, rfl, rfl, fun h => ⟨h, rfl⟩⟩
      exact hput.trans (record_quiet _ _)
    split
    · exact (hwritten _ _).trans (forward_quiet _ _ _)
    · exact hwritten _ _

theorem forward_desk (s : Session) (d : Delivery) (x : Settlement) (name : DeskName) :
    (s.forward d x).desk name = s.desk name := by
  unfold forward
  split
  · simp only
    split <;> cases name <;> rfl
  · split <;> cases name <;> rfl

theorem settle_desk (s : Session) (n : Nat) (c : Receipt.Call) (name : DeskName) :
    (s.settle n c).desk name = s.desk name := by
  unfold settle
  split
  · rfl
  · simp only
    split
    · exact (forward_desk _ _ _ name).trans (by cases name <;> rfl)
    · cases name <;> rfl

/-- A message with a correlation that is not entered changes no conversation. -/
theorem arrive_unknown {m : Message}
    (hm : (s.inbox name topic).members.get? m.correlation = none) (delivery : Nat) :
    (s.arrive name topic delivery m).1 = [] ∧ s.Keeps (s.arrive name topic delivery m).2 ∧
      (∀ other, (s.arrive name topic delivery m).2.desk other = s.desk other) ∧
      ∀ topic', s.Quiet topic' (s.arrive name topic delivery m).2 := by
  unfold arrive
  simp only [hm]
  refine ⟨trivial, ?_, fun other => ?_, fun topic' => ?_⟩
  · exact (record_keeps s _).trans (settle_still _ _ _).keeps
  · exact (settle_desk _ _ _ other).trans (by cases other <;> rfl)
  · exact (record_quiet s _).trans (settle_quiet _ _ _)

theorem now_eq (hs : s.start = t.start) (hc : s.clock = t.clock) : s.now = t.now := by
  rw [now, now, hs, hc]

theorem Hosts.pass (h : s.Hosts name topic) (ms : Nat) :
    ({ s with clock := s.clock + ms } : Session).Hosts name topic := by
  cases name <;> exact ⟨h.ready, h.label, h.balanced, h.linked, h.entered⟩

/-! ## Frames -/

/-- An action comes out the same in two sessions, and what follows is about the conversation. -/
structure Matching (name : DeskName) (topic : String) (n : Nat) (s t : Session) (x y : Exchange)
    (e e' : Effect) : Prop where
  outcome : e.outcome = e'.outcome
  tandem : Tandem name topic n s t x y (e.frames, e.session) (e'.frames, e'.session)
  keeps : ∀ f ∈ e.frames, f.KeepsTo s.conversations topic n x.callbacks

namespace Twin

variable {scope : Scope} {who : String}

/-- The channels change in both sessions, and nothing about conversations does. -/
theorem channels (h : Twin name topic n s t x y) {c d : Channels Handler}
    (hs : s.Quiet topic { s with channels := c }) (ht : t.Quiet topic { t with channels := d })
    (frames : List Frame) : Tandem name topic n s t x y
      (frames, { s with channels := c }) (frames, { t with channels := d }) :=
  h.quiet hs (s.channels_keeps c) (by cases name <;> rfl) ht (t.channels_keeps d)
    (by cases name <;> rfl) frames

theorem record (h : Twin name topic n s t x y) (a b : Trace) (frames : List Frame) :
    Tandem name topic n s t x y (frames, s.record a) (frames, t.record b) :=
  h.channels (s.record_quiet a) (t.record_quiet b) frames

/-! ### Actions -/

/-- Nothing is done. -/
theorem idle_matching (h : Twin name topic n s t x y) (o : Outcome) :
    Matching name topic n s t x y { outcome := o, session := s } { outcome := o, session := t } :=
  ⟨rfl, h.still [], fun _ hf => nomatch hf⟩

theorem channels_matching (h : Twin name topic n s t x y) {c d : Channels Handler}
    {r r' : Except Failure Unit} (hr : r = r') (hs : s.Quiet topic { s with channels := c })
    (ht : t.Quiet topic { t with channels := d }) : Matching name topic n s t x y
      (.ofResult r [] { s with channels := c }) (.ofResult r' [] { t with channels := d }) :=
  ⟨hr ▸ rfl, h.channels hs ht [], fun _ hf => nomatch hf⟩

theorem act_unsubscribe (h : Twin name topic n s t x y) {u : String} (hu : u ≠ topic) :
    Matching name topic n s t x y (s.act scope (.unsubscribe u))
      (t.act scope (.unsubscribe u)) := by
  obtain ⟨hok, hready, hvalidate, hhandler⟩ := h.hosts.ready.unsubscribe u
  obtain ⟨hok', hready', hvalidate', hhandler'⟩ := h.hosts'.ready.unsubscribe u
  rw [if_neg hu] at hhandler hhandler'
  exact h.channels_matching (hok.trans hok'.symm)
    (channels_quiet hvalidate fun _ => ⟨hready, hhandler⟩)
    (channels_quiet hvalidate' fun _ => ⟨hready', hhandler'⟩)

theorem act_publish (h : Twin name topic n s t x y) (u : String) (draft : Draft) :
    Matching name topic n s t x y (s.act scope (.publish u draft))
      (t.act scope (.publish u draft)) := by
  obtain ⟨hresult, hready, hvalidate, hhandler⟩ :=
    h.hosts.ready.publish s.now u (draft.at s.now)
  obtain ⟨hresult', hready', hvalidate', hhandler'⟩ :=
    h.hosts'.ready.publish t.now u (draft.at t.now)
  have hsame : (s.channels.publish s.now u (draft.at s.now)).1 =
      (t.channels.publish t.now u (draft.at t.now)).1 := by
    rw [hresult, hresult', Channels.checkNew_congr h.validateTopics u, now_eq h.start h.clock]
  exact h.channels_matching hsame (channels_quiet hvalidate fun _ => ⟨hready, hhandler⟩)
    (channels_quiet hvalidate' fun _ => ⟨hready', hhandler'⟩)

/-- What is done with the conversation that has a name, if it can only be this one. -/
theorem named_matching (h : Twin name topic n s t x y)
    (hwho : ∀ m, s.conversations.get? who = some m → m = n) {f g : Nat → Effect}
    (hfg : Matching name topic n s t x y (f n) (g n)) :
    Matching name topic n s t x y (s.named who f) (t.named who g) := by
  have hname : s.conversations.get? who = t.conversations.get? who := by rw [h.conversations]
  unfold named
  rw [← hname]
  cases hw : s.conversations.get? who with
  | none => exact h.idle_matching _
  | some m =>
    cases hwho m hw
    exact hfg

theorem act_handle (h : Twin name topic n s t x y)
    (hwho : ∀ m, s.conversations.get? who = some m → m = n) (draft : Draft) :
    Matching name topic n s t x y (s.act scope (.handle who draft))
      (t.act scope (.handle who draft)) := by
  refine h.named_matching hwho ?_
  rw [now_eq h.start h.clock]
  exact ⟨rfl, h.handle _, (s.handle_meets n _).keepsTo h.left⟩

theorem act_abort (h : Twin name topic n s t x y)
    (hwho : ∀ m, s.conversations.get? who = some m → m = n) (reason : String) :
    Matching name topic n s t x y (s.act scope (.abort who reason))
      (t.act scope (.abort who reason)) :=
  h.named_matching hwho ⟨rfl, h.abort _, (s.abort_meets n _).keepsTo h.left⟩

theorem act_listen (h : Twin name topic n s t x y)
    (hwho : ∀ m, s.conversations.get? who = some m → m = n) :
    Matching name topic n s t x y (s.act scope (.listen who)) (t.act scope (.listen who)) := by
  obtain ⟨hok, hok', htandem⟩ := h.listen
  refine h.named_matching hwho ⟨?_, htandem, fun _ hf => nomatch hf⟩
  simp only [Effect.ofResult, hok, hok']

/-- No callback of a conversation has a request to answer. -/
theorem answering_matching (h : Twin name topic n s t x y) (hresponder : scope.responder = none)
    (f g : Responder → Effect) :
    Matching name topic n s t x y (s.answering scope f) (t.answering scope g) := by
  simp only [answering, hresponder]
  exact h.idle_matching _

/-- An action of a callback comes out the same. -/
theorem act (h : Twin name topic n s t x y) (hdelivery : scope.delivery = none)
    (hresponder : scope.responder = none) {a : Action}
    (ha : a.keepsTo s.conversations topic n = true) :
    Matching name topic n s t x y (s.act scope a) (t.act scope a) := by
  cases a with
  | settle call =>
    simp only [Session.act, hdelivery]
    exact h.idle_matching _
  | hold =>
    simp only [Session.act, hdelivery]
    exact h.idle_matching _
  | failUnlessRedelivered reason =>
    simp only [Session.act, isRedelivered, hdelivery, Option.bind_none, Bool.false_eq_true,
      if_false]
    exact h.idle_matching _
  | fail reason => exact h.idle_matching _
  | panic reason => exact h.idle_matching _
  | unsubscribe u => exact h.act_unsubscribe (by simpa [Action.keepsTo] using ha)
  | publish u draft => exact h.act_publish u draft
  | handle who draft =>
    exact h.act_handle (fun m hw => by simpa [Action.keepsTo, hw] using ha) draft
  | abort who reason =>
    exact h.act_abort (fun m hw => by simpa [Action.keepsTo, hw] using ha) reason
  | listen who => exact h.act_listen fun m hw => by simpa [Action.keepsTo, hw] using ha
  | acknowledge _ _ => exact h.answering_matching hresponder _ _
  | answer _ => exact h.answering_matching hresponder _ _
  | echo => exact h.answering_matching hresponder _ _
  | echoNumbered _ => exact h.answering_matching hresponder _ _
  | double => exact h.answering_matching hresponder _ _
  | holdResponder _ => exact h.answering_matching hresponder _ _
  | request _ _ => cases ha
  | chain _ _ => cases ha
  | shutdown => cases ha

/-- How a callback came out makes no difference, but for what is logged. -/
theorem conclude (h : Twin name topic n s t x y) (o : Outcome) (callback : String) :
    Tandem name topic n s t x y (s.conclude o (.callback callback))
      (t.conclude o (.callback callback)) := by
  cases o with
  | panicked reason => exact h.record _ _ []
  | _ => exact h.still []

/-- What is done for a frame of a conversation. -/
theorem perform (h : Twin name topic n s t x y)
    (hcallbacks : x.callbacks.KeepTo s.conversations topic n) {f : Frame}
    (hf : f.KeepsTo s.conversations topic n x.callbacks) :
    Tandem name topic n s t x y (s.perform f) (t.perform f) ∧
      ∀ g ∈ (s.perform f).1, g.KeepsTo s.conversations topic n x.callbacks := by
  have hconclude (o : Outcome) (callback : String) :
      ∀ g ∈ (s.conclude o (.callback callback)).1,
        g.KeepsTo s.conversations topic n x.callbacks := by
    intro g hg
    cases o <;> cases hg
  cases f with
  | script scope todo guard =>
    obtain ⟨hdelivery, hresponder, htodo, callback, rfl⟩ := hf
    cases todo with
    | nil => exact ⟨h.conclude .done callback, hconclude .done callback⟩
    | cons a rest =>
      have ha := htodo a List.mem_cons_self
      obtain ⟨hsame, ⟨hframes, htwin, hacts⟩, hkeeps⟩ := h.act hdelivery hresponder ha
      have hrest : Frame.KeepsTo s.conversations topic n x.callbacks
          (.script scope rest (.callback callback)) :=
        ⟨hdelivery, hresponder, fun b hb => htodo b (List.mem_cons_of_mem a hb), callback, rfl⟩
      have hmore : ∀ (g : Frame), g.KeepsTo s.conversations topic n x.callbacks →
          ∀ f ∈ (s.act scope a).frames ++ [g], f.KeepsTo s.conversations topic n x.callbacks := by
        intro g hg f hf
        rcases List.mem_append.mp hf with hf | hf
        · exact hkeeps f hf
        · cases List.mem_singleton.mp hf
          exact hg
      simp only [Session.perform, advance, ← hsame]
      simp only at hframes htwin hacts
      cases (s.act scope a).outcome with
      | done =>
        exact ⟨⟨by simp only [hframes], htwin, hacts⟩, hmore _ hrest⟩
      | failed reason =>
        exact ⟨⟨by simp only [hframes], htwin, hacts⟩, hmore _ ⟨callback, rfl⟩⟩
      | panicked reason =>
        exact ⟨⟨by simp only [hframes], htwin, hacts⟩, hmore _ ⟨callback, rfl⟩⟩
  | verdict o guard =>
    obtain ⟨callback, rfl⟩ := hf
    exact ⟨h.conclude o callback, hconclude o callback⟩
  | report exchange callbacks r =>
    cases hf
    simp only [Session.perform, call]
    cases hscript : x.callbacks.script? r with
    | none => exact ⟨h.still [], by simp⟩
    | some actions =>
      refine ⟨h.record _ _ _, fun g hg => ?_⟩
      cases List.mem_singleton.mp hg
      exact ⟨rfl, rfl, hcallbacks r actions hscript, _, rfl⟩
  | close m e =>
    cases hf
    obtain ⟨htwin, hacts⟩ := h.unregister
    simp only [Session.perform, h.left, h.right, ← h.callbacks]
    refine ⟨⟨rfl, ⟨_, _, htwin⟩, hacts⟩, fun g hg => ?_⟩
    rcases List.mem_cons.mp hg with rfl | hg
    · rfl
    · cases List.mem_singleton.mp hg
      rfl
  | resolve m e =>
    cases hf
    exact ⟨h.resolve e, by simp [Session.perform]⟩
  | _ => cases hf

/-- Time passes. -/
theorem pass (h : Twin name topic n s t x y) (ms : Nat) : Twin name topic n
    { s with clock := s.clock + ms } { t with clock := t.clock + ms } x y where
  left := h.left
  right := h.right
  desk := h.desk
  desk' := h.desk'
  address := h.address
  callbacks := h.callbacks
  hosts := h.hosts.pass ms
  hosts' := h.hosts'.pass ms
  start := h.start
  clock := congrArg (· + ms) h.clock
  conversations := h.conversations
  validateTopics := h.validateTopics
  alike := by cases name <;> exact h.alike
  member := by cases name <;> exact h.member

end Twin
end Session

/-! ## Circles -/

/-- The conversations of one inbox, with what is to be done for each of them and what was done for
it at what time. -/
structure Circle where
  desk : DeskName
  topic : String
  session : Session
  agenda : Nat → List Frame := fun _ => []
  done : Nat → List (Nat × Frame) := fun _ => []

namespace Circle

/-- What can happen in a circle. -/
inductive Turn where
  | listen (n : Nat)
  | register (n : Nat)
  | unregister (n : Nat)
  | wait (n : Nat)
  | abort (n : Nat) (why : Failure)
  /-- The timer of a kind fires, if it is due. -/
  | fire (n : Nat) (kind : TimerKind)
  /-- The inbox gets the message of a delivery. -/
  | message (delivery : Nat) (m : Message)
  /-- What comes next for a conversation is done. -/
  | next (n : Nat)
  | pass (ms : Nat)

/-- Whether a turn concerns the conversation `n`, which has this correlation.  Time passes for
all. -/
def Turn.concerns (correlation : String) (n : Nat) : Turn → Bool
  | .listen m | .register m | .unregister m | .wait m | .abort m _ | .fire m _ | .next m => m == n
  | .message _ m => m.correlation == correlation
  | .pass _ => true

/-- The session, and what is to be done and was done for one conversation. -/
def put (c : Circle) (n : Nat) (s : Session) (agenda : List Frame) (done : List (Nat × Frame)) :
    Circle :=
  { c with
    session := s
    agenda := Function.update c.agenda n agenda
    done := Function.update c.done n done }

/-- The session goes on, and more is to be done for a conversation. -/
def goOn (c : Circle) (n : Nat) (r : List Frame × Session) : Circle :=
  c.put n r.2 (c.agenda n ++ r.1) (c.done n)

/-- A message comes to the inbox while the inbox is the handler of the topic. -/
def turn (c : Circle) : Turn → Circle
  | .listen n => c.goOn n ([], (c.session.listen n).2)
  | .register n => c.goOn n ([], (c.session.register n).2)
  | .unregister n => c.goOn n ([], c.session.unregister n)
  | .wait n => c.goOn n ([], c.session.wait n)
  | .abort n why => c.goOn n (c.session.abort n why)
  | .fire n kind =>
    match (c.session.desk c.desk).timers.of n kind with
    | p :: _ => if p.due ≤ c.session.clock then c.goOn n (c.session.fire c.desk p) else c
    | [] => c
  | .message delivery m =>
    match c.session.channels.handler? c.topic with
    | some (.inbox desk topic) =>
      let r := c.session.arrive desk topic delivery m
      match (c.session.inbox desk topic).members.get? m.correlation with
      | some n => c.goOn n r
      | none => { c with session := r.2 }
    | _ => c
  | .next n =>
    match c.agenda n with
    | f :: rest =>
      let r := c.session.perform f
      c.put n r.2 (r.1 ++ rest) (c.done n ++ [(c.session.clock, f)])
    | [] => c
  | .pass ms => { c with session := { c.session with clock := c.session.clock + ms } }

def run (c : Circle) (turns : List Turn) : Circle := turns.foldl turn c

/-! ## Turns -/

open Session (Twin Acts Tandem Quiet)

variable {c d : Circle} {n k : Nat} {s₀ : Session} {x₀ y₀ : Exchange} {s : Session} {o : Turn}

/-- A conversation is the same in two circles. -/
structure Same (k : Nat) (c d : Circle) : Prop where
  desk : d.desk = c.desk
  topic : d.topic = c.topic
  twin : ∃ x y, Twin c.desk c.topic k c.session d.session x y
  agenda : c.agenda k = d.agenda k
  done : c.done k = d.done k

/-- The conversations of a circle are those that were in `s₀`, and are about to do only what
concerns them. -/
structure Company (s₀ : Session) (c : Circle) : Prop where
  names : c.session.conversations = s₀.conversations
  hosts : c.session.Hosts c.desk c.topic
  present : ∀ n x₀, s₀.exchanges.get? n = some x₀ →
    ∃ x, Twin c.desk c.topic n c.session c.session x x ∧ x.callbacks = x₀.callbacks ∧
      x.conversation.correlation = x₀.conversation.correlation
  absent : ∀ n, s₀.exchanges.get? n = none → c.session.exchanges.get? n = none ∧
    (∀ kind, (c.session.desk c.desk).timers.of n kind = []) ∧ c.agenda n = []
  agenda : ∀ n x₀, s₀.exchanges.get? n = some x₀ →
    ∀ f ∈ c.agenda n, f.KeepsTo s₀.conversations c.topic n x₀.callbacks

/-- The conversations of `s₀` have different correlations, and callbacks that keep to themselves. -/
structure Modest (topic : String) (s₀ : Session) : Prop where
  apart : ∀ m n x y, s₀.exchanges.get? m = some x → s₀.exchanges.get? n = some y →
    x.conversation.correlation = y.conversation.correlation → m = n
  callbacks : ∀ n x, s₀.exchanges.get? n = some x →
    x.callbacks.KeepTo s₀.conversations topic n

theorem Same.refl (h : Company s₀ c) (hk : s₀.exchanges.get? k = some x₀) : Same k c c := by
  obtain ⟨x, htwin, -, -⟩ := h.present k x₀ hk
  exact ⟨rfl, rfl, ⟨x, x, htwin⟩, rfl, rfl⟩

@[simp] theorem put_agenda_self (c : Circle) (n : Nat) (s : Session) (agenda : List Frame)
    (done : List (Nat × Frame)) : (c.put n s agenda done).agenda n = agenda :=
  Function.update_self ..

@[simp] theorem put_done_self (c : Circle) (n : Nat) (s : Session) (agenda : List Frame)
    (done : List (Nat × Frame)) : (c.put n s agenda done).done n = done :=
  Function.update_self ..

theorem put_agenda_ne (c : Circle) (hk : k ≠ n) (s : Session) (agenda : List Frame)
    (done : List (Nat × Frame)) : (c.put n s agenda done).agenda k = c.agenda k :=
  Function.update_of_ne hk ..

theorem put_done_ne (c : Circle) (hk : k ≠ n) (s : Session) (agenda : List Frame)
    (done : List (Nat × Frame)) : (c.put n s agenda done).done k = c.done k :=
  Function.update_of_ne hk ..

theorem put_same (c : Circle) (n : Nat) (s : Session) :
    c.put n s (c.agenda n) (c.done n) = { c with session := s } := by
  simp only [put, Function.update_eq_self]

theorem goOn_idle (c : Circle) (n : Nat) : c.goOn n ([], c.session) = c := by
  rw [goOn, List.append_nil, put_same]

/-- A turn about a conversation does something with it, in tandem with another circle in which it is
the same, and what follows concerns it alone. -/
structure Together (s₀ : Session) (n : Nat) (x₀ : Exchange) (c d c' d' : Circle) : Prop where
  made : ∃ x y r r' agenda done, Tandem c.desk c.topic n c.session d.session x y r r' ∧
    Twin c.desk c.topic n c.session d.session x y ∧
    c' = c.put n r.2 agenda done ∧ d' = d.put n r'.2 agenda done ∧
    ∀ f ∈ agenda, f.KeepsTo s₀.conversations c.topic n x₀.callbacks

namespace Together

variable {c' d' : Circle}

theorem same (h : Together s₀ n x₀ c d c' d') (hs : Same n c d) : Same n c' d' := by
  obtain ⟨x, y, r, r', agenda, done, ⟨-, ⟨a, b, htwin⟩, -⟩, -, rfl, rfl, -⟩ := h.made
  exact ⟨hs.desk, hs.topic, ⟨_, _, htwin⟩, by simp, by simp⟩

theorem apart (hcompany : Company s₀ c) (hmodest : Modest c.topic s₀)
    (hx : s₀.exchanges.get? n = some x₀) (hy : s₀.exchanges.get? k = some y₀) (hk : k ≠ n)
    {x y : Exchange} (hxn : c.session.exchanges.get? n = some x)
    (hyk : c.session.exchanges.get? k = some y) :
    y.conversation.correlation ≠ x.conversation.correlation := by
  obtain ⟨x', hx', -, hcx⟩ := hcompany.present n x₀ hx
  obtain ⟨y', hy', -, hcy⟩ := hcompany.present k y₀ hy
  cases hxn.symm.trans hx'.left
  cases hyk.symm.trans hy'.left
  exact fun heq => hk (hmodest.apart k n y₀ x₀ hy hx ((hcy.symm.trans heq).trans hcx))

/-- The others stay the same. -/
theorem beside (h : Together s₀ n x₀ c d c' d') {e : Circle} (hcompany : Company s₀ c)
    (hmodest : Modest c.topic s₀) (hx : s₀.exchanges.get? n = some x₀)
    (hy : s₀.exchanges.get? k = some y₀) (hk : k ≠ n) (hs : Same k c e) : Same k c' e := by
  obtain ⟨x, y, r, r', agenda, done, ⟨-, -, hacts⟩, htwin, rfl, -, -⟩ := h.made
  obtain ⟨z, w, hz⟩ := hs.twin
  have hapart := apart hcompany hmodest hx hy hk htwin.left hz.left
  exact ⟨hs.desk, hs.topic, ⟨z, w, hz.beside hacts hk hapart⟩,
    (put_agenda_ne c hk _ _ _).trans hs.agenda, (put_done_ne c hk _ _ _).trans hs.done⟩

theorem company (h : Together s₀ n x₀ c d c' d') (hcompany : Company s₀ c)
    (hmodest : Modest c.topic s₀) (hx : s₀.exchanges.get? n = some x₀) : Company s₀ c' := by
  obtain ⟨x, y, r, r', agenda, done, htandem, hsame, hc', hd', hkeeps⟩ := h.made
  subst hc'
  refine ⟨htandem.acts.conversations.trans hcompany.names, htandem.acts.hosts,
    fun k y₀ hy => ?_, fun k hy => ?_, fun k y₀ hy => ?_⟩
  · obtain ⟨z, hz, hcallbacks, hcorrelation⟩ := hcompany.present k y₀ hy
    by_cases hk : k = n
    · subst hk
      cases hz.left.symm.trans hsame.left
      obtain ⟨a, b, htwin⟩ := htandem.twin
      obtain ⟨e, hlater, hself⟩ := htandem.acts.self
      cases htwin.left.symm.trans hself
      exact ⟨_, htwin.diag, hcallbacks, hlater.correlation.trans hcorrelation⟩
    · have hapart := apart hcompany hmodest hx hy hk hsame.left hz.left
      have hleft := hz.beside htandem.acts hk hapart
      exact ⟨z, hleft.symm.beside htandem.acts hk hapart, hcallbacks, hcorrelation⟩
  · obtain ⟨hnone, htimers, hidle⟩ := hcompany.absent k hy
    have hk : k ≠ n := by
      rintro rfl
      cases hy.symm.trans hx
    refine ⟨(htandem.acts.others k hk).trans hnone, fun kind => ?_,
      (put_agenda_ne c hk _ _ _).trans hidle⟩
    exact (htandem.acts.spent.of_other hk kind).trans (htimers kind)
  · by_cases hk : k = n
    · subst hk
      cases hx.symm.trans hy
      rw [put_agenda_self]
      exact hkeeps
    · rw [put_agenda_ne c hk]
      exact hcompany.agenda k y₀ hy

end Together

/-! ### What comes of a turn -/

theorem Same.quiet (hs : Same k c d) (hq : c.session.Quiet c.topic s) (hkeeps : c.session.Keeps s)
    (hdesk : s.desk c.desk = c.session.desk c.desk) : Same k { c with session := s } d := by
  obtain ⟨x, y, htwin⟩ := hs.twin
  obtain ⟨-, ⟨a, b, htwin'⟩, -⟩ :=
    htwin.quiet hq hkeeps hdesk (.refl d.session) (.refl d.session) rfl []
  exact ⟨hs.desk, hs.topic, ⟨_, _, htwin'⟩, hs.agenda, hs.done⟩

theorem Company.quiet (h : Company s₀ c) (hq : c.session.Quiet c.topic s)
    (hkeeps : c.session.Keeps s) (hdesk : s.desk c.desk = c.session.desk c.desk) :
    Company s₀ { c with session := s } := by
  have hinbox : s.inbox c.desk c.topic = c.session.inbox c.desk c.topic := by
    unfold Session.inbox
    rw [hdesk]
  obtain ⟨hready, hhandler⟩ := hq.ready h.hosts.ready
  refine ⟨hq.conversations.trans h.names, ⟨hready, ?_, ?_, ?_, ?_⟩, fun n x₀ hx => ?_,
    fun n hn => ?_, h.agenda⟩
  · show (s.inbox c.desk c.topic).topic = c.topic
    rw [hinbox]
    exact h.hosts.label
  · show (s.inbox c.desk c.topic).Balanced
    rw [hinbox]
    exact h.hosts.balanced
  · have hlinked := h.hosts.linked
    unfold Inbox.Linked at hlinked ⊢
    show s.channels.handler? (s.inbox c.desk c.topic).topic = _
    rw [hinbox]
    rw [h.hosts.label] at hlinked ⊢
    exact hhandler.trans hlinked
  · show ∀ e m, (s.inbox c.desk c.topic).members.get? e = some m → _
    rw [hinbox, hkeeps.exchanges]
    exact h.hosts.entered
  · obtain ⟨x, htwin, hcallbacks, hcorrelation⟩ := h.present n x₀ hx
    obtain ⟨-, ⟨a, b, htwin'⟩, hacts⟩ := htwin.quiet hq hkeeps hdesk hq hkeeps hdesk []
    obtain ⟨e, hlater, hself⟩ := hacts.self
    cases htwin'.left.symm.trans hself
    exact ⟨_, htwin'.diag, hcallbacks, hlater.correlation.trans hcorrelation⟩
  · obtain ⟨hnone, htimers, hidle⟩ := h.absent n hn
    refine ⟨hkeeps.exchanges ▸ hnone, fun kind => ?_, hidle⟩
    show (s.desk c.desk).timers.of n kind = []
    rw [hdesk]
    exact htimers kind

namespace Company

/-- The inbox is the handler of its topic while a conversation is entered. -/
theorem handler (h : Company s₀ c) {e : String}
    (hm : (c.session.inbox c.desk c.topic).members.get? e = some n) :
    c.session.channels.handler? c.topic = some (.inbox c.desk c.topic) := by
  have hlinked := h.hosts.linked
  have hpos := Table.size_pos_of_mem (Table.mem_keys_of_get? hm)
  rw [← h.hosts.balanced.live] at hpos
  rw [Inbox.Linked, h.hosts.label, h.hosts.balanced.subscribed.mpr hpos, if_pos rfl] at hlinked
  exact hlinked

/-- A message with a correlation that is not entered comes to nobody. -/
theorem message_unknown (h : Company s₀ c) {m : Message} (delivery : Nat)
    (hm : (c.session.inbox c.desk c.topic).members.get? m.correlation = none) :
    ∃ s, c.turn (.message delivery m) = { c with session := s } ∧ c.session.Quiet c.topic s ∧
      c.session.Keeps s ∧ ∀ name, s.desk name = c.session.desk name := by
  obtain ⟨-, hkeeps, hdesk, hquiet⟩ := Session.arrive_unknown hm delivery
  have hlinked := h.hosts.linked
  rw [Inbox.Linked, h.hosts.label] at hlinked
  simp only [turn, hlinked]
  cases (c.session.inbox c.desk c.topic).subscribed with
  | true =>
    simp only [if_true, hm]
    exact ⟨_, rfl, hquiet c.topic, hkeeps, hdesk⟩
  | false =>
    simp only [if_false, Bool.false_eq_true]
    exact ⟨c.session, rfl, .refl _, .refl _, fun _ => rfl⟩

/-- A message goes to the conversation that is entered under its correlation. -/
theorem message_known (h : Company s₀ c) {m : Message} (delivery : Nat)
    (hm : (c.session.inbox c.desk c.topic).members.get? m.correlation = some n) :
    c.turn (.message delivery m) = c.goOn n (c.session.handle n m) := by
  simp only [turn, h.handler hm, Session.arrive, hm]

/-- Whoever is entered under the correlation of a conversation is that conversation. -/
theorem eq_of_entered (h : Company s₀ c) {e : String}
    (hm : (c.session.inbox c.desk c.topic).members.get? e = some k) : ∃ y₀,
      s₀.exchanges.get? k = some y₀ ∧ y₀.conversation.correlation = e := by
  obtain ⟨x, hx, hcx⟩ := h.hosts.entered e k hm
  cases hk : s₀.exchanges.get? k with
  | none => cases (h.absent k hk).1.symm.trans hx
  | some y₀ =>
    obtain ⟨x', htwin, -, hcorrelation⟩ := h.present k y₀ hk
    cases htwin.left.symm.trans hx
    exact ⟨y₀, rfl, hcorrelation.symm.trans hcx⟩

end Company

namespace Together

/-- Nothing comes of a turn. -/
theorem idle (hc : Company s₀ c) (hx : s₀.exchanges.get? n = some x₀) (hs : Same n c d) :
    Together s₀ n x₀ c d c d := by
  obtain ⟨x, y, htwin⟩ := hs.twin
  refine ⟨x, y, _, _, c.agenda n, c.done n, htwin.still [], htwin, ?_, ?_, hc.agenda n x₀ hx⟩
  · exact (put_same c n c.session).symm
  · rw [hs.agenda, hs.done]
    exact (put_same d n d.session).symm

theorem goOn (hc : Company s₀ c) (hx : s₀.exchanges.get? n = some x₀) (hs : Same n c d)
    {x y : Exchange} (htwin : Twin c.desk c.topic n c.session d.session x y)
    {r r' : List Frame × Session} (h : Tandem c.desk c.topic n c.session d.session x y r r')
    (hr : ∀ f ∈ r.1, f.KeepsTo s₀.conversations c.topic n x.callbacks) :
    Together s₀ n x₀ c d (c.goOn n r) (d.goOn n r') := by
  obtain ⟨z, hz, hcallbacks, -⟩ := hc.present n x₀ hx
  cases hz.left.symm.trans htwin.left
  refine ⟨x, y, r, r', c.agenda n ++ r.1, c.done n, h, htwin, rfl, ?_, fun f hf => ?_⟩
  · rw [Circle.goOn, hs.agenda, hs.done, h.frames]
  · rcases List.mem_append.mp hf with hf | hf
    · exact hc.agenda n x₀ hx f hf
    · exact hcallbacks ▸ hr f hf

theorem fire (hc : Company s₀ c) (hx : s₀.exchanges.get? n = some x₀) (hs : Same n c d)
    (kind : TimerKind) : Together s₀ n x₀ c d (c.turn (.fire n kind)) (d.turn (.fire n kind)) := by
  obtain ⟨x, y, htwin⟩ := hs.twin
  have hmatch := htwin.alike.timers kind
  simp only [Session.seat] at hmatch
  simp only [turn, hs.desk]
  generalize hl : (c.session.desk c.desk).timers.of n kind = l at hmatch
  generalize hr : (d.session.desk c.desk).timers.of n kind = r at hmatch
  generalize x.conversation.timer kind = i? at hmatch
  generalize y.conversation.timer kind = j? at hmatch
  cases hmatch with
  | unset => exact .idle hc hx hs
  | gone i j => exact .idle hc hx hs
  | set i j due =>
    simp only [← htwin.clock]
    split
    · have hmeets := c.session.fire_meets c.desk { id := i, kind, owner := n, due }
      exact .goOn hc hx hs htwin (htwin.fire hl hr) (hmeets.keepsTo htwin.left)
    · exact .idle hc hx hs

/-- A message with the correlation of the conversation finds it in both circles or in none. -/
theorem message (hc : Company s₀ c) (hd : Company s₀ d) (hmodest : Modest c.topic s₀)
    (hx : s₀.exchanges.get? n = some x₀) (hs : Same n c d) (delivery : Nat) {m : Message}
    (hm : m.correlation = x₀.conversation.correlation) :
    Together s₀ n x₀ c d (c.turn (.message delivery m)) (d.turn (.message delivery m)) := by
  obtain ⟨x, y, htwin⟩ := hs.twin
  obtain ⟨z, hz, -, hcorrelation⟩ := hc.present n x₀ hx
  cases hz.left.symm.trans htwin.left
  have hmember := htwin.member
  rw [hcorrelation, ← hm] at hmember
  cases hentered : (c.session.inbox c.desk c.topic).members.get? m.correlation with
  | none =>
    obtain ⟨s, hs', hquiet, hkeeps, hdesk⟩ := hc.message_unknown delivery hentered
    obtain ⟨t, ht', hquiet', hkeeps', hdesk'⟩ := hd.message_unknown delivery (by
      rw [hs.desk, hs.topic, ← hmember, hentered])
    rw [hs', ht']
    rw [hs.topic] at hquiet'
    refine ⟨x, y, ([], s), ([], t), c.agenda n, c.done n,
      htwin.quiet hquiet hkeeps (hdesk _) hquiet' hkeeps' (hdesk' _) [], htwin, ?_, ?_,
      hc.agenda n x₀ hx⟩
    · exact (put_same c n s).symm
    · rw [hs.agenda, hs.done]
      exact (put_same d n t).symm
  | some k =>
    obtain ⟨y₀, hk, hck⟩ := hc.eq_of_entered hentered
    obtain rfl : k = n := hmodest.apart k n y₀ x₀ hk hx (hck.trans hm)
    have hentered' := hmember.symm.trans hentered
    rw [← hs.desk, ← hs.topic] at hentered'
    rw [hc.message_known delivery hentered, hd.message_known delivery hentered']
    exact .goOn hc hx hs htwin (htwin.handle m)
      ((c.session.handle_meets k m).keepsTo htwin.left)

/-- The same frame is done in both circles. -/
theorem next (hc : Company s₀ c) (hmodest : Modest c.topic s₀)
    (hx : s₀.exchanges.get? n = some x₀) (hs : Same n c d) :
    Together s₀ n x₀ c d (c.turn (.next n)) (d.turn (.next n)) := by
  obtain ⟨x, y, htwin⟩ := hs.twin
  obtain ⟨z, hz, hcallbacks, -⟩ := hc.present n x₀ hx
  cases hz.left.symm.trans htwin.left
  simp only [turn, ← hs.agenda]
  cases hagenda : c.agenda n with
  | nil => exact .idle hc hx hs
  | cons f rest =>
    have hkeeps := hc.agenda n x₀ hx
    rw [hagenda] at hkeeps
    have hcalls : x.callbacks.KeepTo c.session.conversations c.topic n := by
      rw [hc.names, hcallbacks]
      exact hmodest.callbacks n x₀ hx
    have hf := hkeeps f List.mem_cons_self
    rw [← hcallbacks, ← hc.names] at hf
    obtain ⟨htandem, hfollow⟩ := htwin.perform hcalls hf
    refine ⟨x, y, _, _, (c.session.perform f).1 ++ rest,
      c.done n ++ [(c.session.clock, f)], htandem, htwin, rfl, ?_, fun g hg => ?_⟩
    · simp only [htandem.frames, hs.done, htwin.clock]
    · rcases List.mem_append.mp hg with hg | hg
      · rw [← hcallbacks, ← hc.names]
        exact hfollow g hg
      · exact hkeeps g (List.mem_cons_of_mem f hg)

end Together

/-- A turn about a conversation that is the same in two circles. -/
theorem turn_together (hc : Company s₀ c) (hd : Company s₀ d) (hmodest : Modest c.topic s₀)
    (hx : s₀.exchanges.get? n = some x₀) (hs : Same n c d)
    (ho : o.concerns x₀.conversation.correlation n = true) (hpass : ∀ ms, o ≠ .pass ms) :
    Together s₀ n x₀ c d (c.turn o) (d.turn o) := by
  obtain ⟨x, y, htwin⟩ := hs.twin
  have hnone : ∀ f ∈ ([] : List Frame), f.KeepsTo s₀.conversations c.topic n x.callbacks := by simp
  cases o with
  | listen m =>
    obtain rfl : m = n := by simpa [Turn.concerns] using ho
    exact .goOn hc hx hs htwin htwin.listen.2.2 hnone
  | register m =>
    obtain rfl : m = n := by simpa [Turn.concerns] using ho
    obtain ⟨-, -, htwin', hacts⟩ := htwin.register
    exact .goOn hc hx hs htwin ⟨rfl, ⟨_, _, htwin'⟩, hacts⟩ hnone
  | unregister m =>
    obtain rfl : m = n := by simpa [Turn.concerns] using ho
    obtain ⟨htwin', hacts⟩ := htwin.unregister
    exact .goOn hc hx hs htwin ⟨rfl, ⟨_, _, htwin'⟩, hacts⟩ hnone
  | wait m =>
    obtain rfl : m = n := by simpa [Turn.concerns] using ho
    exact .goOn hc hx hs htwin htwin.wait hnone
  | abort m why =>
    obtain rfl : m = n := by simpa [Turn.concerns] using ho
    exact .goOn hc hx hs htwin (htwin.abort why)
      ((c.session.abort_meets m why).keepsTo htwin.left)
  | fire m kind =>
    obtain rfl : m = n := by simpa [Turn.concerns] using ho
    exact .fire hc hx hs kind
  | message delivery m =>
    exact .message hc hd hmodest hx hs delivery (by simpa [Turn.concerns] using ho)
  | next m =>
    obtain rfl : m = n := by simpa [Turn.concerns] using ho
    exact .next hc hmodest hx hs
  | pass ms => exact absurd rfl (hpass ms)

/-- A turn that is about none of the conversations. -/
theorem turn_idle (hc : Company s₀ c)
    (ho : ∀ n x₀, s₀.exchanges.get? n = some x₀ →
      o.concerns x₀.conversation.correlation n = false) (hpass : ∀ ms, o ≠ .pass ms) :
    ∃ s, c.turn o = { c with session := s } ∧ c.session.Quiet c.topic s ∧ c.session.Keeps s ∧
      ∀ name, s.desk name = c.session.desk name := by
  have hgone : ∀ n, (∀ e, o.concerns e n = true) → c.session.exchanges.get? n = none ∧
      (∀ kind, (c.session.desk c.desk).timers.of n kind = []) ∧ c.agenda n = [] := by
    intro n hn
    cases hx : s₀.exchanges.get? n with
    | none => exact hc.absent n hx
    | some x₀ => cases (ho n x₀ hx).symm.trans (hn _)
  have hidle : ∀ {c' : Circle}, c' = c → ∃ s, c' = { c with session := s } ∧
      c.session.Quiet c.topic s ∧ c.session.Keeps s ∧ ∀ name, s.desk name = c.session.desk name :=
    fun h => ⟨c.session, h, .refl _, .refl _, fun _ => rfl⟩
  cases o with
  | listen m =>
    obtain ⟨hnone, -⟩ := hgone m fun _ => by simp [Turn.concerns]
    exact hidle (by simp only [turn, Session.listen, hnone, goOn_idle])
  | register m =>
    obtain ⟨hnone, -⟩ := hgone m fun _ => by simp [Turn.concerns]
    exact hidle (by simp only [turn, Session.register, hnone, goOn_idle])
  | unregister m =>
    obtain ⟨hnone, -⟩ := hgone m fun _ => by simp [Turn.concerns]
    exact hidle (by simp only [turn, Session.unregister, hnone, goOn_idle])
  | wait m =>
    obtain ⟨hnone, -⟩ := hgone m fun _ => by simp [Turn.concerns]
    exact hidle (by simp only [turn, Session.wait, hnone, goOn_idle])
  | abort m why =>
    obtain ⟨hnone, -⟩ := hgone m fun _ => by simp [Turn.concerns]
    exact hidle (by simp only [turn, Session.abort, hnone, goOn_idle])
  | fire m kind =>
    obtain ⟨-, htimers, -⟩ := hgone m fun _ => by simp [Turn.concerns]
    exact hidle (by simp only [turn, htimers])
  | message delivery m =>
    refine hc.message_unknown delivery ?_
    by_contra hsome
    obtain ⟨k, hk⟩ := Option.ne_none_iff_exists'.mp hsome
    obtain ⟨y₀, hy, hcy⟩ := hc.eq_of_entered hk
    have hfalse := ho k y₀ hy
    simp [Turn.concerns, hcy] at hfalse
  | next m =>
    obtain ⟨-, -, hagenda⟩ := hgone m fun _ => by simp [Turn.concerns]
    exact hidle (by simp only [turn, hagenda])
  | pass ms => exact absurd rfl (hpass ms)

theorem Company.pass (h : Company s₀ c) (ms : Nat) : Company s₀ (c.turn (.pass ms)) where
  names := h.names
  hosts := h.hosts.pass ms
  present := fun n x₀ hx => by
    obtain ⟨x, htwin, hsame⟩ := h.present n x₀ hx
    exact ⟨x, htwin.pass ms, hsame⟩
  absent := fun n hn => by
    obtain ⟨hnone, htimers, hidle⟩ := h.absent n hn
    refine ⟨hnone, fun kind => ?_, hidle⟩
    rw [← htimers kind]
    simp only [turn]
    cases c.desk <;> rfl
  agenda := h.agenda

theorem Same.pass (h : Same k c d) (ms : Nat) : Same k (c.turn (.pass ms)) (d.turn (.pass ms)) := by
  obtain ⟨x, y, htwin⟩ := h.twin
  exact ⟨h.desk, h.topic, ⟨x, y, htwin.pass ms⟩, h.agenda, h.done⟩

/-! ## Runs -/

theorem turn_fields (c : Circle) (o : Turn) :
    (c.turn o).desk = c.desk ∧ (c.turn o).topic = c.topic := by
  cases o with
  | fire n kind =>
    simp only [turn]
    split
    · split <;> exact ⟨rfl, rfl⟩
    · exact ⟨rfl, rfl⟩
  | message delivery m =>
    simp only [turn]
    split
    · split <;> exact ⟨rfl, rfl⟩
    · exact ⟨rfl, rfl⟩
  | next n =>
    simp only [turn]
    split <;> exact ⟨rfl, rfl⟩
  | _ => exact ⟨rfl, rfl⟩

theorem run_fields (c : Circle) (turns : List Turn) :
    (c.run turns).desk = c.desk ∧ (c.run turns).topic = c.topic := by
  induction turns generalizing c with
  | nil => exact ⟨rfl, rfl⟩
  | cons o turns ih =>
    obtain ⟨hdesk, htopic⟩ := ih (c.turn o)
    exact ⟨hdesk.trans (c.turn_fields o).1, htopic.trans (c.turn_fields o).2⟩

/-- Either a turn is about one of the conversations, or about none. -/
theorem concerns_cases (s₀ : Session) (o : Turn) :
    (∃ n x₀, s₀.exchanges.get? n = some x₀ ∧ o.concerns x₀.conversation.correlation n = true) ∨
      ∀ n x₀, s₀.exchanges.get? n = some x₀ →
        o.concerns x₀.conversation.correlation n = false := by
  by_cases h : ∃ n x₀, s₀.exchanges.get? n = some x₀ ∧
      o.concerns x₀.conversation.correlation n = true
  · exact .inl h
  · refine .inr fun n x₀ hx => Bool.eq_false_iff.mpr fun ho => h ⟨n, x₀, hx, ho⟩

theorem Company.turn (h : Company s₀ c) (hmodest : Modest c.topic s₀) (o : Turn) :
    Company s₀ (c.turn o) := by
  by_cases hpass : ∃ ms, o = .pass ms
  · obtain ⟨ms, rfl⟩ := hpass
    exact h.pass ms
  · have hnot : ∀ ms, o ≠ .pass ms := fun ms hms => hpass ⟨ms, hms⟩
    obtain ⟨n, x₀, hx, ho⟩ | ho := concerns_cases s₀ o
    · exact (turn_together h h hmodest hx (.refl h hx) ho hnot).company h hmodest hx
    · obtain ⟨s, hs, hquiet, hkeeps, hdesk⟩ := turn_idle h ho hnot
      rw [hs]
      exact h.quiet hquiet hkeeps (hdesk _)

/-- A turn that is about others leaves a conversation the same. -/
theorem Same.turn_other (hs : Same k c d) (h : Company s₀ c) (hmodest : Modest c.topic s₀)
    (hk : s₀.exchanges.get? k = some y₀)
    (ho : o.concerns y₀.conversation.correlation k = false) : Same k (c.turn o) d := by
  have hnot : ∀ ms, o ≠ .pass ms := by
    rintro ms rfl
    cases ho
  obtain ⟨n, x₀, hx, hn⟩ | hnone := concerns_cases s₀ o
  · have hkn : k ≠ n := by
      rintro rfl
      cases hx.symm.trans hk
      cases hn.symm.trans ho
    exact (turn_together h h hmodest hx (.refl h hx) hn hnot).beside h hmodest hx hk hkn hs
  · obtain ⟨s, hs', hquiet, hkeeps, hdesk⟩ := turn_idle h hnone hnot
    rw [hs']
    exact hs.quiet hquiet hkeeps (hdesk _)

theorem Same.turn (hs : Same k c d) (hc : Company s₀ c) (hd : Company s₀ d)
    (hmodest : Modest c.topic s₀) (hk : s₀.exchanges.get? k = some y₀)
    (ho : o.concerns y₀.conversation.correlation k = true) : Same k (c.turn o) (d.turn o) := by
  by_cases hpass : ∃ ms, o = .pass ms
  · obtain ⟨ms, rfl⟩ := hpass
    exact hs.pass ms
  · have hnot : ∀ ms, o ≠ .pass ms := fun ms hms => hpass ⟨ms, hms⟩
    exact (turn_together hc hd hmodest hk hs ho hnot).same hs

/-- A conversation is the same in a run and in the run of the turns that concern it. -/
theorem Same.run (hk : s₀.exchanges.get? k = some y₀) (turns : List Turn) (hs : Same k c d)
    (hc : Company s₀ c) (hd : Company s₀ d) (hmodest : Modest c.topic s₀) :
    Same k (c.run turns) (d.run (turns.filter (Turn.concerns y₀.conversation.correlation k))) := by
  induction turns generalizing c d with
  | nil => exact hs
  | cons o turns ih =>
    have hmodest' : Modest (c.turn o).topic s₀ := (c.turn_fields o).2.symm ▸ hmodest
    have hc' := hc.turn hmodest o
    cases ho : o.concerns y₀.conversation.correlation k with
    | true =>
      rw [List.filter_cons_of_pos ho]
      exact ih (hs.turn hc hd hmodest hk ho) hc' (hd.turn (hs.topic.symm ▸ hmodest) o) hmodest'
    | false =>
      rw [List.filter_cons_of_neg (by simp [ho])]
      exact ih (hs.turn_other hc hmodest hk ho) hc' hd hmodest'

theorem Company.run (h : Company s₀ c) (hmodest : Modest c.topic s₀) (turns : List Turn) :
    Company s₀ (c.run turns) := by
  induction turns generalizing c with
  | nil => exact h
  | cons o turns ih => exact ih (h.turn hmodest o) ((c.turn_fields o).2.symm ▸ hmodest)

/-- The conversations of a session have been opened for the answers on one topic, and nothing else
has happened: nobody is registered, no timer is pending, and the topic has no handler. -/
structure Gathers (name : DeskName) (topic : String) (s₀ : Session) : Prop where
  opened : ∀ n x, s₀.exchanges.get? n = some x → x.desk = name ∧
    ∃ correlation now terms, x.conversation = .start correlation topic now terms
  modest : Modest topic s₀
  inbox : s₀.inbox name topic = { topic }
  timers : (s₀.desk name).timers.pending = []
  channels : s₀.channels.Ready topic
  free : s₀.channels.handler? topic = none

theorem Gathers.company {name : DeskName} {topic : String} (h : Gathers name topic s₀) :
    Company s₀ { desk := name, topic, session := s₀ } := by
  have hof : ∀ n kind, (s₀.desk name).timers.of n kind = [] := fun n kind => by
    rw [Timers.of, h.timers, List.filter_nil]
  have hhosts : s₀.Hosts name topic := by
    refine ⟨h.channels, ?_, ?_, ?_, fun e m hm => ?_⟩
    · rw [h.inbox]
    · rw [h.inbox]
      exact .start topic
    · rw [h.inbox]
      exact h.free
    · rw [h.inbox] at hm
      cases hm
  refine ⟨rfl, hhosts, fun n x hx => ?_, fun n hn => ⟨hn, hof n, rfl⟩,
    fun n x _ f hf => by cases hf⟩
  obtain ⟨hdesk, correlation, now, terms, hstart⟩ := h.opened n x hx
  have hkept : ∀ kind, x.conversation.timer kind = none := fun kind => by
    rw [hstart]
    cases kind <;> rfl
  have howns : (s₀.seat name x.conversation).Owns n := by
    refine ⟨fun p hp => ?_, fun kind id hid => ?_, fun kind id hid => ?_⟩
    · rw [Session.seat, h.timers] at hp
      cases hp
    · cases (hkept kind).symm.trans hid
    · cases (hkept kind).symm.trans hid
  refine ⟨x, ?_, rfl, rfl⟩
  exact {
    left := hx
    right := hx
    desk := hdesk
    desk' := hdesk
    address := by rw [hstart]; rfl
    callbacks := rfl
    hosts := hhosts
    hosts' := hhosts
    start := rfl
    clock := rfl
    conversations := rfl
    validateTopics := rfl
    alike := ⟨howns, howns, rfl, rfl, fun kind => by
      simp only [Session.seat, hkept, hof]
      exact .unset, .refl n _⟩
    member := rfl }

/-- Whether a conversation is registered. -/
def isRegistered (c : Circle) (n : Nat) : Bool :=
  match c.session.exchanges.get? n with
  | some x => c.session.isRegistered n x
  | none => false

/-- A conversation is in the same state in two circles, and the same was done for it at the same
times. -/
structure Unaffected (k : Nat) (c d : Circle) : Prop where
  /-- The callbacks that were made are among it, and the end that was told. -/
  done : c.done k = d.done k
  agenda : c.agenda k = d.agenda k
  clock : c.session.clock = d.session.clock
  /-- Counts and deadlines, what was recorded and how it ended. -/
  conversation : (c.session.exchanges.get? k).map (fun x => x.conversation.unnumbered) =
    (d.session.exchanges.get? k).map fun x => x.conversation.unnumbered
  /-- When the timers that are pending are due. -/
  due : ∀ kind, ((c.session.desk c.desk).timers.of k kind).map Timer.due =
    ((d.session.desk d.desk).timers.of k kind).map Timer.due
  registered : c.isRegistered k = d.isRegistered k

theorem Same.agrees (h : Same k c d) : Unaffected k c d := by
  obtain ⟨x, y, htwin⟩ := h.twin
  refine ⟨h.done, h.agenda, htwin.clock, ?_, fun kind => ?_, ?_⟩
  · rw [htwin.left, htwin.right]
    exact congrArg some htwin.alike.same
  · rw [h.desk]
    exact (htwin.alike.timers kind).due
  · simp only [isRegistered, htwin.left, htwin.right, Session.isRegistered]
    rw [htwin.desk, htwin.desk', htwin.address, htwin.address', ← htwin.correlation, htwin.member]

/-- Conversations that share a topic for their answers do not interfere, whatever happens to them in
what order: each is as in the run from which all that concerns only the others has been left out.  A
message with a correlation that is not entered changes none of them, and is rejected. -/
theorem Gathers.unaffected {name : DeskName} {topic : String} (h : Gathers name topic s₀)
    (turns : List Turn) :
    (∀ k x, s₀.exchanges.get? k = some x → Unaffected k
      (({ desk := name, topic, session := s₀ } : Circle).run turns)
      (({ desk := name, topic, session := s₀ } : Circle).run
        (turns.filter (Turn.concerns x.conversation.correlation k)))) ∧
    ∀ c, c = ({ desk := name, topic, session := s₀ } : Circle).run turns → ∀ delivery m,
      (c.session.inbox name topic).members.get? m.correlation = none →
        (∀ k x, s₀.exchanges.get? k = some x → Unaffected k (c.turn (.message delivery m)) c) ∧
        ∀ e body, c.session.deliveries.get? delivery = some e → e.body = some body →
          e.receipt.state = .pending → e.receipt.auto = true →
          c.session.Passes e.receipt.topic body [] [.reject]
            (c.session.arrive name topic delivery m).2 := by
  have hcompany := h.company
  refine ⟨fun k x hk => ?_, ?_⟩
  · exact (Same.run hk turns (.refl hcompany hk) hcompany hcompany h.modest).agrees
  · rintro c rfl delivery m hm
    have hrun := hcompany.run h.modest turns
    obtain ⟨hdesk, htopic⟩ :=
      run_fields ({ desk := name, topic, session := s₀ } : Circle) turns
    refine ⟨fun k x hk => ?_, fun e body hd hbody hpending hauto => ?_⟩
    · obtain ⟨s, hs, hquiet, hkeeps, hsame⟩ :=
        hrun.message_unknown delivery (by rw [hdesk, htopic]; exact hm)
      rw [hs]
      exact ((Same.refl hrun hk).quiet hquiet hkeeps (hsame _)).agrees
    · exact Session.arrive_rejects hm hd hbody hpending hauto

/-- A conversation that waits for one answer, and that aborts itself when it is told its end. -/
def partner (name correlation : String) : Exchange where
  conversation := .start correlation "it:answers" 0 { responseTimeoutMs := 100, wait := .exactly 1 }
  callbacks := { owner := .conversation name, ended := some [.abort name "over"] }
  desk := .own

/-- Two of them that take their answers on one topic. -/
def pair : Session where
  channels := { broker := .memory {} }
  start := .epoch
  exchanges := { entries := [(0, partner "first" "ones"), (1, partner "second" "twos")] }
  nextExchange := 2
  conversations := { entries := [("first", 0), ("second", 1)] }

def reply (correlation : String) : Message where
  id := "reply"
  correlation := correlation
  route := { destination := "it:answers" }
  stamp := { createdAt := .epoch, origin := default }
  payload := some (.bool true)

/-- The second one is answered and ends, and the first one waits until its deadline. -/
def mingled : List Turn :=
  [.listen 0, .listen 1, .wait 1, .wait 0, .message 0 (reply "twos"), .pass 60, .next 1, .next 1,
    .next 1, .next 1, .message 1 (reply "threes"), .pass 40, .fire 0 .response, .next 0, .next 0,
    .next 0]

theorem pair_exchanges {n : Nat} {x : Exchange} (hx : pair.exchanges.get? n = some x) :
    (n = 0 ∧ x = partner "first" "ones") ∨ (n = 1 ∧ x = partner "second" "twos") := by
  match n with
  | 0 => exact .inl ⟨rfl, (Option.some.inj hx).symm⟩
  | 1 => exact .inr ⟨rfl, (Option.some.inj hx).symm⟩
  | n + 2 => cases hx

theorem partner_keepTo {names : Table String Nat} {name correlation : String} {n : Nat}
    (hn : names.get? name = some n) :
    (partner name correlation).callbacks.KeepTo names "it:answers" n := by
  intro r todo hr a ha
  cases r with
  | ended e =>
    cases hr
    cases List.mem_singleton.mp ha
    simp only [Action.keepsTo, hn, BEq.rfl]
  | _ => cases hr

/-- The first of the two ends at its deadline, with the second one and without it. -/
theorem Gathers.unaffected_beside_another :
    Gathers .own "it:answers" pair ∧
      mingled.filter (Turn.concerns "ones" 0) = [.listen 0, .wait 0, .pass 60, .pass 40,
        .fire 0 .response, .next 0, .next 0, .next 0] ∧
      Unaffected 0 (({ desk := .own, topic := "it:answers", session := pair } : Circle).run mingled)
        (({ desk := .own, topic := "it:answers", session := pair } : Circle).run
          (mingled.filter (Turn.concerns "ones" 0))) ∧
      ((({ desk := .own, topic := "it:answers", session := pair } : Circle).run mingled).done
        0).map Prod.fst = [100, 100, 100] ∧
      ((({ desk := .own, topic := "it:answers", session := pair } : Circle).run mingled).done
        1).map Prod.fst = [60, 60, 60, 60] := by
  have hsound : Broker.Sound (.memory {} : Broker Subscriber) := MemoryBroker.Sound.start
  have hgathers : Gathers .own "it:answers" pair := by
    refine ⟨fun n x hx => ?_, ⟨fun m n x y hx hy heq => ?_, fun n x hx => ?_⟩, rfl, rfl, ?_, rfl⟩
    · obtain ⟨-, rfl⟩ | ⟨-, rfl⟩ := pair_exchanges hx <;> exact ⟨rfl, _, _, _, rfl⟩
    · obtain ⟨rfl, rfl⟩ | ⟨rfl, rfl⟩ := pair_exchanges hx <;>
        obtain ⟨rfl, rfl⟩ | ⟨rfl, rfl⟩ := pair_exchanges hy
      · rfl
      · exact absurd heq (by decide)
      · exact absurd heq (by decide)
      · rfl
    · obtain ⟨rfl, rfl⟩ | ⟨rfl, rfl⟩ := pair_exchanges hx <;> exact partner_keepTo rfl
    · exact {
        faithful := .start hsound (fun _ _ hx => by cases hx) true .silent
        running := rfl
        willing := rfl
        valid := by decide +kernel
        producers := fun t n hn => by cases hn
        free := fun _ => rfl }
  exact ⟨hgathers, rfl, (hgathers.unaffected mingled).1 0 _ rfl, by decide +kernel,
    by decide +kernel⟩

end Circle
end Colloquy
