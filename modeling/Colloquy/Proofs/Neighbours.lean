/-
Conversations that share an inbox do not interfere.

`Hosts` says that the inbox of a topic is in order, on channels that refuse nothing.  `Twin`
compares a conversation in two sessions of this kind: it is the same in both but for the numbers of
its timers, and it is registered in both or in neither.  Whatever is done with the conversation
keeps it a twin, and has the same frames follow.  `Acts` is what that leaves alone: other
conversations stay as they are and keep their timers, and they stay registered.
-/
import Colloquy.Proofs.Ends
import Colloquy.Proofs.Filing
import Colloquy.Proofs.Likeness
import Colloquy.Proofs.Willing

namespace Colloquy

open Conversation (Later)

namespace Session

variable {name : DeskName} {topic : String} {n k : Nat} {s s' s'' t t' : Session}
  {x y z : Exchange} {v v' : Watch}

/-! ## Desks -/

/-- A conversation with the timers of a desk. -/
def seat (s : Session) (name : DeskName) (c : Conversation) : Watch where
  conversation := c
  timers := (s.desk name).timers

theorem watch_eq_seat (h : x.desk = name) : s.watch x = s.seat name x.conversation := by
  subst h
  rfl

theorem putWatch_inboxes (s : Session) (n : Nat) (name : DeskName) (w : Watch) :
    ((s.putWatch n name w).desk name).inboxes = (s.desk name).inboxes := by
  cases name <;> rfl

theorem setConversation_desk (s : Session) (n : Nat) (c : Conversation) (name : DeskName) :
    (s.setConversation n c).desk name = s.desk name := by
  cases name <;> rfl

theorem setTimers_timers (s : Session) (name : DeskName) (t : Timers) :
    ((s.setTimers name t).desk name).timers = t := by
  cases name <;> rfl

theorem setTimers_inboxes (s : Session) (name : DeskName) (t : Timers) :
    ((s.setTimers name t).desk name).inboxes = (s.desk name).inboxes := by
  cases name <;> rfl

theorem setInbox_inbox (s : Session) (name : DeskName) {i : Inbox} (h : i.topic = topic) :
    (s.setInbox name i).inbox name topic = i := by
  subst h
  have hget := Table.get?_put_self (s.desk name).inboxes i.topic i
  cases name <;>
    exact (congrArg (Option.getD · _) hget)

/-! ## What is not about conversations -/

/-- The channels or what the application keeps may have changed, but not what the inbox of a topic
depends on. -/
structure Quiet (topic : String) (s s' : Session) : Prop where
  start : s'.start = s.start
  clock : s'.clock = s.clock
  conversations : s'.conversations = s.conversations
  validateTopics : s'.channels.validateTopics = s.channels.validateTopics
  ready : s.channels.Ready topic →
    s'.channels.Ready topic ∧ s'.channels.handler? topic = s.channels.handler? topic

namespace Quiet

theorem refl (s : Session) : s.Quiet topic s := ⟨rfl, rfl, rfl, rfl, fun h => ⟨h, rfl⟩⟩

theorem trans (h : s.Quiet topic s') (h' : s'.Quiet topic s'') : s.Quiet topic s'' where
  start := h'.start.trans h.start
  clock := h'.clock.trans h.clock
  conversations := h'.conversations.trans h.conversations
  validateTopics := h'.validateTopics.trans h.validateTopics
  ready := fun hs => by
    obtain ⟨hready, hhandler⟩ := h.ready hs
    obtain ⟨hready', hhandler'⟩ := h'.ready hready
    exact ⟨hready', hhandler'.trans hhandler⟩

end Quiet

theorem record_quiet (s : Session) (t : Trace) : s.Quiet topic (s.record t) :=
  ⟨rfl, rfl, rfl, rfl, fun h => ⟨h.record t, rfl⟩⟩

theorem putWatch_quiet (s : Session) (n : Nat) (name : DeskName) (w : Watch) :
    s.Quiet topic (s.putWatch n name w) := by
  refine Quiet.trans ?_ (record_quiet _ _)
  cases name <;> exact ⟨rfl, rfl, rfl, rfl, fun h => ⟨h, rfl⟩⟩

theorem setTimers_quiet (s : Session) (name : DeskName) (t : Timers) :
    s.Quiet topic (s.setTimers name t) := by
  cases name <;> exact ⟨rfl, rfl, rfl, rfl, fun h => ⟨h, rfl⟩⟩

theorem setConversation_quiet (s : Session) (n : Nat) (c : Conversation) :
    s.Quiet topic (s.setConversation n c) :=
  ⟨rfl, rfl, rfl, rfl, fun h => ⟨h, rfl⟩⟩

/-! ## Inboxes in order -/

/-- The inbox of a topic is in order, on channels that refuse nothing. -/
structure Hosts (name : DeskName) (topic : String) (s : Session) : Prop where
  ready : s.channels.Ready topic
  label : (s.inbox name topic).topic = topic
  balanced : (s.inbox name topic).Balanced
  linked : (s.inbox name topic).Linked (.inbox name topic) s.channels
  entered : ∀ c m, (s.inbox name topic).members.get? c = some m →
    ∃ x, s.exchanges.get? m = some x ∧ x.conversation.correlation = c

/-- A conversation of the inbox of a topic, in two sessions. -/
structure Twin (name : DeskName) (topic : String) (n : Nat) (s t : Session) (x y : Exchange) :
    Prop where
  left : s.exchanges.get? n = some x
  right : t.exchanges.get? n = some y
  desk : x.desk = name
  desk' : y.desk = name
  address : x.conversation.topic = topic
  callbacks : x.callbacks = y.callbacks
  hosts : s.Hosts name topic
  hosts' : t.Hosts name topic
  start : s.start = t.start
  clock : s.clock = t.clock
  conversations : s.conversations = t.conversations
  validateTopics : s.channels.validateTopics = t.channels.validateTopics
  alike : Watch.Alike n (s.desk name).timers (s.seat name x.conversation)
    (t.seat name y.conversation)
  member : (s.inbox name topic).members.get? x.conversation.correlation =
    (t.inbox name topic).members.get? x.conversation.correlation

/-- Something is done with a conversation of the inbox of a topic, and nothing else is touched. -/
structure Acts (name : DeskName) (topic : String) (n : Nat) (x : Exchange) (s s' : Session) :
    Prop where
  start : s'.start = s.start
  clock : s'.clock = s.clock
  conversations : s'.conversations = s.conversations
  validateTopics : s'.channels.validateTopics = s.channels.validateTopics
  self : ∃ c, Later x.conversation c ∧ s'.exchanges.get? n = some { x with conversation := c }
  others : ∀ m, m ≠ n → s'.exchanges.get? m = s.exchanges.get? m
  spent : (s.desk name).timers.Spent n (s'.desk name).timers
  below : ∀ p ∈ (s'.desk name).timers.pending, p.id < (s'.desk name).timers.next
  members : ∀ c, c ≠ x.conversation.correlation →
    (s'.inbox name topic).members.get? c = (s.inbox name topic).members.get? c
  hosts : s'.Hosts name topic

theorem Acts.trans {c : Conversation} (h : Acts name topic n x s s')
    (hc : s'.exchanges.get? n = some { x with conversation := c })
    (h' : Acts name topic n { x with conversation := c } s' s'') : Acts name topic n x s s'' := by
  obtain ⟨d, hd, hself⟩ := h.self
  cases hc.symm.trans hself
  obtain ⟨e, he, hself'⟩ := h'.self
  exact {
    start := h'.start.trans h.start
    clock := h'.clock.trans h.clock
    conversations := h'.conversations.trans h.conversations
    validateTopics := h'.validateTopics.trans h.validateTopics
    self := ⟨e, hd.trans he, hself'⟩
    others := fun m hm => (h'.others m hm).trans (h.others m hm)
    spent := h.spent.trans h'.spent
    below := h'.below
    members := fun e he => (h'.members e (fun hce => he (hce.trans hd.correlation))).trans
      (h.members e he)
    hosts := h'.hosts }

namespace Twin

theorem address' (h : Twin name topic n s t x y) : y.conversation.topic = topic :=
  (show y.conversation.unnumbered.topic = x.conversation.unnumbered.topic from
    congrArg Conversation.topic h.alike.same.symm).trans h.address

theorem correlation (h : Twin name topic n s t x y) :
    x.conversation.correlation = y.conversation.correlation :=
  show x.conversation.unnumbered.correlation = y.conversation.unnumbered.correlation from
    congrArg Conversation.correlation h.alike.same

theorem symm (h : Twin name topic n s t x y) : Twin name topic n t s y x where
  left := h.right
  right := h.left
  desk := h.desk'
  desk' := h.desk
  address := h.address'
  callbacks := h.callbacks.symm
  hosts := h.hosts'
  hosts' := h.hosts
  start := h.start.symm
  clock := h.clock.symm
  conversations := h.conversations.symm
  validateTopics := h.validateTopics.symm
  alike := h.alike.symm
  member := by
    rw [← h.correlation]
    exact h.member.symm

/-- A conversation that can be compared with another one can be compared with itself. -/
theorem diag (h : Twin name topic n s t x y) : Twin name topic n s s x x :=
  ⟨h.left, h.left, h.desk, h.desk, h.address, rfl, h.hosts, h.hosts, rfl, rfl, rfl, rfl,
    h.alike.diag, rfl⟩

/-- What is done with another conversation leaves a twin alone. -/
theorem beside (h : Twin name topic k s t x y) (ha : Acts name topic n z s s') (hk : k ≠ n)
    (hc : x.conversation.correlation ≠ z.conversation.correlation) :
    Twin name topic k s' t x y where
  left := (ha.others k hk).trans h.left
  right := h.right
  desk := h.desk
  desk' := h.desk'
  address := h.address
  callbacks := h.callbacks
  hosts := ha.hosts
  hosts' := h.hosts'
  start := ha.start.trans h.start
  clock := ha.clock.trans h.clock
  conversations := ha.conversations.trans h.conversations
  validateTopics := ha.validateTopics.trans h.validateTopics
  alike := h.alike.beside hk ha.spent ha.below
  member := (ha.members _ hc).trans h.member

end Twin

/-! ## Conversations that change -/

/-- A conversation has changed with its timers, and nothing else that matters. -/
structure Turned (name : DeskName) (topic : String) (n : Nat) (x : Exchange) (w : Watch)
    (s s' : Session) : Prop where
  quiet : s.Quiet topic s'
  changed : Changed s n x w.conversation s'
  timers : (s'.desk name).timers = w.timers
  inboxes : (s'.desk name).inboxes = (s.desk name).inboxes

theorem Turned.inbox (h : Turned name topic n x v s s') :
    s'.inbox name topic = s.inbox name topic := by
  unfold Session.inbox
  rw [h.inboxes]

theorem Turned.of_keeps (hx : s.exchanges.get? n = some x) (hquiet : s.Quiet topic s')
    (hkeeps : s.Keeps s') (hdesk : s'.desk name = s.desk name) :
    Turned name topic n x (s.seat name x.conversation) s s' where
  quiet := hquiet
  changed := (Changed.refl hx).keeps hkeeps
  timers := congrArg Desk.timers hdesk
  inboxes := congrArg Desk.inboxes hdesk

theorem putWatch_turned (hx : s.exchanges.get? n = some x) (w : Watch) :
    Turned name topic n x w s (s.putWatch n name w) where
  quiet := s.putWatch_quiet n name w
  changed := (Changed.refl hx).putWatch name w
  timers := s.putWatch_timers n name w
  inboxes := s.putWatch_inboxes n name w

theorem setConversation_turned (hx : s.exchanges.get? n = some x) (c : Conversation) :
    Turned name topic n x (s.seat name c) s (s.setConversation n c) where
  quiet := s.setConversation_quiet n c
  changed := (Changed.refl hx).setConversation c
  timers := congrArg Desk.timers (s.setConversation_desk n c name)
  inboxes := congrArg Desk.inboxes (s.setConversation_desk n c name)

theorem Hosts.turned (h : s.Hosts name topic) (hx : s.exchanges.get? n = some x)
    (hl : Later x.conversation v.conversation) (hs : Turned name topic n x v s s') :
    s'.Hosts name topic := by
  obtain ⟨hready, hhandler⟩ := hs.quiet.ready h.ready
  refine ⟨hready, ?_, ?_, ?_, fun c m hm => ?_⟩
  · rw [hs.inbox]
    exact h.label
  · rw [hs.inbox]
    exact h.balanced
  · have hlinked := h.linked
    rw [hs.inbox]
    unfold Inbox.Linked at hlinked ⊢
    rw [h.label] at hlinked ⊢
    exact hhandler.trans hlinked
  · rw [hs.inbox] at hm
    obtain ⟨z, hz, hc⟩ := h.entered c m hm
    by_cases hmn : m = n
    · subst hmn
      cases hz.symm.trans hx
      exact ⟨_, hs.changed.self, hl.correlation.trans hc⟩
    · exact ⟨z, (hs.changed.others m hmn).trans hz, hc⟩

theorem Twin.turned (h : Twin name topic n s t x y)
    (hv : Watch.Alike n (s.desk name).timers v v') (hl : Later x.conversation v.conversation)
    (hl' : Later y.conversation v'.conversation) (hs : Turned name topic n x v s s')
    (ht : Turned name topic n y v' t t') :
    Twin name topic n s' t' { x with conversation := v.conversation }
        { y with conversation := v'.conversation } ∧
      Acts name topic n x s s' := by
  have hhosts := h.hosts.turned h.left hl hs
  have hhosts' := h.hosts'.turned h.right hl' ht
  have hseat : s'.seat name v.conversation =
      { conversation := v.conversation, timers := v.timers } := by
    rw [seat, hs.timers]
  have hseat' : t'.seat name v'.conversation =
      { conversation := v'.conversation, timers := v'.timers } := by
    rw [seat, ht.timers]
  refine ⟨?_, ?_⟩
  · exact {
      left := hs.changed.self
      right := ht.changed.self
      desk := h.desk
      desk' := h.desk'
      address := hl.topic.trans h.address
      callbacks := h.callbacks
      hosts := hhosts
      hosts' := hhosts'
      start := (hs.quiet.start.trans h.start).trans ht.quiet.start.symm
      clock := (hs.quiet.clock.trans h.clock).trans ht.quiet.clock.symm
      conversations := (hs.quiet.conversations.trans h.conversations).trans
        ht.quiet.conversations.symm
      validateTopics := (hs.quiet.validateTopics.trans h.validateTopics).trans
        ht.quiet.validateTopics.symm
      alike := by
        show Watch.Alike n (s'.desk name).timers (s'.seat name v.conversation)
          (t'.seat name v'.conversation)
        rw [hseat, hseat', hs.timers]
        exact (hv.noting [] []).begin
      member := by
        show (s'.inbox name topic).members.get? v.conversation.correlation =
          (t'.inbox name topic).members.get? v.conversation.correlation
        rw [hs.inbox, ht.inbox, hl.correlation]
        exact h.member }
  · exact {
      start := hs.quiet.start
      clock := hs.quiet.clock
      conversations := hs.quiet.conversations
      validateTopics := hs.quiet.validateTopics
      self := ⟨_, hl, hs.changed.self⟩
      others := hs.changed.others
      spent := hs.timers ▸ hv.spent
      below := hs.timers ▸ hv.left.below
      members := fun c _ => by rw [hs.inbox]
      hosts := hhosts }

/-! ## Operations -/

/-- The same is done with a conversation in two sessions: it stays a twin, the same frames follow,
and nothing else is touched. -/
structure Tandem (name : DeskName) (topic : String) (n : Nat) (s t : Session) (x y : Exchange)
    (r r' : List Frame × Session) : Prop where
  frames : r.1 = r'.1
  twin : ∃ c d, Twin name topic n r.2 r'.2 { x with conversation := c } { y with conversation := d }
  acts : Acts name topic n x s r.2

namespace Twin

theorem seats (h : Twin name topic n s t x y) :
    s.watch x = s.seat name x.conversation ∧ t.watch y = t.seat name y.conversation :=
  ⟨watch_eq_seat h.desk, watch_eq_seat h.desk'⟩

/-- Neither session does anything about the conversation. -/
theorem quiet (h : Twin name topic n s t x y) (hs : s.Quiet topic s') (hks : s.Keeps s')
    (hds : s'.desk name = s.desk name) (ht : t.Quiet topic t') (hkt : t.Keeps t')
    (hdt : t'.desk name = t.desk name) (frames : List Frame) :
    Tandem name topic n s t x y (frames, s') (frames, t') := by
  obtain ⟨htwin, hacts⟩ := h.turned h.alike ⟨rfl, rfl, id⟩ ⟨rfl, rfl, id⟩
    (.of_keeps h.left hs hks hds) (.of_keeps h.right ht hkt hdt)
  exact ⟨rfl, ⟨_, _, htwin⟩, hacts⟩

theorem still (h : Twin name topic n s t x y) (frames : List Frame) :
    Tandem name topic n s t x y (frames, s) (frames, t) :=
  h.quiet (.refl s) (.refl s) rfl (.refl t) (.refl t) rfl frames

/-- The conversation and its timers are put back. -/
theorem put (h : Twin name topic n s t x y) (hv : Watch.Alike n (s.desk name).timers v v')
    (hl : Later x.conversation v.conversation) (hl' : Later y.conversation v'.conversation)
    (frames : List Frame) :
    Tandem name topic n s t x y (frames, s.putWatch n name v) (frames, t.putWatch n name v') := by
  obtain ⟨htwin, hacts⟩ :=
    h.turned hv hl hl' (putWatch_turned h.left v) (putWatch_turned h.right v')
  exact ⟨rfl, ⟨_, _, htwin⟩, hacts⟩

theorem wait (h : Twin name topic n s t x y) :
    Tandem name topic n s t x y ([], s.wait n) ([], t.wait n) := by
  obtain ⟨hw, hw'⟩ := h.seats
  simp only [Session.wait, h.left, h.right, hw, hw', h.desk, h.desk', ← h.clock]
  exact h.put (h.alike.wait s.clock)
    (Watch.meet_later (s.seat name x.conversation) n (.wait s.clock))
    (Watch.meet_later (t.seat name y.conversation) n (.wait s.clock)) []

theorem handle (h : Twin name topic n s t x y) (m : Message) :
    Tandem name topic n s t x y (s.handle n m) (t.handle n m) := by
  obtain ⟨hw, hw'⟩ := h.seats
  simp only [Session.handle, h.left, h.right, hw, hw', h.desk, h.desk', ← h.clock, ← h.callbacks]
  obtain ⟨hr, hr'⟩ | ⟨v, v', end?, hr, hr', hv⟩ := h.alike.receive s.clock m
  · simp only [hr, hr']
    exact h.still []
  · simp only [hr, hr']
    exact h.put hv (Watch.receive_later hr) (Watch.receive_later hr') _

theorem resolve (h : Twin name topic n s t x y) (e : Ending) :
    Tandem name topic n s t x y ([], s.resolve n e) ([], t.resolve n e) := by
  have hcompletion : x.conversation.completion = y.conversation.completion :=
    show x.conversation.unnumbered.completion = y.conversation.unnumbered.completion from
      congrArg Conversation.completion h.alike.same
  simp only [Session.resolve, h.left, h.right, ← hcompletion]
  cases x.conversation.completion with
  | closing =>
    have hsame : Conversation.unnumbered { x.conversation with completion := .resolved e } =
        Conversation.unnumbered { y.conversation with completion := .resolved e } :=
      congrArg (fun c : Conversation => { c with completion := .resolved e }) h.alike.same
    have hv := h.alike.put hsame (fun kind => by cases kind <;> rfl)
      fun kind => by cases kind <;> rfl
    obtain ⟨htwin, hacts⟩ := h.turned hv ⟨rfl, rfl, id⟩ ⟨rfl, rfl, id⟩
      (setConversation_turned h.left _) (setConversation_turned h.right _)
    exact ⟨rfl, ⟨_, _, htwin⟩, hacts⟩
  | _ => exact h.still []

end Twin

/-! ### Registering -/

/-- An inbox and channels to go with a session, where only one correlation is treated otherwise. -/
structure Houses (name : DeskName) (topic correlation : String) (n : Nat) (s : Session)
    (i : Inbox) (c : Channels Handler) : Prop where
  label : i.topic = topic
  balanced : i.Balanced
  linked : i.Linked (.inbox name topic) c
  ready : c.Ready topic
  validateTopics : c.validateTopics = s.channels.validateTopics
  members : ∀ k, k ≠ correlation →
    i.members.get? k = (s.inbox name topic).members.get? k
  self : ∀ m, i.members.get? correlation = some m →
    m = n ∨ (s.inbox name topic).members.get? correlation = some m

theorem Houses.hosts {i : Inbox} {c : Channels Handler} (h : s.Hosts name topic)
    (hx : s.exchanges.get? n = some x)
    (hi : Houses name topic x.conversation.correlation n s i c) :
    ({ s.setInbox name i with channels := c } : Session).Hosts name topic := by
  have hinbox : ({ s.setInbox name i with channels := c } : Session).inbox name topic = i :=
    (show _ = (s.setInbox name i).inbox name topic by cases name <;> rfl).trans
      (s.setInbox_inbox name hi.label)
  have hexchanges : (s.setInbox name i).exchanges = s.exchanges :=
    (s.setInbox_keeps name i).exchanges
  refine ⟨hi.ready, ?_, ?_, ?_, fun k m hm => ?_⟩
  · rw [hinbox]
    exact hi.label
  · rw [hinbox]
    exact hi.balanced
  · rw [hinbox]
    exact hi.linked
  · rw [hinbox] at hm
    show ∃ z, (s.setInbox name i).exchanges.get? m = some z ∧ _
    rw [hexchanges]
    by_cases hk : k = x.conversation.correlation
    · subst hk
      obtain rfl | hold := hi.self m hm
      · exact ⟨x, hx, rfl⟩
      · exact h.entered _ m hold
    · exact h.entered k m ((hi.members k hk).symm.trans hm)

theorem Twin.housed {i j : Inbox} {c d : Channels Handler} (h : Twin name topic n s t x y)
    (hi : Houses name topic x.conversation.correlation n s i c)
    (hj : Houses name topic y.conversation.correlation n t j d)
    (hmember : i.members.get? x.conversation.correlation =
      j.members.get? x.conversation.correlation) :
    Twin name topic n { s.setInbox name i with channels := c }
        { t.setInbox name j with channels := d } x y ∧
      Acts name topic n x s { s.setInbox name i with channels := c } := by
  have hhosts := hi.hosts h.hosts h.left
  have hinbox : ∀ (u : Session) (l : Inbox) (e : Channels Handler), l.topic = topic →
      ({ u.setInbox name l with channels := e } : Session).inbox name topic = l := fun u l e hl =>
    (show _ = (u.setInbox name l).inbox name topic by cases name <;> rfl).trans
      (u.setInbox_inbox name hl)
  have htimers : ∀ (u : Session) (l : Inbox) (e : Channels Handler),
      (({ u.setInbox name l with channels := e } : Session).desk name).timers =
        (u.desk name).timers := fun u l e => by cases name <;> rfl
  have hseat : ∀ (u : Session) (l : Inbox) (e : Channels Handler) (a : Conversation),
      ({ u.setInbox name l with channels := e } : Session).seat name a = u.seat name a :=
    fun u l e a => by rw [seat, htimers]; rfl
  refine ⟨?_, ?_⟩
  · exact {
      left := by cases name <;> exact h.left
      right := by cases name <;> exact h.right
      desk := h.desk
      desk' := h.desk'
      address := h.address
      callbacks := h.callbacks
      hosts := hhosts
      hosts' := hj.hosts h.hosts' h.right
      start := by cases name <;> exact h.start
      clock := by cases name <;> exact h.clock
      conversations := by cases name <;> exact h.conversations
      validateTopics := (hi.validateTopics.trans h.validateTopics).trans hj.validateTopics.symm
      alike := by
        rw [hseat, hseat, htimers]
        exact h.alike
      member := by
        rw [hinbox s i c hi.label, hinbox t j d hj.label]
        exact hmember }
  · exact {
      start := by cases name <;> rfl
      clock := by cases name <;> rfl
      conversations := by cases name <;> rfl
      validateTopics := hi.validateTopics
      self := ⟨x.conversation, ⟨rfl, rfl, id⟩, by cases name <;> exact h.left⟩
      others := fun m _ => by cases name <;> rfl
      spent := by
        rw [htimers]
        exact .refl n _
      below := by
        rw [htimers]
        exact h.alike.left.below
      members := fun e he => by
        rw [hinbox s i c hi.label]
        exact hi.members e he
      hosts := hhosts }

theorem Hosts.register (h : s.Hosts name topic) (correlation : String) (n : Nat) :
    ((s.inbox name topic).register correlation n (.inbox name topic) s.channels).1 = .ok () ∧
      Houses name topic correlation n s
        ((s.inbox name topic).register correlation n (.inbox name topic) s.channels).2.1
        ((s.inbox name topic).register correlation n (.inbox name topic) s.channels).2.2 := by
  have hready : s.channels.Ready (s.inbox name topic).topic := h.label.symm ▸ h.ready
  obtain ⟨hok, hready', hvalidate, hlinked⟩ := Inbox.register_ready hready h.linked correlation n
  have hself := Inbox.register_get?_self (s.inbox name topic) correlation n s.channels
    (Handler.inbox name topic)
  rw [hok] at hself
  rw [h.label] at hready'
  exact ⟨hok, (Inbox.register_topic _ _ _ _ _).trans h.label,
    h.balanced.register correlation n _ _, hlinked, hready', hvalidate,
    fun k hk => Inbox.register_get?_ne _ _ _ _ _ hk,
    fun m hm => .inl (Option.some.inj (hm.symm.trans hself))⟩

theorem Hosts.unregister (h : s.Hosts name topic) (correlation : String) (n : Nat) :
    Houses name topic correlation n s
      ((s.inbox name topic).unregister correlation n s.channels).1
      ((s.inbox name topic).unregister correlation n s.channels).2 := by
  have hready : s.channels.Ready (s.inbox name topic).topic := h.label.symm ▸ h.ready
  obtain ⟨hready', hvalidate, hlinked⟩ := Inbox.unregister_ready hready h.linked correlation n
  rw [h.label] at hready'
  refine ⟨(Inbox.unregister_topic _ _ _ _).trans h.label, h.balanced.unregister correlation n _,
    hlinked, hready', hvalidate, fun k hk => ?_, fun m hm => ?_⟩
  · rw [Inbox.unregister_get?, if_neg fun hc => hk hc.1]
  · rw [Inbox.unregister_get?] at hm
    split_ifs at hm
    exact .inr hm

namespace Twin

theorem register (h : Twin name topic n s t x y) : (s.register n).1 = .ok () ∧
    (t.register n).1 = .ok () ∧
      Twin name topic n (s.register n).2 (t.register n).2 x y ∧
      Acts name topic n x s (s.register n).2 := by
  obtain ⟨hok, hi⟩ := h.hosts.register x.conversation.correlation n
  obtain ⟨hok', hj⟩ := h.hosts'.register y.conversation.correlation n
  have hmember := Inbox.register_get?_self (s.inbox name topic) x.conversation.correlation n
    s.channels (Handler.inbox name topic)
  have hmember' := Inbox.register_get?_self (t.inbox name topic) y.conversation.correlation n
    t.channels (Handler.inbox name topic)
  rw [hok] at hmember
  rw [hok'] at hmember'
  have hhoused := h.housed hi hj (hmember.trans (by rw [h.correlation]; exact hmember'.symm))
  simp only [Session.register, h.left, h.right, h.desk, h.desk', h.address, h.address']
  exact ⟨hok, hok', hhoused⟩

theorem unregister (h : Twin name topic n s t x y) :
    Twin name topic n (s.unregister n) (t.unregister n) x y ∧
      Acts name topic n x s (s.unregister n) := by
  have hi := h.hosts.unregister x.conversation.correlation n
  have hj := h.hosts'.unregister y.conversation.correlation n
  have hhoused := h.housed hi hj (by
    rw [← h.correlation, Inbox.unregister_get?, Inbox.unregister_get?, h.member])
  simp only [Session.unregister, h.left, h.right, h.desk, h.desk', h.address, h.address']
  exact hhoused

/-- A conversation that is listened to is registered: nothing is refused. -/
theorem listen (h : Twin name topic n s t x y) : (s.listen n).1 = .ok () ∧
    (t.listen n).1 = .ok () ∧
      Tandem name topic n s t x y ([], (s.listen n).2) ([], (t.listen n).2) := by
  have hsame : x.conversation.listen.unnumbered = y.conversation.listen.unnumbered := by
    rw [Conversation.listen_unnumbered, Conversation.listen_unnumbered]
    exact congrArg Conversation.listen h.alike.same
  have hkept : ∀ (c : Conversation) kind, c.listen.timer kind = c.timer kind := fun c kind => by
    rw [c.listen_eq]
    cases kind <;> rfl
  obtain ⟨htwin, hacts⟩ := h.turned (h.alike.put hsame (hkept _) (hkept _))
    x.conversation.listen_later y.conversation.listen_later
    (setConversation_turned h.left _) (setConversation_turned h.right _)
  obtain ⟨hok, hok', htwin', hacts'⟩ := htwin.register
  have hacts'' := hacts.trans htwin.left hacts'
  simp only [Session.listen, h.left, h.right]
  revert hok hok' htwin' hacts''
  cases (s.setConversation n x.conversation.listen).register n with
  | mk r u =>
    cases (t.setConversation n y.conversation.listen).register n with
    | mk r' u' =>
      rintro rfl rfl htwin' hacts''
      exact ⟨rfl, rfl, rfl, ⟨_, _, htwin'⟩, hacts''⟩

/-- A conversation that is torn down is unregistered if it was open. -/
theorem abort (h : Twin name topic n s t x y) (why : Failure) :
    Tandem name topic n s t x y (s.abort n why) (t.abort n why) := by
  obtain ⟨hw, hw'⟩ := h.seats
  obtain ⟨hopen, hv⟩ := h.alike.abort
  simp only [Session.abort, h.left, h.right, hw, hw', h.desk, h.desk', ← h.callbacks]
  have hl := Watch.meet_later (s.seat name x.conversation) n (.abort why)
  have hl' := Watch.meet_later (t.seat name y.conversation) n (.abort why)
  simp only [Watch.meet] at hl hl'
  revert hopen hv hl hl'
  cases (s.seat name x.conversation).abort with
  | mk b v =>
    cases (t.seat name y.conversation).abort with
    | mk b' v' =>
      rintro rfl hv hl hl'
      cases b with
      | false => exact h.still _
      | true =>
        obtain ⟨htwin, hacts⟩ := h.turned hv hl hl' (putWatch_turned h.left v)
          (putWatch_turned h.right v')
        obtain ⟨htwin', hacts'⟩ := htwin.unregister
        exact ⟨rfl, ⟨_, _, htwin'⟩, hacts.trans htwin.left hacts'⟩

/-! ### Timers -/

theorem isAbandoned (h : Twin name topic n s t x y) : s.isAbandoned n x = t.isAbandoned n y := by
  unfold Session.isAbandoned isRegistered
  rw [h.desk, h.desk', h.address, h.address', ← h.correlation, h.member, h.conversations]

/-- The timers of a kind fire that the conversation has pending in each of the sessions. -/
theorem fire (h : Twin name topic n s t x y) {kind : TimerKind} {p q : Timer}
    (hp : (s.desk name).timers.of n kind = [p]) (hq : (t.desk name).timers.of n kind = [q]) :
    Tandem name topic n s t x y (s.fire name p) (t.fire name q) := by
  have hmatch := h.alike.timers kind
  simp only [seat, hp, hq] at hmatch
  generalize hi : x.conversation.timer kind = i? at hmatch
  generalize hj : y.conversation.timer kind = j? at hmatch
  cases hmatch with
  | set i j due =>
    have hfired := h.alike.fired hi hj
    have hgone := (h.alike.timers kind).cancelled
    simp only [seat, hi, hj] at hgone
    obtain ⟨hl, hr⟩ := hgone
    have hturned (u : Session) (z : Exchange) (hz : u.exchanges.get? n = some z) (i : Nat) :
        Turned name topic n z
          { conversation := z.conversation, timers := (u.desk name).timers.cancel i } u
          (u.setTimers name ((u.desk name).timers.cancel i)) :=
      ⟨u.setTimers_quiet name _, (Changed.refl hz).keeps (u.setTimers_keeps name _),
        u.setTimers_timers name _, u.setTimers_inboxes name _⟩
    obtain ⟨htwin, hacts⟩ := h.turned hfired ⟨rfl, rfl, id⟩ ⟨rfl, rfl, id⟩
      (hturned s x h.left i) (hturned t y h.right j)
    have hidle : Tandem name topic n s t x y
        ([], s.setTimers name ((s.desk name).timers.cancel i))
        ([], t.setTimers name ((t.desk name).timers.cancel j)) := ⟨rfl, ⟨_, _, htwin⟩, hacts⟩
    obtain ⟨hw, hw'⟩ := htwin.seats
    have habandoned := htwin.isAbandoned
    have htimers : ((s.setTimers name ((s.desk name).timers.cancel i)).seat name
        x.conversation).timers.of n kind = [] := by
      rw [seat, setTimers_timers]
      exact hl
    have htimers' : ((t.setTimers name ((t.desk name).timers.cancel j)).seat name
        y.conversation).timers.of n kind = [] := by
      rw [seat, setTimers_timers]
      exact hr
    have hput : ∀ {v v' : Watch} (frames : List Frame), Watch.Alike n
        ((s.setTimers name ((s.desk name).timers.cancel i)).desk name).timers v v' →
        Later x.conversation v.conversation → Later y.conversation v'.conversation →
        Tandem name topic n s t x y
          (frames, (s.setTimers name ((s.desk name).timers.cancel i)).putWatch n name v)
          (frames, (t.setTimers name ((t.desk name).timers.cancel j)).putWatch n name v') := by
      intro v v' frames hv hlater hlater'
      obtain ⟨-, ⟨c, d, htwin'⟩, hacts'⟩ := htwin.put hv hlater hlater' frames
      exact ⟨rfl, ⟨c, d, htwin'⟩, hacts.trans htwin.left hacts'⟩
    simp only [Session.fire, htwin.left, htwin.right, habandoned]
    split
    · exact hidle
    · rw [hw, hw']
      cases kind with
      | response =>
        obtain ⟨hr, hr'⟩ | ⟨v, v', e, hr, hr', hv⟩ :=
          htwin.alike.onResponseTimer hi hj htimers htimers'
        · simp only [hr, hr']
          exact hidle
        · simp only [hr, hr']
          exact hput _ hv (Watch.onResponseTimer_later hr) (Watch.onResponseTimer_later hr')
      | ack =>
        obtain ⟨hr, hr'⟩ | ⟨v, v', end?, hr, hr', hv⟩ :=
          htwin.alike.onAckTimer hi hj htimers htimers'
        · simp only [hr, hr']
          exact hidle
        · simp only [hr, hr']
          exact hput _ hv (Watch.onAckTimer_later hr) (Watch.onAckTimer_later hr')

end Twin
end Session
end Colloquy
