/-
What a shutdown of the messaging context leaves behind.

A shutdown puts down what is to be done: abort what is registered in the inboxes that there are,
stop the timers, close the channels.  Callbacks run in between, and until the channels are closed
they can send requests.  `Clearing` says how far the shutdown has come: what was entered when it
began is still entered only as long as some frame of the agenda will see to it.  In the end it is
gone, whatever the callbacks did, and nothing new begins.  What the callbacks opened meanwhile is
not seen to.
-/
import Colloquy.Proofs.Displacement

namespace Colloquy

namespace Session

variable {s s' : Session} {n : Nat} {a : String × String} {x : Exchange}

/-! ## What is shut stays shut -/

theorem setInbox_onward (s : Session) (name : DeskName) (i : Inbox) :
    s.Onward (s.setInbox name i) :=
  .of_parts (by cases name <;> exact .refl _) fun other => by
    cases name <;> cases other <;> exact .refl _

theorem place_onward (s : Session) (desk : DeskName) (correlation topic : String) (terms : Terms)
    (callbacks : Callbacks) : s.Onward (s.place desk correlation topic terms callbacks).2 :=
  (s.setInbox_onward desk (s.inbox desk topic)).trans (.of_channels (.refl _) rfl rfl)

theorem register_onward (s : Session) (n : Nat) : s.Onward (s.register n).2 := by
  unfold register
  split
  · exact .refl s
  · rename_i x hx
    refine (s.setInbox_onward x.desk _).trans (.of_channels ?_ rfl rfl)
    cases hd : x.desk <;> exact Inbox.register_onward _ _ _ _ _

theorem unregister_onward (s : Session) (n : Nat) : s.Onward (s.unregister n) := by
  unfold unregister
  split
  · exact .refl s
  · rename_i x hx
    refine (s.setInbox_onward x.desk _).trans (.of_channels ?_ rfl rfl)
    cases hd : x.desk <;> exact Inbox.unregister_onward _ _ _ _

theorem listen_onward (s : Session) (n : Nat) : s.Onward (s.listen n).2 := by
  unfold listen
  split
  · exact .refl s
  · rename_i x hx
    have hreg := (s.setConversation_aside n x.conversation.listen).onward.trans
      (register_onward _ n)
    simp only
    split
    · rename_i hr
      rw [hr] at hreg
      exact hreg
    · rename_i hr
      rw [hr] at hreg
      exact hreg.trans (setConversation_aside _ n _).onward

theorem abort_onward (s : Session) (n : Nat) (why : Failure) : s.Onward (s.abort n why).2 := by
  unfold abort
  split
  · exact .refl s
  · rename_i x hx
    have hab := (Watch.abort_used (w := s.watch x) n .unused).onward
    simp only
    split
    · exact .refl s
    · rename_i w hw
      rw [hw] at hab
      exact (s.putWatch_aside n x.desk hab).onward.trans (unregister_onward _ n)

theorem converse_onward (s : Session) (r : Requester) (m : Message) :
    s.Onward (s.converse r m).2.2 := by
  have hlisten := (s.place_onward .shared m.correlation (s.origin.responseTopic r.namesp)
    (s.terms r.options) r.callbacks).trans (listen_onward _ s.nextExchange)
  unfold converse
  simp only
  split
  · rename_i hl
    rw [show (s.place ..).2.listen s.nextExchange = _ from hl] at hlisten
    exact hlisten
  · rename_i t hl
    rw [show (s.place ..).2.listen s.nextExchange = _ from hl] at hlisten
    have hsent := t.channels.send_onward t.now r.namesp m
    split
    · rename_i hc
      rw [hc] at hsent
      exact (hlisten.trans (channels_still _ hsent).aside.onward).trans (abort_onward _ _ _)
    · rename_i hc
      rw [hc] at hsent
      exact (hlisten.trans (channels_still _ hsent).aside.onward).trans (wait_aside _ _).onward

theorem Deed.onward {frames : List Frame} (hd : Deed s frames s') : s.Onward s' := by
  induction hd with
  | calm hstill hcalm => exact hstill.aside.onward
  | place s correlation topic terms callbacks => exact s.place_onward .own _ _ _ _
  | name name hx hown => exact .of_channels (.refl _) rfl rfl
  | listen hn => exact listen_onward _ _
  | register hn => exact register_onward _ _
  | unregister hn => exact unregister_onward _ _
  | wait s n => exact (s.wait_aside n).onward
  | handle s n m => exact (s.handle_aside n m).onward
  | abort s n why => exact s.abort_onward n why
  | fire ht => exact (fire_aside _ ht).onward
  | converse s r m => exact s.converse_onward r m
  | andThen hd hd' ih ih' => exact ih.trans ih'
  | beneath hd hcalm ih => exact ih

theorem perform_onward (s : Session) (f : Frame) : s.Onward (s.perform f).2 := by
  obtain ⟨k, e, rfl⟩ | ⟨k, e, rfl⟩ | ⟨-, hd⟩ := s.perform_cases f
  · simp only [perform]
    split
    · exact .refl s
    · exact s.unregister_onward k
  · exact (s.resolve_aside k e).onward
  · exact hd.onward

theorem Blank.tidy (h : s.Blank) : s.Tidy where
  channels := fun hs => by
    rw [h.running] at hs
    cases hs
  timers := fun name => by
    cases name with
    | own =>
      rw [desk, h.own]
      exact fun _ => rfl
    | shared =>
      rw [desk, h.shared]
      exact fun _ => rfl

/-! ## What can be told of conversations that are gone -/

/-- A conversation of the context that is not entered is known to have ended, or to be gone. -/
theorem status_of_not_entered (h : s.Filed) (hx : s.exchanges.get? n = some x)
    (hshared : x.desk = .shared) (hgone : ∀ a, s.entry a ≠ some n) :
    (∃ e, s.status (.conversation n) = .ended e) ∨
      s.status (.conversation n) =
        .failed (.conversationAborted x.conversation.correlation) := by
  have ha := Exchange.address?_of_shared hshared
  have hunregistered : s.isRegistered n x = false := by
    rw [← Bool.not_eq_true, isRegistered_iff ha]
    exact hgone _
  have hunnamed : n ∉ s.conversations.values := fun hn => by
    obtain ⟨y, hy, hown⟩ := h.named n hn
    rw [hx] at hy
    cases hy
    rw [hshared] at hown
    cases hown
  have habandoned : s.isAbandoned n x = true := by
    rw [isAbandoned, hunregistered, List.contains_eq_mem, decide_eq_false hunnamed]
    rfl
  have hcorrelation : s.correlationOf n = x.conversation.correlation := by
    simp only [correlationOf, hx, Option.map_some, Option.getD_some]
  simp only [status, awaited, hx, habandoned, if_true, hcorrelation]
  cases x.conversation.completion with
  | resolved e => exact Or.inl ⟨e, rfl⟩
  | waiting => exact Or.inr rfl
  | closing => exact Or.inr rfl
  | dropped => exact Or.inr rfl

/-- With the channels shut down a request fails, and opens no conversation. -/
theorem publish_of_shutDown (h : s.channels.shutDown = true) (r : Requester)
    (payload : Json.Value) :
    (s.publish r payload).1 = .error .shutDown ∧ s.Keeps (s.publish r payload).2.2 := by
  have hm := s.requestMessage_still r payload
  have hproducer := Channels.producer_of_shutDown (hm.aside.onward.shutDown h) r.namesp
  unfold publish
  simp only [hproducer]
  exact ⟨trivial, hm.keeps.trans (channels_keeps _ _)⟩

end Session

/-! ## The course of a shutdown -/

/-- Whether a frame sees to it that a conversation entered on a topic is closed or torn down. -/
def Frame.Clears (topic : String) (n : Nat) : Frame → Prop
  | .close k _ => k = n
  | .abortAll ns _ => n ∈ ns
  | .abortInboxes .shared topics _ => topic ∈ topics
  | _ => False

namespace Machine

open Session (Deed)

/-- How far a shutdown has come that began with so many conversations. -/
structure Clearing (before : Nat) (m : Machine) : Prop where
  before_le : before ≤ m.session.nextExchange
  entries : ∀ {a n}, m.session.entry a = some n → n < before → ∃ f ∈ m.agenda, f.Clears a.1 n
  timers : .stopTimers .shared ∈ m.agenda ∨ m.session.shared.timers.stopped = true
  channels : .closeChannels ∈ m.agenda ∨ m.session.channels.shutDown = true

variable {start m : Machine} {before : Nat} {f : Frame} {rest frames done : List Frame}
  {s s' : Session} {n : Nat} {a : String × String}

/-- A frame that was to see to a conversation has done so, or left it to others. -/
theorem Tended.clears_perform (h : Tended { agenda := f :: rest, session := s })
    (hf : f.Clears a.1 n) (he : s.entry a = some n)
    (he' : (s.perform f).2.entry a = some n) :
    ∃ g ∈ (s.perform f).1 ++ rest, g.Clears a.1 n := by
  cases f with
  | close k e =>
    have hk : k = n := hf
    subst hk
    obtain ⟨x, hx, -⟩ := h.filed.entered he
    simp only [Session.perform, hx] at he'
    exact absurd rfl (Session.entry_unregister h.filed he').2
  | abortAll ns why =>
    cases ns with
    | nil => cases hf
    | cons k ns =>
      rcases List.mem_cons.mp hf with rfl | hmem
      · -- If it is entered afterwards it had ended before, and so it is to be closed.
        obtain ⟨e, hmem⟩ := h.closes he (Session.over_of_abort h.filed he')
        have hrest : .close n e ∈ rest := (List.mem_cons.mp hmem).resolve_left fun heq => by
          cases heq
        exact ⟨_, List.mem_append_right _ hrest, rfl⟩
      · refine ⟨.abortAll ns why, List.mem_append_left _ ?_, hmem⟩
        exact List.mem_append_right _ List.mem_cons_self
  | abortInboxes desk topics why =>
    cases desk with
    | own => cases hf
    | shared =>
      cases topics with
      | nil => cases hf
      | cons topic topics =>
        rcases List.mem_cons.mp hf with rfl | hmem
        · refine ⟨.abortAll (s.inbox .shared a.1).members.values why,
            List.mem_append_left _ List.mem_cons_self, ?_⟩
          exact (Session.mem_of_entry he).2
        · refine ⟨.abortInboxes .shared topics why, List.mem_append_left _ ?_, hmem⟩
          exact List.mem_cons_of_mem _ List.mem_cons_self
  | _ => cases hf

namespace Clearing

theorem outside (h : Clearing before { agenda := [], session := s })
    (ht : Tended { agenda := [], session := s }) (hs : s.Tidy) (hd : Deed s frames s') :
    Clearing before { agenda := frames, session := s' } where
  before_le := Nat.le_trans h.before_le (hd.files ht.filed).grows
  entries := fun he hn => by
    rcases (hd.files ht.filed).entries he with he | hnew
    · obtain ⟨f, hf, -⟩ := h.entries he hn
      cases hf
    · exact absurd hn (Nat.not_lt_of_le (Nat.le_trans h.before_le hnew))
  timers := Or.inr (hd.onward.stopped hs (h.timers.resolve_left List.not_mem_nil))
  channels := Or.inr (hd.onward.shutDown (h.channels.resolve_left List.not_mem_nil))

theorem perform (h : Clearing before { agenda := f :: rest, session := s })
    (ht : Tended { agenda := f :: rest, session := s }) (hs : s.Tidy) :
    Clearing before { agenda := (s.perform f).1 ++ rest, session := (s.perform f).2 } where
  before_le := Nat.le_trans h.before_le ht.files.grows
  entries := fun he hn => by
    rcases ht.files.entries he with hold | hnew
    · obtain ⟨g, hg, hclears⟩ := h.entries hold hn
      rcases List.mem_cons.mp hg with rfl | hrest
      · exact ht.clears_perform hclears hold he
      · exact ⟨g, List.mem_append_right _ hrest, hclears⟩
    · exact absurd hn (Nat.not_lt_of_le (Nat.le_trans h.before_le hnew))
  timers := by
    rcases h.timers with hmem | hstopped
    · rcases List.mem_cons.mp hmem with rfl | hrest
      · refine Or.inr ?_
        simp only [Session.perform]
        split
        · assumption
        · rfl
      · exact Or.inl (List.mem_append_right _ hrest)
    · exact Or.inr ((s.perform_onward f).stopped hs hstopped)
  channels := by
    rcases h.channels with hmem | hshut
    · rcases List.mem_cons.mp hmem with rfl | hrest
      · exact Or.inr s.channels.shutdown_shutDown
      · exact Or.inl (List.mem_append_right _ hrest)
    · exact Or.inr ((s.perform_onward f).shutDown hshut)

end Clearing

theorem Reaches.onward (h : start.Reaches m) : start.session.Onward m.session := by
  induction h with
  | refl => exact .refl _
  | perform h ih => exact ih.trans (Session.perform_onward _ _)
  | outside h hd ih => exact ih.trans hd.onward

theorem Reaches.clearing (h : start.Reaches m) (ht : start.Tended) (hs : start.session.Tidy)
    (hc : Clearing before start) : Clearing before m := by
  induction h with
  | refl => exact hc
  | perform h ih => exact ih.perform (h.tended ht) (h.onward.tidy hs)
  | outside h hd ih => exact ih.outside (h.tended ht) (h.onward.tidy hs) hd

/-- When a shutdown begins, everything that is entered is to be torn down. -/
theorem Clearing.begin {x : Context} (hx : s.context = some x) (hrunning : x.shutDown = false)
    (rest : List Frame) : Clearing s.nextExchange
      { agenda := s.shutdownContext.1 ++ rest, session := s.shutdownContext.2 } := by
  simp only [Session.shutdownContext, hx, hrunning, if_false, Bool.false_eq_true]
  refine ⟨Nat.le_refl _, fun {a n} he _ => ⟨_, List.mem_cons_self, ?_⟩, Or.inl ?_, Or.inl ?_⟩
  · exact (Session.mem_of_entry (s := s) he).1
  · exact List.mem_cons_of_mem _ List.mem_cons_self
  · exact List.mem_cons_of_mem _ (List.mem_cons_of_mem _ List.mem_cons_self)

/-- What a shutdown has left when it is over, if it began with so many conversations: they have
ended or are known to be gone, and nothing goes on. -/
structure Cleared (before : Nat) (s : Session) : Prop where
  resolved : ∀ n x, n < before → s.exchanges.get? n = some x → x.desk = .shared →
    (∃ e, s.status (.conversation n) = .ended e) ∨
      s.status (.conversation n) =
        .failed (.conversationAborted x.conversation.correlation)
  entries : ∀ a n, s.entry a = some n → before ≤ n
  timers : s.shared.timers.pending = []
  topics : ∀ topic, s.channels.isSubscribed topic = false
  requests : ∀ r payload, (s.publish r payload).1 = .error .shutDown ∧
    s.Keeps (s.publish r payload).2.2

theorem Clearing.cleared (h : Clearing before m) (ht : m.Tended) (hs : m.session.Tidy)
    (hrest : m.agenda = []) : Cleared before m.session := by
  have hentries : ∀ a n, m.session.entry a = some n → before ≤ n := fun a n he => by
    by_contra hn
    obtain ⟨f, hf, -⟩ := h.entries he (Nat.lt_of_not_le hn)
    rw [hrest] at hf
    cases hf
  have hstopped : m.session.shared.timers.stopped = true :=
    h.timers.resolve_left (by rw [hrest]; exact List.not_mem_nil)
  have hshut : m.session.channels.shutDown = true :=
    h.channels.resolve_left (by rw [hrest]; exact List.not_mem_nil)
  refine ⟨fun n x hn hx hshared => ?_, hentries, hs.timers .shared hstopped,
    Channels.isSubscribed_of_shutDown hs.channels hshut, Session.publish_of_shutDown hshut⟩
  exact Session.status_of_not_entered ht.filed hx hshared fun a he =>
    Nat.not_lt_of_le (hentries a n he) hn

/-- In every run, once a shutdown of the context is over, the conversations that were opened
before it are resolved and entered nowhere, no timer is pending, no topic is subscribed, and every
request fails without opening a conversation.  Whatever is still entered was opened by a callback
while the shutdown went on. -/
theorem Reaches.cleared_by_shutdown {s₀ : Session} {x : Context}
    (h : Reaches { agenda := [], session := s₀ }
      { agenda := s.shutdownContext.1 ++ rest, session := s.shutdownContext.2 })
    (hs : s₀.Blank) (hx : s.context = some x) (hrunning : x.shutDown = false)
    (h' : Reaches { agenda := s.shutdownContext.1 ++ rest, session := s.shutdownContext.2 } m)
    (hrest : m.agenda = []) : Cleared s.nextExchange m.session := by
  have ht : Tended { agenda := s.shutdownContext.1 ++ rest, session := s.shutdownContext.2 } :=
    h.tended (.of_blank hs)
  have htidy := h.onward.tidy hs.tidy
  exact (h'.clearing ht htidy (.begin hx hrunning rest)).cleared (h'.tended ht)
    (h'.onward.tidy htidy) hrest

/-! ### A request during a shutdown -/

def again : Requester where
  namesp := "clerk:answers"
  options := { wait := .exactly 1 }
  callbacks := { owner := .requester "again" }

/-- A requester that asks again when a conversation fails. -/
def retrying : Requester where
  namesp := "clerk:questions"
  options := { wait := .exactly 1 }
  callbacks := { owner := .requester "retrying", failed := some [.request "again" (.bool true)] }

def retryingSession : Session :=
  { contextSession with requesters := ({} : Table String Requester).put "again" again }

/-- A conversation of the requester is open. -/
def asking : Session := (retryingSession.publish retrying (.bool true)).2.2

/-- The shutdown runs its course: the conversation is torn down, the requester asks again, and the
channels are closed. -/
def shutDown : Machine :=
  Machine.run 20 { agenda := asking.shutdownContext.1, session := asking.shutdownContext.2 }

theorem reaches_asking :
    Reaches { agenda := [], session := retryingSession } { agenda := [], session := asking } := by
  have hframes : (retryingSession.publish retrying (.bool true)).2.1 = [] :=
    List.length_eq_zero_iff.mp (by decide +kernel)
  have hd := retryingSession.publish_deed retrying (.bool true)
  rw [hframes] at hd
  exact Reaches.refl.outside hd

theorem reaches_shutDown :
    Reaches { agenda := [], session := retryingSession }
        { agenda := asking.shutdownContext.1 ++ [], session := asking.shutdownContext.2 } ∧
      Reaches { agenda := asking.shutdownContext.1 ++ [], session := asking.shutdownContext.2 }
        shutDown ∧ shutDown.agenda = [] := by
  rw [List.append_nil]
  exact ⟨reaches_asking.outside asking.shutdownContext_deed, reaches_run 20 _,
    List.length_eq_zero_iff.mp (by decide +kernel)⟩

theorem cleared_of_asking :
    asking.nextExchange = 1 ∧ shutDown.agenda = [] ∧ Cleared 1 shutDown.session ∧
      shutDown.session.isPending (.conversation 0) = false := by
  have hcontext : asking.context.map Context.shutDown = some false := by decide +kernel
  obtain ⟨x, hx, hrunning⟩ := Option.map_eq_some_iff.mp hcontext
  have hnext : asking.nextExchange = 1 := by decide +kernel
  obtain ⟨hbegin, hrun, hrest⟩ := reaches_shutDown
  have hcleared := hbegin.cleared_by_shutdown ⟨rfl, rfl, rfl, rfl, rfl⟩ hx hrunning hrun hrest
  rw [hnext] at hcleared
  exact ⟨hnext, hrest, hcleared, by decide +kernel⟩

/-- What the requester opened in the course of the shutdown is still entered when it is over, and
nothing can be told about it. -/
theorem left_behind_by_shutdown :
    ∃ x, Reaches { agenda := asking.shutdownContext.1 ++ [], session := asking.shutdownContext.2 }
        shutDown ∧ shutDown.agenda = [] ∧
      shutDown.session.exchanges.get? 1 = some x ∧ x.desk = .shared ∧
      shutDown.session.isRegistered 1 x = true ∧
      shutDown.session.isPending (.conversation 1) = true := by
  have h : (shutDown.session.exchanges.get? 1).map (fun x =>
      (x.desk, shutDown.session.isRegistered 1 x)) = some (.shared, true) := by decide +kernel
  obtain ⟨x, hx, hfields⟩ := Option.map_eq_some_iff.mp h
  simp only [Prod.mk.injEq] at hfields
  exact ⟨x, reaches_shutDown.2.1, reaches_shutDown.2.2, hx, hfields.1, hfields.2,
    by decide +kernel⟩

end Machine
end Colloquy
