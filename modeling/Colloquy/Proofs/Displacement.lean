/-
Which conversations of the messaging context can be reached.

`Reaches` is a run of a session where everything from outside is a deed.  All through such a run
the entries are in order, and a conversation that has ended is entered only as long as it is
still to be closed.  So an open conversation is at hand for its messages, its timers and a
shutdown, unless a later one took its place.  Only a request with the same correlation does
that, and so one that joins the conversation of another message.
-/
import Colloquy.Proofs.Ends
import Colloquy.Proofs.Filing

namespace Colloquy

open Conversation (Later)

namespace Session

/-- No conversation was placed yet, and nothing is shut. -/
structure Blank (s : Session) : Prop where
  exchanges : s.exchanges = {}
  conversations : s.conversations = {}
  own : s.own = {}
  shared : s.shared = {}
  running : s.channels.shutDown = false

theorem Blank.filed {s : Session} (h : s.Blank) : s.Filed := by
  have hnone : ∀ n, s.exchanges.get? n = none := fun n => by
    rw [h.exchanges]
    rfl
  have hempty : ∀ a, s.entry a = none := fun a => by
    rw [entry, inbox, desk, h.shared]
    rfl
  refine ⟨fun n _ => hnone n, fun topic => ?_, fun n hn => ?_, fun he => ?_, fun he => ?_,
    fun hx => ?_⟩
  · rw [inbox, desk, h.shared]
    rfl
  · rw [h.conversations] at hn
    cases hn
  · rw [hempty] at he
    cases he
  · rw [hempty] at he
    cases he
  · rw [hnone] at hx
    cases hx

variable {s s' : Session} {n k : Nat} {a : String × String} {x : Exchange}

theorem resolve_filed (h : s.Filed) (n : Nat) (e : Ending) : (s.resolve n e).Filed := by
  rcases s.resolve_cases n e with hsame | ⟨x, hx, -, hc⟩
  · rwa [hsame]
  · have hl : Later x.conversation { x.conversation with completion := .resolved e } :=
      ⟨rfl, rfl, id⟩
    have ha := s.resolve_aside n e
    exact h.changed hx hl hc ha.conversations ha.inboxes

theorem resolve_nextExchange (s : Session) (n : Nat) (e : Ending) :
    (s.resolve n e).nextExchange = s.nextExchange := by
  rcases s.resolve_cases n e with hsame | ⟨x, -, -, hc⟩
  · rw [hsame]
  · exact hc.nextExchange

/-- What others are let know about one conversation leaves the desk of each and whether it has
ended. -/
theorem resolve_get? (s : Session) (k : Nat) (e : Ending) (n : Nat) :
    ((s.resolve k e).exchanges.get? n).map (fun x => (x.desk, x.conversation.ended)) =
      (s.exchanges.get? n).map fun x => (x.desk, x.conversation.ended) := by
  rcases s.resolve_cases k e with hsame | ⟨x, hx, -, hc⟩
  · rw [hsame]
  · by_cases hn : n = k
    · rw [hn, hc.self, hx]
      rfl
    · rw [hc.others n hn]

theorem resolve_over {e : Ending} (h : (s.resolve n e).Over k) : s.Over k := by
  obtain ⟨x, hx, hended⟩ := h
  have hsame := s.resolve_get? n e k
  rw [hx] at hsame
  obtain ⟨y, hy, heq⟩ := Option.map_eq_some_iff.mp hsame.symm
  exact ⟨y, hy, (congrArg Prod.snd heq).trans hended⟩

/-- What is done for a frame leaves the entries in order. -/
theorem perform_files (h : s.Filed) (f : Frame) (hover : ∀ k e, f = .close k e → s.Over k) :
    Files s (s.perform f).1 (s.perform f).2 := by
  obtain ⟨k, e, rfl⟩ | ⟨k, e, rfl⟩ | ⟨-, hd⟩ := s.perform_cases f
  · have hended := hover k e rfl
    have hsession : (s.perform (.close k e)).2 = s.unregister k := by
      obtain ⟨x, hx, -⟩ := hended
      simp only [perform, hx]
    rw [hsession]
    exact .unregister h hended
  · have ha := s.resolve_aside k e
    exact ⟨resolve_filed h k e, Nat.le_of_eq (s.resolve_nextExchange k e).symm,
      fun he => Or.inl (entry_congr ha.inboxes ▸ he),
      fun he ho => Or.inr ⟨entry_congr ha.inboxes ▸ he, resolve_over ho⟩⟩
  · exact hd.files h

end Session

namespace Machine

open Session (Deed)

/-- A run from one machine to another.  With nothing left to do, something is done from outside,
or it is a worker's turn. -/
inductive Reaches (start : Machine) : Machine → Prop where
  | refl : Reaches start start
  /-- The first frame of the agenda is done. -/
  | perform {f : Frame} {rest : List Frame} {s : Session} :
      Reaches start { agenda := f :: rest, session := s } →
      Reaches start { agenda := (s.perform f).1 ++ rest, session := (s.perform f).2 }
  | outside {s s' : Session} {frames : List Frame} :
      Reaches start { agenda := [], session := s } → Deed s frames s' →
      Reaches start { agenda := frames, session := s' }

theorem Reaches.trans {m m' m'' : Machine} (h : m.Reaches m') (h' : m'.Reaches m'') :
    m.Reaches m'' := by
  induction h' with
  | refl => exact h
  | perform h' ih => exact ih.perform
  | outside h' hd ih => exact ih.outside hd

theorem reaches_step {m m' : Machine} (h : m.step? = some m') : m.Reaches m' :=
  step_cases (R := Reaches) (fun _ _ _ => .perform .refl)
    (fun h => .outside .refl (Session.turn_deed h)) h

/-- A run does its frames in some order, so what holds of every order holds of it. -/
theorem Reaches.leads {m m' : Machine} (h : m.Reaches m') : ∃ done, m.Leads m' done := by
  induction h with
  | refl => exact ⟨_, .refl⟩
  | perform _ ih =>
    obtain ⟨done, hdone⟩ := ih
    exact ⟨_, hdone.perform⟩
  | outside _ hd ih =>
    obtain ⟨done, hdone⟩ := ih
    exact ⟨done, hdone.outside hd.move⟩

/-- What a machine does by itself is a run. -/
theorem reaches_run (n : Nat) (m : Machine) : m.Reaches (m.run n) :=
  run_induction (R := Reaches) (fun _ => .refl) (fun h h' => (reaches_step h).trans h') n m

variable {start m : Machine} {f : Frame} {rest frames done : List Frame} {s s' : Session}

/-- A conversation that is to be closed has ended. -/
theorem Kept.over_of_close (h : m.Kept done) {n : Nat} {e : Ending}
    (hf : .close n e ∈ m.agenda) : m.session.Over n := by
  have hdue : m.agenda.filterMap (Frame.due? n) ≠ [] :=
    List.ne_nil_of_mem (List.mem_filterMap.mpr ⟨_, hf, if_pos rfl⟩)
  have hacc := h.accounts.account n
  cases hx : m.session.exchanges.get? n with
  | none =>
    rw [hx] at hacc
    generalize (done ++ m.agenda).filterMap (Frame.told? n) = told at hacc
    generalize m.agenda.filterMap (Frame.due? n) = due at hacc hdue
    cases hacc
    exact absurd rfl hdue
  | some x =>
    obtain ⟨-, -, -, hs⟩ := h.stage hx
    refine ⟨x, hx, ?_⟩
    generalize m.agenda.filterMap (Frame.due? n) = due at hs hdue
    cases hs with
    | lasting => exact absurd rfl hdue
    | closing e he => exact he
    | telling e he => exact he
    | resolved e he => exact he
    | dropped he => exact he

/-- The accounts and the entries are in order, and the entries of conversations that have ended are
to be closed. -/
structure Tended (m : Machine) : Prop where
  kept : ∃ done, m.Kept done
  filed : m.session.Filed
  closes : ∀ {a n}, m.session.entry a = some n → m.session.Over n → ∃ e, .close n e ∈ m.agenda

namespace Tended

theorem has_ended (h : m.Tended) {n : Nat} {e : Ending} (hf : .close n e ∈ m.agenda) :
    m.session.Over n := by
  obtain ⟨done, hk⟩ := h.kept
  exact hk.over_of_close hf

theorem files (h : Tended { agenda := f :: rest, session := s }) :
    Session.Files s (s.perform f).1 (s.perform f).2 :=
  s.perform_files h.filed f fun k e heq => by
    subst heq
    exact h.has_ended List.mem_cons_self

theorem outside (h : Tended { agenda := [], session := s }) (hd : Deed s frames s') :
    Tended { agenda := frames, session := s' } where
  kept := h.kept.imp fun done hk => hk.outside hd.move
  filed := (hd.files h.filed).filed
  closes := fun he ho => by
    rcases (hd.files h.filed).closes he ho with hclose | ⟨he, ho⟩
    · exact hclose
    · obtain ⟨e, hmem⟩ := h.closes he ho
      cases hmem

theorem perform (h : Tended { agenda := f :: rest, session := s }) :
    Tended { agenda := (s.perform f).1 ++ rest, session := (s.perform f).2 } where
  kept := by
    obtain ⟨done, hk⟩ := h.kept
    exact ⟨_, hk.perform⟩
  filed := h.files.filed
  closes := fun {a n} he ho => by
    rcases h.files.closes he ho with ⟨e, hmem⟩ | ⟨hold, hover⟩
    · exact ⟨e, List.mem_append_left _ hmem⟩
    · obtain ⟨e, hmem⟩ := h.closes hold hover
      rcases List.mem_cons.mp hmem with rfl | hrest
      · -- The frame that closes a conversation strikes it out.
        obtain ⟨x, hx, -⟩ := hover
        simp only [Session.perform, hx] at he
        exact absurd rfl (Session.entry_unregister h.filed he).2
      · exact ⟨e, List.mem_append_right _ hrest⟩

end Tended

theorem Reaches.tended (h : start.Reaches m) (ht : start.Tended) : m.Tended := by
  induction h with
  | refl => exact ht
  | perform h ih => exact ih.perform
  | outside h hd ih => exact ih.outside hd

theorem Tended.of_blank (hs : s.Blank) : Tended { agenda := [], session := s } where
  kept := ⟨[], .start hs.exchanges⟩
  filed := hs.filed
  closes := fun he => by
    obtain ⟨x, hx, -⟩ := hs.filed.entered he
    rw [show s.exchanges = {} from hs.exchanges] at hx
    cases hx

end Machine

/-! ## Conversations at hand -/

namespace Session

variable {s : Session} {n : Nat} {a : String × String} {x : Exchange}

/-- What is entered is found when the inboxes are gone through. -/
theorem mem_of_entry (h : s.entry a = some n) :
    a.1 ∈ s.shared.inboxes.keys ∧ n ∈ (s.inbox .shared a.1).members.values := by
  refine ⟨?_, Table.mem_values_of_get? h⟩
  by_contra hkey
  rw [entry, inbox, desk, Table.getD, Table.get?_eq_none_iff.mpr hkey] at h
  cases h

/-- A conversation of the context that its messages, its timers and a shutdown get at. -/
structure AtHand (s : Session) (n : Nat) (x : Exchange) : Prop where
  entered : s.isRegistered n x = true
  messages : ∀ (delivery : Nat) (m : Message), m.correlation = x.conversation.correlation →
    s.arrive .shared x.conversation.topic delivery m = s.handle n m
  timers : s.isAbandoned n x = false
  shutdown : x.conversation.topic ∈ s.shared.inboxes.keys ∧
    n ∈ (s.inbox .shared x.conversation.topic).members.values

theorem atHand_iff (hx : x.address? = some a) : s.AtHand n x ↔ s.entry a = some n := by
  constructor
  · exact fun h => (isRegistered_iff hx).mp h.entered
  · intro h
    have hr := (isRegistered_iff hx).mpr h
    obtain ⟨hd, rfl⟩ := Exchange.shared_of_address? hx
    refine ⟨hr, fun delivery m hm => ?_, ?_, mem_of_entry h⟩
    · have hget : (s.inbox .shared x.conversation.topic).members.get? m.correlation = some n := by
        rw [hm]
        exact h
      simp only [arrive, hget]
    · rw [isAbandoned, hr]
      rfl

/-- A request leaves the conversations as they are, and the entries but for the one at its own
address. -/
theorem publish_entry (h : s.Filed) (r : Requester) (payload : Json.Value) :
    (∀ k, k ≠ s.nextExchange →
        (s.publish r payload).2.2.exchanges.get? k = s.exchanges.get? k) ∧
      ((s.publish r payload).2.2.entry a = s.entry a ∨
        r.options.opensConversation = true ∧
          a = (s.origin.responseTopic r.namesp, s.nextCorrelation r)) := by
  have hm := s.requestMessage_still r payload
  obtain ⟨hcorrelation, hcontext⟩ := s.requestMessage_fields r payload
  have hold : ∀ k, (s.requestMessage r payload).2.exchanges.get? k = s.exchanges.get? k :=
    fun k => by rw [hm.keeps.exchanges]
  have hsame : ∀ c : Channels Handler,
      ({ (s.requestMessage r payload).2 with channels := c } : Session).entry a = s.entry a :=
    fun c => entry_congr hm.aside.inboxes
  unfold publish
  simp only
  split
  · exact ⟨fun k _ => hold k, Or.inl (hsame _)⟩
  · rename_i c hc
    split
    · rename_i hopens
      have hfiled : ({ (s.requestMessage r payload).2 with channels := c } : Session).Filed :=
        h.of_same ⟨hm.keeps.exchanges, hm.keeps.nextExchange⟩ hm.aside.conversations
          hm.aside.inboxes
      obtain ⟨x, hx, ho⟩ := converse_opened hfiled.labelled r (s.requestMessage r payload).1
      rw [hcorrelation, show ({ (s.requestMessage r payload).2 with channels := c } :
        Session).origin = s.origin by simp only [origin, hcontext]] at hx
      refine ⟨fun k hk => (ho.others k fun hn => hk ?_).trans (hold k), ?_⟩
      · exact hn.trans hm.keeps.nextExchange
      · by_cases ha : x.address? = some a
        · rw [hx] at ha
          exact Or.inr ⟨hopens, (Option.some.inj ha).symm⟩
        · exact Or.inl ((ho.entries ha).trans (hsame c))
    · split
      · exact ⟨fun k _ => hold k, Or.inl (hsame _)⟩
      · exact ⟨fun k _ => hold k, Or.inl (hsame _)⟩

end Session

namespace Machine

variable {m : Machine} {s : Session}

/-- In every run an open conversation of the context is at hand until a later one has its topic
and its correlation.  A request changes nothing about it but that it is not at hand any more, and
that only if the request opens a conversation on the same topic with the same correlation, a new
one or that of the message it joins. -/
theorem Reaches.at_hand_until_joined (h : Reaches { agenda := [], session := s } m)
    (hs : s.Blank) {n : Nat} {x : Exchange} (hx : m.session.exchanges.get? n = some x)
    (hshared : x.desk = .shared) (hopen : x.conversation.ended = false) :
    (m.session.AtHand n x ↔
        ∀ k y, n < k → m.session.exchanges.get? k = some y → y.desk = .shared →
          y.conversation.topic = x.conversation.topic →
          y.conversation.correlation ≠ x.conversation.correlation) ∧
      ∀ (r : Requester) (payload : Json.Value),
        (m.session.publish r payload).2.2.exchanges.get? n = some x ∧
          (m.session.AtHand n x → (m.session.publish r payload).2.2.AtHand n x ∨
            r.options.opensConversation = true ∧
              m.session.origin.responseTopic r.namesp = x.conversation.topic ∧
              m.session.nextCorrelation r = x.conversation.correlation) := by
  have hfiled := (h.tended (.of_blank hs)).filed
  have ha := Exchange.address?_of_shared hshared
  refine ⟨⟨fun hhand k y hlt hy hd ht hc => ?_, fun hnone => ?_⟩, fun r payload => ?_⟩
  · have haddress : y.address? = some (x.conversation.topic, x.conversation.correlation) := by
      rw [Exchange.address?_of_shared hd, ht, hc]
    have hle := hfiled.latest ((Session.atHand_iff ha).mp hhand) hy haddress
    omega
  · rw [Session.atHand_iff ha]
    rcases hfiled.inPlace hx ha hopen with he | ⟨k, y, hlt, hy, hya⟩
    · exact he
    · obtain ⟨hd, heq⟩ := Exchange.shared_of_address? hya
      obtain ⟨ht, hc⟩ := Prod.mk.inj heq
      exact absurd hc.symm (hnone k y hlt hy hd ht.symm)
  · obtain ⟨hothers, hentry⟩ := Session.publish_entry
      (a := (x.conversation.topic, x.conversation.correlation)) hfiled r payload
    refine ⟨(hothers n (Nat.ne_of_lt (hfiled.lt_of_get? hx))).trans hx, fun hhand => ?_⟩
    rw [Session.atHand_iff ha] at hhand ⊢
    refine hentry.imp (fun hsame => hsame.trans hhand) fun ⟨hopens, heq⟩ => ?_
    obtain ⟨ht, hc⟩ := Prod.mk.inj heq
    exact ⟨hopens, ht.symm, hc.symm⟩

/-! ### Two requests that join the same message -/

def contextSession : Session where
  channels := { broker := .manual {} }
  start := .epoch
  context := some {
    origin := { name := "clerk", version := "1", instanceId := "i", hostname := "desk", pid := 1 }
    responseTimeoutMs := 1000 }

/-- A requester that stays in the conversation of a message. -/
def joining : Requester where
  namesp := "clerk:questions"
  options := { wait := .exactly 1 }
  joins := some (nestedMessage "asked")
  callbacks := { owner := .requester "joining" }

def joinedOnce : Session := (contextSession.publish joining (.bool true)).2.2

def joinedTwice : Session := (joinedOnce.publish joining (.bool true)).2.2

theorem contextSession_blank : contextSession.Blank := ⟨rfl, rfl, rfl, rfl, rfl⟩

theorem reaches_joinedTwice :
    Reaches { agenda := [], session := contextSession }
      { agenda := [], session := joinedTwice } := by
  have hframes : (contextSession.publish joining (.bool true)).2.1 = [] :=
    List.length_eq_zero_iff.mp (by decide +kernel)
  have hframes' : (joinedOnce.publish joining (.bool true)).2.1 = [] :=
    List.length_eq_zero_iff.mp (by decide +kernel)
  have hfirst := contextSession.publish_deed joining (.bool true)
  have hsecond := joinedOnce.publish_deed joining (.bool true)
  rw [hframes] at hfirst
  rw [hframes'] at hsecond
  exact (Reaches.refl.outside hfirst).outside hsecond

/-- The desk of a conversation, whether it has ended, its topic and its correlation. -/
def talkAt (x : Exchange) : DeskName × Bool × String × String :=
  (x.desk, x.conversation.ended, x.conversation.topic, x.conversation.correlation)

theorem joined_talks :
    (joinedTwice.exchanges.get? 0).map talkAt =
        some (.shared, false, "clerk:questions:response:i", "talk") ∧
      (joinedTwice.exchanges.get? 1).map talkAt =
        some (.shared, false, "clerk:questions:response:i", "talk") := by
  decide +kernel

/-- The second of the two is at hand and the first is not, and a request that joins no message
changes nothing about that. -/
theorem at_hand_after_joining :
    ∃ x y, joinedTwice.exchanges.get? 0 = some x ∧ joinedTwice.exchanges.get? 1 = some y ∧
      ¬joinedTwice.AtHand 0 x ∧ joinedTwice.AtHand 1 y ∧
      (joinedTwice.publish { joining with joins := none } (.bool true)).2.2.AtHand 1 y := by
  obtain ⟨h0, h1⟩ := joined_talks
  obtain ⟨x, hx, htalk⟩ := Option.map_eq_some_iff.mp h0
  obtain ⟨y, hy, htalk'⟩ := Option.map_eq_some_iff.mp h1
  simp only [talkAt, Prod.mk.injEq] at htalk htalk'
  obtain ⟨hshared, hopen, ht, hc⟩ := htalk
  obtain ⟨hshared', hopen', ht', hc'⟩ := htalk'
  have hfirst := reaches_joinedTwice.at_hand_until_joined contextSession_blank hx hshared hopen
  have hsecond := reaches_joinedTwice.at_hand_until_joined contextSession_blank hy hshared' hopen'
  have hlast : ∀ k, 1 < k → joinedTwice.exchanges.get? k = none := fun k hk =>
    (reaches_joinedTwice.tended (.of_blank contextSession_blank)).filed.fresh k
      (Nat.le_trans (by decide +kernel) hk)
  have hhand : joinedTwice.AtHand 1 y := hsecond.1.mpr fun k z hk hz => by
    rw [hlast k hk] at hz
    cases hz
  refine ⟨x, y, hx, hy, fun hhand => ?_, hhand, ?_⟩
  · exact hfirst.1.mp hhand 1 y (by decide) hy hshared' (ht'.trans ht.symm) (hc'.trans hc.symm)
  · refine ((hsecond.2 _ _).2 hhand).resolve_right fun hjoins => ?_
    have hnext := hjoins.2.2
    rw [hc'] at hnext
    exact absurd hnext (by decide +kernel)

/-- Two requests that join one message, both open: the first conversation is not the one that is
entered under its correlation. -/
theorem displaced_by_joining :
    ∃ x, Reaches { agenda := [], session := contextSession }
        { agenda := [], session := joinedTwice } ∧
      (contextSession.publish joining (.bool true)).1.toOption = some (some 0) ∧
      joinedTwice.exchanges.get? 0 = some x ∧ x.desk = .shared ∧
      x.conversation.ended = false ∧ joinedTwice.isRegistered 0 x = false := by
  have h : (joinedTwice.exchanges.get? 0).map (fun x =>
      (x.desk, x.conversation.ended, joinedTwice.isRegistered 0 x)) =
      some (.shared, false, false) := by decide +kernel
  obtain ⟨x, hx, hfields⟩ := Option.map_eq_some_iff.mp h
  simp only [Prod.mk.injEq] at hfields
  exact ⟨x, reaches_joinedTwice, by decide +kernel, hx, hfields⟩

end Machine
end Colloquy
