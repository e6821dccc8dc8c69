/-
Who holds a topic, and who lets go of it.

Servers and inboxes share channels.  Each gives its own handler to its own topic, and several of
them can have the same topic: then the first one holds it, and the others fail until it is free.  To
let go of a topic only its name is told to the channels, and nobody checks whose handler it has.

An inbox lets go only if it is marked, when its last member leaves, and as `Truthful` says its mark
tells whether it holds the topic.  A server lets go whenever it is stopped.  If it is stopped while
somebody else holds its topic, it `Intrudes`: it takes that one's handler, and the mark of an inbox
can be wrong from then on.  As long as nobody intrudes on a topic, it keeps its handler until the
one who holds it lets go.
-/
import Colloquy.Proofs.Balance
import Colloquy.Proofs.Upkeep

namespace Colloquy

/-- Who can hold a topic: a server or an inbox, by number. -/
inductive Party where
  | server (k : Nat)
  | inbox (j : Nat)
  deriving DecidableEq

/-- The servers and inboxes that share channels.  No two have the same handler. -/
structure Parties (η : Type) where
  topic : Party → String
  handler : Party → η
  apart : Function.Injective handler

/-- Channels with the inboxes on them. -/
structure Shared (η : Type) where
  channels : Channels η
  inboxes : Nat → Inbox

/-- What is asked of servers and inboxes. -/
inductive Demand where
  | listen (k : Nat)
  | stop (k : Nat)
  | register (j : Nat) (correlation : String) (member : Nat)
  | unregister (j : Nat) (correlation : String) (member : Nat)

namespace Channels

variable {η : Type} {c d : Channels η} {topic : String} {handler : η}

/-- A subscription that succeeds gives a handler to a topic that has none, and one that fails
changes no handler. -/
theorem Faithful.subscribe_sets (hc : c.Faithful) (topic : String) (handler : η) :
    (∃ d, c.subscribe topic handler = (.ok (), d) ∧ c.handler? topic = none ∧
        ∀ t, d.handler? t = if t = topic then some handler else c.handler? t) ∨
      ∃ why d, c.subscribe topic handler = (.error why, d) ∧ ∀ t, d.handler? t = c.handler? t := by
  cases hs : c.subscribe topic handler with
  | mk r d =>
    cases r with
    | error why =>
      exact .inr ⟨why, d, rfl, fun t => (hc.subscribe_error hs).handler t trivial⟩
    | ok u =>
      obtain ⟨hagree, hhandler⟩ := subscribe_ok hc.sound hs
      have htried : (c.trySubscribe topic handler).1 = .ok true := by
        rw [hc.subscribe_eq] at hs
        cases hr : (c.trySubscribe topic handler).1 with
        | error why =>
          rw [hr] at hs
          cases hs
        | ok first =>
          cases first with
          | true => rfl
          | false => exact absurd hr (hc.tries topic handler).first
      have hnone : c.handler? topic = none := ((hc.tries topic handler).succeeds.mp htried).2.2.1
      refine .inl ⟨d, rfl, hnone, fun t => ?_⟩
      by_cases ht : t = topic
      · rw [if_pos ht, ht]
        exact hhandler
      · rw [if_neg ht]
        exact hagree.handler t ht

/-- Letting go of a topic takes its handler, whosever it is, and no other. -/
theorem unsubscribe_handler? (hc : c.Sound) (topic t : String) :
    (c.unsubscribe topic).2.handler? t = if t = topic then none else c.handler? t := by
  obtain ⟨hagree, hnone⟩ := unsubscribe_agree hc topic
  by_cases ht : t = topic
  · rw [if_pos ht, ht]
    rw [isSubscribed, Option.isSome_eq_false_iff, Option.isNone_iff_eq_none] at hnone
    exact hnone
  · rw [if_neg ht]
    exact hagree.handler t ht

theorem New.handler? (h : c.New) (t : String) : c.handler? t = none := by
  obtain ⟨validateTopics, agent, -, -⟩ := h
  rfl

theorem unsubscribe_of_not_cached (h : c.consumers.get? topic = none) :
    c.unsubscribe topic = (.ok (), c) := by
  simp only [unsubscribe, h]

end Channels

namespace Inbox

variable {η : Type} {i : Inbox} {c : Channels η}

/-- A member that registers subscribes the topic, or leaves the handlers as they were.  It fails
only without a subscription. -/
theorem register_sets (hi : i.Balanced) (hc : c.Faithful) (correlation : String) (member : Nat)
    (handler : η) {r : Except Failure Unit} {i' : Inbox} {d : Channels η}
    (h : i.register correlation member handler c = (r, i', d)) :
    d.Faithful ∧
      ((i.subscribed = false ∧ i'.subscribed = true ∧ r = .ok () ∧ c.handler? i.topic = none ∧
          ∀ t, d.handler? t = if t = i.topic then some handler else c.handler? t) ∨
        (i'.subscribed = i.subscribed ∧ (r = .ok () → i.subscribed = true) ∧
          ∀ t, d.handler? t = c.handler? t)) := by
  have hrecord : (c.record (i.displacement correlation member)).Faithful :=
    hc.aside (.refl hc.broker) rfl rfl (le_refl _) rfl
  have hsame : ∀ t, (c.record (i.displacement correlation member)).handler? t = c.handler? t :=
    fun _ => rfl
  have herror : ∀ why, r = .error why → i' = i := by
    rintro why rfl
    exact hi.register_error h
  cases hsub : i.subscribed with
  | true =>
    simp only [register, enter, hsub, if_true] at h
    cases h
    exact ⟨hrecord, .inr ⟨rfl, fun _ => rfl, hsame⟩⟩
  | false =>
    have hafter := hrecord.subscribe i.topic handler
    obtain ⟨e, hs, hnone, hsets⟩ | ⟨why, e, hs, hsets⟩ :=
      hrecord.subscribe_sets i.topic handler
    · simp only [register, enter, hsub, hs, if_false, Bool.false_eq_true] at h
      rw [hs] at hafter
      cases h
      exact ⟨hafter, .inl ⟨rfl, rfl, rfl, hnone, hsets⟩⟩
    · simp only [register, enter, hsub, hs, if_false, Bool.false_eq_true] at h
      rw [hs] at hafter
      obtain ⟨rfl, hrest⟩ := Prod.mk.inj h
      obtain ⟨-, rfl⟩ := Prod.mk.inj hrest
      refine ⟨hafter.aside (.refl hafter.broker) rfl rfl (le_refl _) rfl, .inr ⟨?_, ?_, hsets⟩⟩
      · rw [herror why rfl, hsub]
      · intro hok
        cases hok

/-- A member is the last one to leave an inbox. -/
def Last (i : Inbox) (correlation : String) (member : Nat) : Prop :=
  i.members.get? correlation = some member ∧ i.members.size = 1

/-- The last member to leave takes the handler of the topic along, and any other one leaves the
handlers as they were. -/
theorem unregister_sets (hi : i.Balanced) (hc : c.Faithful) (correlation : String) (member : Nat)
    {i' : Inbox} {d : Channels η} (h : i.unregister correlation member c = (i', d)) :
    d.Faithful ∧
      ((i.Last correlation member ∧ i.subscribed = true ∧ i'.subscribed = false ∧
          ∀ t, d.handler? t = if t = i.topic then none else c.handler? t) ∨
        (i'.subscribed = i.subscribed ∧ ∀ t, d.handler? t = c.handler? t)) := by
  unfold unregister at h
  by_cases hm : i.members.get? correlation = some member
  · have hstrike : i.strike correlation member =
        { i with members := i.members.erase correlation, live := i.live - 1 } := by
      rw [strike, if_pos hm]
    rw [if_pos hm] at h
    simp only [hstrike] at h
    split at h
    · rename_i hlast
      simp only [Bool.and_eq_true, decide_eq_true_eq] at hlast
      obtain ⟨hzero, hsub⟩ := hlast
      have hpos := hi.subscribed.mp hsub
      have hsize : i.members.size = 1 := by
        rw [← hi.live]
        omega
      have hafter := hc.unsubscribe i.topic
      have hsets := Channels.unsubscribe_handler? hc.sound i.topic
      cases hu : c.unsubscribe i.topic with
      | mk r e =>
        rw [hu] at hafter hsets
        rw [hu] at h
        cases r with
        | ok u =>
          cases h
          exact ⟨hafter, .inl ⟨⟨hm, hsize⟩, hsub, rfl, hsets⟩⟩
        | error why =>
          cases h
          exact ⟨hafter.aside (.refl hafter.broker) rfl rfl (le_refl _) rfl,
            .inl ⟨⟨hm, hsize⟩, hsub, rfl, hsets⟩⟩
    · cases h
      exact ⟨hc, .inr ⟨rfl, fun _ => rfl⟩⟩
  · rw [if_neg hm] at h
    cases h
    exact ⟨hc, .inr ⟨rfl, fun _ => rfl⟩⟩

end Inbox

namespace Parties

variable {η : Type} {p : Parties η} {s s' start : Shared η} {topic : String} {o : Party}
  {log : List (Shared η × Demand)} {q : Demand} {r : Except Failure Unit}

/-! ## Runs -/

/-- Do what is asked, and tell whether it failed. -/
def perform (p : Parties η) (s : Shared η) : Demand → Except Failure Unit × Shared η
  | .listen k =>
    let (r, c) := s.channels.subscribe (p.topic (.server k)) (p.handler (.server k))
    (r, { s with channels := c })
  | .stop k =>
    let (r, c) := s.channels.unsubscribe (p.topic (.server k))
    (r, { s with channels := c })
  | .register j correlation member =>
    let (r, i, c) :=
      (s.inboxes j).register correlation member (p.handler (.inbox j)) s.channels
    (r, { channels := c, inboxes := Function.update s.inboxes j i })
  | .unregister j correlation member =>
    let (i, c) := (s.inboxes j).unregister correlation member s.channels
    (.ok (), { channels := c, inboxes := Function.update s.inboxes j i })

/-- Channels that nothing was asked of, and empty inboxes. -/
structure Fresh (p : Parties η) (s : Shared η) : Prop where
  channels : s.channels.New
  inboxes : ∀ j, s.inboxes j = { topic := p.topic (.inbox j) }

/-- Others do not shut the channels down, nor let go of a topic, nor pose as one of the parties. -/
def Spares (p : Parties η) (call : Channels.Call η) : Prop :=
  call ≠ .operate .shutdown ∧ (∀ t, call ≠ .operate (.unsubscribe t)) ∧
    ∀ t o, call ≠ .operate (.subscribe t (p.handler o))

/-- The parties have come from `start` to `s` with these demands, each noted with the state in
which it was made.  In between others use the channels and their broker. -/
inductive Runs (p : Parties η) (start : Shared η) : List (Shared η × Demand) → Shared η → Prop where
  | start : Runs p start [] start
  | demand {log : List (Shared η × Demand)} {s : Shared η} (q : Demand) : Runs p start log s →
      Runs p start (log ++ [(s, q)]) (p.perform s q).2
  | beside {log : List (Shared η × Demand)} {s : Shared η} {calls : List (Channels.Call η)}
      {c : Channels η} : Runs p start log s → s.channels.Leads calls c →
      (∀ call ∈ calls, p.Spares call) → Runs p start log { s with channels := c }

/-- The topic of a party has the handler of that party. -/
def Holds (p : Parties η) (o : Party) (s : Shared η) : Prop :=
  s.channels.handler? (p.topic o) = some (p.handler o)

/-- A party asks for its topic: the server listens, or a member registers. -/
def Seeks : Party → Demand → Prop
  | .server k, .listen k' => k = k'
  | .inbox j, .register j' _ _ => j = j'
  | _, _ => False

theorem Seeks.unique {o' : Party} (h : Seeks o q) (h' : Seeks o' q) : o = o' := by
  cases q with
  | listen k =>
    cases o with
    | inbox j => cases h
    | server i =>
      cases o' with
      | inbox j => cases h'
      | server i' => exact congrArg Party.server (h.trans h'.symm)
  | register k correlation member =>
    cases o with
    | server i => cases h
    | inbox j =>
      cases o' with
      | server i => cases h'
      | inbox j' => exact congrArg Party.inbox (h.trans h'.symm)
  | _ => cases o <;> cases h

/-- A party lets go of its topic: the server is stopped, or the last member of the inbox leaves. -/
def LetsGo : Party → Shared η × Demand → Prop
  | .server k, (_, .stop k') => k = k'
  | .inbox j, (s, .unregister j' correlation member) =>
    j = j' ∧ (s.inboxes j).Last correlation member
  | _, _ => False

/-- A server is stopped while its topic has the handler of somebody else. -/
def Intrudes (p : Parties η) (topic : String) : Shared η × Demand → Prop
  | (s, .stop k) => p.topic (.server k) = topic ∧
      ∃ x, s.channels.handler? topic = some x ∧ x ≠ p.handler (.server k)
  | _ => False

/-! ## Others -/

/-- Others leave the handlers of the topics alone, except that they give handlers of their own to
topics that have none. -/
theorem handler?_of_leads {c d : Channels η} {calls : List (Channels.Call η)}
    (hleads : c.Leads calls d) (hc : c.Faithful) (hcalls : ∀ call ∈ calls, p.Spares call)
    (t : String) :
    d.handler? t = c.handler? t ∨
      (c.handler? t = none ∧ ∃ x, d.handler? t = some x ∧ ∀ o, x ≠ p.handler o) := by
  induction hleads with
  | start => exact .inl rfl
  | @operate log e operation hleads ih =>
    obtain ⟨hothers, hlast⟩ := List.forall_mem_append.mp hcalls
    obtain ⟨hrunning, hkeeps, hforeign⟩ := hlast _ (List.mem_singleton_self _)
    have hbefore := ih hothers
    have he := hleads.faithful hc
    cases operation with
    | producer u =>
      have hagree := Channels.producer_agree (P := fun _ => True) he.sound u
      rw [show (e.operate (.producer u)).2.handler? t = e.handler? t from hagree.handler t trivial]
      exact hbefore
    | consumer u =>
      have hagree := Channels.consumer_agree (P := fun _ => True) he.sound u
      rw [show (e.operate (.consumer u)).2.handler? t = e.handler? t from hagree.handler t trivial]
      exact hbefore
    | subscribe u y =>
      obtain ⟨f, hs, hnone, hsets⟩ | ⟨why, f, hs, hsame⟩ := he.subscribe_sets u y
      · have hafter : (e.operate (.subscribe u y)).2 = f := by simp only [Channels.operate, hs]
        rw [hafter, hsets t]
        by_cases ht : t = u
        · subst ht
          rw [if_pos rfl]
          obtain hsame | ⟨-, x, hx, -⟩ := hbefore
          · refine .inr ⟨hsame.symm.trans hnone, y, rfl, fun o ho => ?_⟩
            exact hforeign t o (by rw [ho])
          · cases hx.symm.trans hnone
        · rw [if_neg ht]
          exact hbefore
      · have hafter : (e.operate (.subscribe u y)).2 = f := by simp only [Channels.operate, hs]
        rw [hafter, hsame t]
        exact hbefore
    | unsubscribe u => exact absurd rfl (hkeeps u)
    | shutdown => exact absurd rfl hrunning
  | join _ _ ih => exact ih (List.forall_mem_append.mp hcalls).1
  | leave _ _ ih => exact ih (List.forall_mem_append.mp hcalls).1
  | aside _ _ _ _ _ ih => exact ih hcalls

/-- So whether a party holds its topic is nothing that others change. -/
theorem holds_of_leads {c : Channels η} {calls : List (Channels.Call η)}
    (hleads : s.channels.Leads calls c) (hs : s.channels.Faithful)
    (hcalls : ∀ call ∈ calls, p.Spares call) (o : Party) :
    p.Holds o { s with channels := c } ↔ p.Holds o s := by
  obtain hsame | ⟨hnone, x, hx, hforeign⟩ := handler?_of_leads hleads hs hcalls (p.topic o)
  · exact (Eq.congr_left hsame)
  · constructor
    · intro h
      exact absurd (Option.some.inj (hx.symm.trans h)) (hforeign o)
    · intro h
      cases h.symm.trans hnone

/-! ## What demands do -/

/-- Channels in order, and balanced inboxes, each with its own topic. -/
structure Ordered (p : Parties η) (s : Shared η) : Prop where
  channels : s.channels.Faithful
  balanced : ∀ j, (s.inboxes j).Balanced
  topic : ∀ j, (s.inboxes j).topic = p.topic (.inbox j)

theorem Fresh.ordered (h : p.Fresh s) : p.Ordered s where
  channels := h.channels.faithful
  balanced := fun j => by
    rw [h.inboxes]
    exact .start _
  topic := fun j => by rw [h.inboxes]

/-- The topic `t` comes to have the handler `x`, and no other topic another one. -/
def Sets (t : String) (x : Option η) (s s' : Shared η) : Prop :=
  ∀ u, s'.channels.handler? u = if u = t then x else s.channels.handler? u

def marked (s : Shared η) (j : Nat) : Bool := (s.inboxes j).subscribed

/-- What a demand does to the handlers of the topics and to the marks of the inboxes. -/
inductive Effect (p : Parties η) (s : Shared η) :
    Demand → Except Failure Unit → Shared η → Prop where
  /-- A party takes its topic, which is free. -/
  | takes {q : Demand} {s' : Shared η} (o : Party) : Seeks o q →
      s.channels.handler? (p.topic o) = none → Sets (p.topic o) (some (p.handler o)) s s' →
      (∀ j, marked s' j = if o = .inbox j then true else marked s j) →
      Effect p s q (.ok ()) s'
  /-- A server is stopped, and its topic becomes free. -/
  | stops {r : Except Failure Unit} {s' : Shared η} (k : Nat) :
      Sets (p.topic (.server k)) none s s' → (∀ j, marked s' j = marked s j) →
      Effect p s (.stop k) r s'
  /-- The last member leaves an inbox that is marked, and its topic becomes free. -/
  | empties {s' : Shared η} {correlation : String} {member : Nat} (j : Nat) :
      (s.inboxes j).Last correlation member → marked s j = true →
      Sets (p.topic (.inbox j)) none s s' →
      (∀ i, marked s' i = if i = j then false else marked s i) →
      Effect p s (.unregister j correlation member) (.ok ()) s'
  /-- Nothing becomes of the handlers and marks.  If that is a success, an inbox was marked. -/
  | spares {q : Demand} {r : Except Failure Unit} {s' : Shared η} : (∀ k, q ≠ .stop k) →
      (∀ o, Seeks o q → r = .ok () → ∃ j, o = .inbox j ∧ marked s j = true) →
      (∀ u, s'.channels.handler? u = s.channels.handler? u) →
      (∀ j, marked s' j = marked s j) → Effect p s q r s'

theorem marked_update (s : Shared η) (c : Channels η) (j : Nat) (i : Inbox) (k : Nat) :
    marked { channels := c, inboxes := Function.update s.inboxes j i } k =
      if k = j then i.subscribed else marked s k := by
  show (Function.update s.inboxes j i k).subscribed = _
  by_cases hk : k = j
  · rw [if_pos hk, hk, Function.update_self]
  · rw [if_neg hk, Function.update_of_ne hk]
    rfl

/-- An inbox is changed, and keeps its topic. -/
theorem Ordered.update (h : p.Ordered s) {c : Channels η} (hc : c.Faithful) {j : Nat} {i : Inbox}
    (hi : i.Balanced) (ht : i.topic = (s.inboxes j).topic) :
    p.Ordered { channels := c, inboxes := Function.update s.inboxes j i } := by
  refine ⟨hc, fun k => ?_, fun k => ?_⟩
  · show (Function.update s.inboxes j i k).Balanced
    by_cases hk : k = j
    · rw [hk, Function.update_self]
      exact hi
    · rw [Function.update_of_ne hk]
      exact h.balanced k
  · show (Function.update s.inboxes j i k).topic = _
    by_cases hk : k = j
    · rw [hk, Function.update_self, ht]
      exact h.topic j
    · rw [Function.update_of_ne hk]
      exact h.topic k

/-- The result of a demand that is not for an inbox. -/
theorem Ordered.with_channels (h : p.Ordered s) {c : Channels η} (hc : c.Faithful) :
    p.Ordered { s with channels := c } :=
  ⟨hc, h.balanced, h.topic⟩

theorem Ordered.listen (h : p.Ordered s) (k : Nat) :
    p.Ordered (p.perform s (.listen k)).2 ∧
      p.Effect s (.listen k) (p.perform s (.listen k)).1 (p.perform s (.listen k)).2 := by
  have hafter := h.channels.subscribe (p.topic (.server k)) (p.handler (.server k))
  refine ⟨h.with_channels hafter, ?_⟩
  obtain ⟨d, hs, hnone, hsets⟩ | ⟨why, d, hs, hsame⟩ :=
    h.channels.subscribe_sets (p.topic (.server k)) (p.handler (.server k))
  · simp only [perform, hs]
    exact .takes (.server k) rfl hnone hsets fun j => rfl
  · simp only [perform, hs]
    refine .spares (fun _ hq => by cases hq) (fun _ _ hr => by cases hr) hsame fun _ => rfl

theorem Ordered.stop (h : p.Ordered s) (k : Nat) :
    p.Ordered (p.perform s (.stop k)).2 ∧
      p.Effect s (.stop k) (p.perform s (.stop k)).1 (p.perform s (.stop k)).2 := by
  have hafter := h.channels.unsubscribe (p.topic (.server k))
  exact ⟨h.with_channels hafter,
    .stops k (Channels.unsubscribe_handler? h.channels.sound _) fun _ => rfl⟩

theorem Ordered.register (h : p.Ordered s) (j : Nat) (correlation : String) (member : Nat) :
    p.Ordered (p.perform s (.register j correlation member)).2 ∧
      p.Effect s (.register j correlation member) (p.perform s (.register j correlation member)).1
        (p.perform s (.register j correlation member)).2 := by
  have hbalanced := (h.balanced j).register correlation member (p.handler (.inbox j)) s.channels
  have htopic := (s.inboxes j).register_topic correlation member (p.handler (.inbox j)) s.channels
  simp only [perform]
  cases hr : (s.inboxes j).register correlation member (p.handler (.inbox j)) s.channels with
  | mk r rest =>
    obtain ⟨i, d⟩ := rest
    rw [hr] at hbalanced htopic
    obtain ⟨hd, hcases⟩ := Inbox.register_sets (h.balanced j) h.channels correlation member _ hr
    rw [h.topic] at hcases
    refine ⟨h.update hd hbalanced htopic, ?_⟩
    obtain ⟨hsub, hmark, rfl, hnone, hsets⟩ | ⟨hmark, hok, hsame⟩ := hcases
    · refine .takes (.inbox j) rfl hnone hsets fun k => ?_
      rw [marked_update, hmark]
      by_cases hk : k = j
      · rw [if_pos hk, if_pos (by rw [hk])]
      · rw [if_neg hk, if_neg fun heq => hk (Party.inbox.inj heq).symm]
    · refine .spares (fun _ hq => by cases hq) ?_ hsame fun k => ?_
      · intro o ho hr'
        cases o with
        | server k => cases ho
        | inbox j' =>
          have hj : j' = j := ho
          exact ⟨j', rfl, hj ▸ hok hr'⟩
      · rw [marked_update, hmark]
        by_cases hk : k = j
        · rw [if_pos hk, hk]
          rfl
        · rw [if_neg hk]

theorem Ordered.unregister (h : p.Ordered s) (j : Nat) (correlation : String) (member : Nat) :
    p.Ordered (p.perform s (.unregister j correlation member)).2 ∧
      p.Effect s (.unregister j correlation member)
        (p.perform s (.unregister j correlation member)).1
        (p.perform s (.unregister j correlation member)).2 := by
  have hbalanced := (h.balanced j).unregister correlation member s.channels
  have htopic := (s.inboxes j).unregister_topic correlation member s.channels
  simp only [perform]
  cases hr : (s.inboxes j).unregister correlation member s.channels with
  | mk i d =>
    rw [hr] at hbalanced htopic
    obtain ⟨hd, hcases⟩ := Inbox.unregister_sets (h.balanced j) h.channels correlation member hr
    rw [h.topic] at hcases
    refine ⟨h.update hd hbalanced htopic, ?_⟩
    obtain ⟨hlast, hsub, hmark, hsets⟩ | ⟨hmark, hsame⟩ := hcases
    · refine .empties j hlast hsub hsets fun k => ?_
      rw [marked_update, hmark]
    · refine .spares (fun _ hq => by cases hq) ?_ hsame fun k => ?_
      · intro o ho _
        cases o <;> cases ho
      · rw [marked_update, hmark]
        by_cases hk : k = j
        · rw [if_pos hk, hk]
          rfl
        · rw [if_neg hk]

theorem Ordered.perform (h : p.Ordered s) (q : Demand) :
    p.Ordered (p.perform s q).2 ∧ p.Effect s q (p.perform s q).1 (p.perform s q).2 := by
  cases q with
  | listen k => exact h.listen k
  | stop k => exact h.stop k
  | register j correlation member => exact h.register j correlation member
  | unregister j correlation member => exact h.unregister j correlation member

theorem Ordered.runs (hs : p.Ordered start) (h : p.Runs start log s) : p.Ordered s := by
  induction h with
  | start => exact hs
  | demand q _ ih => exact (ih.perform q).1
  | beside _ hleads _ ih => exact ih.with_channels (hleads.faithful ih.channels)

/-! ## Marks -/

theorem Holds.unique {o' : Party} (h : p.Holds o s) (h' : p.Holds o' s)
    (ht : p.topic o = p.topic o') : o = o' := by
  unfold Holds at h h'
  rw [ht, h'] at h
  exact p.apart (Option.some.inj h).symm

theorem Sets.holds {x : Option η} (h : Sets topic x s s') (ho : p.topic o = topic) :
    p.Holds o s' ↔ x = some (p.handler o) := by
  unfold Holds
  rw [h, if_pos ho]

theorem Sets.holds_other {x : Option η} (h : Sets topic x s s') (ho : p.topic o ≠ topic) :
    p.Holds o s' ↔ p.Holds o s := by
  unfold Holds
  rw [h, if_neg ho]

/-- The inboxes on a topic are marked if they hold it, and only then. -/
def Truthful (p : Parties η) (topic : String) (s : Shared η) : Prop :=
  ∀ j, p.topic (.inbox j) = topic → (marked s j = true ↔ p.Holds (.inbox j) s)

theorem Fresh.not_holds (h : p.Fresh s) (o : Party) : ¬p.Holds o s := by
  rw [Holds, h.channels.handler?]
  intro hnone
  cases hnone

theorem Fresh.truthful (h : p.Fresh s) (topic : String) : p.Truthful topic s := by
  intro j _
  have hunmarked : marked s j = false := by
    rw [marked, h.inboxes]
  rw [hunmarked]
  constructor
  · intro hmark
    cases hmark
  · exact fun hholds => absurd hholds (h.not_holds _)

/-- Unless somebody intrudes on the topic, the marks stay true. -/
theorem Effect.truthful (h : p.Effect s q r s') (hs : p.Truthful topic s)
    (hq : ¬p.Intrudes topic (s, q)) : p.Truthful topic s' := by
  intro j hj
  have hbefore := hs j hj
  cases h with
  | takes o _ hfree hsets hmarks =>
    rw [hmarks]
    by_cases ho : o = .inbox j
    · subst ho
      rw [if_pos rfl, hsets.holds rfl]
      exact ⟨fun _ => rfl, fun _ => rfl⟩
    · rw [if_neg ho, hbefore]
      by_cases ht : p.topic (.inbox j) = p.topic o
      · rw [hsets.holds ht]
        constructor
        · intro hholds
          rw [Holds, ht, hfree] at hholds
          cases hholds
        · exact fun heq => absurd (p.apart (Option.some.inj heq)) ho
      · exact (hsets.holds_other ht).symm
  | stops k hsets hmarks =>
    rw [hmarks, hbefore]
    by_cases ht : p.topic (.inbox j) = p.topic (.server k)
    · rw [hsets.holds ht]
      constructor
      · -- To stop the server is to intrude, if the inbox holds the topic.
        intro hholds
        rw [Holds, hj] at hholds
        refine absurd ⟨ht.symm.trans hj, _, hholds, fun heq => ?_⟩ hq
        cases p.apart heq
      · intro heq
        cases heq
    · exact (hsets.holds_other ht).symm
  | empties i hlast hmark hsets hmarks =>
    rw [hmarks]
    by_cases hi : j = i
    · subst hi
      rw [if_pos rfl, hsets.holds rfl]
      simp
    · rw [if_neg hi, hbefore]
      by_cases ht : p.topic (.inbox j) = p.topic (.inbox i)
      · rw [hsets.holds ht]
        constructor
        · intro hholds
          have hholder := (hs i (ht.symm.trans hj)).mp hmark
          exact absurd (Party.inbox.inj (hholds.unique hholder ht)) hi
        · intro heq
          cases heq
      · exact (hsets.holds_other ht).symm
  | spares _ _ hsame hmarks =>
    rw [hmarks, hbefore, Holds, Holds, hsame]

theorem Truthful.runs (hstart : p.Truthful topic start) (hs : p.Ordered start)
    (h : p.Runs start log s) (hlog : ∀ e ∈ log, ¬p.Intrudes topic e) : p.Truthful topic s := by
  induction h with
  | start => exact hstart
  | demand q hruns ih =>
    obtain ⟨hothers, hlast⟩ := List.forall_mem_append.mp hlog
    exact ((hs.runs hruns).perform q).2.truthful (ih hothers) (hlast _ (List.mem_singleton_self _))
  | beside hruns hleads hcalls ih =>
    intro j hj
    rw [holds_of_leads hleads (hs.runs hruns).channels hcalls]
    exact ih hlog j hj

/-! ## Holders -/

/-- A party that asks for its topic and succeeds holds it. -/
theorem Effect.holds (h : p.Effect s q (.ok ()) s') (hs : p.Truthful (p.topic o) s)
    (hq : Seeks o q) : p.Holds o s' := by
  generalize hr : Except.ok () = r at h
  cases h with
  | takes o' ho' _ hsets _ =>
    obtain rfl := hq.unique ho'
    exact (hsets.holds rfl).mpr rfl
  | stops k _ _ => cases o <;> cases hq
  | empties j _ _ _ _ => cases o <;> cases hq
  | spares _ hseeks hsame _ =>
    obtain ⟨j, rfl, hmark⟩ := hseeks o hq hr.symm
    rw [Holds, hsame]
    exact (hs j rfl).mp hmark

/-- The holder of a topic keeps it, unless somebody intrudes or it lets go itself. -/
theorem Effect.keeps (h : p.Effect s q r s') (hs : p.Truthful (p.topic o) s)
    (hq : ¬p.Intrudes (p.topic o) (s, q)) (hgo : ¬LetsGo o (s, q)) (ho : p.Holds o s) :
    p.Holds o s' := by
  cases h with
  | takes o' _ hfree hsets _ =>
    have ht : p.topic o ≠ p.topic o' := by
      intro ht
      rw [Holds, ht, hfree] at ho
      cases ho
    exact (hsets.holds_other ht).mpr ho
  | stops k hsets _ =>
    by_cases ht : p.topic o = p.topic (.server k)
    · refine absurd ⟨ht.symm, _, ho, fun heq => ?_⟩ hq
      rw [p.apart heq] at hgo
      exact hgo rfl
    · exact (hsets.holds_other ht).mpr ho
  | empties j hlast hmark hsets _ =>
    by_cases ht : p.topic o = p.topic (.inbox j)
    · have hj : o = .inbox j := ho.unique ((hs j ht.symm).mp hmark) ht
      subst hj
      exact absurd ⟨rfl, hlast⟩ hgo
    · exact (hsets.holds_other ht).mpr ho
  | spares _ _ hsame _ =>
    rw [Holds, hsame]
    exact ho

theorem Holds.runs (ho : p.Holds o start) (hs : p.Ordered start)
    (htrue : p.Truthful (p.topic o) start) (h : p.Runs start log s)
    (hlog : ∀ e ∈ log, ¬p.Intrudes (p.topic o) e ∧ ¬LetsGo o e) : p.Holds o s := by
  induction h with
  | start => exact ho
  | demand q hruns ih =>
    obtain ⟨hothers, hlast⟩ := List.forall_mem_append.mp hlog
    obtain ⟨hquiet, hstays⟩ := hlast _ (List.mem_singleton_self _)
    have hmarks := htrue.runs hs hruns fun e he => (hothers e he).1
    exact ((hs.runs hruns).perform q).2.keeps hmarks hquiet hstays (ih hothers)
  | beside hruns hleads hcalls ih =>
    exact (holds_of_leads hleads (hs.runs hruns).channels hcalls o).mpr (ih hlog)

/-- A server that holds its topic has listened, and succeeded. -/
theorem Runs.listened (h : p.Runs start log s) (hstart : p.Fresh start) {k : Nat}
    (hk : p.Holds (.server k) s) :
    ∃ e ∈ log, e.2 = .listen k ∧ (p.perform e.1 e.2).1 = .ok () := by
  induction h with
  | start => exact absurd hk (hstart.not_holds _)
  | @demand log s q hruns ih =>
    have heffect := ((hstart.ordered.runs hruns).perform q).2
    have hold : p.Holds (.server k) s → ∃ e ∈ log ++ [(s, q)], e.2 = .listen k ∧
        (p.perform e.1 e.2).1 = .ok () := by
      intro hbefore
      obtain ⟨e, he, hlistened⟩ := ih hbefore
      exact ⟨e, List.mem_append_left _ he, hlistened⟩
    generalize hr : (p.perform s q).1 = r at heffect
    generalize (p.perform s q).2 = s' at heffect hk
    cases heffect with
    | takes o ho hfree hsets _ =>
      by_cases ht : p.topic (.server k) = p.topic o
      · have hhandler := (hsets.holds ht).mp hk
        have hok : o = .server k := p.apart (Option.some.inj hhandler)
        subst hok
        cases q with
        | listen k' =>
          have hk' : k = k' := ho
          exact ⟨(s, .listen k'), by simp, by rw [hk'], hr⟩
        | _ => cases ho
      · exact hold ((hsets.holds_other ht).mp hk)
    | stops k' hsets _ =>
      by_cases ht : p.topic (.server k) = p.topic (.server k')
      · cases (hsets.holds ht).mp hk
      · exact hold ((hsets.holds_other ht).mp hk)
    | empties j _ _ hsets _ =>
      by_cases ht : p.topic (.server k) = p.topic (.inbox j)
      · cases (hsets.holds ht).mp hk
      · exact hold ((hsets.holds_other ht).mp hk)
    | spares _ _ hsame _ =>
      rw [Holds, hsame] at hk
      exact hold hk
  | beside hruns hleads hcalls ih =>
    exact ih ((holds_of_leads hleads (hstart.ordered.runs hruns).channels hcalls _).mp hk)

/-- In every run of servers and inboxes on shared channels, a party that asks for its topic and
succeeds holds it from then on until it lets go itself, as long as nobody intrudes on the topic.
To stop a server frees its topic, whoever holds it, and changes no other.  A server that never
listened with success does not hold its topic, so stopping it changes no handler unless it
intrudes, and nothing at all if its topic has no consumer. -/
theorem Runs.held_until_let_go (hstart : p.Fresh start) (h : p.Runs start log s) :
    (∀ o q, Seeks o q → (p.perform s q).1 = .ok () →
      ∀ log' s', p.Runs (p.perform s q).2 log' s' →
        (∀ e ∈ log ++ log', ¬p.Intrudes (p.topic o) e) → (∀ e ∈ log', ¬LetsGo o e) →
        p.Holds o s') ∧
      (∀ k t, (p.perform s (.stop k)).2.channels.handler? t =
        if t = p.topic (.server k) then none else s.channels.handler? t) ∧
      (∀ k, (∀ e ∈ log, e.2 = .listen k → (p.perform e.1 e.2).1 ≠ .ok ()) →
        ¬p.Holds (.server k) s ∧
          (¬p.Intrudes (p.topic (.server k)) (s, .stop k) →
            ∀ t, (p.perform s (.stop k)).2.channels.handler? t = s.channels.handler? t)) ∧
      ∀ k, s.channels.consumers.get? (p.topic (.server k)) = none →
        p.perform s (.stop k) = (.ok (), s) := by
  have hs := hstart.ordered.runs h
  have hstops := fun k t =>
    Channels.unsubscribe_handler? hs.channels.sound (p.topic (.server k)) t
  refine ⟨?_, hstops, ?_, ?_⟩
  · intro o q hq hok log' s' hruns hquiet hstays
    obtain ⟨hbefore, hafter⟩ := List.forall_mem_append.mp hquiet
    obtain ⟨hordered, heffect⟩ := hs.perform q
    have htrue := (hstart.truthful (p.topic o)).runs hstart.ordered h hbefore
    have hnot : ¬p.Intrudes (p.topic o) (s, q) := by
      cases q with
      | stop k => cases o <;> cases hq
      | _ => exact fun h => h
    rw [hok] at heffect
    exact (heffect.holds htrue hq).runs hordered (heffect.truthful htrue hnot) hruns
      fun e he => ⟨hafter e he, hstays e he⟩
  · intro k hnever
    have hnot : ¬p.Holds (.server k) s := by
      intro hk
      obtain ⟨e, he, hlisten, hok⟩ := h.listened hstart hk
      exact hnever e he hlisten hok
    refine ⟨hnot, fun hquiet t => ?_⟩
    refine (hstops k t).trans ?_
    by_cases ht : t = p.topic (.server k)
    · rw [if_pos ht, ht]
      cases hx : s.channels.handler? (p.topic (.server k)) with
      | none => rfl
      | some x =>
        refine absurd ⟨rfl, x, hx, fun heq => ?_⟩ hquiet
        rw [heq] at hx
        exact hnot hx
    · rw [if_neg ht]
  · intro k hnone
    simp only [perform, Channels.unsubscribe_of_not_cached hnone]

/-- Two servers of one namespace, and others. -/
def neighbours : Parties Party where
  topic
    | .server 0 => "it:talk"
    | .server 1 => "it:talk"
    | .server _ => "it:other"
    | .inbox _ => "it:answers"
  handler := id
  apart := Function.injective_id

def neighboursStart : Shared Party where
  channels := { broker := .manual {} }
  inboxes := fun _ => { topic := "it:answers" }

theorem neighbours_fresh : neighbours.Fresh neighboursStart where
  channels := .intro true .silent trivial fun _ _ h => by cases h
  inboxes := fun _ => rfl

/-- A server keeps its namespace while another one of the same namespace listens in vain, a member
comes to an inbox, and a third server is stopped. -/
theorem first_neighbour_stays :
    let s₁ := (neighbours.perform neighboursStart (.listen 0)).2
    let s₂ := (neighbours.perform s₁ (.listen 1)).2
    let s₃ := (neighbours.perform s₂ (.register 0 "talk" 7)).2
    let s₄ := (neighbours.perform s₃ (.stop 2)).2
    (neighbours.perform s₁ (.listen 1)).1 = .error (.alreadySubscribed "it:talk") ∧
      neighbours.Holds (.server 0) s₄ := by
  intro s₁ s₂ s₃ s₄
  obtain ⟨hkeeps, -⟩ := Runs.held_until_let_go neighbours_fresh .start
  have hruns : neighbours.Runs s₁ [(s₁, .listen 1), (s₂, .register 0 "talk" 7), (s₃, .stop 2)] s₄ :=
    .demand (.stop 2) (.demand (.register 0 "talk" 7) (.demand (.listen 1) .start))
  refine ⟨rfl, hkeeps (.server 0) (.listen 0) rfl rfl _ s₄ hruns ?_ ?_⟩
  · simp [Intrudes, neighbours]
  · simp [LetsGo]

/-- A server that listened in vain is stopped, and takes the topic of the one that holds it. -/
theorem second_neighbour_intrudes :
    let s₁ := (neighbours.perform neighboursStart (.listen 0)).2
    let s₂ := (neighbours.perform s₁ (.listen 1)).2
    let s₃ := (neighbours.perform s₂ (.stop 1)).2
    (neighbours.perform neighboursStart (.listen 0)).1 = .ok () ∧
      (neighbours.perform s₁ (.listen 1)).1 = .error (.alreadySubscribed "it:talk") ∧
      neighbours.Holds (.server 0) s₂ ∧ (neighbours.perform s₂ (.stop 1)).1 = .ok () ∧
      ¬neighbours.Holds (.server 0) s₃ := by
  intro s₁ s₂ s₃
  refine ⟨rfl, rfl, rfl, rfl, ?_⟩
  intro h
  cases h

end Parties
end Colloquy
