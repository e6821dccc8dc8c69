/-
The count of an inbox is the number of its members.

An inbox counts its members beside the table that holds them, and keeps a mark that its topic
is subscribed.  `Balanced` says that the three agree, and every call keeps it, whatever the
broker refuses and whatever else becomes of the channels.  Taking a member out again after a
failed subscription is right because of it: without a subscription there were no members.
As long as nobody else takes the topic its handler or gives it one, the mark is also what the
channels say.
-/
import Colloquy.Inbox
import Colloquy.Proofs.Subscription

namespace Colloquy
namespace Inbox

/-- The members are counted right, and the topic is marked as subscribed while there are
some. -/
structure Balanced (i : Inbox) : Prop where
  keys : i.members.keys.Nodup
  live : i.live = i.members.size
  subscribed : i.subscribed = true ↔ 0 < i.live

variable {η : Type} {i j : Inbox} {correlation : String} {self : Nat} {handler : η}
  {c d : Channels η}

theorem Balanced.start (topic : String) : Balanced { topic } where
  keys := List.nodup_nil
  live := rfl
  subscribed := show false = true ↔ 0 < 0 by decide

/-! ## Members -/

theorem enter_live (h : i.live = i.members.size) (correlation : String) (self : Nat) :
    (i.enter correlation self).live = (i.enter correlation self).members.size := by
  by_cases hk : correlation ∈ i.members.keys
  · have hc : i.members.contains correlation = true := Table.contains_eq_true_iff.mpr hk
    simp only [enter, hc, if_true, Table.size_put_of_mem hk, h]
  · have hc : i.members.contains correlation = false := Table.contains_eq_false_iff.mpr hk
    simp only [enter, hc, if_false, Bool.false_eq_true, Table.size_put_of_not_mem hk, h]

theorem enter_get? (i : Inbox) (correlation : String) (self : Nat) :
    (i.enter correlation self).members.get? correlation = some self :=
  Table.get?_put_self ..

theorem enter_pos (h : i.live = i.members.size) (correlation : String) (self : Nat) :
    0 < (i.enter correlation self).live := by
  rw [enter_live h]
  exact Table.size_pos_of_mem (Table.mem_keys_of_get? (enter_get? i correlation self))

/-- Entering a conversation where there was none and striking it out again changes nothing. -/
theorem strike_enter (hk : correlation ∉ i.members.keys) (self : Nat) :
    (i.enter correlation self).strike correlation self = i := by
  have hc : i.members.contains correlation = false := Table.contains_eq_false_iff.mpr hk
  rw [strike, if_pos (enter_get? i correlation self)]
  simp only [enter, hc, if_false, Bool.false_eq_true, Table.erase_put_of_not_mem hk,
    Nat.add_sub_cancel]

theorem strike_live (hkeys : i.members.keys.Nodup) (hlive : i.live = i.members.size)
    (h : i.members.get? correlation = some self) :
    (i.strike correlation self).live + 1 = i.live ∧
      (i.strike correlation self).live = (i.strike correlation self).members.size := by
  have hsize := Table.size_erase hkeys (Table.mem_keys_of_get? h)
  rw [strike, if_pos h]
  constructor <;> simp only <;> omega

namespace Balanced

/-- Without a subscription there are no members. -/
theorem not_mem_keys (h : i.Balanced) (hsub : i.subscribed = false) :
    correlation ∉ i.members.keys := by
  intro hk
  have hpos := Table.size_pos_of_mem hk
  rw [← h.live] at hpos
  rw [h.subscribed.mpr hpos] at hsub
  cases hsub

/-! ## Calls -/

theorem register_error (h : i.Balanced) {why : Failure}
    (hr : i.register correlation self handler c = (.error why, j, d)) : j = i := by
  simp only [register] at hr
  split at hr
  · cases hr
  · rename_i hsub
    split at hr
    · cases hr
    · cases hr
      exact strike_enter (h.not_mem_keys (Bool.eq_false_iff.mpr hsub)) self

theorem register (h : i.Balanced) (correlation : String) (self : Nat) (handler : η)
    (c : Channels η) : (i.register correlation self handler c).2.1.Balanced := by
  have hkeys : (i.enter correlation self).members.keys.Nodup :=
    Table.nodup_keys_put h.keys correlation self
  have hlive := enter_live h.live correlation self
  have hpos := enter_pos h.live correlation self
  cases hr : i.register correlation self handler c with
  | mk r jd =>
    obtain ⟨j, d⟩ := jd
    cases r with
    | error why =>
      rw [h.register_error hr]
      exact h
    | ok u =>
      simp only [Inbox.register] at hr
      split at hr
      · rename_i hsub
        cases hr
        exact ⟨hkeys, hlive, ⟨fun _ => hpos, fun _ => hsub⟩⟩
      · split at hr
        · cases hr
          exact ⟨hkeys, hlive, ⟨fun _ => hpos, fun _ => rfl⟩⟩
        · cases hr

/-- After the last member has left the topic is marked as not subscribed, even if the broker
does not let go of it. -/
theorem unregister (h : i.Balanced) (correlation : String) (self : Nat) (c : Channels η) :
    (i.unregister correlation self c).1.Balanced := by
  unfold Inbox.unregister
  by_cases hm : i.members.get? correlation = some self
  · have hkeys : (i.strike correlation self).members.keys.Nodup := by
      rw [strike, if_pos hm]
      exact Table.nodup_keys_erase h.keys correlation
    have hlive := (strike_live h.keys h.live hm).2
    have hsub : (i.strike correlation self).subscribed = true := by
      rw [strike, if_pos hm]
      exact h.subscribed.mpr (by have := (strike_live h.keys h.live hm).1; omega)
    rw [if_pos hm]
    simp only
    by_cases hzero : (i.strike correlation self).live = 0
    · rw [if_pos (by simp only [hzero, hsub, decide_true, Bool.and_self])]
      split
      · exact ⟨hkeys, hlive, by simp only [hzero]; decide⟩
      · exact ⟨hkeys, hlive, by simp only [hzero]; decide⟩
    · rw [if_neg (by simp only [hzero, decide_false, Bool.false_and]; decide)]
      exact ⟨hkeys, hlive, ⟨fun _ => Nat.pos_of_ne_zero hzero, fun _ => hsub⟩⟩
  · rw [if_neg hm]
    exact h

end Balanced

/-! ## The channels -/

open Channels (Agree Elsewhere)

theorem register_topic (i : Inbox) (correlation : String) (self : Nat) (handler : η)
    (c : Channels η) : (i.register correlation self handler c).2.1.topic = i.topic := by
  simp only [register]
  split
  · rfl
  · split
    · rfl
    · rename_i why d hd
      show ((i.enter correlation self).strike correlation self).topic = i.topic
      rw [strike, if_pos (enter_get? i correlation self)]
      rfl

theorem unregister_topic (i : Inbox) (correlation : String) (self : Nat) (c : Channels η) :
    (i.unregister correlation self c).1.topic = i.topic := by
  have hs : (i.strike correlation self).topic = i.topic := by
    unfold strike
    split <;> rfl
  unfold unregister
  split
  · simp only
    split
    · split <;> exact hs
    · exact hs
  · rfl

/-- A call that subscribes the topic marks it, and one that does not leaves both as they
were. -/
theorem register_isSubscribed (hc : c.Sound) (h : i.subscribed = c.isSubscribed i.topic)
    (correlation : String) (self : Nat) (handler : η) :
    (i.register correlation self handler c).2.2.Sound ∧
      (i.register correlation self handler c).2.1.subscribed =
        (i.register correlation self handler c).2.2.isSubscribed i.topic := by
  have hrecord : Agree (fun _ => True) c (c.record (i.displacement correlation self)) :=
    .of_consumers hc rfl rfl (Nat.le_refl _)
  have hsame := hrecord.isSubscribed (u := i.topic) trivial
  simp only [register]
  split
  · exact ⟨hrecord.sound, h.trans hsame.symm⟩
  · rename_i hsub
    have hnot : c.isSubscribed i.topic = false := h.symm.trans (Bool.eq_false_iff.mpr hsub)
    split
    · rename_i d hd
      obtain ⟨hagree, hhandler⟩ := Channels.subscribe_ok hrecord.sound hd
      refine ⟨hagree.sound, ?_⟩
      show true = (d.handler? i.topic).isSome
      rw [show d.handler? i.topic = some handler from hhandler, Option.isSome_some]
    · rename_i why d hd
      obtain ⟨hagree, hfalse⟩ := Channels.subscribe_error hrecord.sound hd
      have hnote : Agree (fun _ => True) d (d.note (.inboxNotSubscribed i.topic why)) :=
        .of_consumers hagree.sound rfl rfl (Nat.le_refl _)
      refine ⟨hnote.sound, ?_⟩
      rw [show d.note (.inboxNotSubscribed (i.enter correlation self).topic why) =
        d.note (.inboxNotSubscribed i.topic why) from rfl, hnote.isSubscribed trivial,
        show d.isSubscribed i.topic = false from hfalse (hsame.trans hnot), strike,
        if_pos (enter_get? i correlation self)]
      exact Bool.eq_false_iff.mpr hsub

/-- The last one to leave takes the topic its handler, whatever the broker says. -/
theorem unregister_isSubscribed (hc : c.Sound) (h : i.subscribed = c.isSubscribed i.topic)
    (correlation : String) (self : Nat) :
    (i.unregister correlation self c).2.Sound ∧
      (i.unregister correlation self c).1.subscribed =
        (i.unregister correlation self c).2.isSubscribed i.topic := by
  unfold unregister
  by_cases hm : i.members.get? correlation = some self
  · have htopic : (i.strike correlation self).topic = i.topic := by rw [strike, if_pos hm]
    have hsub : (i.strike correlation self).subscribed = i.subscribed := by rw [strike, if_pos hm]
    obtain ⟨hagree, hfalse⟩ := Channels.unsubscribe_agree hc i.topic
    rw [if_pos hm]
    simp only [htopic, hsub]
    split
    · cases hu : c.unsubscribe i.topic with
      | mk r d =>
        rw [hu] at hagree hfalse
        cases r with
        | ok u => exact ⟨hagree.sound, hfalse.symm⟩
        | error why =>
          have hnote : Agree (fun _ => True) d (d.note (.inboxNotUnsubscribed i.topic why)) :=
            .of_consumers hagree.sound rfl rfl (Nat.le_refl _)
          exact ⟨hnote.sound, ((hnote.isSubscribed trivial).trans hfalse).symm⟩
    · exact ⟨hc, hsub.trans h⟩
  · rw [if_neg hm]
    exact ⟨hc, h⟩

/-- The states of an inbox and its channels after any calls, where others change the channels
in between. -/
inductive Reached (topic : String) (change : Channels η → Channels η → Prop) :
    Inbox → Channels η → Prop where
  | start (broker : Broker Subscriber) (validateTopics : Bool) :
      Reached topic change { topic } { broker, validateTopics }
  | register {i : Inbox} {c : Channels η} (correlation : String) (self : Nat) (handler : η) :
      Reached topic change i c →
      Reached topic change (i.register correlation self handler c).2.1
        (i.register correlation self handler c).2.2
  | unregister {i : Inbox} {c : Channels η} (correlation : String) (self : Nat) :
      Reached topic change i c →
      Reached topic change (i.unregister correlation self c).1
        (i.unregister correlation self c).2
  | others {i : Inbox} {c d : Channels η} : Reached topic change i c → change c d →
      Reached topic change i d

namespace Reached

variable {topic : String} {change : Channels η → Channels η → Prop}

theorem balanced (h : Reached topic change i c) : i.Balanced := by
  induction h with
  | start broker validateTopics => exact .start topic
  | register correlation self handler h ih => exact ih.register correlation self handler _
  | unregister correlation self h ih => exact ih.unregister correlation self _
  | others h hd ih => exact ih

/-- As long as the others leave the topic alone, its mark is what the channels say. -/
theorem isSubscribed (h : Reached topic change i c)
    (hchange : ∀ c d, change c d → Elsewhere topic c d) :
    c.Sound ∧ i.topic = topic ∧ i.subscribed = c.isSubscribed topic := by
  induction h with
  | start broker validateTopics => exact ⟨.start broker validateTopics, rfl, rfl⟩
  | @register i c correlation self handler h ih =>
    obtain ⟨hc, ht, hs⟩ := ih
    subst ht
    obtain ⟨hsound, hsame⟩ := register_isSubscribed hc hs correlation self handler
    exact ⟨hsound, register_topic i correlation self handler c, hsame⟩
  | @unregister i c correlation self h ih =>
    obtain ⟨hc, ht, hs⟩ := ih
    subst ht
    obtain ⟨hsound, hsame⟩ := unregister_isSubscribed hc hs correlation self
    exact ⟨hsound, unregister_topic i correlation self c, hsame⟩
  | others h hd ih =>
    obtain ⟨hc, ht, hs⟩ := ih
    have hagree := (hchange _ _ hd).agree hc
    exact ⟨hagree.sound, ht, hs.trans (hagree.isSubscribed rfl).symm⟩

end Reached

/-- An inbox stays balanced whatever is called, a call that fails leaves it as it was, no
member is struck out that was not counted, and as long as the others leave the topic alone it
is marked as subscribed when it is. -/
theorem reached_in_balance {topic : String} {change : Channels η → Channels η → Prop}
    (h : Reached topic change i c) :
    (i.members.keys.Nodup ∧ i.live = i.members.size ∧ (i.subscribed = true ↔ 0 < i.live)) ∧
      (∀ correlation self (handler : η) why j d,
        i.register correlation self handler c = (.error why, j, d) → j = i) ∧
      (∀ correlation self, i.members.get? correlation = some self →
        (i.strike correlation self).live + 1 = i.live) ∧
      (∀ correlation self, ((i.enter correlation self).strike correlation self).live + 1 =
        (i.enter correlation self).live) ∧
      ((∀ c d, change c d → Elsewhere topic c d) → i.subscribed = c.isSubscribed topic) := by
  have hb := h.balanced
  refine ⟨⟨hb.keys, hb.live, hb.subscribed⟩, ?_, ?_, ?_, ?_⟩
  · exact fun correlation self handler why j d => hb.register_error
  · exact fun correlation self hm => (strike_live hb.keys hb.live hm).1
  · intro correlation self
    have hkeys : (i.enter correlation self).members.keys.Nodup :=
      Table.nodup_keys_put hb.keys correlation self
    have hlive := enter_live hb.live correlation self
    exact (strike_live hkeys hlive (enter_get? i correlation self)).1
  · exact fun hchange => (h.isSubscribed hchange).2.2

/-- An inbox with one member. -/
def sole : Except Failure Unit × Inbox × Channels Unit :=
  ({ topic := "talk:answers" } : Inbox).register "talk" 1 () { broker := .manual {} }

/-- The member leaves, and the broker does not let go of the topic. -/
def soleLeft : Inbox × Channels Unit :=
  sole.2.1.unregister "talk" 1
    { sole.2.2 with broker := .manual { refuses := { unsubscribe := true } } }

theorem sole_in_balance :
    Reached "talk:answers" (Elsewhere "talk:answers") soleLeft.1 soleLeft.2 ∧
      sole.2.1.live = 1 ∧ sole.2.1.subscribed = true ∧
      soleLeft.1.live = soleLeft.1.members.size ∧ soleLeft.1.subscribed = false ∧
      soleLeft.1.subscribed = soleLeft.2.isSubscribed "talk:answers" := by
  have hsole : Reached "talk:answers" (Elsewhere "talk:answers") sole.2.1 sole.2.2 :=
    .register "talk" 1 () (.start (.manual {}) true)
  have hleft : Reached "talk:answers" (Elsewhere "talk:answers") soleLeft.1 soleLeft.2 :=
    .unregister "talk" 1 (hsole.others (.rest sole.2.2 _ _ _ _))
  obtain ⟨⟨-, hlive, -⟩, -, -, -, hsame⟩ := reached_in_balance hleft
  exact ⟨hleft, by decide +kernel, by decide +kernel, hlive, by decide +kernel,
    hsame fun _ _ hd => hd⟩

end Inbox
end Colloquy
