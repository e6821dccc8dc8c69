/-
What is shut stays shut.

Channels that are shut down have no consumers, and nothing makes a new one.  Timers that are
stopped are none, and nothing schedules a new one.  `Onward` says so of one operation after
the other.  What a conversation does with the timers of its desk is to cancel some and to set
some of its own, which is `Timers.Used`.
-/
import Colloquy.Proofs.Subscription
import Colloquy.Proofs.Course
import Colloquy.Inbox

namespace Colloquy
namespace Channels

variable {η β : Type} {c d e : Channels η β}

/-- Channels that are shut down have no consumers. -/
def Tidy (c : Channels η β) : Prop := c.shutDown = true → ∀ t, c.consumers.get? t = none

/-- `d` is shut down if `c` is, and tidy if `c` is. -/
structure Onward (c d : Channels η β) : Prop where
  shutDown : c.shutDown = true → d.shutDown = true
  tidy : c.Tidy → d.Tidy

namespace Onward

theorem refl (c : Channels η β) : Onward c c := ⟨id, id⟩

theorem trans (h : Onward c d) (h' : Onward d e) : Onward c e :=
  ⟨fun hc => h'.shutDown (h.shutDown hc), fun hc => h'.tidy (h.tidy hc)⟩

theorem of_same (hs : d.shutDown = c.shutDown) (hc : d.consumers = c.consumers) :
    Onward c d where
  shutDown := fun h => hs.trans h
  tidy := fun h hd t => by
    rw [hc]
    exact h (hs.symm.trans hd) t

/-- As long as the channels are not shut down, anything goes. -/
theorem of_running (hc : c.shutDown = false) (hd : d.shutDown = false) : Onward c d where
  shutDown := fun h => by
    rw [hc] at h
    cases h
  tidy := fun _ h => by
    rw [hd] at h
    cases h

end Onward

theorem isSubscribed_of_shutDown (h : c.Tidy) (hs : c.shutDown = true) (topic : String) :
    c.isSubscribed topic = false := by
  simp only [isSubscribed, handler?, h hs topic, Option.bind_eq_bind, Option.bind_none,
    Option.isSome_none]

/-! ## Producers -/

theorem monitor_shutDown (c : Channels η β) (h : Hook) (t : String) :
    (c.monitor h t).shutDown = c.shutDown := by
  unfold monitor
  split <;> rfl

theorem monitor_onward (c : Channels η β) (h : Hook) (t : String) : c.Onward (c.monitor h t) :=
  .of_same (monitor_shutDown c h t) (monitor_fields c h t).1

theorem producer_of_shutDown (h : c.shutDown = true) (topic : String) :
    c.producer topic = (.error .shutDown, c) := by
  simp only [producer, h, if_true]

theorem producer_onward (c : Channels η β) (t : String) : c.Onward (c.producer t).2 := by
  cases hs : c.shutDown with
  | true =>
    rw [producer_of_shutDown hs]
    exact .refl c
  | false =>
    refine .of_running hs ?_
    simp only [producer, hs, if_false, Bool.false_eq_true]
    split
    · exact hs
    · split
      · exact hs
      · exact monitor_shutDown _ _ _

theorem foldl_dropProducer (ts : List String) (c : Channels η β) :
    (ts.foldl dropProducer c).shutDown = c.shutDown ∧
      (ts.foldl dropProducer c).consumers = c.consumers := by
  induction ts generalizing c with
  | nil => exact ⟨rfl, rfl⟩
  | cons t ts ih =>
    obtain ⟨hs, hc⟩ := ih (c.dropProducer t)
    exact ⟨hs.trans (monitor_shutDown _ _ _), hc.trans (monitor_fields _ _ _).1⟩

/-! ## Consumers -/

theorem consumer_shutDown (c : Channels η β) (t : String) :
    (c.consumer t).2.shutDown = c.shutDown := by
  unfold consumer
  split
  · rfl
  · split
    · rfl
    · split
      · rfl
      · exact monitor_shutDown _ _ _

theorem forget_shutDown (c : Channels η β) (t : String) (n : Nat) :
    (c.forget t n).shutDown = c.shutDown := by
  unfold forget
  split <;> rfl

/-! ## Publishing -/

variable [BrokerAdapter β]

theorem send_onward (c : Channels η β) (now : Instant) (t : String) (m : Message) :
    c.Onward (c.send now t m).2 := by
  simp only [send]
  split
  · exact .refl c
  · split
    · exact .of_same rfl rfl
    · dsimp only
      refine Onward.trans ?_ (monitor_onward _ _ _)
      exact .of_same rfl rfl

theorem publish_onward (c : Channels η β) (now : Instant) (t : String) (m : Message) :
    c.Onward (c.publish now t m).2 := by
  have hp := c.producer_onward t
  unfold publish
  split
  · rename_i hd
    rw [hd] at hp
    exact hp
  · rename_i hd
    rw [hd] at hp
    exact hp.trans (send_onward _ now t m)

/-! ## Subscribing -/

theorem attach_shutDown (c : Channels η β) (n : Nat) (handler : η) :
    (c.attach n handler).2.shutDown = c.shutDown := by
  unfold attach
  split
  · rfl
  · split
    · rfl
    · split
      · rfl
      · split <;> rfl

theorem trySubscribe_shutDown (c : Channels η β) (t : String) (handler : η) :
    (c.trySubscribe t handler).2.shutDown = c.shutDown := by
  have hconsumer := c.consumer_shutDown t
  unfold trySubscribe
  split
  · rename_i hd
    rw [hd] at hconsumer
    exact hconsumer
  · rename_i n d hd
    rw [hd] at hconsumer
    have hattach := d.attach_shutDown n handler
    split
    · rename_i he
      rw [he] at hattach
      exact (forget_shutDown _ _ _).trans (hattach.trans hconsumer)
    · rename_i he
      rw [he] at hattach
      exact hattach.trans hconsumer

theorem subscribe_of_shutDown (h : c.shutDown = true) (t : String) (handler : η) :
    c.subscribe t handler = (.error .shutDown, c) := by
  simp only [subscribe, trySubscribe, consumer, h, if_true]
  rfl

theorem subscribe_onward (c : Channels η β) (t : String) (handler : η) :
    c.Onward (c.subscribe t handler).2 := by
  cases hs : c.shutDown with
  | true =>
    rw [subscribe_of_shutDown hs]
    exact .refl c
  | false =>
    refine .of_running hs ?_
    have hfirst := c.trySubscribe_shutDown t handler
    unfold subscribe
    split
    · rename_i d hd
      rw [hd] at hfirst
      exact (d.trySubscribe_shutDown t handler).trans (hfirst.trans hs)
    · rename_i hd
      rw [hd] at hfirst
      exact hfirst.trans hs

/-! ## Closing -/

theorem close_fields (c : Channels η β) (n : Nat) :
    (c.close n).2.shutDown = c.shutDown ∧ (c.close n).2.consumers = c.consumers := by
  unfold close
  split
  · exact ⟨rfl, rfl⟩
  · simp only
    split
    · exact ⟨rfl, rfl⟩
    · split <;> exact ⟨rfl, rfl⟩

theorem unsubscribe_shutDown (c : Channels η β) (t : String) :
    (c.unsubscribe t).2.shutDown = c.shutDown := by
  unfold unsubscribe
  split
  · rfl
  · exact (monitor_shutDown _ _ _).trans (close_fields _ _).1

theorem unsubscribe_get? (c : Channels η β) (t u : String) :
    (c.unsubscribe t).2.consumers.get? u = if u = t then none else c.consumers.get? u := by
  unfold unsubscribe
  split
  · rename_i hnone
    by_cases hu : u = t
    · rw [if_pos hu, hu]
      exact hnone
    · rw [if_neg hu]
  · rename_i n hn
    simp only
    rw [(monitor_fields _ _ _).1, (close_fields _ n).2]
    by_cases hu : u = t
    · rw [if_pos hu, hu]
      exact Table.get?_erase_self _ _
    · rw [if_neg hu]
      exact Table.get?_erase_ne _ hu

theorem unsubscribe_onward (c : Channels η β) (t : String) : c.Onward (c.unsubscribe t).2 where
  shutDown := fun h => (c.unsubscribe_shutDown t).trans h
  tidy := fun h hs u => by
    rw [unsubscribe_shutDown] at hs
    rw [unsubscribe_get?, h hs u, ite_self]

theorem release_shutDown (c : Channels η β) (t : String) :
    (c.release t).shutDown = c.shutDown := by
  have hu := c.unsubscribe_shutDown t
  unfold release
  split
  · rename_i hd
    rw [hd] at hu
    exact hu
  · rename_i hd
    rw [hd] at hu
    exact hu

theorem release_get? (c : Channels η β) (t u : String) :
    (c.release t).consumers.get? u = if u = t then none else c.consumers.get? u := by
  have hu := c.unsubscribe_get? t u
  unfold release
  split
  · rename_i hd
    rw [hd] at hu
    exact hu
  · rename_i hd
    rw [hd] at hu
    exact hu

theorem foldl_release (ts : List String) (c : Channels η β) :
    (ts.foldl release c).shutDown = c.shutDown ∧
      ∀ u, (ts.foldl release c).consumers.get? u =
        if u ∈ ts then none else c.consumers.get? u := by
  induction ts generalizing c with
  | nil => exact ⟨rfl, fun u => by simp⟩
  | cons t ts ih =>
    obtain ⟨hs, hget⟩ := ih (c.release t)
    refine ⟨hs.trans (release_shutDown c t), fun u => ?_⟩
    rw [List.foldl_cons, hget, release_get?]
    by_cases hu : u = t
    · simp [hu]
    · simp [hu]

/-- Shutting down leaves no consumer. -/
theorem shutdown_fields (h : c.shutDown = false) :
    c.shutdown.shutDown = true ∧ ∀ u, c.shutdown.consumers.get? u = none := by
  simp only [shutdown, h, if_false, Bool.false_eq_true]
  generalize hc' : ({ c with shutDown := true } : Channels η β).note .channelsClosing = c'
  obtain ⟨hs, hget⟩ := foldl_release c'.consumers.keys c'
  obtain ⟨hs', hc⟩ := foldl_dropProducer (c'.consumers.keys.foldl release c').producers.keys
    (c'.consumers.keys.foldl release c')
  constructor
  · refine hs'.trans (hs.trans ?_)
    rw [← hc']
    rfl
  · intro u
    refine (congrArg (fun t : Table String Nat => t.get? u) hc).trans ?_
    rw [hget]
    by_cases hu : u ∈ c'.consumers.keys
    · rw [if_pos hu]
    · rw [if_neg hu]
      exact Table.get?_eq_none_iff.mpr hu

theorem shutdown_onward (c : Channels η β) : c.Onward c.shutdown := by
  cases hs : c.shutDown with
  | true =>
    have hsame : c.shutdown = c := by simp only [shutdown, hs, if_true]
    rw [hsame]
    exact .refl c
  | false =>
    obtain ⟨hs', hnone⟩ := shutdown_fields hs
    exact ⟨fun _ => hs', fun _ _ => hnone⟩

theorem shutdown_shutDown (c : Channels η β) : c.shutdown.shutDown = true := by
  cases hs : c.shutDown with
  | true => simp only [shutdown, hs, if_true]
  | false => exact (shutdown_fields hs).1

end Channels

namespace Inbox

variable {η : Type}

theorem register_onward (i : Inbox) (correlation : String) (self : Nat) (handler : η)
    (c : Channels η) : c.Onward (i.register correlation self handler c).2.2 := by
  have hnoted : c.Onward (c.record (i.displacement correlation self)) := .of_same rfl rfl
  simp only [register]
  split
  · exact hnoted
  · have hsub := (c.record (i.displacement correlation self)).subscribe_onward
      (i.enter correlation self).topic handler
    split
    · rename_i hd
      rw [hd] at hsub
      exact hnoted.trans hsub
    · rename_i hd
      rw [hd] at hsub
      exact hnoted.trans (hsub.trans (.of_same rfl rfl))

theorem unregister_onward (i : Inbox) (correlation : String) (self : Nat) (c : Channels η) :
    c.Onward (i.unregister correlation self c).2 := by
  have hun := c.unsubscribe_onward (i.strike correlation self).topic
  unfold unregister
  split
  · simp only
    split
    · split
      · rename_i hd
        rw [hd] at hun
        exact hun
      · rename_i hd
        rw [hd] at hun
        exact hun.trans (.of_same rfl rfl)
    · exact .refl c
  · exact .refl c

end Inbox

/-! ## Timers -/

namespace Timers

variable {t u v : Timers}

/-- Timers that are stopped are none. -/
def Tidy (t : Timers) : Prop := t.stopped = true → t.pending = []

/-- `u` is stopped if `t` is, and tidy if `t` is. -/
structure Onward (t u : Timers) : Prop where
  stopped : t.stopped = true → u.stopped = true
  tidy : t.Tidy → u.Tidy

namespace Onward

theorem refl (t : Timers) : Onward t t := ⟨id, id⟩

theorem trans (h : Onward t u) (h' : Onward u v) : Onward t v :=
  ⟨fun ht => h'.stopped (h.stopped ht), fun ht => h'.tidy (h.tidy ht)⟩

end Onward

theorem stop_onward (t : Timers) : t.Onward t.stop := ⟨fun _ => rfl, fun _ _ => rfl⟩

theorem cancel_onward (t : Timers) (id : Nat) : t.Onward (t.cancel id) where
  stopped := fun h => h
  tidy := fun h hs => by
    show t.pending.filter _ = []
    rw [h hs]
    rfl

theorem schedule_onward (t : Timers) (kind : TimerKind) (owner now delay : Nat) :
    t.Onward (t.schedule kind owner now delay).2.1 := by
  unfold schedule
  split
  · exact .refl t
  · rename_i hs
    exact ⟨fun h => absurd h hs, fun _ h => absurd h hs⟩

/-- `u` is `t` after a conversation cancelled timers and set some of its own. -/
inductive Used (owner : Nat) (t : Timers) : Timers → Prop where
  | unused : Used owner t t
  | cancelled {u : Timers} (id : Nat) : Used owner t u → Used owner t (u.cancel id)
  | scheduled {u : Timers} (kind : TimerKind) (now delay : Nat) : Used owner t u →
      Used owner t (u.schedule kind owner now delay).2.1

namespace Used

variable {owner : Nat}

theorem cancel? (h : Used owner t u) (id? : Option Nat) : Used owner t (u.cancel? id?) := by
  cases id? with
  | none => exact h
  | some id => exact h.cancelled id

theorem onward (h : Used owner t u) : t.Onward u := by
  induction h with
  | unused => exact .refl t
  | cancelled id _ ih => exact ih.trans (cancel_onward _ id)
  | scheduled kind now delay _ ih => exact ih.trans (schedule_onward _ kind owner now delay)

end Used

end Timers

namespace Watch

variable {t : Timers} {v w : Watch} {self : Nat}

theorem armResponse_used (h : t.Used self w.timers) (now : Nat) :
    t.Used self (w.armResponse self now).timers :=
  (h.cancel? w.conversation.responseTimer).scheduled .response now _

theorem armAck_used (h : t.Used self w.timers) (now : Nat) :
    t.Used self (w.armAck self now).2.timers := by
  unfold armAck
  simp only
  split
  · exact h
  · split
    · exact h
    · split
      · exact h
      · exact h.scheduled .ack now _

theorem wait_used (h : t.Used self w.timers) (now : Nat) :
    t.Used self (w.wait self now).timers := by
  have harmed := armResponse_used h now
  unfold wait
  split
  · exact h
  · simp only
    split
    · exact harmed
    · exact armAck_used harmed now

theorem cancelTimers_used (h : t.Used self w.timers) : t.Used self w.cancelTimers.timers :=
  (h.cancel? w.conversation.responseTimer).cancel? w.conversation.ackTimer

theorem abort_used (self : Nat) (h : t.Used self w.timers) : t.Used self w.abort.2.timers := by
  unfold abort
  split
  · exact h
  · exact cancelTimers_used h

theorem foldAck_used (h : t.Used self w.timers) (now : Nat) (a : Ack) (first : Bool) :
    t.Used self (w.foldAck self now a first).timers := by
  let c := w.conversation.takeAck a first
  unfold foldAck
  simp only
  split
  · exact h
  · exact armResponse_used (w := { w with
      conversation := { c with timeoutMs := c.foldedTimeout } }) h now

theorem takeIn_used (h : t.Used self w.timers) (now : Nat) (m : Message) :
    t.Used self (w.takeIn self now m).timers := by
  unfold takeIn
  cases m.ack with
  | none => exact h
  | some a => exact foldAck_used (w := { w with conversation := w.conversation.record m }) h now a _

theorem receive_used {now : Nat} {m : Message} {end? : Option Ending}
    (hr : w.receive self now m = some (v, end?)) (h : t.Used self w.timers) :
    t.Used self v.timers := by
  have htaken := takeIn_used h now m
  have harmed := armAck_used htaken now
  unfold receive at hr
  split at hr
  · cases hr
  · simp only at hr
    split at hr
    · cases hr
      exact htaken
    · split at hr
      · rename_i hk
        rw [hk] at harmed
        cases hr
        exact harmed
      · rename_i hk
        rw [hk] at harmed
        cases hr
        exact cancelTimers_used harmed

theorem onResponseTimer_used (self : Nat) {id : Nat} {e : Ending}
    (hr : w.onResponseTimer id = some (v, e)) (h : t.Used self w.timers) :
    t.Used self v.timers := by
  unfold onResponseTimer at hr
  simp only at hr
  split at hr
  · cases hr
  · cases hr
    exact cancelTimers_used (w := { w with
      conversation := { w.conversation with responseTimer := none } }) h

theorem onAckTimer_used (self : Nat) {id : Nat} {end? : Option Ending}
    (hr : w.onAckTimer id = some (v, end?)) (h : t.Used self w.timers) :
    t.Used self v.timers := by
  unfold onAckTimer at hr
  simp only at hr
  split at hr
  · cases hr
  · split at hr
    · cases hr
      exact h
    · cases hr
      exact cancelTimers_used (w := { w with
        conversation := { w.conversation with ackTimer := none } }) h

end Watch
end Colloquy
