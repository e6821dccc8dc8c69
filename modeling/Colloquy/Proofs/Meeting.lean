/-
What happens to one conversation of a session.

Whatever a session does with a conversation is an occurrence in its course, and the frames that
follow are the reports of the occurrence and the end that it brings, if it brings one.  The
other conversations stay as they are.
-/
import Colloquy.Proofs.Moves
import Colloquy.Proofs.Table

namespace Colloquy

/-- What is reported of a message. -/
def Message.reports (m : Message) : List Report :=
  if m.hasPayload then [.answered m]
  else
    match m.ack with
    | some a => [.acknowledged a m]
    | none => []

/-- What is reported of an occurrence. -/
def Watch.tells (w : Watch) : Occurrence → List Report
  | .message _ m => if w.conversation.ended then [] else m.reports
  | .abort why => [.failed why]
  | _ => []

namespace Session

/-- A session where one conversation has become another. -/
structure Changed (s : Session) (n : Nat) (x : Exchange) (c : Conversation) (s' : Session) :
    Prop where
  self : s'.exchanges.get? n = some { x with conversation := c }
  others : ∀ k, k ≠ n → s'.exchanges.get? k = s.exchanges.get? k
  nextExchange : s'.nextExchange = s.nextExchange

namespace Changed

variable {s s' s'' : Session} {n : Nat} {x : Exchange} {c : Conversation}

theorem refl (hx : s.exchanges.get? n = some x) : Changed s n x x.conversation s :=
  ⟨hx, fun _ _ => rfl, rfl⟩

theorem keeps (h : Changed s n x c s') (h' : s'.Keeps s'') : Changed s n x c s'' where
  self := by rw [h'.exchanges, h.self]
  others := fun k hk => by rw [h'.exchanges, h.others k hk]
  nextExchange := h'.nextExchange.trans h.nextExchange

theorem setConversation (h : Changed s n x c s') (d : Conversation) :
    Changed s n x d (s'.setConversation n d) where
  self := by
    show (s'.exchanges.update n _).get? n = _
    rw [Table.get?_update_self, h.self]
    rfl
  others := fun k hk => by
    show (s'.exchanges.update n _).get? k = _
    rw [Table.get?_update_ne _ hk, h.others k hk]
  nextExchange := h.nextExchange

theorem putWatch (h : Changed s n x c s') (desk : DeskName) (w : Watch) :
    Changed s n x w.conversation (s'.putWatch n desk w) :=
  ((h.setConversation w.conversation).keeps (setTimers_keeps _ desk w.timers)).keeps
    (record_keeps _ _)

end Changed

/-- Something happens to a conversation: nothing if it is not there. -/
inductive Meets (s : Session) (n : Nat) : List Frame → Session → Prop where
  | absent {s' : Session} : s.exchanges.get? n = none → s.Keeps s' → Meets s n [] s'
  | present {s' : Session} {x : Exchange} {w v : Watch} {end? : Option Ending} (o : Occurrence) :
      s.exchanges.get? n = some x → w.conversation = x.conversation →
      w.meet n o = (v, end?) → Changed s n x v.conversation s' →
      Meets s n ((w.tells o).map (.report (some n) x.callbacks) ++ closing n end?) s'

variable (s : Session) (n : Nat)

theorem reportOf_eq (callbacks : Callbacks) (m : Message) :
    reportOf n callbacks m = m.reports.map (.report (some n) callbacks) := by
  unfold reportOf Message.reports
  cases m.hasPayload <;> cases m.ack <;> rfl

theorem handle_meets (m : Message) : Meets s n (s.handle n m).1 (s.handle n m).2 := by
  unfold handle
  split
  · rename_i hx
    exact .absent hx (.refl s)
  · rename_i x hx
    have hw : (s.watch x).conversation = x.conversation := rfl
    split
    · rename_i hr
      have hmeet : (s.watch x).meet n (.message s.clock m) = (s.watch x, none) := by
        simp only [Watch.meet, hr, Option.getD_none]
      have htells : (s.watch x).tells (.message s.clock m) = [] := by
        simp only [Watch.tells, Watch.receive_eq_none_iff.mp hr, if_true]
      have h := Meets.present _ hx hw hmeet (Changed.refl hx)
      rw [htells] at h
      exact h
    · rename_i v end? hr
      have hmeet : (s.watch x).meet n (.message s.clock m) = (v, end?) := by
        simp only [Watch.meet, hr, Option.getD_some]
      have htells : (s.watch x).tells (.message s.clock m) = m.reports := by
        simp only [Watch.tells, (Watch.receive_eq_some hr).1, if_false, Bool.false_eq_true]
      have h := Meets.present _ hx hw hmeet ((Changed.refl hx).putWatch x.desk v)
      rw [htells, ← reportOf_eq] at h
      exact h

theorem wait_meets : Meets s n [] (s.wait n) := by
  unfold wait
  split
  · rename_i hx
    exact .absent hx (.refl s)
  · rename_i x hx
    have hw : (s.watch x).conversation = x.conversation := rfl
    exact Meets.present (.wait s.clock) hx hw rfl ((Changed.refl hx).putWatch x.desk _)

theorem listen_meets : Meets s n [] (s.listen n).2 := by
  unfold listen
  split
  · rename_i hx
    exact .absent hx (.refl s)
  · rename_i x hx
    have hw : (s.watch x).conversation = x.conversation := rfl
    have hset := (Changed.refl hx).setConversation x.conversation.listen
    have hregister := (s.setConversation n x.conversation.listen).register_keeps n
    simp only
    split
    · rename_i u s' hs
      rw [hs] at hregister
      exact Meets.present (.listen true) hx hw rfl (hset.keeps hregister)
    · rename_i why s' hs
      rw [hs] at hregister
      exact Meets.present (.listen false) hx hw rfl ((hset.keeps hregister).setConversation _)

theorem abort_meets (why : Failure) : Meets s n (s.abort n why).1 (s.abort n why).2 := by
  unfold abort
  split
  · rename_i hx
    exact .absent hx (.refl s)
  · rename_i x hx
    have hw : (s.watch x).conversation = x.conversation := rfl
    cases hended : x.conversation.ended with
    | true =>
      have ha : (s.watch x).abort = (false, s.watch x) := Watch.abort_of_ended hended
      have hmeet : (s.watch x).meet n (.abort why) = (s.watch x, none) := by
        simp only [Watch.meet, ha]
      simp only [ha]
      exact Meets.present (.abort why) hx hw hmeet (Changed.refl hx)
    | false =>
      obtain ⟨v, ha, -⟩ := Watch.abort_of_open (w := s.watch x) hended
      have hmeet : (s.watch x).meet n (.abort why) = (v, none) := by
        simp only [Watch.meet, ha]
      simp only [ha]
      exact Meets.present (.abort why) hx hw hmeet
        (((Changed.refl hx).putWatch x.desk v).keeps (unregister_keeps _ n))

theorem fire_meets (desk : DeskName) (t : Timer) :
    Meets s t.owner (s.fire desk t).1 (s.fire desk t).2 := by
  have hkeeps := s.setTimers_keeps desk ((s.desk desk).timers.cancel t.id)
  unfold fire
  simp only
  split
  · rename_i hx
    exact .absent (hkeeps.exchanges ▸ hx) hkeeps
  · rename_i x hx
    have hx' : s.exchanges.get? t.owner = some x := hkeeps.exchanges ▸ hx
    have hsame := (Changed.refl hx').keeps hkeeps
    have hw : ((s.setTimers desk ((s.desk desk).timers.cancel t.id)).watch x).conversation =
        x.conversation := rfl
    have hidle := Meets.present (.timers {}) hx' hw rfl hsame
    split
    · exact hidle
    · split
      · split
        · exact hidle
        · rename_i v e hr
          have hmeet : ((s.setTimers desk ((s.desk desk).timers.cancel t.id)).watch x).meet
              t.owner (.responseTimer t.id) = (v, some e) := by
            simp only [Watch.meet, hr, Option.map_some, Option.getD_some]
          exact Meets.present _ hx' hw hmeet (hsame.putWatch desk v)
      · split
        · exact hidle
        · rename_i v end? hr
          refine Meets.present (.ackTimer t.id) hx' hw ?_ (hsame.putWatch desk v)
          simp only [Watch.meet, hr, Option.getD_some]

end Session
end Colloquy
