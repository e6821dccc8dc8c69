/-
What a session does with its conversations.

Most of what a session does leaves its conversations alone; `Keeps` says so.  `Move` puts
together what the rest does: place a conversation, open its window, wait, hand it a message,
tear it down, let a timer fire.
-/
import Colloquy.Proofs.Course
import Colloquy.Session.Clock

namespace Colloquy

namespace Session

/-- The conversations stay as they are. -/
structure Keeps (s s' : Session) : Prop where
  exchanges : s'.exchanges = s.exchanges
  nextExchange : s'.nextExchange = s.nextExchange

namespace Keeps

variable {s s' s'' : Session}

theorem refl (s : Session) : s.Keeps s := ⟨rfl, rfl⟩

theorem trans (h : s.Keeps s') (h' : s'.Keeps s'') : s.Keeps s'' :=
  ⟨h'.exchanges.trans h.exchanges, h'.nextExchange.trans h.nextExchange⟩

end Keeps

variable (s : Session)

theorem setDesk_keeps (d : Desk) (name : DeskName) : s.Keeps (s.setDesk d name) := by
  cases name <;> exact ⟨rfl, rfl⟩

theorem setTimers_keeps (name : DeskName) (t : Timers) : s.Keeps (s.setTimers name t) :=
  s.setDesk_keeps _ name

theorem setInbox_keeps (name : DeskName) (i : Inbox) : s.Keeps (s.setInbox name i) :=
  s.setDesk_keeps _ name

theorem record_keeps (t : Trace) : s.Keeps (s.record t) := ⟨rfl, rfl⟩

theorem channels_keeps (c : Channels Handler) : s.Keeps { s with channels := c } := ⟨rfl, rfl⟩

theorem register_keeps (n : Nat) : s.Keeps (s.register n).2 := by
  unfold register
  split
  · exact .refl s
  · simp only
    exact (s.setInbox_keeps _ _).trans (channels_keeps _ _)

theorem unregister_keeps (n : Nat) : s.Keeps (s.unregister n) := by
  unfold unregister
  split
  · exact .refl s
  · simp only
    exact (s.setInbox_keeps _ _).trans (channels_keeps _ _)

end Session

/-! ## Moves -/

/-- Whether a frame has nothing to tell about a conversation. -/
def Frame.calm : Frame → Bool
  | .report (some _) _ _ => false
  | .close _ _ => false
  | .resolve _ _ => false
  | _ => true

/-- Whether a frame tears conversations down. -/
def Frame.aborts : Frame → Bool
  | .abortInboxes _ _ _ => true
  | .abortAll _ _ => true
  | _ => false

/-- Whether a frame is a script that begins with a shutdown. -/
def Frame.shutsDown : Frame → Bool
  | .script _ (.shutdown :: _) _ => true
  | _ => false

namespace Session

/-- What can be done with the conversations of a session, and the frames that follow. -/
inductive Move : Session → List Frame → Session → Prop where
  /-- Anything that leaves the conversations alone. -/
  | calm {s s' : Session} {frames : List Frame} : s.Keeps s' →
      (∀ f ∈ frames, f.calm = true) → Move s frames s'
  | place (s : Session) (desk : DeskName) (correlation topic : String) (terms : Terms)
      (callbacks : Callbacks) : Move s [] (s.place desk correlation topic terms callbacks).2
  | listen (s : Session) (n : Nat) : Move s [] (s.listen n).2
  | wait (s : Session) (n : Nat) : Move s [] (s.wait n)
  | handle (s : Session) (n : Nat) (m : Message) : Move s (s.handle n m).1 (s.handle n m).2
  | abort (s : Session) (n : Nat) (why : Failure) : Move s (s.abort n why).1 (s.abort n why).2
  | fire (s : Session) (desk : DeskName) (t : Timer) : Move s (s.fire desk t).1 (s.fire desk t).2
  /-- One after the other, if nothing follows from the first. -/
  | andThen {s s' s'' : Session} {frames : List Frame} : Move s [] s' → Move s' frames s'' →
      Move s frames s''
  /-- With more to do afterwards. -/
  | beneath {s s' : Session} {frames more : List Frame} : Move s frames s' →
      (∀ f ∈ more, f.calm = true) → Move s (frames ++ more) s'

namespace Move

variable {s s' : Session} {frames : List Frame}

theorem still (h : s.Keeps s') : Move s [] s' := .calm h fun _ hf => nomatch hf

theorem after (h : s.Keeps s') {s'' : Session} (h' : Move s' frames s'') : Move s frames s'' :=
  .andThen (.still h) h'

end Move

variable (s : Session)

/-- Opening the conversation of a request: it is placed and listened to, and then the session
waits for answers or tears it down. -/
theorem converse_move (r : Requester) (m : Message) :
    Move s (s.converse r m).2.1 (s.converse r m).2.2 := by
  have hplace := Move.place s .shared m.correlation (s.origin.responseTopic r.namesp)
    (s.terms r.options) r.callbacks
  have hlisten := Move.listen (s.place .shared m.correlation (s.origin.responseTopic r.namesp)
    (s.terms r.options) r.callbacks).2 s.nextExchange
  unfold converse
  simp only
  split
  · rename_i why s' hs
    rw [show (s.place ..).2.listen s.nextExchange = (.error why, s') from hs] at hlisten
    refine .andThen hplace (.andThen hlisten (.calm (.refl s') fun f hf => ?_))
    rw [List.mem_singleton.mp hf]
    rfl
  · rename_i u s' hs
    rw [show (s.place ..).2.listen s.nextExchange = (.ok u, s') from hs] at hlisten
    split
    · exact .andThen hplace (.andThen hlisten (.after (s'.channels_keeps _) (.abort _ _ _)))
    · exact .andThen hplace (.andThen hlisten (.after (s'.channels_keeps _) (.wait _ _)))

end Session
end Colloquy
