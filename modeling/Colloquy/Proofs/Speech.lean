/-
What a responder sends for the actions of a script.

Some actions answer the request at hand.  For each of them a responder sends one message, under the
next identifier, and nothing else happens.  So the messages for a script can be told from its
actions alone: `Utters` tells what is read of them.  A script that announces its answers and numbers
them makes a recital.
-/
import Colloquy.Proofs.Answers
import Colloquy.Proofs.Idents
import Colloquy.Proofs.Recital

namespace Colloquy

/-- What goes back to the requester with its number can be written if what came can be. -/
theorem Json.Value.Plain.numbered {depth : Nat} {v : Json.Value} (hv : v.Plain depth) {i : Nat}
    (hi : i ≤ Word.natMax 64) :
    (Json.Value.object [("echo", v), ("index", .integer i)]).Plain (depth + 1) := by
  have hle : Word.intMin 64 ≤ (i : Int) :=
    (show Word.intMin 64 ≤ 0 by decide).trans (Int.natCast_nonneg i)
  have hnames : "echo" < "index" := by decide
  refine .object (List.pairwise_pair.mpr hnames) fun f hf => ?_
  obtain rfl | hf := List.mem_cons.mp hf
  · exact hv
  · cases List.mem_singleton.mp hf
    exact .integer _ hle (Int.ofNat_le.mpr hi)

/-- Announce some answers, and send back what came with the number of each. -/
def Action.recital (n : Nat) : List Action :=
  .acknowledge none (some (n : Int)) :: (List.range n).map .echoNumbered

theorem Action.length_recital (n : Nat) : (recital n).length = n + 1 := by
  rw [recital, List.length_cons, List.length_map, List.length_range]

namespace Responder

variable {r : Responder} {a : Action} {ack : Ack} {p : Option Json.Value} {m : Message}
  {ms : List Message} {todo : List Action} {k n : Nat}

/-- The acknowledgement and the payload that a responder sends for an action, if the action is one
that answers the request. -/
def speech? (r : Responder) : Action → Option (Ack × Option Json.Value)
  | .acknowledge timeoutMs remaining => some (r.announcement timeoutMs remaining, none)
  | .answer payload => some (r.deduction, some payload)
  | .echo => some (r.deduction, some (r.request.payload.getD .null))
  | .echoNumbered index => some (r.deduction,
      some (.object [("echo", r.request.payload.getD .null), ("index", .integer index)]))
  | _ => none

/-- The responder sends something for an action, and it can be written. -/
def CanUtter (r : Responder) (a : Action) : Prop :=
  ∃ ack p, r.speech? a = some (ack, p) ∧ ack.Writable ∧ ∀ v ∈ p, v.Plain 126

theorem canUtter_of_mem_recital (hn : (n : Int) ≤ Word.intMax 32)
    (hp : (r.request.payload.getD .null).Plain 125) (ha : a ∈ Action.recital n) : r.CanUtter a := by
  obtain rfl | ha := List.mem_cons.mp ha
  · refine ⟨_, _, rfl, ⟨?_, ?_, ?_⟩, ?_⟩
    · rintro _ ⟨⟩
      exact (show Word.intMin 32 ≤ 0 by decide).trans (Int.natCast_nonneg n)
    · rintro _ ⟨⟩
      exact hn
    · rintro _ ⟨⟩
    · rintro _ ⟨⟩
  · obtain ⟨i, hi, rfl⟩ := List.mem_map.mp ha
    have hlt := List.mem_range.mp hi
    refine ⟨_, _, rfl, ⟨?_, ?_, ?_⟩, ?_⟩
    · rintro _ ⟨⟩
      decide
    · rintro _ ⟨⟩
      decide
    · rintro _ ⟨⟩
    · rintro _ ⟨⟩
      have hmost : Word.intMax 32 ≤ (Word.natMax 64 : Int) := by decide
      exact hp.numbered (by omega)

/-- The messages that are read of what a responder sends for the actions of a script, under the
identifiers from some number on. -/
inductive Utters (r : Responder) : Nat → List Action → List Message → Prop
  | nil (k : Nat) : Utters r k [] []
  | cons {k : Nat} {a : Action} {ack : Ack} {p : Option Json.Value} {m : Message}
      {todo : List Action} {ms : List Message} (speech : r.speech? a = some (ack, p))
      (read : r.Read (Ident.text k) ack p m) (rest : Utters r (k + 1) todo ms) :
      Utters r k (a :: todo) (m :: ms)

namespace Utters

theorem length (h : r.Utters k todo ms) : ms.length = todo.length := by
  induction h with
  | nil k => rfl
  | cons speech read rest ih => rw [List.length_cons, List.length_cons, ih]

theorem ids (h : r.Utters k todo ms) :
    ms.map Message.id = (List.range' k todo.length).map Ident.text := by
  induction h with
  | nil k => rfl
  | cons speech read rest ih =>
    rw [List.map_cons, List.length_cons, List.range'_succ, List.map_cons, ih, read.id]

/-- All messages of one script can be told apart. -/
theorem apart (h : r.Utters k todo ms) (hfew : todo.length ≤ 32 ^ Ident.width) :
    (ms.map Message.id).Nodup := by
  rw [h.ids]
  refine List.Nodup.map_on (fun i hi j hj hij => ?_) List.nodup_range'
  rw [List.mem_range'_1] at hi hj
  by_contra hne
  obtain hlt | hlt := Nat.lt_or_gt_of_ne hne
  · exact Ident.text_ne hlt (by omega) hij
  · exact Ident.text_ne hlt (by omega) hij.symm

theorem read (h : r.Utters k todo ms) (hm : m ∈ ms) :
    ∃ a ∈ todo, ∃ ack p id, r.speech? a = some (ack, p) ∧ r.Read id ack p m := by
  induction h with
  | nil k => cases hm
  | cons speech read rest ih =>
    obtain rfl | hm := List.mem_cons.mp hm
    · exact ⟨_, List.mem_cons_self, _, _, _, speech, read⟩
    · obtain ⟨a, ha, hread⟩ := ih hm
      exact ⟨a, List.mem_cons_of_mem _ ha, hread⟩

theorem payloads (h : r.Utters k todo ms) : ms.map Message.payload =
    todo.map fun a => ((r.speech? a).bind Prod.snd).filter fun v => !v.isNull := by
  induction h with
  | nil k => rfl
  | cons speech read rest ih =>
    rw [List.map_cons, List.map_cons, ih, speech, read.payload, Option.bind_some]

/-- They all belong to the conversation of the request, and can be written again. -/
theorem forall_read (h : r.Utters k todo ms) (hm : m ∈ ms) :
    m.correlation = r.request.correlation ∧ m.stamp.Writable := by
  obtain ⟨_, _, _, _, _, _, hread⟩ := h.read hm
  exact ⟨hread.correlation, hread.stamp⟩

/-- Answers that are announced and then numbered are a recital. -/
theorem recital (h : r.Utters k (Action.recital n) ms) (hn : n < 32 ^ Ident.width) :
    ∃ first answers, ms = first :: answers ∧ Recital r.id n first answers ∧
      answers.length = n ∧
      answers.map Message.payload = (List.range n).map fun i =>
        some (.object [("echo", r.request.payload.getD .null), ("index", .integer i)]) := by
  have hlength := h.length
  have hapart := h.apart (by rw [Action.length_recital]; omega)
  rw [Action.length_recital] at hlength
  cases h with
  | @cons _ _ _ _ first _ answers speech read rest =>
    have hpayloads := rest.payloads
    rw [List.map_map] at hpayloads
    cases speech
    refine ⟨first, answers, rfl, ⟨⟨?_, read.ack⟩, fun m hm => ?_, hapart⟩,
      Nat.succ_injective hlength, hpayloads⟩
    · rw [Message.hasPayload, read.payload]
      rfl
    · obtain ⟨a, ha, ack, p, id, hspeech, hread⟩ := rest.read hm
      obtain ⟨i, -, rfl⟩ := List.mem_map.mp ha
      cases hspeech
      refine ⟨?_, hread.ack⟩
      rw [Message.hasPayload, hread.payload]
      rfl

end Utters
end Responder

/-- At its end a conversation has the announcement of a responder, and what came to the responder
sent back with each of so many numbers, in their order. -/
structure Ending.Echoes (e : Ending) (n : Nat) (v : Json.Value) : Prop where
  acks : ∃ m responder, e.acks = [m] ∧ m.Tells responder n
  payloads : e.payloads.map Message.payload =
    (List.range n).map fun i => some (.object [("echo", v), ("index", .integer i)])
  writable : ∀ m ∈ e.acks ++ e.payloads, m.stamp.Writable

theorem Recital.ending_echoes {responder : String} {n : Nat} {first : Message}
    {answers : List Message} {v : Json.Value} {wait : Wait} {c : Conversation}
    (h : Recital responder n first answers) (hpayloads : answers.map Message.payload =
      (List.range n).map fun i => some (.object [("echo", v), ("index", .integer i)]))
    (hwritable : ∀ m ∈ first :: answers, m.stamp.Writable) (hc : Counted wait [] c)
    (reason : Reason) :
    (((first :: answers).foldl Conversation.take c).ending reason).Echoes n v := by
  have hcounted := hc.fold (first :: answers)
  rw [List.nil_append] at hcounted
  have hacks := hcounted.acks.trans h.filter_ack
  have hanswers := hcounted.payloads.trans h.filter_hasPayload
  refine ⟨⟨first, responder, hacks, h.announces.2⟩, ?_, ?_⟩
  · rw [Conversation.ending, hanswers, hpayloads]
  · rw [Conversation.ending, hacks, hanswers]
    exact hwritable

/-! ## Scripts -/

namespace Session

variable {s s' : Session} {r : Responder} {a : Action} {ack : Ack} {p : Option Json.Value}
  {scope : Scope}

theorem act_of_speech (hr : scope.responder = some r) (h : r.speech? a = some (ack, p))
    (s : Session) :
    s.act scope a = .ofResult (s.respond r ack p).1 [] (s.respond r ack p).2 := by
  cases a
  case acknowledge | answer | echo | echoNumbered =>
    cases h
    simp only [act, answering, hr, answer]
  all_goals cases h

/-- An action that answers the request is taken, and the script goes on. -/
theorem perform_speech (hr : scope.responder = some r) (h : r.speech? a = some (ack, p))
    (hrespond : s.respond r ack p = (.ok (), s')) (todo : List Action) (guard : Guard) :
    s.perform (.script scope (a :: todo) guard) = ([.script scope todo guard], s') := by
  simp only [perform, advance, act_of_speech hr h, hrespond, Effect.ofResult, List.nil_append]

end Session
end Colloquy
