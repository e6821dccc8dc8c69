/-
A broker in memory delivers the messages of a topic in the order in which they were published, as
long as it hands none of them back behind a later one.

This is about first deliveries.  What a topic still has to deliver for the first time waits in one
place: in the backlog, in the queue of the worker that serves the topic, or in the queue of a
worker that was cancelled and has not stopped yet.  A cancelled worker gets nothing new.  What is
published before it stops goes elsewhere, and what it hands back then gets behind that.  So a
broker keeps the order of a topic if nothing is published on it while a cancelled worker `Owes` it
first deliveries.  Without that it does not, and `overtaken` is a run that shows it.

The steps of a run are operations of the broker and turns of its workers, so nothing comes between
the envelopes that a worker hands back.
-/
import Colloquy.Proofs.Conservation

namespace Colloquy
namespace MemoryBroker

variable {σ : Type} {b b' : MemoryBroker σ} {topic t : String} {id : Nat} {w : Worker σ}
  {log seen : List Event} {rest : List Bytes}

/-! ## First deliveries -/

/-- The bodies of the envelopes that are not flagged as delivered again. -/
def unseen (es : List Envelope) : List Bytes :=
  (es.filter fun e => !e.redelivered).map Envelope.body

@[simp] theorem unseen_append (es ds : List Envelope) :
    unseen (es ++ ds) = unseen es ++ unseen ds := by
  simp [unseen]

@[simp] theorem unseen_nil : unseen [] = [] := rfl

theorem unseen_cons (e : Envelope) (es : List Envelope) :
    unseen (e :: es) = unseen [e] ++ unseen es :=
  unseen_append [e] es

/-- What was delivered on a topic for the first time. -/
def firstsOn (topic : String) (log : List Event) : List Bytes := unseen (deliveredOn topic log)

theorem firstsOn_append (topic : String) (log log' : List Event) :
    firstsOn topic (log ++ log') = firstsOn topic log ++ firstsOn topic log' := by
  rw [firstsOn, deliveredOn_append, unseen_append]
  rfl

theorem firstsOn_delivered (topic t : String) (e : Envelope) :
    firstsOn topic [.delivered t e] = if t = topic then unseen [e] else [] := by
  unfold firstsOn deliveredOn
  split_ifs with ht <;> simp [ht]

theorem firstsOn_settling (topic t : String) (x : Settlement) (body : Bytes) :
    firstsOn topic (settling x t body) = [] :=
  congrArg unseen (deliveredOn_settling topic t x body)

theorem publishedOn_append (topic : String) (log log' : List Event) :
    publishedOn topic (log ++ log') = publishedOn topic log ++ publishedOn topic log' :=
  List.filterMap_append

theorem publishedOn_published (topic t : String) (body : Bytes) :
    publishedOn topic [.published t body] = if t = topic then [body] else [] := by
  unfold publishedOn
  split_ifs with ht <;> simp [ht]

theorem publishedOn_settling (topic t : String) (x : Settlement) (body : Bytes) :
    publishedOn topic (settling x t body) = [] := by
  cases x <;> rfl

/-! ## Where they wait -/

/-- The first deliveries on a topic that a worker has in its queue. -/
def Worker.firsts (topic : String) (w : Worker σ) : List Bytes :=
  if w.topic = topic then unseen w.queue else []

/-- The first deliveries on a topic that wait in one place, which is the backlog or a worker. -/
def stored (b : MemoryBroker σ) (topic : String) : Option Nat → List Bytes
  | none => unseen (b.lane topic).backlog
  | some id => ((b.workers.get? id).map (Worker.firsts topic)).getD []

/-- The first deliveries that wait on a topic are `rest`, all of them in one place. -/
def Waits (b : MemoryBroker σ) (topic : String) (rest : List Bytes) : Prop :=
  ∃ p, ∀ q, b.stored topic q = if q = p then rest else []

/-- A worker that was cancelled still has first deliveries on a topic to hand back. -/
def Owes (b : MemoryBroker σ) (topic : String) : Prop :=
  ∃ id w, b.workers.get? id = some w ∧ w.cancelled = true ∧ w.firsts topic ≠ []

theorem stored_lane (b : MemoryBroker σ) (topic t : String) (l : Lane) (p : Option Nat) :
    ({ b with lanes := b.lanes.put t l } : MemoryBroker σ).stored topic p =
      if t = topic ∧ p = none then unseen l.backlog else b.stored topic p := by
  cases p with
  | none =>
    simp only [stored, lane_put, and_true, eq_comm (a := topic)]
    split_ifs <;> rfl
  | some id => simp [stored]

theorem stored_put (b : MemoryBroker σ) (topic : String) (id : Nat) (w : Worker σ)
    (p : Option Nat) :
    ({ b with workers := b.workers.put id w } : MemoryBroker σ).stored topic p =
      if p = some id then w.firsts topic else b.stored topic p := by
  cases p with
  | none => rfl
  | some k =>
    simp only [stored, Table.get?_put, Option.some.injEq]
    split_ifs <;> rfl

theorem stored_erase (b : MemoryBroker σ) (topic : String) (id : Nat) (p : Option Nat) :
    ({ b with workers := b.workers.erase id } : MemoryBroker σ).stored topic p =
      if p = some id then [] else b.stored topic p := by
  cases p with
  | none => rfl
  | some k =>
    simp only [stored, Table.get?_erase, Option.some.injEq]
    split_ifs <;> rfl

theorem stored_worker (h : b.workers.get? id = some w) (topic : String) :
    b.stored topic (some id) = w.firsts topic := by
  simp [stored, h]

/-- A worker that is written with the queue it has changes nothing. -/
theorem stored_rewrite {v : Worker σ} (h : b.workers.get? id = some w) (ht : v.topic = w.topic)
    (hqueue : v.queue = w.queue) (topic : String) (p : Option Nat) :
    ({ b with workers := b.workers.put id v } : MemoryBroker σ).stored topic p =
      b.stored topic p := by
  rw [stored_put]
  split_ifs with hp
  · rw [hp, stored_worker h, Worker.firsts, Worker.firsts, ht, hqueue]
  · rfl

/-- An envelope gets to the end of the place that its topic is served from. -/
theorem stored_enqueue (hb : b.Sound) (topic t : String) (e : Envelope) (p : Option Nat) :
    (b.enqueue t e).stored topic p = b.stored topic p ++
      if t = topic ∧ p = (b.lane topic).worker then unseen [e] else [] := by
  cases hlane : (b.lane t).worker with
  | none =>
    have heq : b.enqueue t e =
        { b with lanes := b.lanes.put t { backlog := (b.lane t).backlog ++ [e] } } := by
      simp only [enqueue, hlane]
    rw [heq, stored_lane]
    by_cases ht : t = topic
    · subst ht
      rw [hlane]
      split_ifs with hp <;> simp_all [stored]
    · simp [ht]
  | some id =>
    obtain ⟨w, hw, rfl, -⟩ := hb.worker hlane
    have heq : b.enqueue w.topic e = { b with
        lanes := b.lanes.put w.topic (b.lane w.topic)
        workers := b.workers.put id (w.push e) } := by
      simp only [enqueue, hlane, Table.update, hw]
    have hput := stored_put { b with lanes := b.lanes.put w.topic (b.lane w.topic) } topic id
      (w.push e) p
    rw [heq]
    refine hput.trans ?_
    rw [stored_lane]
    by_cases ht : w.topic = topic
    · subst ht
      rw [hlane]
      split_ifs with hp <;> simp_all [stored, Worker.firsts, Worker.push]
    · split_ifs with hp <;> simp_all [stored, Worker.firsts, Worker.push]

theorem stored_foldl_enqueue (hb : b.Sound) (topic t : String) (es : List Envelope)
    (p : Option Nat) :
    (es.foldl (fun b e => b.enqueue t e) b).stored topic p = b.stored topic p ++
      if t = topic ∧ p = (b.lane topic).worker then unseen es else [] := by
  induction es generalizing b with
  | nil => simp
  | cons e es ih =>
    have hfirst := enqueue_adds hb t e
    rw [List.foldl_cons, ih hfirst.sound, stored_enqueue hb, hfirst.steady.lane, List.append_assoc,
      unseen_cons e es]
    split_ifs <;> simp

/-- A new worker takes the backlog of its topic. -/
theorem stored_subscribe {subscriber : σ} (hs : b.subscribe t subscriber = .ok b') (topic : String)
    (q : Option Nat) : b'.stored topic q =
      if q = some b.nextWorker then if t = topic then b.stored topic none else []
      else if t = topic ∧ q = none then [] else b.stored topic q := by
  obtain ⟨-, -, rfl⟩ := subscribe_eq_ok hs
  refine (stored_put { b with lanes := b.lanes.put t _ } topic b.nextWorker _ q).trans ?_
  rw [stored_lane, Worker.firsts]
  split_ifs with hq ht <;> simp_all [stored]

theorem stored_nextWorker (hb : b.Sound) (topic : String) :
    b.stored topic (some b.nextWorker) = [] := by
  rw [stored, Option.map_eq_none_iff.mp (hb.numbered _ (le_refl _))]
  rfl

theorem stored_unsubscribe (hb : b.Sound) (topic t : String) (q : Option Nat) :
    (b.unsubscribe t).stored topic q = b.stored topic q := by
  cases hlane : (b.lane t).worker with
  | none => rw [unsubscribe_of_none hlane]
  | some id =>
    obtain ⟨w, hw, rfl, -⟩ := hb.worker hlane
    rw [unsubscribe_of_some hlane hw]
    refine (stored_rewrite (b := { b with lanes := b.lanes.put w.topic _ }) (v := w.cancel) hw
      rfl rfl topic q).trans ?_
    rw [stored_lane]
    split_ifs with hq
    · rw [hq.2, ← hq.1]
      rfl
    · rfl

/-- A worker that stops hands its queue back to where its topic is served from. -/
theorem stored_stop (hb : b.Sound) (hw : b.workers.get? id = some w) (hc : w.cancelled = true)
    (hdown : b.down = false) (topic : String) (q : Option Nat) :
    (b.stop id w).stored topic q = (if q = some id then [] else b.stored topic q) ++
      if q = (b.lane topic).worker then b.stored topic (some id) else [] := by
  have hstop : b.stop id w = w.queue.foldl (fun b e => b.enqueue w.topic e)
      { b with workers := b.workers.erase id } := by
    simp [stop, hdown]
  rw [hstop, stored_foldl_enqueue (hb.dismiss hw hc), stored_erase, stored_worker hw, Worker.firsts]
  by_cases ht : w.topic = topic <;> simp [ht, lane]

namespace Waits

/-- Only what waits where counts. -/
theorem congr (h : b.Waits topic rest) (hsame : ∀ q, b'.stored topic q = b.stored topic q) :
    b'.Waits topic rest := by
  obtain ⟨p, hp⟩ := h
  exact ⟨p, fun q => (hsame q).trans (hp q)⟩

/-- A place that has first deliveries has all of them. -/
theorem all (h : b.Waits topic rest) {p : Option Nat} (hp : b.stored topic p ≠ []) :
    b.stored topic p = rest ∧ ∀ q, q ≠ p → b.stored topic q = [] := by
  obtain ⟨r, hr⟩ := h
  have hpr : p = r := by
    by_contra hne
    exact hp ((hr p).trans (if_neg hne))
  subst hpr
  exact ⟨(hr p).trans (if_pos rfl), fun q hq => (hr q).trans (if_neg hq)⟩

/-- If nothing is owed, then what waits does so where the topic is served from. -/
theorem served (h : b.Waits topic rest) (hb : b.Sound) (howes : ¬ b.Owes topic) :
    ∀ q, b.stored topic q = if q = (b.lane topic).worker then rest else [] := by
  obtain ⟨p, hp⟩ := h
  cases hrest : rest with
  | nil => simp_all
  | cons body bodies =>
    have hne : b.stored topic p ≠ [] := by simp [hp, hrest]
    have hserved : p = (b.lane topic).worker := by
      cases p with
      | none =>
        by_contra hlane
        refine hne ?_
        rw [stored, hb.drained topic (Ne.symm hlane)]
        rfl
      | some id =>
        cases hw : b.workers.get? id with
        | none => simp [stored, hw] at hne
        | some w =>
          rw [stored_worker hw] at hne
          have hc : w.cancelled = false := by
            by_contra hc
            exact howes ⟨id, w, hw, Bool.eq_true_of_not_eq_false hc, hne⟩
          have ht : w.topic = topic := by
            by_contra ht
            exact hne (if_neg ht)
          refine ((hb.serves topic id).mpr ?_).symm
          rw [badge, hw, ← ht, ← hc]
          rfl
    intro q
    rw [hp q, hserved, hrest]

/-- What is published gets behind the rest, if nothing is owed. -/
theorem published (h : b.Waits topic rest) (hb : b.Sound) (howes : ¬ b.Owes topic) (e : Envelope) :
    (b.enqueue topic e).Waits topic (rest ++ unseen [e]) := by
  refine ⟨(b.lane topic).worker, fun q => ?_⟩
  rw [stored_enqueue hb, h.served hb howes]
  split_ifs <;> simp_all

/-- Anything else that is enqueued does not count. -/
theorem enqueued (h : b.Waits topic rest) (hb : b.Sound) {e : Envelope}
    (he : t ≠ topic ∨ unseen [e] = []) : (b.enqueue t e).Waits topic rest := by
  refine h.congr fun q => ?_
  rw [stored_enqueue hb]
  split_ifs with ht
  · rw [he.resolve_left (not_not_intro ht.1), List.append_nil]
  · rw [List.append_nil]

/-- A subscription takes what waits in the backlog to its worker. -/
theorem subscribed (h : b.Waits topic rest) (hb : b.Sound) {subscriber : σ}
    (hs : b.subscribe t subscriber = .ok b') : b'.Waits topic rest := by
  have hfresh := stored_nextWorker hb topic
  have hstored := stored_subscribe hs topic
  by_cases hmoved : t = topic ∧ b.stored topic none ≠ []
  · obtain ⟨ht, hnone⟩ := hmoved
    obtain ⟨hrest, hothers⟩ := h.all hnone
    refine ⟨some b.nextWorker, fun q => ?_⟩
    rw [hstored q, if_pos ht]
    split_ifs with hq hq'
    · exact hrest
    · rfl
    · exact hothers q fun hq'' => hq' ⟨ht, hq''⟩
  · refine congr h fun q => ?_
    rw [hstored q]
    split_ifs <;> simp_all

theorem unsubscribed (h : b.Waits topic rest) (hb : b.Sound) (t : String) :
    (b.unsubscribe t).Waits topic rest :=
  h.congr (stored_unsubscribe hb topic t)

/-- What is delivered for the first time is the first of the rest. -/
theorem delivered (h : b.Waits topic rest) (hw : b.workers.get? id = some w) {e : Envelope}
    {r : List Envelope} (hqueue : w.queue = e :: r) : ∃ left,
      rest = (if w.topic = topic then unseen [e] else []) ++ left ∧
      Waits { b with workers := b.workers.put id { w with queue := r, busy := true } } topic
        left := by
  have hold : w.firsts topic = (if w.topic = topic then unseen [e] else []) ++
      Worker.firsts topic { w with queue := r, busy := true } := by
    unfold Worker.firsts
    rw [hqueue, unseen_cons]
    split_ifs <;> rfl
  by_cases hnone : (if w.topic = topic then unseen [e] else []) = []
  · rw [hnone, List.nil_append] at hold
    refine ⟨rest, by rw [hnone, List.nil_append], h.congr fun q => ?_⟩
    rw [stored_put]
    split_ifs with hq
    · rw [hq, stored_worker hw, hold]
    · rfl
  · rw [← stored_worker hw] at hold
    obtain ⟨hrest, hothers⟩ := h.all (p := some id) (by
      rw [hold]
      exact fun hnil => hnone (List.append_eq_nil_iff.mp hnil).1)
    refine ⟨_, hrest.symm.trans hold, some id, fun q => ?_⟩
    rw [stored_put]
    split_ifs with hq
    · rfl
    · exact hothers q hq

/-- A worker that stops takes what it hands back to where the topic is served from. -/
theorem stopped (h : b.Waits topic rest) (hb : b.Sound) (hw : b.workers.get? id = some w)
    (hc : w.cancelled = true) (hdown : b.down = false) : (b.stop id w).Waits topic rest := by
  have hstored := stored_stop hb hw hc hdown topic
  have hserved : (b.lane topic).worker ≠ some id := by
    intro hlane
    obtain ⟨v, hv, -, hvc⟩ := hb.worker hlane
    cases hw.symm.trans hv
    rw [hc] at hvc
    cases hvc
  by_cases hid : b.stored topic (some id) = []
  · refine h.congr fun q => ?_
    rw [hstored q, hid]
    split_ifs with hq <;> simp_all
  · obtain ⟨hrest, hothers⟩ := h.all hid
    refine ⟨(b.lane topic).worker, fun q => ?_⟩
    rw [hstored q, hrest]
    split_ifs with hq hq' <;> simp_all

end Waits

/-! ## Steps -/

/-- One step of a broker, with what is seen of it. -/
inductive Step : MemoryBroker σ → List Event → MemoryBroker σ → Prop where
  | publish {b b' : MemoryBroker σ} {topic : String} {body : Bytes} :
      b.publish topic body = .ok b' → Step b [.published topic body] b'
  | subscribe {b b' : MemoryBroker σ} {topic : String} {subscriber : σ} :
      b.subscribe topic subscriber = .ok b' → Step b [] b'
  | unsubscribe (b : MemoryBroker σ) (topic : String) : Step b [] (b.unsubscribe topic)
  | settle (b : MemoryBroker σ) (x : Settlement) (topic : String) (body : Bytes) :
      Step b (settling x topic body) (b.settle x topic body)
  | deliver {b b' : MemoryBroker σ} {id worker : Nat} {subscriber : σ} {topic : String}
      {e : Envelope} : b.turnOf? id = some (.delivery worker subscriber topic e b') →
      Step b [.delivered topic e] b'
  | stop {b b' : MemoryBroker σ} {id : Nat} : b.turnOf? id = some (.stopped b') → Step b [] b'
  | finish (b : MemoryBroker σ) (id : Nat) : Step b [] (b.finish id)
  | shutdown (b : MemoryBroker σ) : Step b [] b.shutdown

/-- The broker has come to `b` in any steps, except that nothing was published on a topic while
a cancelled worker owed it first deliveries. -/
inductive Undisturbed (topic : String) : List Event → MemoryBroker σ → Prop where
  | start : Undisturbed topic [] {}
  | step {log seen : List Event} {b b' : MemoryBroker σ} : Undisturbed topic log b →
      b.Step seen b' → (publishedOn topic seen ≠ [] → ¬ b.Owes topic) →
      Undisturbed topic (log ++ seen) b'

/-- What was delivered of a topic is what was published on it up to the rest.  The rest waits in
one place until a shutdown, and after that no topic has a worker. -/
structure Orderly (topic : String) (log : List Event) (b : MemoryBroker σ) : Prop where
  sound : b.Sound
  rest : ∃ rest, publishedOn topic log = firstsOn topic log ++ rest ∧
    (b.down = false → b.Waits topic rest)
  closed : b.down = true → ∀ t, (b.lane t).worker = none

namespace Orderly

theorem start (topic : String) : Orderly topic [] ({} : MemoryBroker σ) where
  sound := .start
  rest := ⟨[], rfl, fun _ => ⟨none, fun q => by cases q <;> rfl⟩⟩
  closed := fun hdown => by cases hdown

/-- A step of which nothing is seen that counts. -/
theorem aside (h : Orderly topic log b) (hsound : b'.Sound) (hdown : b'.down = b.down)
    (hlane : b.down = true → ∀ t, (b'.lane t).worker = (b.lane t).worker)
    (hwaits : ∀ rest, b.down = false → b.Waits topic rest → b'.Waits topic rest)
    (hpublished : publishedOn topic seen = []) (hfirsts : firstsOn topic seen = []) :
    Orderly topic (log ++ seen) b' where
  sound := hsound
  rest := by
    obtain ⟨rest, hrest, hw⟩ := h.rest
    refine ⟨rest, ?_, fun hd => hwaits rest (hdown ▸ hd) (hw (hdown ▸ hd))⟩
    rw [publishedOn_append, hpublished, firstsOn_append, hfirsts, List.append_nil,
      List.append_nil]
    exact hrest
  closed := fun hd t => by
    rw [hdown] at hd
    rw [hlane hd t]
    exact h.closed hd t

theorem published (h : Orderly topic log b) {body : Bytes} (hb : b.publish t body = .ok b')
    (howes : publishedOn topic [.published t body] ≠ [] → ¬ b.Owes topic) :
    Orderly topic (log ++ [.published t body]) b' := by
  obtain ⟨hdown, rfl⟩ := publish_eq_ok hb
  have hcount := tally_adds h.sound (b.published + 1) b.confirmed b.rejected b.retried
  have hadds := enqueue_adds hcount.sound t { body, redelivered := false }
  obtain ⟨rest, hrest, hwaits⟩ := h.rest
  replace hwaits : Waits { b with published := b.published + 1 } topic rest :=
    (hwaits hdown).congr fun q => by cases q <;> rfl
  have hfirsts : firstsOn topic (log ++ [.published t body]) = firstsOn topic log :=
    (firstsOn_append topic log _).trans (List.append_nil _)
  refine ⟨hadds.sound, ?_, fun hd => ?_⟩
  · by_cases ht : t = topic
    · subst ht
      rw [publishedOn_published, if_pos rfl] at howes
      refine ⟨rest ++ [body], ?_, fun _ =>
        hwaits.published hcount.sound (howes (List.cons_ne_nil _ _)) _⟩
      rw [publishedOn_append, hfirsts, publishedOn_published, if_pos rfl, hrest, List.append_assoc]
    · refine ⟨rest, ?_, fun _ => hwaits.enqueued hcount.sound (.inl ht)⟩
      rw [publishedOn_append, hfirsts, publishedOn_published, if_neg ht, List.append_nil, hrest]
  · rw [hadds.steady.down] at hd
    cases hdown.symm.trans hd

theorem delivered (h : Orderly topic log b) {worker : Nat} {subscriber : σ} {e : Envelope}
    (hb : b.turnOf? id = some (.delivery worker subscriber t e b')) :
    Orderly topic (log ++ [.delivered t e]) b' := by
  obtain ⟨w, hw, -, ⟨-, hturn⟩ | ⟨e, r, hc, hqueue, hturn⟩⟩ := turnOf?_eq_some hb
  · cases hturn
  · cases hturn
    have hdown : b.down = false := by
      by_contra hdown
      have hserved : (b.lane w.topic).worker = some id := by
        refine (h.sound.serves w.topic id).mpr ?_
        rw [badge, hw, ← hc]
        rfl
      rw [h.closed (Bool.eq_true_of_not_eq_false hdown)] at hserved
      cases hserved
    obtain ⟨rest, hrest, hwaits⟩ := h.rest
    obtain ⟨left, hleft, hwaits'⟩ := (hwaits hdown).delivered hw hqueue
    refine ⟨h.sound.queue hw r true, ⟨left, ?_, fun _ => hwaits'⟩,
      fun hd => by cases hdown.symm.trans hd⟩
    rw [publishedOn_append, firstsOn_append, firstsOn_delivered, List.append_assoc, ← hleft]
    exact (List.append_nil _).trans hrest

theorem unsubscribed (h : Orderly topic log b) (t : String) :
    Orderly topic (log ++ []) (b.unsubscribe t) := by
  refine h.aside (unsubscribe_sound h.sound t) ?_ (fun hd u => ?_)
    (fun rest _ hw => hw.unsubscribed h.sound t) rfl rfl
  · unfold unsubscribe
    simp only
    split <;> rfl
  · rw [unsubscribe_of_none (h.closed hd t)]

theorem settled (h : Orderly topic log b) (x : Settlement) (t : String) (body : Bytes) :
    Orderly topic (log ++ settling x t body) (b.settle x t body) := by
  have hadds := settle_adds h.sound x t body
  refine h.aside hadds.sound hadds.steady.down (fun _ => hadds.steady.lane) (fun rest _ hw => ?_)
    (publishedOn_settling topic t x body) (firstsOn_settling topic t x body)
  cases x with
  | confirm => exact hw.congr fun q => by cases q <;> rfl
  | reject => exact hw.congr fun q => by cases q <;> rfl
  | retry =>
    have hcount := tally_adds h.sound b.published b.confirmed b.rejected (b.retried + 1)
    have hw' : Waits { b with retried := b.retried + 1 } topic rest :=
      hw.congr fun q => by cases q <;> rfl
    exact hw'.enqueued hcount.sound (.inr rfl)

theorem stopped (h : Orderly topic log b) (hw : b.workers.get? id = some w)
    (hc : w.cancelled = true) : Orderly topic (log ++ []) (b.stop id w) := by
  obtain ⟨hsound, hsteady, -⟩ := stop_loses h.sound hw hc
  exact h.aside hsound hsteady.down (fun _ => hsteady.lane)
    (fun rest hd hwaits => hwaits.stopped h.sound hw hc hd) rfl rfl

theorem finished (h : Orderly topic log b) (id : Nat) :
    Orderly topic (log ++ []) (b.finish id) := by
  obtain hsame | ⟨w, hw, hc, hstop⟩ | ⟨w, hw, hfree⟩ := b.finish_cases id
  · rw [hsame, List.append_nil]
    exact h
  · rw [hstop]
    exact h.stopped hw hc
  · rw [hfree]
    have hadds := free_adds h.sound hw false
    exact h.aside hadds.sound hadds.steady.down (fun _ => hadds.steady.lane)
      (fun rest _ hwaits => hwaits.congr
        (stored_rewrite (v := { w with busy := false }) hw rfl rfl topic)) rfl rfl

theorem shutdown (h : Orderly topic log b) : Orderly topic (log ++ []) b.shutdown := by
  rw [List.append_nil]
  cases hdown : b.down with
  | true =>
    have hsame : b.shutdown = b := by simp [MemoryBroker.shutdown, hdown]
    rw [hsame]
    exact h
  | false =>
    obtain ⟨rest, hrest, -⟩ := h.rest
    refine ⟨shutdown_sound h.sound, ⟨rest, hrest, fun hd => ?_⟩, fun _ t => ?_⟩
    · rw [shutdown_of_running hdown] at hd
      cases hd
    · rw [shutdown_lane hdown]

theorem step (h : Orderly topic log b) (hs : b.Step seen b')
    (howes : publishedOn topic seen ≠ [] → ¬ b.Owes topic) : Orderly topic (log ++ seen) b' := by
  cases hs with
  | publish hb => exact h.published hb howes
  | subscribe hb =>
    obtain ⟨hdown, -, heq⟩ := subscribe_eq_ok hb
    refine h.aside (subscribe_sound h.sound hb) (by rw [heq]) (fun hd => ?_)
      (fun rest _ hw => hw.subscribed h.sound hb) rfl rfl
    cases hdown.symm.trans hd
  | unsubscribe t => exact h.unsubscribed t
  | settle x t body => exact h.settled x t body
  | deliver hb => exact h.delivered hb
  | stop hb =>
    obtain ⟨w, hw, -, ⟨hc, hturn⟩ | ⟨e, r, -, -, hturn⟩⟩ := turnOf?_eq_some hb
    · cases hturn
      exact h.stopped hw hc
    · cases hturn
  | finish id => exact h.finished id
  | shutdown => exact h.shutdown

end Orderly

theorem Undisturbed.orderly (h : Undisturbed topic log b) : Orderly topic log b := by
  induction h with
  | start => exact .start topic
  | step _ hs howes ih => exact ih.step hs howes

/-- In an undisturbed run the first deliveries on a topic are what was published on it, in the
same order, up to some point.  Until a shutdown the rest waits in one place and in that order. -/
theorem Undisturbed.in_order (h : Undisturbed topic log b) :
    firstsOn topic log <+: publishedOn topic log ∧
      (b.down = false → ∃ rest, publishedOn topic log = firstsOn topic log ++ rest ∧
        b.Waits topic rest) := by
  obtain ⟨rest, hrest, hwaits⟩ := h.orderly.rest
  exact ⟨⟨rest, hrest.symm⟩, fun hdown => ⟨rest, hrest, hwaits hdown⟩⟩

theorem not_owes_of_all
    (h : (b.workers.values.all fun w => !w.cancelled || (w.firsts topic).isEmpty) = true) :
    ¬ b.Owes topic := by
  rintro ⟨id, w, hw, hc, hfirsts⟩
  have hall := List.all_eq_true.mp h w (Table.mem_values_of_get? hw)
  simp [hc, hfirsts] at hall

/-- The subscriber unsubscribes and asks for a retry while the first of two messages is delivered,
and the other is handed back before a third is published. -/
theorem Undisturbed.in_order_after_handing_back :
    ∃ (log : List Event) (b : MemoryBroker Unit), Undisturbed "a" log b ∧ b.down = false ∧
      publishedOn "a" log = [[1], [2], [3]] ∧ firstsOn "a" log = [[1], [2]] ∧
      firstsOn "a" log <+: publishedOn "a" log ∧
      ∃ rest, publishedOn "a" log = firstsOn "a" log ++ rest ∧ b.Waits "a" rest := by
  -- the first worker is in the middle of its first delivery
  have hbusy : Undisturbed "a"
      [.published "a" [1], .published "a" [2], .delivered "a" ⟨[1], false⟩]
      ({ lanes := ⟨[("a", { worker := some 0 })]⟩
         workers := ⟨[
          (0, { topic := "a", subscriber := (), queue := [⟨[2], false⟩], busy := true })]⟩
         nextWorker := 1
         subscribes := ⟨[("a", 1)]⟩
         published := 2 } : MemoryBroker Unit) := by
    have hfirst := (show Undisturbed "a" [] ({} : MemoryBroker Unit) from .start).step
      (.publish (show MemoryBroker.publish _ "a" [1] = _ from rfl)) fun _ => not_owes_of_all rfl
    have hsecond := hfirst.step
      (.publish (show MemoryBroker.publish _ "a" [2] = _ from rfl)) fun _ => not_owes_of_all rfl
    have hsubscribed := hsecond.step
      (.subscribe (show MemoryBroker.subscribe _ "a" () = _ from rfl)) (absurd rfl)
    exact hsubscribed.step (.deliver (show MemoryBroker.turnOf? _ 0 = _ from rfl)) (absurd rfl)
  -- it is cancelled and has handed back what it had
  have hback := ((hbusy.step (.settle _ .retry "a" [1]) (absurd rfl)).step
    (.unsubscribe _ "a") (absurd rfl)).step (.finish _ 0) (absurd rfl)
  have hthird := hback.step
    (.publish (show MemoryBroker.publish _ "a" [3] = _ from rfl)) fun _ => not_owes_of_all rfl
  have hagain := hthird.step
    (.subscribe (show MemoryBroker.subscribe _ "a" () = _ from rfl)) (absurd rfl)
  have hend := hagain.step (.deliver (show MemoryBroker.turnOf? _ 1 = _ from rfl)) (absurd rfl)
  obtain ⟨hahead, hrest⟩ := hend.in_order
  exact ⟨_, _, hend, rfl, rfl, rfl, hahead, hrest rfl⟩

/-- Here the subscriber publishes the third message itself, after it has unsubscribed and before
it is done with the first.  The second is handed back behind the third. -/
theorem overtaken :
    ∃ (log : List Event) (b : MemoryBroker Unit), Runs log b ∧
      publishedOn "a" log = [[1], [2], [3]] ∧ firstsOn "a" log = [[1], [3], [2]] ∧
      ¬ firstsOn "a" log <+: publishedOn "a" log := by
  have hfirst := (Runs.start (σ := Unit)).publish
    (show MemoryBroker.publish _ "a" [1] = _ from rfl)
  have hsecond := hfirst.publish (show MemoryBroker.publish _ "a" [2] = _ from rfl)
  have hsubscribed := hsecond.subscribe (show MemoryBroker.subscribe _ "a" () = _ from rfl)
  have hbusy := hsubscribed.deliver (show MemoryBroker.turnOf? _ 0 = _ from rfl)
  have hthird := (hbusy.unsubscribe "a").publish
    (show MemoryBroker.publish _ "a" [3] = _ from rfl)
  have hback := hthird.finish 0
  have hagain := hback.subscribe (show MemoryBroker.subscribe _ "a" () = _ from rfl)
  have hmiddle := (hagain.deliver (show MemoryBroker.turnOf? _ 1 = _ from rfl)).finish 1
  have hlast := hmiddle.deliver (show MemoryBroker.turnOf? _ 1 = _ from rfl)
  refine ⟨_, _, hlast, rfl, rfl, ?_⟩
  show ¬ [[1], [3], [2]] <+: ([[1], [2], [3]] : List Bytes)
  decide

end MemoryBroker
end Colloquy
