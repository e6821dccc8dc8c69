/-
How a session runs.

The agenda is a stack of frames.  `perform` does the first of them and gives those that
follow from it, which are done before the rest.  So a callback runs to its end before what
called it goes on, and a callback that calls back is no different from any other.  With
the agenda empty it is the turn of the broker's workers.
-/
import Colloquy.Json.Mismatch
import Colloquy.Message.Payload
import Colloquy.Session.Delivery
import Colloquy.Word

namespace Colloquy
namespace Session

/-! ## Actions -/

/-- How an action comes out, what follows from it, and the session after it. -/
structure Effect where
  outcome : Outcome := .done
  frames : List Frame := []
  session : Session

def Effect.ofResult {α : Type} (r : Except Failure α) (frames : List Frame) (s : Session) :
    Effect where
  outcome :=
    match r with
    | .ok _ => .done
    | .error why => .failed why.message
  frames := frames
  session := s

def missing (s : Session) (what : String) : Effect :=
  { outcome := .failed s!"no {what}", session := s }

def named (s : Session) (name : String) (act : Nat → Effect) : Effect :=
  match s.conversations.get? name with
  | some n => act n
  | none => s.missing "conversation"

def answering (s : Session) (scope : Scope) (act : Responder → Effect) : Effect :=
  match scope.responder with
  | some r => act r
  | none => s.missing "request"

def answer (s : Session) (r : Responder) (payload : Json.Value) : Effect :=
  let (result, s) := s.respond r r.deduction (some payload)
  .ofResult result [] s

def send (s : Session) (requester : String) (joins : Option Message) (payload : Json.Value) :
    Effect :=
  match s.requesters.get? requester with
  | none => s.missing "requester"
  | some r =>
    let r := match joins with
      | some m => { r with joins := some m }
      | none => r
    let (result, frames, s) := s.publish r payload
    .ofResult result frames s

def doubled (i : Int) : Int := (2 * i).bmod (Word.size 64)

def answerDouble (s : Session) (r : Responder) : Effect :=
  match r.request.content? with
  | none => s.answer r (.integer 0)
  | some v =>
    match v.asInt (Word.intMin 64) (Word.intMax 64) with
    | .ok i => s.answer r (.integer (doubled i))
    | .error f =>
      let why := Failure.serialization f (v.mismatch "i64")
      { outcome := .failed why.message, session := s }

/-- Shut the messaging context down: first abort its conversations, then stop its timers,
then close the channels. -/
def shutdownContext (s : Session) : List Frame × Session :=
  match s.context with
  | none => ([.closeChannels], s)
  | some x =>
    if x.shutDown then ([], s)
    else
      let s := { s with context := some { x with shutDown := true } }
      ([.abortInboxes .shared s.shared.inboxes.keys .shutDown, .stopTimers .shared,
        .closeChannels], s.note (.contextClosing x.origin.instanceId))

def isRedelivered (s : Session) (scope : Scope) : Bool :=
  match scope.delivery.bind s.deliveries.get? with
  | some d => d.receipt.redelivered
  | none => false

def act (s : Session) (scope : Scope) : Action → Effect
  | .settle call =>
    match scope.delivery with
    | some n => { session := s.settle n call }
    | none => s.missing "delivery"
  | .hold =>
    match scope.delivery with
    | some n => { session := { s with held := s.held ++ [n] } }
    | none => s.missing "delivery"
  | .fail reason => { outcome := .failed reason, session := s }
  | .failUnlessRedelivered reason =>
    if s.isRedelivered scope then { session := s } else { outcome := .failed reason, session := s }
  | .panic reason => { outcome := .panicked reason, session := s }
  | .unsubscribe topic =>
    let (r, c) := s.channels.unsubscribe topic
    .ofResult r [] { s with channels := c }
  | .publish topic draft =>
    let (r, c) := s.channels.publish s.now topic (draft.at s.now)
    .ofResult r [] { s with channels := c }
  | .handle name draft =>
    s.named name fun n =>
      let (frames, s) := s.handle n (draft.at s.now)
      { frames, session := s }
  | .abort name reason =>
    s.named name fun n =>
      let (frames, s) := s.abort n (.internal reason)
      { frames, session := s }
  | .listen name =>
    s.named name fun n =>
      let (r, s) := s.listen n
      .ofResult r [] s
  | .acknowledge timeoutMs remaining =>
    s.answering scope fun r =>
      let (result, s) := s.respond r (r.announcement timeoutMs remaining) none
      .ofResult result [] s
  | .answer payload => s.answering scope fun r => s.answer r payload
  | .echo => s.answering scope fun r => s.answer r (r.request.payload.getD .null)
  | .echoNumbered index =>
    s.answering scope fun r =>
      s.answer r (.object [("echo", r.request.payload.getD .null), ("index", .integer index)])
  | .double => s.answering scope s.answerDouble
  | .holdResponder name =>
    s.answering scope fun r => { session := { s with responders := s.responders.put name r } }
  | .request requester payload => s.send requester none payload
  | .chain requester payload =>
    match scope.message with
    | some m => s.send requester (some m) payload
    | none => s.missing "message"
  | .shutdown =>
    let (frames, s) := s.shutdownContext
    { frames, session := s }

/-! ## Frames -/

def panicText (reason : Option String) : String := reason.getD "request handler panicked"

/-- A request could not be served: call the error handler, or report the failure to the
requester.  In any case the delivery is rejected unless it is settled. -/
def recover (s : Session) (sv : Server) (r : Responder) (delivery : Nat) (reason : String) :
    List Frame × Session :=
  match sv.recovery with
  | some actions =>
    let scope := { delivery := some delivery, responder := some r, message := some r.request }
    ([.script scope actions (.recovery sv delivery)],
      s.happen (.requestFailed sv.name reason r.request.correlation))
  | none =>
    let s := s.note (.requestFailed r.request.correlation r.request.id sv.namesp reason)
    let s :=
      match s.respond r r.deduction (some (Payload.serverError reason).toJson) with
      | (.ok _, s) => s
      | (.error why, s) => s.note (.errorAnswerFailed r.request.correlation why)
    ([], s.settle delivery (.automatic .reject))

def conclude (s : Session) : Outcome → Guard → List Frame × Session
  | .done, .delivery n _ => ([], s.settle n (.automatic .confirm))
  | .failed reason, .delivery n id =>
    let topic := ((s.deliveries.get? n).map fun d => d.receipt.topic).getD ""
    ([], (s.note (.handlerFailed topic id reason)).settle n (.automatic .retry))
  | .panicked _, .delivery n id =>
    let topic := ((s.deliveries.get? n).map fun d => d.receipt.topic).getD ""
    ([], (s.note (.handlerPanicked topic id)).settle n (.automatic .reject))
  | .panicked _, .callback name => ([], s.note (.callbackPanicked name))
  | _, .callback _ => ([], s)
  | .done, .request _ _ _ => ([], s)
  | .failed reason, .request sv r n => s.recover sv r n reason
  | .panicked reason, .request sv r n => s.recover sv r n (panicText reason)
  | .panicked _, .recovery sv n =>
    ([], (s.note (.errorHandlerPanicked sv.namesp)).settle n (.automatic .reject))
  | _, .recovery _ n => ([], s.settle n (.automatic .reject))

/-- Take the first action of a script.  One that does not come out well ends the script. -/
def advance (s : Session) (scope : Scope) (todo : List Action) (guard : Guard) :
    List Frame × Session :=
  match todo with
  | [] => s.conclude .done guard
  | a :: rest =>
    let e := s.act scope a
    match e.outcome with
    | .done => (e.frames ++ [.script scope rest guard], e.session)
    | o => (e.frames ++ [.verdict o guard], e.session)

/-- Call a callback, if there is one for this. -/
def call (s : Session) (callbacks : Callbacks) (r : Report) : List Frame × Session :=
  match callbacks.script? r with
  | none => ([], s)
  | some actions =>
    ([.script { message := callbacks.message? r } actions (.callback r.callback)],
      s.happen (.reported callbacks.owner r))

def perform (s : Session) : Frame → List Frame × Session
  | .script scope todo guard => s.advance scope todo guard
  | .verdict outcome guard => s.conclude outcome guard
  | .report _ callbacks r => s.call callbacks r
  | .close n e =>
    match s.exchanges.get? n with
    | none => ([], s)
    | some x => ([.report (some n) x.callbacks (.ended e), .resolve n e], s.unregister n)
  | .resolve n e => ([], s.resolve n e)
  | .abortInboxes _ [] _ => ([], s)
  | .abortInboxes desk (topic :: rest) why =>
    ([.abortAll (s.inbox desk topic).members.values why, .abortInboxes desk rest why], s)
  | .abortAll [] _ => ([], s)
  | .abortAll (n :: rest) why =>
    let (frames, s) := s.abort n why
    (frames ++ [.abortAll rest why], s)
  | .stopTimers desk =>
    let timers := (s.desk desk).timers
    if timers.stopped then ([], s)
    else ([], (s.setTimers desk timers.stop).note .timersStopped)
  | .closeChannels => ([], { s with channels := s.channels.shutdown })
  | .release worker =>
    match s.channels.broker with
    | .memory b =>
      ([], { s with channels := { s.channels with broker := .memory (b.finish worker) } })
    | .manual _ => ([], s)

/-- The turn of a worker of the broker, if one has something to do. -/
def turn? (s : Session) : Option (List Frame × Session) :=
  match s.channels.broker with
  | .manual _ => none
  | .memory b =>
    let put := fun b => { s with channels := { s.channels with broker := .memory b } }
    match b.turn? with
    | none => none
    | some (.stopped b) => some ([], put b)
    | some (.delivery worker subscriber topic e b) =>
      let (frames, s) := (put b).deliver subscriber topic e
      some (frames ++ [.release worker], s)

end Session

/-! ## Runs -/

structure Machine where
  agenda : List Frame
  session : Session

namespace Machine

/-- One step; `none` if the session is at rest. -/
def step? (m : Machine) : Option Machine :=
  match m.agenda with
  | f :: rest =>
    let (frames, s) := m.session.perform f
    some { agenda := frames ++ rest, session := s }
  | [] => m.session.turn?.map fun (frames, s) => { agenda := frames, session := s }

/-- Some steps, or fewer if the session comes to rest. -/
def run : Nat → Machine → Machine
  | 0, m => m
  | n + 1, m =>
    match m.step? with
    | some m => run n m
    | none => m

variable {R : Machine → Machine → Prop}

/-- A step does what the first frame says or, if there is none, is the turn of a worker. -/
theorem step_cases
    (hperform : ∀ f rest s, R ⟨f :: rest, s⟩ ⟨(s.perform f).1 ++ rest, (s.perform f).2⟩)
    (hturn : ∀ {s frames s'}, s.turn? = some (frames, s') → R ⟨[], s⟩ ⟨frames, s'⟩)
    {m m' : Machine} (h : m.step? = some m') : R m m' := by
  obtain ⟨agenda, s⟩ := m
  cases agenda with
  | nil =>
    obtain ⟨⟨frames, s'⟩, hframes, rfl⟩ := Option.map_eq_some_iff.mp h
    exact hturn hframes
  | cons f rest =>
    cases h
    exact hperform f rest s

/-- A run is nothing but its steps. -/
theorem run_induction (hrefl : ∀ m, R m m)
    (hstep : ∀ {m m' m''}, m.step? = some m' → R m' m'' → R m m'') (n : Nat) (m : Machine) :
    R m (m.run n) := by
  induction n generalizing m with
  | zero => exact hrefl m
  | succ n ih =>
    unfold run
    cases h : m.step? with
    | none => exact hrefl m
    | some m' => exact hstep h (ih m')

end Machine

/-- More steps than an application that comes to rest takes: a conversation can have as many
answers as there are positive numbers of 32 bits, and each takes some steps. -/
def Session.stepLimit : Nat := Word.size 62

/-- Do what is to be done until the session is at rest. -/
def Session.settleAll (s : Session) (frames : List Frame) : Session :=
  (Machine.run Session.stepLimit { agenda := frames, session := s }).session

end Colloquy
