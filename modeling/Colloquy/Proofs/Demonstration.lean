/-
A demo turns out as it was announced.

The server of a demo announces its answers and sends them all, so how the conversation ends depends
on nothing but the number that the requester waits for.  If the server has as many answers, the last
of them ends the conversation, and that takes no time.  If the requester waits for more, or for the
deadline, the conversation has all the answers when its deadline comes.
-/
import Colloquy.Program
import Colloquy.Proofs.Clock
import Colloquy.Proofs.Rehearsal

namespace Colloquy

theorem Channels.checkNew_of_valid {η : Type} {c : Channels η} {topic : String}
    (h : c.validateTopics = true → Topic.valid topic = true) : c.checkNew topic = .ok () := by
  unfold checkNew Topic.check
  split_ifs with hvalidate hvalid
  · rfl
  · exact absurd (h hvalidate) hvalid
  · rfl

/-! ## Commands -/

namespace Session

variable {s s' : Session} {name requester : String} {r : Requester} {p : Json.Value} {n : Nat}

theorem now_seconds (h : 0 ≤ s.start.seconds) : 0 ≤ s.now.seconds := by
  unfold now Instant.addMillis? Instant.ofParts?
  dsimp only
  split
  · have hcarried := Int.ediv_nonneg
      (Int.natCast_nonneg (s.start.nanoseconds + s.clock % 1000 * 1000000))
      (Int.natCast_nonneg nanosPerSecond)
    show 0 ≤ s.start.seconds + (s.clock : Int) / 1000 + _
    omega
  · exact h

/-- A messaging context is added to a session if its settings are right. -/
theorem withSettings_eq {settings : Settings} (h : settings.check = .ok ()) (s : Session)
    (hostname : String) (pid : Nat) :
    ∃ x ident, s.withSettings settings hostname pid =
        .ok { s with context := some x, nextIdent := ident } ∧
      Settings.validInstanceId x.origin.instanceId = true ∧ x.origin.pid = pid ∧
      x.responseTimeoutMs = settings.responseTimeoutMs := by
  have hvalid : ∀ id, settings.identity.instanceId = some id →
      Settings.validInstanceId id = true := fun id hid => by
    by_contra hnot
    simp only [Settings.check, hid, if_neg hnot] at h
    split_ifs at h
  unfold withSettings
  rw [h]
  cases hid : settings.identity.instanceId with
  | some id => exact ⟨_, _, rfl, hvalid id hid, rfl, rfl⟩
  | none => exact ⟨_, _, rfl, Ident.validInstanceId_text _, rfl, rfl⟩

theorem withContext_eq {x : Context} (h : s.context = some x) (act : Context → Reply × Session) :
    s.withContext act = act x := by
  rw [withContext, h]

theorem run_await (hh : s.handles.get? name = some (.conversation n)) :
    s.run (.await name) = (.status ((s.await (.conversation n)).status (.conversation n)),
      (s.await (.conversation n)).settleAll []) := by
  simp only [run, obey, withTable, hh]

theorem run_send (hr : s.requesters.get? requester = some r)
    (hpublish : s.publish r p = (.ok (some n), [], s')) (name : String) :
    ∃ correlation handles, s.run (.send requester name p) = (.sent (some correlation),
        ({ s'.settleAll [] with handles } : Session).settleAll []) ∧
      handles.get? name = some (.conversation n) := by
  refine ⟨(s'.settleAll []).correlationOf n, (s'.settleAll []).handles.put name (.conversation n),
    ?_, Table.get?_put_self _ _ _⟩
  simp only [run, obey, withTable, hr, sendNamed, offer, hpublish]

/-- The end of the conversation is known when the request is sent. -/
theorem send_await_known (hr : s.requesters.get? requester = some r)
    (hpublish : s.publish r p = (.ok (some n), [], s')) {e : Ending}
    (hknows : (s'.settleAll []).Knows n e) (name : String) :
    ∃ correlation u v, s.run (.send requester name p) = (.sent (some correlation), u) ∧
      u.run (.await name) = (.status (.ended e), v) ∧ v.clock = s'.clock := by
  obtain ⟨correlation, handles, hsend, hhandle⟩ := run_send hr hpublish name
  have hsame : ({ s'.settleAll [] with handles } : Session).Knows n e := hknows.keeps ⟨rfl, rfl⟩
  have hknows' := hsame.settled (show Machine.run 0 ⟨[], _⟩ = ⟨[], _⟩ from rfl) (Nat.zero_le _)
  have hawait := run_await (s := ({ s'.settleAll [] with handles } : Session).settleAll [])
    ((congrArg (·.get? name) (settleAll_handles _ _)).trans hhandle)
  rw [hknows'.await, hknows'.status] at hawait
  refine ⟨correlation, _, _, hsend, hawait, ?_⟩
  rw [settleAll_clock, settleAll_clock]
  exact s'.settleAll_clock []

/-- The conversation is open when the request is sent, and nothing is left to be done. -/
theorem send_await_idle (hr : s.requesters.get? requester = some r) {t : Sitting}
    (hpublish : s.publish r p = (.ok (some t.line.exchange), [], s')) {c : Conversation}
    (hidles : t.Idles c (s'.settleAll [])) (name : String) :
    ∃ correlation u v, s.run (.send requester name p) = (.sent (some correlation), u) ∧
      u.run (.await name) = (.status (.ended (c.ending .responseTimeout)), v) ∧
      v.clock = max s'.clock t.due := by
  obtain ⟨correlation, handles, hsend, hhandle⟩ := run_send hr hpublish name
  have hidles' : t.Idles c ({ s'.settleAll [] with handles } : Session) :=
    hidles.aside ⟨⟨rfl, rfl⟩, rfl, rfl, rfl, rfl, rfl, ⟨rfl, rfl, rfl, rfl⟩⟩ rfl
  obtain ⟨hawait, hknows⟩ := hidles'.await
  have hawaited := run_await (s := { s'.settleAll [] with handles }) hhandle
  rw [hidles'.settleAll] at hsend
  rw [hawait, hknows.status] at hawaited
  refine ⟨correlation, _, _, hsend, hawaited, ?_⟩
  rw [settleAll_clock, letFire_clock]
  exact congrArg (max · t.due) (s'.settleAll_clock [])

theorem run_shutdown_clock (s : Session) : (s.run .shutdown).2.clock = s.clock := by
  show ((s.shutdownContext.2.settleAll s.shutdownContext.1).settleAll []).clock = s.clock
  rw [settleAll_clock, settleAll_clock]
  exact congrArg Prod.fst s.shutdownContext_bearings

end Session

/-! ## Demos -/

namespace Demo

open Session (Status)

variable {d : Demo} {s : Session}

theorem wait_cases (hwait : d.wait ≠ 0) : (Wait.ofInt d.wait).expectsAnswers = true ∧
    (d.wait < 0 ∧ Wait.ofInt d.wait = .untilTimeout ∨
      0 < d.wait ∧ Wait.ofInt d.wait = .exactly d.wait.toNat) := by
  unfold Wait.ofInt
  rw [if_neg hwait]
  split_ifs with hneg
  · exact ⟨rfl, .inl ⟨hneg, rfl⟩⟩
  · have hpos : 0 < d.wait := by omega
    exact ⟨decide_eq_true (Int.pos_iff_toNat_pos.mp hpos), .inr ⟨hpos, rfl⟩⟩

theorem actions_eq (hn : (d.responses : Int) ≤ mostAnnounced) :
    d.actions = Action.recital d.responses := by
  rw [actions, if_neg (not_lt.mpr hn), Action.recital]

theorem payload_plain (depth : Nat) : payload.Plain (depth + 1) :=
  .object (List.pairwise_singleton _ _) fun f hf => by
    cases List.mem_singleton.mp hf
    exact .text _ _

def equipped (d : Demo) (s : Session) : Session :=
  { s with requesters := s.requesters.put name d.requester }

/-- With the requester at hand the server is still all that there is. -/
theorem run_requester (h : s.Attends d.server) {x : Context} (hcontext : s.context = some x) :
    (s.run (.requester name d.requester none)).2 = d.equipped s ∧
      (d.equipped s).Attends d.server ∧
      (d.equipped s).requesters.get? name = some d.requester := by
  have hattends : (d.equipped s).Attends d.server := { h with }
  refine ⟨?_, hattends, Table.get?_put_self _ _ _⟩
  simp only [Session.run, Session.obey, Session.withContext_eq hcontext]
  exact Session.settleAll_of_rest (n := 0) rfl (Nat.zero_le _) hattends.turn

theorem publish_clock {o : Except Failure (Option Nat)} {frames : List Frame} {s' : Session}
    (hpublish : (d.equipped s).publish d.requester payload = (o, frames, s')) :
    s'.clock = s.clock := by
  have hbearings := (d.equipped s).publish_bearings d.requester payload
  rw [hpublish] at hbearings
  exact congrArg Prod.fst hbearings

theorem patience_eq {x : Context} (hcontext : s.context = some x) :
    ((d.equipped s).terms d.requester.options).responseTimeoutMs =
      d.responseTimeoutMs.getD x.responseTimeoutMs := by
  simp only [Session.terms, requester, equipped, hcontext, Option.map_some, Option.getD_some]
  cases d.responseTimeoutMs <;> rfl

/-! ## Conversing -/

section Conversing

variable {x : Context} (h : s.Attends d.server) (hcontext : s.context = some x)
  (hn : (d.responses : Int) ≤ mostAnnounced) (hack : d.ackTimeoutMs = none)
  (hnamesp : s.channels.checkNew d.namesp = .ok ())
  (hresponse : s.channels.checkNew (s.origin.responseTopic d.namesp) = .ok ())

include h hcontext hack hnamesp hresponse

/-- The request begins a sitting if its requester waits for something. -/
theorem request_begins (hwait : d.wait ≠ 0) :
    ∃ (s' : Session) (t : Sitting) (q : Message),
      (d.equipped s).publish d.requester payload = (.ok (some t.line.exchange), [], s') ∧
      t.Begins d.server q (Wait.ofInt d.wait) s' ∧ q.payload.getD .null = payload ∧
      t.due = s.clock + d.responseTimeoutMs.getD x.responseTimeoutMs := by
  obtain ⟨-, hattends, -⟩ := run_requester h hcontext
  obtain ⟨s', t, q, hpublish, hbegins, hpayload, -, hdue⟩ := hattends.publish
    (r := d.requester) (p := payload) rfl (fun x => by cases x <;> rfl) hack
    (wait_cases hwait).1 rfl (payload_plain 125) hnamesp hresponse
  rw [patience_eq hcontext] at hdue
  exact ⟨s', t, q, hpublish, hbegins, by rw [hpayload]; rfl, hdue⟩

include hn

/-- If the server has as many answers as the requester waits for, the conversation ends with the
last of them. -/
theorem converse_completes (hpos : 0 < d.wait) (hle : d.wait ≤ d.responses) :
    ∃ e s', d.converse s = (.ended e, s') ∧ e.Echoes d.responses payload ∧
      e.reason = .allResponsesReceived ∧ s'.clock = s.clock := by
  obtain ⟨hrequester, -, hfound⟩ := run_requester h hcontext
  obtain ⟨s₁, t, q, hpublish, hbegins, hpayload, -⟩ :=
    request_begins h hcontext hack hnamesp hresponse hpos.ne'
  have hplain : (q.payload.getD .null).Plain 125 := hpayload ▸ payload_plain 124
  obtain ⟨hneg, -⟩ | ⟨-, hexactly⟩ := (wait_cases hpos.ne').2
  · exact absurd hneg hpos.asymm
  have hexpected : (Wait.ofInt d.wait).expected ≤ d.responses := by
    rw [hexactly, Wait.expected]
    omega
  obtain ⟨e, hknows, hreason, hechoes⟩ := hbegins.ends_with_answers rfl (actions_eq hn) hn hplain
    (show Wait.ofInt d.wait ≠ .untilTimeout by rw [hexactly]; nofun) (by omega) hexpected
  obtain ⟨correlation, u, v, hsend, hawait, hv⟩ :=
    Session.send_await_known hfound hpublish hknows name
  refine ⟨e, v, ?_, hpayload ▸ hechoes, hreason, hv.trans (publish_clock hpublish)⟩
  simp only [converse, hrequester, hsend, hawait, resultOf]

/-- If the requester waits for more, or for the deadline, then that comes. -/
theorem converse_expires (hwait : d.wait < 0 ∨ (d.responses : Int) < d.wait) :
    ∃ e s', d.converse s = (.ended e, s') ∧ e.Echoes d.responses payload ∧
      e.reason = .responseTimeout ∧
      s'.clock = s.clock + d.responseTimeoutMs.getD x.responseTimeoutMs := by
  have hne : d.wait ≠ 0 := by omega
  obtain ⟨hrequester, -, hfound⟩ := run_requester h hcontext
  obtain ⟨s₁, t, q, hpublish, hbegins, hpayload, hdue⟩ :=
    request_begins h hcontext hack hnamesp hresponse hne
  have hplain : (q.payload.getD .null).Plain 125 := hpayload ▸ payload_plain 124
  have hmore : Wait.ofInt d.wait = .untilTimeout ∨
      d.responses < (Wait.ofInt d.wait).expected := by
    obtain ⟨-, htimeout⟩ | ⟨hpos, hexactly⟩ := (wait_cases hne).2
    · exact .inl htimeout
    · rw [hexactly, Wait.expected]
      omega
  obtain ⟨c, hidles, hechoes⟩ := hbegins.idles_after_answers rfl (actions_eq hn) hn hplain hmore
  obtain ⟨correlation, u, v, hsend, hawait, hv⟩ :=
    Session.send_await_idle hfound hpublish hidles name
  refine ⟨_, v, ?_, hpayload ▸ hechoes .responseTimeout, rfl, ?_⟩
  · simp only [converse, hrequester, hsend, hawait, resultOf]
  · rw [hv, publish_clock hpublish, hdue]
    exact max_eq_right (Nat.le_add_right _ _)

theorem converse_ends (hwait : d.wait ≠ 0) :
    ∃ e s', d.converse s = (.ended e, s') ∧ e.Echoes d.responses payload ∧
      (1 ≤ d.wait ∧ d.wait ≤ d.responses →
        e.reason = .allResponsesReceived ∧ s'.clock = s.clock) ∧
      (d.wait < 0 ∨ (d.responses : Int) < d.wait → e.reason = .responseTimeout ∧
        s'.clock = s.clock + d.responseTimeoutMs.getD x.responseTimeoutMs) := by
  by_cases hin : 1 ≤ d.wait ∧ d.wait ≤ d.responses
  · obtain ⟨e, s', hconverse, hechoes, hends⟩ :=
      converse_completes h hcontext hn hack hnamesp hresponse hin.1 hin.2
    exact ⟨e, s', hconverse, hechoes, fun _ => hends, fun hout => by omega⟩
  · obtain ⟨e, s', hconverse, hechoes, hends⟩ :=
      converse_expires h hcontext hn hack hnamesp hresponse (by omega)
    exact ⟨e, s', hconverse, hechoes, fun h => absurd h hin, fun _ => hends⟩

omit hn hresponse

/-- Without answers to wait for, the request is sent, and that is all. -/
theorem converse_sends (hwait : d.wait = 0) :
    ∃ s', d.converse s = (.sent, s') ∧ s'.clock = s.clock := by
  obtain ⟨hrequester, hattends, hfound⟩ := run_requester h hcontext
  have hopens : d.requester.options.opensConversation = false := by
    simp only [Options.opensConversation, requester, hack, hwait]
    rfl
  obtain ⟨s₁, hpublish⟩ := hattends.publish_unawaited (r := d.requester) (p := payload) hopens rfl
    (payload_plain 125) hnamesp
  have hsend : (d.equipped s).run (.send name name payload) =
      (.sent none, (s₁.settleAll []).settleAll []) := by
    simp only [Session.run, Session.obey, Session.withTable, hfound, Session.sendNamed,
      Session.offer, hpublish]
  refine ⟨(s₁.settleAll []).settleAll [], ?_, ?_⟩
  · simp only [converse, hrequester, hsend]
  · rw [Session.settleAll_clock, Session.settleAll_clock]
    exact publish_clock hpublish

end Conversing

/-! ## Playing -/

theorem play_eq {validateTopics : Bool}
    (hchannels : s.channels = { broker := .memory {}, validateTopics }) {x : Context}
    (hcontext : s.context = some x) (hown : s.own = {}) (hshared : s.shared = {})
    (hnow : 0 ≤ s.now.seconds) (hpid : s.origin.pid ≤ Word.natMax 32)
    (hcheck : s.channels.checkNew d.namesp = .ok ()) :
    ∃ u : Session, u.Attends d.server ∧ u.context = s.context ∧ u.clock = s.clock ∧
      u.channels.validateTopics = validateTopics ∧
      (d.play s).1 = (d.converse u).1 ∧ (d.play s).2.clock = (d.converse u).2.clock := by
  have hserver : (s.run (.server d.server)).2 =
      { s with servers := s.servers.put name d.server } := by
    simp only [Session.run, Session.obey, Session.withContext_eq hcontext]
    refine Session.settleAll_of_rest (n := 0) rfl (Nat.zero_le _) ?_
    exact Session.turn_of_idle (b := {}) (congrArg Channels.broker hchannels) rfl
  have hfound : ({ s with servers := s.servers.put name d.server } : Session).servers.get? name =
      some d.server := Table.get?_put_self _ _ _
  obtain ⟨c, hserve, hattends, hvalidate⟩ := Session.Attends.serve d.server
    (s := { s with servers := s.servers.put name d.server }) hchannels hown hshared hnow hpid hcheck
  have hserves : ({ s with servers := s.servers.put name d.server } : Session).run (.serve name) =
      (.done, { s with servers := s.servers.put name d.server, channels := c }) := by
    simp only [Session.run, Session.obey, Session.withTable, hfound, hserve]
    rw [Session.settleAll_of_rest (n := 0) rfl (Nat.zero_le _) hattends.turn]
  refine ⟨_, hattends, rfl, rfl, hvalidate, ?_, ?_⟩
  · simp only [play, hserver, hserves]
  · simp only [play, hserver, hserves, Session.run_shutdown_clock]

/-- All that is asked of the settings and the surroundings of a demo is that there can be a context
and that its requests can be sent. -/
theorem run_eq (d : Demo) {settings : Settings} {around : Surroundings}
    (hsettings : settings.check = .ok ())
    (hnamesp : settings.validateTopics = true → Topic.valid d.namesp = true)
    (hnow : 0 ≤ around.now.seconds) (hpid : around.pid ≤ Word.natMax 32) :
    ∃ (u : Session) (x : Context), u.Attends d.server ∧ u.context = some x ∧
      x.responseTimeoutMs = settings.responseTimeoutMs ∧ u.clock = 0 ∧
      u.channels.checkNew d.namesp = .ok () ∧
      u.channels.checkNew (u.origin.responseTopic d.namesp) = .ok () ∧
      d.run settings around = ((d.converse u).1, (d.converse u).2.clock) := by
  obtain ⟨x, ident, hcontext, hid, hxpid, htimeout⟩ := Session.withSettings_eq hsettings
    { Session.plain around.now (.memory {}) settings.validateTopics with
      nextIdent := around.firstIdent } around.hostname around.pid
  obtain ⟨u, hattends, hsame, hclock, hvalidate, hresult, hlater⟩ := play_eq (d := d)
    (s := { Session.plain around.now (.memory {}) settings.validateTopics with
      nextIdent := ident, context := some x }) rfl rfl rfl rfl (Session.now_seconds hnow)
    (hxpid.le.trans hpid) (Channels.checkNew_of_valid hnamesp)
  have horigin : u.origin = x.origin := by rw [Session.origin, hsame]
  refine ⟨u, x, hattends, hsame, htimeout, hclock, ?_, ?_, ?_⟩
  · exact Channels.checkNew_of_valid fun hv => hnamesp (hvalidate.symm.trans hv)
  · refine Channels.checkNew_of_valid fun hv => ?_
    rw [horigin]
    exact Topic.valid_forResponses (hnamesp (hvalidate.symm.trans hv)) hid
  · rw [← hresult, ← hlater]
    simp only [run, hcontext]

end Demo

/-! ## What is written -/

/-- Messages that could be published can be written again. -/
theorem Message.mapM_toJson? {ms : List Message} (h : ∀ m ∈ ms, m.stamp.Writable) :
    ∃ vs, ms.mapM Message.toJson? = some vs := by
  induction ms with
  | nil => exact ⟨[], rfl⟩
  | cons m ms ih =>
    obtain ⟨vs, hvs⟩ := ih fun k hk => h k (List.mem_cons_of_mem m hk)
    rw [List.mapM_cons, Message.toJson?, Stamp.toJson?_eq (h m List.mem_cons_self), hvs]
    exact ⟨_, rfl⟩

theorem Ending.Echoes.toJson? {e : Ending} {n : Nat} {v : Json.Value} (h : e.Echoes n v) :
    ∃ report, e.toJson? = some report := by
  obtain ⟨acks, hacks⟩ := Message.mapM_toJson? fun m hm =>
    h.writable m (List.mem_append_left _ hm)
  obtain ⟨payloads, hpayloads⟩ := Message.mapM_toJson? fun m hm =>
    h.writable m (List.mem_append_right e.acks hm)
  rw [Ending.toJson?, hacks, hpayloads]
  exact ⟨_, rfl⟩

namespace Demo

/-- A demo without a window for acknowledgements, with settings that are right and a namespace that
is valid where that is checked, on a machine whose clock shows a time since the epoch.  If its
requester waits for nothing, that is written.  If not, the end of the conversation is written: its
one acknowledgement announces the answers, and the answers are all there in their order.  The last
of them ended the conversation if the requester waited for some of them or for all, which took no
time, and otherwise it ended at its deadline. -/
theorem output_announced (d : Demo) {read : String → Except Failure String} {file : Option String}
    {settings : Settings} {around : Surroundings}
    (hread : Invocation.settings read file = .ok settings) (hsettings : settings.check = .ok ())
    (hnamesp : settings.validateTopics = true → Topic.valid d.namesp = true)
    (hn : (d.responses : Int) ≤ Word.intMax 32) (hack : d.ackTimeoutMs = none)
    (hnow : 0 ≤ around.now.seconds) (hpid : around.pid ≤ Word.natMax 32) :
    (d.wait = 0 → (Invocation.demo file d).run read around =
      { stdout := Output.lines ["\x7b\"published\":true,\"waited\":false\x7d"] }) ∧
    (d.wait ≠ 0 → ∃ (e : Ending) (report : Json.Value) (elapsedMs : Nat),
      (Invocation.demo file d).run read around =
        { stdout := Output.lines [report.pretty], elapsedMs } ∧
      e.toJson? = some report ∧
      (∃ (m : Message) (responder : String), e.acks = [m] ∧
        m.ack = some { responderId := responder, responsesRemaining := some d.responses }) ∧
      e.payloads.map Message.payload = (List.range d.responses).map (fun i =>
        some (.object [("echo", payload), ("index", .integer i)])) ∧
      (1 ≤ d.wait ∧ d.wait ≤ d.responses →
        e.reason = .allResponsesReceived ∧ elapsedMs = 0) ∧
      (d.wait < 0 ∨ (d.responses : Int) < d.wait → e.reason = .responseTimeout ∧
        elapsedMs = d.responseTimeoutMs.getD settings.responseTimeoutMs)) := by
  obtain ⟨u, x, hattends, hcontext, htimeout, hclock, hrequests, hanswers, hrun⟩ :=
    d.run_eq hsettings hnamesp hnow hpid
  have houtput : (Invocation.demo file d).run read around =
      .ofDemo (d.converse u).1 (d.converse u).2.clock := by
    simp only [Invocation.run, hread, hrun]
  rw [houtput]
  refine ⟨fun hwait => ?_, fun hwait => ?_⟩
  · obtain ⟨s', hconverse, hsame⟩ := converse_sends hattends hcontext hack hrequests hwait
    have hwritten : Output.ofDemo .sent 0 =
        { stdout := Output.lines ["\x7b\"published\":true,\"waited\":false\x7d"] } := by
      decide +kernel
    rw [hconverse, hsame, hclock]
    exact hwritten
  · obtain ⟨e, s', hconverse, hechoes, hends, hlate⟩ :=
      converse_ends hattends hcontext hn hack hrequests hanswers hwait
    obtain ⟨report, hreport⟩ := hechoes.toJson?
    rw [hconverse]
    refine ⟨e, report, s'.clock, ?_, hreport, hechoes.acks, hechoes.payloads, ?_, ?_⟩
    · simp only [Output.ofDemo, hreport]
    · rw [hclock] at hends
      exact hends
    · rw [hclock, htimeout, Nat.zero_add] at hlate
      exact hlate

/-- A program that starts at the epoch. -/
def morning : Surroundings where
  now := .epoch
  hostname := "desk"
  pid := 1

/-- Three answers for a requester that waits for two of them. -/
theorem output_announced_three :
    Invocation.settings (fun _ => .ok "") none = .ok {} ∧
      ∃ (e : Ending) (report : Json.Value), e.toJson? = some report ∧
        (Invocation.demo none { responses := 3, wait := 2 }).run (fun _ => .ok "") morning =
          { stdout := Output.lines [report.pretty] } ∧
        e.reason = .allResponsesReceived ∧ e.payloads.length = 3 := by
  obtain ⟨e, report, elapsedMs, houtput, hreport, -, hpayloads, hends, -⟩ :=
    (@output_announced { responses := 3, wait := 2 } (fun _ => .ok "") none {} morning rfl
      (by decide +kernel) (fun _ => by decide +kernel) (by decide) rfl (by decide +kernel)
      (by decide)).2 (by decide)
  obtain ⟨hreason, rfl⟩ := hends (by decide)
  refine ⟨rfl, e, report, hreport, houtput, hreason, ?_⟩
  rw [← List.length_map, hpayloads]
  rfl

end Demo
end Colloquy
