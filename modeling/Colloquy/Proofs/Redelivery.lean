/-
A publication comes to a handler twice at most.

This is about a session whose topics are consumed through its channels, with a broker in memory.
Whatever the handlers do, and whenever: as long as the application does not work on the broker
directly, every invocation of a handler goes back to a publication, and each publication has at
most one invocation that is not flagged as delivered again and at most one that is.  The latter
comes only after a handler had the former and its receipt was settled with a retry.

`Accounts` is the invariant: the broker has what waits of the copies of each publication, and the
receipts of the session are in order with them.
-/
import Colloquy.Proofs.Copies
import Colloquy.Proofs.Custody
import Colloquy.Proofs.Settling

namespace Colloquy

open MemoryBroker (again)

/-! ## Channels -/

namespace Channels

variable {c d : Channels Handler} {ps qs : Multiset (String × Envelope)}
  {b b' : MemoryBroker Subscriber}

/-- The post of a worker is a consumer of its topic. -/
def Serves (c : Channels Handler) (p : String × Subscriber) : Prop :=
  ∃ n k, p.2 = .consumer n ∧ c.made.get? n = some k ∧ k.topic = p.1

theorem Lasting.serves (hl : c.Lasting d) (hc : c.Numbered) {p : String × Subscriber}
    (hp : c.Serves p) : d.Serves p := by
  obtain ⟨n, k, hn, hk, ht⟩ := hp
  obtain ⟨l, hl', hlk⟩ := (hl hc).2 n k hk
  exact ⟨n, l, hn, hl', hlk.trans ht⟩

/-- The channels have a broker in memory that delivers to their consumers, and what waits in it is
among `ps`. -/
structure Served (c : Channels Handler) (ps : Multiset (String × Envelope)) : Prop where
  numbered : c.Numbered
  memory : ∃ b, c.broker = .memory b ∧ b.Sound ∧ b.waiting ≤ ps ∧
    ∀ id p, b.post id = some p → c.Serves p

namespace Served

theorem waiting (h : c.Served ps) (hb : c.broker = .memory b) : b.Sound ∧ b.waiting ≤ ps := by
  obtain ⟨b₀, hb₀, hsound, hwaiting, -⟩ := h.memory
  cases hb₀.symm.trans hb
  exact ⟨hsound, hwaiting⟩

theorem posts (h : c.Served ps) (hb : c.broker = .memory b) {id : Nat} {p : String × Subscriber}
    (hp : b.post id = some p) : c.Serves p := by
  obtain ⟨b₀, hb₀, -, -, hposts⟩ := h.memory
  cases hb₀.symm.trans hb
  exact hposts id p hp

theorem mono (h : c.Served ps) (hle : ps ≤ qs) : c.Served qs := by
  obtain ⟨b, hb, hsound, hwaiting, hposts⟩ := h.memory
  exact ⟨h.numbered, b, hb, hsound, hwaiting.trans hle, hposts⟩

/-- The broker changed, but no post in it is new. -/
theorem changed (h : c.Served ps) (hl : c.Lasting d) (hb : c.broker = .memory b)
    (hd : d.broker = .memory b') (hsound : b'.Sound) (hwaiting : b'.waiting ≤ qs)
    (hposts : ∀ id p, b'.post id = some p → b.post id = some p) : d.Served qs where
  numbered := (hl h.numbered).1
  memory := ⟨b', hd, hsound, hwaiting, fun id p hp =>
    hl.serves h.numbered (h.posts hb (hposts id p hp))⟩

theorem aside (h : c.Served ps) (hl : c.Lasting d) (hd : d.broker = c.broker) : d.Served ps := by
  obtain ⟨b, hb, hsound, hwaiting, -⟩ := h.memory
  exact h.changed hl hb (hd.trans hb) hsound hwaiting fun _ _ => id

/-- The broker was told something about a delivery. -/
theorem told (h : c.Served ps) (hl : c.Lasting d) {x : Settlement} {topic : String} {body : Bytes}
    (hd : d.broker = c.broker.told topic body x) : d.Served (again x topic body + ps) := by
  obtain ⟨b, hb, hsound, hwaiting, -⟩ := h.memory
  have hadds := MemoryBroker.settle_adds hsound x topic body
  rw [hb] at hd
  refine h.changed hl hb hd hadds.sound ?_ hadds.steady.posts
  rw [hadds.waiting, add_comm]
  exact add_le_add_right hwaiting _

/-- The broker was told that a delivery is done with. -/
theorem toldOther (h : c.Served ps) {x : Settlement} (hx : x ≠ .retry) (hl : c.Lasting d)
    {topic : String} {body : Bytes} (hd : d.broker = c.broker.told topic body x) :
    d.Served ps := by
  have hagain : again x topic body = 0 := by
    cases x with
    | retry => exact absurd rfl hx
    | _ => rfl
  have htold := h.told hl hd
  rwa [hagain, zero_add] at htold

theorem published (h : c.Served ps) (hl : c.Lasting d) {topic : String} {key : Option String}
    {body : Bytes} {t : Trace} (hd : c.broker.publish topic key body = .ok (d.broker, t)) :
    d.Served ((topic, { body, redelivered := false }) ::ₘ ps) := by
  obtain ⟨b, hb, hsound, hwaiting, -⟩ := h.memory
  rw [hb] at hd
  obtain ⟨b', hd, hpublish⟩ := Broker.publish_memory hd
  have hadds := MemoryBroker.publish_adds hsound hpublish
  refine h.changed hl hb hd hadds.sound ?_ hadds.steady.posts
  rw [hadds.waiting, add_comm]
  exact add_le_add_right hwaiting _

theorem subscribed (h : c.Served ps) (hl : c.Lasting d) {n : Nat} {k : Consumer Handler}
    {t : Trace} (hk : c.made.get? n = some k)
    (hd : c.broker.subscribe k.topic (.consumer n) = .ok (d.broker, t)) : d.Served ps := by
  obtain ⟨b, hb, hsound, hwaiting, -⟩ := h.memory
  rw [hb] at hd
  obtain ⟨b', hd, hsubscribe⟩ := Broker.subscribe_memory hd
  refine ⟨(hl h.numbered).1, b', hd, MemoryBroker.subscribe_sound hsound hsubscribe,
    (MemoryBroker.subscribe_waiting hsound hsubscribe).symm ▸ hwaiting, fun id p hp => ?_⟩
  obtain hold | rfl := MemoryBroker.subscribe_post hsubscribe hp
  · exact hl.serves h.numbered (h.posts hb hold)
  · exact hl.serves h.numbered ⟨n, k, rfl, hk, rfl⟩

theorem unsubscribed (h : c.Served ps) (hl : c.Lasting d) {topic : String} {t : Trace}
    (hd : c.broker.unsubscribe topic = .ok (d.broker, t)) : d.Served ps := by
  obtain ⟨b, hb, hsound, hwaiting, -⟩ := h.memory
  rw [hb] at hd
  obtain ⟨hd, -⟩ := Prod.mk.inj (Except.ok.inj hd)
  exact h.changed hl hb hd.symm (MemoryBroker.unsubscribe_sound hsound topic)
    ((MemoryBroker.unsubscribe_waiting hsound topic).symm ▸ hwaiting)
    fun _ _ => MemoryBroker.unsubscribe_post hsound topic

theorem shutDown (h : c.Served ps) (hl : c.Lasting d) (hd : d.broker = c.broker.shutdown.1) :
    d.Served ps := by
  obtain ⟨b, hb, hsound, hwaiting, -⟩ := h.memory
  rw [hb] at hd
  exact h.changed hl hb hd (MemoryBroker.shutdown_sound hsound)
    (b.shutdown_waiting.symm ▸ hwaiting) fun id p hp => (b.shutdown_post id).symm.trans hp

end Served

theorem Traffic.not_invokes {log : List Incident} (h : Traffic c log d) :
    ∀ x ∈ log, x.invokes = false := by
  induction h with
  | andThen _ _ ih ih' => exact fun x hx => (List.mem_append.mp hx).elim (ih x) (ih' x)
  | publish _ _ =>
    rintro x hx
    cases List.mem_singleton.mp hx
    rfl
  | _ => simp

/-- What the channels tell their broker makes copies for publications. -/
theorem Traffic.copies {log : List Incident} (h : Traffic c log d) {pre : List Incident}
    {receipts : Receipts} {origin : Nat → Nat} {copies : Multiset Copy}
    (hserved : c.Served (Copy.parcels copies)) (hledger : Ledger pre receipts origin copies) :
    ∃ copies', d.Served (Copy.parcels copies') ∧ Ledger (pre ++ log) receipts origin copies' := by
  induction h generalizing pre copies with
  | aside hl hb => exact ⟨_, hserved.aside hl hb, hledger.grow _⟩
  | publish hl hb =>
    refine ⟨_, ?_, hledger.published _ _⟩
    rw [Copy.parcels_waiting]
    exact hserved.published hl hb
  | subscribe hl hk hb => exact ⟨_, hserved.subscribed hl hk hb, hledger.grow _⟩
  | unsubscribe hl hb => exact ⟨_, hserved.unsubscribed hl hb, hledger.grow _⟩
  | shutdown hl hb => exact ⟨_, hserved.shutDown hl hb, hledger.grow _⟩
  | andThen _ _ ih ih' =>
    obtain ⟨_, hserved, hledger⟩ := ih hserved hledger
    rw [← List.append_assoc]
    exact ih' hserved hledger

end Channels

/-! ## Sessions -/

namespace Session

variable {s s' : Session} {log : List Incident} {n : Nat} {d : Delivery} {body : Bytes}

/-- The receipts of what the broker delivered. -/
def receipts (s : Session) : Receipts := fun n =>
  (s.deliveries.get? n).bind fun d => d.body.map (Prod.mk d.receipt)

theorem receipts_of_same (h : s'.deliveries = s.deliveries) : s'.receipts = s.receipts := by
  unfold receipts
  rw [h]

theorem receipts_put (h : s'.deliveries = s.deliveries.put n d) (hbody : d.body = some body) :
    s'.receipts = Function.update s.receipts n (some (d.receipt, body)) := by
  funext m
  unfold receipts
  rw [h, Table.get?_put, Function.update_apply]
  split_ifs with hm
  · simp [hbody]
  · rfl

/-- A delivery without a body has no receipt that matters. -/
theorem receipts_put_none (h : s'.deliveries = s.deliveries.put n d) (hbody : d.body = none)
    (hn : s.receipts n = none) : s'.receipts = s.receipts := by
  funext m
  unfold receipts
  rw [h, Table.get?_put]
  split_ifs with hm
  · subst hm
    unfold receipts at hn
    rw [hn, Option.bind_some, hbody]
    rfl
  · rfl

theorem settle_channels (s : Session) (n : Nat) (call : Receipt.Call) :
    (s.settle n call).channels.made = s.channels.made ∧
      (s.settle n call).channels.nextNumber = s.channels.nextNumber := by
  unfold Session.settle
  split
  · exact ⟨rfl, rfl⟩
  · simp only
    split
    · unfold forward
      split
      · simp only
        split <;> exact ⟨rfl, rfl⟩
      · split <;> exact ⟨rfl, rfl⟩
    · exact ⟨rfl, rfl⟩

theorem settle_lasting (s : Session) (n : Nat) (call : Receipt.Call) :
    s.channels.Lasting (s.settle n call).channels :=
  .of_same (s.settle_channels n call).1 (s.settle_channels n call).2.symm.le

/-- Of a delivery without a body the broker is told nothing. -/
theorem settle_broker_of_none (hd : s.deliveries.get? n = some d) (hbody : d.body = none)
    (call : Receipt.Call) : (s.settle n call).channels.broker = s.channels.broker := by
  rw [settle_eq hd]
  split
  · unfold forward
    simp only [hbody]
    split <;> rfl
  · rfl

theorem retries_eq (hd : s.deliveries.get? n = some d) (hbody : d.body = some body)
    (call : Receipt.Call) :
    s.retries n call =
      if (d.receipt.call call).forward = some .retry then [.retried n] else [] := by
  simp only [retries, hd, hbody]
  cases (d.receipt.call call).forward with
  | none => rfl
  | some x => cases x <;> rfl

theorem retries_of_none (hd : s.deliveries.get? n = some d) (hbody : d.body = none)
    (call : Receipt.Call) : s.retries n call = [] := by
  simp only [retries, hd, hbody]
  split <;> simp_all

theorem retries_reject (s : Session) (n : Nat) : s.retries n (.automatic .reject) = [] := by
  cases hd : s.deliveries.get? n with
  | none => simp only [retries, hd]
  | some d =>
    cases hbody : d.body with
    | none => exact retries_of_none hd hbody _
    | some body => rw [retries_eq hd hbody, if_neg d.receipt.call_reject_forward_ne_retry]

/-- Only numbers that were given out have a delivery. -/
def Fresh (s : Session) : Prop := ∀ n, s.nextDelivery ≤ n → s.deliveries.get? n = none

theorem Fresh.of_same (h : s.Fresh) (hd : s'.deliveries = s.deliveries)
    (hn : s'.nextDelivery = s.nextDelivery) : s'.Fresh := by
  unfold Fresh
  rw [hd, hn]
  exact h

/-- A delivery that was there is different. -/
theorem Fresh.put (h : s.Fresh) (hn : s.deliveries.get? n = some d) {d' : Delivery}
    (hd : s'.deliveries = s.deliveries.put n d') (hnext : s'.nextDelivery = s.nextDelivery) :
    s'.Fresh := by
  intro m hm
  rw [hnext] at hm
  have hmn : m ≠ n := by
    rintro rfl
    cases (h m hm).symm.trans hn
  rw [hd, Table.get?_put_ne _ hmn]
  exact h m hm

/-- There is a new delivery. -/
theorem Fresh.accept (h : s.Fresh) (receipt : Receipt) (body : Option Bytes) :
    (s.accept receipt body).2.Fresh := fun m hm =>
  have hm : s.nextDelivery < m := hm
  (Table.get?_put_ne _ (Nat.ne_of_gt hm) _).trans (h m (Nat.le_of_lt hm))

theorem Fresh.receipts (h : s.Fresh) : s.receipts s.nextDelivery = none := by
  simp [Session.receipts, h s.nextDelivery (Nat.le_refl _)]

/-- The invariant of a session and what has passed between it and its broker. -/
structure Accounts (log : List Incident) (s : Session) (origin : Nat → Nat)
    (copies : Multiset Copy) : Prop where
  fresh : s.Fresh
  served : s.channels.Served (Copy.parcels copies)
  ledger : Ledger log s.receipts origin copies
  heard : Heard log s.receipts
  invoked : Invoked log s.receipts origin

def Audited (log : List Incident) (s : Session) : Prop :=
  ∃ origin copies, Accounts log s origin copies

/-- The receipts are the same, and what waits. -/
theorem Accounts.of_receipts {origin : Nat → Nat} {copies : Multiset Copy}
    (h : Accounts log s origin copies) (hreceipts : s'.receipts = s.receipts)
    (hfresh : s'.Fresh) (hserved : s'.channels.Served (Copy.parcels copies)) :
    Accounts log s' origin copies where
  fresh := hfresh
  served := hserved
  ledger := hreceipts ▸ h.ledger
  heard := hreceipts ▸ h.heard
  invoked := hreceipts ▸ h.invoked

namespace Audited

theorem aside (h : Audited log s) (hl : s.channels.Lasting s'.channels)
    (hb : s'.channels.broker = s.channels.broker) (hd : s'.deliveries = s.deliveries)
    (hn : s'.nextDelivery = s.nextDelivery) : Audited log s' := by
  obtain ⟨origin, copies, h⟩ := h
  exact ⟨origin, copies, h.of_receipts (receipts_of_same hd) (h.fresh.of_same hd hn)
    (h.served.aside hl hb)⟩

theorem channels (h : Audited log s) {seen : List Incident}
    (ht : s.channels.Traffic seen s'.channels) (hd : s'.deliveries = s.deliveries)
    (hn : s'.nextDelivery = s.nextDelivery) : Audited (log ++ seen) s' := by
  obtain ⟨origin, copies, h⟩ := h
  obtain ⟨copies', hserved, hledger⟩ := ht.copies h.served h.ledger
  refine ⟨origin, copies', h.fresh.of_same hd hn, hserved, ?_, ?_, ?_⟩
  all_goals rw [receipts_of_same hd]
  · exact hledger
  · exact h.heard.grow seen
  · exact h.invoked.grow ht.not_invokes

/-- A call is made on the receipt of a delivery that the broker did not make. -/
theorem settle_of_none (h : Audited log s) (hd : s.deliveries.get? n = some d)
    (hbody : d.body = none) (call : Receipt.Call) : Audited log (s.settle n call) := by
  obtain ⟨origin, copies, h⟩ := h
  have hput := settle_deliveries hd call
  have hnone : s.receipts n = none := by simp [receipts, hd, hbody]
  exact ⟨origin, copies, h.of_receipts (receipts_put_none hput hbody hnone)
    (h.fresh.put hd hput (s.settle_nextDelivery n call))
    (h.served.aside (s.settle_lasting n call) (settle_broker_of_none hd hbody call))⟩

/-- A delivery of the broker is to come again. -/
theorem settle_of_retry (h : Audited log s) (hd : s.deliveries.get? n = some d)
    (hbody : d.body = some body) {call : Receipt.Call}
    (hretry : (d.receipt.call call).forward = some .retry) :
    Audited (log ++ [.retried n]) (s.settle n call) := by
  obtain ⟨origin, copies, h⟩ := h
  have hput := settle_deliveries hd call
  have hn : s.receipts n = some (d.receipt, body) := by simp [receipts, hd, hbody]
  have hr := d.receipt.call_revised call
  have hreceipts := receipts_put hput hbody
  have hbroker := (settle_passes hd hbody call).broker
  obtain ⟨hpending, hstate, -⟩ := Receipt.call_forward hretry
  rw [hretry] at hbroker
  refine ⟨origin, .waiting (origin n) d.receipt.topic ⟨body, true⟩ ::ₘ copies,
    h.fresh.put hd hput (s.settle_nextDelivery n call), ?_, ?_, ?_, ?_⟩
  · rw [Copy.parcels_waiting]
    exact h.served.told (s.settle_lasting n call) hbroker
  all_goals rw [hreceipts]
  · exact (h.ledger.copiedAgain hn hpending (Receipt.call_forward_retry hretry) hr hstate).grow _
  · exact h.heard.revised hn hr fun _ _ => List.mem_singleton_self _
  · refine (h.invoked.revised hn hr).grow fun x hx => ?_
    rw [List.mem_singleton.mp hx]
    rfl

/-- A call is made on the receipt of a delivery of the broker, and the delivery is not to come
again for it. -/
theorem settle_of_other (h : Audited log s) (hd : s.deliveries.get? n = some d)
    (hbody : d.body = some body) {call : Receipt.Call}
    (hother : (d.receipt.call call).forward ≠ some .retry) : Audited log (s.settle n call) := by
  obtain ⟨origin, copies, h⟩ := h
  have hl := s.settle_lasting n call
  have hput := settle_deliveries hd call
  have hn : s.receipts n = some (d.receipt, body) := by simp [receipts, hd, hbody]
  have hr := d.receipt.call_revised call
  have hreceipts := receipts_put hput hbody
  have hbroker := (settle_passes hd hbody call).broker
  refine ⟨origin, copies, h.fresh.put hd hput (s.settle_nextDelivery n call), ?_, ?_, ?_, ?_⟩
  · cases hforward : (d.receipt.call call).forward with
    | none =>
      rw [hforward] at hbroker
      exact h.served.aside hl hbroker
    | some x =>
      rw [hforward] at hbroker hother
      exact h.served.toldOther (fun hx => hother (congrArg some hx)) hl hbroker
  all_goals rw [hreceipts]
  · exact h.ledger.revised hn hr
  · rw [← List.append_nil log]
    refine h.heard.revised hn hr fun hpending hretried => ?_
    exact absurd (Receipt.call_forward_of_retried hpending hretried) hother
  · exact h.invoked.revised hn hr

/-- A call is made on the receipt of a delivery. -/
theorem settle (h : Audited log s) (n : Nat) (call : Receipt.Call) :
    Audited (log ++ s.retries n call) (s.settle n call) := by
  cases hd : s.deliveries.get? n with
  | none =>
    have hretries : s.retries n call = [] := by simp only [retries, hd]
    have hsame : s.settle n call = s := by simp only [Session.settle, hd]
    rwa [hretries, List.append_nil, hsame]
  | some d =>
    cases hbody : d.body with
    | none =>
      rw [retries_of_none hd hbody, List.append_nil]
      exact h.settle_of_none hd hbody call
    | some body =>
      rw [retries_eq hd hbody]
      split_ifs with hretry
      · exact h.settle_of_retry hd hbody hretry
      · rw [List.append_nil]
        exact h.settle_of_other hd hbody hretry

theorem accept (h : Audited log s) (receipt : Receipt) :
    Audited log (s.accept receipt none).2 := by
  obtain ⟨origin, copies, h⟩ := h
  have hreceipts : (s.accept receipt none).2.receipts = s.receipts :=
    receipts_put_none (d := { receipt, body := none }) rfl rfl h.fresh.receipts
  exact ⟨origin, copies, h.of_receipts hreceipts (h.fresh.accept receipt none) h.served⟩

end Audited

/-! ## Deliveries -/

variable {b b' : MemoryBroker Subscriber} {id worker : Nat} {topic : String} {e : Envelope}
  {k : Consumer Handler}

/-- The invariant while the broker has handed over an envelope, which nobody has written a receipt
for. -/
structure InHand (log : List Incident) (s : Session) (topic : String) (e : Envelope)
    (origin : Nat → Nat) (p : Nat) (rest : Multiset Copy) : Prop where
  fresh : s.Fresh
  served : s.channels.Served (Copy.parcels rest)
  ledger : Ledger log s.receipts origin (.waiting p topic e ::ₘ rest)
  heard : Heard log s.receipts
  invoked : Invoked log s.receipts origin

/-- What is delivered to a consumer is a copy that waited, and is for the topic of the consumer. -/
theorem Audited.handOver (h : Audited log s) (hb : s.channels.broker = .memory b)
    (hturn : b.turnOf? id = some (.delivery worker (.consumer n) topic e b')) :
    (∃ origin p rest, InHand log (s.withBroker (.memory b')) topic e origin p rest) ∧
      ∀ k, s.channels.made.get? n = some k → k.topic = topic := by
  obtain ⟨origin, copies, h⟩ := h
  obtain ⟨hsound, hwaiting⟩ := h.served.waiting hb
  have hgives := MemoryBroker.turnOf?_gives hsound hturn
  rw [hgives.waiting, add_comm] at hwaiting
  obtain ⟨p, rest, rfl⟩ := Copy.exists_of_mem_parcels
    (Multiset.mem_of_le hwaiting (Multiset.mem_cons_self (topic, e) _))
  rw [Copy.parcels_waiting] at hwaiting
  have hrest := (Multiset.cons_le_cons_iff (topic, e)).mp hwaiting
  refine ⟨⟨origin, p, rest, h.fresh, ?_, h.ledger, h.heard, h.invoked⟩, fun k hk => ?_⟩
  · exact h.served.changed (.of_same rfl (Nat.le_refl _)) hb rfl hgives.sound hrest
      hgives.steady.posts
  · obtain ⟨m, l, hm, hl, ht⟩ := h.served.posts hb (MemoryBroker.turnOf?_post hturn)
    cases hm
    cases hl.symm.trans hk
    exact ht

theorem received_receipts (s : Session) (k : Consumer Handler) (e : Envelope) :
    (s.received k e).receipts = Function.update s.receipts s.nextDelivery
      (some ({ topic := k.topic, redelivered := e.redelivered }, e.body)) :=
  receipts_put (d := ⟨{ topic := k.topic, redelivered := e.redelivered }, some e.body⟩) rfl rfl

theorem settleRaw_channels (s : Session) (topic : String) (body : Bytes) (x : Settlement) :
    s.channels.Lasting (s.settleRaw topic body x).2.channels ∧
      (s.settleRaw topic body x).2.channels.broker = s.channels.broker.told topic body x := by
  unfold settleRaw Broker.told
  split <;> rename_i hb
  · exact ⟨.of_same rfl (Nat.le_refl _), by rw [hb]; rfl⟩
  · exact ⟨.of_same rfl (Nat.le_refl _), by rw [hb]; rfl⟩

/-- What a delivery to a consumer comes to: its handler gets the message, or it is dropped, or the
consumer is gone. -/
theorem deliver_cases (s : Session) (n : Nat) (topic : String) (e : Envelope) :
    (∃ k m handler, s.channels.made.get? n = some k ∧
        s.invocation n e = [.invoked s.nextDelivery k.topic e.body e.redelivered] ∧
        s.deliver (.consumer n) topic e =
          (s.received k e).dispatch handler s.nextDelivery e.redelivered m) ∨
      (∃ k why, s.channels.made.get? n = some k ∧ s.invocation n e = [] ∧
        s.deliver (.consumer n) topic e =
          ([], ((s.received k e).note why).settle s.nextDelivery (.automatic .reject))) ∨
      s.invocation n e = [] ∧
        s.deliver (.consumer n) topic e = ([], (s.settleRaw topic e.body .reject).2) := by
  simp only [invocation, Session.deliver]
  cases hfound : (if s.hasConsumer n then s.channels.made.get? n else none) with
  | none => exact .inr (.inr ⟨rfl, rfl⟩)
  | some k =>
    have hk : s.channels.made.get? n = some k := by
      split at hfound
      · exact hfound
      · cases hfound
    simp only [consume_eq]
    cases hadmitted : k.admit s.now e.body with
    | admitted m handler => exact .inl ⟨k, m, handler, hk, rfl, rfl⟩
    | undecodable why => exact .inr (.inl ⟨k, _, hk, rfl, rfl⟩)
    | expired m => exact .inr (.inl ⟨k, _, hk, rfl, rfl⟩)
    | unhandled m => exact .inr (.inl ⟨k, _, hk, rfl, rfl⟩)

/-- The message of a delivery comes to the handler of a consumer. -/
theorem Traffic.admitted {m : Message} {handler : Handler} (hb : s.channels.broker = .memory b)
    (hturn : b.turnOf? id = some (.delivery worker (.consumer n) topic e b'))
    (hk : (if s.hasConsumer n then s.channels.made.get? n else none) = some k)
    (hadmitted : k.admit s.now e.body = .admitted m handler) :
    s.Traffic [.invoked s.nextDelivery k.topic e.body e.redelivered]
      (((s.withBroker (.memory b')).received k e).dispatch handler s.nextDelivery e.redelivered
        m).2 := by
  have hseen : s.invocation n e = [.invoked s.nextDelivery k.topic e.body e.redelivered] := by
    simp only [invocation, hk, hadmitted]
  have hdeliver : (s.withBroker (.memory b')).deliver (.consumer n) topic e =
      ((s.withBroker (.memory b')).received k e).dispatch handler s.nextDelivery e.redelivered
        m := by
    have hk' : (if (s.withBroker (.memory b')).hasConsumer n then
        (s.withBroker (.memory b')).channels.made.get? n else none) = some k := hk
    have hadmitted' : k.admit (s.withBroker (.memory b')).now e.body = .admitted m handler :=
      hadmitted
    simp only [Session.deliver, hk', consume_eq, hadmitted']
    rfl
  rw [← hseen, ← hdeliver]
  exact .deliver hb hturn

namespace InHand

variable {origin : Nat → Nat} {p : Nat} {rest : Multiset Copy}

theorem received_served (h : InHand log s topic e origin p rest) (k : Consumer Handler) :
    (s.received k e).channels.Served
      (Copy.parcels (.delivered p e.redelivered s.nextDelivery ::ₘ rest)) := by
  obtain ⟨-, hm, hn⟩ := Channels.monitor_fields s.channels .received k.topic
  rw [Copy.parcels_delivered]
  exact h.served.aside (.of_same hm hn.symm.le) (Channels.monitor_broker _ _ _)

/-- A delivery comes to a handler. -/
theorem admitted (h : InHand log s k.topic e origin p rest) :
    Audited (log ++ [.invoked s.nextDelivery k.topic e.body e.redelivered])
      (s.received k e) := by
  refine ⟨Function.update origin s.nextDelivery p, _, h.fresh.accept _ _, h.received_served k,
    ?_, ?_, ?_⟩
  all_goals rw [received_receipts]
  · exact (h.ledger.handedOver h.fresh.receipts rfl rfl).grow _
  · exact h.heard.entered nofun fun _ => rfl
  · exact h.invoked.handedOver h.heard h.ledger h.fresh.receipts rfl rfl

/-- A delivery is dropped before any handler hears of it. -/
theorem dropped (h : InHand log s k.topic e origin p rest) (why : Note) :
    Audited log (((s.received k e).note why).settle s.nextDelivery (.automatic .reject)) := by
  have hd : ((s.received k e).note why).deliveries.get? s.nextDelivery =
      some ⟨{ topic := k.topic, redelivered := e.redelivered }, some e.body⟩ :=
    s.received_delivery k e
  have hput := settle_deliveries hd (.automatic .reject)
  have hreceipts : (((s.received k e).note why).settle s.nextDelivery
      (.automatic .reject)).receipts = _ := receipts_put hput rfl
  have hentered : ((s.received k e).note why).receipts = _ := s.received_receipts k e
  rw [hentered, Function.update_idem] at hreceipts
  have hnoted : ((s.received k e).note why).channels.Served _ :=
    (h.received_served k).aside (.of_same rfl (Nat.le_refl _)) rfl
  refine ⟨Function.update origin s.nextDelivery p, _,
    Fresh.put (h.fresh.accept _ _) hd hput (settle_nextDelivery _ _ _),
    hnoted.toldOther (x := .reject) nofun (settle_lasting _ _ _)
      (settle_passes hd rfl (.automatic .reject)).broker,
    ?_, ?_, ?_⟩
  all_goals rw [hreceipts]
  · exact h.ledger.handedOver h.fresh.receipts rfl rfl
  · rw [← List.append_nil log]
    exact h.heard.entered nofun nofun
  · exact h.invoked.entered h.fresh.receipts

/-- Nobody is there any more for a delivery. -/
theorem refused (h : InHand log s topic e origin p rest) :
    Audited log (s.settleRaw topic e.body .reject).2 := by
  obtain ⟨hd, hn⟩ := s.settleRaw_deliveries topic e.body .reject
  obtain ⟨hl, hb⟩ := s.settleRaw_channels topic e.body .reject
  have hreceipts := receipts_of_same hd
  refine ⟨origin, .waiting p topic e ::ₘ rest, h.fresh.of_same hd hn, ?_, ?_, ?_, ?_⟩
  · rw [Copy.parcels_waiting]
    exact (h.served.toldOther (x := .reject) nofun hl hb).mono (Multiset.le_cons_self _ _)
  all_goals rw [hreceipts]
  · exact h.ledger
  · exact h.heard
  · exact h.invoked

end InHand

namespace Audited

theorem note (h : Audited log s) (why : Note) : Audited log (s.note why) :=
  h.aside (.of_same rfl (Nat.le_refl _)) rfl rfl rfl

theorem handle (h : Audited log s) (n : Nat) (m : Message) :
    Audited log (s.handle n m).2 := by
  unfold Session.handle
  split
  · exact h
  · rename_i x hx
    split
    · exact h
    · obtain ⟨hd, hn⟩ := s.putWatch_deliveries n x.desk _
      refine h.aside ?_ ?_ hd hn
      · cases x.desk <;> exact .of_same rfl (Nat.le_refl _)
      · cases x.desk <;> rfl

/-- What a handler does at first with a delivery passes nothing to the broker but a rejection. -/
theorem dispatch (h : Audited log s) (handler : Handler) (n : Nat) (redelivered : Bool)
    (m : Message) : Audited log (s.dispatch handler n redelivered m).2 := by
  cases handler with
  | script topic actions => exact h.aside (.of_same rfl (Nat.le_refl _)) rfl rfl rfl
  | server sv => exact h.aside (.of_same rfl (Nat.le_refl _)) rfl rfl rfl
  | inbox desk topic =>
    show Audited log (s.arrive desk topic n m).2
    unfold arrive
    split
    · exact h.handle _ m
    · have hrejected := (h.note (.noConversation m.correlation topic m.id)).settle n
        (.automatic .reject)
      rwa [retries_reject, List.append_nil] at hrejected

/-- A worker delivers to a consumer. -/
theorem deliver (h : Audited log s) (hb : s.channels.broker = .memory b)
    (hturn : b.turnOf? id = some (.delivery worker (.consumer n) topic e b')) :
    Audited (log ++ s.invocation n e)
      ((s.withBroker (.memory b')).deliver (.consumer n) topic e).2 := by
  obtain ⟨⟨origin, p, rest, hheld⟩, htopic⟩ := h.handOver hb hturn
  rw [show s.invocation n e = (s.withBroker (.memory b')).invocation n e from rfl]
  obtain ⟨k, m, handler, hk, hseen, hc⟩ | ⟨k, why, hk, hseen, hc⟩ | ⟨hseen, hc⟩ :=
    (s.withBroker (.memory b')).deliver_cases n topic e
  all_goals rw [hc, hseen]
  · obtain rfl := htopic k hk
    exact hheld.admitted.dispatch _ _ _ _
  · obtain rfl := htopic k hk
    rw [List.append_nil]
    exact hheld.dropped why
  · rw [List.append_nil]
    exact hheld.refused

/-- A worker stops, or is done with a delivery. -/
theorem freed (h : Audited log s) (hb : s.channels.broker = .memory b)
    (hfreed : b.Sound → b'.Sound ∧ b.Steady b' ∧ b'.waiting ≤ b.waiting) :
    Audited log (s.withBroker (.memory b')) := by
  obtain ⟨origin, copies, h⟩ := h
  obtain ⟨hsound, hwaiting⟩ := h.served.waiting hb
  obtain ⟨hsound', hsteady, hless⟩ := hfreed hsound
  exact ⟨origin, copies, h.fresh, h.served.changed (.of_same rfl (Nat.le_refl _)) hb rfl hsound'
    (hless.trans hwaiting) hsteady.posts, h.ledger, h.heard, h.invoked⟩

/-- Whatever passes between a session and its broker keeps the invariant, as long as the application
does not work on the broker directly. -/
theorem traffic {seen : List Incident} (ht : s.Traffic seen s') (h : Audited log s)
    (hraw : .raw ∉ seen) : Audited (log ++ seen) s' := by
  induction ht generalizing log with
  | channels hc hd hn => exact h.channels hc hd hn
  | settle s n call => exact h.settle n call
  | accept s receipt =>
    rw [List.append_nil]
    exact h.accept receipt
  | deliver hb hturn => exact h.deliver hb hturn
  | stop hb hturn =>
    rw [List.append_nil]
    obtain ⟨w, hw, -, ⟨hc, hturn⟩ | ⟨e, r, -, -, hturn⟩⟩ := MemoryBroker.turnOf?_eq_some hturn
    · cases hturn
      exact h.freed hb fun hsound => MemoryBroker.stop_loses hsound hw hc
    · cases hturn
  | finish id hb =>
    rw [List.append_nil]
    exact h.freed hb fun hsound => MemoryBroker.finish_loses hsound id
  | raw s b => exact absurd (List.mem_singleton_self _) hraw
  | byHand s subscriber topic e => exact absurd (List.mem_singleton_self _) hraw
  | andThen _ _ ih ih' =>
    rw [List.mem_append, not_or] at hraw
    rw [← List.append_assoc]
    exact ih' (ih h hraw.1) hraw.2

end Audited

/-! ## Runs -/

/-- The broker is new, and nothing was delivered. -/
structure Pristine (s : Session) : Prop where
  broker : s.channels.broker = .memory {}
  numbered : s.channels.Numbered
  deliveries : s.deliveries = {}

theorem Pristine.audited (h : s.Pristine) : Audited [] s := by
  have hreceipts : s.receipts = fun _ => none := by
    funext n
    simp [receipts, h.deliveries, Table.get?]
  refine ⟨fun _ => 0, 0, fun n _ => ?_, ⟨h.numbered, {}, h.broker, .start, le_refl _, ?_⟩, ?_, ?_,
    ?_⟩
  · rw [h.deliveries]
    rfl
  · rintro id p ⟨⟩
  all_goals rw [hreceipts]
  · exact .start _
  · exact .start
  · exact .start _

/-- The invocations in a log, each with the publication it goes back to. -/
structure Traced (log : List Incident) (origin : Nat → Nat) : Prop where
  /-- A handler gets the body of its publication. -/
  published : ∀ (i n : Nat) topic body again, log[i]? = some (.invoked n topic body again) →
    origin n < i ∧ log[origin n]? = some (.published topic body)
  /-- A publication has at most one invocation that is flagged as delivered again, and at most one
  that is not. -/
  once : ∀ (i j n m : Nat) topic topic' body body' again,
    log[i]? = some (.invoked n topic body again) →
    log[j]? = some (.invoked m topic' body' again) → origin n = origin m → i = j
  /-- The flagged one comes after a retry of the other one. -/
  asked : ∀ (j n : Nat) topic body, log[j]? = some (.invoked n topic body true) →
    ∃ i q m : Nat, i < q ∧ q < j ∧ log[i]? = some (.invoked m topic body false) ∧
      log[q]? = some (.retried m) ∧ origin m = origin n

theorem Accounts.traced {origin : Nat → Nat} {copies : Multiset Copy}
    (h : Accounts log s origin copies) : Traced log origin where
  published := fun i n topic body again hi => by
    obtain ⟨hlt, r, hn, rfl, -⟩ := h.invoked.known i n topic body again hi
    exact ⟨hlt, (h.ledger.entered n r body hn).2⟩
  once := fun i j n m topic topic' body body' again hi hj horigin => by
    obtain ⟨-, r, hn, -, hagain⟩ := h.invoked.known i n topic body again hi
    obtain ⟨-, r', hm, -, hagain'⟩ := h.invoked.known j m topic' body' again hj
    obtain rfl := h.ledger.eq_of_origin_eq hn hm (hagain.trans hagain'.symm) horigin
    exact h.invoked.once i j n topic topic' body body' again again hi hj
  asked := fun j n topic body hj => by
    obtain ⟨-, r, hn, rfl, -⟩ := h.invoked.known j n topic body true hj
    obtain ⟨i, q, m, t, b, hiq, hqj, hi, hq, horigin⟩ := h.invoked.asked j n r.topic body hj
    obtain ⟨-, r', hm, rfl, -⟩ := h.invoked.known i m t b false hi
    have hsame := (h.ledger.entered n r body hn).2.symm.trans
      (horigin ▸ (h.ledger.entered m r' b hm).2)
    obtain ⟨htopic, rfl⟩ := Incident.published.inj (Option.some.inj hsame)
    exact ⟨i, q, m, hiq, hqj, htopic ▸ hi, hq, horigin⟩

/-- As long as the application does not work on the broker directly, a publication leads to at most
two invocations of handlers with its body, whatever the handlers do: one that is not flagged as
delivered again, and one that is, after the first was to be retried. -/
theorem Traffic.redelivered_at_most_once (h : s.Traffic log s') (hs : s.Pristine)
    (hraw : .raw ∉ log) : ∃ origin, Traced log origin := by
  obtain ⟨origin, copies, h⟩ := hs.audited.traffic h hraw
  exact ⟨origin, h.traced⟩

/-- A session with a consumer, whose broker is new. -/
def eager : Session where
  channels :=
    { broker := .memory {}, consumers := ⟨[("t", 0)]⟩, made := ⟨[(0, unrulyConsumer)]⟩
      nextNumber := 1 }
  start := .epoch

theorem eager_pristine : eager.Pristine where
  broker := rfl
  numbered := fun n hn => by
    have hne : (n == 0) = false := by simpa using Nat.ne_of_gt hn
    simp [eager, Table.get?, List.lookup_cons, hne]
  deliveries := rfl

/-- A worker of `eager`. -/
def eagerWorker (queue : List Envelope) (busy cancelled : Bool) : MemoryBroker.Worker Subscriber :=
  { topic := "t", subscriber := .consumer 0, queue, cancelled, busy }

/-- While a handler has the first delivery of a message it is to come again, and its consumer
unsubscribes and subscribes anew.  The new worker delivers it a second time. -/
theorem eager_traffic {m : Message} (hdecode : Message.decode body = .ok m)
    (hexpired : m.isExpired eager.now = false) :
    ∃ s, eager.Traffic [.published "t" body, .invoked 0 "t" body false, .retried 0,
      .invoked 1 "t" body true] s := by
  have hadmitted : unrulyConsumer.admit eager.now body =
      .admitted m (.script "t" unruly.actions) := by
    unfold Consumer.admit
    simp [hdecode, hexpired, unrulyConsumer]
  have hsent : eager.Traffic [.published "t" body] (eager.withBroker (.memory
      { lanes := ⟨[("t", { backlog := [⟨body, false⟩] })]⟩, published := 1 })) :=
    .channels (.publish (.of_same rfl (Nat.le_refl _))
      (show Broker.publish _ "t" none body = .ok (_, []) from rfl)) rfl rfl
  have hsubscribed : eager.Traffic [.published "t" body] (eager.withBroker (.memory
      { lanes := ⟨[("t", { worker := some 0 })]⟩
        workers := ⟨[(0, eagerWorker [⟨body, false⟩] false false)]⟩
        nextWorker := 1, subscribes := ⟨[("t", 1)]⟩, published := 1 })) :=
    hsent.andThen (.channels (.subscribe (n := 0) (t := []) (.of_same rfl (Nat.le_refl _))
      rfl rfl) rfl rfl)
  have hhandling := hsubscribed.andThen
    (.admitted rfl (show MemoryBroker.turnOf? _ 0 = _ from rfl) rfl hadmitted)
  have hretried := hhandling.andThen (.settle _ 0 (.explicit .retry))
  have hcancelled : eager.Traffic _ (withBroker _ (.memory
      { lanes := ⟨[("t", {})]⟩
        workers := ⟨[(0, eagerWorker [⟨body, true⟩] true true)]⟩
        nextWorker := 1, subscribes := ⟨[("t", 1)]⟩, unsubscribes := ⟨[("t", 1)]⟩
        published := 1, retried := 1 })) :=
    hretried.andThen (.channels (.unsubscribe (.of_same rfl (Nat.le_refl _))
      (show Broker.unsubscribe _ "t" = .ok (_, []) from rfl)) rfl rfl)
  have hresubscribed : eager.Traffic _ (withBroker _ (.memory
      { lanes := ⟨[("t", { worker := some 1 })]⟩
        workers := ⟨[(0, eagerWorker [⟨body, true⟩] true true), (1, eagerWorker [] false false)]⟩
        nextWorker := 2, subscribes := ⟨[("t", 2)]⟩, unsubscribes := ⟨[("t", 1)]⟩
        published := 1, retried := 1 })) :=
    hcancelled.andThen (.channels (.subscribe (n := 0) (t := []) (.of_same rfl (Nat.le_refl _))
      rfl rfl) rfl rfl)
  have hagain := (hresubscribed.andThen (.finish 0 rfl)).andThen
    (.admitted rfl (show MemoryBroker.turnOf? _ 1 = _ from rfl) rfl hadmitted)
  exact ⟨_, hagain⟩

theorem Traffic.redelivered_once_after_resubscribing :
    ∃ (body : Bytes) (s : Session) (origin : Nat → Nat), eager.Pristine ∧
      eager.Traffic [.published "t" body, .invoked 0 "t" body false, .retried 0,
        .invoked 1 "t" body true] s ∧
      Traced [.published "t" body, .invoked 0 "t" body false, .retried 0, .invoked 1 "t" body true]
        origin ∧ origin 0 = 0 ∧ origin 1 = 0 := by
  obtain ⟨m, hdecode, hexpired⟩ := greeting_readable
  -- From here on the text is not to be looked into.
  generalize greeting = body at hdecode
  obtain ⟨s, htraffic⟩ := eager_traffic hdecode hexpired
  obtain ⟨origin, htraced⟩ := htraffic.redelivered_at_most_once eager_pristine (by simp)
  have hfirst := (htraced.published 1 0 "t" body false rfl).1
  have hsecond := htraced.published 3 1 "t" body true rfl
  refine ⟨body, s, origin, eager_pristine, htraffic, htraced, by omega, ?_⟩
  have hbefore : origin 1 = 0 ∨ origin 1 = 1 ∨ origin 1 = 2 := by omega
  obtain h | h | h := hbefore
  · exact h
  all_goals
    rw [h] at hsecond
    cases hsecond.2

end Session
end Colloquy
