/-
Decoding undoes encoding.

Each record of the envelope is read back from its text, given the limits that its types set
on its numbers, that its times are not before the epoch, and that its payload is plain.  The
only thing that does not come back is a payload of null, which comes back as none.
-/
import Colloquy.Proofs.Records

namespace Colloquy

open Json (Reads Fills Value optionalEntry optionalField natField intField textField
  reads_textField reads_intField reads_natField reads_optionalField)
open Json.Shape (fills_member fills_optional reads_object)

theorem Json.reads_optionalText (s : String) :
    Reads (optionalField textField) (Value.text s).render (some s) :=
  reads_optionalField nofun nofun (reads_textField s)

/-- A number from zero on as a value. -/
def Json.ofNat (n : Nat) : Value := .integer n

theorem Json.reads_optionalNat {n : Nat} (h : n ≤ Word.natMax 64) :
    Reads (optionalField (natField 64)) (ofNat n).render (some n) :=
  reads_optionalField nofun nofun (reads_natField h (Nat.le_refl _))

theorem Json.map_integer_coe (o : Option Nat) :
    (do let n ← o; pure (n : Int)).map Value.integer = o.map ofNat := by
  cases o <;> rfl

theorem Json.join_map_some {α : Type} (o : Option α) : (o.map some).join = o := by
  cases o <;> rfl

/-! ## Routes, origins and acknowledgements

`fields` lists the fields of a record as they are written, with every list leaning to the
right, so that one field after the other can be taken off the front. -/

namespace Route

def fields (r : Route) : List (String × Value) :=
  ("to", .text r.destination) ::
    (optionalEntry "response" (r.response.map .text) ++
      (optionalEntry "forward" (r.forward.map .text) ++
        (optionalEntry "routingKey" (r.routingKey.map .text) ++ [])))

theorem toJson_eq (r : Route) : r.toJson = .object r.fields := by
  simp only [toJson, fields, List.cons_append, List.append_assoc, List.append_nil]

theorem reads_toJson (r : Route) (depth : Nat) :
    Reads (shape.read (depth + 1)) r.toJson.render r := by
  rw [toJson_eq]
  refine reads_object (d := {
    destination := some r.destination
    response := r.response.map some
    forward := r.forward.map some
    routingKey := r.routingKey.map some }) ?_ ?_
  · refine fills_member rfl rfl (reads_textField r.destination) ?_
    refine fills_optional (fun x d => { d with response := x }) rfl rfl rfl (fun _ => rfl)
      (fun x _ => Json.reads_optionalText x) ?_
    refine fills_optional (fun x d => { d with forward := x }) rfl rfl rfl (fun _ => rfl)
      (fun x _ => Json.reads_optionalText x) ?_
    refine fills_optional (fun x d => { d with routingKey := x }) rfl rfl rfl (fun _ => rfl)
      (fun x _ => Json.reads_optionalText x) ?_
    exact .nil _
  · simp [shape, Json.present, Json.join_map_some, bind, Except.bind]

end Route

theorem Origin.reads_toJson {o : Origin} (hpid : o.pid ≤ Word.natMax 32) (depth : Nat) :
    Reads (shape.read (depth + 1)) o.toJson.render o := by
  refine reads_object (d := {
    name := some o.name
    version := some o.version
    instanceId := some o.instanceId
    hostname := some o.hostname
    pid := some o.pid }) ?_ rfl
  refine fills_member rfl rfl (reads_textField o.name) ?_
  refine fills_member rfl rfl (reads_textField o.version) ?_
  refine fills_member rfl rfl (reads_textField o.instanceId) ?_
  refine fills_member rfl rfl (reads_textField o.hostname) ?_
  refine fills_member rfl rfl (reads_natField hpid (by decide)) ?_
  exact .nil _

namespace Ack

/-- The numbers of an acknowledgement fit their types. -/
structure Writable (a : Ack) : Prop where
  le_responsesRemaining : ∀ n ∈ a.responsesRemaining, Word.intMin 32 ≤ n
  responsesRemaining_le : ∀ n ∈ a.responsesRemaining, n ≤ Word.intMax 32
  timeoutMs_le : ∀ n ∈ a.timeoutMs, n ≤ Word.natMax 64

def fields (a : Ack) : List (String × Value) :=
  ("responderId", .text a.responderId) ::
    (optionalEntry "responsesRemaining" (a.responsesRemaining.map .integer) ++
      (optionalEntry "timeoutMs" (a.timeoutMs.map Json.ofNat) ++ []))

theorem toJson_eq (a : Ack) : a.toJson = .object a.fields := by
  simp only [toJson, fields, Json.map_integer_coe, List.cons_append, List.append_nil]

theorem reads_toJson {a : Ack} (ha : a.Writable) (depth : Nat) :
    Reads (shape.read (depth + 1)) a.toJson.render a := by
  have hremaining : ∀ n ∈ a.responsesRemaining,
      Reads (optionalField (intField (Word.intMin 32) (Word.intMax 32)))
        (Value.integer n).render (some n) := by
    intro n hn
    have hlo := ha.le_responsesRemaining n hn
    have hhi := ha.responsesRemaining_le n hn
    have hmin : Word.intMin 64 ≤ Word.intMin 32 := by decide
    have hmax : Word.intMax 32 ≤ Word.natMax 64 := by decide
    exact reads_optionalField nofun nofun (reads_intField hlo hhi (by omega) (by omega))
  have htimeout : ∀ n ∈ a.timeoutMs,
      Reads (optionalField (natField 64)) (Json.ofNat n).render (some n) :=
    fun n hn => Json.reads_optionalNat (ha.timeoutMs_le n hn)
  rw [toJson_eq]
  refine reads_object (d := {
    responderId := some a.responderId
    responsesRemaining := a.responsesRemaining.map some
    timeoutMs := a.timeoutMs.map some }) ?_ ?_
  · refine fills_member rfl rfl (reads_textField a.responderId) ?_
    refine fills_optional (fun x d => { d with responsesRemaining := x }) rfl rfl rfl
      (fun _ => rfl) hremaining ?_
    refine fills_optional (fun x d => { d with timeoutMs := x }) rfl rfl rfl (fun _ => rfl)
      htimeout ?_
    exact .nil _
  · simp [shape, Json.present, Json.join_map_some, bind, Except.bind]

end Ack

/-! ## Times and stamps -/

namespace Instant

def fields (t : Instant) : List (String × Value) :=
  [("secs_since_epoch", .integer t.seconds), ("nanos_since_epoch", .integer t.nanoseconds)]

theorem toJson?_eq {t : Instant} (h : 0 ≤ t.seconds) : t.toJson? = some (.object t.fields) :=
  if_pos h

theorem ofParts?_parts {t : Instant} {n : Nat} (h : t.seconds = n) :
    ofParts? n t.nanoseconds = some t := by
  obtain ⟨seconds, nanoseconds, hlt, hle, hge⟩ := t
  subst h
  have hdiv : (nanoseconds : Int) / nanosPerSecond = 0 :=
    Int.ediv_eq_zero_of_lt (by omega) (by omega)
  have hmod : nanoseconds % nanosPerSecond = nanoseconds := Nat.mod_eq_of_lt hlt
  simp [ofParts?, hdiv, hmod, hle, hge]

theorem reads_fields {t : Instant} (h : 0 ≤ t.seconds) (depth : Nat) :
    Reads (read (depth + 1)) (Value.object t.fields).render t := by
  obtain ⟨n, hn⟩ := Int.eq_ofNat_of_zero_le h
  have hlt := t.nanoseconds_lt
  have hle := t.seconds_le
  have hmax : Word.intMax 64 ≤ Word.natMax 64 := by decide
  have hnanos : nanosPerSecond ≤ Word.natMax 32 := by decide
  have hdiv : t.nanoseconds / nanosPerSecond = 0 := Nat.div_eq_of_lt hlt
  have hfills : Fills (shape.entry depth) {} t.fields
      { seconds := some n, nanoseconds := some t.nanoseconds } := by
    rw [fields, hn]
    refine fills_member rfl rfl (reads_natField (by omega) (Nat.le_refl _)) ?_
    refine fills_member rfl rfl (reads_natField (by omega) (by decide)) ?_
    exact .nil _
  have hread := reads_object (v := (n, t.nanoseconds)) hfills (by
    have hfits : n ≤ Word.natMax 64 := by omega
    simp [shape, Json.present, bind, Except.bind, hdiv, hfits])
  intro rest hr
  simp only [read, hread rest hr, ofParts?_parts hn]

end Instant

namespace Stamp

/-- The times of a stamp have a written form, and its numbers fit their types. -/
structure Writable (s : Stamp) : Prop where
  createdAt : 0 ≤ s.createdAt.seconds
  publishedAt : ∀ t ∈ s.publishedAt, 0 ≤ t.seconds
  ttl_le : ∀ n ∈ s.ttl, n ≤ Word.natMax 64
  durationMs_le : ∀ n ∈ s.durationMs, n ≤ Word.natMax 64
  pid_le : s.origin.pid ≤ Word.natMax 32

def fields (s : Stamp) : List (String × Value) :=
  optionalEntry "ttl" (s.ttl.map Json.ofNat) ++
    (("createdAt", .object s.createdAt.fields) ::
      (optionalEntry "publishedAt" (s.publishedAt.map fun t => .object t.fields) ++
        (optionalEntry "durationMs" (s.durationMs.map Json.ofNat) ++
          [("serviceDetails", s.origin.toJson)])))

theorem toJson?_eq {s : Stamp} (hs : s.Writable) : s.toJson? = some (.object s.fields) := by
  have hcreated := Instant.toJson?_eq hs.createdAt
  simp only [toJson?, hcreated, Json.map_integer_coe]
  cases hp : s.publishedAt with
  | none =>
    simp only [fields, hp, bind, Option.bind, Option.map_none, List.append_assoc,
      List.cons_append, List.nil_append]
  | some t =>
    have hpublished := Instant.toJson?_eq (hs.publishedAt t (by simp [hp]))
    simp only [fields, hp, hpublished, bind, Option.bind, Option.map_some, List.append_assoc,
      List.cons_append, List.nil_append]

theorem reads_fields {s : Stamp} (hs : s.Writable) (depth : Nat) :
    Reads (shape.read (depth + 2)) (Value.object s.fields).render s := by
  have hpublished : ∀ t ∈ s.publishedAt,
      Reads (optionalField (Instant.read (depth + 1))) (Value.object t.fields).render (some t) :=
    fun t ht => reads_optionalField nofun nofun
      (Instant.reads_fields (hs.publishedAt t ht) depth)
  have httl : ∀ n ∈ s.ttl, Reads (optionalField (natField 64)) (Json.ofNat n).render (some n) :=
    fun n hn => Json.reads_optionalNat (hs.ttl_le n hn)
  have hduration : ∀ n ∈ s.durationMs,
      Reads (optionalField (natField 64)) (Json.ofNat n).render (some n) :=
    fun n hn => Json.reads_optionalNat (hs.durationMs_le n hn)
  refine reads_object (d := {
    ttl := s.ttl.map some
    createdAt := some s.createdAt
    publishedAt := s.publishedAt.map some
    durationMs := s.durationMs.map some
    origin := some s.origin }) ?_ ?_
  · refine fills_optional (fun x d => { d with ttl := x }) rfl rfl rfl (fun _ => rfl) httl ?_
    refine fills_member rfl rfl (Instant.reads_fields hs.createdAt depth) ?_
    refine fills_optional (fun x d => { d with publishedAt := x }) rfl rfl rfl (fun _ => rfl)
      hpublished ?_
    refine fills_optional (fun x d => { d with durationMs := x }) rfl rfl rfl (fun _ => rfl)
      hduration ?_
    refine fills_member rfl rfl (Origin.reads_toJson hs.pid_le depth) ?_
    exact .nil _
  · simp [shape, Json.present, Json.join_map_some, bind, Except.bind]

end Stamp

/-! ## Messages -/

namespace Message

/-- The times of a message have a written form, its numbers fit their types, and its payload
is plain and nests one container less than a whole document may. -/
structure Writable (m : Message) : Prop where
  stamp : m.stamp.Writable
  ack : ∀ a ∈ m.ack, a.Writable
  payload : ∀ v ∈ m.payload, v.Plain 126

/-- The tags, if there are any. -/
def tags? (m : Message) : Option (List String) :=
  if m.tags.isEmpty then none else some m.tags

theorem getD_tags? (m : Message) : m.tags?.getD [] = m.tags := by
  unfold tags?
  split_ifs with h
  · exact (List.isEmpty_iff.mp h).symm
  · rfl

def fields (m : Message) : List (String × Value) :=
  ("id", .text m.id) :: ("correlationId", .text m.correlation) ::
    (optionalEntry "tags" (m.tags?.map fun ts => .array (ts.map .text)) ++
      (("topics", m.route.toJson) :: ("meta", .object m.stamp.fields) ::
        (optionalEntry "ack" (m.ack.map Ack.toJson) ++
          (optionalEntry "payload" (m.payload.map fun v => v) ++ []))))

/-- The fields up to the stamp. -/
def leading (m : Message) : List (String × Value) :=
  ("id", .text m.id) :: ("correlationId", .text m.correlation) ::
    (optionalEntry "tags" (m.tags?.map fun ts => .array (ts.map .text)) ++
      [("topics", m.route.toJson), ("meta", .object m.stamp.fields)])

/-- The fields behind the stamp. -/
def trailing (m : Message) : List (String × Value) :=
  optionalEntry "ack" (m.ack.map Ack.toJson) ++
    (optionalEntry "payload" (m.payload.map fun v => v) ++ [])

theorem fields_eq (m : Message) : m.fields = m.leading ++ m.trailing := by
  simp only [fields, leading, trailing, List.cons_append, List.append_assoc, List.nil_append]

theorem encode_of_stamp {m : Message} (h : m.stamp.Writable) :
    m.encode = .ok (Value.object m.fields).render := by
  have hjson : m.toJson? = some (.object m.fields) := by
    rw [toJson?, Stamp.toJson?_eq h]
    unfold fields tags?
    split_ifs <;>
      simp only [optionalEntry, bind, Option.bind, Option.map_none, Option.map_some,
        Option.map_id_fun', id_eq, List.cons_append, List.nil_append, List.append_nil]
  rw [encode, hjson]

theorem encode_eq {m : Message} (h : m.Writable) :
    m.encode = .ok (Value.object m.fields).render :=
  encode_of_stamp h.stamp

/-- What reading makes of a payload. -/
theorem reads_payload {depth : Nat} {v : Value} (h : v.Plain depth) :
    Reads (optionalField (Json.value depth)) v.render (if v.isNull then none else some v) := by
  by_cases hn : v = .null
  · subst hn
    exact Json.reads_optionalField_null _
  · have hnull : v.isNull = false := by
      cases v <;> first | rfl | exact absurd rfl hn
    rw [hnull]
    exact reads_optionalField h.ne_double hn (Json.reads_value h)

theorem join_map_payload (o : Option Value) :
    (o.map fun v => if v.isNull then none else some v).join = o.filter fun v => !v.isNull := by
  cases o with
  | none => rfl
  | some v => cases hv : v.isNull <;> simp [hv, Option.filter_some]

/-- The draft of a message when the fields up to the stamp are read. -/
def led (m : Message) : Draft where
  id := some m.id
  correlation := some m.correlation
  tags := m.tags?.map fun ts => ts
  route := some m.route
  stamp := some m.stamp

theorem fills_leading {m : Message} (h : m.stamp.Writable) :
    Fills (shape.entry 126) {} m.leading m.led := by
  have htags : ∀ ts ∈ m.tags?, Reads (Json.listField textField 126)
      (Value.array (ts.map .text)).render ts :=
    fun ts _ => Json.reads_listField (f := .text) (fun _ _ _ => nofun)
      (fun s _ => reads_textField s) 125
  refine fills_member rfl rfl (reads_textField m.id) ?_
  refine fills_member rfl rfl (reads_textField m.correlation) ?_
  refine fills_optional (fun x d => { d with tags := x }) rfl rfl rfl (fun _ => rfl) htags ?_
  refine fills_member rfl rfl (Route.reads_toJson m.route 125) ?_
  refine fills_member rfl rfl (Stamp.reads_fields h 124) ?_
  exact .nil _

theorem reads_fields {m : Message} (h : m.Writable) :
    Reads (shape.read Json.nestingLimit) (Value.object m.fields).render
      { m with payload := m.content? } := by
  have hack : ∀ a ∈ m.ack, Reads (optionalField (Ack.shape.read 126)) a.toJson.render (some a) :=
    fun a ha => by
      have hread := Ack.reads_toJson (h.ack a ha) 125
      rw [Ack.toJson_eq] at hread ⊢
      exact reads_optionalField nofun nofun hread
  have htrailing : Fills (shape.entry 126) m.led m.trailing { m.led with
      ack := m.ack.map some
      payload := m.payload.map fun v => if v.isNull then none else some v } := by
    refine fills_optional (fun x d => { d with ack := x }) rfl rfl rfl (fun _ => rfl) hack ?_
    refine fills_optional (fun x d => { d with payload := x }) rfl rfl rfl (fun _ => rfl)
      (fun v hv => reads_payload (h.payload v hv)) ?_
    exact .nil _
  rw [fields_eq]
  show Reads (shape.read (126 + 1)) _ _
  refine reads_object ((fills_leading h.stamp).append htrailing) ?_
  simp [shape, led, Json.present, Json.join_map_some, getD_tags?, join_map_payload, content?,
    bind, Except.bind]

/-- A message that can be written is written, and what is read back is the message itself,
except that a payload of null is then no payload. -/
theorem decode_encode {m : Message} (h : m.Writable) :
    ∃ bs, m.encode = .ok bs ∧ decode bs = .ok { m with payload := m.content? } ∧
      { m with payload := m.content? }.hasPayload = m.hasPayload := by
  refine ⟨_, encode_eq h, Json.document_of_reads (reads_fields h), ?_⟩
  cases hp : m.payload with
  | none => simp [hasPayload, content?, hp]
  | some v => cases hv : v.isNull <;> simp [hasPayload, content?, hp, hv, Option.filter_some]

/-- A message that leaves nothing out. -/
def laden : Message where
  id := "m-1"
  correlation := "c-1"
  tags := ["é", "\"\n"]
  route := {
    destination := "orders"
    response := some "orders:response"
    forward := some ""
    routingKey := some "key" }
  stamp := {
    ttl := some 1000
    createdAt := Instant.epoch
    publishedAt := some Instant.epoch
    durationMs := some 0
    origin := { name := "shop", version := "1", instanceId := "i", hostname := "h", pid := 7 } }
  ack := some { responderId := "r-1", responsesRemaining := some (-1), timeoutMs := some 500 }
  payload := some (.object [("a", .integer (-1)), ("b", .array [.null, .text "\x00", .bool true])])

theorem decode_encode_laden :
    laden.Writable ∧ ∃ bs, laden.encode = .ok bs ∧ decode bs = .ok laden := by
  have hstamp : laden.stamp.Writable := {
    createdAt := by decide
    publishedAt := by decide
    ttl_le := by decide
    durationMs_le := by decide
    pid_le := by decide }
  have hack : ∀ a ∈ laden.ack, a.Writable := by
    rintro a ⟨⟩
    exact {
      le_responsesRemaining := by decide
      responsesRemaining_le := by decide
      timeoutMs_le := by decide }
  have hitems : ∀ v ∈ [Value.null, .text "\x00", .bool true], v.Plain 124 := by
    simp only [List.forall_mem_cons]
    exact ⟨.null _, .text _ _, .bool _ true, nofun⟩
  have hpayload : ∀ v ∈ laden.payload, v.Plain 126 := by
    rintro v ⟨⟩
    refine .object (by decide) ?_
    simp only [List.forall_mem_cons]
    exact ⟨.integer _ (by decide) (by decide), .array hitems, nofun⟩
  have h : laden.Writable := ⟨hstamp, hack, hpayload⟩
  obtain ⟨bs, hencode, hdecode, -⟩ := decode_encode h
  exact ⟨h, bs, hencode, hdecode⟩

end Message

end Colloquy
