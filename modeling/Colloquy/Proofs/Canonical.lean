/-
What is accepted can be sent on.

Whatever bytes a message is decoded from, in whichever of the forms that are accepted, its numbers
are in range, its times are not before the epoch and its payload is not null.  With whole numbers
only, the message can be written, and the bytes it is written in are the one form that it keeps:
they decode to the message itself, which is written in the same bytes again.
-/
import Colloquy.Proofs.Envelope
import Colloquy.Proofs.Reading

namespace Colloquy

open Json (Yields Value natField intField textField optionalField yields_member yields_natField
  yields_intField)

/-- A required field that is there. -/
theorem Json.present_bind_eq_ok {α β : Type} {o : Option α} {f : α → Except Json.Fault β} {v : β}
    (h : (Json.present o >>= f) = .ok v) : ∃ x, o = some x ∧ f x = .ok v := by
  cases o with
  | none => cases h
  | some x => exact ⟨x, rfl, h⟩

/-- What a field that may be null holds when it is there and not null. -/
theorem Json.forall_mem_join {α : Type} {P : α → Prop} {o : Option (Option α)}
    (h : ∀ p ∈ o, ∀ v ∈ p, P v) : ∀ v ∈ o.join, P v :=
  fun v hv => h (some v) (Option.join_eq_some_iff.mp hv) v rfl

/-! ## Times and stamps -/

theorem Instant.seconds_nonneg_of_ofParts? {s n : Nat} {t : Instant} (h : ofParts? s n = some t) :
    0 ≤ t.seconds := by
  unfold ofParts? at h
  dsimp only at h
  split at h
  · cases h
    have hcarry : (0 : Int) ≤ n / nanosPerSecond := Int.ediv_nonneg (by omega) (by omega)
    show (0 : Int) ≤ s + n / nanosPerSecond
    omega
  · cases h

/-- Nanoseconds carry over, and what is read is never before the epoch. -/
theorem Instant.yields_read (depth : Nat) : Yields (read depth) (0 ≤ ·.seconds) := by
  intro bs t r h
  unfold read at h
  split at h
  · cases h
  · split at h
    · rename_i hparts
      cases h
      exact seconds_nonneg_of_ofParts? hparts
    · cases h

theorem Origin.yields_read (depth : Nat) : Yields (shape.read depth) (·.pid ≤ Word.natMax 32) := by
  refine Json.Shape.yields_read (D := fun d => ∀ n ∈ d.pid, n ≤ Word.natMax 32) nofun ?_ ?_
  · intro inner _
    simp only [shape, List.forall_mem_cons]
    refine ⟨fun d hd => ?_, fun d hd => ?_, fun d hd => ?_, fun d hd => ?_, fun d _ => ?_, nofun⟩
    · exact yields_member (.trivial _) fun _ _ => hd
    · exact yields_member (.trivial _) fun _ _ => hd
    · exact yields_member (.trivial _) fun _ _ => hd
    · exact yields_member (.trivial _) fun _ _ => hd
    · refine yields_member (yields_natField 32) fun n hn => ?_
      rintro _ ⟨⟩
      exact hn
  · intro d o hd ho
    obtain ⟨name, -, ho⟩ := Json.present_bind_eq_ok ho
    obtain ⟨version, -, ho⟩ := Json.present_bind_eq_ok ho
    obtain ⟨instanceId, -, ho⟩ := Json.present_bind_eq_ok ho
    obtain ⟨hostname, -, ho⟩ := Json.present_bind_eq_ok ho
    obtain ⟨pid, hpid, ho⟩ := Json.present_bind_eq_ok ho
    cases ho
    exact hd pid hpid

namespace Stamp

/-- What a draft holds is in range. -/
structure Draft.Sound (d : Draft) : Prop where
  ttl : ∀ o ∈ d.ttl, ∀ n ∈ o, n ≤ Word.natMax 64
  createdAt : ∀ t ∈ d.createdAt, 0 ≤ t.seconds
  publishedAt : ∀ o ∈ d.publishedAt, ∀ t ∈ o, 0 ≤ t.seconds
  durationMs : ∀ o ∈ d.durationMs, ∀ n ∈ o, n ≤ Word.natMax 64
  origin : ∀ o ∈ d.origin, o.pid ≤ Word.natMax 32

theorem yields_read (depth : Nat) : Yields (shape.read depth) Writable := by
  have hblank : Draft.Sound {} := by constructor <;> rintro _ ⟨⟩
  refine Json.Shape.yields_read hblank ?_ ?_
  · intro inner _
    simp only [shape, List.forall_mem_cons]
    refine ⟨fun d hd => ?_, fun d hd => ?_, fun d hd => ?_, fun d hd => ?_, fun d hd => ?_,
      List.forall_mem_nil _⟩
    · refine yields_member (yields_natField 64).optionalField fun o ho => ?_
      exact { hd with ttl := by rintro _ ⟨⟩; exact ho }
    · refine yields_member (Instant.yields_read inner) fun t ht => ?_
      exact { hd with createdAt := by rintro _ ⟨⟩; exact ht }
    · refine yields_member (Instant.yields_read inner).optionalField fun o ho => ?_
      exact { hd with publishedAt := by rintro _ ⟨⟩; exact ho }
    · refine yields_member (yields_natField 64).optionalField fun o ho => ?_
      exact { hd with durationMs := by rintro _ ⟨⟩; exact ho }
    · refine yields_member (Origin.yields_read inner) fun o ho => ?_
      exact { hd with origin := by rintro _ ⟨⟩; exact ho }
  · intro d s hd hs
    obtain ⟨createdAt, hcreated, hs⟩ := Json.present_bind_eq_ok hs
    obtain ⟨origin, horigin, hs⟩ := Json.present_bind_eq_ok hs
    cases hs
    exact {
      createdAt := hd.createdAt _ hcreated
      publishedAt := Json.forall_mem_join hd.publishedAt
      ttl_le := Json.forall_mem_join hd.ttl
      durationMs_le := Json.forall_mem_join hd.durationMs
      pid_le := hd.origin _ horigin }

end Stamp

namespace Ack

structure Draft.Sound (d : Draft) : Prop where
  responsesRemaining : ∀ o ∈ d.responsesRemaining, ∀ n ∈ o,
    Word.intMin 32 ≤ n ∧ n ≤ Word.intMax 32
  timeoutMs : ∀ o ∈ d.timeoutMs, ∀ n ∈ o, n ≤ Word.natMax 64

theorem yields_read (depth : Nat) : Yields (shape.read depth) Writable := by
  have hblank : Draft.Sound {} := by constructor <;> rintro _ ⟨⟩
  refine Json.Shape.yields_read hblank ?_ ?_
  · intro inner _
    simp only [shape, List.forall_mem_cons]
    refine ⟨fun d hd => ?_, fun d hd => ?_, fun d hd => ?_, List.forall_mem_nil _⟩
    · exact yields_member (.trivial _) fun _ _ => { hd with }
    · refine yields_member (yields_intField _ _).optionalField fun o ho => ?_
      exact { hd with responsesRemaining := by rintro _ ⟨⟩; exact ho }
    · refine yields_member (yields_natField 64).optionalField fun o ho => ?_
      exact { hd with timeoutMs := by rintro _ ⟨⟩; exact ho }
  · intro d a hd ha
    obtain ⟨responderId, -, ha⟩ := Json.present_bind_eq_ok ha
    cases ha
    have hremaining := Json.forall_mem_join hd.responsesRemaining
    exact {
      le_responsesRemaining := fun n hn => (hremaining n hn).1
      responsesRemaining_le := fun n hn => (hremaining n hn).2
      timeoutMs_le := Json.forall_mem_join hd.timeoutMs }

end Ack

/-! ## Messages -/

namespace Message

structure Draft.Sound (depth : Nat) (d : Draft) : Prop where
  stamp : ∀ s ∈ d.stamp, s.Writable
  ack : ∀ o ∈ d.ack, ∀ a ∈ o, a.Writable
  payload : ∀ o ∈ d.payload, ∀ v ∈ o, v ≠ .null ∧ (v.isWhole = true → v.Plain depth)

/-- What is decoded can be written if the numbers of its payload are whole.  Its payload is not
null, because null is read as none. -/
theorem yields_read (depth : Nat) :
    Yields (shape.read (depth + 1)) fun m => m.stamp.Writable ∧ (∀ a ∈ m.ack, a.Writable) ∧
      ∀ v ∈ m.payload, v ≠ .null ∧ (v.isWhole = true → v.Plain depth) := by
  have hblank : Draft.Sound depth {} := by constructor <;> rintro _ ⟨⟩
  refine Json.Shape.yields_read hblank ?_ ?_
  · rintro inner ⟨⟩
    simp only [shape, List.forall_mem_cons]
    refine ⟨fun d hd => ?_, fun d hd => ?_, fun d hd => ?_, fun d hd => ?_, fun d hd => ?_,
      fun d hd => ?_, fun d hd => ?_, List.forall_mem_nil _⟩
    · exact yields_member (.trivial _) fun _ _ => { hd with }
    · exact yields_member (.trivial _) fun _ _ => { hd with }
    · exact yields_member (.trivial _) fun _ _ => { hd with }
    · exact yields_member (.trivial _) fun _ _ => { hd with }
    · refine yields_member (Stamp.yields_read depth) fun s hs => ?_
      exact { hd with stamp := by rintro _ ⟨⟩; exact hs }
    · refine yields_member (Ack.yields_read depth).optionalField fun o ho => ?_
      exact { hd with ack := by rintro _ ⟨⟩; exact ho }
    · refine yields_member (Json.yields_optionalValue depth) fun o ho => ?_
      exact { hd with payload := by rintro _ ⟨⟩; exact ho }
  · intro d m hd hm
    obtain ⟨id, -, hm⟩ := Json.present_bind_eq_ok hm
    obtain ⟨correlation, -, hm⟩ := Json.present_bind_eq_ok hm
    obtain ⟨route, -, hm⟩ := Json.present_bind_eq_ok hm
    obtain ⟨stamp, hstamp, hm⟩ := Json.present_bind_eq_ok hm
    cases hm
    exact ⟨hd.stamp _ hstamp, Json.forall_mem_join hd.ack, Json.forall_mem_join hd.payload⟩

theorem content?_of_ne_null {m : Message} (h : ∀ v ∈ m.payload, v ≠ .null) :
    m.content? = m.payload := by
  unfold content?
  cases hp : m.payload with
  | none => rfl
  | some v =>
    have hv : v.isNull = false := by
      cases v <;> first | rfl | exact absurd rfl (h _ hp)
    simp [hv, Option.filter_some]

theorem writable_of_decode {bs : Bytes} {m : Message} (h : decode bs = .ok m)
    (hwhole : ∀ v ∈ m.payload, v.isWhole = true) : m.Writable ∧ m.content? = m.payload := by
  unfold decode Json.document at h
  split at h
  · cases h
  · rename_i hread
    split at h
    · cases h
      obtain ⟨hstamp, hack, hpayload⟩ := yields_read 126 hread
      exact ⟨⟨hstamp, hack, fun v hv => (hpayload v hv).2 (hwhole v hv)⟩,
        content?_of_ne_null fun v hv => (hpayload v hv).1⟩
    · cases h

/-- Every message that is decoded from some bytes, with whole numbers for the numbers of its
payload, is encoded, and the bytes it is encoded in decode to it and to nothing that is encoded
otherwise. -/
theorem encode_of_decode {bs : Bytes} {m : Message} (h : decode bs = .ok m)
    (hwhole : ∀ v ∈ m.payload, v.isWhole = true) :
    ∃ bs', m.encode = .ok bs' ∧ decode bs' = .ok m ∧
      ∀ m', decode bs' = .ok m' → m'.encode = .ok bs' := by
  obtain ⟨hwritable, hcontent⟩ := writable_of_decode h hwhole
  have hencode := encode_eq hwritable
  have hdecode : decode (Value.object m.fields).render = .ok { m with payload := m.content? } :=
    Json.document_of_reads (reads_fields hwritable)
  rw [hcontent] at hdecode
  refine ⟨_, hencode, hdecode, fun m' hm' => ?_⟩
  cases hdecode.symm.trans hm'
  exact hencode

/-- A text with records as lists, nulls, a name that is given twice in the payload, and nanoseconds
that make two seconds. -/
def mixed : Bytes := Utf8.encode
  ("[\"m\",\"\",[],[\"t\"],[null,[1,2000000000],null,5,[\"\",\"\",\"\",\"\",7]],null," ++
    "\x7b\"b\":1,\"b\":-2\x7d]")

theorem encode_of_decode_mixed :
    ∃ m, decode mixed = .ok m ∧ (∀ v ∈ m.payload, v.isWhole = true) ∧
      ∃ bs, m.encode = .ok bs ∧ decode bs = .ok m ∧
        ∀ m', decode bs = .ok m' → m'.encode = .ok bs := by
  have haccepted : (match decode mixed with
      | .ok m => m.payload.all Value.isWhole
      | .error _ => false) = true := by decide +kernel
  -- From here on the text is not to be looked into.
  revert haccepted
  generalize mixed = bs
  intro haccepted
  cases hdecode : decode bs with
  | error why =>
    rw [hdecode] at haccepted
    cases haccepted
  | ok m =>
    rw [hdecode] at haccepted
    have hwhole : ∀ v ∈ m.payload, v.isWhole = true := (Option.all_eq_true _ _).mp haccepted
    exact ⟨m, rfl, hwhole, encode_of_decode hdecode hwhole⟩

end Message

end Colloquy
