/-
When messages expire.

Instants are pairs of seconds and nanoseconds, but all that is done with them is exact in
nanoseconds since the epoch: the order, the sum with a time to live, which exists if the seconds of
the result fit their 64 bits, and the time that has passed.  So a message is expired when the time
it was made and its time to live together are not after the present.
-/
import Colloquy.Proofs.Canonical

namespace Colloquy

/-! ## Instants -/

namespace Instant

/-- The nanoseconds since the epoch whose seconds fit 64 bits. -/
def Representable (n : Int) : Prop :=
  Word.intMin 64 * nanosPerSecond ≤ n ∧ n < (Word.intMax 64 + 1) * nanosPerSecond

variable {t u : Instant}

theorem nanosPerSecond_eq : (nanosPerSecond : Int) = 1000000000 := rfl

/-- The seconds of an instant and its nanoseconds are the digits of one number. -/
theorem toNanos_eq_iff {s : Int} {n : Nat} (hn : n < nanosPerSecond) :
    t.toNanos = s * nanosPerSecond + n ↔ t.seconds = s ∧ t.nanoseconds = n := by
  have ht := t.nanoseconds_lt
  unfold nanosPerSecond at ht hn
  rw [toNanos, nanosPerSecond_eq]
  omega

theorem representable_toNanos (t : Instant) : Representable t.toNanos := by
  have ht := t.nanoseconds_lt
  have hlo := t.le_seconds
  have hhi := t.seconds_le
  unfold nanosPerSecond at ht
  rw [Representable, toNanos, nanosPerSecond_eq]
  omega

theorem ofParts?_eq_some_iff {s : Int} {n : Nat} :
    ofParts? s n = some t ↔ t.toNanos = s * nanosPerSecond + n := by
  have hcarry : s * nanosPerSecond + n =
      (s + n / nanosPerSecond) * nanosPerSecond + (n % nanosPerSecond : Nat) := by
    rw [nanosPerSecond_eq, nanosPerSecond]
    omega
  rw [hcarry, toNanos_eq_iff (Nat.mod_lt n (by decide)), ofParts?]
  obtain ⟨seconds, nanoseconds, hlt, hle, hge⟩ := t
  dsimp only
  split
  · rw [Option.some.injEq, mk.injEq]
    constructor
    · rintro ⟨rfl, rfl⟩
      exact ⟨rfl, rfl⟩
    · rintro ⟨rfl, rfl⟩
      exact ⟨rfl, rfl⟩
  · rename_i hout
    constructor
    · intro h
      cases h
    · rintro ⟨rfl, -⟩
      exact absurd ⟨hle, hge⟩ hout

/-- There is an instant at every representable number of nanoseconds. -/
theorem exists_toNanos_iff {n : Int} : (∃ t : Instant, t.toNanos = n) ↔ Representable n := by
  constructor
  · rintro ⟨t, rfl⟩
    exact t.representable_toNanos
  · intro h
    rw [Representable, nanosPerSecond_eq] at h
    let t : Instant := {
      seconds := n / nanosPerSecond
      nanoseconds := (n % nanosPerSecond).toNat
      nanoseconds_lt := by
        unfold nanosPerSecond
        omega
      le_seconds := by
        rw [nanosPerSecond_eq]
        omega
      seconds_le := by
        rw [nanosPerSecond_eq]
        omega }
    refine ⟨t, ?_⟩
    show n / nanosPerSecond * nanosPerSecond + ((n % nanosPerSecond).toNat : Int) = n
    rw [nanosPerSecond_eq]
    omega

theorem ble_iff : t.ble u = true ↔ t.toNanos ≤ u.toNanos := by
  have ht := t.nanoseconds_lt
  have hu := u.nanoseconds_lt
  unfold nanosPerSecond at ht hu
  rw [ble, toNanos, toNanos, nanosPerSecond_eq]
  simp only [Bool.or_eq_true, Bool.and_eq_true, decide_eq_true_eq, beq_iff_eq]
  omega

theorem addMillis?_eq_some_iff {ms : Nat} :
    t.addMillis? ms = some u ↔ u.toNanos = t.toNanos + ms * 1000000 := by
  rw [addMillis?, ofParts?_eq_some_iff, toNanos, toNanos, nanosPerSecond_eq]
  push_cast
  omega

theorem nanosUntil?_eq_some_iff {n : Nat} :
    t.nanosUntil? u = some n ↔ t.toNanos + n = u.toNanos := by
  rw [nanosUntil?]
  split
  · rename_i h
    rw [ble_iff] at h
    rw [Option.some.injEq]
    omega
  · rename_i h
    rw [ble_iff] at h
    constructor
    · intro h'
      cases h'
    · intro h'
      omega

end Instant

/-! ## Stamps on the way -/

namespace Stamp

/-- The numbers of a stamp fit their types. -/
structure Fits (s : Stamp) : Prop where
  ttl_le : ∀ n ∈ s.ttl, n ≤ Word.natMax 64
  durationMs_le : ∀ n ∈ s.durationMs, n ≤ Word.natMax 64
  pid_le : s.origin.pid ≤ Word.natMax 32

theorem Writable.fits {s : Stamp} (h : s.Writable) : s.Fits := { h with }

/-- A stamp that is written has no time before the epoch. -/
theorem writable_of_toJson? {s : Stamp} (hs : s.Fits) {v : Json.Value} (h : s.toJson? = some v) :
    s.Writable := by
  have hwritten : ∀ {t : Instant} {w : Json.Value}, t.toJson? = some w → 0 ≤ t.seconds := by
    intro t w ht
    unfold Instant.toJson? at ht
    split at ht
    · assumption
    · cases ht
  obtain ⟨created, hcreated, h⟩ := Option.bind_eq_some_iff.mp h
  refine { hs with createdAt := hwritten hcreated, publishedAt := ?_ }
  intro t ht
  rw [Option.mem_def.mp ht] at h
  obtain ⟨published, hpublished, -⟩ := Option.bind_eq_some_iff.mp h
  obtain ⟨w, hw, -⟩ := Option.map_eq_some_iff.mp hpublished
  exact hwritten hw

end Stamp

namespace Message

open Json (Yields Value yields_member)

/-- A stamp that has been read stays in the draft, whatever fields come after it. -/
theorem yields_stamp (depth : Nat) (s : Stamp) (rounds : Bytes) (first : Bool) {d : Draft}
    (hd : d.stamp = some s) :
    Yields (Json.entries (shape.entry depth) rounds first d) (·.stamp = some s) := by
  refine Json.yields_entries (fun d name read hd he => ?_) rounds first hd
  refine Json.Shape.yields_entry (D := (·.stamp = some s)) ?_ hd he
  simp only [shape, List.forall_mem_cons]
  refine ⟨fun d hd _ => ?_, fun d hd _ => ?_, fun d hd _ => ?_, fun d hd _ => ?_,
    fun d hd hgiven => ?_, fun d hd _ => ?_, fun d hd _ => ?_, List.forall_mem_nil _⟩
  · exact yields_member (.trivial _) fun _ _ => hd
  · exact yields_member (.trivial _) fun _ _ => hd
  · exact yields_member (.trivial _) fun _ _ => hd
  · exact yields_member (.trivial _) fun _ _ => hd
  · have hnone : d.stamp.isSome = false := hgiven
    rw [hd] at hnone
    cases hnone
  · exact yields_member (.trivial _) fun _ _ => hd
  · exact yields_member (.trivial _) fun _ _ => hd

theorem stamp_of_finish {d : Draft} {m : Message} {s : Stamp} (hd : d.stamp = some s)
    (h : shape.finish d = .ok m) : m.stamp = s := by
  obtain ⟨id, -, h⟩ := Json.present_bind_eq_ok h
  obtain ⟨correlation, -, h⟩ := Json.present_bind_eq_ok h
  obtain ⟨route, -, h⟩ := Json.present_bind_eq_ok h
  obtain ⟨stamp, hstamp, h⟩ := Json.present_bind_eq_ok h
  cases h
  exact Option.some.inj (hstamp.symm.trans hd)

/-- Whatever a message carries, its stamp is the one that is read. -/
theorem stamp_of_decode {m m' : Message} (hs : m.stamp.Writable)
    (h : decode (Value.object m.fields).render = .ok m') : m'.stamp = m.stamp := by
  obtain ⟨r, left, hr, -, hrun⟩ :=
    Json.entries_render_append (fills_leading hs) m.trailing []
  have hbytes : (Value.object m.fields).render = Json.openObject :: r := by
    rw [fields_eq, ← hr, List.append_nil]
    rfl
  rw [hbytes, decode, Json.document, Json.nestingLimit, Json.Shape.read_openObject] at h
  cases hdraft : Json.entries (shape.entry 126) r true shape.blank r with
  | error why =>
    rw [hdraft] at h
    cases h
  | ok p =>
    obtain ⟨draft, rest⟩ := p
    have hstamp : draft.stamp = some m.stamp :=
      yields_stamp 126 m.stamp left false rfl (hrun.symm.trans hdraft)
    rw [hdraft] at h
    dsimp only at h
    cases hfinish : shape.finish draft with
    | error why =>
      rw [hfinish] at h
      cases h
    | ok k =>
      rw [hfinish] at h
      dsimp only [Except.map] at h
      split at h
      · cases h
        exact stamp_of_finish hstamp hfinish
      · cases h

/-- What is encoded has a stamp that can be written. -/
theorem stamp_of_encode {m : Message} {bs : Bytes} (hs : m.stamp.Fits) (h : m.encode = .ok bs) :
    m.stamp.Writable ∧ bs = (Value.object m.fields).render := by
  have hstamp : m.stamp.Writable := by
    cases hjson : m.toJson? with
    | none =>
      rw [encode, hjson] at h
      cases h
    | some v =>
      obtain ⟨w, hw, -⟩ := Option.bind_eq_some_iff.mp hjson
      exact Stamp.writable_of_toJson? hs hw
  rw [encode_of_stamp hstamp] at h
  cases h
  exact ⟨hstamp, rfl⟩

/-! ## Expiry -/

/-- A message with another time to live. -/
def withTtl (m : Message) (ttl : Nat) : Message :=
  { m with stamp := { m.stamp with ttl := some ttl } }

variable {m : Message} {now later : Instant} {ttl : Nat}

theorem isExpired_of_none (h : m.stamp.ttl = none) (now : Instant) : m.isExpired now = false := by
  unfold isExpired
  rw [h]

theorem isExpired_of_some (h : m.stamp.ttl = some ttl) :
    m.isExpired now = true ↔
      Instant.Representable (m.stamp.createdAt.toNanos + ttl * 1000000) ∧
        m.stamp.createdAt.toNanos + ttl * 1000000 ≤ now.toNanos := by
  unfold isExpired
  rw [h]
  dsimp only
  cases hend : m.stamp.createdAt.addMillis? ttl with
  | none =>
    constructor
    · intro hfalse
      cases hfalse
    · rintro ⟨hfits, -⟩
      obtain ⟨t, ht⟩ := Instant.exists_toNanos_iff.mpr hfits
      rw [Instant.addMillis?_eq_some_iff.mpr ht] at hend
      cases hend
  | some t =>
    have ht := Instant.addMillis?_eq_some_iff.mp hend
    rw [← ht]
    constructor
    · intro hle
      exact ⟨t.representable_toNanos, Instant.ble_iff.mp hle⟩
    · rintro ⟨-, hle⟩
      exact Instant.ble_iff.mpr hle

theorem isExpired_iff :
    m.isExpired now = true ↔ ∃ ttl, m.stamp.ttl = some ttl ∧
      Instant.Representable (m.stamp.createdAt.toNanos + ttl * 1000000) ∧
      m.stamp.createdAt.toNanos + ttl * 1000000 ≤ now.toNanos := by
  cases h : m.stamp.ttl with
  | none =>
    rw [isExpired_of_none h]
    constructor
    · intro hfalse
      cases hfalse
    · rintro ⟨ttl, hsome, -⟩
      cases hsome
  | some ttl =>
    rw [isExpired_of_some h]
    constructor
    · rintro ⟨hfits, hle⟩
      exact ⟨ttl, rfl, hfits, hle⟩
    · rintro ⟨_, ⟨⟩, hfits, hle⟩
      exact ⟨hfits, hle⟩

/-- Only the stamp of a message says when it expires. -/
theorem isExpired_congr {m' : Message} (h : m'.stamp = m.stamp) (now : Instant) :
    m'.isExpired now = m.isExpired now := by
  unfold isExpired
  rw [h]

theorem isExpired_mono (h : now.toNanos ≤ later.toNanos) (hnow : m.isExpired now = true) :
    m.isExpired later = true := by
  obtain ⟨ttl, httl, hfits, hle⟩ := isExpired_iff.mp hnow
  exact isExpired_iff.mpr ⟨ttl, httl, hfits, hle.trans h⟩

theorem isExpired_anti {more : Nat} (h : ttl ≤ more)
    (hmore : (m.withTtl more).isExpired now = true) : (m.withTtl ttl).isExpired now = true := by
  obtain ⟨⟨-, hhi⟩, hle⟩ := (isExpired_of_some (m := m.withTtl more) rfl).mp hmore
  have hlo := m.stamp.createdAt.representable_toNanos.1
  have hsum : m.stamp.createdAt.toNanos + ttl * 1000000 ≤
      m.stamp.createdAt.toNanos + more * 1000000 := by omega
  refine (isExpired_of_some (m := m.withTtl ttl) rfl).mpr ⟨⟨?_, ?_⟩, ?_⟩
  · show _ ≤ m.stamp.createdAt.toNanos + _
    omega
  · exact lt_of_le_of_lt hsum hhi
  · exact hsum.trans hle

theorem durationMs_markPublished {d : Nat} :
    (m.markPublished now).stamp.durationMs = some d ↔
      m.stamp.createdAt.toNanos ≤ now.toNanos ∧
        (d : Int) = (now.toNanos - m.stamp.createdAt.toNanos) / 1000000 % 2 ^ 64 := by
  have hsize : Word.size 64 = 2 ^ 64 := rfl
  show (m.stamp.createdAt.nanosUntil? now).map _ = some d ↔ _
  rw [Option.map_eq_some_iff, hsize]
  constructor
  · rintro ⟨n, hn, rfl⟩
    have hsum := Instant.nanosUntil?_eq_some_iff.mp hn
    have hn' : now.toNanos - m.stamp.createdAt.toNanos = n := by omega
    rw [hn']
    exact ⟨by omega, by push_cast; rfl⟩
  · rintro ⟨hle, hd⟩
    refine ⟨(now.toNanos - m.stamp.createdAt.toNanos).toNat, ?_, ?_⟩
    · rw [Instant.nanosUntil?_eq_some_iff]
      omega
    · omega

/-- A message is expired exactly when it has a time to live that ends at an instant, and this is
not after the present.  So it stays expired, and it is expired all the more with a shorter time to
live.  What is decoded of it when it was encoded expires when it does, and a message that can be
written is encoded and decoded.  It takes note of a duration when it is not published before it was
made, and that is the whole milliseconds that passed, in 64 bits. -/
theorem expiry_exact (m : Message) :
    (∀ now, m.isExpired now = true ↔ ∃ ttl, m.stamp.ttl = some ttl ∧
      Instant.Representable (m.stamp.createdAt.toNanos + ttl * 1000000) ∧
      m.stamp.createdAt.toNanos + ttl * 1000000 ≤ now.toNanos) ∧
    (∀ now later, now.toNanos ≤ later.toNanos → m.isExpired now = true →
      m.isExpired later = true) ∧
    (∀ now ttl more, ttl ≤ more → (m.withTtl more).isExpired now = true →
      (m.withTtl ttl).isExpired now = true) ∧
    (∀ bs m', m.stamp.Fits → m.encode = .ok bs → decode bs = .ok m' →
      ∀ now, m'.isExpired now = m.isExpired now) ∧
    (m.Writable → ∃ bs m', m.encode = .ok bs ∧ decode bs = .ok m') ∧
    ∀ now d, (m.markPublished now).stamp.durationMs = some d ↔
      m.stamp.createdAt.toNanos ≤ now.toNanos ∧
        (d : Int) = (now.toNanos - m.stamp.createdAt.toNanos) / 1000000 % 2 ^ 64 := by
  refine ⟨fun now => isExpired_iff, fun now later => isExpired_mono, fun now ttl more =>
    isExpired_anti, ?_, ?_, fun now d => durationMs_markPublished⟩
  · intro bs m' hfits hencode hdecode now
    obtain ⟨hs, hbs⟩ := stamp_of_encode hfits hencode
    rw [hbs] at hdecode
    exact isExpired_congr (stamp_of_decode hs hdecode) now
  · intro h
    exact ⟨_, _, encode_eq h, Json.document_of_reads (reads_fields h)⟩

/-- A message from two and a half seconds before the epoch, good until the epoch. -/
def ageing : Message where
  id := "m"
  correlation := "c"
  route := { destination := "a:b" }
  stamp := {
    ttl := some 2500
    createdAt := {
      seconds := -3
      nanoseconds := 500000000
      nanoseconds_lt := by decide
      le_seconds := by decide
      seconds_le := by decide }
    origin := { name := "svc", version := "1", instanceId := "i-1", hostname := "h", pid := 1 } }

/-- The same message, made at the epoch. -/
def recent : Message := { ageing with stamp := { ageing.stamp with createdAt := .epoch } }

theorem expiry_exact_ageing :
    ageing.isExpired .epoch = true ∧
    (∀ later, Instant.epoch.toNanos ≤ later.toNanos → ageing.isExpired later = true) ∧
    (ageing.withTtl 2499).isExpired .epoch = true ∧
    (ageing.markPublished .epoch).stamp.durationMs = some 2500 ∧
    ∃ bs m', recent.encode = .ok bs ∧ decode bs = .ok m' ∧
      ∀ now, m'.isExpired now = recent.isExpired now := by
  obtain ⟨hexact, hmono, hanti, -, -, hduration⟩ := expiry_exact ageing
  have hexpired : ageing.isExpired .epoch = true :=
    (hexact .epoch).mpr ⟨2500, rfl, ⟨by decide, by decide⟩, by decide⟩
  refine ⟨hexpired, fun later hlater => hmono .epoch later hlater hexpired,
    hanti .epoch 2499 2500 (by decide) hexpired,
    (hduration .epoch 2500).mpr ⟨by decide, by decide⟩, ?_⟩
  have hstamp : recent.stamp.Writable := {
    createdAt := by decide
    publishedAt := by decide
    ttl_le := by decide
    durationMs_le := by decide
    pid_le := by decide }
  have hrecent : recent.Writable := ⟨hstamp, nofun, nofun⟩
  obtain ⟨-, -, -, hsame, hwritten, -⟩ := expiry_exact recent
  obtain ⟨bs, m', hencode, hdecode⟩ := hwritten hrecent
  exact ⟨bs, m', hencode, hdecode, hsame bs m' hstamp.fits hencode hdecode⟩

end Message
end Colloquy
