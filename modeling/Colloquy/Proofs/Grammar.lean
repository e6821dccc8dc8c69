/-
The grammar of topics, and the private topics of instances.

`Topic.valid` reads a topic once from left to right.  What it accepts is said here in two other
ways: by the segments that a topic has between its colons, and by the pattern that it matches.
A topic for answers adds two segments to a namespace, so it is a topic if the namespace is one;
and as an instance id has no colon, the last colon of a topic for answers tells the namespace from
the id, whatever segments the namespace has.
-/
import Mathlib.Computability.Language
import Colloquy.Proofs.Answers
import Colloquy.Proofs.Idents
import Colloquy.Proofs.Rollback
import Colloquy.Proofs.Willing
import Colloquy.Session.Command

namespace Colloquy
namespace Topic

open Computability

/-- What stands between two colons: one or more lower-case letters, digits and hyphens. -/
def IsSegment (cs : List Char) : Prop :=
  cs ≠ [] ∧ ∀ c ∈ cs, ('a' ≤ c ∧ c ≤ 'z') ∨ ('0' ≤ c ∧ c ≤ '9') ∨ c = '-'

/-- A topic, but for one underscore that may stand in front, has two or more segments between its
colons. -/
def Grammatical (topic : String) : Prop :=
  ∃ cs, (topic.toList = cs ∨ topic.toList = '_' :: cs) ∧ 2 ≤ (cs.splitOn ':').length ∧
    ∀ s ∈ cs.splitOn ':', IsSegment s

/-- One or more words of a language, one after the other. -/
def repeated (l : Language Char) : Language Char := l * l∗

/-- A single character of a segment. -/
def segmentChars : Language Char := {w | ∃ c, isSegmentChar c = true ∧ w = [c]}

/-- `_?([a-z0-9\-]+:)+([a-z0-9\-]+)` -/
def pattern : Language Char :=
  (1 + {['_']}) * (repeated (repeated segmentChars * {[':']}) * repeated segmentChars)

variable {cs : List Char} {topic namesp namesp' id id' : String}

/-! ## Segments -/

theorem isSegmentChar_iff {c : Char} :
    isSegmentChar c = true ↔ ('a' ≤ c ∧ c ≤ 'z') ∨ ('0' ≤ c ∧ c ≤ '9') ∨ c = '-' := by
  simp only [isSegmentChar, Bool.or_eq_true, Bool.and_eq_true, decide_eq_true_eq, beq_iff_eq,
    or_assoc]

theorem isSegment_iff : IsSegment cs ↔ cs ≠ [] ∧ ∀ c ∈ cs, isSegmentChar c = true := by
  simp only [IsSegment, isSegmentChar_iff]

theorem splitOn_cons (c : Char) (cs : List Char) :
    (c :: cs).splitOn ':' =
      if c = ':' then [] :: cs.splitOn ':' else (cs.splitOn ':').modifyHead (List.cons c) := by
  simp only [List.splitOn_eq_splitOnP, List.splitOnP_cons_eq_if_modifyHead, beq_iff_eq]

/-- What the flags of `accepts` say of the characters that were read is what the first segment and
the number of segments lack. -/
theorem accepts_iff {inSegment more : Bool} :
    accepts inSegment more cs = true ↔
      ∃ s ss, cs.splitOn ':' = s :: ss ∧ (∀ c ∈ s, isSegmentChar c = true) ∧
        (inSegment = true ∨ s ≠ []) ∧ (more = true ∨ ss ≠ []) ∧ ∀ t ∈ ss, IsSegment t := by
  induction cs generalizing inSegment more with
  | nil =>
    rw [accepts, Bool.and_eq_true, List.splitOn_nil]
    constructor
    · rintro ⟨hin, hmore⟩
      exact ⟨[], [], rfl, List.forall_mem_nil _, .inl hin, .inl hmore, List.forall_mem_nil _⟩
    · rintro ⟨s, ss, hsplit, -, hin, hmore, -⟩
      cases hsplit
      exact ⟨hin.resolve_right fun h => h rfl, hmore.resolve_right fun h => h rfl⟩
  | cons c cs ih =>
    rw [accepts, splitOn_cons]
    split_ifs with hc
    · rw [Bool.and_eq_true, ih]
      constructor
      · rintro ⟨hin, s, ss, hsplit, hchars, hsome, -, hrest⟩
        have hs : IsSegment s :=
          isSegment_iff.mpr ⟨hsome.resolve_left Bool.false_ne_true, hchars⟩
        refine ⟨[], s :: ss, by rw [hsplit], List.forall_mem_nil _, .inl hin,
          .inr (List.cons_ne_nil s ss), fun t ht => ?_⟩
        obtain rfl | ht := List.mem_cons.mp ht
        · exact hs
        · exact hrest t ht
      · rintro ⟨s, ss, hsplit, -, hin, -, hrest⟩
        obtain ⟨rfl, rfl⟩ := List.cons.inj hsplit
        obtain ⟨t, ts, hts⟩ := List.exists_cons_of_ne_nil (List.splitOn_ne_nil ':' cs)
        rw [hts] at hrest
        obtain ⟨hne, hchars⟩ := isSegment_iff.mp (hrest t List.mem_cons_self)
        exact ⟨hin.resolve_right fun h => h rfl, t, ts, hts, hchars, .inr hne, .inl rfl,
          fun u hu => hrest u (List.mem_cons_of_mem t hu)⟩
    · rw [Bool.and_eq_true, ih]
      constructor
      · rintro ⟨hchar, s, ss, hsplit, hchars, -, hmore, hrest⟩
        refine ⟨c :: s, ss, by rw [hsplit]; rfl, fun d hd => ?_, .inr (List.cons_ne_nil c s), hmore,
          hrest⟩
        obtain rfl | hd := List.mem_cons.mp hd
        · exact hchar
        · exact hchars d hd
      · rintro ⟨s, ss, hsplit, hchars, -, hmore, hrest⟩
        obtain ⟨t, ts, hts⟩ := List.exists_cons_of_ne_nil (List.splitOn_ne_nil ':' cs)
        rw [hts, List.modifyHead_cons] at hsplit
        obtain ⟨rfl, rfl⟩ := List.cons.inj hsplit
        exact ⟨hchars c List.mem_cons_self, t, ts, hts,
          fun d hd => hchars d (List.mem_cons_of_mem c hd), .inl rfl, hmore, hrest⟩

theorem accepts_iff_segments :
    accepts false false cs = true ↔
      2 ≤ (cs.splitOn ':').length ∧ ∀ s ∈ cs.splitOn ':', IsSegment s := by
  rw [accepts_iff]
  constructor
  · rintro ⟨s, ss, hsplit, hchars, hsome, hmore, hrest⟩
    have hs : IsSegment s := isSegment_iff.mpr ⟨hsome.resolve_left Bool.false_ne_true, hchars⟩
    have hpos := List.length_pos_of_ne_nil (hmore.resolve_left Bool.false_ne_true)
    rw [hsplit, List.length_cons, List.forall_mem_cons]
    exact ⟨by omega, hs, hrest⟩
  · rintro ⟨hlength, hall⟩
    obtain ⟨s, ss, hsplit⟩ := List.exists_cons_of_ne_nil (List.splitOn_ne_nil ':' cs)
    rw [hsplit, List.length_cons] at hlength
    rw [hsplit, List.forall_mem_cons] at hall
    obtain ⟨hne, hchars⟩ := isSegment_iff.mp hall.1
    exact ⟨s, ss, hsplit, hchars, .inr hne, .inr (List.ne_nil_of_length_pos (by omega)), hall.2⟩

/-- An underscore is taken away only where a topic has one, and it stands in no segment. -/
theorem valid_iff : valid topic = true ↔ Grammatical topic := by
  unfold valid Grammatical
  simp only [← accepts_iff_segments]
  constructor
  · intro h
    refine ⟨dropMark topic.toList, ?_, h⟩
    cases topic.toList with
    | nil => exact .inl rfl
    | cons c cs =>
      rw [dropMark]
      split_ifs with hc
      · exact .inr (by rw [hc])
      · exact .inl rfl
  · rintro ⟨cs, hcs | hcs, h⟩
    · rw [hcs]
      cases cs with
      | nil => cases h
      | cons c cs =>
        have hmark : c ≠ '_' := by
          rintro rfl
          cases h
        rw [dropMark, if_neg hmark]
        exact h
    · rw [hcs, dropMark, if_pos rfl]
      exact h

theorem check_eq_ok_iff : check topic = .ok () ↔ valid topic = true := by
  unfold check
  split_ifs with h <;> simp [h]

/-! ## The pattern -/

theorem mem_repeated {l : Language Char} :
    cs ∈ repeated l ↔ ∃ ws, ws ≠ [] ∧ cs = ws.flatten ∧ ∀ w ∈ ws, w ∈ l := by
  simp only [repeated, Language.mem_mul, Language.mem_kstar]
  constructor
  · rintro ⟨w, hw, -, ⟨ws, rfl, hws⟩, rfl⟩
    exact ⟨w :: ws, List.cons_ne_nil w ws, rfl, List.forall_mem_cons.mpr ⟨hw, hws⟩⟩
  · rintro ⟨ws, hne, rfl, hws⟩
    obtain ⟨w, vs, rfl⟩ := List.exists_cons_of_ne_nil hne
    obtain ⟨hw, hvs⟩ := List.forall_mem_cons.mp hws
    exact ⟨w, hw, vs.flatten, ⟨vs, rfl, hvs⟩, rfl⟩

theorem mem_repeated_segmentChars : cs ∈ repeated segmentChars ↔ IsSegment cs := by
  rw [mem_repeated, isSegment_iff]
  constructor
  · rintro ⟨ws, hne, rfl, hws⟩
    obtain ⟨w, vs, rfl⟩ := List.exists_cons_of_ne_nil hne
    obtain ⟨c, -, rfl⟩ := hws w List.mem_cons_self
    refine ⟨List.cons_ne_nil _ _, fun d hd => ?_⟩
    obtain ⟨v, hv, hdv⟩ := List.mem_flatten.mp hd
    obtain ⟨e, he, rfl⟩ := hws v hv
    rw [List.mem_singleton.mp hdv]
    exact he
  · rintro ⟨hne, hall⟩
    refine ⟨cs.map fun c => [c], by simpa using hne, ?_, fun w hw => ?_⟩
    · rw [← List.flatMap_def, List.flatMap_singleton']
    · obtain ⟨c, hc, rfl⟩ := List.mem_map.mp hw
      exact ⟨c, hall c hc, rfl⟩

theorem IsSegment.not_mem_colon (h : IsSegment cs) : ':' ∉ cs := fun hmem =>
  absurd ((isSegment_iff.mp h).2 ':' hmem) (by decide)

theorem intercalate_append_singleton (ss : List (List Char)) (s : List Char) :
    [':'].intercalate (ss ++ [s]) = (ss.map fun t => t ++ [':']).flatten ++ s := by
  induction ss with
  | nil => simp
  | cons t ss ih =>
    obtain ⟨u, us, hus⟩ := List.exists_cons_of_ne_nil (l := ss ++ [s]) (by simp)
    rw [List.cons_append, hus, List.intercalate_cons_cons, ← hus, ih]
    simp

/-- A row of segments, each followed by a colon, and one more. -/
theorem mem_repeated_colon :
    cs ∈ repeated (repeated segmentChars * {[':']}) ↔
      ∃ ss, ss ≠ [] ∧ cs = (ss.map fun t => t ++ [':']).flatten ∧ ∀ s ∈ ss, IsSegment s := by
  rw [mem_repeated]
  constructor
  · rintro ⟨ws, hne, rfl, hws⟩
    refine ⟨ws.map List.dropLast, by simpa using hne, ?_, fun s hs => ?_⟩
    · rw [List.map_map]
      congr 1
      refine (List.map_id ws).symm.trans (List.map_congr_left fun w hw => ?_)
      obtain ⟨v, -, c, hc, rfl⟩ := Language.mem_mul.mp (hws w hw)
      rw [Set.mem_singleton_iff.mp hc]
      simp
    · obtain ⟨w, hw, rfl⟩ := List.mem_map.mp hs
      obtain ⟨v, hv, c, hc, rfl⟩ := Language.mem_mul.mp (hws w hw)
      rw [Set.mem_singleton_iff.mp hc, List.dropLast_concat]
      exact mem_repeated_segmentChars.mp hv
  · rintro ⟨ss, hne, rfl, hss⟩
    refine ⟨ss.map fun t => t ++ [':'], by simpa using hne, rfl, fun w hw => ?_⟩
    obtain ⟨s, hs, rfl⟩ := List.mem_map.mp hw
    exact Language.append_mem_mul (mem_repeated_segmentChars.mpr (hss s hs)) rfl

theorem mem_segments_iff :
    cs ∈ repeated (repeated segmentChars * {[':']}) * repeated segmentChars ↔
      2 ≤ (cs.splitOn ':').length ∧ ∀ s ∈ cs.splitOn ':', IsSegment s := by
  rw [Language.mem_mul]
  constructor
  · rintro ⟨w, hw, s, hs, rfl⟩
    obtain ⟨ss, hne, rfl, hss⟩ := mem_repeated_colon.mp hw
    have hall : ∀ t ∈ ss ++ [s], IsSegment t := by
      intro t ht
      obtain ht | ht := List.mem_append.mp ht
      · exact hss t ht
      · rw [List.mem_singleton.mp ht]
        exact mem_repeated_segmentChars.mp hs
    have hpos := List.length_pos_of_ne_nil hne
    rw [← intercalate_append_singleton, List.splitOn_intercalate ':'
      (fun t ht => (hall t ht).not_mem_colon) (by simp)]
    exact ⟨by simp; omega, hall⟩
  · rintro ⟨hlength, hall⟩
    obtain hnil | ⟨ss, s, hsplit⟩ := (cs.splitOn ':').eq_nil_or_concat'
    · exact absurd hnil (List.splitOn_ne_nil ':' cs)
    · have hcs : cs = [':'].intercalate (ss ++ [s]) := by
        rw [← hsplit, List.intercalate_splitOn]
      rw [hsplit] at hlength hall
      rw [hcs, intercalate_append_singleton]
      refine ⟨_, mem_repeated_colon.mpr ⟨ss, ?_, rfl, fun t ht => ?_⟩, s,
        mem_repeated_segmentChars.mpr ?_, rfl⟩
      · rintro rfl
        simp at hlength
      · exact hall t (List.mem_append_left _ ht)
      · exact hall s (List.mem_append_right _ (List.mem_singleton_self s))

theorem mem_pattern_iff : topic.toList ∈ pattern ↔ Grammatical topic := by
  rw [pattern, Language.mem_mul, Grammatical]
  simp only [← mem_segments_iff]
  constructor
  · rintro ⟨mark, hmark | hmark, cs, hcs, heq⟩
    · refine ⟨cs, .inl ?_, hcs⟩
      rw [← heq, Set.mem_singleton_iff.mp hmark, List.nil_append]
    · refine ⟨cs, .inr ?_, hcs⟩
      rw [← heq, Set.mem_singleton_iff.mp hmark, List.singleton_append]
  · rintro ⟨cs, hcs | hcs, h⟩
    · exact ⟨[], .inl rfl, cs, h, hcs.symm⟩
    · exact ⟨['_'], .inr rfl, cs, h, hcs.symm⟩

/-! ## Private topics -/

/-- Two topics for answers are the same only if they are of one namespace and one instance: the
last colon stands in front of the id. -/
theorem forResponses_inj (hid : ':' ∉ id.toList) (hid' : ':' ∉ id'.toList)
    (h : forResponses namesp id = forResponses namesp' id') : namesp = namesp' ∧ id = id' := by
  have hlist : ∀ n i : String,
      (forResponses n i).toList = (n ++ ":response").toList ++ ':' :: i.toList := by
    intro n i
    rw [forResponses, String.toList_append, String.toList_append, String.toList_append]
    simp
  have hchars := congrArg String.toList h
  rw [hlist, hlist] at hchars
  suffices heq : (namesp ++ ":response").toList = (namesp' ++ ":response").toList ∧
      id.toList = id'.toList by
    refine ⟨?_, String.toList_injective heq.2⟩
    have hfront := heq.1
    rw [String.toList_append, String.toList_append] at hfront
    exact String.toList_injective (List.append_cancel_right hfront)
  -- Whichever front part is shorter, a colon of the other one would be in the id.
  obtain ⟨as, hfront, hback⟩ | ⟨as, hfront, hback⟩ := List.append_eq_append_iff.mp hchars
  · cases as with
    | nil =>
      rw [List.append_nil] at hfront
      exact ⟨hfront.symm, (List.cons.inj hback).2⟩
    | cons c as =>
      have hmem : ':' ∈ id.toList := by
        rw [(List.cons.inj hback).2]
        exact List.mem_append_right _ List.mem_cons_self
      exact absurd hmem hid
  · cases as with
    | nil =>
      rw [List.append_nil] at hfront
      exact ⟨hfront, (List.cons.inj hback).2.symm⟩
    | cons c as =>
      have hmem : ':' ∈ id'.toList := by
        rw [(List.cons.inj hback).2]
        exact List.mem_append_right _ List.mem_cons_self
      exact absurd hmem hid'

end Topic

/-! ## Ids of instances -/

/-- The ids that an instance can have: those that settings may name, and those that are made. -/
inductive InstanceId : String → Prop where
  | named {settings : Settings} {id : String} : settings.check = .ok () →
      settings.identity.instanceId = some id → InstanceId id
  | made (n : Nat) : InstanceId (Ident.text n)

namespace InstanceId

variable {id : String}

theorem valid (h : InstanceId id) : Settings.validInstanceId id = true := by
  cases h with
  | @named settings _ hcheck hid =>
    unfold Settings.check at hcheck
    rw [hid] at hcheck
    simp only at hcheck
    split_ifs at hcheck with _ _ hvalid
    exact hvalid
  | made n => exact Ident.validInstanceId_text n

theorem not_mem_colon (h : InstanceId id) : ':' ∉ id.toList := by
  intro hmem
  have hvalid := h.valid
  rw [Settings.validInstanceId, Bool.and_eq_true, List.all_eq_true] at hvalid
  exact absurd (hvalid.2 ':' hmem) (by decide)

/-- The id of a messaging context is one of them. -/
theorem of_withSettings {s s' : Session} {settings : Settings} {hostname : String} {pid : Nat}
    (h : s.withSettings settings hostname pid = .ok s') : InstanceId s'.origin.instanceId := by
  unfold Session.withSettings at h
  cases hcheck : settings.check with
  | error why =>
    rw [hcheck] at h
    cases h
  | ok u =>
    rw [hcheck] at h
    cases hid : settings.identity.instanceId with
    | some id =>
      rw [hid] at h
      cases h
      exact .named hcheck hid
    | none =>
      rw [hid] at h
      cases h
      exact .made s.nextIdent

end InstanceId

/-! ## Failing on a topic -/

section

variable {σ η : Type} {t topic : String} {why : Failure}

theorem Broker.publish_error {b : Broker σ} {key : Option String} {body : Bytes}
    (h : b.publish t key body = .error why) : why.kind = "Transport" := by
  cases b with
  | memory m =>
    simp only [Broker.publish, MemoryBroker.publish, MemoryBroker.checkRunning] at h
    split_ifs at h
    · cases h
      rfl
    · cases h
  | manual m =>
    simp only [Broker.publish, ManualBroker.publish] at h
    split_ifs at h
    · cases h
      rfl
    · cases h
      rfl
    · cases h

theorem Broker.subscribe_error {b : Broker σ} {subscriber : σ}
    (h : b.subscribe t subscriber = .error why) : why.kind = "Transport" := by
  cases b with
  | memory m =>
    simp only [Broker.subscribe, MemoryBroker.subscribe, MemoryBroker.checkRunning] at h
    cases hdown : m.down with
    | true =>
      rw [hdown] at h
      cases h
      rfl
    | false =>
      rw [hdown] at h
      cases hworker : (m.lane t).worker.isSome with
      | true =>
        rw [hworker] at h
        cases h
        rfl
      | false =>
        rw [hworker] at h
        cases h
  | manual m =>
    simp only [Broker.subscribe, ManualBroker.subscribe] at h
    split_ifs at h
    · cases h
      rfl
    · cases h

theorem Message.encode_error {m : Message} (h : m.encode = .error why) :
    why.kind = "Serialization" := by
  unfold encode at h
  split at h
  · cases h
  · cases h
    rfl

namespace Channels

variable {c : Channels η}

theorem consumer_error (h : (c.consumer topic).1 = .error why) :
    why = .shutDown ∨ c.checkNew topic = .error why := by
  unfold consumer at h
  split_ifs at h
  · cases h
    exact .inl rfl
  · split at h
    · cases h
    · split at h
      · rename_i hcheck
        cases h
        exact .inr hcheck
      · cases h

theorem attach_error {n : Nat} {handler : η} (h : (c.attach n handler).1 = .error why) :
    why.kind = "AlreadySubscribed" ∨ why.kind = "Transport" := by
  unfold attach at h
  split at h
  · cases h
  · split_ifs at h
    · cases h
      exact .inl rfl
    · split at h
      · rename_i hb
        cases h
        exact .inr (Broker.subscribe_error hb)
      · cases h

/-- A topic that passes the check is not what a subscription fails on. -/
theorem trySubscribe_error {handler : η} (hcheck : c.checkNew topic = .ok ())
    (h : (c.trySubscribe topic handler).1 = .error why) : why.kind ≠ "InvalidTopic" := by
  unfold trySubscribe at h
  split at h
  · rename_i f d hfind
    cases h
    obtain rfl | hwhy := consumer_error (congrArg Prod.fst hfind)
    · decide
    · rw [hcheck] at hwhy
      cases hwhy
  · rename_i n d hfind
    split at h
    · cases h
    · rename_i r e hnot hattach
      obtain hkind | hkind := attach_error (congrArg Prod.fst hattach |>.trans h)
      · rw [hkind]
        decide
      · rw [hkind]
        decide

theorem subscribe_error_of_checked {handler : η} (hcheck : c.checkNew topic = .ok ())
    (h : (c.subscribe topic handler).1 = .error why) : why.kind ≠ "InvalidTopic" := by
  have hupholds := c.trySubscribe_upholds topic handler
  unfold subscribe at h
  split at h
  · -- The consumer that was found is closed, and the one made in its place decides.
    rename_i d htry
    rw [htry] at hupholds
    have hcheck' : d.checkNew topic = .ok () :=
      (checkNew_congr hupholds.validateTopics topic).trans hcheck
    cases htry' : (d.trySubscribe topic handler).1 with
    | error f =>
      have hf : f = why := by
        rw [show (d.trySubscribe topic handler) = (.error f, _) from Prod.ext htry' rfl] at h
        exact Except.error.inj h
      exact hf ▸ trySubscribe_error hcheck' htry'
    | ok r =>
      rw [show (d.trySubscribe topic handler) = (.ok r, _) from Prod.ext htry' rfl] at h
      cases h
  · rename_i r d hnot htry
    cases r with
    | ok r => cases h
    | error f =>
      cases h
      exact trySubscribe_error hcheck (congrArg Prod.fst htry)

end Channels

theorem Inbox.register_error_of_checked {i : Inbox} {correlation : String} {self : Nat}
    {handler : η} {c : Channels η} (hcheck : c.checkNew i.topic = .ok ())
    (h : (i.register correlation self handler c).1 = .error why) : why.kind ≠ "InvalidTopic" := by
  unfold register at h
  simp only at h
  split_ifs at h
  split at h
  · cases h
  · rename_i f d hsub
    cases h
    exact Channels.subscribe_error_of_checked (c := c.record (i.displacement correlation self))
      hcheck (congrArg Prod.fst hsub)

end

namespace Session

variable {s : Session} {r : Requester} {m : Message} {p : Json.Value} {why : Failure}

theorem checkNew_responseTopic (hid : InstanceId s.origin.instanceId)
    (hcheck : s.channels.checkNew r.namesp = .ok ()) :
    s.channels.checkNew (s.origin.responseTopic r.namesp) = .ok () := by
  unfold Channels.checkNew at hcheck ⊢
  split_ifs at hcheck ⊢
  · exact Topic.check_eq_ok_iff.mpr
      (Topic.valid_forResponses (Topic.check_eq_ok_iff.mp hcheck) hid.valid)
  · rfl

theorem send_error {c : Channels Handler} {now : Instant} {topic : String}
    (h : (c.send now topic m).1 = .error why) : why.kind ≠ "InvalidTopic" := by
  obtain he | ⟨body, -, hb⟩ := send_error_iff.mp h
  · rw [Message.encode_error he]
    decide
  · rw [Broker.publish_error hb]
    decide

theorem converse_error (hl : s.Labelled) (hid : InstanceId s.origin.instanceId)
    (hcheck : s.channels.checkNew r.namesp = .ok ()) (h : (s.converse r m).1 = .error why) :
    why.kind ≠ "InvalidTopic" := by
  have htopic := hl (s.origin.responseTopic r.namesp)
  cases hr : (s.inbox .shared (s.origin.responseTopic r.namesp)).register m.correlation
      s.nextExchange (.inbox .shared (s.origin.responseTopic r.namesp)) s.channels with
  | mk result ic =>
  obtain ⟨i, c⟩ := ic
  obtain ⟨u, hlisten, -, -⟩ := (place_trial hl m.correlation
    (s.origin.responseTopic r.namesp) (s.terms r.options) r.callbacks).listen
      (show _ = (result, i, c) by rw [htopic]; exact hr)
  rw [converse_eq, hlisten] at h
  cases result with
  | error f =>
    cases h
    refine Inbox.register_error_of_checked ?_ (congrArg Prod.fst hr)
    rw [htopic]
    exact checkNew_responseTopic hid hcheck
  | ok _ =>
    simp only at h
    split at h
    · rename_i f d hsend
      cases h
      exact send_error (congrArg Prod.fst hsend)
    · cases h

/-- A request to a namespace that passes the check does not fail on the name of a topic. -/
theorem offer_error {value : Except (Json.Fault × String) Json.Value} (hl : s.Labelled)
    (hid : InstanceId s.origin.instanceId) (hcheck : s.channels.checkNew r.namesp = .ok ())
    (h : (s.offer r value).1 = .error why) : why.kind ≠ "InvalidTopic" := by
  cases value with
  | error e =>
    cases h
    exact fun hkind => absurd hkind (show "Serialization" ≠ "InvalidTopic" by decide)
  | ok p =>
    obtain ⟨ident, hsession⟩ := s.requestMessage_session r p
    simp only [offer, publish, hsession] at h
    split at h
    · rename_i f c hp
      cases h
      obtain ⟨-, rfl⟩ | ⟨-, -, hwhy⟩ := producer_error_iff.mp (congrArg Prod.fst hp)
      · decide
      · rw [hcheck] at hwhy
        cases hwhy
    · rename_i n c hp
      have hsteady := s.channels.producer_steady r.namesp
      rw [hp] at hsteady
      split_ifs at h
      · exact converse_error (s := { s with nextIdent := ident, channels := c }) (hl.congr rfl) hid
          ((Channels.checkNew_congr hsteady.validateTopics r.namesp).trans hcheck) h
      · split at h
        · rename_i f d hsend
          cases h
          exact send_error (congrArg Prod.fst hsend)
        · cases h

end Session

/-- What passes for a topic is what splits into segments, and what matches the pattern.  A
namespace that passes has a topic for the answers to each instance, which passes too, so that no
request to it fails on the name of a topic, at any moment of a run.  No two instances, and no two
namespaces of one, share such a topic. -/
theorem Topic.grammar_of_private_topics :
    (∀ topic, (check topic = .ok () ↔ Grammatical topic) ∧
      (check topic = .ok () ↔ topic.toList ∈ pattern)) ∧
    (∀ namesp id, check namesp = .ok () → InstanceId id →
      check (forResponses namesp id) = .ok ()) ∧
    (∀ (s : Session) (m : Machine), s.Blank → Machine.Reaches { agenda := [], session := s } m →
      InstanceId m.session.origin.instanceId →
      ∀ (r : Requester) (value : Except (Json.Fault × String) Json.Value) (why : Failure),
        m.session.channels.checkNew r.namesp = .ok () →
          (m.session.offer r value).1 = .error why → why.kind ≠ "InvalidTopic") ∧
    ∀ namesp namesp' id id', check namesp = .ok () → check namesp' = .ok () → InstanceId id →
      InstanceId id' → forResponses namesp id = forResponses namesp' id' →
        namesp = namesp' ∧ id = id' := by
  refine ⟨fun topic => ⟨?_, ?_⟩, fun namesp id hn hid => ?_, ?_, ?_⟩
  · exact check_eq_ok_iff.trans valid_iff
  · exact check_eq_ok_iff.trans (valid_iff.trans mem_pattern_iff.symm)
  · exact check_eq_ok_iff.mpr (valid_forResponses (check_eq_ok_iff.mp hn) hid.valid)
  · intro s m hs hm hid r value why hcheck h
    exact Session.offer_error (hm.tended (.of_blank hs)).filed.labelled hid hcheck h
  · intro namesp namesp' id id' _ _ hid hid' h
    exact forResponses_inj hid.not_mem_colon hid'.not_mem_colon h

/-- The settings of an instance that is named. -/
def Settings.ofDesk : Settings := { identity := { name := "clerk", instanceId := some "desk-1" } }

/-- The private topic of a namespace is a namespace, with a private topic of its own. -/
theorem Topic.private_topics_of_desk :
    check (forResponses "clerk:questions:response:desk-1" "desk-1") = .ok () ∧
      forResponses "clerk:questions" "desk-1" ≠
        forResponses "clerk:questions:response:desk-1" "desk-1" ∧
      ∃ s, (Session.plain .epoch (.manual {}) true).withSettings .ofDesk "desk" 1 = .ok s ∧
        ∀ why, (s.offer Machine.joining (.ok (.bool true))).1 = .error why →
          why.kind ≠ "InvalidTopic" := by
  obtain ⟨-, hclosed, hrequests, hapart⟩ := grammar_of_private_topics
  have hcheck : Settings.ofDesk.check = .ok () := by decide +kernel
  have hid : InstanceId "desk-1" := .named hcheck rfl
  refine ⟨hclosed _ _ (by decide +kernel) hid, fun h => ?_, ?_⟩
  · have hsame := (hapart _ _ _ _ (by decide +kernel) (by decide +kernel) hid hid h).1
    exact absurd hsame (by decide)
  · obtain ⟨s, hs⟩ : ∃ s, (Session.plain .epoch (.manual {}) true).withSettings .ofDesk "desk" 1 =
        .ok s := ⟨_, rfl⟩
    refine ⟨s, hs, fun why h => ?_⟩
    have hdesk := InstanceId.of_withSettings hs
    cases hs
    exact hrequests _ _ ⟨rfl, rfl, rfl, rfl, rfl⟩ .refl hdesk Machine.joining _ why rfl h

end Colloquy
