/-
Where the conversations of the messaging context are entered.

A conversation that a request opens is entered in the inbox of its topic under its correlation.
The two are its address, and `entry` is what the inboxes of the context have at an address.
`Filed` says that the entries are in order: each is a conversation of the context with this
address, and no later one has the same address.  An open conversation is entered unless a later
one has its address.
-/
import Colloquy.Proofs.Balance
import Colloquy.Proofs.Meeting
import Colloquy.Proofs.Minding

namespace Colloquy

namespace Conversation

theorem correlation_of_book {c d : Conversation} (h : c.book = d.book) :
    c.correlation = d.correlation :=
  show c.book.correlation = d.book.correlation by rw [h]

theorem topic_of_book {c d : Conversation} (h : c.book = d.book) : c.topic = d.topic :=
  show c.book.topic = d.book.topic by rw [h]

/-- `d` is a later state of the conversation `c`. -/
structure Later (c d : Conversation) : Prop where
  topic : d.topic = c.topic
  correlation : d.correlation = c.correlation
  ended : c.ended = true → d.ended = true

namespace Later

theorem of_continues {c d : Conversation} (h : Continues c d) : Later c d :=
  ⟨topic_of_book h.book, correlation_of_book h.book, h.ended⟩

theorem trans {b c d : Conversation} (h : Later b c) (h' : Later c d) : Later b d :=
  ⟨h'.topic.trans h.topic, h'.correlation.trans h.correlation, fun he => h'.ended (h.ended he)⟩

end Later

theorem listen_later (c : Conversation) : Later c c.listen := by
  rw [listen_eq]
  exact ⟨rfl, rfl, id⟩

end Conversation

open Conversation (Later)

/-- What happens to a conversation leaves its topic and its correlation, and it does not
open again. -/
theorem Watch.meet_later (w : Watch) (self : Nat) (o : Occurrence) :
    Later w.conversation (w.meet self o).1.conversation := by
  have hjoined : Later w.conversation (w.joined o) := by
    cases o with
    | listen registered => exact Conversation.listen_later _
    | message now m =>
      simp only [joined]
      split
      · exact ⟨rfl, rfl, id⟩
      · exact ⟨rfl, rfl, id⟩
    | _ => exact ⟨rfl, rfl, id⟩
  exact hjoined.trans (.of_continues (w.meet_continues self o))

theorem Watch.onResponseTimer_later {w v : Watch} {id : Nat} {e : Ending}
    (h : w.onResponseTimer id = some (v, e)) : Later w.conversation v.conversation := by
  have hl := w.meet_later 0 (.responseTimer id)
  simp only [meet, h, Option.map_some, Option.getD_some] at hl
  exact hl

theorem Watch.onAckTimer_later {w v : Watch} {id : Nat} {end? : Option Ending}
    (h : w.onAckTimer id = some (v, end?)) : Later w.conversation v.conversation := by
  have hl := w.meet_later 0 (.ackTimer id)
  simp only [meet, h, Option.getD_some] at hl
  exact hl

theorem Watch.receive_later {w v : Watch} {self now : Nat} {m : Message} {end? : Option Ending}
    (h : w.receive self now m = some (v, end?)) : Later w.conversation v.conversation := by
  have hl := w.meet_later self (.message now m)
  simp only [meet, h, Option.getD_some] at hl
  exact hl

/-! ## Members of an inbox -/

namespace Inbox

variable {η : Type} (i : Inbox) (correlation : String) (self : Nat) (c : Channels η)

/-- A conversation that is registered is entered, and one that cannot be is not. -/
theorem register_get?_self (handler : η) :
    (i.register correlation self handler c).2.1.members.get? correlation =
      match (i.register correlation self handler c).1 with
      | .ok _ => some self
      | .error _ => none := by
  have hentered := i.enter_get? correlation self
  simp only [register]
  split
  · exact hentered
  · split
    · exact hentered
    · show ((i.enter correlation self).strike correlation self).members.get? correlation = none
      rw [strike, if_pos hentered]
      exact Table.get?_erase_self _ _

theorem register_get?_ne (handler : η) {k : String} (hk : k ≠ correlation) :
    (i.register correlation self handler c).2.1.members.get? k = i.members.get? k := by
  have hentered : (i.enter correlation self).members.get? k = i.members.get? k :=
    Table.get?_put_ne _ hk _
  simp only [register]
  split
  · exact hentered
  · split
    · exact hentered
    · show ((i.enter correlation self).strike correlation self).members.get? k = i.members.get? k
      rw [strike, if_pos (i.enter_get? correlation self)]
      exact (Table.get?_erase_ne _ hk).trans hentered

/-- Whoever unregisters is struck out, and nobody else. -/
theorem unregister_get? (k : String) :
    (i.unregister correlation self c).1.members.get? k =
      if k = correlation ∧ i.members.get? k = some self then none else i.members.get? k := by
  by_cases hself : i.members.get? correlation = some self
  · have hstruck : (i.unregister correlation self c).1.members = i.members.erase correlation := by
      have hs : (i.strike correlation self).members = i.members.erase correlation := by
        rw [strike, if_pos hself]
      simp only [unregister, if_pos hself]
      split
      · split <;> exact hs
      · exact hs
    rw [hstruck]
    by_cases hk : k = correlation
    · rw [if_pos ⟨hk, hk ▸ hself⟩, hk]
      exact Table.get?_erase_self _ _
    · rw [if_neg fun h => hk h.1]
      exact Table.get?_erase_ne _ hk
  · have hnot : ¬(k = correlation ∧ i.members.get? k = some self) := fun h =>
      hself (h.1 ▸ h.2)
    rw [if_neg hnot, unregister, if_neg hself]

end Inbox

/-! ## Entries -/

/-- The topic and the correlation under which a conversation of the context is entered. -/
def Exchange.address? (x : Exchange) : Option (String × String) :=
  match x.desk with
  | .own => none
  | .shared => some (x.conversation.topic, x.conversation.correlation)

namespace Exchange

variable {x : Exchange} {c : Conversation} {a : String × String}

theorem address?_of_shared (h : x.desk = .shared) :
    x.address? = some (x.conversation.topic, x.conversation.correlation) := by
  simp only [address?, h]

theorem shared_of_address? (h : x.address? = some a) :
    x.desk = .shared ∧ a = (x.conversation.topic, x.conversation.correlation) := by
  unfold address? at h
  split at h
  · cases h
  · rename_i hd
    cases h
    exact ⟨hd, rfl⟩

theorem own_of_address? (h : x.address? = none) : x.desk = .own := by
  cases hd : x.desk with
  | own => rfl
  | shared =>
    rw [address?_of_shared hd] at h
    cases h

theorem address?_later (h : Later x.conversation c) :
    ({ x with conversation := c } : Exchange).address? = x.address? := by
  simp only [address?, h.topic, h.correlation]

end Exchange

namespace Session

/-- The conversation of the context that is entered at an address. -/
def entry (s : Session) (a : String × String) : Option Nat :=
  (s.inbox .shared a.1).members.get? a.2

variable {s s' : Session} {n k : Nat} {a b : String × String} {x : Exchange}

theorem inbox_congr (h : s'.shared.inboxes = s.shared.inboxes) (topic : String) :
    s'.inbox .shared topic = s.inbox .shared topic := by
  simp only [inbox, desk, h]

theorem entry_congr (h : s'.shared.inboxes = s.shared.inboxes) : s'.entry a = s.entry a := by
  rw [entry, inbox_congr h]
  rfl

/-- To be registered at an address is to be entered there. -/
theorem isRegistered_iff (hx : x.address? = some a) :
    s.isRegistered n x = true ↔ s.entry a = some n := by
  obtain ⟨hd, rfl⟩ := Exchange.shared_of_address? hx
  rw [isRegistered, hd, beq_iff_eq]
  rfl

theorem inbox_setInbox (s : Session) (i : Inbox) (topic : String) :
    (s.setInbox .shared i).inbox .shared topic =
      if topic = i.topic then i else s.inbox .shared topic := by
  show ((s.shared.inboxes.put i.topic i).get? topic).getD _ = _
  by_cases h : topic = i.topic
  · rw [if_pos h, h, Table.get?_put_self]
    rfl
  · rw [if_neg h, Table.get?_put_ne _ h]
    rfl

/-- Each inbox of the context is kept under its own topic. -/
def Labelled (s : Session) : Prop := ∀ topic, (s.inbox .shared topic).topic = topic

theorem Labelled.congr (h : s.Labelled) (hi : s'.shared.inboxes = s.shared.inboxes) :
    s'.Labelled := fun topic => by
  rw [inbox_congr hi]
  exact h topic

theorem Labelled.setInbox (h : s.Labelled) (i : Inbox) : (s.setInbox .shared i).Labelled := by
  intro topic
  rw [inbox_setInbox]
  by_cases ht : topic = i.topic
  · rw [if_pos ht, ht]
  · rw [if_neg ht]
    exact h topic

/-- An inbox that is put back changes the entries on its topic. -/
theorem entry_setInbox (s : Session) (i : Inbox) (a : String × String) :
    (s.setInbox .shared i).entry a = if a.1 = i.topic then i.members.get? a.2 else s.entry a := by
  rw [entry, inbox_setInbox]
  by_cases h : a.1 = i.topic
  · rw [if_pos h, if_pos h]
  · rw [if_neg h, if_neg h]
    rfl

/-! ## Registering -/

theorem register_own (hx : s.exchanges.get? n = some x) (hd : x.desk = .own) :
    (s.register n).2.conversations = s.conversations ∧
      (s.register n).2.shared.inboxes = s.shared.inboxes := by
  simp only [register, hx, hd]
  exact ⟨rfl, rfl⟩

theorem listen_own (hx : s.exchanges.get? n = some x) (hd : x.desk = .own) :
    (s.listen n).2.conversations = s.conversations ∧
      (s.listen n).2.shared.inboxes = s.shared.inboxes := by
  have hset := (Changed.refl hx).setConversation x.conversation.listen
  have hown := register_own hset.self hd
  simp only [listen, hx]
  split
  · rename_i hr
    rw [hr] at hown
    exact hown
  · rename_i hr
    rw [hr] at hown
    exact hown

theorem unregister_own (hx : s.exchanges.get? n = some x) (hd : x.desk = .own) :
    (s.unregister n).conversations = s.conversations ∧
      (s.unregister n).shared.inboxes = s.shared.inboxes := by
  simp only [unregister, hx, hd]
  exact ⟨rfl, rfl⟩

/-- A session with another entry at one address. -/
structure Refiled (s : Session) (a : String × String) (member? : Option Nat) (s' : Session) :
    Prop where
  keeps : s.Keeps s'
  conversations : s'.conversations = s.conversations
  labelled : s'.Labelled
  self : s'.entry a = member?
  others : ∀ {b}, b ≠ a → s'.entry b = s.entry b

theorem Refiled.setInbox (h : s.Labelled) {i : Inbox} {c : Channels Handler}
    {member? : Option Nat} (ht : i.topic = a.1) (hself : i.members.get? a.2 = member?)
    (hothers : ∀ k, k ≠ a.2 → i.members.get? k = (s.inbox .shared a.1).members.get? k) :
    s.Refiled a member? { s.setInbox .shared i with channels := c } where
  keeps := (s.setInbox_keeps .shared i).trans (channels_keeps _ c)
  conversations := rfl
  labelled := (h.setInbox i).congr rfl
  self := by
    refine (s.entry_setInbox i a).trans ?_
    rw [if_pos ht.symm, hself]
  others := fun {b} hb => by
    refine (s.entry_setInbox i b).trans ?_
    by_cases h1 : b.1 = i.topic
    · have h2 : b.2 ≠ a.2 := fun h2 => hb (Prod.ext (h1.trans ht) h2)
      rw [if_pos h1, hothers b.2 h2, entry, h1, ht]
    · rw [if_neg h1]

theorem register_refiled (h : s.Labelled) (hx : s.exchanges.get? n = some x)
    (ha : x.address? = some a) :
    s.Refiled a (match (s.register n).1 with | .ok _ => some n | .error _ => none)
      (s.register n).2 := by
  obtain ⟨hd, rfl⟩ := Exchange.shared_of_address? ha
  simp only [register, hx, hd]
  exact .setInbox h ((Inbox.register_topic _ _ _ _ _).trans (h _))
    (Inbox.register_get?_self _ _ _ _ _) fun k hk => Inbox.register_get?_ne _ _ _ _ _ hk

/-- To unregister a conversation strikes it out, if it is the one that is entered. -/
theorem unregister_refiled (h : s.Labelled) (hx : s.exchanges.get? n = some x)
    (ha : x.address? = some a) :
    s.Refiled a (if s.entry a = some n then none else s.entry a) (s.unregister n) := by
  obtain ⟨hd, rfl⟩ := Exchange.shared_of_address? ha
  simp only [unregister, hx, hd]
  refine .setInbox h ((Inbox.unregister_topic _ _ _ _).trans (h _)) ?_ fun k hk => ?_
  · rw [Inbox.unregister_get?]
    simp only [true_and]
    rfl
  · rw [Inbox.unregister_get?, if_neg fun hc => hk hc.1]

/-! ## Order -/

/-- The conversations of the context are entered in order. -/
structure Filed (s : Session) : Prop where
  fresh : ∀ n, s.nextExchange ≤ n → s.exchanges.get? n = none
  labelled : s.Labelled
  /-- The application has names for its own conversations only. -/
  named : ∀ n ∈ s.conversations.values, ∃ x, s.exchanges.get? n = some x ∧ x.desk = .own
  entered : ∀ {a n}, s.entry a = some n →
    ∃ x, s.exchanges.get? n = some x ∧ x.address? = some a
  latest : ∀ {a n k y}, s.entry a = some n → s.exchanges.get? k = some y →
    y.address? = some a → k ≤ n
  inPlace : ∀ {a n x}, s.exchanges.get? n = some x → x.address? = some a →
    x.conversation.ended = false →
    s.entry a = some n ∨ ∃ k y, n < k ∧ s.exchanges.get? k = some y ∧ y.address? = some a

namespace Filed

theorem lt_of_get? (h : s.Filed) (hx : s.exchanges.get? n = some x) : n < s.nextExchange := by
  by_contra hn
  rw [h.fresh n (Nat.le_of_not_lt hn)] at hx
  cases hx

theorem address?_of_entry (h : s.Filed) (he : s.entry a = some n)
    (hx : s.exchanges.get? n = some x) : x.address? = some a := by
  obtain ⟨y, hy, ha⟩ := h.entered he
  rw [hx] at hy
  cases hy
  exact ha

theorem of_same (h : s.Filed) (hk : s.Keeps s') (hn : s'.conversations = s.conversations)
    (hi : s'.shared.inboxes = s.shared.inboxes) : s'.Filed where
  fresh := fun n hle => by
    rw [hk.exchanges]
    exact h.fresh n (hk.nextExchange ▸ hle)
  labelled := h.labelled.congr hi
  named := fun n hmem => by
    rw [hn] at hmem
    rw [hk.exchanges]
    exact h.named n hmem
  entered := fun he => by
    rw [entry_congr hi] at he
    rw [hk.exchanges]
    exact h.entered he
  latest := fun he hy ha => by
    rw [entry_congr hi] at he
    rw [hk.exchanges] at hy
    exact h.latest he hy ha
  inPlace := fun hx ha ho => by
    rw [hk.exchanges] at hx
    rw [entry_congr hi, hk.exchanges]
    exact h.inPlace hx ha ho

/-- A conversation that has ended can be struck out. -/
theorem strike (h : s.Filed) (hx : s.exchanges.get? n = some x)
    (hended : x.conversation.ended = true)
    (hr : s.Refiled a (if s.entry a = some n then none else s.entry a) s') : s'.Filed := by
  have hsub : ∀ {b k}, s'.entry b = some k → s.entry b = some k := by
    intro b k he
    by_cases hb : b = a
    · rw [hb, hr.self] at he
      split at he
      · cases he
      · rw [hb, he]
    · rw [← hr.others hb, he]
  exact {
    fresh := fun k hle => by
      rw [hr.keeps.exchanges]
      exact h.fresh k (hr.keeps.nextExchange ▸ hle)
    labelled := hr.labelled
    named := fun k hmem => by
      rw [hr.conversations] at hmem
      rw [hr.keeps.exchanges]
      exact h.named k hmem
    entered := fun he => by
      rw [hr.keeps.exchanges]
      exact h.entered (hsub he)
    latest := fun he hy hb => by
      rw [hr.keeps.exchanges] at hy
      exact h.latest (hsub he) hy hb
    inPlace := fun {b k y} hy hb ho => by
      rw [hr.keeps.exchanges] at hy ⊢
      refine (h.inPlace hy hb ho).imp_left fun he => ?_
      have hne : k ≠ n := by
        rintro rfl
        rw [hx] at hy
        cases hy
        rw [hended] at ho
        cases ho
      by_cases hba : b = a
      · have hnot : ¬s.entry a = some n := fun hn => hne (by
          rw [← hba, he] at hn
          exact Option.some.inj hn)
        rw [hba, hr.self, if_neg hnot, ← hba, he]
      · rw [hr.others hba, he] }

/-- A conversation can go on to a later state. -/
theorem changed {d : Conversation} (h : s.Filed) (hx : s.exchanges.get? n = some x)
    (hl : Later x.conversation d) (hc : Changed s n x d s')
    (hn : s'.conversations = s.conversations) (hi : s'.shared.inboxes = s.shared.inboxes) :
    s'.Filed := by
  -- Every conversation has a state before, and the other way round.
  have hback : ∀ {k y}, s'.exchanges.get? k = some y → ∃ z, s.exchanges.get? k = some z ∧
      y.desk = z.desk ∧ y.address? = z.address? ∧
      (y.conversation.ended = false → z.conversation.ended = false) := by
    intro k y hy
    by_cases hk : k = n
    · subst hk
      rw [hc.self] at hy
      cases hy
      refine ⟨x, hx, rfl, Exchange.address?_later hl, fun ho => ?_⟩
      by_contra he
      rw [hl.ended (Bool.eq_true_of_not_eq_false he)] at ho
      cases ho
    · exact ⟨y, (hc.others k hk).symm.trans hy, rfl, rfl, id⟩
  have hforth : ∀ {k z}, s.exchanges.get? k = some z → ∃ y, s'.exchanges.get? k = some y ∧
      y.desk = z.desk ∧ y.address? = z.address? := by
    intro k z hz
    by_cases hk : k = n
    · subst hk
      rw [hx] at hz
      cases hz
      exact ⟨_, hc.self, rfl, Exchange.address?_later hl⟩
    · exact ⟨z, (hc.others k hk).trans hz, rfl, rfl⟩
  exact {
    fresh := fun k hle => by
      have hnone := h.fresh k (hc.nextExchange ▸ hle)
      have hne : k ≠ n := by
        rintro rfl
        rw [hx] at hnone
        cases hnone
      rw [hc.others k hne, hnone]
    labelled := h.labelled.congr hi
    named := fun k hmem => by
      obtain ⟨z, hz, hd⟩ := h.named k (hn ▸ hmem)
      obtain ⟨y, hy, hyd, -⟩ := hforth hz
      exact ⟨y, hy, hyd.trans hd⟩
    entered := fun he => by
      obtain ⟨z, hz, ha⟩ := h.entered (entry_congr hi ▸ he)
      obtain ⟨y, hy, -, hya⟩ := hforth hz
      exact ⟨y, hy, hya.trans ha⟩
    latest := fun he hy ha => by
      obtain ⟨z, hz, -, hya, -⟩ := hback hy
      exact h.latest (entry_congr hi ▸ he) hz (hya ▸ ha)
    inPlace := fun hy ha ho => by
      obtain ⟨z, hz, -, hya, hzo⟩ := hback hy
      rcases h.inPlace hz (hya ▸ ha) (hzo ho) with he | ⟨j, w, hj, hw, hwa⟩
      · exact Or.inl ((entry_congr hi).trans he)
      · obtain ⟨v, hv, -, hva⟩ := hforth hw
        exact Or.inr ⟨j, v, hj, hv, hva.trans hwa⟩ }

end Filed

/-- A conversation was opened.  At its address, if it has one, `member?` is entered. -/
structure Opened (s : Session) (x : Exchange) (member? : Option Nat) (s' : Session) : Prop where
  self : s'.exchanges.get? s.nextExchange = some x
  others : ∀ k, k ≠ s.nextExchange → s'.exchanges.get? k = s.exchanges.get? k
  nextExchange : s'.nextExchange = s.nextExchange + 1
  conversations : s'.conversations = s.conversations
  labelled : s'.Labelled
  entries : ∀ {b}, x.address? ≠ some b → s'.entry b = s.entry b
  entry : ∀ {a}, x.address? = some a → s'.entry a = member?

/-- What is entered of a conversation that was opened. -/
def entered (s : Session) (x : Exchange) : Option Nat :=
  if x.conversation.ended then none else some s.nextExchange

/-- Where a conversation was opened, it is entered if it is open, and elsewhere nothing changes. -/
theorem Opened.entry_cases (h : s.Opened x (s.entered x) s') (he : s'.entry a = some n) :
    n = s.nextExchange ∧ x.address? = some a ∧ x.conversation.ended = false ∨
      x.address? ≠ some a ∧ s.entry a = some n := by
  by_cases hx : x.address? = some a
  · rw [h.entry hx, Session.entered] at he
    split at he
    · cases he
    · rename_i hopen
      cases he
      exact Or.inl ⟨rfl, hx, Bool.eq_false_iff.mpr hopen⟩
  · exact Or.inr ⟨hx, h.entries hx ▸ he⟩

theorem Filed.opened (h : s.Filed) (ho : s.Opened x (s.entered x) s') : s'.Filed := by
  have hcases : ∀ {k y}, s'.exchanges.get? k = some y →
      k = s.nextExchange ∧ y = x ∨ k < s.nextExchange ∧ s.exchanges.get? k = some y := by
    intro k y hy
    by_cases hk : k = s.nextExchange
    · subst hk
      rw [ho.self] at hy
      cases hy
      exact Or.inl ⟨rfl, rfl⟩
    · rw [ho.others k hk] at hy
      exact Or.inr ⟨h.lt_of_get? hy, hy⟩
  have hold : ∀ {k y}, s.exchanges.get? k = some y → s'.exchanges.get? k = some y := by
    intro k y hy
    rw [ho.others k (Nat.ne_of_lt (h.lt_of_get? hy)), hy]
  refine ⟨fun k hle => ?_, ho.labelled, fun k hmem => ?_, fun {a n} he => ?_,
    fun {a n k y} he hy ha => ?_, fun {a n y} hy ha hopen => ?_⟩
  · rw [ho.nextExchange] at hle
    rw [ho.others k (by omega)]
    exact h.fresh k (by omega)
  · obtain ⟨y, hy, hd⟩ := h.named k (ho.conversations ▸ hmem)
    exact ⟨y, hold hy, hd⟩
  · obtain ⟨rfl, hx, -⟩ | ⟨-, he⟩ := ho.entry_cases he
    · exact ⟨x, ho.self, hx⟩
    · obtain ⟨y, hy, hya⟩ := h.entered he
      exact ⟨y, hold hy, hya⟩
  · obtain ⟨rfl, -⟩ | ⟨hx, he⟩ := ho.entry_cases he
    · obtain ⟨rfl, -⟩ | ⟨hlt, -⟩ := hcases hy
      · exact Nat.le_refl _
      · exact Nat.le_of_lt hlt
    · obtain ⟨-, rfl⟩ | ⟨-, hy⟩ := hcases hy
      · exact absurd ha hx
      · exact h.latest he hy ha
  · obtain ⟨rfl, rfl⟩ | ⟨hlt, hy⟩ := hcases hy
    · refine Or.inl ((ho.entry ha).trans ?_)
      rw [Session.entered, hopen]
      rfl
    · by_cases hx : x.address? = some a
      · exact Or.inr ⟨_, x, hlt, ho.self, hx⟩
      · rw [ho.entries hx]
        exact (h.inPlace hy ha hopen).imp_right fun ⟨j, z, hj, hz, hza⟩ => ⟨j, z, hj, hold hz, hza⟩

end Session
end Colloquy
