import Storyworld.Proofs.FiledOperations
import Storyworld.Proofs.Ledger

/-! The ledger as the files show it. An operation touches one conversation only, turns stay in their
places, and so everything that can be read from the files goes by the ledger, whatever was done before,
also where operations failed or went to slugs that are free. One that fails leaves the files as they
were, but for the history in which a half would have been written. -/

namespace Storyworld

/-- Every turn has the index of its place. -/
def InPlace (ts : List Turn) : Prop := ∀ (i : Nat) (t : Turn), ts[i]? = some t → t.index = i

namespace InPlace

variable {ts : List Turn} {t : Turn}

theorem concat (h : InPlace ts) (ht : t.index = ts.length) : InPlace (ts ++ [t]) := by
  intro i s hs
  rcases Nat.lt_trichotomy i ts.length with hi | rfl | hi
  · rw [List.getElem?_append_left hi] at hs
    exact h i s hs
  · rw [List.getElem?_concat_length] at hs
    rw [← Option.some.inj hs, ht]
  · rw [List.getElem?_eq_none (by simp; omega)] at hs
    cases hs

theorem set {old : Turn} {i : Nat} (h : InPlace ts) (hold : ts[i]? = some old)
    (ht : t.index = old.index) : InPlace (ts.set i t) := by
  intro j s hs
  obtain ⟨hi, -⟩ := List.getElem?_eq_some_iff.mp hold
  by_cases hj : i = j
  · subst hj
    rw [List.getElem?_set_self hi] at hs
    rw [← Option.some.inj hs, ht]
    exact h i old hold
  · rw [List.getElem?_set_ne hj] at hs
    exact h j s hs

theorem take (h : InPlace ts) (n : Nat) : InPlace (ts.take n) := by
  intro i s hs
  rw [List.getElem?_take] at hs
  split at hs
  · exact h i s hs
  · cases hs

end InPlace

/-- Turns that are in place stay so. -/
theorem Rewrites.inPlace {op : Operation} {turns next : List Turn}
    {settle : Conversation → Conversation} (h : Rewrites turns op next settle)
    (hplace : InPlace turns) : InPlace next := by
  cases h with
  | @append _ role text parseOutput t hcheck =>
    have hline := check_toOption turns.length role text parseOutput
    rw [hcheck] at hline
    obtain ⟨l, -, rfl⟩ := Option.map_eq_some_iff.mp hline.symm
    exact hplace.concat rfl
  | @update _ _ changes i old t hold hamended =>
    have hline := amended_toOption old changes
    rw [hamended] at hline
    obtain ⟨l, -, rfl⟩ := Option.map_eq_some_iff.mp hline.symm
    exact hplace.set hold rfl
  | truncate => exact hplace.take _

/-- The history cannot be read, or every turn in it is in place. -/
def Conversation.Placed (c : Conversation) : Prop := ∀ turns, c.turns = .ok turns → InPlace turns

namespace Archive

variable {a : Archive}

theorem placed_after (h : a.All Conversation.Placed) (op : Operation) :
    (a.after op).All Conversation.Placed := by
  refine h.step (a.step_attempt op) ?_ (fun _ _ hc => hc) (fun _ _ _ _ _ _ _ _ => nofun) ?_
  · rintro card turns ⟨⟩
    exact nofun
  · intro c turns next settle hc hturns hrewrites _ written hwritten
    obtain rfl := Except.ok.inj ((hrewrites.turns_settle (c.write next)).symm.trans hwritten)
    exact hrewrites.inPlace (hc turns hturns)

theorem placed_run (h : a.All Conversation.Placed) (ops : List Operation) :
    (a.run ops).All Conversation.Placed := by
  induction ops generalizing a with
  | nil => exact h
  | cons op ops ih => exact ih (placed_after h op)

end Archive

namespace Files

variable {f g : Files} {a : Archive}

/-- A history is lost, and all else is as it was. -/
structure LosesHistory (f : Files) (slug : String) (g : Files) : Prop where
  cards : ∀ other, g.cards.get? other = f.cards.get? other
  histories : ∀ other, slug ≠ other → g.historyOf other = f.historyOf other
  checkpoints : ∀ other, g.checkpointOf other = f.checkpointOf other
  lost : (turns slug).run g = .error .unreadable g

/-- What the files say is what stands in a ledger, and work on them goes by it. -/
structure Shows (f : Files) (l : Ledger) : Prop where
  listing : ∃ slugs, list.run f = .ok slugs f ∧ slugs.Pairwise (· < ·) ∧
    ∀ slug, slug ∈ slugs ↔ (l slug).isSome
  histories : ∀ slug lines, (l slug).getD (some []) = some lines →
    ∃ ts, (turns slug).run f = .ok ts f ∧ ts.map Turn.line = lines ∧ InPlace ts
  lost : ∀ slug, l slug = some none → (turns slug).run f = .error .unreadable f
  taken : ∀ name card, (l (slug name)).isSome →
    (create name card).run f = .error (.taken (slug name)) f
  begins : ∀ name card, l (slug name) = none → card.isPlain = true → ∃ g,
    (create name card).run f = .ok (slug name) g ∧ (turns (slug name)).run g = .ok [] g ∧
      (checkpoint? (slug name)).run g = .ok none g
  unserializable : ∀ name card, l (slug name) = none → card.isPlain = false →
    (create name card).run f = .error .unserializable f
  deletes : ∀ slug, ∃ g, (delete slug).run f = .ok (l slug).isSome g
  apart : ∀ op other, op.slug ≠ other → ∀ g, g = left (perform op) f →
    g.cards.get? other = f.cards.get? other ∧ g.historyOf other = f.historyOf other ∧
      g.checkpointOf other = f.checkpointOf other
  failing : ∀ op e g, (perform op).run f = .error e g →
    g = f ∨ e = .unencodable ∧ op.isPlain = false ∧ f.LosesHistory op.slug g

theorem Keep.losesHistory {slug : String} {c : Conversation} (h : f.Keep a)
    (hc : Entries.get? slug a = some c)
    (hg : g.Keep (Entries.put slug c.emptied a)) : f.LosesHistory slug g where
  cards other := by
    rw [hg.cards, h.cards, Entries.get?_put]
    by_cases ho : slug = other
    · simp [← ho, hc, Conversation.emptied]
    · simp [ho]
  histories other ho := by
    simp only [Files.historyOf, hg.folders, h.folders, Entries.get?_put, if_neg ho]
  checkpoints other := by
    simp only [Files.checkpointOf, hg.folders, h.folders, Entries.get?_put]
    by_cases ho : slug = other
    · simp [← ho, hc, Conversation.emptied]
    · simp [ho]
  lost := by
    rw [hg.run_turns, Archive.turns_of_get? (Entries.get?_put_self _ _ _)]
    rfl

/-- Where an operation fails, all is as it was, or the history is lost in which it would have written a
half. -/
theorem Keep.failing (h : f.Keep a) (hencodable : a.All Conversation.Encodable) {op : Operation}
    {e : ArchiveError} (he : (Files.perform op).run f = .error e g) :
    g = f ∨ e = .unencodable ∧ op.isPlain = false ∧ f.LosesHistory op.slug g := by
  rcases h.perform_cases op with ⟨k, hrun, -⟩ | ⟨e', k, hrun, herror, hk, hleft⟩ <;>
    rw [hrun] at he <;> cases he
  rcases hleft with rfl | ⟨hsame, -⟩
  · obtain ⟨hhalf, c, hc, hafter⟩ := Archive.after_of_unencodable hencodable herror
    rw [hafter] at hk
    exact .inr ⟨rfl, hhalf, h.losesHistory hc hk⟩
  · exact .inl hsame

theorem Keep.listing (h : f.Keep a) : ∃ slugs, list.run f = .ok slugs f ∧
    slugs.Pairwise (· < ·) ∧ ∀ slug, slug ∈ slugs ↔ (a.ledger slug).isSome := by
  refine ⟨a.slugs, h.run_list, h.sorted, fun slug => ?_⟩
  rw [Archive.ledger, Option.isSome_map]
  exact Entries.mem_keys_iff

/-- What is read of a conversation are the lines of its page, and nothing where there is none. -/
theorem Keep.histories (h : f.Keep a) (hplaced : a.All Conversation.Placed) {slug : String}
    {lines : List Line} (hlines : (a.ledger slug).getD (some []) = some lines) :
    ∃ ts, (turns slug).run f = .ok ts f ∧ ts.map Turn.line = lines ∧ InPlace ts := by
  have hturns := h.run_turns slug
  cases hc : Entries.get? slug a with
  | none =>
    rw [Archive.ledger, hc] at hlines
    rw [Archive.turns, hc] at hturns
    exact ⟨[], hturns, Option.some.inj hlines, fun _ _ ht => by cases ht⟩
  | some c =>
    rw [Archive.ledger, hc] at hlines
    rw [Archive.turns_of_get? hc] at hturns
    cases ht : c.turns with
    | error e => simp [c.page_of_error ht] at hlines
    | ok ts =>
      simp only [ht] at hturns
      refine ⟨ts, hturns, ?_, hplaced slug c hc ts ht⟩
      simpa [c.page_of_turns ht] using hlines

theorem Keep.lost (h : f.Keep a) {slug : String} (hlost : a.ledger slug = some none) :
    (turns slug).run f = .error .unreadable f := by
  obtain ⟨c, hc, hpage⟩ := Option.map_eq_some_iff.mp hlost
  rw [h.run_turns, Archive.turns_of_get? hc]
  unfold Conversation.page Conversation.turns at *
  cases hhistory : c.history <;> simp_all [Except.toOption]

theorem Keep.taken (h : f.Keep a) {name : Text} (card : Card)
    (htaken : (a.ledger (slug name)).isSome) :
    (create name card).run f = .error (.taken (slug name)) f := by
  rw [Archive.ledger, Option.isSome_map] at htaken
  have hcreate := h.follows_create name card
  simp only [Archive.create, htaken, if_true] at hcreate
  exact hcreate.unchanged (by simp)

theorem Keep.begins (h : f.Keep a) {name : Text} {card : Card}
    (hfree : a.ledger (slug name) = none) (hplain : card.isPlain = true) :
    ∃ g, (create name card).run f = .ok (slug name) g ∧ (turns (slug name)).run g = .ok [] g ∧
      (checkpoint? (slug name)).run g = .ok none g := by
  have hc : Entries.get? (slug name) a = none := Option.map_eq_none_iff.mp hfree
  have hcreate := h.follows_create name card
  simp only [Archive.create, hc, hplain, Option.isSome_none, Bool.not_true, Bool.false_eq_true,
    if_false] at hcreate
  obtain ⟨g, hrun, hg⟩ := hcreate
  have hnew :=
    Archive.get?_insert hc ⟨(Card.codec.dump card).finiteOnly, .unwritten, none⟩ (slug name)
  rw [if_pos rfl] at hnew
  refine ⟨g, hrun, ?_, ?_⟩
  · rw [hg.run_turns, Archive.turns_of_get? hnew]
    rfl
  · rw [hg.run_checkpoint?, Archive.checkpoint?, hnew]
    rfl

theorem Keep.unserializable (h : f.Keep a) {name : Text} {card : Card}
    (hfree : a.ledger (slug name) = none) (hhalf : card.isPlain = false) :
    (create name card).run f = .error .unserializable f := by
  have hc : Entries.get? (slug name) a = none := Option.map_eq_none_iff.mp hfree
  have hcreate := h.follows_create name card
  simp only [Archive.create, hc, hhalf, Option.isSome_none, Bool.not_false, Bool.false_eq_true,
    if_false, if_true] at hcreate
  exact hcreate.unchanged (by simp)

/-- What an operation leaves behind is as it was under every slug but its own. -/
theorem Keep.apart (h : f.Keep a) {op : Operation} {other : String} (ho : op.slug ≠ other)
    (hg : g = Files.left (Files.perform op) f) :
    g.cards.get? other = f.cards.get? other ∧ g.historyOf other = f.historyOf other ∧
      g.checkpointOf other = f.checkpointOf other := by
  have hkeep : g.Keep (a.after op) := hg ▸ h.left op
  have hsame : Entries.get? other (a.after op) = Entries.get? other a := (a.step_attempt op).get? ho
  simp only [Files.historyOf, Files.checkpointOf, hkeep.cards, h.cards, hkeep.folders,
    h.folders, hsame, and_self]

theorem Keep.shows (h : f.Keep a) (hencodable : a.All Conversation.Encodable)
    (hplaced : a.All Conversation.Placed) : f.Shows a.ledger where
  listing := h.listing
  histories _ _ hlines := h.histories hplaced hlines
  lost _ hlost := h.lost hlost
  taken _ card htaken := h.taken card htaken
  begins _ _ hfree hplain := h.begins hfree hplain
  unserializable _ _ hfree hhalf := h.unserializable hfree hhalf
  deletes slug := by
    obtain ⟨g, hrun, -⟩ := h.follows_delete slug
    exact ⟨g, by rw [hrun, Archive.ledger, Option.isSome_map]; rfl⟩
  apart _ _ ho _ hg := h.apart ho hg
  failing _ _ _ he := h.failing hencodable he

end Files

/-- A second creation, an unknown role and an index behind the end change nothing. -/
example : (Ledger.empty.run [
    .create "Rain" Demo.card,
    .append "rain" (.text "user") (.text "It rains.") .null,
    .create "rain!" Demo.card,
    .append "rain" (.text "narrator") (.text "It pours.") .null,
    .update "rain" 1 [("text", .text "It snows.")],
    .update "rain" 0 [("parse_output", .text "set(weather, rain)")]]) "rain" =
      some (some [⟨.user, "It rains.", some "set(weather, rain)"⟩]) := by
  rfl

end Storyworld
