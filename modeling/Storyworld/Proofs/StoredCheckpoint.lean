import Storyworld.Proofs.ArchiveRun
import Storyworld.Proofs.FiniteStates

/-! Saving a checkpoint and getting it back. One with a half in it is not saved, and only numbers that
are not finite are lost on the way of the others. -/

namespace Storyworld

namespace Conversation

theorem checkpoint?_setCheckpoint (c : Conversation) (p : Checkpoint) :
    (c.setCheckpoint p).checkpoint? = some { p with state := p.state.finiteOnly } := by
  simp [checkpoint?, setCheckpoint, load_finiteOnly, Checked.toOption]

theorem checkpoint?_setCheckpoint_iff {c : Conversation} {p : Checkpoint} :
    (c.setCheckpoint p).checkpoint? = some p ↔ p.state.Finite := by
  rw [checkpoint?_setCheckpoint, ← State.finiteOnly_eq_iff, Option.some.injEq]
  cases p
  simp

end Conversation

namespace Archive

variable {a b : Archive} {slug : String}

theorem exists_saveCheckpoint {c : Conversation} (hc : Entries.get? slug a = some c)
    {p : Checkpoint} (hplain : p.isPlain = true) :
    ∃ b, a.saveCheckpoint slug p = .ok b ∧ ∀ other, Entries.get? other b =
      if slug = other then some (c.setCheckpoint p) else Entries.get? other a :=
  ⟨_, saveCheckpoint_eq_ok.mpr ⟨hplain, c, hc, rfl⟩, fun other => Entries.get?_put a slug other _⟩

/-- A checkpoint that is saved for a conversation is read back with the same index and digest, and
with null for every number in its state that is not finite. It is the one that was saved exactly
where its state is finite, as are the states that texts with finite literals lead to. -/
structure Saves (a : Archive) (slug : String) (p : Checkpoint) (b : Archive) : Prop where
  saved : a.saveCheckpoint slug p = .ok b
  read : b.checkpoint? slug = some { p with state := p.state.finiteOnly }
  same_iff : b.checkpoint? slug = some p ↔ p.state.Finite
  same : ∀ (card : Card) (initial : State) (texts : List Text), card.Finite →
    card.initialState = .ok initial → (∀ text ∈ texts, card.WritesFinite text) →
    texts.foldlM (fun s text => s.applyText card text) initial = .ok p.state →
    b.checkpoint? slug = some p
  turns : b.turns slug = a.turns slug
  card : b.card? slug = a.card? slug
  others : ∀ other, other ≠ slug → Entries.get? other b = Entries.get? other a

theorem saves_of_plain {c : Conversation} (hc : Entries.get? slug a = some c) {p : Checkpoint}
    (hplain : p.isPlain = true) : ∃ b, a.Saves slug p b := by
  obtain ⟨b, hb, hget⟩ := exists_saveCheckpoint hc hplain
  have hslug : Entries.get? slug b = some (c.setCheckpoint p) := by rw [hget, if_pos rfl]
  have hread : b.checkpoint? slug = (c.setCheckpoint p).checkpoint? := by
    rw [checkpoint?, hslug, Option.bind_some]
  have hiff : b.checkpoint? slug = some p ↔ p.state.Finite := by
    rw [hread, Conversation.checkpoint?_setCheckpoint_iff]
  refine ⟨b, hb, ?_, hiff, ?_, ?_, ?_, fun other hother => ?_⟩
  · rw [hread, Conversation.checkpoint?_setCheckpoint]
  · intro card initial texts hcard hinitial htexts hrun
    exact hiff.mpr (State.run_finite hcard htexts (Card.initialState_finite hcard hinitial) hrun)
  · rw [turns_of_get? hslug, turns_of_get? hc]
    rfl
  · simp only [card?, hslug, hc]
    rfl
  · rw [hget, if_neg (Ne.symm hother)]

/-- A checkpoint is saved for a conversation and read back, but for numbers that are not finite, if no
half is in its state and its digest. Else it is refused. -/
theorem saved_checkpoint {c : Conversation} (hc : Entries.get? slug a = some c) (p : Checkpoint) :
    (p.isPlain = true → ∃ b, a.Saves slug p b) ∧
      (p.isPlain = false → a.saveCheckpoint slug p = .error .unserializable) ∧
      p.isPlain = (p.state.isPlain && p.digest.all (·.isPlain)) :=
  ⟨saves_of_plain hc, fun hhalf => by simp [saveCheckpoint, hhalf], p.isPlain_eq⟩

end Archive

namespace Demo

theorem card_finite : Demo.card.Finite := by
  have hbound : ∀ n ∈ [0, 100], (Double.ofInt n).isFinite = true := by decide +kernel
  intro p hp
  simp only [Demo.card, List.mem_cons, List.not_mem_nil, or_false] at hp
  rcases hp with rfl | rfl | rfl | rfl | rfl | rfl | rfl
  · refine ⟨rfl, fun low hlow => ?_, fun high hhigh => ?_⟩
    · exact Option.some.inj hlow ▸ hbound 0 (by simp)
    · exact Option.some.inj hhigh ▸ hbound 100 (by simp)
  all_goals refine ⟨rfl, ?_, ?_⟩ <;> rintro _ ⟨⟩

def conversation : Conversation := ⟨(Card.codec.dump card).finiteOnly, .written turns, none⟩

def archive : Archive := [("library", conversation)]

theorem get?_archive : Entries.get? "library" archive = some conversation := by
  simp [archive, Entries.get?]

/-- A command that puts an item with a quantity into a backpack. -/
def packed (quantity : Text) : Text :=
  "set(Alice.backpack, add_item, '\x7b\"qty\": " ++ quantity ++ "\x7d')"

theorem packed_saved : ∃ initial s b, Entries.get? "library" archive = some conversation ∧
    Demo.card.Finite ∧ Demo.card.initialState = .ok initial ∧
    (∀ text ∈ [packed "2.5"], Demo.card.WritesFinite text) ∧
    [packed "2.5"].foldlM (fun s text => s.applyText Demo.card text) initial = .ok s ∧
    archive.saveCheckpoint "library" ⟨1, s, some "abc"⟩ = .ok b ∧
    b.checkpoint? "library" = some ⟨1, s, some "abc"⟩ := by
  obtain ⟨x, hx⟩ : ∃ x, x = Demo.card.initialState >>= fun initial =>
    [packed "2.5"].foldlM (fun s text => s.applyText Demo.card text) initial := ⟨_, rfl⟩
  have hstate : x.toOption.isSome ∧ ∀ s ∈ x.toOption, s.isPlain = true := by
    rw [hx]
    decide +kernel
  obtain ⟨s, hs⟩ := exists_eq_ok hstate.1
  have hplain : s.isPlain = true := hstate.2 s (by rw [hs]; rfl)
  obtain ⟨initial, hinitial, hrun⟩ := bind_eq_ok (hx.symm.trans hs)
  have htexts : ∀ text ∈ [packed "2.5"], Demo.card.WritesFinite text := by decide +kernel
  obtain ⟨hsaves, -, heq⟩ := Archive.saved_checkpoint get?_archive ⟨1, s, some "abc"⟩
  obtain ⟨b, hb⟩ := hsaves (by simp [heq, hplain])
  have hsame := hb.same Demo.card initial _ card_finite hinitial htexts hrun
  exact ⟨initial, s, b, get?_archive, card_finite, hinitial, htexts, hrun, hb.saved, hsame⟩

theorem infinite_quantity_lost : Demo.card.Valid ∧ ∃ s b, Demo.card.Reachable s ∧
    Entries.get? "library" archive = some conversation ∧
    archive.saveCheckpoint "library" ⟨1, s, none⟩ = .ok b ∧
    b.checkpoint? "library" ≠ some ⟨1, s, none⟩ := by
  obtain ⟨x, hx⟩ : ∃ x, x = Demo.card.initialState >>= fun s =>
    s.applyText Demo.card (packed "Infinity") := ⟨_, rfl⟩
  have hstate : x.toOption.isSome ∧ ∀ s ∈ x.toOption, ¬ s.Finite ∧ s.isPlain = true := by
    rw [hx]
    decide +kernel
  obtain ⟨s, hs⟩ := exists_eq_ok hstate.1
  obtain ⟨hinfinite, hplain⟩ := hstate.2 s (by rw [hs]; rfl)
  obtain ⟨initial, hinitial, happly⟩ := bind_eq_ok (hx.symm.trans hs)
  have hkept : (⟨1, s, none⟩ : Checkpoint).isPlain = true := by simp [Checkpoint.isPlain_eq, hplain]
  obtain ⟨b, hb, hget⟩ := Archive.exists_saveCheckpoint get?_archive hkept
  refine ⟨card_valid, s, b, .next _ (.initial hinitial) happly, get?_archive, hb, fun hread => ?_⟩
  rw [Archive.checkpoint?, hget, if_pos rfl, Option.bind_some,
    Conversation.checkpoint?_setCheckpoint_iff] at hread
  exact hinfinite hread

end Demo

end Storyworld
