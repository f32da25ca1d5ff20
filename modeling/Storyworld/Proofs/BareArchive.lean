import Storyworld.Proofs.FiledArchive

/-! An archive without its checkpoints. Every operation does to it what it does to the archive, and
where the checkpoints are sound every question is answered alike. -/

namespace Storyworld

def Conversation.bare (c : Conversation) : Conversation := { c with checkpoint := none }

theorem Conversation.bare_dropFrom (c : Conversation) (n : Nat) : (c.dropFrom n).bare = c.bare := by
  unfold dropFrom
  split
  · split <;> rfl
  · rfl

theorem Conversation.dropFrom_bare (c : Conversation) (n : Nat) : c.bare.dropFrom n = c.bare := rfl

/-- A checkpoint can hold the state. -/
def State.Storable (s : State) : Prop := s.Finite ∧ s.isPlain = true

instance (s : State) : Decidable s.Storable := inferInstanceAs (Decidable (_ ∧ _))

namespace Archive

variable {a b : Archive} {slug : String}

def bare (a : Archive) : Archive := Entries.mapValues Conversation.bare a

theorem get?_bare (a : Archive) (slug : String) :
    Entries.get? slug a.bare = (Entries.get? slug a).map Conversation.bare :=
  Entries.get?_mapValues _ a slug

theorem bare_insert (a : Archive) (slug : String) (c : Conversation) :
    bare (insert slug c a) = insert slug c.bare a.bare := by
  induction a with
  | nil => rfl
  | cons e a ih =>
    simp only [bare, Entries.mapValues] at ih
    by_cases h : slug < e.1 <;> simp [bare, Entries.mapValues, insert, h, ih]

theorem bare_put (a : Archive) (slug : String) (c : Conversation) :
    bare (Entries.put slug c a) = Entries.put slug c.bare a.bare :=
  Entries.mapValues_put _ a slug c

theorem slugs_bare (a : Archive) : a.bare.slugs = a.slugs := by
  simp [slugs, bare, Entries.mapValues]

theorem turns_bare (a : Archive) (slug : String) : a.bare.turns slug = a.turns slug := by
  unfold Archive.turns
  rw [get?_bare]
  cases Entries.get? slug a <;> rfl

theorem card?_bare (a : Archive) (slug : String) : a.bare.card? slug = a.card? slug := by
  unfold card?
  rw [get?_bare]
  cases Entries.get? slug a <;> rfl

theorem opened_bare (a : Archive) (slug : String) : a.bare.opened slug = a.opened slug := by
  unfold opened
  rw [card?_bare]

/-- What an attempt gives, with the archive bare that it leaves. -/
def bared {α : Type} (r : Except ArchiveError α × Archive) : Except ArchiveError α × Archive :=
  (r.1, r.2.bare)

theorem create_bare (a : Archive) (name : Text) (card : Card) :
    a.bare.attempted (a.bare.create name card) = bared (a.attempted (a.create name card)) := by
  simp only [create, get?_bare, Option.isSome_map]
  split
  · rfl
  split
  · rfl
  · simp [attempted, bared, bare_insert, Conversation.bare]

theorem delete_bare (a : Archive) (slug : String) :
    ((.ok (a.bare.delete slug).1, (a.bare.delete slug).2) : Except ArchiveError Bool × Archive) =
      bared (.ok (a.delete slug).1, (a.delete slug).2) := by
  have hbare : (a.erase slug).bare = a.bare.erase slug := Entries.mapValues_erase _ a slug
  simp [delete, bared, hbare, get?_bare]

/-- A history is rewritten without regard to the checkpoint. -/
theorem rewrite_bare {α : Type} (a : Archive) (slug : String) (turns : List Turn)
    {settle : Conversation → Conversation} (hsettle : ∀ c, settle c.bare = (settle c).bare) (v : α) :
    a.bare.rewrite slug turns settle v = bared (a.rewrite slug turns settle v) := by
  unfold rewrite
  rw [get?_bare]
  cases Entries.get? slug a with
  | none => rfl
  | some c =>
    have hwrite : settle { c.bare with history := .written turns } =
        (settle { c with history := .written turns }).bare := hsettle (c.write turns)
    simp only [Option.map_some]
    split
    · rw [hwrite, ← bare_put]
      rfl
    · exact congrArg (Prod.mk _) (bare_put a slug c.emptied).symm

theorem settle_bare (n : Nat) (c : Conversation) : c.bare.dropFrom n = (c.dropFrom n).bare := by
  rw [c.dropFrom_bare, c.bare_dropFrom]

theorem append_bare (a : Archive) (slug : String) (role text parseOutput : Value) :
    a.bare.append slug role text parseOutput = bared (a.append slug role text parseOutput) := by
  simp only [append, turns_bare]
  cases a.turns slug with
  | error e => rfl
  | ok turns =>
    dsimp only
    cases Turn.check turns.length role text parseOutput with
    | refused problems => rfl
    | accepted t =>
      have hsettle : ∀ c : Conversation, id c.bare = (id c).bare := fun _ => rfl
      exact a.rewrite_bare slug (turns ++ [t]) hsettle t

theorem update_bare (a : Archive) (slug : String) (index : Int) (changes : Entries Text Value) :
    a.bare.update slug index changes = bared (a.update slug index changes) := by
  simp only [update, turns_bare]
  cases a.turns slug with
  | error e => rfl
  | ok turns =>
    dsimp only
    cases position? turns index with
    | none => rfl
    | some i =>
      dsimp only
      cases turns[i]? with
      | none => rfl
      | some old =>
        dsimp only
        cases amended old changes with
        | refused problems => rfl
        | accepted t => exact a.rewrite_bare slug _ (settle_bare i) t

theorem truncate_bare (a : Archive) (slug : String) (length : Int) :
    a.bare.truncate slug length = bared (a.truncate slug length) := by
  simp only [truncate, turns_bare]
  cases a.turns slug with
  | error e => rfl
  | ok turns => exact a.rewrite_bare slug _ (settle_bare _) _

theorem saveCheckpoint_bare {p : Checkpoint} (h : a.saveCheckpoint slug p = .ok b) :
    b.bare = a.bare := by
  obtain ⟨-, c, hc, rfl⟩ := saveCheckpoint_eq_ok.mp h
  rw [bare_put]
  exact Entries.put_self (by rw [get?_bare, hc]; rfl)

theorem stateOf_bare (a : Archive) (slug : String) (card : Card) (initial : State)
    (index : Option Int) : (a.stateOf slug card initial index).2.bare = a.bare := by
  rcases a.stateOf_cases slug card initial index with ⟨e, -, hs⟩ | ⟨s, b, hs, hb⟩ <;> rw [hs]
  rcases hb with rfl | ⟨p, hsave⟩
  · rfl
  · exact saveCheckpoint_bare hsave

theorem state_bare (a : Archive) (slug : String) (index : Option Int) :
    (a.state slug index).2.bare = a.bare := by
  rcases a.state_snd slug index with hsame | ⟨p, hsave⟩
  · rw [hsame]
  · exact saveCheckpoint_bare hsave

theorem stateWhen_trusted {card : Card} {initial : State} {turns : List Turn}
    {slot : Option Checkpoint} (h : Trusted card initial turns slot) (index : Option Int) :
    (stateWhen card initial turns slot index).map Prod.fst =
      (stateWhen card initial turns none index).map Prod.fst := by
  have hnone : Trusted card initial turns none := fun _ hc => by cases hc
  have hat (i : Int) : (stateAt card initial turns slot i).map Prod.fst =
      (stateAt card initial turns none i).map Prod.fst :=
    (stateAt_eq_plain h i).trans (stateAt_eq_plain hnone i).symm
  cases index with
  | some index => exact hat index
  | none =>
    simp only [stateWhen, latestState]
    split
    · rfl
    · exact hat _

theorem replayed?_bare (a : Archive) (slug : String) (index : Option Int) :
    a.bare.replayed? slug index = a.replayed? slug index := by
  simp only [replayed?, opened_bare, turns_bare]

/-- A sound checkpoint changes no answer, where a checkpoint of the state could be saved. -/
theorem stateOf_fst {card : Card} {initial : State} {turns : List Turn} {index : Option Int}
    (h : a.All Conversation.Sound) (ho : a.opened slug = .ok (some (card, initial)))
    (ht : a.turns slug = .ok turns) (hplain : ∀ s ∈ a.replayed? slug index, s.isPlain = true) :
    (a.stateOf slug card initial index).1 =
      ((stateWhen card initial turns none index).map Prod.fst).mapError .fault := by
  have htrusted := trusted_of_sound h ho ht
  rw [← stateWhen_trusted htrusted]
  rcases stateOf_of_turns ho ht index with ⟨f, hw, hs⟩ |
    ⟨s, left, hw, ⟨-, hs⟩ | ⟨p, rfl, ⟨b, -, hs⟩ | ⟨hhalf, hs⟩⟩⟩ <;> rw [hs, hw]
  · rfl
  · rfl
  · rfl
  · obtain ⟨hindex, hi, hfaithful, hstate, hdigest⟩ := stateWhen_left htrusted hw
    have hreplayed : a.replayed? slug index = some p.state := by
      refine replayed?_eq_some.mpr ⟨card, initial, turns, ho, ht, ?_⟩
      rw [askedIndex, hindex]
      exact hfaithful.plain hi
    rw [Checkpoint.isPlain_eq, hdigest, hplain _ hreplayed] at hhalf
    simp [isPlain_fingerprint] at hhalf

end Archive

end Storyworld
