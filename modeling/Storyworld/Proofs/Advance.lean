import Storyworld.Files
import Storyworld.Proofs.Session

/-! What a question for a state does to the checkpoint. A question that fails leaves it alone. Else
there is a checkpoint afterwards that belongs to the history, as far ahead as the one before, if that
belonged, and the index of the question allow: the one before where it covers the index, and one of
the answer otherwise. -/

namespace Storyworld

variable {card : Card} {initial s : State} {turns : List Turn} {slot left : Option Checkpoint}
  {c : Checkpoint} {index : Int}

namespace Checkpoint

/-- The checkpoint lies within the history. Its digest, if it has one, is that of the turns up to its
index. -/
structure Belongs (c : Checkpoint) (turns : List Turn) : Prop where
  within : c.index < turns.length
  digest : ∀ d ∈ c.digest, d = fingerprint (historyBytes (turns.take (c.index + 1)))

/-- The checkpoint belongs to the history, and is at an index or ahead of it. -/
def Covers (c : Checkpoint) (turns : List Turn) (index : Int) : Prop :=
  c.Belongs turns ∧ index ≤ c.index

theorem isFresh_iff : c.isFresh (fingerprints turns) = true ↔ c.Belongs turns := by
  rw [isFresh, fingerprints_getElem?]
  by_cases hi : c.index < turns.length
  · rw [if_pos hi]
    refine Iff.trans ?_ ⟨fun hdigest => ⟨hi, hdigest⟩, Belongs.digest⟩
    cases c.digest <;> simp
  · rw [if_neg hi]
    exact ⟨fun h => absurd h Bool.false_ne_true, fun h => absurd h.within hi⟩

end Checkpoint

/-- What may stand in the place of the checkpoint after a question that is answered by a state. -/
structure Advances (turns : List Turn) (index : Int) (slot : Option Checkpoint) (s : State)
    (c : Checkpoint) : Prop where
  within : 0 ≤ index ∧ index < turns.length
  belongs : c.Belongs turns
  farthest : ∀ d ∈ slot, d.Belongs turns → (c.index : Int) = max index d.index
  alone : (∀ d ∈ slot, ¬d.Belongs turns) → (c.index : Int) = index
  kept : ∀ d ∈ slot, d.Covers turns index → c = d
  renewed : (∀ d ∈ slot, ¬d.Covers turns index) → (c.index : Int) = index ∧ c.state = s ∧
    c.digest = some (fingerprint (historyBytes (turns.take (c.index + 1))))

theorem Advances.covers (h : Advances turns index slot s c) : c.Covers turns index := by
  refine ⟨h.belongs, ?_⟩
  by_cases hslot : ∃ d ∈ slot, d.Belongs turns
  · obtain ⟨d, hd, hbelongs⟩ := hslot
    have hfarthest := h.farthest d hd hbelongs
    omega
  · exact Int.le_of_eq (h.alone fun d hd hbelongs => hslot ⟨d, hd, hbelongs⟩).symm

/-- Only a checkpoint that covers the turn is kept. -/
theorem replayStart_kept (initial : State) (turns : List Turn) (slot : Option Checkpoint) (i : Nat) :
    (replayStart initial (fingerprints turns) slot i).2.2 = true ↔
      ∃ d ∈ slot, d.Covers turns i := by
  cases slot with
  | none => simp [replayStart]
  | some d =>
    have hcovers : (∃ c ∈ some d, c.Covers turns i) ↔ d.Belongs turns ∧ i ≤ d.index := by
      simp [Checkpoint.Covers]
    rw [hcovers, ← Checkpoint.isFresh_iff, replayStart]
    cases d.isFresh (fingerprints turns)
    · simp
    · by_cases hi : i < d.index
      · simp [hi, Nat.le_of_lt hi]
      · simp [hi, Nat.le_antisymm_iff, Nat.not_lt.mp hi]

/-- Why a question may fail: its index is outside the history, or a turn up to it cannot be applied. -/
def Obstructs (card : Card) (turns : List Turn) (index : Int) (fault : Fault) : Prop :=
  ¬(0 ≤ index ∧ index < turns.length) ∧ fault = .outsideHistory index turns.length ∨
    (0 ≤ index ∧ index < turns.length) ∧
      ∃ t ∈ turns.take (index.toNat + 1),
        ∃ s : State, s.applyText card t.commandSource = .error fault

theorem replay_eq_error {fault : Fault} (h : replay card s turns = .error fault) :
    ∃ t ∈ turns, ∃ s : State, s.applyText card t.commandSource = .error fault := by
  refine (Ends.foldlM (P := fun _ => True) (Q := fun fault => ∃ t ∈ turns, ∃ s : State,
    s.applyText card t.commandSource = .error fault) trivial fun t ht s _ => ?_).of_error h
  exact ⟨fun _ => trivial, fun hfault => ⟨t, ht, s, hfault⟩⟩

/-- A question fails for a reason, or is answered by a state and leaves behind a checkpoint of it
unless one stays that covers the turn. -/
theorem stateAt_cases (card : Card) (initial : State) (turns : List Turn) (slot : Option Checkpoint)
    (index : Int) :
    (∃ fault, Obstructs card turns index fault ∧
      stateAt card initial turns slot index = .error fault) ∨
    ∃ (i : Nat) (s : State), index = i ∧ i < turns.length ∧
      stateAt card initial turns slot index =
        .ok (s, if (replayStart initial (fingerprints turns) slot i).2.2 then none
          else some ⟨i, s, some (fingerprint (historyBytes (turns.take (i + 1))))⟩) := by
  unfold stateAt
  cases hp : position? turns index with
  | none => exact .inl ⟨_, .inl ⟨position?_eq_none.mp hp, rfl⟩, rfl⟩
  | some i =>
    obtain ⟨rfl, hi⟩ := position?_eq_some.mp hp
    simp only [fingerprints_getElem?, if_pos hi]
    split
    · rename_i fault hreplay
      obtain ⟨t, ht, hfails⟩ := replay_eq_error hreplay
      exact .inl ⟨fault, .inr ⟨by omega, t, List.mem_of_mem_drop ht, hfails⟩, rfl⟩
    · rename_i s _
      exact .inr ⟨i, s, rfl, hi, rfl⟩

theorem stateAt_obstructs {fault : Fault}
    (h : stateAt card initial turns slot index = .error fault) :
    Obstructs card turns index fault := by
  obtain ⟨fault', hfault, he⟩ | ⟨i, s, -, -, hok⟩ := stateAt_cases card initial turns slot index
  · cases he.symm.trans h
    exact hfault
  · cases hok.symm.trans h

/-- An answer leaves nothing behind where a checkpoint covers the turn, and else one of the answer. -/
theorem stateAt_leaves (h : stateAt card initial turns slot index = .ok (s, left)) :
    (0 ≤ index ∧ index < turns.length) ∧
      ((∃ d ∈ slot, d.Covers turns index) ∧ left = none ∨
        (∀ d ∈ slot, ¬d.Covers turns index) ∧ ∃ c, left = some c ∧
          c.index = index ∧ c.state = s ∧
          c.digest = some (fingerprint (historyBytes (turns.take (c.index + 1))))) := by
  obtain ⟨fault, -, he⟩ | ⟨i, s', rfl, hi, hok⟩ := stateAt_cases card initial turns slot index
  · cases he.symm.trans h
  · cases hok.symm.trans h
    have hcovers := replayStart_kept initial turns slot i
    refine ⟨by omega, ?_⟩
    split
    · rename_i hkept
      exact .inl ⟨hcovers.mp hkept, rfl⟩
    · rename_i hkept
      exact .inr ⟨fun d hd hc => hkept (hcovers.mpr ⟨d, hd, hc⟩), _, rfl, rfl, rfl, rfl⟩

theorem stateAt_advances (h : stateAt card initial turns slot index = .ok (s, left)) :
    ∃ c, left.or slot = some c ∧ Advances turns index slot s c := by
  obtain ⟨hwithin, ⟨⟨c, hc, hcovers⟩, rfl⟩ | ⟨hnone, c, rfl, hindex, hstate, hdigest⟩⟩ :=
    stateAt_leaves h
  · have hself : ∀ d ∈ slot, c = d := fun d hd => Option.some.inj (hc.symm.trans hd)
    refine ⟨c, hc, ⟨hwithin, hcovers.1, fun d hd _ => ?_, fun hall => ?_,
      fun d hd _ => hself d hd, fun hall => ?_⟩⟩
    · rw [← hself d hd, Int.max_eq_right hcovers.2]
    · exact absurd hcovers.1 (hall c hc)
    · exact absurd hcovers (hall c hc)
  · refine ⟨c, rfl, ⟨hwithin, ⟨by omega, fun d hd => ?_⟩, fun d hd hbelongs => ?_, fun _ => hindex,
      fun d hd hcovers => absurd hcovers (hnone d hd), fun _ => ⟨hindex, hstate, hdigest⟩⟩⟩
    · exact Option.some.inj (hd.symm.trans hdigest)
    · have hbehind : ¬index ≤ d.index := fun hle => hnone d hd ⟨hbelongs, hle⟩
      rw [hindex, Int.max_eq_left (Int.le_of_lt (Int.not_le.mp hbehind))]

namespace Files

/-- The files with a checkpoint in the folder of a conversation, if there is that folder. -/
def withCheckpoint (f : Files) (slug : String) (c : Checkpoint) : Files :=
  f.inFolder slug fun d => { d with checkpoint := some (Checkpoint.codec.dump c).finiteOnly }

theorem checkpointOf_withCheckpoint {f : Files} {slug : String} (h : (f.folders.get? slug).isSome)
    (c : Checkpoint) : (f.withCheckpoint slug c).checkpointOf slug =
      some (Checkpoint.codec.dump c).finiteOnly := by
  obtain ⟨d, hd⟩ := Option.isSome_iff_exists.mp h
  simp [checkpointOf, withCheckpoint, get?_inFolder, hd]

theorem run_ofChecked_cases {α : Type} (c : Checked α) (f : Files) :
    (∃ v, (Filing.ofChecked c).run f = .ok v f) ∨ ∃ e, (Filing.ofChecked c).run f = .error e f := by
  cases c with
  | accepted v => exact .inl ⟨v, rfl⟩
  | refused problems => exact .inr ⟨.invalid problems, rfl⟩

theorem run_turns_cases (f : Files) (slug : String) :
    (∃ ts, (Files.turns slug).run f = .ok ts f) ∨ ∃ e, (Files.turns slug).run f = .error e f := by
  simp only [Files.turns, EStateM.run_bind, EStateM.run_get]
  cases f.historyOf slug with
  | unwritten => exact .inl ⟨[], rfl⟩
  | emptied => exact .inr ⟨.unreadable, rfl⟩
  | written v => exact run_ofChecked_cases _ f

theorem run_checkpoint?_cases (f : Files) (slug : String) :
    (∃ slot, (checkpoint? slug).run f = .ok slot f) ∨
      ∃ e, (checkpoint? slug).run f = .error e f := by
  simp only [checkpoint?, EStateM.run_bind, EStateM.run_get]
  cases f.checkpointOf slug with
  | none => exact .inl ⟨none, rfl⟩
  | some v =>
    obtain ⟨c, hc⟩ | ⟨e, he⟩ := run_ofChecked_cases (Checkpoint.codec.load v) f
    · exact .inl ⟨some c, by simp [hc]⟩
    · exact .inr ⟨e, by simp [he]⟩

/-- A checkpoint is written into a folder that is there, or nothing is written. -/
theorem run_saveCheckpoint_cases (f : Files) (slug : String) (c : Checkpoint) :
    (∃ e, (saveCheckpoint slug c).run f = .error e f) ∨
      (saveCheckpoint slug c).run f = .ok () (f.withCheckpoint slug c) ∧
        (f.folders.get? slug).isSome := by
  cases hplain : c.isPlain with
  | false => exact .inl ⟨.unserializable, by simp [saveCheckpoint, hplain]⟩
  | true =>
    cases hfolder : f.folders.get? slug with
    | none => exact .inl ⟨.noConversation, by simp [saveCheckpoint, writeInto, hplain, hfolder]⟩
    | some d =>
      exact .inr ⟨by simp [saveCheckpoint, writeInto, hplain, hfolder, withCheckpoint], rfl⟩

/-- A question to files ends in an error without a change to them, or it is answered for the turns
and the checkpoint that are read. Then the checkpoint that the answer leaves behind is written, into
a folder that is there. -/
theorem run_stateOf_cases (f : Files) (slug : String) (card : Card) (initial : State)
    (index : Option Int) :
    (∃ e, (stateOf slug card initial index).run f = .error e f) ∨
      ∃ ts slot s left, (Files.turns slug).run f = .ok ts f ∧
        (checkpoint? slug).run f = .ok slot f ∧
        stateWhen card initial ts slot index = .ok (s, left) ∧
        (stateOf slug card initial index).run f = .ok s (left.elim f (f.withCheckpoint slug)) ∧
        (left.isSome → (f.folders.get? slug).isSome) := by
  unfold stateOf
  obtain ⟨ts, hts⟩ | ⟨e, he⟩ := f.run_turns_cases slug
  · obtain ⟨slot, hslot⟩ | ⟨e, he⟩ := f.run_checkpoint?_cases slug
    · cases hanswer : stateWhen card initial ts slot index with
      | error fault => exact .inl ⟨.fault fault, by simp [hts, hslot, hanswer]⟩
      | ok answer =>
        obtain ⟨s, left⟩ := answer
        cases left with
        | none =>
          exact .inr ⟨ts, slot, s, none, hts, hslot, hanswer, by simp [hts, hslot, hanswer], by simp⟩
        | some c =>
          obtain ⟨e, hsave⟩ | ⟨hsave, hfolder⟩ := f.run_saveCheckpoint_cases slug c
          · exact .inl ⟨e, by simp [hts, hslot, hanswer, hsave]⟩
          · refine .inr ⟨ts, slot, s, some c, hts, hslot, hanswer, ?_, fun _ => hfolder⟩
            simp [hts, hslot, hanswer, hsave]
    · exact .inl ⟨e, by simp [hts, he]⟩
  · exact .inl ⟨e, by simp [he]⟩

end Files

namespace Session

variable {x : Session}

theorem asked_of_error {fault : Fault}
    (h : stateAt x.card x.initial x.turns x.slot index = .error fault) :
    x.stateWhen (some index) = .error fault ∧ x.asked index = x := by
  have hanswer : x.stateWhen (some index) = .error fault := by
    rw [stateWhen, Storyworld.stateWhen, h]
  exact ⟨hanswer, by rw [asked, hanswer]⟩

theorem asked_of_ok (h : stateAt x.card x.initial x.turns x.slot index = .ok (s, left)) :
    x.stateWhen (some index) = .ok (s, x.asked index) ∧
      x.asked index = { x with slot := left.or x.slot } := by
  have hanswer : x.stateWhen (some index) = .ok (s, { x with slot := left.or x.slot }) := by
    rw [stateWhen, Storyworld.stateWhen, h]
    cases left <;> rfl
  have hasked : x.asked index = { x with slot := left.or x.slot } := by rw [asked, hanswer]
  exact ⟨by rw [hasked, hanswer], hasked⟩

/-- No question drops a checkpoint that covers an index, or goes back behind it. -/
theorem covers_asked {i : Int} (hi : ∃ c ∈ x.slot, c.Covers x.turns i) (index : Int) :
    ∃ c ∈ (x.asked index).slot, c.Covers x.turns i := by
  cases hanswer : stateAt x.card x.initial x.turns x.slot index with
  | error fault => rwa [(asked_of_error hanswer).2]
  | ok answer =>
    obtain ⟨c, hc, hadvances⟩ := stateAt_advances hanswer
    obtain ⟨d, hd, hbelongs, hle⟩ := hi
    rw [(asked_of_ok hanswer).2]
    refine ⟨c, hc, hadvances.belongs, ?_⟩
    have hfarthest := hadvances.farthest d hd hbelongs
    omega

theorem covers_asks {i : Int} (hi : ∃ c ∈ x.slot, c.Covers x.turns i) (indices : List Int) :
    ∃ c ∈ (indices.foldl asked x).slot, c.Covers x.turns i := by
  induction indices generalizing x with
  | nil => exact hi
  | cons index indices ih =>
    have hnext := covers_asked hi index
    rw [← (asked_frame x index).2.2] at hnext ⊢
    exact ih hnext

/-- Once a question is answered, a checkpoint covers its index as long as the history does not change,
whatever else is asked. -/
theorem covers_of_answered (h : (x.stateWhen (some index)).toOption.isSome) (later : List Int) :
    ∃ c ∈ (later.foldl asked (x.asked index)).slot, c.Covers x.turns index := by
  obtain ⟨answer, hanswer⟩ := exists_eq_ok h
  rw [← (asked_frame x index).2.2]
  refine covers_asks ?_ later
  cases hstate : stateAt x.card x.initial x.turns x.slot index with
  | error fault => cases hanswer.symm.trans (asked_of_error hstate).1
  | ok left =>
    obtain ⟨c, hc, hadvances⟩ := stateAt_advances hstate
    rw [(asked_frame x index).2.2, (asked_of_ok hstate).2]
    exact ⟨c, hc, hadvances.covers⟩

end Session

/-- A question that fails, for want of the turn or over a turn that cannot be applied, changes nothing.
One that is answered leaves the checkpoint that it should. In files, one is written only where none
that covers the index is read. -/
theorem question_advances (card : Card) (initial : State) (index : Int) :
    (∀ (turns : List Turn) (slot : Option Checkpoint),
      let x : Session := ⟨card, initial, turns, slot⟩
      match x.stateWhen (some index) with
      | .error fault => x.asked index = x ∧ Obstructs card turns index fault
      | .ok (s, next) => next = x.asked index ∧
          ∃ c, next = { x with slot := some c } ∧ Advances turns index slot s c) ∧
    ∀ (slug : String) (f : Files),
      match (Files.stateOf slug card initial (some index)).run f with
      | .error _ g => g = f
      | .ok s g => ∃ turns slot c, (Files.turns slug).run f = .ok turns f ∧
          (Files.checkpoint? slug).run f = .ok slot f ∧ Advances turns index slot s c ∧
          ((∃ d ∈ slot, d.Covers turns index) → g = f) ∧
          ((∀ d ∈ slot, ¬d.Covers turns index) → g = f.withCheckpoint slug c ∧
            g.checkpointOf slug = some (Checkpoint.codec.dump c).finiteOnly) := by
  refine ⟨fun turns slot => ?_, fun slug f => ?_⟩
  · intro x
    cases hanswer : stateAt card initial turns slot index with
    | error fault =>
      obtain ⟨hwhen, hasked⟩ := Session.asked_of_error (x := x) hanswer
      rw [hwhen]
      exact ⟨hasked, stateAt_obstructs hanswer⟩
    | ok answer =>
      obtain ⟨s, left⟩ := answer
      obtain ⟨hwhen, hasked⟩ := Session.asked_of_ok (x := x) hanswer
      obtain ⟨c, hc, hadvances⟩ := stateAt_advances hanswer
      rw [hwhen]
      exact ⟨rfl, c, by rw [hasked, ← hc], hadvances⟩
  · obtain ⟨e, hrun⟩ | ⟨turns, slot, s, left, hturns, hslot, hanswer, hrun, hfolder⟩ :=
      f.run_stateOf_cases slug card initial (some index)
    · rw [hrun]
    · rw [hrun]
      obtain ⟨c, hc, hadvances⟩ := stateAt_advances hanswer
      refine ⟨turns, slot, c, hturns, hslot, hadvances, ?_⟩
      obtain ⟨-, ⟨⟨d, hd, hcovers⟩, rfl⟩ | ⟨hnone, d, rfl, -⟩⟩ := stateAt_leaves hanswer
      · exact ⟨fun _ => rfl, fun hnone => absurd hcovers (hnone d hd)⟩
      · obtain rfl := Option.some.inj hc
        refine ⟨fun ⟨e, he, hcovers⟩ => absurd hcovers (hnone e he), fun _ => ⟨rfl, ?_⟩⟩
        exact Files.checkpointOf_withCheckpoint (hfolder rfl) d

end Storyworld
