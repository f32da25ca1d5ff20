import Storyworld.Proofs.Fingerprint
import Storyworld.Proofs.Outcome
import Storyworld.Replay

/-! Replay from a checkpoint. A checkpoint that holds what replay gives for the turns up to its index
changes no answer, and every checkpoint that an answer leaves behind holds that. -/

namespace Storyworld

variable {card : Card} {initial : State} {turns : List Turn} {slot : Option Checkpoint}

theorem replay_append (card : Card) (s : State) (ts us : List Turn) :
    replay card s (ts ++ us) = (replay card s ts).bind fun s => replay card s us := by
  simp [replay, List.foldlM_append, bind]

theorem replay_eq_foldlM (card : Card) (s : State) (ts : List Turn) :
    replay card s ts =
      (ts.map (·.commandSource)).foldlM (fun s text => s.applyText card text) s := by
  rw [replay, List.foldlM_map]

theorem plainStateAt_of_position {index : Int} {i : Nat} (h : position? turns index = some i) :
    plainStateAt card initial turns index = replay card initial (turns.take (i + 1)) := by
  rw [plainStateAt, h, replay_eq_foldlM]

/-- Replay sees nothing of a turn but its command source, which its record gives if no halves in it
stand in pairs. -/
theorem replay_congr {ts us : List Turn} (s : State)
    (hts : ∀ t ∈ ts, Apart t.commandSource.toList) (hus : ∀ t ∈ us, Apart t.commandSource.toList)
    (h : ts.map Turn.source = us.map Turn.source) : replay card s ts = replay card s us := by
  rw [map_source_of_apart hts, map_source_of_apart hus] at h
  have hmap : ∀ ts : List Turn, replay card s ts =
      (ts.map fun t => (t.role, t.commandSource)).foldlM
        (fun s p => s.applyText card p.2) s := by
    intro ts
    rw [replay, List.foldlM_map]
  rw [hmap ts, hmap us, h]

/-- Replay of the first turns goes on from the state after fewer of them. -/
theorem replay_take_of_le {s : State} {m n : Nat} (h : replay card initial (turns.take m) = .ok s)
    (hmn : m ≤ n) :
    replay card initial (turns.take n) = replay card s ((turns.take n).drop m) := by
  have hsplit := List.take_append_drop m (turns.take n)
  rw [List.take_take, Nat.min_eq_left hmn] at hsplit
  rw [← hsplit, replay_append, h, hsplit]
  rfl

theorem position?_eq_some {index : Int} {i : Nat} :
    position? turns index = some i ↔ index = i ∧ i < turns.length := by
  unfold position?
  split <;> simp only [Option.some.injEq, reduceCtorEq, false_iff] <;> omega

theorem position?_eq_none {index : Int} :
    position? turns index = none ↔ ¬(0 ≤ index ∧ index < turns.length) := by
  unfold position?
  split <;> simp_all

/-- The checkpoint holds what replay gives for the turns up to its index. -/
def Checkpoint.Faithful (c : Checkpoint) (card : Card) (initial : State) (turns : List Turn) :
    Prop :=
  replay card initial (turns.take (c.index + 1)) = .ok c.state

/-- Every checkpoint that would be used is faithful. -/
def Trusted (card : Card) (initial : State) (turns : List Turn) (slot : Option Checkpoint) : Prop :=
  ∀ c, slot = some c → c.isFresh (fingerprints turns) = true → c.Faithful card initial turns

/-- Replay starts from a state that replay of the turns before it gives. -/
theorem replayStart_faithful (h : Trusted card initial turns slot) (i : Nat) :
    let start := replayStart initial (fingerprints turns) slot i
    replay card initial (turns.take start.1) = .ok start.2.1 ∧ start.1 ≤ i + 1 := by
  cases hslot : slot with
  | none => exact ⟨rfl, Nat.zero_le _⟩
  | some c =>
    simp only [replayStart]
    split
    · exact ⟨rfl, Nat.zero_le _⟩
    split
    · exact ⟨rfl, Nat.zero_le _⟩
    · rename_i hfresh hle
      have hfaithful := h c hslot (by simpa using hfresh)
      exact ⟨hfaithful, by dsimp only; omega⟩

/-- A trusted checkpoint changes no answer. -/
theorem stateAt_eq_plain (h : Trusted card initial turns slot) (index : Int) :
    (stateAt card initial turns slot index).map Prod.fst =
      plainStateAt card initial turns index := by
  unfold stateAt
  cases hp : position? turns index with
  | none =>
    rw [plainStateAt, hp]
    rfl
  | some i =>
    rw [plainStateAt_of_position hp]
    obtain ⟨hstart, hle⟩ := replayStart_faithful h i
    simp only [replay_take_of_le hstart hle]
    split <;> simp_all [Except.map]

/-- The checkpoint that an answer leaves behind is one of the answer. -/
theorem stateAt_left {index : Int} {s : State} {c : Checkpoint}
    (h : stateAt card initial turns slot index = .ok (s, some c)) :
    ∃ i, position? turns index = some i ∧
      c = ⟨i, s, some (fingerprint (historyBytes (turns.take (i + 1))))⟩ := by
  unfold stateAt at h
  cases hp : position? turns index with
  | none => simp [hp] at h
  | some i =>
    have hi := (position?_eq_some.mp hp).2
    simp only [hp, fingerprints_getElem?, hi, if_true] at h
    split at h
    · cases h
    · simp only [Except.ok.injEq, Prod.mk.injEq] at h
      obtain ⟨rfl, hc⟩ := h
      split at hc
      · cases hc
      · exact ⟨i, rfl, (Option.some.inj hc).symm⟩

/-- An answer leaves behind a faithful checkpoint of the turn that was asked for, with the answer. -/
theorem stateWhen_left (ht : Trusted card initial turns slot) {index : Option Int} {s : State}
    {c : Checkpoint} (h : stateWhen card initial turns slot index = .ok (s, some c)) :
    index.getD (turns.length - 1) = c.index ∧ c.index < turns.length ∧
      c.Faithful card initial turns ∧ c.state = s ∧
      c.digest = some (fingerprint (historyBytes (turns.take (c.index + 1)))) := by
  obtain ⟨at', hindex, h⟩ : ∃ at' : Int, index.getD (turns.length - 1) = at' ∧
      stateAt card initial turns slot at' = .ok (s, some c) := by
    cases index with
    | some index => exact ⟨index, rfl, h⟩
    | none =>
      simp only [stateWhen, latestState] at h
      split at h
      · cases h
      · rename_i hne
        have hpos : 0 < turns.length := by
          rw [List.isEmpty_iff] at hne
          exact List.length_pos_iff.mpr hne
        exact ⟨_, by rw [Option.getD_none]; omega, h⟩
  obtain ⟨i, hp, rfl⟩ := stateAt_left h
  obtain ⟨hi, hlt⟩ := position?_eq_some.mp hp
  refine ⟨hindex.trans hi, hlt, ?_, rfl, rfl⟩
  have hplain := stateAt_eq_plain ht at'
  rw [h, plainStateAt_of_position hp] at hplain
  exact hplain.symm

theorem Checkpoint.Faithful.plain {c : Checkpoint} (h : c.Faithful card initial turns)
    (hi : c.index < turns.length) : plainStateAt card initial turns c.index = .ok c.state := by
  rw [plainStateAt_of_position (position?_eq_some.mpr ⟨rfl, hi⟩)]
  exact h

theorem faithful_of_plain {c : Checkpoint}
    (h : plainStateAt card initial turns c.index = .ok c.state) :
    c.index < turns.length ∧ c.Faithful card initial turns := by
  cases hp : position? turns (c.index : Int) with
  | none => simp [plainStateAt, hp] at h
  | some i =>
    obtain ⟨hi, hlt⟩ := position?_eq_some.mp hp
    obtain rfl : c.index = i := by omega
    rw [plainStateAt_of_position hp] at h
    exact ⟨hlt, h⟩

def Fault.WithinHistory (f : Fault) : Prop := ∀ index count, f ≠ .outsideHistory index count

theorem writeTo_withinHistory (v : Variables) (a : Except AddressError Address) (value : Value) :
    Ends (fun _ => True) Fault.WithinHistory (v.writeTo a value) := by
  simp only [Variables.writeTo]
  split
  · exact .error fun _ _ => nofun
  · split
    · exact .ok trivial
    · exact .error fun _ _ => nofun

theorem mutate_withinHistory (card : Card) (v : Variables) (m : Mutation) :
    Ends (fun _ => True) Fault.WithinHistory (card.mutate v m) := by
  simp only [Card.mutate]
  split
  · exact .error fun _ _ => nofun
  · split
    · exact .error fun _ _ => nofun
    · split
      · exact .ok trivial
      · exact .error fun _ _ => nofun
      · exact .error fun _ _ => nofun
      · exact writeTo_withinHistory _ _ _

theorem applyText_withinHistory (card : Card) (s : State) (text : Text) :
    Ends (fun _ => True) Fault.WithinHistory (s.applyText card text) := by
  simp only [State.applyText]
  split
  · exact (Ends.foldlM trivial fun m _ v _ => mutate_withinHistory card v m).bind
      fun _ _ => .ok trivial
  · exact .error fun _ _ => nofun

theorem replay_withinHistory (card : Card) (s : State) (ts : List Turn) :
    Ends (fun _ => True) Fault.WithinHistory (replay card s ts) :=
  Ends.foldlM trivial fun t _ s _ => applyText_withinHistory card s t.commandSource

/-- An index is reported as outside the history exactly when it is. -/
theorem plainStateAt_outsideHistory {index : Int} :
    (∃ i n, plainStateAt card initial turns index = .error (.outsideHistory i n)) ↔
      ¬(0 ≤ index ∧ index < turns.length) := by
  rw [← position?_eq_none]
  cases hp : position? turns index with
  | none => simp [plainStateAt, hp]
  | some i =>
    rw [plainStateAt_of_position hp]
    simp only [reduceCtorEq, iff_false, not_exists]
    intro i n h
    exact (replay_withinHistory card initial _).of_error h i n rfl

end Storyworld
