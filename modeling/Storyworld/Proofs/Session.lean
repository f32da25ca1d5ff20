import Storyworld.Demo
import Storyworld.Proofs.Replay
import Storyworld.Proofs.Validity
import Storyworld.Session

/-! The answers of a session. Turns may be appended, replaced and cut off between the questions: as
long as no two of the histories that were hashed share a digest, every answer is the one that replay
from the beginning gives for the turns of the moment. Halves that stand in pairs are hashed as the
character that they encode, so command sources without such pairs are asked for. -/

namespace Storyworld

inductive Edit where
  | append (role : Role) (text : Text) (parseOutput : Option Text)
  | replace (index : Int) (t : Turn)
  | truncate (length : Nat)

def Edit.apply (turns : List Turn) : Edit → List Turn
  | append role text parseOutput => turns ++ [⟨turns.length, role, text, parseOutput⟩]
  | replace index t => ((position? turns index).map fun i => turns.set i t).getD turns
  | truncate length => turns.take length

/-- The command source that an edit brings into the history. -/
def Edit.source? : Edit → Option Text
  | append _ text parseOutput => some (parseOutput.getD text)
  | replace _ t => some t.commandSource
  | truncate _ => none

namespace Session

/-- What is done with a session: a change, or the question for the state at an index. -/
inductive Step where
  | edit (e : Edit)
  | ask (index : Int)

def Step.source? : Step → Option Text
  | edit e => e.source?
  | ask _ => none

def edited (x : Session) : Edit → Session
  | .append role text parseOutput => x.append role text parseOutput
  | .replace index t => (x.replace? index t).getD x
  | .truncate length => x.truncate length

def asked (x : Session) (index : Int) : Session :=
  match x.stateWhen (some index) with
  | .ok (_, next) => next
  | .error _ => x

/-- The answers to the questions among some steps. -/
def answers (x : Session) : List Step → List (Except Fault State)
  | [] => []
  | .edit e :: steps => (x.edited e).answers steps
  | .ask index :: steps =>
    (x.stateWhen (some index)).map Prod.fst :: (x.asked index).answers steps

/-- The answers that replay from the beginning gives. -/
def plainAnswers (card : Card) (initial : State) (turns : List Turn) :
    List Step → List (Except Fault State)
  | [] => []
  | .edit e :: steps => plainAnswers card initial (e.apply turns) steps
  | .ask index :: steps =>
    Storyworld.plainStateAt card initial turns index :: plainAnswers card initial turns steps

/-- The bytes of a history up to each of its turns. -/
def prefixBytes (turns : List Turn) : List (List UInt8) :=
  (List.range turns.length).map fun i => historyBytes (turns.take (i + 1))

/-- The bytes that are hashed for the answers. -/
def hashed (turns : List Turn) : List Step → List (List UInt8)
  | [] => []
  | .edit e :: steps => hashed (e.apply turns) steps
  | .ask index :: steps =>
    (if (position? turns index).isSome then prefixBytes turns else []) ++ hashed turns steps

/-- No halves stand in pairs in the command sources of a history. -/
def ApartTurns (turns : List Turn) : Prop := ∀ t ∈ turns, Apart t.commandSource.toList

/-- No halves stand in pairs in the command sources that some steps bring in. -/
def ApartSteps (steps : List Step) : Prop :=
  ∀ step ∈ steps, ∀ text ∈ step.source?, Apart text.toList

/-- Among some byte streams, no two that differ have the same digest. -/
def CollisionFree (streams : List (List UInt8)) : Prop :=
  ∀ a ∈ streams, ∀ b ∈ streams, Sha256.digest a = Sha256.digest b → a = b

variable {streams : List (List UInt8)} {x : Session}

theorem collisionFree_of_two {a b : List UInt8} (h : Sha256.digest a ≠ Sha256.digest b)
    (hs : ∀ s ∈ streams, s = a ∨ s = b) : CollisionFree streams := by
  intro s hs1 t ht1 hd
  rcases hs s hs1 with rfl | rfl <;> rcases hs t ht1 with rfl | rfl
  · rfl
  · exact absurd hd h
  · exact absurd hd.symm h
  · rfl

theorem turns_edited (x : Session) (e : Edit) : (x.edited e).turns = e.apply x.turns := by
  cases e with
  | append role text parseOutput => rfl
  | replace index t =>
    simp only [edited, replace?, Edit.apply]
    cases position? x.turns index <;> rfl
  | truncate length => rfl

theorem ApartTurns.edit {turns : List Turn} {e : Edit} (h : ApartTurns turns)
    (he : ∀ text ∈ e.source?, Apart text.toList) : ApartTurns (e.apply turns) := by
  cases e with
  | append role text parseOutput =>
    exact List.forall_mem_append.mpr ⟨h, List.forall_mem_singleton.mpr (he _ rfl)⟩
  | replace index t =>
    simp only [Edit.apply]
    cases position? turns index with
    | none => exact h
    | some i =>
      intro u hu
      rcases List.mem_or_eq_of_mem_set hu with hu | rfl
      · exact h u hu
      · exact he _ rfl
  | truncate length => exact fun t ht => h t (List.mem_of_mem_take ht)

theorem edited_frame (x : Session) (e : Edit) :
    (x.edited e).card = x.card ∧ (x.edited e).initial = x.initial ∧
      (x.edited e).slot = x.slot := by
  cases e with
  | append role text parseOutput => exact ⟨rfl, rfl, rfl⟩
  | replace index t =>
    simp only [edited, replace?]
    cases position? x.turns index <;> exact ⟨rfl, rfl, rfl⟩
  | truncate length => exact ⟨rfl, rfl, rfl⟩

theorem asked_frame (x : Session) (index : Int) :
    (x.asked index).card = x.card ∧ (x.asked index).initial = x.initial ∧
      (x.asked index).turns = x.turns := by
  unfold asked stateWhen
  cases Storyworld.stateWhen x.card x.initial x.turns x.slot (some index) <;> exact ⟨rfl, rfl, rfl⟩

/-- The checkpoint was taken of some history whose bytes are among the streams. -/
def Remembers (x : Session) (streams : List (List UInt8)) : Prop :=
  ∀ c, x.slot = some c → ∃ past : List Turn, past.length = c.index + 1 ∧ ApartTurns past ∧
    historyBytes past ∈ streams ∧ c.digest = some (fingerprint (historyBytes past)) ∧
    replay x.card x.initial past = .ok c.state

theorem mem_prefixBytes {turns : List Turn} {i : Nat} (h : i < turns.length) :
    historyBytes (turns.take (i + 1)) ∈ prefixBytes turns :=
  List.mem_map.mpr ⟨i, List.mem_range.mpr h, rfl⟩

/-- A fresh checkpoint was taken of turns that replay cannot tell from the present ones. -/
theorem Remembers.trusted (h : x.Remembers streams) (hfree : CollisionFree streams)
    (hapart : ApartTurns x.turns) (hsub : prefixBytes x.turns ⊆ streams) :
    Trusted x.card x.initial x.turns x.slot := by
  intro c hc hfresh
  obtain ⟨past, _, hpast, hmem, hdigest, hreplay⟩ := h c hc
  simp only [Checkpoint.isFresh, fingerprints_getElem?] at hfresh
  by_cases hi : c.index < x.turns.length
  · simp only [hi, if_true, hdigest, Option.isNone_some, Bool.false_or, beq_iff_eq,
      Option.some.injEq] at hfresh
    have hbytes := hfree _ hmem _ (hsub (mem_prefixBytes hi)) (digest_eq_of_fingerprint_eq hfresh)
    have htake : ApartTurns (x.turns.take (c.index + 1)) :=
      fun t ht => hapart t (List.mem_of_mem_take ht)
    rw [Checkpoint.Faithful, ← replay_congr x.initial hpast htake (historyBytes_inj hbytes), hreplay]
  · simp [hi] at hfresh

theorem Remembers.edited (h : x.Remembers streams) (e : Edit) :
    (x.edited e).Remembers streams := by
  obtain ⟨hcard, hinitial, hslot⟩ := edited_frame x e
  unfold Remembers
  rw [hcard, hinitial, hslot]
  exact h

theorem Remembers.asked (h : x.Remembers streams) (hfree : CollisionFree streams)
    (hapart : ApartTurns x.turns) (hsub : prefixBytes x.turns ⊆ streams) (index : Int) :
    (x.asked index).Remembers streams := by
  unfold Session.asked stateWhen
  cases ha : Storyworld.stateWhen x.card x.initial x.turns x.slot (some index) with
  | error f => exact h
  | ok answer =>
    obtain ⟨s, left⟩ := answer
    cases left with
    | none => exact h
    | some c =>
      obtain ⟨_, hi, hfaithful, -, hdigest⟩ := stateWhen_left (h.trusted hfree hapart hsub) ha
      intro c' hc'
      obtain rfl := Option.some.inj hc'
      exact ⟨x.turns.take (c.index + 1), by simp only [List.length_take]; omega,
        fun t ht => hapart t (List.mem_of_mem_take ht), hsub (mem_prefixBytes hi), hdigest, hfaithful⟩

theorem answer_eq_plain (ht : Trusted x.card x.initial x.turns x.slot) (index : Int) :
    (x.stateWhen (some index)).map Prod.fst =
      Storyworld.plainStateAt x.card x.initial x.turns index := by
  rw [← stateAt_eq_plain ht index]
  unfold stateWhen
  simp only [Storyworld.stateWhen]
  cases stateAt x.card x.initial x.turns x.slot index <;> rfl

/-- A question outside the history is answered without the checkpoint and leaves it in place. -/
theorem ask_outside {index : Int} (h : position? x.turns index = none) :
    (x.stateWhen (some index)).map Prod.fst = Storyworld.plainStateAt x.card x.initial x.turns index ∧
      x.asked index = x := by
  have ha : x.stateWhen (some index) = .error (.outsideHistory index x.turns.length) := by
    simp [stateWhen, Storyworld.stateWhen, stateAt, h]
  refine ⟨?_, ?_⟩
  · rw [ha, Storyworld.plainStateAt, h]
    rfl
  · rw [Session.asked, ha]

theorem answers_eq_plainAnswers (hfree : CollisionFree streams) {steps : List Step}
    (h : x.Remembers streams) (hapart : ApartTurns x.turns) (hsteps : ApartSteps steps)
    (hsub : hashed x.turns steps ⊆ streams) :
    x.answers steps = plainAnswers x.card x.initial x.turns steps := by
  induction steps generalizing x with
  | nil => rfl
  | cons step steps ih =>
    have hlater : ApartSteps steps := fun e he => hsteps e (List.mem_cons_of_mem _ he)
    cases step with
    | edit e =>
      obtain ⟨hcard, hinitial, _⟩ := edited_frame x e
      have hapart := hapart.edit (hsteps _ List.mem_cons_self)
      rw [← turns_edited] at hapart
      have hnext := ih (h.edited e) hapart hlater (by rw [turns_edited]; exact hsub)
      rw [hcard, hinitial, turns_edited] at hnext
      exact hnext
    | ask index =>
      obtain ⟨hcard, hinitial, hturns⟩ := asked_frame x index
      rw [hashed] at hsub
      have hrest := List.Subset.trans (List.subset_append_right _ _) hsub
      obtain ⟨hanswer, hasked⟩ :
          (x.stateWhen (some index)).map Prod.fst =
              Storyworld.plainStateAt x.card x.initial x.turns index ∧
            (x.asked index).Remembers streams := by
        cases hp : position? x.turns index with
        | none =>
          obtain ⟨hanswer, hsame⟩ := ask_outside hp
          exact ⟨hanswer, by rw [hsame]; exact h⟩
        | some i =>
          have hpre : prefixBytes x.turns ⊆ streams :=
            List.Subset.trans (by simp [hp]) hsub
          exact ⟨answer_eq_plain (h.trusted hfree hapart hpre) index,
            h.asked hfree hapart hpre index⟩
      have hnext := ih hasked (by rw [hturns]; exact hapart) hlater (by rw [hturns]; exact hrest)
      rw [hcard, hinitial, hturns] at hnext
      rw [answers, plainAnswers, hanswer, hnext]

/-- A session that starts without a checkpoint answers as replay from the beginning does. -/
theorem answers_eq_plain {card : Card} {turns : List Turn} {x : Session} {steps : List Step}
    (hx : Session.start card turns none = .ok x) (hfree : CollisionFree (hashed turns steps))
    (hturns : ApartTurns turns) (hsteps : ApartSteps steps) :
    ∃ initial, card.initialState = .ok initial ∧
      x.answers steps = plainAnswers card initial turns steps ∧
      ∀ history index,
        (∃ i n, Storyworld.plainStateAt card initial history index =
            .error (.outsideHistory i n)) ↔
          ¬(0 ≤ index ∧ index < history.length) := by
  obtain ⟨initial, hinitial, hstart⟩ := bind_eq_ok hx
  obtain rfl := Except.ok.inj hstart
  refine ⟨initial, hinitial, ?_, fun _ _ => plainStateAt_outsideHistory⟩
  exact answers_eq_plainAnswers hfree (fun c hc => by cases hc) hturns hsteps (List.Subset.refl _)

/-- Rain is replaced by fog, and then all is cut off and begins with rain again. -/
def changeOfWeather : List Step := [
  .edit (.append .user "ce.set('weather', 'rain')" none), .ask 0,
  .edit (.replace 0 ⟨0, .user, "ce.set('weather', 'fog')", none⟩), .ask 0,
  .edit (.truncate 0), .edit (.append .assistant "Rain." (some "ce.set('weather', 'rain')")),
  .edit (.replace 0 ⟨0, .user, "ce.set('weather', 'rain')", none⟩), .ask 0, .ask 1]

theorem answers_changeOfWeather :
    ∃ x, Session.start Demo.card [] none = .ok x ∧ CollisionFree (hashed [] changeOfWeather) ∧
      ApartTurns [] ∧ ApartSteps changeOfWeather ∧ ∃ initial, Demo.card.initialState = .ok initial ∧
        x.answers changeOfWeather = plainAnswers Demo.card initial [] changeOfWeather ∧
        ∀ history index,
          (∃ i n, Storyworld.plainStateAt Demo.card initial history index =
              .error (.outsideHistory i n)) ↔
            ¬(0 ≤ index ∧ index < history.length) := by
  obtain ⟨x, hx⟩ : ∃ x, Session.start Demo.card [] none = .ok x := ⟨_, rfl⟩
  have hfree : CollisionFree (hashed [] changeOfWeather) :=
    collisionFree_of_two (a := historyBytes [⟨0, .user, "ce.set('weather', 'rain')", none⟩])
      (b := historyBytes [⟨0, .user, "ce.set('weather', 'fog')", none⟩]) (by decide +kernel)
      (by simp [hashed, changeOfWeather, Edit.apply, position?, prefixBytes, List.range_succ])
  have hturns : ApartTurns [] := nofun
  have hsteps : ApartSteps changeOfWeather := by
    unfold ApartSteps
    decide
  exact ⟨x, hx, hfree, hturns, hsteps, answers_eq_plain hx hfree hturns hsteps⟩

/-- A card with one parameter, whose one value is a character beyond the basic plane. -/
def faceCard : Card where
  parameters := [{ Demo.parameter "face" .global .enum .null with enumValues := ["😀"] }]
  entities := []
  castConfig := ⟨⟨2, 5, 10⟩, .standard⟩

/-- The two halves that encode that character. -/
def halves : Text := .ofList [.high ⟨0x3d, by decide⟩, .low ⟨0x200, by decide⟩]

/-- The halves where the character should be, and then the character itself. -/
def changeOfFace : List Step := [
  .edit (.append .user (("ce.set('face', '" : Text) ++ halves ++ ("')" : Text)) none),
  .ask 0,
  .edit (.replace 0 ⟨0, .user, "ce.set('face', '😀')", none⟩),
  .ask 0]

/-- The halves are hashed as the character, so the state of before the change is answered. -/
theorem answers_changeOfFace : faceCard.Valid ∧
    ∃ x initial, Session.start faceCard [] none = .ok x ∧ faceCard.initialState = .ok initial ∧
      CollisionFree (hashed [] changeOfFace) ∧
      x.answers changeOfFace ≠ plainAnswers faceCard initial [] changeOfFace := by
  have hsame : ∀ s ∈ hashed [] changeOfFace,
      s = historyBytes [⟨0, .user, "ce.set('face', '😀')", none⟩] := by decide +kernel
  refine ⟨⟨by decide +kernel, by decide +kernel⟩, _, _, rfl, rfl, ?_, fun h => ?_⟩
  · exact fun a ha b hb _ => (hsame a ha).trans (hsame b hb).symm
  · have hface := congrArg (fun answers => answers.map fun answer =>
      answer.toOption.map fun s => (s.values.read (.global "face")).text?) h
    revert hface
    decide +kernel

end Session

end Storyworld
