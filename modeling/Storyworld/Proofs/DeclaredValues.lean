import Mathlib.Data.List.Nodup
import Storyworld.Demo
import Storyworld.Proofs.Containment

/-! The declared values of an enum. Steps forwards and backwards walk along them and stay at the
ends, as long as no value stands among them twice: a step knows the value it starts from, but not at
which of its places. A value is set by its own text, unless that text asks for a step. -/

namespace Storyworld

variable {p : Parameter} {v : Text} {commands : List (Text × Option Text)} {forward : Bool}
  {literal : Option Text}

/-- The command is a step, forwards or backwards, in any case and between any blanks. -/
def Steps (forward : Bool) (command : Text × Option Text) : Prop :=
  lowered (trimmed command.1) = if forward then "next" else "prev"

instance (forward : Bool) : DecidablePred (Steps forward) := fun command =>
  inferInstanceAs (Decidable (lowered (trimmed command.1) = if forward then "next" else "prev"))

/-- The place that so many steps lead to from another one. -/
def walked (p : Parameter) (forward : Bool) (i k : Nat) : Nat :=
  if forward then min (i + k) (p.enumValues.length - 1) else i - k

theorem walked_lt {i : Nat} (hi : i < p.enumValues.length) (forward : Bool) (k : Nat) :
    walked p forward i k < p.enumValues.length := by
  cases forward
  · exact Nat.lt_of_le_of_lt (Nat.sub_le i k) hi
  · simp only [walked, if_true]
    omega

theorem walked_walked (p : Parameter) (forward : Bool) (i k : Nat) :
    walked p forward (walked p forward i 1) k = walked p forward i (k + 1) := by
  cases forward <;> simp only [walked, if_true, if_false, Bool.false_eq_true] <;> omega

theorem walked_zero {i : Nat} (hi : i < p.enumValues.length) (forward : Bool) :
    walked p forward i 0 = i := by
  cases forward
  · rfl
  · simp only [walked, if_true]
    omega

/-- What is at a place is found there or before. -/
theorem idxOf_getElem_le {l : List Text} {i : Nat} (hi : i < l.length) : l.idxOf l[i] ≤ i :=
  Nat.le_of_not_lt fun hlt => by simpa using List.not_of_lt_findIdx hlt

namespace Parameter

/-- What commands lead to when each is applied to what the one before gave; none may be refused. -/
def applyEach (p : Parameter) (current : Value) (commands : List (Text × Option Text)) :
    Except OperatorError Value :=
  commands.foldlM (fun v command => p.apply v command.1 command.2) current

theorem apply_step (htype : p.type = .enum) (current : Value) {command : Text × Option Text}
    (h : Steps forward command) :
    p.apply current command.1 command.2 = .ok (.text (p.step current forward)) := by
  unfold Steps at h
  cases forward <;> simp only [apply, htype, applyEnum, h, if_true, if_false, Bool.false_eq_true,
    Text.plain?_ofString]

theorem applyEach_cons_step (htype : p.type = .enum) (current : Value)
    {command : Text × Option Text} (h : Steps forward command) :
    p.applyEach current (command :: commands) =
      p.applyEach (.text (p.step current forward)) commands := by
  rw [applyEach, List.foldlM_cons, apply_step htype current h]
  rfl

theorem enumPlace?_of_mem (h : v ∈ p.enumValues) :
    p.enumPlace? (.text v) = some (p.enumValues.idxOf v) :=
  List.findIdx?_eq_some_iff_findIdx_eq.mpr ⟨List.idxOf_lt_length_of_mem h, rfl⟩

/-- A step goes on from the first place of the value it starts from. -/
theorem step_of_mem (h : v ∈ p.enumValues) (forward : Bool) :
    p.enumValues[walked p forward (p.enumValues.idxOf v) 1]? = some (p.step (.text v) forward) := by
  have hlt := walked_lt (List.idxOf_lt_length_of_mem h) forward 1
  simp only [step, enumPlace?_of_mem h]
  rw [List.getElem?_eq_getElem hlt, List.getElem_eq_getD ("" : Text)]
  rfl

/-- Where every value is found at its own place, steps lead from place to place. -/
theorem applyEach_steps (htype : p.type = .enum) (hnodup : p.enumValues.Nodup)
    (h : ∀ command ∈ commands, Steps forward command) {i : Nat} {w : Text}
    (hv : p.enumValues[i]? = some v)
    (hw : p.enumValues[walked p forward i commands.length]? = some w) :
    p.applyEach (.text v) commands = .ok (.text w) := by
  induction commands generalizing i v with
  | nil =>
    obtain ⟨hi, -⟩ := List.getElem?_eq_some_iff.mp hv
    rw [List.length_nil, walked_zero hi, hv] at hw
    rw [Option.some.inj hw]
    rfl
  | cons command commands ih =>
    obtain ⟨hcommand, hrest⟩ := List.forall_mem_cons.mp h
    obtain ⟨hi, rfl⟩ := List.getElem?_eq_some_iff.mp hv
    have hstep := step_of_mem (List.getElem_mem hi) forward
    rw [hnodup.idxOf_getElem i hi] at hstep
    rw [applyEach_cons_step htype _ hcommand]
    refine ih hrest hstep ?_
    rw [walked_walked]
    exact hw

/-- Where only one value is declared, however often, steps stay at it. -/
theorem applyEach_steps_constant (htype : p.type = .enum) (hone : ∀ w ∈ p.enumValues, w = v)
    (hne : p.enumValues ≠ []) (h : ∀ command ∈ commands, Steps forward command) :
    p.applyEach (.text v) commands = .ok (.text v) := by
  induction commands with
  | nil => rfl
  | cons command commands ih =>
    obtain ⟨hcommand, hrest⟩ := List.forall_mem_cons.mp h
    rw [applyEach_cons_step htype _ hcommand, hone _ (step_mem hne (.text v) forward)]
    exact ih hrest

/-- Steps backwards come ever closer to the first value, even past those that are declared twice. -/
theorem applyEach_steps_back (htype : p.type = .enum)
    (h : ∀ command ∈ commands, Steps false command) (hv : v ∈ p.enumValues)
    (hk : p.enumValues.idxOf v ≤ commands.length) {first : Text}
    (hfirst : p.enumValues.head? = some first) :
    p.applyEach (.text v) commands = .ok (.text first) := by
  induction commands generalizing v with
  | nil =>
    have hzero : p.enumValues.idxOf v = 0 := Nat.le_zero.mp hk
    have hfound := List.getElem?_idxOf hv
    rw [hzero, ← List.head?_eq_getElem?, hfirst] at hfound
    rw [Option.some.inj hfound]
    rfl
  | cons command commands ih =>
    obtain ⟨hcommand, hrest⟩ := List.forall_mem_cons.mp h
    obtain ⟨hlt, hstep⟩ := List.getElem?_eq_some_iff.mp (step_of_mem hv false)
    rw [applyEach_cons_step htype _ hcommand, ← hstep]
    refine ih hrest (List.getElem_mem hlt) ?_
    have hbefore := idxOf_getElem_le hlt
    have hback : walked p false (p.enumValues.idxOf v) 1 = p.enumValues.idxOf v - 1 := rfl
    rw [List.length_cons] at hk
    omega

end Parameter

/-- From the value at every place, steps forwards lead as many places on and steps backwards as many
places back, and no further than the ends. -/
structure Walks (p : Parameter) : Prop where
  forwards : ∀ (i : Nat) (commands : List (Text × Option Text)) (_ : i < p.enumValues.length),
    (∀ command ∈ commands, Steps true command) →
      p.applyEach (.text p.enumValues[i]) commands =
        .ok (.text p.enumValues[min (i + commands.length) (p.enumValues.length - 1)])
  backwards : ∀ (i : Nat) (commands : List (Text × Option Text)) (_ : i < p.enumValues.length),
    (∀ command ∈ commands, Steps false command) →
      p.applyEach (.text p.enumValues[i]) commands = .ok (.text p.enumValues[i - commands.length])

/-- Both ways at once. -/
theorem walks_iff_walked : Walks p ↔ ∀ forward commands,
    (∀ command ∈ commands, Steps forward command) → ∀ (i : Nat) (v w : Text),
      p.enumValues[i]? = some v → p.enumValues[walked p forward i commands.length]? = some w →
        p.applyEach (.text v) commands = .ok (.text w) := by
  constructor
  · intro h forward commands hcommands i v w hv hw
    obtain ⟨hi, rfl⟩ := List.getElem?_eq_some_iff.mp hv
    obtain ⟨hend, rfl⟩ := List.getElem?_eq_some_iff.mp hw
    cases forward
    · exact h.backwards i commands hi hcommands
    · exact h.forwards i commands hi hcommands
  · intro h
    constructor <;> intro i commands hi hcommands
    · exact h true commands hcommands i _ _ (List.getElem?_eq_getElem hi)
        (List.getElem?_eq_getElem (walked_lt hi true commands.length))
    · exact h false commands hcommands i _ _ (List.getElem?_eq_getElem hi)
        (List.getElem?_eq_getElem (walked_lt hi false commands.length))

theorem walks_of_nodup (htype : p.type = .enum) (hnodup : p.enumValues.Nodup) : Walks p :=
  walks_iff_walked.mpr fun _ _ hcommands _ _ _ hv hw =>
    Parameter.applyEach_steps htype hnodup hcommands hv hw

theorem walks_of_constant (htype : p.type = .enum) (hone : ∀ w ∈ p.enumValues, w = v) :
    Walks p := by
  refine walks_iff_walked.mpr fun forward commands hcommands i first last hfirst hlast => ?_
  have hmem := List.mem_of_getElem? hfirst
  rw [hone first hmem, hone last (List.mem_of_getElem? hlast)]
  exact Parameter.applyEach_steps_constant htype hone (List.ne_nil_of_mem hmem) hcommands

/-- As many steps as one likes. -/
def stepping (forward : Bool) (k : Nat) : List (Text × Option Text) :=
  List.replicate k (if forward then "next" else "prev", none)

theorem steps_stepping (forward : Bool) (k : Nat) :
    ∀ command ∈ stepping forward k, Steps forward command := by
  intro command h
  rw [List.eq_of_mem_replicate h]
  cases forward <;> decide +kernel

namespace Walks

/-- From two places of one value, as many steps lead to one value. -/
theorem same_value (h : Walks p) (forward : Bool) {i j : Nat} (hi : p.enumValues[i]? = some v)
    (hj : p.enumValues[j]? = some v) (k : Nat) :
    p.enumValues[walked p forward i k]? = p.enumValues[walked p forward j k]? := by
  obtain ⟨hilt, -⟩ := List.getElem?_eq_some_iff.mp hi
  obtain ⟨hjlt, -⟩ := List.getElem?_eq_some_iff.mp hj
  have hleft := List.getElem?_eq_getElem (walked_lt hilt forward k)
  have hright := List.getElem?_eq_getElem (walked_lt hjlt forward k)
  have hlength : (stepping forward k).length = k := List.length_replicate
  have hwalk := walks_iff_walked.mp h forward _ (steps_stepping forward k)
  rw [hlength] at hwalk
  have heq := (hwalk i v _ hi hleft).symm.trans (hwalk j v _ hj hright)
  rw [hleft, hright, Value.text.inj (Except.ok.inj heq)]

/-- Where a value has two places and steps walk all the same, neighbours are equal. -/
theorem same_neighbours (h : Walks p) {i j : Nat} (hij : i < j) (hj : j < p.enumValues.length)
    (hsame : p.enumValues[i]? = p.enumValues[j]?) {m : Nat} (hm : m + 1 < p.enumValues.length) :
    p.enumValues[m]? = p.enumValues[m + 1]? := by
  -- When the later place has reached the end, the earlier one has reached the last but one.
  rw [List.getElem?_eq_getElem hj] at hsame
  have hends := h.same_value true hsame (List.getElem?_eq_getElem hj)
    (p.enumValues.length - 2 - i)
  simp only [walked, if_true] at hends
  rw [show min (i + (p.enumValues.length - 2 - i)) (p.enumValues.length - 1) =
      p.enumValues.length - 2 by omega,
    show min (j + (p.enumValues.length - 2 - i)) (p.enumValues.length - 1) =
      p.enumValues.length - 1 by omega] at hends
  -- From there both go back together, one place apart.
  have hend : p.enumValues.length - 1 < p.enumValues.length := by omega
  have hlast := List.getElem?_eq_getElem hend
  have hback := h.same_value false (hends.trans hlast) hlast (p.enumValues.length - 2 - m)
  simp only [walked, if_false, Bool.false_eq_true] at hback
  rwa [show p.enumValues.length - 2 - (p.enumValues.length - 2 - m) = m by omega,
    show p.enumValues.length - 1 - (p.enumValues.length - 2 - m) = m + 1 by omega] at hback

theorem constant (h : Walks p) (hdup : ¬ p.enumValues.Nodup) :
    ∃ v, ∀ w ∈ p.enumValues, w = v := by
  simp only [List.nodup_iff_getElem?_ne_getElem?, not_forall, not_not] at hdup
  obtain ⟨i, j, hij, hj, hsame⟩ := hdup
  have hpos : 0 < p.enumValues.length := by omega
  have hfirst (m : Nat) (hm : m < p.enumValues.length) :
      p.enumValues[m]? = p.enumValues[0]? := by
    induction m with
    | zero => rfl
    | succ m ih => rw [← h.same_neighbours hij hj hsame hm, ih (by omega)]
  refine ⟨p.enumValues[0], fun w hw => ?_⟩
  obtain ⟨m, hm, rfl⟩ := List.mem_iff_getElem.mp hw
  have heq := hfirst m hm
  rwa [List.getElem?_eq_getElem hm, List.getElem?_eq_getElem hpos, Option.some.injEq] at heq

end Walks

/-- Steps walk along the declared values exactly if none is declared twice, or no other beside it.
Then enough steps forwards lead to the last one; and enough steps backwards always lead to the first
one. -/
theorem enum_walks_iff (hp : p.breach? = none) (htype : p.type = .enum) :
    (Walks p ↔ p.enumValues.Nodup ∨ ∃ v, ∀ w ∈ p.enumValues, w = v) ∧
      (Walks p → ∀ v ∈ p.enumValues, ∀ last ∈ p.enumValues.getLast?, ∀ commands,
        (∀ command ∈ commands, Steps true command) → p.enumValues.length ≤ commands.length + 1 →
          p.applyEach (.text v) commands = .ok (.text last)) ∧
      ∀ v ∈ p.enumValues, ∀ first ∈ p.enumValues.head?, ∀ commands,
        (∀ command ∈ commands, Steps false command) → p.enumValues.length ≤ commands.length + 1 →
          p.applyEach (.text v) commands = .ok (.text first) := by
  have hne := Parameter.enumValues_ne_nil hp htype
  refine ⟨⟨fun h => ?_, ?_⟩, fun h v hv last hlast commands hcommands hk => ?_,
    fun v hv first hfirst commands hcommands hk => ?_⟩
  · by_cases hnodup : p.enumValues.Nodup
    · exact .inl hnodup
    · exact .inr (h.constant hnodup)
  · rintro (hnodup | ⟨v, hone⟩)
    · exact walks_of_nodup htype hnodup
    · exact walks_of_constant htype hone
  · obtain ⟨i, hi, rfl⟩ := List.mem_iff_getElem.mp hv
    have hend : min (i + commands.length) (p.enumValues.length - 1) = p.enumValues.length - 1 := by
      omega
    rw [Option.mem_def, List.getLast?_eq_getElem?, ← hend] at hlast
    obtain ⟨hlt, rfl⟩ := List.getElem?_eq_some_iff.mp hlast
    exact h.forwards i commands hi hcommands
  · have hlt := List.idxOf_lt_length_of_mem hv
    exact Parameter.applyEach_steps_back htype hcommands hv (by omega) hfirst

namespace Demo

/-- From the afternoon past the night, and back past the morning. -/
theorem timeOfDay_walks : timeOfDay.breach? = none ∧ timeOfDay.type = .enum ∧ Walks timeOfDay ∧
    timeOfDay.applyEach (.text "afternoon") [("next", none), (" Next", some "1"), ("NEXT ", none)] =
      .ok (.text "night") ∧
    timeOfDay.applyEach (.text "afternoon") [("prev", none), ("prev", none), ("Prev", none)] =
      .ok (.text "morning") := by
  have hvalid : timeOfDay.breach? = none := by decide +kernel
  obtain ⟨hiff, hlast, hfirst⟩ := enum_walks_iff hvalid rfl
  have hwalks : Walks timeOfDay := hiff.mpr (.inl (by decide))
  refine ⟨hvalid, rfl, hwalks, ?_, ?_⟩
  · exact hlast hwalks "afternoon" (by decide) "night" rfl _ (by decide +kernel) (by decide)
  · exact hfirst "afternoon" (by decide) "morning" rfl _ (by decide +kernel) (by decide)

/-- An enum on whose list one mood comes back. -/
def swing : Parameter :=
  { mood with enumValues := ["calm", "tense", "calm", "angry"] }

/-- Three steps forwards do not lead from the first value to the fourth and last one. -/
theorem swing_turns_back : swing.breach? = none ∧ swing.type = .enum ∧
    swing.enumValues[0]? = some ("calm" : Text) ∧
    swing.enumValues[min (0 + 3) 3]? = some ("angry" : Text) ∧
    swing.applyEach (.text "calm") [("next", none), ("next", none), ("next", none)] =
      .ok (.text "tense") :=
  ⟨by decide +kernel, rfl, rfl, rfl, rfl⟩

end Demo

namespace Parameter

theorem applyEnum_of_declared (hv : v ∈ p.enumValues) (htrim : trimmed v = v)
    (hno : ∀ forward, ¬ Steps forward (v, literal)) (current : Value) :
    p.applyEnum current v = .ok (.text v) := by
  simp only [Steps, htrim, Bool.forall_bool, if_true, if_false, Bool.false_eq_true] at hno
  have hcontains : p.enumValues.contains v = true := by simpa using hv
  simp only [applyEnum, htrim]
  split
  · rename_i hnext
    exact (hno.2 (Text.plain?_eq_some.mp hnext)).elim
  · rename_i hprev
    exact (hno.1 (Text.plain?_eq_some.mp hprev)).elim
  · rw [if_pos hcontains]

/-- A value with no blanks at its ends is set by its own text, whatever the current value and
whatever else is declared. Only a value whose text asks for a step is not: its text does what that
step does, which leads to a declared value too. -/
theorem declared_value_sets_itself (htype : p.type = .enum) (hv : v ∈ p.enumValues)
    (htrim : trimmed v = v) (current : Value) (literal : Option Text) :
    ((∀ forward, ¬ Steps forward (v, literal)) →
      p.apply current v literal = .ok (.text v)) ∧
    ∀ forward, Steps forward (v, literal) →
      p.apply current v literal = p.apply current (if forward then "next" else "prev") none ∧
        ∃ w ∈ p.enumValues, p.apply current v literal = .ok (.text w) := by
  refine ⟨fun hno => ?_, fun forward hstep => ?_⟩
  · simp only [apply, htype]
    exact applyEnum_of_declared hv htrim hno current
  · have hword := steps_stepping forward 1 _ List.mem_cons_self
    have happly := apply_step htype current hstep
    exact ⟨happly.trans (apply_step htype current hword).symm, _,
      step_mem (List.ne_nil_of_mem hv) current forward, happly⟩

end Parameter

namespace Demo

/-- Moods that differ in their capitals alone. -/
def echoes : Parameter := { mood with enumValues := ["calm", "Calm", "CALM"] }

theorem echoes_set : ("Calm" : Text) ∈ echoes.enumValues ∧ trimmed "Calm" = "Calm" ∧
    echoes.apply .null "Calm" none = .ok (.text "Calm") ∧
    echoes.apply (.text "CALM") "Calm" none = .ok (.text "Calm") := by
  have hv : ("Calm" : Text) ∈ echoes.enumValues := by decide
  have htrim : trimmed "Calm" = "Calm" := by decide +kernel
  have hno : ∀ forward, ¬ Steps forward ("Calm", none) := by decide +kernel
  exact ⟨hv, htrim, (Parameter.declared_value_sets_itself rfl hv htrim .null none).1 hno,
    (Parameter.declared_value_sets_itself rfl hv htrim (.text "CALM") none).1 hno⟩

/-- An enum that declares the word for a step, and a value with a blank in front. -/
def queue : Parameter := { mood with enumValues := ["now", "next", " later"] }

/-- The text of the second value leads on to the third, and the text of the third is refused. -/
theorem queue_unset : queue.breach? = none ∧ queue.type = .enum ∧ ("next" : Text) ∈ queue.enumValues ∧
    queue.apply (.text "next") "next" none = .ok (.text " later") ∧
    (" later" : Text) ∈ queue.enumValues ∧
    queue.apply .null " later" none = .error (.refused (.notDeclared " later" queue.enumValues)) :=
  ⟨by decide +kernel, rfl, by decide, rfl, by decide, rfl⟩

end Demo

end Storyworld
