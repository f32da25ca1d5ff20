import Storyworld.Operator
import Storyworld.Proofs.Outcome

/-! Commands on one parameter, alone and one after another. An operator that takes a value is
refused without one, and beside any other operator a value is never read, so that what stands there
can be a note. -/

namespace Storyworld

namespace ArrayConfig

variable {c : ArrayConfig} {op : ArrayOperator} {operator argument : Text}

theorem run_without_value (hop : ArrayOperator.ofText operator = (some op, argument))
    (htakes : op.takesValue = true) (items : List Value) :
    ∃ why, c.run items operator none = .error (.refused why) ∧
      (why = .valueMissing ∨ why = .notIndex argument) := by
  simp only [run, hop]
  cases op with
  | addItem => exact ⟨.valueMissing, rfl, .inl rfl⟩
  | removeAt => cases htakes
  | removeWhere => exact ⟨.valueMissing, rfl, .inl rfl⟩
  | updateAt =>
    -- The position is read before the value, so that a text that is none is what is refused.
    cases hindex : readInt? (trim argument.toList) with
    | none => exact ⟨.notIndex argument, by simp only [readIndex, hindex]; rfl, .inr rfl⟩
    | some i => exact ⟨.valueMissing, by simp only [readIndex, hindex]; rfl, .inl rfl⟩
  | clear => cases htakes
  | set => exact ⟨.valueMissing, rfl, .inl rfl⟩

theorem run_value_unread
    (hop : ∀ op argument, ArrayOperator.ofText operator = (some op, argument) →
      op.takesValue = false) (items : List Value) (literal : Option Text) :
    c.run items operator literal = c.run items operator none := by
  rcases hname : ArrayOperator.ofText operator with ⟨name?, argument⟩
  simp only [run, hname]
  cases name? with
  | none => rfl
  | some op =>
    have hunread := hop op argument hname
    cases op with
    | removeAt => rfl
    | clear => rfl
    | _ => cases hunread

end ArrayConfig

namespace Parameter

variable {p : Parameter} {operator : Text}

theorem takesValue_eq_true_iff : p.takesValue operator = true ↔
    p.type = .array ∧ ∃ op argument, ArrayOperator.ofText operator = (some op, argument) ∧
      op.takesValue = true := by
  rcases hname : ArrayOperator.ofText operator with ⟨name?, argument⟩
  unfold takesValue
  cases htype : p.type <;> cases name? <;> simp [hname]

theorem apply_value_unread_of_ne_array (h : p.type ≠ .array) (current : Value)
    (literal : Option Text) :
    p.apply current operator literal = p.apply current operator none := by
  unfold apply
  split
  case h_5 htype => exact (h htype).elim
  all_goals rfl

/-- An operator either takes a value, which those of arrays alone do, and is then refused without
one, or it does the same whatever value is beside it. -/
theorem value_taken_or_unread (p : Parameter) (operator : Text) :
    (p.takesValue operator = true ∧ p.type = .array ∧
      ∀ current, ∃ why, p.apply current operator none = .error (.refused why) ∧
        (why = .valueMissing ∨ ∃ text, why = .notIndex text)) ∨
    (p.takesValue operator = false ∧
      ∀ current literal, p.apply current operator literal = p.apply current operator none) := by
  cases htakes : p.takesValue operator with
  | true =>
    obtain ⟨htype, op, argument, hop, hvalue⟩ := takesValue_eq_true_iff.mp htakes
    refine .inl ⟨rfl, htype, fun current => ?_⟩
    obtain ⟨why, hrun, hwhy⟩ :=
      p.arrayConfig.run_without_value hop hvalue (startItems current p.default)
    refine ⟨why, ?_, hwhy.imp_right fun h => ⟨argument, h⟩⟩
    simp only [apply, htype, applyArray, hrun]
    rfl
  | false =>
    refine .inr ⟨rfl, fun current literal => ?_⟩
    by_cases htype : p.type = .array
    · have hunread : ∀ op argument, ArrayOperator.ofText operator = (some op, argument) →
          op.takesValue = false := by
        intro op argument hop
        rw [← Bool.not_eq_true] at htakes ⊢
        exact fun hvalue => htakes (takesValue_eq_true_iff.mpr ⟨htype, op, argument, hop, hvalue⟩)
      simp only [apply, htype, applyArray,
        ArrayConfig.run_value_unread hunread (startItems current p.default) literal]
    · exact apply_value_unread_of_ne_array htype current literal

/-- The value after a command, which is written as an operator and a value; a refused command keeps
the one before. -/
def follow (p : Parameter) (current : Value) (command : Text × Option Text) :
    Except OperatorError Value :=
  match p.apply current command.1 command.2 with
  | .error (.refused _) => .ok current
  | outcome => outcome

theorem follow_of_ok {current next : Value} {command : Text × Option Text}
    (h : p.apply current command.1 command.2 = .ok next) : p.follow current command = .ok next := by
  simp only [follow, h]

end Parameter

end Storyworld
