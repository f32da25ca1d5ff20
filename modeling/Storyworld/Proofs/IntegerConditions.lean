import Storyworld.Proofs.Complements
import Storyworld.Proofs.Rounding

/-! Conditions on integers. Both sides are compared as doubles: up to 53 binary digits that is the
comparison of the integers, beyond them unequal integers may count as equal, and beyond the range of
the doubles there is no answer. -/

namespace Storyworld

variable {a b : Int} {r : Relation}

/-- What a relation says of two integers. None contains another. -/
def Relation.exact (r : Relation) (a b : Int) : Bool :=
  match r with
  | equals => a == b
  | notEquals => a != b
  | contains | notContains => false
  | greater => b < a
  | atLeast => b ≤ a
  | less => a < b
  | atMost => a ≤ b

theorem toDouble_int (a : Int) : toDouble (.int a) =
    if doubleLimit ≤ a.natAbs then .error .tooLarge else .ok (Double.ofInt a) := by
  split
  · rename_i h
    rw [toDouble, Number.toDouble?, Double.ofInt?_eq_none_iff.mpr h]
  · rename_i h
    rw [toDouble, Number.toDouble?, Double.ofInt?_of_lt (Nat.not_le.mp h)]

theorem asDouble_int (a : Int) : (Value.int a).asDouble =
    if doubleLimit ≤ a.natAbs then .error .tooLarge else .ok (some (Double.ofInt a)) := by
  rw [Value.int, Value.asDouble, toDouble_int]
  split <;> rfl

theorem Double.isNaN_ofInt (a : Int) : (Number.float (ofInt a)).isNaN = false :=
  Number.isNaN_ofUnits _ _ _

namespace Number

theorem le_ofInt (ha : a.natAbs < doubleLimit) (hb : b.natAbs < doubleLimit) :
    (float (.ofInt a)).le (float (.ofInt b)) = decide (rounded a ≤ rounded b) := by
  have hpos : (0 : Int) < unitsPerOne := Int.natCast_pos.mpr unitsPerOne_pos
  rw [le, Double.extent?_ofInt ha, Double.extent?_ofInt hb]
  generalize (unitsPerOne : Int) = one at hpos
  simp only [Extent.le, Int.mul_le_mul_right hpos]

theorem lt_ofInt (ha : a.natAbs < doubleLimit) (hb : b.natAbs < doubleLimit) :
    (float (.ofInt a)).lt (float (.ofInt b)) = decide (rounded a < rounded b) := by
  rw [lt_eq_not_le (Double.isNaN_ofInt a) (Double.isNaN_ofInt b), le_ofInt hb ha, ← decide_not]
  exact decide_eq_decide.mpr Int.not_le

theorem eq_ofInt (ha : a.natAbs < doubleLimit) (hb : b.natAbs < doubleLimit) :
    (float (.ofInt a)).eq (float (.ofInt b)) = (rounded a == rounded b) := by
  have hpos : (unitsPerOne : Int) ≠ 0 := Int.natCast_ne_zero.mpr (Nat.ne_of_gt unitsPerOne_pos)
  rw [eq, Double.extent?_ofInt ha, Double.extent?_ofInt hb]
  generalize (unitsPerOne : Int) = one at hpos
  rw [Bool.eq_iff_iff, beq_iff_eq, beq_iff_eq, Extent.units.injEq, Int.mul_eq_mul_right_iff hpos]

end Number

namespace Relation

theorem looseEqual_int (ha : a.natAbs < doubleLimit) (hb : b.natAbs < doubleLimit) :
    looseEqual (.int a) (.int b) = .ok (rounded a == rounded b) := by
  have hleft : toDouble (.int a) = .ok (Double.ofInt a) := by
    rw [toDouble_int, if_neg (Nat.not_le.mpr ha)]
  have hright : (Value.int b).asDouble = .ok (some (Double.ofInt b)) := by
    rw [asDouble_int, if_neg (Nat.not_le.mpr hb)]
  rw [Value.int, looseEqual, hright, hleft]
  change Except.ok _ = _
  rw [Number.eq_ofInt hb ha, Bool.beq_comm]

theorem ordering_int {f : Number → Number → Bool} (ha : a.natAbs < doubleLimit)
    (hb : b.natAbs < doubleLimit) : ordering f (.int a) (.int b) =
      .ok (f (.float (.ofInt a)) (.float (.ofInt b))) := by
  rw [ordering, asDouble_int, asDouble_int, if_neg (Nat.not_le.mpr ha), if_neg (Nat.not_le.mpr hb)]
  rfl

theorem holds_int (ha : a.natAbs < doubleLimit) (hb : b.natAbs < doubleLimit) :
    r.holds (.int a) (.int b) = .ok (r.exact (rounded a) (rounded b)) := by
  cases r with
  | equals => exact looseEqual_int ha hb
  | notEquals => rw [holds, looseEqual_int ha hb]; rfl
  | contains => rfl
  | notContains => rfl
  | greater => rw [holds, ordering_int ha hb, Number.lt_ofInt hb ha]; rfl
  | atLeast => rw [holds, ordering_int ha hb, Number.le_ofInt hb ha]; rfl
  | less => rw [holds, ordering_int ha hb, Number.lt_ofInt ha hb]; rfl
  | atMost => rw [holds, ordering_int ha hb, Number.le_ofInt ha hb]; rfl

theorem holds_int_tooLarge (hcontains : r ≠ contains) (hnotContains : r ≠ notContains)
    (h : doubleLimit ≤ a.natAbs ∨ doubleLimit ≤ b.natAbs) :
    r.holds (.int a) (.int b) = .error .tooLarge := by
  have hordering (f) : ordering f (.int a) (.int b) = .error .tooLarge := by
    rw [ordering, asDouble_int, asDouble_int]
    rcases h with ha | hb
    · rw [if_pos ha]
      rfl
    · rw [if_pos hb]
      split <;> rfl
  have hloose : looseEqual (.int a) (.int b) = .error .tooLarge := by
    rw [Value.int, looseEqual, asDouble_int, toDouble_int]
    rcases h with ha | hb
    · rw [if_pos ha]
      split <;> rfl
    · rw [if_pos hb]
      rfl
  cases r with
  | equals => exact hloose
  | notEquals => rw [holds, hloose]; rfl
  | contains => exact (hcontains rfl).elim
  | notContains => exact (hnotContains rfl).elim
  | greater => rw [holds, hordering]
  | atLeast => rw [holds, hordering]
  | less => rw [holds, hordering]
  | atMost => rw [holds, hordering]

end Relation

theorem matchesCondition_int (hcontains : r ≠ .contains) (hnotContains : r ≠ .notContains)
    (a b : Int) : matchesCondition (.int a) none r (.int b) =
      if doubleLimit ≤ a.natAbs ∨ doubleLimit ≤ b.natAbs then .error .tooLarge
      else .ok (r.exact (rounded a) (rounded b)) := by
  change r.holds _ _ = _
  split
  · rename_i h
    exact r.holds_int_tooLarge hcontains hnotContains h
  · rename_i h
    rw [not_or, Nat.not_le, Nat.not_le] at h
    exact r.holds_int h.1 h.2

/-- What a relation says of integers depends on their order alone. -/
theorem Relation.exact_congr {c d : Int} (hlt : a < b ↔ c < d) (hgt : b < a ↔ d < c) :
    r.exact a b = r.exact c d := by
  have heq : a = b ↔ c = d := by omega
  cases r <;> simp only [exact, ← Int.not_lt, bne, hlt, hgt]
  all_goals rw [Bool.eq_iff_iff]
  all_goals simp [heq]

/-- Rounding changes what a relation says only of unequal integers that it makes equal. -/
theorem Relation.exact_rounded (h : a = b ∨ rounded a ≠ rounded b) :
    r.exact (rounded a) (rounded b) = r.exact a b := by
  have hle : a ≤ b → rounded a ≤ rounded b := rounded_mono
  have hge : b ≤ a → rounded b ≤ rounded a := rounded_mono
  rcases h with rfl | hne
  · exact exact_congr (by omega) (by omega)
  · exact exact_congr (by omega) (by omega)

theorem unmatched_int (hcontains : r ≠ .contains) (hnotContains : r ≠ .notContains) {items : List Int}
    (hsmall : ¬ ∃ a ∈ items, doubleLimit ≤ a.natAbs ∨ doubleLimit ≤ b.natAbs) :
    (∀ item ∈ items.map Value.int, matchesCondition item none r (.int b) ≠ .error .tooLarge) ∧
      unmatched none r (.int b) (items.map .int) =
        (items.filter fun a => !r.exact (rounded a) (rounded b)).map .int := by
  have hok (a : Int) (ha : a ∈ items) : matchesCondition (.int a) none r (.int b) =
      .ok (r.exact (rounded a) (rounded b)) := by
    rw [matchesCondition_int hcontains hnotContains, if_neg fun hlarge => hsmall ⟨a, ha, hlarge⟩]
  constructor
  · rw [List.forall_mem_map]
    intro a ha hlarge
    rw [hok a ha] at hlarge
    cases hlarge
  · rw [unmatched, List.filter_map]
    refine congrArg (List.map Value.int) (List.filter_congr fun a ha => ?_)
    rw [Function.comp_apply, matched_eq (hok a ha)]

/-- Conditions on integers compare their nearest doubles. That is exact unless two unequal integers
have one nearest double, which takes more than 53 binary digits in both; and there is no answer
beyond the range of the doubles. Removals keep the items by the same comparison. -/
theorem integer_conditions_round (hcontains : r ≠ .contains) (hnotContains : r ≠ .notContains) :
    (∀ a b : Int, matchesCondition (.int a) none r (.int b) =
      if doubleLimit ≤ a.natAbs ∨ doubleLimit ≤ b.natAbs then .error .tooLarge
      else .ok (r.exact (rounded a) (rounded b))) ∧
    (∀ a b : Int, a = b ∨ rounded a ≠ rounded b →
      r.exact (rounded a) (rounded b) = r.exact a b) ∧
    (∀ a b : Int, a ≠ b → a.natAbs < 2 ^ 53 ∨ b.natAbs < 2 ^ 53 → rounded a ≠ rounded b) ∧
    ∀ (p : Parameter) (current : Value) (operator : Text) (literal : Option Text) (b : Int)
      (items : List Int), p.type = .array →
      startItems current p.default = items.map .int →
      (ArrayOperator.ofText operator).1 = some .removeWhere →
      decodeCondition literal = .ok (none, r, .int b) →
      p.apply current operator literal =
        if ∃ a ∈ items, doubleLimit ≤ a.natAbs ∨ doubleLimit ≤ b.natAbs then .error .tooLarge
        else .ok (.list (p.arrayConfig.fit
          ((items.filter fun a => !r.exact (rounded a) (rounded b)).map .int))) := by
  have hmatches := matchesCondition_int hcontains hnotContains
  refine ⟨hmatches, fun a b => r.exact_rounded, fun a b hne hsmall => ?_, ?_⟩
  · rcases hsmall with ha | hb
    · exact (rounded_ne hne.symm ha).symm
    · exact rounded_ne hne hb
  · intro p current operator literal b items htype hitems hop hliteral
    split
    · rename_i hlarge
      obtain ⟨a, ha, hlarge⟩ := hlarge
      have hgrave : OperatorError.Grave .tooLarge := fun why hwhy => by cases hwhy
      refine (Parameter.apply_eq_error_iff hgrave).mpr (.inr ⟨rfl, htype, hop, _, _, _, hliteral,
        .int a, ?_, ?_⟩)
      · rw [hitems]
        exact List.mem_map_of_mem ha
      · rw [hmatches, if_pos hlarge]
    · rename_i hsmall
      obtain ⟨hno, hkept⟩ := unmatched_int hcontains hnotContains hsmall
      rw [← hitems] at hno
      rw [p.apply_removeWhere htype hop hliteral hno, hitems, hkept]

namespace Demo

/-- A condition on 2⁵³ + 1, which is rounded to 2⁵³. -/
theorem levels_round :
    levels.apply (.list [.int 9007199254740991, .int 9007199254740992]) "remove_where"
        (some "\x7b\"op\": \">=\", \"value\": 9007199254740993\x7d") =
      .ok (.list [.int 9007199254740991]) := by
  have happly := (integer_conditions_round (r := .atLeast) nofun nofun).2.2.2 levels
    (.list [.int 9007199254740991, .int 9007199254740992]) "remove_where"
    (some "\x7b\"op\": \">=\", \"value\": 9007199254740993\x7d") 9007199254740993
    [9007199254740991, 9007199254740992] rfl rfl (by decide +kernel) (by rfl)
  have hsmall : ¬ ∃ a ∈ [(9007199254740991 : Int), 9007199254740992],
      doubleLimit ≤ a.natAbs ∨ doubleLimit ≤ (9007199254740993 : Int).natAbs := by decide +kernel
  have hkept : [(9007199254740991 : Int), 9007199254740992].filter
      (fun a => !Relation.atLeast.exact (rounded a) (rounded 9007199254740993)) =
        [9007199254740991] := by decide +kernel
  rw [if_neg hsmall, hkept] at happly
  exact happly

/-- Two integers that are told apart by none of their conditions, so that a removal of the one
removes the other. -/
theorem levels_confused : (9007199254740993 : Int) ≠ 9007199254740992 ∧
    matchesCondition (.int 9007199254740993) none .equals (.int 9007199254740992) = .ok true ∧
    levels.apply (.list [.int 9007199254740993]) "remove_where"
        (some "\x7b\"op\": \"equals\", \"value\": 9007199254740992\x7d") = .ok (.list []) := by
  have hmatches : matchesCondition (.int 9007199254740993) none .equals (.int 9007199254740992) =
      .ok true := eq_of_matched (by decide +kernel)
  have hitems : startItems (.list [.int 9007199254740993]) levels.default =
      [.int 9007199254740993] := rfl
  have hno : ∀ item ∈ startItems (.list [.int 9007199254740993]) levels.default,
      matchesCondition item none .equals (.int 9007199254740992) ≠ .error .tooLarge := by
    intro item hitem
    rw [hitems] at hitem
    rw [List.mem_singleton.mp hitem, hmatches]
    nofun
  have happly : levels.apply (.list [.int 9007199254740993]) "remove_where"
        (some "\x7b\"op\": \"equals\", \"value\": 9007199254740992\x7d") =
      .ok (.list (levels.arrayConfig.fit (unmatched none .equals (.int 9007199254740992)
        (startItems (.list [.int 9007199254740993]) levels.default)))) :=
    Parameter.apply_removeWhere rfl (by decide +kernel) (by rfl) hno
  have hkept : unmatched none .equals (.int 9007199254740992) [.int 9007199254740993] = [] := by
    simp [unmatched, matched_eq hmatches]
  rw [hitems, hkept] at happly
  exact ⟨by decide, hmatches, happly⟩

end Demo

end Storyworld
