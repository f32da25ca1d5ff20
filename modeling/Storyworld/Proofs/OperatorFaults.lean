import Mathlib.Algebra.Group.Int.Defs
import Storyworld.Proofs.LongNumerals
import Storyworld.Proofs.Magnitudes
import Storyworld.Proofs.WellTyped

/-! The failures of operators. A command gives a value or is refused, except that the literal of an
array operator may hold an overlong integer, and that a condition may compare an integer that is too
large for a double. -/

namespace Storyworld

variable {α β : Type} {P Q : Prop} {x : Except OperatorError α} {items : List Value}
  {e : OperatorError}

/-- An integer that is too large for a double, or a text that reads as one. -/
def Value.Vast (v : Value) : Prop :=
  ∃ i : Int, doubleLimit ≤ i.natAbs ∧
    (v = .int i ∨ ∃ s, v = .text s ∧ readNumber? s = some (.int i))

theorem toDouble_eq_error {n : Number} (h : toDouble n = .error e) :
    e = .tooLarge ∧ ∃ i, n = .int i ∧ doubleLimit ≤ i.natAbs := by
  cases hx : n.toDouble? with
  | some x =>
    rw [toDouble, hx] at h
    cases h
  | none =>
    rw [toDouble, hx] at h
    refine ⟨(Except.error.inj h).symm, ?_⟩
    cases n with
    | float x => cases hx
    | int i => exact ⟨i, rfl, Double.ofInt?_eq_none_iff.mp hx⟩

/-- A comparison fails over a number that is too large alone, and only under a condition. -/
def Compares (P : Prop) (x : Except OperatorError α) : Prop := ∀ e, x = .error e → e = .tooLarge ∧ P

namespace Compares

theorem ok (a : α) : Compares P (.ok a) := nofun

theorem mono (h : Compares P x) (hPQ : P → Q) : Compares Q x :=
  fun e he => ⟨(h e he).1, hPQ (h e he).2⟩

theorem map (h : Compares P x) (f : α → β) : Compares P (x.map f) := by
  intro e he
  cases x with
  | ok a => cases he
  | error d => exact h e (by rw [Except.error.inj he])

theorem bind {f : α → Except OperatorError β} (h : Compares P x) (hf : ∀ a, Compares P (f a)) :
    Compares P (x >>= f) := by
  intro e he
  rcases bind_eq_error_iff.mp he with hx | ⟨a, _, ha⟩
  · exact h e hx
  · exact hf a e ha

end Compares

theorem toDouble_compares (n : Number) : Compares (Value.number n).Vast (toDouble n) := by
  intro e he
  obtain ⟨htoo, i, rfl, hi⟩ := toDouble_eq_error he
  exact ⟨htoo, i, hi, .inl rfl⟩

theorem Value.asDouble_compares (v : Value) : Compares v.Vast v.asDouble := by
  cases v with
  | number n => exact (toDouble_compares n).map some
  | text s =>
    rw [asDouble]
    split
    · rename_i n hread
      refine Compares.map (fun e he => ?_) some
      obtain ⟨htoo, i, rfl, hi⟩ := toDouble_eq_error he
      exact ⟨htoo, i, hi, .inr ⟨s, rfl, hread⟩⟩
    · exact .ok none
  | _ => exact .ok none

theorem looseEqual_compares (actual expected : Value) :
    Compares (actual.Vast ∨ expected.Vast) (looseEqual actual expected) := by
  cases actual with
  | number n =>
    refine (expected.asDouble_compares.mono .inr).bind fun right => ?_
    refine ((toDouble_compares n).mono .inl).bind fun left => ?_
    split <;> exact .ok _
  | _ => exact .ok _

theorem anyEqual_compares (expected : Value) (items : List Value) :
    Compares ((∃ v ∈ items, v.Vast) ∨ expected.Vast) (anyEqual expected items) := by
  induction items with
  | nil => exact .ok false
  | cons v vs ih =>
    refine ((looseEqual_compares v expected).mono ?_).bind fun hit => ?_
    · exact Or.imp_left fun hv => ⟨v, List.mem_cons_self, hv⟩
    · split
      · exact .ok true
      · refine ih.mono (Or.imp_left ?_)
        rintro ⟨w, hw, hvast⟩
        exact ⟨w, List.mem_cons_of_mem v hw, hvast⟩

/-- The value is vast, or a list with an item that is. -/
def Value.HasVast (v : Value) : Prop := v.Vast ∨ ∃ items, v = .list items ∧ ∃ w ∈ items, w.Vast

theorem containment?_compares (actual expected : Value) :
    Compares (actual.HasVast ∨ expected.Vast) (containment? actual expected) := by
  cases actual with
  | list items =>
    have hany := (anyEqual_compares expected items).map some
    exact hany.mono (Or.imp_left fun hitems => .inr ⟨items, rfl, hitems⟩)
  | _ => exact .ok _

theorem ordering_compares (holds : Number → Number → Bool) (actual expected : Value) :
    Compares (actual.Vast ∨ expected.Vast) (ordering holds actual expected) := by
  refine (actual.asDouble_compares.mono .inl).bind fun left => ?_
  refine (expected.asDouble_compares.mono .inr).bind fun right => ?_
  split <;> exact .ok _

theorem Relation.holds_compares (r : Relation) (actual expected : Value) :
    Compares (actual.HasVast ∨ expected.Vast) (r.holds actual expected) := by
  have hequal := (looseEqual_compares actual expected).mono
    (Or.imp_left (Or.inl : _ → actual.HasVast))
  have horder (holds) := (ordering_compares holds actual expected).mono
    (Or.imp_left (Or.inl : _ → actual.HasVast))
  cases r with
  | equals => exact hequal
  | notEquals => exact hequal.map not
  | contains => exact (containment?_compares actual expected).map _
  | notContains => exact (containment?_compares actual expected).map _
  | greater => exact horder fun x y => y.lt x
  | atLeast => exact horder fun x y => y.le x
  | less => exact horder fun x y => x.lt y
  | atMost => exact horder fun x y => x.le y

/-- What a condition examines of an item: the item itself, or one of its fields. -/
def examined? (item : Value) (field : Option Text) : Option Value :=
  match field with
  | none => some item
  | some name => if name = "" then some item else item.fields?.bind (Entries.get? name)

theorem matchesCondition_eq (item : Value) (field : Option Text) (r : Relation)
    (expected : Value) : matchesCondition item field r expected =
      match examined? item field with
      | some v => r.holds v expected
      | none => .ok false := by
  cases field with
  | none => rfl
  | some name =>
    by_cases hname : name = ""
    · subst hname
      rfl
    · have hfield : (some name).filter (· ≠ ("" : Text)) = some name := by simp [hname]
      simp only [matchesCondition, examined?, hfield, if_neg hname]
      cases item with
      | object fields => cases hget : Entries.get? name fields <;> simp [Value.fields?, hget]
      | _ => simp [Value.fields?]

theorem matchesCondition_compares (item : Value) (field : Option Text) (r : Relation)
    (expected : Value) :
    Compares ((∃ v, examined? item field = some v ∧ v.HasVast) ∨ expected.Vast)
      (matchesCondition item field r expected) := by
  rw [matchesCondition_eq]
  split
  · rename_i v hv
    exact (r.holds_compares v expected).mono (Or.imp_left fun h => ⟨v, hv, h⟩)
  · exact .ok false

theorem dropMatching_eq_error_iff {field : Option Text} {r : Relation} {expected : Value} :
    dropMatching field r expected items = .error e ↔
      e = .tooLarge ∧ ∃ item ∈ items, matchesCondition item field r expected = .error .tooLarge := by
  induction items with
  | nil => simp [dropMatching]
  | cons item items ih =>
    rw [dropMatching, bind_eq_error_iff]
    simp only [bind_eq_error_iff, ih, List.mem_cons, exists_eq_or_imp]
    cases h : matchesCondition item field r expected with
    | ok hit => simp
    | error d =>
      obtain ⟨rfl, -⟩ := matchesCondition_compares item field r expected d h
      simp [eq_comm]

/-- Whether an operator gets as far as decoding its value. -/
def ArrayOperator.decodes : Option ArrayOperator × Text → Bool
  | (some .updateAt, argument) => (readInt? (trim argument.toList)).isSome
  | (some op, _) => op.takesValue
  | (none, _) => false

/-- A failure that is no refusal. -/
def OperatorError.Grave (e : OperatorError) : Prop := ∀ why, e ≠ .refused why

theorem ne_refuse (he : e.Grave) (why : Refusal) : refuse why ≠ (.error e : Except OperatorError α) :=
  fun h => he why (Except.error.inj h).symm

theorem bind_eq_error_iff_left {f : α → Except OperatorError β} (hf : ∀ a, f a ≠ .error e) :
    x >>= f = .error e ↔ x = .error e := by
  rw [bind_eq_error_iff, or_iff_left_iff_imp]
  rintro ⟨a, -, ha⟩
  exact (hf a ha).elim

theorem bind_ne_error {f : α → Except OperatorError β} (hx : x ≠ .error e)
    (hf : ∀ a, f a ≠ .error e) : x >>= f ≠ .error e := by
  rw [ne_eq, bind_eq_error_iff_left hf]
  exact hx

theorem decodeLiteral_eq_error_iff (he : e.Grave) (literal : Option Text) :
    decodeLiteral literal = .error e ↔
      e = .overlong ∧ ∃ l, literal = some l ∧ Json.read l = .error .overlong := by
  cases literal with
  | none => simpa [decodeLiteral] using ne_refuse he _
  | some l =>
    simp only [decodeLiteral, Option.some.injEq, exists_eq_left']
    split <;> rename_i hread <;> simp only [hread]
    · simp
    · simpa using ne_refuse he _
    · simp [eq_comm]

theorem decodeCondition_eq_error_iff (he : e.Grave) (literal : Option Text) :
    decodeCondition literal = .error e ↔ decodeLiteral literal = .error e := by
  rw [decodeCondition, bind_eq_error_iff_left]
  intro data h
  dsimp only at h
  -- What comes after the decoding either refuses or gives a condition.
  repeat' split at h
  all_goals first | exact ne_refuse he _ h | cases h

namespace ArrayConfig

variable {c : ArrayConfig}

theorem checkItem_ne_error (he : e.Grave) (v : Value) : c.checkItem v ≠ .error e := by
  intro h
  simp only [checkItem] at h
  repeat' split at h
  all_goals first | exact ne_refuse he _ h | cases h

theorem checkItems_ne_error (he : e.Grave) (items : List Value) : c.checkItems items ≠ .error e := by
  induction items with
  | nil => nofun
  | cons v vs ih =>
    exact bind_ne_error (checkItem_ne_error he v) fun first => bind_ne_error ih nofun

theorem readIndex_ne_error (he : e.Grave) (text : Text) : readIndex text ≠ .error e := by
  simp only [readIndex]
  split
  · nofun
  · exact ne_refuse he _

/-- Grave failures of a run: the value that is to be decoded is overlong, or some item of which a
condition examines what is too large to compare. -/
theorem run_eq_error_iff (he : e.Grave) {operator : Text} {literal : Option Text} :
    c.run items operator literal = .error e ↔
      (e = .overlong ∧ ArrayOperator.decodes (ArrayOperator.ofText operator) = true ∧
        ∃ l, literal = some l ∧ Json.read l = .error .overlong) ∨
      (e = .tooLarge ∧ (ArrayOperator.ofText operator).1 = some .removeWhere ∧
        ∃ field r expected, decodeCondition literal = .ok (field, r, expected) ∧
          ∃ item ∈ items, matchesCondition item field r expected = .error .tooLarge) := by
  have hdecode := decodeLiteral_eq_error_iff he literal
  unfold run
  split <;> rename_i hop <;> simp only [hop, ArrayOperator.decodes, ArrayOperator.takesValue]
  case h_1 =>
    rw [bind_eq_error_iff_left, hdecode]
    · simp
    · exact fun v => bind_ne_error (checkItem_ne_error he v) fun _ => nofun
  case h_2 argument =>
    rw [bind_eq_error_iff_left]
    · simpa using readIndex_ne_error he argument
    · exact fun _ => nofun
  case h_3 argument =>
    cases hindex : readIndex argument with
    | error d =>
      have hnone : readInt? (trim argument.toList) = none := by
        simp only [readIndex] at hindex
        split at hindex
        · cases hindex
        · assumption
      have hd : d ≠ e := fun hd => readIndex_ne_error he argument (hd ▸ hindex)
      simpa [hnone, bind, Except.bind] using hd
    | ok i =>
      have hsome : (readInt? (trim argument.toList)).isSome = true := by
        simp only [readIndex] at hindex
        split at hindex
        · simp_all
        · cases hindex
      change decodeLiteral literal >>= _ = .error e ↔ _
      rw [bind_eq_error_iff_left, hdecode]
      · simp [hsome]
      · exact fun v => bind_ne_error (checkItem_ne_error he v) fun _ => nofun
  case h_4 =>
    rw [bind_eq_error_iff, decodeCondition_eq_error_iff he, hdecode]
    simp only [dropMatching_eq_error_iff, Prod.exists]
    refine or_congr (by simp) ⟨?_, ?_⟩
    · rintro ⟨field, r, expected, hcondition, rfl, hitem⟩
      exact ⟨rfl, trivial, field, r, expected, hcondition, hitem⟩
    · rintro ⟨rfl, -, field, r, expected, hcondition, hitem⟩
      exact ⟨field, r, expected, hcondition, rfl, hitem⟩
  case h_5 => simp
  case h_6 =>
    rw [bind_eq_error_iff_left, hdecode]
    · simp
    · intro v
      split
      · exact checkItems_ne_error he _
      · exact ne_refuse he _
  case h_7 => simpa using ne_refuse he _

end ArrayConfig

namespace Parameter

variable {p : Parameter} {current : Value} {operator : Text} {literal : Option Text}

theorem apply_eq_error_iff_run (he : e.Grave) : p.apply current operator literal = .error e ↔
    p.type = .array ∧
      p.arrayConfig.run (startItems current p.default) operator literal = .error e := by
  unfold apply
  split <;> rename_i htype <;> simp only [htype, reduceCtorEq, false_and, iff_false, true_and]
  case h_1 =>
    simp only [applyNumber]
    repeat' split
    all_goals first | exact ne_refuse he _ | rintro ⟨⟩
  case h_2 =>
    simp only [applyEnum]
    repeat' split
    all_goals first | exact ne_refuse he _ | rintro ⟨⟩
  case h_3 =>
    simp only [applyBoolean]
    repeat' split
    all_goals first | exact ne_refuse he _ | rintro ⟨⟩
  case h_5 =>
    rw [applyArray, bind_eq_error_iff_left]
    rintro _ ⟨⟩

/-- The command decodes a literal with an overlong integer. -/
def DecodesOverlong (p : Parameter) (operator : Text) (literal : Option Text) : Prop :=
  p.type = .array ∧ ArrayOperator.decodes (ArrayOperator.ofText operator) = true ∧
    ∃ l, literal = some l ∧ Json.read l = .error .overlong

/-- The command has a condition, and some item cannot be compared by it. -/
def ComparesTooLarge (p : Parameter) (current : Value) (operator : Text)
    (literal : Option Text) : Prop :=
  p.type = .array ∧ (ArrayOperator.ofText operator).1 = some .removeWhere ∧
    ∃ field r expected, decodeCondition literal = .ok (field, r, expected) ∧
      ∃ item ∈ startItems current p.default,
        matchesCondition item field r expected = .error .tooLarge

theorem apply_eq_error_iff (he : e.Grave) : p.apply current operator literal = .error e ↔
    (e = .overlong ∧ p.DecodesOverlong operator literal) ∨
      (e = .tooLarge ∧ p.ComparesTooLarge current operator literal) := by
  rw [apply_eq_error_iff_run he, ArrayConfig.run_eq_error_iff he, and_or_left]
  exact or_congr and_left_comm and_left_comm

/-- A command gives a value or is refused, but for two failures: an overlong integer in the literal
that it decodes, and an integer too large for a double in a condition or in what that examines. -/
theorem apply_unless_grave (hp : p.breach? = none) (current : Value) (operator : Text)
    (literal : Option Text) :
    (¬ p.DecodesOverlong operator literal → ¬ p.ComparesTooLarge current operator literal →
      (∃ v, p.apply current operator literal = .ok v) ∨
        ∃ why, p.apply current operator literal = .error (.refused why)) ∧
    (p.DecodesOverlong operator literal → p.apply current operator literal = .error .overlong ∧
      ∃ l, literal = some l ∧ HasLongRun l.toList) ∧
    (p.ComparesTooLarge current operator literal →
      p.apply current operator literal = .error .tooLarge ∧
        ∃ field r expected, decodeCondition literal = .ok (field, r, expected) ∧
          ((∃ item ∈ startItems current p.default,
            ∃ v, examined? item field = some v ∧ v.HasVast) ∨ expected.Vast)) ∧
    (p.type = .enum → ∀ v, p.apply current operator literal = .ok v →
      ∃ name ∈ p.enumValues, v = .text name) := by
  have hoverlong : OperatorError.Grave .overlong := nofun
  have htoo : OperatorError.Grave .tooLarge := nofun
  refine ⟨fun hno hno' => ?_, fun h => ⟨?_, ?_⟩, fun h => ⟨?_, ?_⟩, fun htype v h => ?_⟩
  · cases happly : p.apply current operator literal with
    | ok v => exact .inl ⟨v, rfl⟩
    | error e =>
      cases e with
      | refused why => exact .inr ⟨why, rfl⟩
      | overlong => simp [apply_eq_error_iff hoverlong, hno] at happly
      | tooLarge => simp [apply_eq_error_iff htoo, hno'] at happly
  · exact (apply_eq_error_iff hoverlong).mpr (.inl ⟨rfl, h⟩)
  · obtain ⟨-, -, l, hl, hread⟩ := h
    exact ⟨l, hl, Json.hasLongRun_of_read hread⟩
  · exact (apply_eq_error_iff htoo).mpr (.inr ⟨rfl, h⟩)
  · obtain ⟨-, -, field, r, expected, hcondition, item, hitem, hmatch⟩ := h
    obtain ⟨-, hvast⟩ := matchesCondition_compares item field r expected _ hmatch
    exact ⟨field, r, expected, hcondition, hvast.imp_left fun hv => ⟨item, hitem, hv⟩⟩
  · simp only [apply, htype] at h
    exact applyEnum_mem (enumValues_ne_nil hp htype) h

end Parameter

namespace Demo

def levels : Parameter :=
  { parameter "levels" .global .array (.list []) with arrayConfig := ⟨.number, none, none⟩ }

theorem levels_unless_grave : levels.breach? = none ∧
    ((∃ v, levels.apply (.list [.int 1]) "remove_at: 0" none = .ok v) ∨
      ∃ why, levels.apply (.list [.int 1]) "remove_at: 0" none = .error (.refused why)) := by
  have hvalid : levels.breach? = none := by rfl
  have hremoves : ArrayOperator.ofText "remove_at: 0" = (some .removeAt, ("0" : Text)) := by
    decide +kernel
  refine ⟨hvalid, (Parameter.apply_unless_grave hvalid _ _ _).1 ?_ ?_⟩
  · simp [Parameter.DecodesOverlong]
  · simp [Parameter.ComparesTooLarge, hremoves]

theorem eq_tooLarge {x : Except OperatorError α} (h : (x matches .error .tooLarge) = true) :
    x = .error .tooLarge := by
  split at h
  · rfl
  · cases h

/-- A condition on an integer of 310 digits. -/
theorem levels_tooLarge : levels.breach? = none ∧
    levels.apply (.list [.int (10 ^ 309)]) "remove_where"
      (some "\x7b\"op\": \"gt\", \"value\": 1\x7d") = .error .tooLarge :=
  ⟨by rfl, eq_tooLarge (by decide +kernel)⟩

end Demo

end Storyworld
