import Storyworld.Proofs.ArrayItems
import Storyworld.Proofs.OperatorFaults

/-! Conditions in pairs. Each relation has a complement: where the relation applies to what it
examines, one of the two holds, and elsewhere neither does. Removing by the one and by the other then
leaves two parts of an array that cover it and share what neither applies to. -/

namespace Storyworld

variable {α β : Type} {P : Prop} {x : Except OperatorError α} {e : OperatorError}
  {item actual expected : Value} {items : List Value} {field : Option Text} {r : Relation}

theorem Compares.exists_ok (h : Compares P x) (hx : x ≠ .error .tooLarge) : ∃ a, x = .ok a := by
  cases x with
  | ok a => exact ⟨a, rfl⟩
  | error e =>
    obtain ⟨rfl, -⟩ := h e rfl
    exact (hx rfl).elim

theorem ne_error_of_map {f : α → β} (h : x.map f ≠ .error e) : x ≠ .error e := by
  rintro rfl
  exact h rfl

theorem ne_error_of_bind {f : α → Except OperatorError β} (h : x >>= f ≠ .error e) : x ≠ .error e := by
  rintro rfl
  exact h rfl

namespace Number

variable {m n : Number}

theorem lt_eq_not_le (hm : m.isNaN = false) (hn : n.isNaN = false) : m.lt n = !n.le m := by
  obtain ⟨x, hx⟩ := exists_extent hm
  obtain ⟨y, hy⟩ := exists_extent hn
  simp only [lt, le, hx, hy]

theorem extent?_eq_none (h : n.isNaN = true) : n.extent? = none := by
  cases hn : n.extent? with
  | none => rfl
  | some x =>
    rw [isNaN_of_extent hn] at h
    cases h

theorem le_eq_false (h : m.isNaN = true ∨ n.isNaN = true) : m.le n = false ∧ m.lt n = false := by
  rcases h with h | h
  · simp [le, lt, extent?_eq_none h]
  · cases hm : m.extent? <;> simp [le, lt, extent?_eq_none h, hm]

end Number

/-- The value is a number, or a text that reads as one, and no not-a-number. -/
def Value.Comparable (v : Value) : Prop :=
  ∃ x, v.asDouble = .ok (some x) ∧ (Number.float x).isNaN = false

namespace Relation

def complement : Relation → Relation
  | equals => notEquals
  | notEquals => equals
  | contains => notContains
  | notContains => contains
  | greater => atMost
  | atMost => greater
  | less => atLeast
  | atLeast => less

/-- Whether the values are of kinds that the relation is about. -/
def Applies (r : Relation) (actual expected : Value) : Prop :=
  match r with
  | equals | notEquals => True
  | contains | notContains => (∃ s, actual = .text s) ∨ ∃ items, actual = .list items
  | greater | atLeast | less | atMost => actual.Comparable ∧ expected.Comparable

/-- One says yes and the other no. -/
def Contrary (x y : Except OperatorError Bool) : Prop := ∃ b, x = .ok b ∧ y = .ok !b

theorem Contrary.symm {x y : Except OperatorError Bool} (h : Contrary x y) : Contrary y x := by
  obtain ⟨b, hx, hy⟩ := h
  exact ⟨!b, hy, by rw [hx, Bool.not_not]⟩

theorem contrary_equality (hno : looseEqual actual expected ≠ .error .tooLarge) :
    Contrary (equals.holds actual expected) (notEquals.holds actual expected) := by
  obtain ⟨b, hb⟩ := (looseEqual_compares actual expected).exists_ok hno
  exact ⟨b, hb, by rw [holds, hb]; rfl⟩

theorem contrary_containment (hno : containment? actual expected ≠ .error .tooLarge)
    (hkind : (∃ s, actual = .text s) ∨ ∃ items, actual = .list items) :
    Contrary (contains.holds actual expected) (notContains.holds actual expected) := by
  have hsome : ∃ b, containment? actual expected = .ok (some b) := by
    rcases hkind with ⟨s, rfl⟩ | ⟨items, rfl⟩
    · exact ⟨_, rfl⟩
    · obtain ⟨b, hb⟩ := (anyEqual_compares expected items).exists_ok (ne_error_of_map hno)
      exact ⟨b, by rw [containment?, hb]; rfl⟩
  obtain ⟨b, hb⟩ := hsome
  exact ⟨b, by rw [holds, hb]; cases b <;> rfl, by rw [holds, hb]; cases b <;> rfl⟩

theorem ordering_eq {holds : Number → Number → Bool} {x y : Double}
    (hactual : actual.asDouble = .ok (some x)) (hexpected : expected.asDouble = .ok (some y)) :
    ordering holds actual expected = .ok (holds (.float x) (.float y)) := by
  rw [ordering, hactual, hexpected]
  rfl

theorem contrary_ordering {f g : Number → Number → Bool}
    (hfg : ∀ m n, m.isNaN = false → n.isNaN = false → g m n = !f m n)
    (h : actual.Comparable ∧ expected.Comparable) :
    Contrary (ordering f actual expected) (ordering g actual expected) := by
  obtain ⟨⟨x, hx, hxn⟩, y, hy, hyn⟩ := h
  exact ⟨_, ordering_eq hx hy, by rw [ordering_eq hx hy, hfg _ _ hxn hyn]⟩

/-- Where a relation applies, it and its complement say the contrary of each other. -/
theorem contrary_complement (hno : r.holds actual expected ≠ .error .tooLarge)
    (happlies : r.Applies actual expected) :
    Contrary (r.holds actual expected) (r.complement.holds actual expected) := by
  have hgreater (h : actual.Comparable ∧ expected.Comparable) :
      Contrary (atMost.holds actual expected) (greater.holds actual expected) :=
    contrary_ordering (fun m n hm hn => Number.lt_eq_not_le hn hm) h
  have hless (h : actual.Comparable ∧ expected.Comparable) :
      Contrary (atLeast.holds actual expected) (less.holds actual expected) :=
    contrary_ordering (fun m n hm hn => Number.lt_eq_not_le hm hn) h
  cases r with
  | equals => exact contrary_equality hno
  | notEquals => exact (contrary_equality (ne_error_of_map hno)).symm
  | contains => exact contrary_containment (ne_error_of_map hno) happlies
  | notContains => exact (contrary_containment (ne_error_of_map hno) happlies).symm
  | greater => exact (hgreater happlies).symm
  | atMost => exact hgreater happlies
  | less => exact (hless happlies).symm
  | atLeast => exact hless happlies

/-- What cannot be ordered in one way is in no order. -/
theorem ordering_eq_false {f : Number → Number → Bool}
    (hno : ordering f actual expected ≠ .error .tooLarge)
    (h : ¬ (actual.Comparable ∧ expected.Comparable)) :
    (greater.holds actual expected = .ok false ∧ atMost.holds actual expected = .ok false) ∧
      less.holds actual expected = .ok false ∧ atLeast.holds actual expected = .ok false := by
  obtain ⟨left, hleft⟩ := actual.asDouble_compares.exists_ok (ne_error_of_bind hno)
  rw [ordering, hleft] at hno
  obtain ⟨right, hright⟩ := expected.asDouble_compares.exists_ok (ne_error_of_bind hno)
  simp only [holds]
  match left, right with
  | none, _ => simp [ordering, hleft, hright, bind, Except.bind]
  | some x, none => simp [ordering, hleft, hright, bind, Except.bind]
  | some x, some y =>
    have hnan : (Number.float x).isNaN = true ∨ (Number.float y).isNaN = true := by
      by_contra hnan
      rw [not_or, Bool.not_eq_true, Bool.not_eq_true] at hnan
      exact h ⟨⟨x, hleft, hnan.1⟩, y, hright, hnan.2⟩
    simp only [ordering_eq hleft hright, Number.le_eq_false hnan, Number.le_eq_false hnan.symm,
      and_self]

/-- Where a relation does not apply, neither it nor its complement holds. -/
theorem neither_complement (hno : r.holds actual expected ≠ .error .tooLarge)
    (h : ¬ r.Applies actual expected) :
    r.holds actual expected = .ok false ∧ r.complement.holds actual expected = .ok false := by
  have hcontain (hkind : ¬ ((∃ s, actual = .text s) ∨ ∃ items, actual = .list items)) :
      contains.holds actual expected = .ok false ∧ notContains.holds actual expected = .ok false := by
    cases actual with
    | text s => exact (hkind (.inl ⟨s, rfl⟩)).elim
    | list items => exact (hkind (.inr ⟨items, rfl⟩)).elim
    | _ => exact ⟨rfl, rfl⟩
  cases r with
  | equals => exact (h trivial).elim
  | notEquals => exact (h trivial).elim
  | contains => exact hcontain h
  | notContains => exact (hcontain h).symm
  | greater =>
    rw [holds] at hno
    exact (ordering_eq_false hno h).1
  | atMost =>
    rw [holds] at hno
    exact (ordering_eq_false hno h).1.symm
  | less =>
    rw [holds] at hno
    exact (ordering_eq_false hno h).2
  | atLeast =>
    rw [holds] at hno
    exact (ordering_eq_false hno h).2.symm

end Relation

/-- Whether an item matches a condition, where the comparison does not fail. -/
def matched (field : Option Text) (r : Relation) (expected item : Value) : Bool :=
  matchesCondition item field r expected matches .ok true

theorem matched_eq {hit : Bool} (h : matchesCondition item field r expected = .ok hit) :
    matched field r expected item = hit := by
  rw [matched, h]
  cases hit <;> rfl

theorem eq_of_matched (h : matched field r expected item = true) :
    matchesCondition item field r expected = .ok true := by
  rw [matched] at h
  split at h
  · assumption
  · cases h

/-- The items that a removal by a condition keeps. -/
def unmatched (field : Option Text) (r : Relation) (expected : Value) (items : List Value) :
    List Value :=
  items.filter fun item => !matched field r expected item

theorem matchesCondition_exists_ok
    (hno : matchesCondition item field r expected ≠ .error .tooLarge) :
    ∃ hit, matchesCondition item field r expected = .ok hit :=
  (matchesCondition_compares item field r expected).exists_ok hno

theorem dropMatching_eq
    (hno : ∀ item ∈ items, matchesCondition item field r expected ≠ .error .tooLarge) :
    dropMatching field r expected items = .ok (unmatched field r expected items) := by
  induction items with
  | nil => rfl
  | cons item items ih =>
    obtain ⟨hitem, hitems⟩ := List.forall_mem_cons.mp hno
    obtain ⟨hit, hhit⟩ := matchesCondition_exists_ok hitem
    rw [dropMatching, hhit, ih hitems, unmatched, unmatched, List.filter_cons, matched_eq hhit]
    cases hit <;> rfl

theorem ArrayConfig.fit_eq_self {c : ArrayConfig}
    (h : ∀ n, c.maxLength = some n → items.length ≤ n) : c.fit items = items := by
  rw [fit]
  split
  · rfl
  · rename_i n hn
    rw [Nat.sub_eq_zero_of_le (h n hn), List.drop_zero]

theorem ArrayConfig.run_removeWhere {c : ArrayConfig} {operator : Text} {literal : Option Text}
    (hop : (ArrayOperator.ofText operator).1 = some .removeWhere) :
    c.run items operator literal = decodeCondition literal >>= fun (field, r, expected) =>
      dropMatching field r expected items := by
  unfold run
  split <;> rename_i hname <;> rw [hname] at hop <;> first | rfl | cases hop

/-- A removal by a condition that can be compared with every item keeps those that do not match. -/
theorem Parameter.apply_removeWhere {p : Parameter} {current : Value} {operator : Text}
    {literal : Option Text} (htype : p.type = .array)
    (hop : (ArrayOperator.ofText operator).1 = some .removeWhere)
    (hliteral : decodeCondition literal = .ok (field, r, expected))
    (hno : ∀ item ∈ startItems current p.default,
      matchesCondition item field r expected ≠ .error .tooLarge) :
    p.apply current operator literal = .ok (.list (p.arrayConfig.fit
      (unmatched field r expected (startItems current p.default)))) := by
  have hrun : p.arrayConfig.run (startItems current p.default) operator literal =
      .ok (unmatched field r expected (startItems current p.default)) := by
    rw [ArrayConfig.run_removeWhere hop, hliteral]
    exact dropMatching_eq hno
  simp only [apply, htype, applyArray, hrun]
  rfl

theorem ArrayConfig.fit_unmatched {c : ArrayConfig}
    (h : ∀ n, c.maxLength = some n → items.length ≤ n) :
    c.fit (unmatched field r expected items) = unmatched field r expected items :=
  fit_eq_self fun n hn => Nat.le_trans (List.length_filter_le _ items) (h n hn)

theorem matchesCondition_of_examined {v : Value} (h : examined? item field = some v)
    (hno : matchesCondition item field r expected ≠ .error .tooLarge) :
    (r.Applies v expected → Relation.Contrary (matchesCondition item field r expected)
      (matchesCondition item field r.complement expected)) ∧
    (¬ r.Applies v expected → matchesCondition item field r expected = .ok false ∧
      matchesCondition item field r.complement expected = .ok false) := by
  simp only [matchesCondition_eq, h] at hno ⊢
  exact ⟨Relation.contrary_complement hno, Relation.neither_complement hno⟩

/-- Both conditions of a pair give an answer, and at most one of them says yes. -/
theorem matchesCondition_pair (hno : matchesCondition item field r expected ≠ .error .tooLarge) :
    ∃ hit hit', matchesCondition item field r expected = .ok hit ∧
      matchesCondition item field r.complement expected = .ok hit' ∧ (hit && hit') = false := by
  cases hitem : examined? item field with
  | none => exact ⟨false, false, by rw [matchesCondition_eq, hitem],
      by rw [matchesCondition_eq, hitem], rfl⟩
  | some v =>
    obtain ⟨hcontrary, hneither⟩ := matchesCondition_of_examined hitem hno
    by_cases happlies : r.Applies v expected
    · obtain ⟨hit, hr, hc⟩ := hcontrary happlies
      exact ⟨hit, !hit, hr, hc, Bool.and_not_self hit⟩
    · obtain ⟨hr, hc⟩ := hneither happlies
      exact ⟨false, false, hr, hc, rfl⟩

/-- Every item is kept beside a condition or beside its complement, and beside both if it matches
neither. -/
theorem mem_unmatched_pair (hitem : item ∈ items)
    (hno : matchesCondition item field r expected ≠ .error .tooLarge) :
    (item ∈ unmatched field r expected items ∨
      item ∈ unmatched field r.complement expected items) ∧
    (item ∈ unmatched field r expected items ∧
        item ∈ unmatched field r.complement expected items ↔
      matchesCondition item field r expected = .ok false ∧
        matchesCondition item field r.complement expected = .ok false) := by
  obtain ⟨hit, hit', hr, hc, hnot⟩ := matchesCondition_pair hno
  have hkept : item ∈ unmatched field r expected items ↔ hit = false := by
    simp [unmatched, hitem, matched_eq hr]
  have hkept' : item ∈ unmatched field r.complement expected items ↔ hit' = false := by
    simp [unmatched, hitem, matched_eq hc]
  rw [hkept, hkept', hr, hc, Except.ok.injEq, Except.ok.injEq]
  exact ⟨Bool.and_eq_false_iff.mp hnot, Iff.rfl⟩

/-- Of an item that has what is examined, a relation and its complement say the contrary of each
other if they apply to it, and neither matches otherwise; an item without the field matches nothing.
So removals by the one and by the other keep two parts of an array that cover it, and share the items
that neither matches. -/
theorem removals_complement (field : Option Text) (r : Relation) (expected : Value) :
    (∀ item, examined? item field = none →
      ∀ other : Relation, matchesCondition item field other expected = .ok false) ∧
    (∀ item v, examined? item field = some v →
      matchesCondition item field r expected ≠ .error .tooLarge →
        (r.Applies v expected → Relation.Contrary (matchesCondition item field r expected)
          (matchesCondition item field r.complement expected)) ∧
        (¬ r.Applies v expected → matchesCondition item field r expected = .ok false ∧
          matchesCondition item field r.complement expected = .ok false)) ∧
    ∀ (p : Parameter) (current : Value) (operator operator' : Text)
      (literal literal' : Option Text) (items : List Value),
      p.type = .array → startItems current p.default = items →
      (∀ n, p.arrayConfig.maxLength = some n → items.length ≤ n) →
      (∀ item ∈ items, matchesCondition item field r expected ≠ .error .tooLarge) →
      (ArrayOperator.ofText operator).1 = some .removeWhere →
      (ArrayOperator.ofText operator').1 = some .removeWhere →
      decodeCondition literal = .ok (field, r, expected) →
      decodeCondition literal' = .ok (field, r.complement, expected) →
      p.apply current operator literal = .ok (.list (unmatched field r expected items)) ∧
      p.apply current operator' literal' =
        .ok (.list (unmatched field r.complement expected items)) ∧
      ∀ item ∈ items,
        (item ∈ unmatched field r expected items ∨
          item ∈ unmatched field r.complement expected items) ∧
        (item ∈ unmatched field r expected items ∧
            item ∈ unmatched field r.complement expected items ↔
          matchesCondition item field r expected = .ok false ∧
            matchesCondition item field r.complement expected = .ok false) := by
  refine ⟨fun item hitem other => by rw [matchesCondition_eq, hitem],
    fun item v hitem hno => matchesCondition_of_examined hitem hno, ?_⟩
  rintro p current operator operator' literal literal' items htype rfl hlength hno hop hop'
    hliteral hliteral'
  have hno' (item : Value) (hitem : item ∈ startItems current p.default) :
      matchesCondition item field r.complement expected ≠ .error .tooLarge := by
    obtain ⟨_, hit', _, hc, _⟩ := matchesCondition_pair (hno item hitem)
    rw [hc]
    nofun
  refine ⟨?_, ?_, fun item hitem => mem_unmatched_pair hitem (hno item hitem)⟩
  · rw [p.apply_removeWhere htype hop hliteral hno, ArrayConfig.fit_unmatched hlength]
  · rw [p.apply_removeWhere htype hop' hliteral' hno', ArrayConfig.fit_unmatched hlength]

namespace Demo

def crew : Parameter :=
  { parameter "crew" .global .array (.list []) with arrayConfig := ⟨.object, some 4, none⟩ }

/-- Ranks as a number and as a text, one that is no number, and none. -/
def crewmates : List Value := [
  .object [("rank", .int 3)], .object [("rank", .text " 7 ")], .object [("rank", .text "high")],
  .object [("name", .text "Io")]]

def above : Text := "\x7b\"field\": \"rank\", \"op\": \" > \", \"value\": 5\x7d"

def notAbove : Text := "\x7b\"value\": 5, \"op\": \"LTE\", \"field\": \"rank\"\x7d"

theorem crewmates_complement :
    crew.apply (.list crewmates) "remove_where" (some above) =
      .ok (.list (unmatched (some "rank") .greater (.int 5) crewmates)) ∧
    crew.apply (.list crewmates) " Remove_Where " (some notAbove) =
      .ok (.list (unmatched (some "rank") .atMost (.int 5) crewmates)) ∧
    crewmates.map (matched (some "rank") .greater (.int 5)) = [false, true, false, false] ∧
    crewmates.map (matched (some "rank") .atMost (.int 5)) = [true, false, false, false] := by
  have hno : ∀ item ∈ crewmates,
      matchesCondition item (some "rank") .greater (.int 5) ≠ .error .tooLarge := by
    have hall : ∀ item ∈ crewmates,
        (matchesCondition item (some "rank") .greater (.int 5)).toOption.isSome := by
      decide +kernel
    intro item hitem
    obtain ⟨hit, hhit⟩ := exists_eq_ok (hall item hitem)
    rw [hhit]
    nofun
  obtain ⟨hgreater, hatMost, -⟩ := (removals_complement (some "rank") .greater (.int 5)).2.2 crew
    (.list crewmates) "remove_where" " Remove_Where " (some above) (some notAbove) crewmates rfl rfl
    (by intro n hn; cases hn; decide) hno (by decide +kernel) (by decide +kernel)
    (by rfl) (by rfl)
  exact ⟨hgreater, hatMost, by decide +kernel, by decide +kernel⟩

end Demo

end Storyworld
