import Storyworld.Demo
import Storyworld.Proofs.ArrayItems
import Storyworld.Proofs.CommandSequences

/-! Arrays as windows on a history. Cutting an array to its length after every item that is added
comes to one cut of all that was ever in it, so that the oldest items are always the first to go. -/

namespace Storyworld

variable {p : Parameter} {operator : Text} {items : List Value}
  {commands : List (Text × Option Text)}

namespace ArrayConfig

variable {c : ArrayConfig}

theorem fit_suffix (c : ArrayConfig) (items : List Value) : c.fit items <:+ items := by
  rw [fit]
  split
  · exact List.suffix_refl items
  · exact List.drop_suffix _ items

theorem length_fit (c : ArrayConfig) (items : List Value) :
    (c.fit items).length = min (c.maxLength.getD items.length) items.length := by
  rw [fit]
  cases c.maxLength with
  | none => simp
  | some n =>
    rw [List.length_drop, Option.getD_some]
    omega

/-- A cut that comes before more items makes no difference to one that comes after them. -/
theorem fit_append (c : ArrayConfig) (items more : List Value) :
    c.fit (c.fit items ++ more) = c.fit (items ++ more) := by
  cases hmax : c.maxLength with
  | none => simp only [fit, hmax]
  | some n =>
    have hkept : (items.drop (items.length - n)).length = min n items.length := by
      rw [List.length_drop]
      omega
    have hitems : items.length - n + (min n items.length + more.length - n) =
        items.length + more.length - n := by omega
    have hmore : min n items.length + more.length - n - min n items.length =
        items.length + more.length - n - items.length := by omega
    simp only [fit, hmax, List.length_append, hkept, List.drop_append, List.drop_drop, hitems, hmore]

theorem run_addItem (hop : (ArrayOperator.ofText operator).1 = some .addItem)
    (items : List Value) (literal : Option Text) :
    c.run items operator literal =
      decodeLiteral literal >>= fun v => c.checkItem v >>= fun item => .ok (items ++ [item]) := by
  unfold run
  split <;> rename_i hname <;> rw [hname] at hop <;> first | rfl | cases hop

end ArrayConfig

/-- The command adds an item. -/
def Adds (command : Text × Option Text) : Prop :=
  (ArrayOperator.ofText command.1).1 = some .addItem

instance : DecidablePred Adds := fun command =>
  inferInstanceAs (Decidable ((ArrayOperator.ofText command.1).1 = some .addItem))

namespace Parameter

/-- The values of those commands that are accepted when all are given one after another, in order. -/
def acceptedValues (p : Parameter) (current : Value) :
    List (Text × Option Text) → Except OperatorError (List Value)
  | [] => .ok []
  | command :: commands =>
    match p.apply current command.1 command.2 with
    | .ok next => do
      let value ← decodeLiteral command.2
      let later ← p.acceptedValues next commands
      .ok (value :: later)
    | .error (.refused _) => p.acceptedValues current commands
    | .error e => .error e

/-- An accepted command puts its value behind the items that are there. -/
theorem apply_adds {command : Text × Option Text} {next : Value} (htype : p.type = .array)
    (hadds : Adds command) (h : p.apply (.list items) command.1 command.2 = .ok next) :
    ∃ item, decodeLiteral command.2 = .ok item ∧
      next = .list (p.arrayConfig.fit (items ++ [item])) := by
  simp only [apply, htype, applyArray, startItems] at h
  obtain ⟨found, hrun, hnext⟩ := bind_eq_ok h
  rw [ArrayConfig.run_addItem hadds] at hrun
  obtain ⟨value, hvalue, hrun⟩ := bind_eq_ok hrun
  obtain ⟨item, hitem, hrun⟩ := bind_eq_ok hrun
  obtain ⟨hsame, -⟩ := ArrayConfig.checkItem_eq_ok_iff.mp hitem
  obtain rfl := Except.ok.inj hrun
  exact ⟨item, hsame ▸ hvalue, (Except.ok.inj hnext).symm⟩

end Parameter

/-- What commands that add items leave of a list: as it was if none is accepted, else the newest of
all items that were in it, as many as the array holds. It fails only where a command does. -/
theorem additions_slide (htype : p.type = .array) (hadds : ∀ command ∈ commands, Adds command)
    (items : List Value) :
    commands.foldlM p.follow (.list items) =
        (p.acceptedValues (.list items) commands).map (fun added =>
          .list (if added = [] then items else p.arrayConfig.fit (items ++ added))) ∧
      ∀ history : List Value, p.arrayConfig.fit history <:+ history ∧
        (p.arrayConfig.fit history).length =
          min (p.arrayConfig.maxLength.getD history.length) history.length := by
  refine ⟨?_, fun history => ⟨p.arrayConfig.fit_suffix history, p.arrayConfig.length_fit history⟩⟩
  -- Over any list: after an accepted command the rest starts from the window so far.
  induction commands generalizing items with
  | nil => rfl
  | cons command commands ih =>
    obtain ⟨hfirst, hrest⟩ := List.forall_mem_cons.mp hadds
    rw [List.foldlM_cons, Parameter.acceptedValues, Parameter.follow]
    cases happly : p.apply (.list items) command.1 command.2 with
    | error e =>
      cases e with
      | refused why => exact ih hrest items
      | overlong => rfl
      | tooLarge => rfl
    | ok next =>
      obtain ⟨item, hitem, rfl⟩ := Parameter.apply_adds htype hfirst happly
      have hlater := ih hrest (p.arrayConfig.fit (items ++ [item]))
      simp only [hitem]
      show commands.foldlM p.follow _ = _
      rw [hlater]
      cases p.acceptedValues (.list (p.arrayConfig.fit (items ++ [item]))) commands with
      | error e => rfl
      | ok added =>
        show Except.ok (Value.list _) = Except.ok (Value.list _)
        by_cases hnone : added = []
        · rw [hnone, if_pos rfl, if_neg (List.cons_ne_nil item [])]
        · rw [if_neg hnone, if_neg (List.cons_ne_nil item added), ArrayConfig.fit_append,
            List.append_assoc, List.singleton_append]

namespace Demo

/-- Marks, of which the last two are kept. -/
def marks : Parameter :=
  { parameter "marks" .scene .array (.list []) with arrayConfig := ⟨.number, some 2, none⟩ }

/-- An over-long list, and a refused addition between two accepted ones. -/
theorem marks_slide :
    ([("add_item", some "7"), ("add_item", some "seven"), (" Add_Item :", some " 8")] :
        List (Text × Option Text)).foldlM marks.follow
          (.list [.int 1, .int 2, .int 3]) = .ok (.list [.int 7, .int 8]) := by
  have hadds : ∀ command ∈ ([("add_item", some "7"), ("add_item", some "seven"),
      (" Add_Item :", some " 8")] : List (Text × Option Text)), Adds command := by
    decide +kernel
  rw [(additions_slide rfl hadds [.int 1, .int 2, .int 3]).1]
  rfl

end Demo

end Storyworld
