import Storyworld.Proofs.ArchiveRun
import Storyworld.Proofs.RoundTrip

/-! A turn apart from its index: what a check and an edit make of the values that are given for its
parts. Where no half is among these, a history stays readable. -/

namespace Storyworld

open Codec Record

namespace Checked

variable {α β : Type}

@[simp] theorem toOption_map (f : α → β) (c : Checked α) : (c.map f).toOption = c.toOption.map f := by
  cases c <;> rfl

@[simp] theorem toOption_under (segment : Text) (c : Checked α) :
    (c.under segment).toOption = c.toOption := by
  cases c <;> rfl

@[simp] theorem toOption_ap (c : Checked (α → β)) (d : Checked α) :
    (c.ap d).toOption = c.toOption.bind fun f => d.toOption.map f := by
  cases c <;> cases d <;> rfl

theorem andThen_accepted (c : Checked α) : c.andThen .accepted = c := by
  cases c <;> rfl

/-- What is checked as an option says is refused where that is none, and else accepted. -/
theorem cases_of_toOption {c : Checked β} {o : Option α} {f : α → β} (h : c.toOption = o.map f) :
    (∃ problems, c = .refused problems ∧ o = none) ∨ ∃ x, c = .accepted (f x) ∧ o = some x := by
  cases c with
  | refused problems =>
    cases o with
    | none => exact .inl ⟨problems, rfl, rfl⟩
    | some x => cases h
  | accepted b =>
    cases o with
    | none => cases h
    | some x => exact .inr ⟨x, congrArg Checked.accepted (Option.some.inj h), rfl⟩

end Checked

/-- A turn apart from its index. -/
structure Line where
  role : Role
  text : Text
  parseOutput : Option Text

def Turn.line (t : Turn) : Line := ⟨t.role, t.text, t.parseOutput⟩

namespace Line

/-- No half is in the line. -/
def isPlain (l : Line) : Bool := l.text.isPlain && l.parseOutput.all (·.isPlain)

def turn (index : Nat) (l : Line) : Turn := ⟨index, l.role, l.text, l.parseOutput⟩

@[simp] theorem line_turn (index : Nat) (l : Line) : (l.turn index).line = l := rfl

@[simp] theorem isPlain_turn (index : Nat) (l : Line) : (l.turn index).isPlain = l.isPlain := rfl

def role? : Value → Option Role
  | .text name => Role.all.find? (·.name == name)
  | _ => none

def text? : Value → Option Text
  | .text s => some s
  | _ => none

def textOrNull? : Value → Option (Option Text)
  | .null => some none
  | .text s => some (some s)
  | _ => none

/-- The line that some values make up, if they are the name of a role, a text, and a text or null. -/
def of? (role text parseOutput : Value) : Option Line :=
  (role? role).bind fun r => (text? text).bind fun s => (textOrNull? parseOutput).map (Line.mk r s)

/-- The last value that is given for a part, or else what it was. -/
def given (part : Text) (old : Value) (changes : Entries Text Value) : Value :=
  (Entries.get? part changes.reverse).getD old

def edited? (changes : Entries Text Value) (l : Line) : Option Line :=
  of? (.text l.role.name) (given "text" (.text l.text) changes)
    (given "parse_output" ((Codec.optional .text).dump l.parseOutput) changes)

end Line

theorem role_toOption (v : Value) : (Role.codec.load v).toOption = Line.role? v := by
  unfold Role.codec choice
  cases v with
  | text name =>
    simp only [Line.role?]
    cases Role.all.find? (·.name == name) <;> rfl
  | _ => rfl

theorem text_toOption (v : Value) : (text.load v).toOption = Line.text? v := by
  cases v <;> rfl

theorem optionalText_toOption (v : Value) :
    ((Codec.optional text).load v).toOption = Line.textOrNull? v := by
  cases v <;> rfl

/-- Reading a turn is reading its line, under either name of the parse output. -/
theorem load_turn {fields : Entries Text Value} {index : Nat} {role content output : Value}
    (hindex : fields.get? ("index" : Text) = some (.int index))
    (hrole : fields.get? ("role" : Text) = some role)
    (htext : fields.get? ("text" : Text) = some content)
    (hcamel : fields.get? ("parseOutput" : Text) = none)
    (hsnake : fields.get? ("parse_output" : Text) = some output) :
    (Turn.codec.load (.object fields)).toOption =
      (Line.of? role content output).map (·.turn index) := by
  have hcount : count.load (.int index) = .accepted index := count_returns index
  -- The alias is not among the fields, so the parse output is found under its own name.
  have hload : Turn.codec.load (.object fields) =
      (((Checked.accepted (Turn.mk index)).ap ((Role.codec.load role).under "role")).ap
        ((text.load content).under "text")).ap
          (((Codec.optional text).load output).under "parse_output") := by
    simp [Turn.codec, Record.codec, field, make, Key.find?, Key.plain, hindex, hrole, htext,
      hcamel, hsnake, hcount, Checked.under, Checked.ap, Checked.map, Checked.andThen_accepted]
  rw [hload, Line.of?]
  simp only [Checked.toOption_ap, Checked.toOption_under, role_toOption, text_toOption,
    optionalText_toOption]
  cases Line.role? role <;> cases Line.text? content <;> cases Line.textOrNull? output <;> rfl

theorem check_toOption (index : Nat) (role content output : Value) :
    (Turn.check index role content output).toOption =
      (Line.of? role content output).map (·.turn index) :=
  load_turn rfl rfl rfl rfl rfl

/-- The fields of a turn with those changes that concern its text or its parse output. -/
def edit (fields : Entries Text Value) (changes : Entries Text Value) : Entries Text Value :=
  changes.foldl (fun fields (key, v) =>
    if key = "text" ∨ key = "parse_output" then Entries.put key v fields else fields) fields

theorem get?_edit {part : Text} (h : part = "text" ∨ part = "parse_output")
    (fields changes : Entries Text Value) :
    (edit fields changes).get? part =
      (Entries.get? part changes.reverse).or (fields.get? part) := by
  unfold edit
  induction changes generalizing fields with
  | nil => rfl
  | cons change changes ih =>
    obtain ⟨key, v⟩ := change
    rw [List.foldl_cons, ih, List.reverse_cons, Entries.get?_append, Option.or_assoc]
    congr 1
    by_cases hkey : key = part
    · simp [hkey, h, Entries.get?_put_self, Entries.get?]
    · by_cases hpart : key = "text" ∨ key = "parse_output"
      · simp [hpart, Entries.get?_put, hkey, Entries.get?]
      · simp [hpart, hkey, Entries.get?]

theorem get?_edit_of_ne {key : Text} (h : ¬(key = "text" ∨ key = "parse_output"))
    (fields changes : Entries Text Value) : (edit fields changes).get? key = fields.get? key := by
  unfold edit
  induction changes generalizing fields with
  | nil => rfl
  | cons change changes ih =>
    obtain ⟨part, v⟩ := change
    rw [List.foldl_cons, ih]
    by_cases hpart : part = "text" ∨ part = "parse_output"
    · have hne : key ≠ part := fun he => h (he ▸ hpart)
      simp only [hpart, if_true, Entries.get?_put_of_ne fields v hne]
    · simp only [hpart, if_false]

theorem get?_edit_given {part : Text} (h : part = "text" ∨ part = "parse_output")
    {fields : Entries Text Value} {old : Value} (hold : fields.get? part = some old)
    (changes : Entries Text Value) :
    (edit fields changes).get? part = some (Line.given part old changes) := by
  rw [get?_edit h, hold, Option.or_some, Line.given]

theorem amended_toOption (t : Turn) (changes : Entries Text Value) :
    (Archive.amended t changes).toOption = (t.line.edited? changes).map (·.turn t.index) := by
  refine load_turn ?_ ?_ (get?_edit_given (.inl rfl) rfl changes) ?_
    (get?_edit_given (.inr rfl) rfl changes)
  · exact get?_edit_of_ne (by decide) _ changes
  · exact get?_edit_of_ne (by decide) _ changes
  · exact get?_edit_of_ne (by decide) _ changes

/-- Turns that can be encoded are encoded with another one among them if that can be. -/
theorem all_set {turns : List Turn} (h : turns.all (·.isPlain) = true) {i : Nat}
    (hi : i < turns.length) (t : Turn) : (turns.set i t).all (·.isPlain) = t.isPlain := by
  rw [Bool.eq_iff_iff, List.all_eq_true]
  constructor
  · exact fun hall => hall t (List.mem_set hi t)
  · intro ht u hu
    rcases List.mem_or_eq_of_mem_set hu with hu | rfl
    · exact List.all_eq_true.mp h u hu
    · exact ht

theorem of?_of_check {n : Nat} {role content output : Value} {t : Turn}
    (h : Turn.check n role content output = .accepted t) :
    Line.of? role content output = some t.line := by
  have hcheck := check_toOption n role content output
  rw [h] at hcheck
  obtain ⟨l, hl, ht⟩ := Option.map_eq_some_iff.mp hcheck.symm
  rw [hl, ← ht]
  rfl

/-- No half comes into a line that is not in the values it is made of. -/
theorem Line.isPlain_of? {role content output : Value} {l : Line}
    (h : Line.of? role content output = some l) (hcontent : content.isPlain = true)
    (houtput : output.isPlain = true) : l.isPlain = true := by
  unfold Line.of? at h
  obtain ⟨r, -, h⟩ := Option.bind_eq_some_iff.mp h
  obtain ⟨s, hs, h⟩ := Option.bind_eq_some_iff.mp h
  obtain ⟨o, ho, rfl⟩ := Option.map_eq_some_iff.mp h
  have hs : s.isPlain = true := by
    cases content <;> cases hs
    exact hcontent
  have ho : o.all (·.isPlain) = true := by
    cases output <;> cases ho
    · rfl
    · exact houtput
  simp [Line.isPlain, hs, ho]

/-- What is given for a part is among the changes or was there. -/
theorem isPlain_given {part : Text} {old : Value} {changes : Entries Text Value}
    (hold : old.isPlain = true) (h : changes.all (·.2.isPlain) = true) :
    (Line.given part old changes).isPlain = true := by
  unfold Line.given
  cases hv : Entries.get? part changes.reverse with
  | none => exact hold
  | some v =>
    have hmem := Entries.mem_of_get? hv
    exact List.all_eq_true.mp h _ (List.mem_reverse.mp hmem)

/-- An operation that gives no half writes none into a history where none is. -/
theorem Rewrites.plain {op : Operation} {turns next : List Turn}
    {settle : Conversation → Conversation} (h : Rewrites turns op next settle)
    (hop : op.isPlain = true) (hturns : turns.all (·.isPlain) = true) :
    next.all (·.isPlain) = true := by
  cases h with
  | append hcheck =>
    obtain ⟨htext, houtput⟩ := Bool.and_eq_true_iff.mp hop
    have hline := Line.isPlain_of? (of?_of_check hcheck) htext houtput
    rw [List.all_append, hturns, Bool.true_and, List.all_cons, List.all_nil, Bool.and_true]
    exact hline
  | @update _ _ changes i old t hold hamended =>
    have hedited := amended_toOption old changes
    rw [hamended] at hedited
    obtain ⟨l, hl, rfl⟩ := Option.map_eq_some_iff.mp hedited.symm
    have hplain : old.isPlain = true := List.all_eq_true.mp hturns _ (List.mem_of_getElem? hold)
    obtain ⟨htext, houtput⟩ := Bool.and_eq_true_iff.mp hplain
    obtain ⟨hi, -⟩ := List.getElem?_eq_some_iff.mp hold
    rw [all_set hturns hi]
    refine Line.isPlain_of? hl (isPlain_given htext hop) (isPlain_given ?_ hop)
    exact isPlain_optionalText _ ▸ houtput
  | truncate =>
    rw [List.all_eq_true]
    exact fun t ht => List.all_eq_true.mp hturns t (List.mem_of_mem_take ht)

/-- A history that can be read, with no half in it. -/
def Conversation.Legible (c : Conversation) : Prop := c.Encodable ∧ ∃ turns, c.turns = .ok turns

namespace Archive

variable {a : Archive}

theorem legible_after (h : a.All Conversation.Legible) {op : Operation} (hop : op.isPlain = true) :
    (a.after op).All Conversation.Legible := by
  refine h.step (a.step_attempt op) (fun _ => ⟨nofun, [], rfl⟩) (fun _ _ hc => hc) ?_ ?_
  · intro c turns next settle hc hturns hrewrites hhalf
    rw [hrewrites.plain hop (hc.1.turns hturns)] at hhalf
    cases hhalf
  · intro c turns next settle _ _ hrewrites hplain
    exact ⟨hrewrites.encodable hplain c, next, hrewrites.turns_settle (c.write next)⟩

/-- Where no half is given, every history can be read. -/
theorem legible_run {ops : List Operation} (h : a.All Conversation.Legible)
    (hops : ∀ op ∈ ops, op.isPlain = true) : (a.run ops).All Conversation.Legible := by
  induction ops generalizing a with
  | nil => exact h
  | cons op ops ih =>
    exact ih (legible_after h (hops op List.mem_cons_self))
      fun next hnext => hops next (List.mem_cons_of_mem op hnext)

/-- An operation that fails to encode a history was given a half, and leaves this history empty. -/
theorem after_of_unencodable (h : a.All Conversation.Encodable) {op : Operation}
    (he : (a.attempt op).1 = .error .unencodable) : op.isPlain = false ∧
      ∃ c, Entries.get? op.slug a = some c ∧ a.after op = Entries.put op.slug c.emptied a := by
  have hs := a.step_attempt op
  unfold after
  generalize a.attempt op = r at he hs ⊢
  cases hs with
  | refused e hne => exact absurd (Except.error.inj he) hne
  | stay | begin | erase | checkpoint => cases he
  | history hr => cases hr with
    | refused e hne => exact absurd (Except.error.inj he) hne
    | written => cases he
    | emptied hc hturns hrewrites hhalf =>
      refine ⟨?_, _, hc, rfl⟩
      cases hop : op.isPlain with
      | false => rfl
      | true => exact (hrewrites.plain hop ((h _ _ hc).turns hturns)).symm.trans hhalf

end Archive

end Storyworld
