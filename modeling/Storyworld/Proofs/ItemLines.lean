import Storyworld.Block.Item
import Storyworld.Proofs.TextParts

/-! Items written line by line and read again. Blanks around the lines, line breaks among them, do
not matter to the items of a text. -/

namespace Storyworld

variable {items : List Item} {cs gap label line value : List Code}
  {name : Text} {note : Option Text}

def Blank (gap : List Code) : Prop := ∀ c ∈ gap, isBlank c = true

instance : DecidablePred Blank := fun gap =>
  decidable_of_iff (gap.all isBlank = true) List.all_eq_true

/-- Text within a line and outside of tags. -/
def Inline (cs : List Code) : Prop := ∀ c ∈ cs, isLineBreak c = false ∧ c ≠ '<'

instance : DecidablePred Inline := fun cs =>
  decidable_of_iff (cs.all (fun c => !isLineBreak c && c != '<') = true) (by simp [Inline])

theorem Inline.append (hcs : Inline cs) (hline : Inline line) : Inline (cs ++ line) :=
  List.forall_mem_append.mpr ⟨hcs, hline⟩

theorem Inline.untagged (h : Inline cs) : .char '<' ∉ cs := fun hmem => (h '<' hmem).2 rfl

theorem Blank.untagged (h : Blank gap) : .char '<' ∉ gap := fun hmem => absurd (h '<' hmem) (by decide)

/-- The items of a text, newest first, on top of those of the text before it. -/
def addLines (items : List Item) (cs : List Code) : List Item := (lines cs).foldl addLine items

theorem addLine_congr (h : trim line = trim cs) : addLine items line = addLine items cs := by
  unfold addLine
  rw [h]

theorem addLine_blank (h : Blank line) : addLine items line = items := by
  have htrim : trim line = trim [] := trimWith_append_right h []
  rw [addLine_congr htrim]
  rfl

theorem foldl_addLine_blank {ls : List (List Code)} (h : ∀ l ∈ ls, Blank l) :
    ls.foldl addLine items = items := by
  induction ls with
  | nil => rfl
  | cons l ls ih =>
    obtain ⟨hl, hls⟩ := List.forall_mem_cons.mp h
    rw [List.foldl_cons, addLine_blank hl, ih hls]

theorem addLines_cons_blank {c : Code} (hc : isBlank c = true) (cs : List Code) :
    addLines items (c :: cs) = addLines items cs := by
  cases hbreak : isLineBreak c with
  | true =>
    obtain ⟨ls, hlines, rfl | hls⟩ := lines_break hbreak cs
    · rw [addLines, hlines]
      rfl
    · rw [addLines, hlines, hls]
      rfl
  | false =>
    have htrim : trim (c :: (lines cs).headD []) = trim ((lines cs).headD []) :=
      trimWith_cons hc _
    rw [addLines, lines_cons hbreak, List.foldl_cons, addLine_congr htrim, addLines]
    cases lines cs with
    | nil => rfl
    | cons l ls => rfl

theorem addLines_blank_append (h : Blank gap) (cs : List Code) :
    addLines items (gap ++ cs) = addLines items cs := by
  induction gap with
  | nil => rfl
  | cons c gap ih =>
    obtain ⟨hc, hgap⟩ := List.forall_mem_cons.mp h
    rw [List.cons_append, addLines_cons_blank hc, ih hgap]

/-- Blanks with a line break among them end the line before them. -/
theorem exists_lines_turn (h : Blank gap) (hbreak : ∃ c ∈ gap, isLineBreak c = true)
    (cs : List Code) : ∃ l ls, lines (gap ++ cs) = l :: ls ∧ Blank l ∧
      ∀ items, ls.foldl addLine items = addLines items cs := by
  induction gap with
  | nil => simp at hbreak
  | cons c gap ih =>
    obtain ⟨-, hgap⟩ := List.forall_mem_cons.mp h
    cases hc : isLineBreak c with
    | true =>
      obtain ⟨ls, hlines, hls⟩ := lines_break hc (gap ++ cs)
      refine ⟨[], ls, hlines, List.forall_mem_nil _, fun items => ?_⟩
      -- If the break takes a line feed with it, that would have been one more empty line.
      rw [← addLines_blank_append hgap, addLines]
      rcases hls with rfl | hls
      · rfl
      · rw [← hls]
        rfl
    | false =>
      obtain ⟨d, hd, hbreak⟩ := hbreak
      have hmem : d ∈ gap := by
        rcases List.mem_cons.mp hd with rfl | hd
        · exact absurd hbreak (by simp [hc])
        · exact hd
      obtain ⟨l, ls, hlines, hl, hls⟩ := ih hgap ⟨d, hmem, hbreak⟩
      refine ⟨c :: l, ls, ?_, List.forall_mem_cons.mpr ⟨h c List.mem_cons_self, hl⟩, hls⟩
      rw [List.cons_append, lines_cons hc, hlines]
      rfl

theorem addLines_line (hne : line ≠ []) (hline : Inline line) (h : Blank gap) :
    addLines items (line ++ gap) = addLine items line := by
  have hunbroken : ∀ c ∈ line, isLineBreak c = false := fun c hc => (hline c hc).1
  have hblank : ∀ l ∈ lines gap, Blank l := fun l hl c hc =>
    h c (((lines_isInfix gap).1 l hl).subset hc)
  have hfirst : Blank ((lines gap).headD []) := by
    cases hlines : lines gap with
    | nil => exact List.forall_mem_nil _
    | cons l ls => exact hblank l (hlines ▸ List.mem_cons_self)
  have htrim : trim (line ++ (lines gap).headD []) = trim line := trimWith_append_right hfirst line
  rw [addLines, lines_append hne hunbroken, List.foldl_cons, addLine_congr htrim]
  exact foldl_addLine_blank fun l hl => hblank l (List.mem_of_mem_tail hl)

theorem addLines_turn (hne : line ≠ []) (hline : Inline line) (h : Blank gap)
    (hbreak : ∃ c ∈ gap, isLineBreak c = true) (cs : List Code) :
    addLines items (line ++ (gap ++ cs)) = addLines (addLine items line) cs := by
  have hunbroken : ∀ c ∈ line, isLineBreak c = false := fun c hc => (hline c hc).1
  obtain ⟨l, ls, hlines, hl, hls⟩ := exists_lines_turn h hbreak cs
  have htrim : trim (line ++ l) = trim line := trimWith_append_right hl line
  rw [addLines, lines_append hne hunbroken, hlines, List.headD_cons, List.tail_cons,
    List.foldl_cons, addLine_congr htrim, hls]

/-! What one line says. -/

theorem addLine_bullet (hne : cs ≠ []) (htrim : trim cs = cs) :
    addLine items ('-' :: ' ' :: cs) = ⟨cs, []⟩ :: items := by
  have hdash : trim [.char '-'] = [.char '-'] := by decide
  have hline : trim (.char '-' :: .char ' ' :: cs) = .char '-' :: .char ' ' :: cs :=
    trimWith_append hdash htrim (List.cons_ne_nil _ _) hne [' ']
  have hhead : trim (trimStart isBullet ('-' :: ' ' :: cs)) = cs := by
    change trim (' ' :: cs) = cs
    rw [trim, trimWith_cons (by decide), ← trim, htrim]
  unfold addLine
  rw [hline]
  cases items with
  | nil => exact congrArg (fun head => [Item.mk head []]) hhead
  | cons last older => exact congrArg (fun head => ⟨head, []⟩ :: last :: older) hhead

theorem Inline.bullet (h : Inline cs) : Inline ('-' :: ' ' :: cs) := by
  have hdash : Inline ['-', ' '] := by decide
  exact hdash.append h

/-- A line with a dash is an item, whatever blanks are around it. -/
theorem listItems_bullet {before after : List Code} (hbefore : Blank before) (hafter : Blank after)
    (hne : cs ≠ []) (htrim : trim cs = cs) (hinline : Inline cs) :
    listItems (before ++ (.char '-' :: .char ' ' :: cs ++ after)) = [⟨cs, []⟩] := by
  change (addLines [] (before ++ _)).reverse = _
  rw [addLines_blank_append hbefore, addLines_line (List.cons_ne_nil _ _) hinline.bullet hafter,
    addLine_bullet hne htrim]
  rfl

/-- Words that can stand as a label in front of a colon. -/
structure IsLabel (label : List Code) : Prop where
  ne_nil : label ≠ []
  trimmed : trim label = label
  colonless : ∀ c ∈ label, isColon c = false
  inline : Inline label
  length_le : label.length ≤ 32

instance : DecidablePred IsLabel := fun label =>
  decidable_of_iff (label ≠ [] ∧ trim label = label ∧ label.all (!isColon ·) = true ∧
    Inline label ∧ label.length ≤ 32)
    ⟨fun ⟨hne, htrim, hall, hinline, hle⟩ => ⟨hne, htrim, by simpa using hall, hinline, hle⟩,
      fun ⟨hne, htrim, hall, hinline, hle⟩ => ⟨hne, htrim, by simpa using hall, hinline, hle⟩⟩

def labelled (label value : List Code) : List Code := label ++ .char ':' :: .char ' ' :: value

theorem splitLabel?_labelled (h : IsLabel label) (hvalue : trim value = value) :
    splitLabel? (labelled label value) = some (label, value) := by
  have hcolon : isColon ':' = true := by decide
  have hpos : ∀ c ∈ label, (!isColon c) = true := fun c hc => by rw [h.colonless c hc]; rfl
  have hbefore : (labelled label value).takeWhile (!isColon ·) = label := by
    rw [labelled, List.takeWhile_append_of_pos hpos, List.takeWhile_cons_of_neg (by simp [hcolon]),
      List.append_nil]
  have hafter : (labelled label value).dropWhile (!isColon ·) = .char ':' :: .char ' ' :: value := by
    rw [labelled, List.dropWhile_append_of_pos hpos, List.dropWhile_cons_of_neg (by simp [hcolon])]
  have hspace : trim (' ' :: value) = value := by
    rw [trim, trimWith_cons (by decide), ← trim, hvalue]
  have hlength : ¬ 32 < label.length := by
    have hle := h.length_le
    omega
  simp [splitLabel?, hbefore, hafter, trimEnd_eq_self h.trimmed, h.trimmed, hspace, h.ne_nil,
    hlength]

theorem IsLabel.trim_labelled (h : IsLabel label) (hne : value ≠ []) (hvalue : trim value = value) :
    trim (labelled label value) = labelled label value :=
  trimWith_append h.trimmed hvalue h.ne_nil hne [.char ':', .char ' ']

/-- A labelled line adds to the newest item. -/
theorem addLine_labelled (h : IsLabel label) (hbullet : label.head?.any isBullet = false)
    (hne : value ≠ []) (hvalue : trim value = value) (last : Item) (older : List Item) :
    addLine (last :: older) (labelled label value) =
      ⟨last.head, last.attributes.put (squash label) (Text.ofList value)⟩ :: older := by
  have htrim := h.trim_labelled hne hvalue
  have hsplit := splitLabel?_labelled h hvalue
  obtain ⟨c, rest, rfl⟩ := List.exists_cons_of_ne_nil h.ne_nil
  have hfirst : isBullet c = false := hbullet
  simp only [labelled, List.cons_append] at htrim hsplit ⊢
  unfold addLine
  rw [htrim]
  simp only [hfirst, hsplit]
  rfl

/-! The name in the head of an item, and the note behind it. -/

/-- Words that can stand as a name or as a note: nothing in them ends the line, begins a tag or
belongs to a note, and nothing is cut off their ends. -/
structure PlainWords (s : Text) : Prop where
  ne_empty : s ≠ ""
  inline : Inline s.toList
  unbracketed : ∀ c ∈ s.toList, isOpening c = false ∧ isClosing c = false
  first : ∀ c ∈ s.toList.head?, isBlank c = false ∧ isMark c = false
  last : ∀ c ∈ s.toList.getLast?, isBlank c = false ∧ isMark c = false

instance : DecidablePred PlainWords := fun s =>
  decidable_of_iff (s ≠ "" ∧ Inline s.toList ∧
    s.toList.all (fun c => !isOpening c && !isClosing c) = true ∧
    s.toList.head?.all (fun c => !isBlank c && !isMark c) = true ∧
    s.toList.getLast?.all (fun c => !isBlank c && !isMark c) = true)
    ⟨fun ⟨hne, hinline, hall, hfirst, hlast⟩ => ⟨hne, hinline, by simpa using hall,
        by simpa [Option.all_eq_true] using hfirst, by simpa [Option.all_eq_true] using hlast⟩,
      fun ⟨hne, hinline, hall, hfirst, hlast⟩ => ⟨hne, hinline, by simpa using hall,
        by simpa [Option.all_eq_true] using hfirst, by simpa [Option.all_eq_true] using hlast⟩⟩

namespace PlainWords

variable {s : Text}

theorem toList_ne_nil (h : PlainWords s) : s.toList ≠ [] := by
  simpa using h.ne_empty

theorem trim_eq (h : PlainWords s) : trim s.toList = s.toList :=
  trimWith_eq_self_iff.mpr ⟨fun c hc => (h.first c hc).1, fun c hc => (h.last c hc).1⟩

theorem unquote_eq (h : PlainWords s) : unquote s.toList = s.toList := by
  have hmarks : trimWith isMark s.toList = s.toList :=
    trimWith_eq_self_iff.mpr ⟨fun c hc => (h.first c hc).2, fun c hc => (h.last c hc).2⟩
  rw [unquote, h.trim_eq, hmarks, h.trim_eq]

end PlainWords

/-- A name, with a note in parentheses if there is one. -/
def noted (name : Text) : Option Text → List Code
  | none => name.toList
  | some note => name.toList ++ .char ' ' :: .char '(' :: (note.toList ++ [.char ')'])

theorem noted_ne_nil (hname : PlainWords name) : noted name note ≠ [] := by
  cases note <;> simp [noted, hname.ne_empty]

theorem trim_noted (hname : PlainWords name) : trim (noted name note) = noted name note := by
  cases note with
  | none => exact hname.trim_eq
  | some note =>
    have hend : trim [.char ')'] = [.char ')'] := by decide
    exact trimWith_append hname.trim_eq hend hname.toList_ne_nil (List.cons_ne_nil _ _)
      (' ' :: '(' :: note.toList)

theorem trailingNote?_none (hname : PlainWords name) : trailingNote? (noted name none) = none := by
  have hlast : ∀ c ∈ name.toList.reverse.head?, isClosing c = false := by
    intro c hc
    rw [List.head?_reverse] at hc
    exact (hname.unbracketed c (List.mem_of_getLast? hc)).2
  rw [trailingNote?, noted, trimEnd_eq_self hname.trim_eq]
  split
  · rfl
  · rename_i c before hrev
    rw [hrev] at hlast
    rw [hlast c rfl]
    rfl

theorem trailingNote?_some {note : Text} (hname : PlainWords name) (hnote : PlainWords note) :
    trailingNote? (noted name (some note)) = some (name.toList, note.toList) := by
  have hspace : trimEnd isBlank (name.toList ++ [.char ' ']) = name.toList := by
    have hblank : Blank [' '] := by decide
    rw [trimEnd_append_right hblank, trimEnd_eq_self hname.trim_eq]
  have hinside : ∀ c ∈ note.toList.reverse, (!isOpening c && !isClosing c) = true := by
    intro c hc
    obtain ⟨hopening, hclosing⟩ := hnote.unbracketed c (List.mem_reverse.mp hc)
    rw [hopening, hclosing]
    rfl
  have hend : (trimEnd isBlank (noted name (some note))).reverse =
      .char ')' :: (note.toList.reverse ++ .char '(' :: (name.toList ++ [Code.char ' ']).reverse) := by
    rw [trimEnd_eq_self (trim_noted hname)]
    simp [noted]
  have hclosing : isClosing ')' = true := by decide
  have hopening : isOpening '(' = true := by decide
  rw [trailingNote?, hend]
  simp only [hclosing, Bool.not_true, Bool.false_eq_true, if_false,
    List.dropWhile_append_of_pos hinside, List.takeWhile_append_of_pos hinside]
  rw [List.dropWhile_cons_of_neg (by simp [hopening]),
    List.takeWhile_cons_of_neg (by simp [hopening])]
  simp only [hopening, if_true, List.append_nil, List.reverse_reverse, hspace, hnote.trim_eq]

/-- The head of an item whose label announces a name. -/
theorem entityRef_labelled (h : IsLabel label)
    (hannounces : nameLabels.contains (Text.ofList (lower label)) = true)
    (hname : PlainWords name) (hnote : ∀ n ∈ note, PlainWords n) :
    entityRef (labelled label (noted name note)) = (name, note) := by
  have htrim : trim (noted name note) = noted name note := trim_noted hname
  have hsplit := splitLabel?_labelled h htrim
  have hunquote : Text.ofList (unquote name.toList) = name := by
    rw [hname.unquote_eq, Text.ofList_toList]
  simp only [entityRef, hsplit, hannounces, if_true]
  cases note with
  | none =>
    rw [trailingNote?_none hname]
    exact congrArg (·, none) hunquote
  | some note =>
    have hplain := hnote note rfl
    have hne : note.toList.isEmpty = false := by simpa using hplain.ne_empty
    rw [trailingNote?_some hname hplain]
    simp only [hunquote, hne, Bool.false_eq_true, if_false, Text.ofList_toList]

theorem inline_noted (hname : PlainWords name) (hnote : ∀ n ∈ note, PlainWords n) :
    Inline (noted name note) := by
  cases note with
  | none => exact hname.inline
  | some note =>
    have hopening : Inline [' ', '('] := by decide
    have hclosing : Inline [')'] := by decide
    exact hname.inline.append (hopening.append ((hnote note rfl).inline.append hclosing))

theorem IsLabel.inline_labelled (h : IsLabel label) (hvalue : Inline value) :
    Inline (labelled label value) := by
  have hcolon : Inline [':', ' '] := by decide
  exact h.inline.append (hcolon.append hvalue)

/-! An item as a whole: a dash, a labelled name and its note, and perhaps one more line. -/

/-- The blanks around what is written. The lines of an item are separated by a line break of any
kind. -/
structure Spacing where
  between : List Code
  before : List Code
  turn : List Code
  after : List Code
  blank : ∀ gap ∈ [between, before, turn, after], Blank gap
  breaks : ∃ c ∈ turn, isLineBreak c = true

structure ItemText where
  label : Text
  name : Text
  note : Option Text
  /-- A label and a value in a line of their own. -/
  extra : Option (Text × Text)

namespace ItemText

variable {t : ItemText}

structure Plain (t : ItemText) : Prop where
  label : IsLabel t.label.toList
  name : PlainWords t.name
  note : ∀ n ∈ t.note, PlainWords n
  key : ∀ a ∈ t.extra, IsLabel a.1.toList ∧ a.1.toList.head?.any isBullet = false
  value : ∀ a ∈ t.extra, PlainWords a.2

def head (t : ItemText) : List Code := labelled t.label.toList (noted t.name t.note)

def written (spacing : Spacing) (t : ItemText) : List Code :=
  spacing.before ++ (.char '-' :: .char ' ' :: t.head ++ match t.extra with
    | none => spacing.after
    | some a => spacing.turn ++ (labelled a.1.toList a.2.toList ++ spacing.after))

/-- The item that is read out of the text. -/
def item (t : ItemText) : Item :=
  ⟨t.head, t.extra.toList.map fun a => (squash a.1.toList, a.2)⟩

theorem Plain.inline_head (h : t.Plain) : Inline t.head :=
  h.label.inline_labelled (inline_noted h.name h.note)

theorem Plain.inline_extra (h : t.Plain) {a : Text × Text} (ha : t.extra = some a) :
    Inline (labelled a.1.toList a.2.toList) :=
  (h.key a ha).1.inline_labelled (h.value a ha).inline

theorem Plain.untagged_written (h : t.Plain) (spacing : Spacing) : .char '<' ∉ t.written spacing := by
  have hbefore : .char '<' ∉ spacing.before := (spacing.blank _ (by simp)).untagged
  have hturn : .char '<' ∉ spacing.turn := (spacing.blank _ (by simp)).untagged
  have hafter : .char '<' ∉ spacing.after := (spacing.blank _ (by simp)).untagged
  have hhead := h.inline_head.bullet.untagged
  cases hextra : t.extra with
  | none =>
    simp only [written, hextra, List.mem_append, hbefore, hhead, hafter, or_self,
      not_false_eq_true]
  | some a =>
    have hline := (h.inline_extra hextra).untagged
    simp only [written, hextra, List.mem_append, hbefore, hhead, hturn, hline, hafter, or_self,
      not_false_eq_true]

/-- One item is read out of the text of an item, with the line that belongs to it. -/
theorem Plain.listItems_written (h : t.Plain) (spacing : Spacing) :
    listItems (t.written spacing) = [t.item] := by
  have hbefore : Blank spacing.before := spacing.blank _ (by simp)
  have hturn : Blank spacing.turn := spacing.blank _ (by simp)
  have hafter : Blank spacing.after := spacing.blank _ (by simp)
  have hne : t.head ≠ [] := by simp [head, labelled]
  have htrim : trim t.head = t.head :=
    h.label.trim_labelled (noted_ne_nil h.name) (trim_noted h.name)
  cases hextra : t.extra with
  | none =>
    rw [written, item, hextra]
    exact listItems_bullet hbefore hafter hne htrim h.inline_head
  | some a =>
    obtain ⟨hkey, hfirst⟩ := h.key a hextra
    have hvalue := h.value a hextra
    have hempty : labelled a.1.toList a.2.toList ≠ [] := by simp [labelled]
    change (addLines [] (t.written spacing)).reverse = _
    rw [written, item, hextra, addLines_blank_append hbefore,
      addLines_turn (List.cons_ne_nil _ _) h.inline_head.bullet hturn spacing.breaks,
      addLine_bullet hne htrim, addLines_line hempty (h.inline_extra hextra) hafter,
      addLine_labelled hkey hfirst hvalue.toList_ne_nil hvalue.trim_eq, Text.ofList_toList]
    rfl

end ItemText

end Storyworld
