import Storyworld.Proofs.LeftmostCalls

/-! A call written on a new line is found there, whatever stands before it and behind it. -/

namespace Storyworld

def ArgumentState.Sound : ArgumentState → Prop
  | .quoted mark _ => isQuote mark = true
  | _ => True

namespace Call

def escaped (mark : Code) (said : List Code) : List Code :=
  said.flatMap fun c => if c = mark then ['\\', c] else [c]

/-- A text between quotation marks, with a backslash in front of each such mark in it. -/
def quotedWith (mark : Code) (text : Text) : Text :=
  Text.ofList (mark :: (escaped mark text.toList ++ [mark]))

/-- The call with these arguments, each with the mark it is put in. -/
def written (args : List (Code × Text)) : Text :=
  "ce.set(" ++ Text.intercalate ", " (args.map fun a => quotedWith a.1 a.2) ++ ")"

structure Quotable (mark : Code) (text : Text) : Prop where
  isQuote_mark : isQuote mark = true
  one_line : .char '\n' ∉ text.toList
  no_backslash : text.toList.getLast? ≠ some '\\'

instance (mark : Code) (text : Text) : Decidable (Quotable mark text) :=
  decidable_of_iff (isQuote mark = true ∧ .char '\n' ∉ text.toList ∧ text.toList.getLast? ≠ some '\\')
    ⟨fun h => ⟨h.1, h.2.1, h.2.2⟩, fun h => ⟨h.isQuote_mark, h.one_line, h.no_backslash⟩⟩

/-- A new line on which a call is begun. -/
def callLine (cs : List Code) : List Code :=
  '\n' :: 'c' :: 'e' :: '.' :: 's' :: 'e' :: 't' :: '(' :: cs

variable {cs rest u w : List Code} {args acc : List Text} {mark : Code} {st : ArgumentState}
  {pairs : List (Code × Text)}

theorem quotedBody_escape {said : List Code} (hquote : isQuote mark = true) (hline : .char '\n' ∉ said)
    (hback : said.getLast? ≠ some '\\') :
    QuotedBody mark (escaped mark said ++ [mark]) said := by
  induction said with
  | nil => exact .close
  | cons c said ih =>
    have hlast : said.getLast? ≠ some '\\' := by
      intro h
      exact hback (by rw [List.getLast?_cons, h]; rfl)
    have hrest := ih (List.not_mem_of_not_mem_cons hline) hlast
    by_cases hc : c = mark
    · subst hc
      simpa [escaped] using hrest.escaped
    · have hescape : ¬ (c = '\\' ∧ (escaped mark said ++ [mark]).head? = some mark) := by
        rintro ⟨rfl, hhead⟩
        cases said with
        | nil => exact hback rfl
        | cons d said => by_cases hd : d = mark <;> simp_all [escaped]
      have hnewline : c ≠ '\n' := fun h => hline (h ▸ List.mem_cons_self)
      simpa [escaped, hc] using hrest.plain hc hnewline hescape

theorem Quotable.argument {text : Text} (h : Quotable mark text) :
    Argument (quotedWith mark text).toList text := by
  have hbody := quotedBody_escape h.isQuote_mark h.one_line h.no_backslash
  simpa [quotedWith] using Argument.quoted h.isQuote_mark hbody

theorem arguments_written (hne : pairs ≠ []) (h : ∀ a ∈ pairs, Quotable a.1 a.2) :
    Arguments ((Text.intercalate ", " (pairs.map fun a => quotedWith a.1 a.2)).toList ++ [.char ')'])
      (pairs.map Prod.snd) := by
  induction pairs with
  | nil => exact (hne rfl).elim
  | cons a pairs ih =>
    obtain ⟨ha, hpairs⟩ := List.forall_mem_cons.mp h
    cases pairs with
    | nil => simpa using ha.argument.arguments .close
    | cons b pairs =>
      have hblank : isBlank ' ' = true := by decide
      have hrest := (ih (List.cons_ne_nil b pairs) hpairs).cons hblank
      have hcall := ha.argument.arguments (.comma (.more hrest))
      simpa [Text.intercalate_cons_cons] using hcall

theorem derives_written (hne : pairs ≠ []) (h : ∀ a ∈ pairs, Quotable a.1 a.2) :
    Derives (written pairs).toList (pairs.map Prod.snd) := by
  have hhead : Head ("ce.set(" : Text).toList := .prefixed .nil .nil (.set .nil)
  simpa [written] using Derives.call hhead (arguments_written hne h)

/-- A character is the last of the call, or it is read alone, or it is a backslash in front of a
mark. -/
theorem readArguments_step (hst : st.Sound) (h : readArguments st acc cs = some (args, rest)) :
    (∃ c, cs = c :: rest) ∨ ∃ st' acc' cs',
      readArguments st' acc' cs' = some (args, rest) ∧ st'.Sound ∧
      ((∃ c, cs = c :: cs') ∨ ∃ mark, isQuote mark = true ∧ cs = .char '\\' :: mark :: cs') := by
  revert h
  fun_cases readArguments st acc cs <;> intro h
  case case2 => exact .inr ⟨_, _, _, h, hst, .inr ⟨_, hst, rfl⟩⟩
  case case3 | case6 => exact .inr ⟨_, _, _, h, hst, .inl ⟨_, rfl⟩⟩
  case case18 | case22 => exact .inr ⟨_, _, _, h, ‹isQuote _ = true›, .inl ⟨_, rfl⟩⟩
  case case10 | case14 | case17 => exact .inl ⟨_, by rw [(Prod.mk.inj (Option.some.inj h)).2]⟩
  case case4 | case7 | case8 | case9 | case12 | case13 | case16 | case19 | case21 | case23 =>
    exact .inr ⟨_, _, _, h, trivial, .inl ⟨_, rfl⟩⟩
  all_goals cases h

theorem readArguments_callLine (hst : st.Sound) : readArguments st acc (callLine w) = none := by
  cases st with
  | quoted mark taken =>
    have hmark : '\n' ≠ mark := by
      rintro rfl
      simp [ArgumentState.Sound, isQuote] at hst
    simp [callLine, readArguments, hmark]
  | _ => simp +decide [callLine, readArguments]

/-- Reading arguments stops before a new line on which a call is begun. -/
theorem length_callLine_le (hst : st.Sound)
    (h : readArguments st acc (u ++ callLine w) = some (args, rest)) :
    (callLine w).length ≤ rest.length := by
  -- A backslash takes the mark behind it along, so the text left can be shorter by two.
  induction hn : u.length using Nat.strongRecOn generalizing u st acc with
  | ind n ih =>
    cases u with
    | nil =>
      rw [List.nil_append, readArguments_callLine hst] at h
      cases h
    | cons c u =>
      obtain ⟨d, hlast⟩ | ⟨st', acc', cs', hread, hst', hstep⟩ := readArguments_step hst h
      · obtain ⟨-, rfl⟩ := List.cons.inj hlast
        simp
      rcases hstep with ⟨d, halone⟩ | ⟨mark, hmark, hpair⟩
      · obtain ⟨-, rfl⟩ := List.cons.inj halone
        exact ih u.length (by simp [← hn]) hst' hread rfl
      · obtain ⟨-, hpair⟩ := List.cons.inj hpair
        cases u with
        | nil =>
          obtain ⟨rfl, -⟩ := List.cons.inj hpair
          simp [isQuote] at hmark
        | cons e u =>
          obtain ⟨-, rfl⟩ := List.cons.inj hpair
          exact ih u.length (by simp only [List.length_cons] at hn; omega) hst' hread rfl

theorem Blanks.c_notMem (h : Blanks cs) : .char 'c' ∉ cs := by
  intro hc
  have hblank : isBlank 'c' = false := by decide
  exact Bool.false_ne_true (hblank.symm.trans (h 'c' hc))

theorem Opening.c_notMem (h : Opening cs) : .char 'c' ∉ cs := by
  cases h with
  | set hb => simp [hb.c_notMem]

theorem Head.c_notMem_tail (h : Head cs) : .char 'c' ∉ cs.tail := by
  cases h with
  | plain h => exact fun hmem => h.c_notMem (List.mem_of_mem_tail hmem)
  | prefixed hb hb' h => simp [hb.c_notMem, hb'.c_notMem, h.c_notMem]

theorem Opening.exists_concat (h : Opening cs) : ∃ v, cs = v ++ [.char '('] := by
  cases h with
  | @set b hb => exact ⟨'s' :: 'e' :: 't' :: b, rfl⟩

theorem Head.exists_concat (h : Head cs) : ∃ v, cs = v ++ [.char '('] := by
  cases h with
  | plain h => exact h.exists_concat
  | @prefixed b b' _ hb hb' h =>
    obtain ⟨v, rfl⟩ := h.exists_concat
    exact ⟨.char 'c' :: .char 'e' :: (b ++ .char '.' :: (b' ++ v)), by simp⟩

theorem afterHead?_callLine (h : afterHead? (u ++ callLine w) = some rest) :
    ∃ v, rest = v ++ callLine w := by
  obtain ⟨head, hsplit, hhead⟩ := afterHead?_eq_some_iff.mp h
  rcases List.append_eq_append_iff.mp hsplit with ⟨z, rfl, hline⟩ | ⟨v, -, hrest⟩
  · match z with
    | [] => exact ⟨[], hline.symm⟩
    | [_] =>
      obtain ⟨rfl, -⟩ := List.cons.inj hline
      obtain ⟨v, hlast⟩ := hhead.exists_concat
      simpa using congrArg List.getLast? hlast
    | _ :: _ :: z =>
      -- The head would have a `c` behind its first character.
      obtain ⟨-, hline⟩ := List.cons.inj hline
      obtain ⟨rfl, -⟩ := List.cons.inj hline
      have hc := hhead.c_notMem_tail
      cases u <;> simp at hc
  · exact ⟨v, hrest⟩

theorem length_callLine_le_of_callAt? {before : Option Code}
    (h : callAt? before (u ++ callLine w) = some (args, rest)) :
    (callLine w).length ≤ rest.length := by
  unfold callAt? at h
  split at h
  · cases h
  · obtain ⟨tail, hhead, harguments⟩ := Option.bind_eq_some_iff.mp h
    obtain ⟨v, rfl⟩ := afterHead?_callLine hhead
    have hfirst : ArgumentState.first.Sound := trivial
    exact length_callLine_le hfirst harguments

theorem Stands.stop_le_of_callLine {front : List Code} {a : Call}
    (h : Stands (front ++ callLine w) a) (hstart : a.start ≤ front.length) :
    a.stop ≤ front.length := by
  obtain ⟨done, cs, hsplit, hdone⟩ := h.exists_append
  obtain ⟨u, rfl, rfl⟩ : ∃ u, front = done ++ u ∧ cs = u ++ callLine w := by
    rcases List.append_eq_append_iff.mp hsplit with ⟨z, rfl, hline⟩ | ⟨u, hfront, hcs⟩
    · obtain rfl : z = [] := by
        rw [hdone, List.length_append] at hstart
        exact List.eq_nil_of_length_eq_zero (by omega)
      exact ⟨[], by simp, hline.symm⟩
    · exact ⟨u, hfront, hcs⟩
  obtain ⟨args, start, stop⟩ := a
  obtain rfl : start = done.length := hdone
  rw [hsplit] at h
  obtain ⟨rest, hread, rfl⟩ := stands_iff_callAt?.mp h
  have hle := length_callLine_le_of_callAt? hread
  simp only [List.length_append]
  omega

theorem mem_all_of_callLine {text : Text} {front : List Code} {a : Call}
    (htext : text.toList = front ++ callLine w) (h : Stands text.toList a)
    (hstart : a.start = front.length + 1) : a ∈ Call.all text := by
  obtain ⟨d, hd, hle, hlt⟩ := (all_leftmost text).covers a h (Nat.zero_le _)
  have hstands := (all_leftmost text).stands d hd
  have hsame : d.start = a.start := by
    rcases Nat.lt_or_ge d.start a.start with hless | hge
    · have hstop := (htext ▸ hstands).stop_le_of_callLine (by omega)
      omega
    · omega
  rw [← hstands.eq h hsame]
  exact hd

/-- A call written on a new line is found there with its arguments, whatever stands before the line
and behind the call. -/
theorem written_mem_all (before after : Text) (hne : pairs ≠ [])
    (h : ∀ a ∈ pairs, Quotable a.1 a.2) :
    ⟨pairs.map Prod.snd, (before ++ "\n").length, (before ++ "\n" ++ written pairs).length⟩ ∈
      Call.all (before ++ "\n" ++ written pairs ++ after) := by
  have htext : (before ++ "\n" ++ written pairs ++ after).toList =
      (before ++ "\n").toList ++ ((written pairs).toList ++ after.toList) := by simp
  have hread : callAt? (before ++ "\n").toList.getLast? ((written pairs).toList ++ after.toList) =
      some (pairs.map Prod.snd, after.toList) :=
    callAt?_eq_some_iff.mpr ⟨by simp [joinsHead], _, rfl, derives_written hne h⟩
  have hline : ∃ w, (before ++ "\n" ++ written pairs ++ after).toList =
      before.toList ++ callLine w := by
    simp only [written, callLine, Text.toList_append, List.append_assoc]
    exact ⟨_, rfl⟩
  obtain ⟨w, hw⟩ := hline
  refine mem_all_of_callLine hw ?_ (by simp [← Text.length_toList])
  rw [htext, ← Text.length_toList, stands_iff_callAt?]
  refine ⟨after.toList, hread, ?_⟩
  simp only [Text.length_append, List.length_append, Text.length_toList]
  omega

/-- Two arguments with marks and a backslash in them. -/
def markedArguments : List (Code × Text) := [('\x27', "it's"), ('\x22', "a\\b \"set(c)\"")]

theorem written_behind_open_text :
    (∀ a ∈ markedArguments, Quotable a.1 a.2) ∧
      ⟨["it's", "a\\b \"set(c)\""], 19, 52⟩ ∈
        Call.all "ce.set(x, 'y) ce .\nce.set('it\\'s', \"a\\b \\\"set(c)\\\"\")'z" := by
  have hquotable : ∀ a ∈ markedArguments, Quotable a.1 a.2 := by decide
  have hne : markedArguments ≠ [] := List.cons_ne_nil _ _
  have hmem := written_mem_all "ce.set(x, 'y) ce ." "'z" hne hquotable
  have htext : ("ce.set(x, 'y) ce ." : Text) ++ "\n" ++ written markedArguments =
      "ce.set(x, 'y) ce .\nce.set('it\\'s', \"a\\b \\\"set(c)\\\"\")" := by decide
  rw [htext] at hmem
  exact ⟨hquotable, hmem⟩

end Call

end Storyworld
