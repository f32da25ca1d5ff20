import Storyworld.Block.Element

/-! Elements written into a text and found there again, whatever stands behind them. -/

namespace Storyworld

variable {α β : Type} {found? : List Code → Option (α × List Code)} {finds finds' : List α}
  {same : Code → Code → Bool} {tag name body xs ys : List Code}

def element (name body : List Code) : List Code :=
  .char '<' :: (name ++ .char '>' :: (body ++ .char '<' :: .char '/' :: (name ++ [.char '>'])))

theorem element_append (name body rest : List Code) : element name body ++ rest =
    .char '<' :: (name ++ .char '>' ::
      (body ++ .char '<' :: .char '/' :: (name ++ .char '>' :: rest))) := by
  simp [element]

/-- A tag as it is written stands for the tag that is looked for. -/
def Opens (same : Code → Code → Bool) (tag name : List Code) : Prop :=
  ∀ rest, afterName? same tag (name ++ rest) = some rest

/-- Nothing that begins like this stands for the tag that is looked for. -/
def Differs (same : Code → Code → Bool) (tag name : List Code) : Prop :=
  ∀ rest, afterName? same tag (name ++ rest) = none

theorem Differs.append (h : Differs same tag xs) (ys : List Code) : Differs same tag (xs ++ ys) := by
  intro rest
  rw [List.append_assoc]
  exact h (ys ++ rest)

theorem opens_self (hsame : ∀ c, same c c = true) (name : List Code) : Opens same name name := by
  intro rest
  induction name with
  | nil => rfl
  | cons c name ih => rw [List.cons_append, afterName?, if_pos (hsame c), ih]

/-! What is found in a text is found in its parts, if no find reaches over the end of a part. -/

/-- The finds in a text, in front of those in whatever follows it. -/
def Yields (found? : List Code → Option (α × List Code)) (xs : List Code) (finds : List α) : Prop :=
  ∀ rest, leftmost found? 0 (xs ++ rest) = finds ++ leftmost found? 0 rest

theorem leftmost_eq_drop (n : Nat) (cs : List Code) :
    leftmost found? n cs = leftmost found? 0 (cs.drop n) := by
  induction cs generalizing n with
  | nil => cases n <;> rfl
  | cons c cs ih =>
    cases n with
    | zero => rfl
    | succ n => rw [leftmost, ih, List.drop_succ_cons]

namespace Yields

theorem nil : Yields found? [] [] := fun _ => rfl

theorem append (hxs : Yields found? xs finds) (hys : Yields found? ys finds') :
    Yields found? (xs ++ ys) (finds ++ finds') := by
  intro rest
  rw [List.append_assoc, hxs, hys, List.append_assoc]

theorem flatMap {text : β → List Code} {found : β → List α} {l : List β}
    (h : ∀ b ∈ l, Yields found? (text b) (found b)) :
    Yields found? (l.flatMap text) (l.flatMap found) := by
  induction l with
  | nil => exact nil
  | cons b l ih =>
    obtain ⟨hb, hl⟩ := List.forall_mem_cons.mp h
    exact hb.append (ih hl)

theorem all (h : Yields found? xs finds) : leftmost found? 0 xs = finds := by
  have hall := h []
  rwa [List.append_nil, leftmost, List.append_nil] at hall

theorem of_found {a : α} (hne : xs ≠ []) (h : ∀ rest, found? (xs ++ rest) = some (a, rest)) :
    Yields found? xs [a] := by
  intro rest
  obtain ⟨c, cs, rfl⟩ := List.exists_cons_of_ne_nil hne
  have hfound : found? (c :: (cs ++ rest)) = some (a, rest) := h rest
  -- The search goes on where the find ends.
  have hskip : (cs ++ rest).length - rest.length = cs.length := by simp
  rw [List.cons_append, leftmost, hfound]
  change a :: leftmost found? _ (cs ++ rest) = _
  rw [leftmost_eq_drop, hskip, List.drop_left]
  rfl

theorem cons {c : Code} (hc : ∀ cs, found? (c :: cs) = none) (h : Yields found? xs finds) :
    Yields found? (c :: xs) finds := by
  intro rest
  rw [List.cons_append, leftmost, hc]
  exact h rest

theorem of_notMem (hfound : ∀ c cs, c ≠ .char '<' → found? (c :: cs) = none) (h : .char '<' ∉ xs) :
    Yields found? xs [] := by
  induction xs with
  | nil => exact nil
  | cons c xs ih =>
    have hc : c ≠ '<' := (List.ne_of_not_mem_cons h).symm
    exact cons (fun cs => hfound c cs hc) (ih (List.not_mem_of_not_mem_cons h))

end Yields

theorem elementAt?_cons {c : Code} (hc : c ≠ '<') (tag cs : List Code) :
    elementAt? tag (c :: cs) = none := by
  unfold elementAt?
  split
  · rename_i h
    exact (hc (List.cons.inj h).1).elim
  · rfl

theorem anyElementAt?_cons {c : Code} (hc : c ≠ '<') (cs : List Code) :
    anyElementAt? (c :: cs) = none := by
  unfold anyElementAt?
  split
  · rename_i h
    exact (hc (List.cons.inj h).1).elim
  · rfl

theorem yields_nil_of_notMem (tag : List Code) (h : .char '<' ∉ xs) : Yields (elementAt? tag) xs [] :=
  Yields.of_notMem (fun _ cs hc => elementAt?_cons hc tag cs) h

theorem Differs.yields (h : Differs standsFor tag name) (hname : .char '<' ∉ name) :
    Yields (elementAt? tag) ('<' :: name) [] := by
  intro rest
  have hnone : elementAt? tag ('<' :: (name ++ rest)) = none := by
    rw [elementAt?, h]
    rfl
  rw [List.cons_append, leftmost, hnone]
  exact yields_nil_of_notMem tag hname rest

/-- An element with another tag has the finds of its body. -/
theorem Yields.element (hslash : Differs standsFor tag ['/']) (hdiffers : Differs standsFor tag name)
    (hname : .char '<' ∉ name) {finds : List (List Code)} (h : Yields (elementAt? tag) body finds) :
    Yields (elementAt? tag) (element name body) finds := by
  have hend : Code.char '<' ∉ [.char '>'] := by decide
  have hclosing : .char '<' ∉ .char '/' :: name := by simpa using hname
  have hfront := (hdiffers.yields hname).append (yields_nil_of_notMem tag hend)
  have hback := ((hslash.append name).yields hclosing).append (yields_nil_of_notMem tag hend)
  have hall := (hfront.append h).append hback
  simpa [Storyworld.element] using hall

/-! The body of an element ends at its own closing tag, if none stands in it. -/

/-- No closing tag for the tag is in the text or begins in it. -/
def Unclosed (same : Code → Code → Bool) (tag xs : List Code) : Prop :=
  ∀ rest, untilClosing? same tag (xs ++ rest) =
    (untilClosing? same tag rest).map fun p => (xs ++ p.1, p.2)

namespace Unclosed

theorem nil : Unclosed same tag [] := by
  intro rest
  simp

theorem append (hxs : Unclosed same tag xs) (hys : Unclosed same tag ys) :
    Unclosed same tag (xs ++ ys) := by
  intro rest
  rw [List.append_assoc, hxs, hys, Option.map_map]
  simp [Function.comp_def]

theorem flatMap {text : β → List Code} {l : List β} (h : ∀ b ∈ l, Unclosed same tag (text b)) :
    Unclosed same tag (l.flatMap text) := by
  induction l with
  | nil => exact nil
  | cons b l ih =>
    obtain ⟨hb, hl⟩ := List.forall_mem_cons.mp h
    exact hb.append (ih hl)

theorem cons {c : Code} (hc : ∀ rest, afterClosing? same tag (c :: (xs ++ rest)) = none)
    (h : Unclosed same tag xs) : Unclosed same tag (c :: xs) := by
  intro rest
  rw [List.cons_append, untilClosing?, hc, h, Option.map_map]
  rfl

theorem of_notMem (h : .char '<' ∉ xs) : Unclosed same tag xs := by
  induction xs with
  | nil => exact nil
  | cons c xs ih =>
    refine cons (fun rest => ?_) (ih (List.not_mem_of_not_mem_cons h))
    unfold afterClosing?
    split
    · rename_i he
      exact (List.ne_of_not_mem_cons h (List.cons.inj he).1.symm).elim
    · rfl

/-- An element with another tag does not close. -/
theorem element (hname : ∀ c ∈ name, isWordChar c = true) (hdiffers : Differs same tag name)
    (h : Unclosed same tag body) : Unclosed same tag (element name body) := by
  have hfree : .char '<' ∉ name := fun hmem => absurd (hname '<' hmem) (by decide)
  have hopening : Unclosed same tag (.char '<' :: (name ++ [.char '>'])) := by
    refine cons (fun rest => ?_) (of_notMem (by simpa using hfree))
    unfold afterClosing?
    split
    · rename_i cs he
      -- It would be a closing tag only if its name began with a slash.
      have hhead := congrArg List.head? (List.cons.inj he).2
      cases name with
      | nil => simp at hhead
      | cons c name =>
        obtain rfl : c = '/' := by simpa using hhead
        exact absurd (hname '/' List.mem_cons_self) (by decide)
    · rfl
  have hclosing : Unclosed same tag (.char '<' :: .char '/' :: (name ++ [.char '>'])) := by
    refine cons (fun rest => ?_) (of_notMem (by simpa using hfree))
    have hnone := hdiffers ('>' :: rest)
    simp [afterClosing?, hnone]
  have hall := (hopening.append h).append hclosing
  simpa [Storyworld.element] using hall

/-- Behind a text that does not close stands the closing tag. -/
theorem untilClosing? (h : Unclosed same tag body) (hname : Opens same tag name)
    (rest : List Code) :
    untilClosing? same tag (body ++ .char '<' :: .char '/' :: (name ++ .char '>' :: rest)) =
      some (body, rest) := by
  have hend : List.dropWhile isBlank (.char '>' :: rest) = .char '>' :: rest :=
    List.dropWhile_cons_of_neg (by decide)
  have hclosing :
      afterClosing? same tag (.char '<' :: .char '/' :: (name ++ .char '>' :: rest)) = some rest := by
    simp [afterClosing?, hname ('>' :: rest), hend]
  rw [h, Storyworld.untilClosing?, hclosing, Option.map_some, List.append_nil]

end Unclosed

theorem afterOpening?_end (cs : List Code) : afterOpening? ('>' :: cs) = some cs := by
  have hword : isWordChar '>' = false := by decide
  simp [afterOpening?, hword]

theorem yields_element (hname : Opens standsFor tag name) (hbody : Unclosed standsFor tag body) :
    Yields (elementAt? tag) (element name body) [body] := by
  refine Yields.of_found (List.cons_ne_nil _ _) fun rest => ?_
  rw [element_append]
  simp [elementAt?, hname _, afterOpening?_end, hbody.untilClosing? hname]

theorem anyElementAt?_element (hne : name ≠ []) (hname : ∀ c ∈ name, isWordChar c = true)
    (hbody : Unclosed sameLower name body) (rest : List Code) :
    anyElementAt? (element name body ++ rest) = some ((name, body), rest) := by
  have hself : Opens sameLower name name :=
    opens_self (fun c => beq_self_eq_true (lowerChar c)) name
  have hword : isWordChar '>' = false := by decide
  have htag (cs : List Code) : (name ++ .char '>' :: cs).takeWhile isWordChar = name := by
    rw [List.takeWhile_append_of_pos hname, List.takeWhile_cons_of_neg (by simp [hword]),
      List.append_nil]
  rw [element_append]
  simp [anyElementAt?, htag, hne, afterOpening?_end, hbody.untilClosing? hself]

/-- Elements with gaps before, between and behind them. -/
def elementList (gap : List Code) (l : List (List Code × List Code)) : List Code :=
  gap ++ l.flatMap fun e => element e.1 e.2 ++ gap

section

variable {gap : List Code} {l : List (List Code × List Code)} (hgap : .char '<' ∉ gap)

include hgap

/-- The elements are all found, in the order in which they are written. -/
theorem allElements_elementList
    (h : ∀ e ∈ l, e.1 ≠ [] ∧ (∀ c ∈ e.1, isWordChar c = true) ∧ .char '<' ∉ e.2) :
    allElements (elementList gap l) = l := by
  have hskip : Yields anyElementAt? gap [] :=
    Yields.of_notMem (fun _ cs hc => anyElementAt?_cons hc cs) hgap
  have hone : ∀ e ∈ l, Yields anyElementAt? (element e.1 e.2 ++ gap) [e] := by
    intro e he
    obtain ⟨hne, hname, hbody⟩ := h e he
    have hfound := anyElementAt?_element hne hname (Unclosed.of_notMem hbody)
    exact (Yields.of_found (List.cons_ne_nil _ _) hfound).append hskip
  have hall := (hskip.append (Yields.flatMap hone)).all
  rwa [List.nil_append, List.flatMap_singleton'] at hall

theorem yields_elementList (hslash : Differs standsFor tag ['/']) (h : ∀ e ∈ l,
      (∀ c ∈ e.1, isWordChar c = true) ∧ Differs standsFor tag e.1 ∧ .char '<' ∉ e.2) :
    Yields (elementAt? tag) (elementList gap l) [] := by
  have hskip := yields_nil_of_notMem tag hgap
  have hone : ∀ e ∈ l, Yields (elementAt? tag) (element e.1 e.2 ++ gap) [] := by
    intro e he
    obtain ⟨hword, hdiffers, hbody⟩ := h e he
    have hname : .char '<' ∉ e.1 := fun hmem => absurd (hword '<' hmem) (by decide)
    have hfinds := yields_nil_of_notMem tag hbody
    exact (Yields.element hslash hdiffers hname hfinds).append hskip
  have hall := hskip.append (Yields.flatMap hone)
  rwa [List.flatMap_eq_nil_iff.mpr fun _ _ => rfl] at hall

theorem unclosed_elementList (h : ∀ e ∈ l, (∀ c ∈ e.1, isWordChar c = true) ∧
      Differs same tag e.1 ∧ .char '<' ∉ e.2) : Unclosed same tag (elementList gap l) := by
  have hskip : Unclosed same tag gap := Unclosed.of_notMem hgap
  refine hskip.append (Unclosed.flatMap fun e he => ?_)
  obtain ⟨hword, hdiffers, hbody⟩ := h e he
  exact ((Unclosed.of_notMem hbody).element hword hdiffers).append hskip

end

end Storyworld
