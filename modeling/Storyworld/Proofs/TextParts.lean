import Mathlib.Data.List.TakeWhile
import Storyworld.Text.Trim

/-! Parts of a text: what is left when its ends are trimmed, its lines, and the parts between
marks. -/

namespace Storyworld

variable {p : Code → Bool} {cs part : List Code}

theorem trimWith_isPrefix (p : Code → Bool) (cs : List Code) : trimWith p cs <+: trimStart p cs := by
  have hend : (trimStart p cs).reverse.dropWhile p <:+ (trimStart p cs).reverse :=
    List.dropWhile_suffix p
  simpa [trimWith, trimEnd] using List.reverse_prefix.mpr hend

theorem trimWith_isInfix (p : Code → Bool) (cs : List Code) : trimWith p cs <:+: cs :=
  (trimWith_isPrefix p cs).isInfix.trans (List.dropWhile_suffix p).isInfix

theorem dropWhile_eq_self (h : ∀ c ∈ cs.head?, p c = false) : cs.dropWhile p = cs := by
  cases cs with
  | nil => rfl
  | cons c cs => exact List.dropWhile_cons_of_neg (by simpa using h c rfl)

theorem head?_dropWhile (cs : List Code) : ∀ c ∈ (cs.dropWhile p).head?, p c = false := by
  intro c hc
  have hnot := List.head?_dropWhile_not p cs
  rw [Option.mem_def] at hc
  simpa only [hc] using hnot

/-- Nothing is trimmed off a text whose first and last characters are to stay. -/
theorem trimWith_eq_self_iff : trimWith p cs = cs ↔
    (∀ c ∈ cs.head?, p c = false) ∧ ∀ c ∈ cs.getLast?, p c = false := by
  constructor
  · intro h
    constructor
    · intro c hc
      obtain ⟨rest, hrest⟩ := trimWith_isPrefix p cs
      rw [trimStart, h] at hrest
      refine head?_dropWhile cs c ?_
      rw [← hrest, List.head?_append, hc]
      rfl
    · intro c hc
      refine head?_dropWhile (trimStart p cs).reverse c ?_
      rw [← List.getLast?_reverse, ← trimEnd, ← trimWith, h]
      exact hc
  · rintro ⟨hhead, hlast⟩
    rw [trimWith, trimStart, dropWhile_eq_self hhead, trimEnd,
      dropWhile_eq_self (by simpa using hlast), List.reverse_reverse]

theorem trimWith_append {front back : List Code} (hfront : trimWith p front = front)
    (hback : trimWith p back = back) (hne : front ≠ []) (hne' : back ≠ []) (middle : List Code) :
    trimWith p (front ++ (middle ++ back)) = front ++ (middle ++ back) := by
  rw [trimWith_eq_self_iff] at *
  constructor
  · rw [List.head?_append, List.head?_eq_some_head hne]
    simpa [List.head?_eq_some_head hne] using hfront.1
  · rw [← List.append_assoc, List.getLast?_append, List.getLast?_eq_some_getLast hne']
    simpa [List.getLast?_eq_some_getLast hne'] using hback.2

theorem trimWith_cons {c : Code} (h : p c = true) (cs : List Code) :
    trimWith p (c :: cs) = trimWith p cs := by
  simp [trimWith, trimStart, h]

theorem trimEnd_eq_self (h : trimWith p cs = cs) : trimEnd p cs = cs := by
  have hlast := (trimWith_eq_self_iff.mp h).2
  rw [trimEnd, dropWhile_eq_self (by simpa using hlast), List.reverse_reverse]

theorem trimEnd_append_right {back : List Code} (h : ∀ c ∈ back, p c = true) (cs : List Code) :
    trimEnd p (cs ++ back) = trimEnd p cs := by
  have hback : ∀ c ∈ back.reverse, p c = true := fun c hc => h c (List.mem_reverse.mp hc)
  rw [trimEnd, List.reverse_append, List.dropWhile_append_of_pos hback, trimEnd]

theorem trimWith_append_right {back : List Code} (h : ∀ c ∈ back, p c = true) (cs : List Code) :
    trimWith p (cs ++ back) = trimWith p cs := by
  rw [trimWith, trimStart, List.dropWhile_append]
  split
  · rename_i hall
    have hback : back.dropWhile p = [] := List.dropWhile_eq_nil_iff.mpr h
    rw [trimWith, trimStart, hback, List.isEmpty_iff.mp hall]
  · exact trimEnd_append_right h (cs.dropWhile p)

theorem lines_isInfix (cs : List Code) :
    (∀ l ∈ lines cs, l <:+: cs) ∧ ∀ l ∈ (lines cs).head?, l <+: cs := by
  fun_induction lines cs with
  | case1 => simp
  | case2 cs ih =>
    have htail : cs <:+ '\r' :: '\n' :: cs := ⟨['\r', '\n'], rfl⟩
    simp only [List.mem_cons, forall_eq_or_imp, List.head?_cons, Option.mem_some, forall_eq']
    exact ⟨⟨List.nil_infix, fun l hl => (ih.1 l hl).trans htail.isInfix⟩, List.nil_prefix⟩
  | case3 c cs _ hbreak ih =>
    have htail : cs <:+ c :: cs := List.suffix_cons c cs
    simp only [List.mem_cons, forall_eq_or_imp, List.head?_cons, Option.mem_some, forall_eq']
    exact ⟨⟨List.nil_infix, fun l hl => (ih.1 l hl).trans htail.isInfix⟩, List.nil_prefix⟩
  | case4 c cs _ hbreak hlines ih =>
    have hone : [c] <+: c :: cs := ⟨cs, rfl⟩
    simp [hone, hone.isInfix]
  | case5 c cs _ hbreak l ls hlines ih =>
    rw [hlines] at ih
    have htail : cs <:+ c :: cs := List.suffix_cons c cs
    have hfirst : c :: l <+: c :: cs := List.cons_prefix_cons.mpr ⟨rfl, ih.2 l rfl⟩
    simp only [List.mem_cons, forall_eq_or_imp, List.head?_cons, Option.mem_some, forall_eq']
    exact ⟨⟨hfirst.isInfix, fun m hm =>
      (ih.1 m (List.mem_cons_of_mem l hm)).trans htail.isInfix⟩, hfirst⟩

/-- A character that does not end the first line is added to it. -/
theorem lines_cons {c : Code} (h : isLineBreak c = false) (cs : List Code) :
    lines (c :: cs) = (c :: (lines cs).headD []) :: (lines cs).tail := by
  rw [lines.eq_def (c :: cs)]
  split
  · rename_i hnil
    cases hnil
  · rename_i hcs
    obtain ⟨rfl, -⟩ := List.cons.inj hcs
    exact absurd h (by decide)
  · rename_i hcs
    obtain ⟨rfl, rfl⟩ := List.cons.inj hcs
    rw [if_neg (by simp [h])]
    cases lines cs <;> rfl

theorem lines_append (hne : part ≠ []) (h : ∀ c ∈ part, isLineBreak c = false) (cs : List Code) :
    lines (part ++ cs) = (part ++ (lines cs).headD []) :: (lines cs).tail := by
  induction part with
  | nil => exact (hne rfl).elim
  | cons c part ih =>
    obtain ⟨hc, hpart⟩ := List.forall_mem_cons.mp h
    rw [List.cons_append, lines_cons hc]
    cases part with
    | nil => rfl
    | cons d part => rw [ih (List.cons_ne_nil d part) hpart]; rfl

/-- At a line break the first line is empty, but a line feed behind a carriage return begins no
further one. -/
theorem lines_break {c : Code} (h : isLineBreak c = true) (cs : List Code) :
    ∃ ls, lines (c :: cs) = [] :: ls ∧ (ls = lines cs ∨ [] :: ls = lines cs) := by
  rw [lines.eq_def (c :: cs)]
  split
  · rename_i hnil
    cases hnil
  · rename_i ds hcs
    obtain ⟨-, rfl⟩ := List.cons.inj hcs
    exact ⟨lines ds, rfl, .inr rfl⟩
  · rename_i hcs
    obtain ⟨rfl, rfl⟩ := List.cons.inj hcs
    rw [if_pos h]
    exact ⟨_, rfl, .inl rfl⟩

section

variable {κ : Type} [DecidableEq κ] {mark : κ} {cs part : List κ} {parts : List (List κ)}

theorem notMem_splitAtMark (h : part ∈ splitAtMark mark cs) : mark ∉ part := by
  induction cs generalizing part with
  | nil =>
    obtain rfl := List.mem_singleton.mp h
    exact List.not_mem_nil
  | cons c cs ih =>
    rw [splitAtMark] at h
    split at h
    · rcases List.mem_cons.mp h with rfl | h
      · exact List.not_mem_nil
      · exact ih h
    · rename_i hc
      split at h
      · obtain rfl := List.mem_singleton.mp h
        simpa using Ne.symm hc
      · rename_i p ps hps
        rcases List.mem_cons.mp h with rfl | h
        · rw [List.mem_cons, not_or]
          exact ⟨Ne.symm hc, ih (hps ▸ List.mem_cons_self)⟩
        · exact ih (hps ▸ List.mem_cons_of_mem p h)

theorem splitAtMark_of_notMem (h : mark ∉ part) : splitAtMark mark part = [part] := by
  induction part with
  | nil => rfl
  | cons c part ih =>
    simp only [List.mem_cons, not_or] at h
    rw [splitAtMark, if_neg (Ne.symm h.1), ih h.2]

theorem splitAtMark_append_cons (h : mark ∉ part) (cs : List κ) :
    splitAtMark mark (part ++ mark :: cs) = part :: splitAtMark mark cs := by
  induction part with
  | nil => simp [splitAtMark]
  | cons c part ih =>
    simp only [List.mem_cons, not_or] at h
    rw [List.cons_append, splitAtMark, if_neg (Ne.symm h.1), ih h.2]

/-- Parts joined by a mark that is in none of them are split there again. -/
theorem splitAtMark_intercalate (hne : parts ≠ []) (h : ∀ part ∈ parts, mark ∉ part) :
    splitAtMark mark ([mark].intercalate parts) = parts := by
  induction parts with
  | nil => exact (hne rfl).elim
  | cons part parts ih =>
    obtain ⟨hpart, hparts⟩ := List.forall_mem_cons.mp h
    cases parts with
    | nil => simpa [List.intercalate] using splitAtMark_of_notMem hpart
    | cons next parts =>
      have hrest := ih (List.cons_ne_nil next parts) hparts
      simpa [List.intercalate, splitAtMark_append_cons hpart] using hrest

end

end Storyworld
