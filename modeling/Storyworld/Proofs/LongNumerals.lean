import Storyworld.Json.Reader

/-! Integers too long to read. JSON text is refused over one only where more digits stand in a row
than an integer may have. -/

namespace Storyworld

/-- More digits in a row than an integer may have. -/
def HasLongRun (cs : List Code) : Prop :=
  ∃ ds, ds <:+: cs ∧ (∀ d ∈ ds, d.isDigit = true) ∧ digitLimit < ds.length

theorem HasLongRun.of_isInfix {part cs : List Code} (h : HasLongRun part) (hpart : part <:+: cs) :
    HasLongRun cs := by
  obtain ⟨ds, hds, hdigits, hlong⟩ := h
  exact ⟨ds, hds.trans hpart, hdigits, hlong⟩

namespace Json

variable {cs : List Code} {t : Token} {ts : List Token}

theorem wholePart_isPrefix (cs : List Code) : wholePart cs <+: cs := by
  simp only [wholePart]
  split
  · exact ⟨_, rfl⟩
  · exact List.takeWhile_prefix _

theorem isDigit_of_mem_wholePart : ∀ d ∈ wholePart cs, d.isDigit = true := by
  simp only [wholePart]
  split
  · simp
  · exact List.all_eq_true.mp List.all_takeWhile

theorem hasLongRun_of_numberToken (h : (numberToken cs).1 = .overlong) : HasLongRun cs := by
  unfold numberToken at h
  extract_lets sign afterSign whole fraction exponent length negative at h
  split at h
  · cases h
  split at h
  · split at h
    · cases h
    · rename_i hlong
      refine ⟨whole, (wholePart_isPrefix afterSign).isInfix.trans ?_, isDigit_of_mem_wholePart,
        Nat.lt_of_not_le hlong⟩
      exact (List.drop_suffix sign.length cs).isInfix
  · split at h <;> cases h

theorem hasLongRun_of_tokenAt (h : (tokenAt cs).1 = .overlong) : HasLongRun cs := by
  unfold tokenAt at h
  split at h
  case h_7 => split at h <;> cases h
  case h_8 =>
    split at h
    · cases h
    · exact hasLongRun_of_numberToken h
  all_goals cases h

theorem hasLongRun_of_mem_tokensAfter {n : Nat} (h : Token.overlong ∈ tokensAfter n cs) :
    HasLongRun cs := by
  induction cs generalizing n with
  | nil => simp [tokensAfter] at h
  | cons c cs ih =>
    have htail {m : Nat} (hm : Token.overlong ∈ tokensAfter m cs) : HasLongRun (c :: cs) :=
      (ih hm).of_isInfix (List.suffix_cons c cs).isInfix
    cases n with
    | succ n => exact htail h
    | zero =>
      rw [tokensAfter] at h
      split at h
      · exact htail h
      · rcases List.mem_cons.mp h with hfirst | hrest
        · exact hasLongRun_of_tokenAt hfirst.symm
        · exact htail hrest

theorem overlong_of_beginValue {frames : List Frame} (h : beginValue frames t = .error .overlong) :
    t = .overlong := by
  cases t <;> first | rfl | cases h

theorem overlong_of_step {r : Reader} (h : r.step t = .error .overlong) : t = .overlong := by
  revert h
  fun_cases Reader.step r t <;> intro h
  case case1 | case3 => exact overlong_of_beginValue h
  case case8 v frames =>
    revert h
    fun_cases afterValue v frames t <;> intro h <;> cases h
  all_goals cases h

theorem run_cons (r : Reader) (t : Token) (ts : List Token) :
    r.run (t :: ts) = match r.step t with
      | .ok next => next.run ts
      | .error flaw => .error flaw := by
  cases r with
  | done v frames => cases frames <;> rfl
  | _ => rfl

theorem overlong_mem_of_run {r : Reader} (h : r.run ts = .error .overlong) :
    Token.overlong ∈ ts := by
  induction ts generalizing r with
  | nil =>
    unfold Reader.run at h
    split at h <;> simp_all
  | cons t ts ih =>
    rw [run_cons] at h
    split at h
    · exact List.mem_cons_of_mem t (ih h)
    · rename_i flaw hstep
      obtain rfl := Except.error.inj h
      exact overlong_of_step hstep ▸ List.mem_cons_self

theorem hasLongRun_of_read {s : Text} (h : read s = .error .overlong) : HasLongRun s.toList :=
  hasLongRun_of_mem_tokensAfter (overlong_mem_of_run h)

theorem numberToken_digits {c : Code} (hdigits : ∀ d ∈ c :: cs, d.isDigit = true) (hzero : c ≠ '0')
    (hlong : digitLimit < (c :: cs).length) :
    numberToken (c :: cs) = (.overlong, (c :: cs).length) := by
  have hsign : c ≠ '-' := by
    rintro rfl
    simp at hdigits
  have hwhole : wholePart (c :: cs) = c :: cs := by
    have hall : (c :: cs ++ []).takeWhile Code.isDigit = c :: cs ++ [].takeWhile Code.isDigit :=
      List.takeWhile_append_of_pos hdigits
    simpa [wholePart, hzero] using hall
  simp only [List.length_cons] at hlong
  simp [numberToken, hsign, hwhole, fractionPart, exponentPart, Nat.not_le.mpr hlong]

theorem tokenAt_digit {c : Code} (hc : c.isDigit = true) :
    tokenAt (c :: cs) = numberToken (c :: cs) := by
  have hwords : ∀ w ∈ words, w.1.toList.head?.any (!Code.isDigit ·) = true := by decide
  have hnone : words.find? (fun w => w.1.toList.isPrefixOf (c :: cs)) = none := by
    rw [List.find?_eq_none]
    intro w hw hprefix
    have hfirst := hwords w hw
    cases hword : w.1.toList with
    | nil => simp [hword] at hfirst
    | cons d ds =>
      obtain ⟨rfl, -⟩ : d = c ∧ _ := by simpa [hword] using hprefix
      simp [hword, hc] at hfirst
  unfold tokenAt
  split
  case h_8 => rw [hnone]
  all_goals simp_all

theorem tokensAfter_length (cs : List Code) : tokensAfter cs.length cs = [] := by
  induction cs with
  | nil => rfl
  | cons c cs ih => exact ih

/-- An integer of more digits than are read, by itself. -/
theorem read_digits {ds : List Code} (hdigits : ∀ d ∈ ds, d.isDigit = true)
    (hzero : ds.head? ≠ some '0') (hlong : digitLimit < ds.length) :
    read (Text.ofList ds) = .error .overlong := by
  cases ds with
  | nil => cases hlong
  | cons c cs =>
    have hc := hdigits c List.mem_cons_self
    have hblank : isJsonBlank c = false := by
      simp only [isJsonBlank, Bool.or_eq_false_iff, beq_eq_false_iff_ne]
      refine ⟨⟨⟨?_, ?_⟩, ?_⟩, ?_⟩ <;> (rintro rfl; simp at hc)
    have htokens : tokens (c :: cs) = [.overlong] := by
      rw [tokens, tokensAfter, if_neg (by simp [hblank]), tokenAt_digit hc,
        numberToken_digits hdigits (by simpa using hzero) hlong]
      simp [tokensAfter_length]
    rw [read, Text.toList_ofList, htokens]
    rfl

end Json

end Storyworld
