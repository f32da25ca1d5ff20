import Storyworld.Proofs.ItemLines
import Storyworld.Proofs.LongNumerals
import Storyworld.Proofs.Quoting
import Storyworld.Value.Text

/-! Lists of texts, spelled as JSON in ASCII and read back. Whatever is in the texts, the spelling
stays within a line, and it begins a tag only where a text does. -/

namespace Storyworld

variable {c e : Code} {cs : List Code} {texts : List Text}

/-- The spelling of JSON with all escaped that is not ASCII. -/
def Spelling.ascii : Spelling := { Spelling.json with text := quotedAscii }

/-- A list of texts as JSON. -/
def textList (texts : List Text) : Text := (Value.list (texts.map .text)).inline .ascii

theorem textList_toList (texts : List Text) : (textList texts).toList =
    .char '[' :: ((joined ", " (texts.map quotedAscii)).toList ++ [.char ']']) := by
  have hitems : inlineItems .ascii (texts.map .text) = texts.map quotedAscii := by
    induction texts with
    | nil => rfl
    | cons t ts ih => exact congrArg (quotedAscii t :: ·) ih
  rw [textList, Value.inline, hitems]
  simp

namespace Json

theorem tokensAfter_eq_drop (n : Nat) (cs : List Code) : tokensAfter n cs = tokens (cs.drop n) := by
  induction n generalizing cs with
  | zero => rfl
  | succ n ih =>
    cases cs with
    | nil => rfl
    | cons c cs => exact ih cs

/-- What a data quote quotes is one token, whatever follows it. -/
theorem tokens_quoteData (cs rest : List Code) :
    tokens (quoteData true cs ++ rest) = .text (Text.ofList (joinHalves cs)) :: tokens rest := by
  obtain ⟨body, hbody⟩ : ∃ body, body = cs.flatMap (dataChar true) := ⟨_, rfl⟩
  have htext : quoteData true cs ++ rest = .char '\x22' :: (body ++ .char '\x22' :: rest) := by
    simp [quoteData, hbody]
  have htoken : tokenAt (.char '\x22' :: (body ++ .char '\x22' :: rest)) =
      (.text (Text.ofList (joinHalves cs)), body.length + 2) := by
    rw [tokenAt, hbody, stringBody_quoted]
    simp only [ofParts_flatMap_partsOf]
  have hrest : (body ++ .char '\x22' :: rest).drop (body.length + 1) = rest := by
    rw [List.append_cons]
    exact List.drop_left' (by simp)
  rw [htext, tokens, tokensAfter, if_neg (by decide), htoken]
  change _ :: tokensAfter (body.length + 1) _ = _
  rw [tokensAfter_eq_drop, hrest]

theorem tokens_joined (texts : List Text) (rest : List Code) :
    tokens ((joined ", " (texts.map quotedAscii)).toList ++ rest) =
      ((texts.map Text.joined).map Token.text).intersperse .comma ++ tokens rest := by
  have hquoted (t : Text) (rest : List Code) :
      tokens ((quotedAscii t).toList ++ rest) = .text t.joined :: tokens rest := by
    rw [quotedAscii, Text.toList_ofList, tokens_quoteData, Text.joined]
  induction texts with
  | nil => rfl
  | cons t ts ih =>
    cases ts with
    | nil => exact hquoted t rest
    | cons u us =>
      have hcomma (cs : List Code) : tokens (',' :: ' ' :: cs) = .comma :: tokens cs := rfl
      have htext : (joined ", " ((t :: u :: us).map quotedAscii)).toList ++ rest =
          (quotedAscii t).toList ++
            .char ',' :: .char ' ' :: ((joined ", " ((u :: us).map quotedAscii)).toList ++ rest) := by
        simp [joined]
      rw [htext, hquoted, hcomma, ih]
      rfl

theorem run_texts (items : List Value) (t : Text) (ts : List Text) :
    (Reader.value [.list items]).run (((t :: ts).map Token.text).intersperse .comma ++ [.closeList]) =
      .ok (.list (items.reverse ++ (t :: ts).map .text)) := by
  induction ts generalizing t items with
  | nil =>
    change Except.ok (Value.list (.text t :: items).reverse) = _
    rw [List.reverse_cons]
    rfl
  | cons u us ih =>
    have hnext := ih (.text t :: items) u
    rw [List.reverse_cons, List.append_assoc] at hnext
    exact hnext

/-- A list of texts is read as it was spelled, with pairs of halves joined. -/
theorem read_textList (texts : List Text) :
    read (textList texts) = .ok (.list ((texts.map Text.joined).map .text)) := by
  have hopen (cs : List Code) : tokens ('[' :: cs) = .openList :: tokens cs := rfl
  have hclose : tokens [']'] = [.closeList] := rfl
  rw [read, textList_toList, hopen, tokens_joined, hclose]
  cases texts with
  | nil => rfl
  | cons t ts =>
    -- The first item of a list is read as any other one.
    refine Eq.trans ?_ (run_texts [] t.joined (ts.map Text.joined))
    cases ts <;> rfl

example : textList ["a, \"b\"", "夜"] = "[\"a, \\\"b\\\"\", \"\\u591c\"]" := by decide +kernel

end Json

/-! What the spelling is made of. -/

/-- A printing character of ASCII that begins no tag. -/
def Visible (c : Code) : Prop := 32 ≤ c.toNat ∧ c.toNat < 127 ∧ c ≠ '<'

instance : DecidablePred Visible := fun c =>
  inferInstanceAs (Decidable (32 ≤ c.toNat ∧ c.toNat < 127 ∧ c ≠ '<'))

theorem inline_of_visible (h : ∀ c ∈ cs, Visible c) : Inline cs := by
  intro c hc
  obtain ⟨hlow, hhigh, htag⟩ := h c hc
  refine ⟨?_, htag⟩
  simp only [isLineBreak, covers, List.any_cons, List.any_nil, Bool.or_eq_false_iff,
    Bool.and_eq_false_iff, decide_eq_false_iff_not, and_true]
  omega

theorem hexDigits_visible (width n : Nat) : ∀ c ∈ hexDigits width n, Visible c := by
  have hall : ∀ d < 16, Visible (hexDigit d) := by decide
  induction width generalizing n with
  | zero => simp [hexDigits]
  | succ width ih =>
    rw [hexDigits, List.forall_mem_append, List.forall_mem_singleton]
    exact ⟨ih _, hall _ (Nat.mod_lt n (by decide))⟩

theorem unitEscape_visible (c : Code) : ∀ x ∈ unitEscape c, Visible x := by
  have hmark : Visible '\\' ∧ Visible 'u' := by decide
  have hunit (n : Nat) : ∀ x ∈ unitEscape.unit n, Visible x := by
    simp only [unitEscape.unit, List.forall_mem_cons]
    exact ⟨hmark.1, hmark.2, hexDigits_visible _ _⟩
  unfold unitEscape
  split
  · exact hunit _
  · exact List.forall_mem_append.mpr ⟨hunit _, hunit _⟩

theorem visible_of_escaped? (h : Json.escaped? e = some c) : Visible e := by
  unfold Json.escaped? at h
  split at h <;> first | decide | cases h

theorem dataChar_visible (hc : c ≠ '<') : ∀ x ∈ dataChar true c, Visible x := by
  have hback : Visible '\\' := by decide
  unfold dataChar
  split
  · rename_i e he
    simp only [List.forall_mem_cons]
    exact ⟨hback, visible_of_escaped? (shortEscape?_some he).2.2.2, by simp⟩
  · split
    · exact unitEscape_visible c
    · rename_i hplain
      simp only [Bool.true_and, Bool.or_eq_true, decide_eq_true_eq, not_or, Nat.not_lt,
        Nat.not_le] at hplain
      rw [List.forall_mem_singleton]
      exact ⟨hplain.1, hplain.2, hc⟩

theorem quotedAscii_visible {t : Text} (h : .char '<' ∉ t.toList) :
    ∀ x ∈ (quotedAscii t).toList, Visible x := by
  have hmark : Visible '\x22' := by decide
  rw [quotedAscii, Text.toList_ofList, quoteData]
  simp only [List.cons_append, List.forall_mem_cons, List.forall_mem_append]
  refine ⟨hmark, ?_, hmark, by simp⟩
  intro x hx
  obtain ⟨c, hc, hx⟩ := List.mem_flatMap.mp hx
  exact dataChar_visible (fun heq => h (heq ▸ hc)) x hx

theorem joined_visible {parts : List Text} (h : ∀ p ∈ parts, ∀ x ∈ p.toList, Visible x) :
    ∀ x ∈ (joined ", " parts).toList, Visible x := by
  have hmarks : Visible ',' ∧ Visible ' ' := by decide
  have hseparator : ∀ x ∈ (", " : Text).toList, Visible x := by simpa using hmarks
  induction parts with
  | nil => simp [joined]
  | cons p ps ih =>
    obtain ⟨hp, hps⟩ := List.forall_mem_cons.mp h
    cases ps with
    | nil => exact hp
    | cons q qs =>
      simp only [joined, Text.toList_append, List.forall_mem_append]
      exact ⟨⟨hp, hseparator⟩, ih hps⟩

theorem inline_textList (h : ∀ t ∈ texts, .char '<' ∉ t.toList) : Inline (textList texts).toList := by
  have hopen : Visible '[' := by decide
  have hclose : Visible ']' := by decide
  have hparts := joined_visible (List.forall_mem_map.mpr fun t ht => quotedAscii_visible (h t ht))
  refine inline_of_visible ?_
  rw [textList_toList, List.forall_mem_cons, List.forall_mem_append, List.forall_mem_singleton]
  exact ⟨hopen, hparts, hclose⟩

theorem trim_textList (texts : List Text) :
    trim (textList texts).toList = (textList texts).toList := by
  have hopen : trim ['['] = ['['] := by decide
  have hclose : trim [']'] = [']'] := by decide
  rw [textList_toList]
  exact trimWith_append hopen hclose (List.cons_ne_nil _ _) (List.cons_ne_nil _ _) _

end Storyworld
