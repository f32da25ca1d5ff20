import Storyworld.Places
import Storyworld.Proofs.TextParts
import Storyworld.Slug

/-! Slugs are words with single hyphens between them, and every such text is its own slug. So a slug
is a name within a folder, and the places of two conversations never fall together. -/

namespace Storyworld

variable {cs word : List Char} {words : List (List Char)} {c : Char} {s t : String}

/-- Words of small letters and digits, at least one, with single hyphens between them. -/
def Hyphenated (s : String) : Prop :=
  ∃ words : List (List Char), words ≠ [] ∧
    (∀ word ∈ words, word ≠ [] ∧ ∀ c ∈ word, ('a' ≤ c ∧ c ≤ 'z') ∨ ('0' ≤ c ∧ c ≤ '9')) ∧
    s.toList = ['-'].intercalate words

theorem isSlugChar_iff : isSlugChar c = true ↔ ('a' ≤ c ∧ c ≤ 'z') ∨ ('0' ≤ c ∧ c ≤ '9') := by
  simp [isSlugChar, Char.isDigit, Char.le_def]

/-- A word of a slug. -/
def SlugWord (word : List Char) : Prop := word ≠ [] ∧ ∀ c ∈ word, isSlugChar c = true

theorem SlugWord.cons (hc : isSlugChar c = true) (h : ∀ d ∈ word, isSlugChar d = true) :
    SlugWord (c :: word) :=
  ⟨List.cons_ne_nil c word, List.forall_mem_cons.mpr ⟨hc, h⟩⟩

theorem slugWord_of_mem (h : word ∈ slugWords cs) : SlugWord word := by
  fun_induction slugWords cs generalizing word with
  | case1 => cases h
  | case2 c hc d tail w ws hd hws ih =>
    simp only [hws, hd, if_true] at h
    rcases List.mem_cons.mp h with rfl | h
    · exact .cons hc (ih (hws ▸ List.mem_cons_self)).2
    · exact ih (hws ▸ List.mem_cons_of_mem w h)
  | case3 c hc d tail w ws hd hws ih =>
    simp only [hws, hd, if_false, Bool.false_eq_true] at h
    rcases List.mem_cons.mp h with rfl | h
    · exact .cons hc nofun
    · exact ih (hws ▸ h)
  | case4 c cs hc hws ih =>
    have h : word ∈ [c] :: slugWords cs := by
      split at h
      · exact (hws _ _ _ _ rfl ‹_›).elim
      · exact h
    rcases List.mem_cons.mp h with rfl | h
    · exact .cons hc nofun
    · exact ih h
  | case5 c cs hc ih => exact ih h

theorem slugWords_skip (h : isSlugChar c = false) (cs : List Char) :
    slugWords (c :: cs) = slugWords cs := by
  rw [slugWords.eq_def]
  simp [h]

/-- A word ends where a character follows that is in none. -/
theorem slugWords_append (hword : SlugWord word) (cs : List Char)
    (hcs : ∀ c ∈ cs.head?, isSlugChar c = false) :
    slugWords (word ++ cs) = word :: slugWords cs := by
  induction word with
  | nil => exact (hword.1 rfl).elim
  | cons c word ih =>
    obtain ⟨hc, hrest⟩ := List.forall_mem_cons.mp hword.2
    rw [List.cons_append, slugWords.eq_def]
    cases word with
    | nil =>
      cases cs with
      | nil => simp [hc]
      | cons d cs =>
        have hd : isSlugChar d = false := hcs d rfl
        cases hws : slugWords (d :: cs) <;> simp [hc, hd, hws]
    | cons d word =>
      have hd : isSlugChar d = true := hrest d List.mem_cons_self
      have hws := ih ⟨List.cons_ne_nil d word, hrest⟩
      rw [List.cons_append] at hws
      simp [hc, hd, hws]

theorem slugWords_intercalate (h : ∀ word ∈ words, SlugWord word) :
    slugWords (['-'].intercalate words) = words := by
  induction words with
  | nil => rfl
  | cons word words ih =>
    obtain ⟨hword, hwords⟩ := List.forall_mem_cons.mp h
    cases words with
    | nil =>
      rw [List.intercalate_singleton]
      simpa [slugWords] using slugWords_append hword [] nofun
    | cons next words =>
      have hhyphen : isSlugChar '-' = false := by decide
      rw [List.intercalate_cons_cons, List.append_assoc, List.singleton_append,
        slugWords_append hword _ (by simpa using hhyphen), slugWords_skip hhyphen, ih hwords]

/-- A character that can stand in a slug. -/
def InSlug (c : Char) : Prop := isSlugChar c = true ∨ c = '-'

instance : DecidablePred InSlug := fun c =>
  inferInstanceAs (Decidable (isSlugChar c = true ∨ c = '-'))

theorem InSlug.ne (h : InSlug c) (d : Char) (hd : ¬ InSlug d) : c ≠ d := fun heq => hd (heq ▸ h)

theorem InSlug.range (h : InSlug c) :
    (97 ≤ c.toNat ∧ c.toNat ≤ 122) ∨ (48 ≤ c.toNat ∧ c.toNat ≤ 57) ∨ c.toNat = 45 := by
  rcases h with h | rfl
  · rcases isSlugChar_iff.mp h with ⟨hlow, hhigh⟩ | ⟨hlow, hhigh⟩
    · exact .inl ⟨UInt32.le_iff_toNat_le.mp hlow, UInt32.le_iff_toNat_le.mp hhigh⟩
    · exact .inr (.inl ⟨UInt32.le_iff_toNat_le.mp hlow, UInt32.le_iff_toNat_le.mp hhigh⟩)
  · exact .inr (.inr rfl)

theorem InSlug.asciiRemains_eq (h : InSlug c) : asciiRemains (.char c) = [c] := by
  have hascii : c.toNat < 128 := by
    have hrange := h.range
    omega
  simp [asciiRemains, hascii, Code.char?]

theorem InSlug.toLower_eq (h : InSlug c) : c.toLower = c := by
  have hsmall : ¬ (c.val ≥ 'A'.val ∧ c.val ≤ 'Z'.val) := by
    rintro ⟨hlow, hhigh⟩
    have hlow : 65 ≤ c.toNat := UInt32.le_iff_toNat_le.mp hlow
    have hhigh : c.toNat ≤ 90 := UInt32.le_iff_toNat_le.mp hhigh
    have hrange := h.range
    omega
  exact dif_neg hsmall

theorem inSlug_of_intercalate (h : ∀ word ∈ words, SlugWord word) :
    ∀ c ∈ ['-'].intercalate words, InSlug c := by
  induction words with
  | nil => nofun
  | cons word words ih =>
    obtain ⟨hword, hwords⟩ := List.forall_mem_cons.mp h
    intro c hc
    cases words with
    | nil =>
      rw [List.intercalate_singleton] at hc
      exact .inl (hword.2 c hc)
    | cons next words =>
      rw [List.intercalate_cons_cons, List.mem_append, List.mem_append, List.mem_singleton] at hc
      rcases hc with (hc | rfl) | hc
      · exact .inl (hword.2 c hc)
      · exact .inr rfl
      · exact ih hwords c hc

/-- Nothing is done to a text that consists of such characters, before its words are taken. -/
theorem kept_of_inSlug (h : ∀ c ∈ cs, InSlug c) :
    (((cs.map Code.char).flatMap asciiRemains).map Char.toLower).filter
      (fun c => c != '\x27' && c != '\x22') = cs := by
  induction cs with
  | nil => rfl
  | cons c cs ih =>
    obtain ⟨hc, hcs⟩ := List.forall_mem_cons.mp h
    have hquote : (c != '\x27' && c != '\x22') = true := by
      simpa using ⟨hc.ne '\x27' (by decide), hc.ne '\x22' (by decide)⟩
    rw [List.map_cons, List.flatMap_cons, hc.asciiRemains_eq, List.singleton_append, List.map_cons,
      hc.toLower_eq, List.filter_cons, if_pos hquote, ih hcs]

theorem hyphenated_iff : Hyphenated s ↔ ∃ words : List (List Char), words ≠ [] ∧
    (∀ word ∈ words, SlugWord word) ∧ s.toList = ['-'].intercalate words := by
  simp only [Hyphenated, SlugWord, isSlugChar_iff]

theorem toList_hyphens (words : List (List Char)) :
    ("-".intercalate (words.map String.ofList)).toList = ['-'].intercalate words := by
  simp [String.toList_intercalate, Function.comp_def]

theorem hyphenated_slug (name : Text) : Hyphenated (slug name) := by
  refine hyphenated_iff.mpr ?_
  simp only [slug]
  split
  · exact ⟨["untitled".toList], by simp, by simp [SlugWord]; decide, rfl⟩
  · rename_i hne
    exact ⟨_, by simpa using hne, fun word => slugWord_of_mem, toList_hyphens _⟩

theorem slug_of_hyphenated (h : Hyphenated s) : slug s = s := by
  obtain ⟨words, hne, hwords, hs⟩ := hyphenated_iff.mp h
  have hkept := kept_of_inSlug (inSlug_of_intercalate hwords)
  simp only [slug, Text.toList_ofString, hs, hkept, slugWords_intercalate hwords]
  rw [if_neg (by simpa using hne), ← String.toList_inj, toList_hyphens, hs]

/-- The texts that are slugs are those that are their own slugs. -/
theorem slug_eq_self_iff : slug s = s ↔ Hyphenated s :=
  ⟨fun h => h ▸ hyphenated_slug s, slug_of_hyphenated⟩

theorem Hyphenated.chars (h : Hyphenated s) : s ≠ "" ∧ ∀ c ∈ s.toList, InSlug c := by
  obtain ⟨words, hne, hwords, hs⟩ := hyphenated_iff.mp h
  refine ⟨?_, fun c hc => inSlug_of_intercalate hwords c (hs ▸ hc)⟩
  rintro rfl
  obtain ⟨word, words, rfl⟩ := List.exists_cons_of_ne_nil hne
  have hword := (hwords word List.mem_cons_self).1
  cases words <;> simp_all [List.intercalate_cons_cons]

namespace Place

/-- A name without slashes, other than the dots, leads to an entry of the folder. -/
theorem reach_name (folder : Place) (hempty : s ≠ "") (hdot : s ≠ ".") (hdots : s ≠ "..")
    (hslash : '/' ∉ s.toList) : folder.reach s = folder ++ [s] := by
  have hhead : s.toList.head? ≠ some '/' := fun h => hslash (List.mem_of_mem_head? h)
  rw [reach, if_neg hhead, splitAtMark_of_notMem hslash]
  simp [enter, hempty, hdot, hdots]

theorem ofFolder_of_hyphenated (h : Hyphenated s) (conversations : Place) :
    conversations.ofFolder s = conversations ++ [s] := by
  obtain ⟨hempty, hchars⟩ := h.chars
  have hdotless : '.' ∉ s.toList := fun hdot => absurd (hchars '.' hdot) (by decide)
  refine reach_name conversations hempty ?_ ?_ fun hslash =>
    absurd (hchars '/' hslash) (by decide)
  · rintro rfl
    exact hdotless (by decide)
  · rintro rfl
    exact hdotless (by decide)

theorem ofCard_of_hyphenated (h : Hyphenated s) (conversations : Place) :
    conversations.ofCard s = conversations ++ [s ++ ".json"] := by
  obtain ⟨hempty, hchars⟩ := h.chars
  have hlength : (s ++ ".json").length = s.length + 5 := String.length_append s ".json"
  have hlong (t : String) (ht : t.length < 5) : s ++ ".json" ≠ t := by
    rintro rfl
    omega
  refine reach_name conversations (hlong "" (by decide)) (hlong "." (by decide))
    (hlong ".." (by decide)) ?_
  rw [String.toList_append, List.mem_append, not_or]
  exact ⟨fun hslash => absurd (hchars '/' hslash) (by decide), by decide⟩

end Place

/-- The slug of any name consists of words with single hyphens between them and is its own slug, as
all such texts are. So the card and the folder of a conversation are entries of the folder of all
conversations, and two of these are the same only for one slug. -/
theorem slugs_canonical (name : Text) :
    Hyphenated (slug name) ∧ slug (slug name) = slug name ∧ (∀ s : String, slug s = s ↔ Hyphenated s) ∧
      (∀ c ∈ (slug name).toList, c ≠ '.' ∧ c ≠ '/' ∧ c ≠ ' ') ∧
      ∀ conversations : Place,
        conversations.ofCard (slug name) = conversations ++ [slug name ++ ".json"] ∧
        conversations.ofFolder (slug name) = conversations ++ [slug name] ∧
        ∀ other : Text,
          conversations.ofCard (slug name) ≠ conversations.ofFolder (slug other) ∧
          (conversations.ofCard (slug name) = conversations.ofCard (slug other) ↔
            slug name = slug other) ∧
          (conversations.ofFolder (slug name) = conversations.ofFolder (slug other) ↔
            slug name = slug other) := by
  have hslug := hyphenated_slug name
  have hchars := hslug.chars.2
  refine ⟨hslug, slug_of_hyphenated hslug, fun s => slug_eq_self_iff, fun c hc => ?_,
    fun conversations => ⟨Place.ofCard_of_hyphenated hslug conversations,
      Place.ofFolder_of_hyphenated hslug conversations, fun other => ?_⟩⟩
  · exact ⟨(hchars c hc).ne '.' (by decide), (hchars c hc).ne '/' (by decide),
      (hchars c hc).ne ' ' (by decide)⟩
  · have hother := hyphenated_slug other
    simp only [Place.ofCard_of_hyphenated hslug, Place.ofCard_of_hyphenated hother,
      Place.ofFolder_of_hyphenated hslug, Place.ofFolder_of_hyphenated hother,
      List.append_cancel_left_eq, List.cons.injEq, and_true, ne_eq]
    refine ⟨fun heq => ?_, ?_⟩
    · have hdot : '.' ∈ (slug other).toList := by
        rw [← heq, String.toList_append]
        exact List.mem_append_right _ (by decide)
      exact absurd (hother.chars.2 '.' hdot) (by decide)
    · simp [← String.toList_inj]

example : slug "Bob's  Café!" = "bobs-cafe" := by decide +kernel

end Storyworld
