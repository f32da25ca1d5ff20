import Storyworld.Block.Parser
import Storyworld.Demo
import Storyworld.Proofs.Elements
import Storyworld.Proofs.QuotedLists

/-! The element for the scene, written for a hint and for tags and read back as these. -/

namespace Storyworld

variable {hint : Text} {tags : List Text} {cs : List Code}

/-- A hint that stays within a line, begins no tag, and has nothing at its ends that would be cut
off. -/
structure PlainHint (hint : Text) : Prop where
  inline : Inline hint.toList
  first : ∀ c ∈ hint.toList.head?, isBlank c = false ∧ isMark c = false
  last : ∀ c ∈ hint.toList.getLast?, isBlank c = false ∧ isMark c = false

instance : DecidablePred PlainHint := fun hint =>
  decidable_of_iff (Inline hint.toList ∧
    hint.toList.head?.all (fun c => !isBlank c && !isMark c) = true ∧
    hint.toList.getLast?.all (fun c => !isBlank c && !isMark c) = true)
    ⟨fun ⟨hinline, hfirst, hlast⟩ => ⟨hinline, by simpa [Option.all_eq_true] using hfirst,
        by simpa [Option.all_eq_true] using hlast⟩,
      fun ⟨hinline, hfirst, hlast⟩ => ⟨hinline, by simpa [Option.all_eq_true] using hfirst,
        by simpa [Option.all_eq_true] using hlast⟩⟩

/-- A text between quotation marks. -/
def marked (cs : List Code) : List Code := .char '\x22' :: (cs ++ [.char '\x22'])

theorem trim_marked (cs : List Code) : trim (marked cs) = marked cs := by
  have hmark : trim ['\x22'] = ['\x22'] := by decide
  exact trimWith_append hmark hmark (List.cons_ne_nil _ _) (List.cons_ne_nil _ _) cs

theorem PlainHint.unquote_marked (h : PlainHint hint) :
    unquote (marked hint.toList) = hint.toList := by
  have hmark : isMark '\x22' = true := by decide
  have hmarks : trimWith isMark hint.toList = hint.toList :=
    trimWith_eq_self_iff.mpr ⟨fun c hc => (h.first c hc).2, fun c hc => (h.last c hc).2⟩
  have hblanks : trim hint.toList = hint.toList :=
    trimWith_eq_self_iff.mpr ⟨fun c hc => (h.first c hc).1, fun c hc => (h.last c hc).1⟩
  rw [unquote, trim_marked, marked, trimWith_cons hmark,
    trimWith_append_right (List.forall_mem_singleton.mpr hmark), hmarks, hblanks]

theorem PlainHint.inline_marked (h : PlainHint hint) : Inline (marked hint.toList) := by
  have hmark : Inline ['\x22'] := by decide
  exact hmark.append (h.inline.append hmark)

/-- The element for a scene, with a line for the hint and one for the tags. -/
def writtenScene (hint : Text) (tags : List Text) : Text :=
  "<SceneMeta>\n- location_hint: \"" ++ hint ++ "\"\n- scene_tags: " ++ textList tags ++
    "\n</SceneMeta>"

/-- The heads of the two items in the element. -/
def hintHead (hint : Text) : List Code := labelled ("location_hint" : Text).toList (marked hint.toList)

def tagsHead (tags : List Text) : List Code :=
  labelled ("scene_tags" : Text).toList (textList tags).toList

def sceneBody (hint : Text) (tags : List Text) : List Code :=
  [.char '\n'] ++ (.char '-' :: .char ' ' :: hintHead hint ++
    ([.char '\n'] ++ (.char '-' :: .char ' ' :: tagsHead tags ++ [.char '\n'])))

theorem writtenScene_toList (hint : Text) (tags : List Text) :
    (writtenScene hint tags).toList = element ("SceneMeta" : Text).toList (sceneBody hint tags) := by
  have hopening : ("<SceneMeta>\n- location_hint: \"" : Text).toList =
      .char '<' :: (("SceneMeta" : Text).toList ++ .char '>' :: .char '\n' :: .char '-' :: .char ' ' ::
        (("location_hint" : Text).toList ++ [.char ':', .char ' ', .char '\x22'])) := by decide
  have hturn : ("\"\n- scene_tags: " : Text).toList =
      .char '\x22' :: .char '\n' :: .char '-' :: .char ' ' ::
        (("scene_tags" : Text).toList ++ [.char ':', .char ' ']) := by decide
  have hclosing : ("\n</SceneMeta>" : Text).toList =
      .char '\n' :: .char '<' :: .char '/' :: (("SceneMeta" : Text).toList ++ [.char '>']) := by decide
  unfold writtenScene
  simp only [Text.toList_append, hopening, hturn, hclosing, element, sceneBody, hintHead, tagsHead,
    labelled, marked, List.append_assoc, List.cons_append, List.nil_append]

theorem isLabel_hint : IsLabel ("location_hint" : Text).toList := by decide

theorem isLabel_tags : IsLabel ("scene_tags" : Text).toList := by decide

theorem trim_hintHead (hint : Text) : trim (hintHead hint) = hintHead hint :=
  isLabel_hint.trim_labelled (List.cons_ne_nil _ _) (trim_marked _)

theorem trim_tagsHead (tags : List Text) : trim (tagsHead tags) = tagsHead tags := by
  have hne : (textList tags).toList ≠ [] := by
    rw [textList_toList]
    exact List.cons_ne_nil _ _
  exact isLabel_tags.trim_labelled hne (trim_textList tags)

section

variable (hhint : PlainHint hint) (htags : ∀ t ∈ tags, .char '<' ∉ t.toList)

include hhint htags

theorem inline_heads : Inline (hintHead hint) ∧ Inline (tagsHead tags) :=
  ⟨isLabel_hint.inline_labelled hhint.inline_marked,
    isLabel_tags.inline_labelled (inline_textList htags)⟩

/-- Each line of the element is an item by itself. -/
theorem listItems_sceneBody :
    listItems (sceneBody hint tags) = [⟨hintHead hint, []⟩, ⟨tagsHead tags, []⟩] := by
  obtain ⟨hhead, htail⟩ := inline_heads hhint htags
  have hgap : Blank ['\n'] := by decide
  have hbreak : ∃ c ∈ [Code.char '\n'], isLineBreak c = true := ⟨'\n', by decide, by decide⟩
  have hne : hintHead hint ≠ [] := by simp [hintHead, labelled]
  have hne' : tagsHead tags ≠ [] := by simp [tagsHead, labelled]
  change (addLines [] (sceneBody hint tags)).reverse = _
  rw [sceneBody, addLines_blank_append hgap,
    addLines_turn (List.cons_ne_nil _ _) hhead.bullet hgap hbreak,
    addLine_bullet hne (trim_hintHead hint),
    addLines_line (List.cons_ne_nil _ _) htail.bullet hgap,
    addLine_bullet hne' (trim_tagsHead tags)]
  rfl

theorem untagged_sceneBody : .char '<' ∉ sceneBody hint tags := by
  obtain ⟨hhead, htail⟩ := inline_heads hhint htags
  have hgap : Code.char '<' ∉ [.char '\n'] := by decide
  simp only [sceneBody, List.mem_append, hgap, hhead.bullet.untagged, htail.bullet.untagged, or_self,
    not_false_eq_true]

theorem elements_written_scene {before after : List Code} (hbefore : .char '<' ∉ before)
    (hafter : .char '<' ∉ after) :
    elements "scenemeta" (before ++ (writtenScene hint tags).toList ++ after) =
      [sceneBody hint tags] := by
  have hname : Opens standsFor ("scenemeta" : Text).toList ("SceneMeta" : Text).toList := fun _ => rfl
  have hfound := yields_element hname (Unclosed.of_notMem (untagged_sceneBody hhint htags))
  have hfront := yields_nil_of_notMem ("scenemeta" : Text).toList hbefore
  have hback := yields_nil_of_notMem ("scenemeta" : Text).toList hafter
  rw [writtenScene_toList]
  exact ((hfront.append hfound).append hback).all

theorem sceneFields_written {before after : List Code} (hbefore : .char '<' ∉ before)
    (hafter : .char '<' ∉ after) : sceneFields (before ++ (writtenScene hint tags).toList ++ after) =
      [("locationhint", Text.ofList (marked hint.toList)), ("scenetags", textList tags)] := by
  have hhint' := splitLabel?_labelled isLabel_hint (trim_marked hint.toList)
  have htags' := splitLabel?_labelled isLabel_tags (trim_textList tags)
  have hkey : squash ("location_hint" : Text).toList = "locationhint" := by decide
  have hkey' : squash ("scene_tags" : Text).toList = "scenetags" := by decide
  rw [sceneFields, elements_written_scene hhint htags hbefore hafter, List.flatMap_singleton,
    listItems_sceneBody hhint htags]
  simp only [List.flatMap_cons, List.flatMap_nil, hintHead, tagsHead, hhint', htags', hkey, hkey',
    Text.ofList_toList, List.append_nil, List.cons_append, List.nil_append]

end

theorem readTags_textList (tags : List Text) :
    readTags (textList tags) = .ok (tags.map Text.joined) := by
  have hplain (texts : List Text) : (texts.map Value.text).map Value.plainText = texts := by
    rw [List.map_map]
    exact List.map_id texts
  rw [readTags, Json.read_textList]
  exact congrArg Except.ok (hplain _)

/-- What is written for a hint and for tags is read as these, with pairs of halves joined, wherever in a
text without other tags it stands. -/
theorem Card.scene_reads_joined (card : Card) (hhint : PlainHint hint)
    (htags : ∀ t ∈ tags, .char '<' ∉ t.toList) {before after : Text}
    (hbefore : .char '<' ∉ before.toList) (hafter : .char '<' ∉ after.toList) :
    ∃ block, card.parse (before ++ writtenScene hint tags ++ after) = .ok block ∧
      block.scene = some ⟨some hint, some (tags.map Text.joined)⟩ := by
  have hhint' : Text.ofList (unquote (Text.ofList (marked hint.toList)).toList) = hint := by
    rw [Text.toList_ofList, hhint.unquote_marked, Text.ofList_toList]
  have hupdate : sceneUpdate (before ++ writtenScene hint tags ++ after).toList =
      .ok (some ⟨some hint, some (tags.map Text.joined)⟩) := by
    rw [Text.toList_append, Text.toList_append, sceneUpdate,
      sceneFields_written hhint htags hbefore hafter]
    simp only [List.foldlM_cons, List.foldlM_nil, addSceneField, readTags_textList, hhint']
    rfl
  rw [parse, hupdate]
  exact ⟨_, rfl, rfl⟩

/-- Where no halves stand in pairs, the tags are read as they were written. -/
theorem Card.scene_reads_back (card : Card) (hhint : PlainHint hint)
    (htags : ∀ t ∈ tags, .char '<' ∉ t.toList) (hapart : ∀ t ∈ tags, Apart t.toList)
    {before after : Text} (hbefore : .char '<' ∉ before.toList)
    (hafter : .char '<' ∉ after.toList) :
    ∃ block, card.parse (before ++ writtenScene hint tags ++ after) = .ok block ∧
      block.scene = some ⟨some hint, some tags⟩ := by
  have hjoined : tags.map Text.joined = tags :=
    (List.map_congr_left fun t ht => (hapart t ht).joined_eq).trans (List.map_id tags)
  have hreads := card.scene_reads_joined hhint htags hbefore hafter
  rwa [hjoined] at hreads

namespace Demo

def dockHint : Text := "Dock: pier 7 \"north\" (wet)"

/-- Tags with what separates tags, brackets them, quotes them and ends lines, and with a half by
itself. -/
def dockTags : List Text :=
  ["rain, wind", "[a]: 'b'", "say \"hi\" \\", "two\nlines", "", " 夜 ", "🚂",
    Text.ofList [.high 0x3d]]

theorem dock_reads_back :
    ∃ block, card.parse ("He waits.\n" ++ writtenScene dockHint dockTags ++ "\nThey talk.") =
        .ok block ∧ block.scene = some ⟨some dockHint, some dockTags⟩ :=
  card.scene_reads_back (by decide) (by decide) (by decide) (by decide) (by decide)

/-- A tag of the two halves that encode one character. -/
def halvedTag : Text := Text.ofList [.high 0x3d, .low 0x200]

/-- The two halves are read back as the one character. -/
theorem halvedTag_joined : PlainHint dockHint ∧ Code.char '<' ∉ halvedTag.toList ∧
    ∃ block, card.parse ("He waits.\n" ++ writtenScene dockHint [halvedTag] ++ "\nThey talk.") =
        .ok block ∧ block.scene ≠ some ⟨some dockHint, some [halvedTag]⟩ := by
  have hhint : PlainHint dockHint := by decide
  have htags : ∀ t ∈ [halvedTag], .char '<' ∉ t.toList := by decide
  have hbefore : .char '<' ∉ ("He waits.\n" : Text).toList := by decide
  have hafter : .char '<' ∉ ("\nThey talk." : Text).toList := by decide
  obtain ⟨block, hblock, hjoined⟩ := card.scene_reads_joined hhint htags hbefore hafter
  refine ⟨hhint, by decide, block, hblock, fun hscene => ?_⟩
  have htag : [halvedTag].map Text.joined ≠ [halvedTag] := by decide
  simp only [hscene, Option.some.injEq, SceneUpdate.mk.injEq, true_and] at hjoined
  exact htag hjoined.symm

end Demo

end Storyworld
