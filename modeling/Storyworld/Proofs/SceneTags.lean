import Storyworld.Proofs.Elements
import Storyworld.Proofs.Excerpts
import Storyworld.Proofs.ItemLines
import Storyworld.Proofs.LongNumerals
import Storyworld.Proofs.Outcome

/-! Tags of the scene. A text that cannot be read has tags that are, or hold, an integer too long to
read, and an element for the scene can put such tags anywhere in a text. -/

namespace Storyworld

variable {α : Type} {raw : Text} {f : Json.Flaw} {field : String × Text}
  {fields : List (String × Text)} {update scene : Option SceneUpdate}

/-- The parts of a text between commas, without blanks, brackets and quotation marks around them. -/
def partedTags (raw : Text) : List Text :=
  let inner := trimWith (fun c : Code => c == '[' || c == ']') (trim raw.toList)
  ((splitAtMark (.char ',') inner).map fun cs => Text.ofList (unquote cs)).filter (· ≠ "")

/-- What the tags in a text are: the items of a JSON list, or else the parts between commas. -/
inductive TagsOf (raw : Text) : List Text → Prop
  | list {items : List Value} (h : Json.read raw = .ok (.list items)) :
      TagsOf raw (items.map Value.plainText)
  | parted (h : ∀ items, Json.read raw ≠ .ok (.list items)) : TagsOf raw (partedTags raw)

theorem readTags_eq_ok {tags : List Text} (h : readTags raw = .ok tags) : TagsOf raw tags := by
  simp only [readTags] at h
  split at h
  · rename_i items hread
    obtain rfl := Except.ok.inj h
    exact .list hread
  · cases h
  · rename_i hlist _
    obtain rfl := Except.ok.inj h
    exact .parted hlist

theorem readTags_eq_error_iff :
    readTags raw = .error f ↔ f = .overlong ∧ Json.read raw = .error .overlong := by
  simp only [readTags]
  split <;> rename_i hread
  · simp [hread]
  · simp [hread, eq_comm]
  · simpa using fun _ => hread

theorem addSceneField_eq_error_iff (update : Option SceneUpdate) (field : String × Text)
    (f : Json.Flaw) : addSceneField update field = .error f ↔
      f = .overlong ∧ field.1 = "scenetags" ∧ Json.read field.2 = .error .overlong := by
  simp only [addSceneField]
  split <;> rename_i hkey
  · simp [hkey]
  · simp only [hkey, true_and, ← readTags_eq_error_iff]
    cases readTags field.2 <;> simp [bind, Except.bind]
  · simp_all

/-- Some tags of the scene in the text are, or hold, an integer that is too long to read. -/
def OverlongTags (text : Text) : Prop :=
  ∃ raw, ("scenetags", raw) ∈ sceneFields text.toList ∧ Json.read raw = .error .overlong

theorem sceneUpdate_eq_error_iff {text : Text} :
    sceneUpdate text.toList = .error f ↔ f = .overlong ∧ OverlongTags text := by
  rw [sceneUpdate, foldlM_eq_error_iff (P := fun _ => True)
    (fun field _ update _ => ⟨addSceneField_eq_error_iff update field, fun _ _ => trivial⟩) trivial]
  refine and_congr_right fun _ => ⟨?_, ?_⟩
  · rintro ⟨⟨_, raw⟩, hmem, rfl, hread⟩
    exact ⟨raw, hmem, hread⟩
  · rintro ⟨raw, hmem, hread⟩
    exact ⟨("scenetags", raw), hmem, rfl, hread⟩

/-- A text cannot be read exactly where it asks for overlong tags. -/
theorem Card.parse_eq_error_iff {card : Card} {text : Text} :
    card.parse text = .error f ↔ f = .overlong ∧ OverlongTags text := by
  rw [← sceneUpdate_eq_error_iff, Card.parse]
  cases sceneUpdate text.toList <;> simp [bind, Except.bind]

theorem OverlongTags.hasLongRun {text : Text} (h : OverlongTags text) :
    HasLongRun text.toList := by
  obtain ⟨raw, hmem, hread⟩ := h
  exact (Json.hasLongRun_of_read hread).of_isInfix (sceneFields_isInfix hmem)

theorem not_overlongTags_of_length {text : Text} (h : text.toList.length ≤ digitLimit) :
    ¬ OverlongTags text := by
  intro hoverlong
  obtain ⟨ds, hds, -, hlong⟩ := hoverlong.hasLongRun
  have hle := hds.length_le
  omega

/-- The tags in an update are those of some field. -/
def TagsAmong (fields : List (String × Text)) (update : Option SceneUpdate) : Prop :=
  ∀ u ∈ update, ∀ tags ∈ u.sceneTags, ∃ raw, ("scenetags", raw) ∈ fields ∧ TagsOf raw tags

theorem TagsAmong.addSceneField (h : TagsAmong fields update) (hfield : field ∈ fields) :
    Ends (TagsAmong fields) (fun _ => True) (addSceneField update field) := by
  have hkept : ∀ tags ∈ (update.getD ⟨none, none⟩).sceneTags,
      ∃ raw, ("scenetags", raw) ∈ fields ∧ TagsOf raw tags := by
    cases update with
    | none => nofun
    | some u => exact h u rfl
  simp only [Storyworld.addSceneField]
  split <;> rename_i hkey
  · refine .ok fun u hu => ?_
    obtain rfl := Option.some.inj hu
    exact hkept
  · cases htags : readTags field.2 with
    | error e => exact .error trivial
    | ok tags =>
      refine .ok fun u hu tags' htags' => ?_
      obtain rfl := Option.some.inj hu
      obtain rfl := Option.some.inj htags'
      exact ⟨field.2, hkey ▸ hfield, readTags_eq_ok htags⟩
  · exact .ok h

theorem tagsAmong_sceneUpdate {cs : List Code} (h : sceneUpdate cs = .ok scene) :
    TagsAmong (sceneFields cs) scene := by
  have hends : Ends (TagsAmong (sceneFields cs)) (fun _ => True) (sceneUpdate cs) :=
    Ends.foldlM nofun fun field hfield update hupdate => hupdate.addSceneField hfield
  exact hends.of_ok h

theorem mem_elements_scene {before body : List Code} (hbefore : .char '<' ∉ before)
    (hbody : .char '<' ∉ body) (after : List Code) :
    body ∈ elements "scenemeta" (before ++ element ("SceneMeta" : Text).toList body ++ after) := by
  have hname : Opens standsFor ("scenemeta" : Text).toList ("SceneMeta" : Text).toList := fun _ => rfl
  have hbefore := yields_nil_of_notMem ("scenemeta" : Text).toList hbefore
  have hfound := yields_element hname (Unclosed.of_notMem hbody)
  rw [elements, hbefore.append hfound]
  exact List.mem_cons_self

theorem digits_plain {ds : List Code} (hdigits : ∀ d ∈ ds, d.isDigit = true) :
    Inline ds ∧ trim ds = ds := by
  have hrange : ∀ d ∈ ds, 48 ≤ d.toNat ∧ d.toNat ≤ 57 := fun d hd =>
    Code.isDigit_iff.mp (hdigits d hd)
  have hblank : ∀ d ∈ ds, isBlank d = false ∧ isLineBreak d = false := by
    intro d hd
    have hd := hrange d hd
    simp only [isBlank, isLineBreak, covers, blankRanges, List.any_cons, List.any_nil,
      Bool.or_eq_false_iff, Bool.and_eq_false_iff, decide_eq_false_iff_not, and_true]
    omega
  refine ⟨fun d hd => ⟨(hblank d hd).2, ?_⟩, trimWith_eq_self_iff.mpr
    ⟨fun d hd => (hblank d (List.mem_of_head? hd)).1,
      fun d hd => (hblank d (List.mem_of_getLast? hd)).1⟩⟩
  rintro rfl
  exact absurd (hdigits '<' hd) (by decide)

/-- Tags that are an overlong integer, in an element for the scene that stands where no other element
has begun. -/
theorem overlongTags_between {before : Text} (hbefore : .char '<' ∉ before.toList) {ds : List Code}
    (hdigits : ∀ d ∈ ds, d.isDigit = true) (hzero : ds.head? ≠ some '0')
    (hlong : digitLimit < ds.length) (after : Text) :
    OverlongTags (before ++ "<SceneMeta>- scene_tags: " ++ Text.ofList ds ++ "</SceneMeta>" ++
      after) := by
  have hne : ds ≠ [] := by
    rintro rfl
    cases hlong
  obtain ⟨hinline, htrim⟩ := digits_plain hdigits
  have hlabel : IsLabel ("scene_tags" : Text).toList := by decide
  have hline := hlabel.inline_labelled hinline
  have hempty : labelled ("scene_tags" : Text).toList ds ≠ [] := by simp [labelled]
  have hblank : Blank [] := List.forall_mem_nil _
  have hitems := listItems_bullet hblank hblank hempty (hlabel.trim_labelled hne htrim) hline
  rw [List.nil_append, List.append_nil] at hitems
  have htext : (before ++ "<SceneMeta>- scene_tags: " ++ Text.ofList ds ++ "</SceneMeta>" ++
      after).toList = before.toList ++
        element ("SceneMeta" : Text).toList ('-' :: ' ' :: labelled ("scene_tags" : Text).toList ds) ++
          after.toList := by
    simp [element, labelled]
  refine ⟨Text.ofList ds, ?_, Json.read_digits hdigits hzero hlong⟩
  rw [htext]
  refine List.mem_flatMap.mpr
    ⟨_, mem_elements_scene hbefore hline.bullet.untagged after.toList, ?_⟩
  rw [hitems, List.flatMap_singleton, splitLabel?_labelled hlabel htrim]
  refine List.mem_append_left _ (List.mem_singleton.mpr ?_)
  have hkey : squash ("scene_tags" : Text).toList = "scenetags" := by decide
  exact congrArg (·, Text.ofList ds) hkey.symm

/-- An element for the scene with an integer of ones for its tags. -/
def onesElement (n : Nat) : Text :=
  "<SceneMeta>- scene_tags: " ++ Text.ofList (List.replicate n '1') ++ "</SceneMeta>"

theorem overlongTags_ones (before : Text) (hbefore : .char '<' ∉ before.toList) {n : Nat}
    (hlong : digitLimit < n) (after : Text) :
    OverlongTags (before ++ onesElement n ++ after) := by
  have hdigits : ∀ d ∈ List.replicate n (Code.char '1'), d.isDigit = true := by
    intro d hd
    rw [List.eq_of_mem_replicate hd]
    decide
  have hzero : (List.replicate n (Code.char '1')).head? ≠ some '0' := by
    rw [List.head?_replicate]
    split <;> simp
  have hlength : digitLimit < (List.replicate n (Code.char '1')).length := by
    rw [List.length_replicate]
    exact hlong
  have htags := overlongTags_between hbefore hdigits hzero hlength after
  unfold onesElement
  rw [← Text.append_assoc, ← Text.append_assoc]
  exact htags

end Storyworld
