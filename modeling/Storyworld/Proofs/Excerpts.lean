import Storyworld.Block.Parser
import Storyworld.Proofs.Coordinates
import Storyworld.Proofs.TextParts

/-! Excerpts of a text. What is read out of elements, of their items and of labelled lines stands in
the text in one piece. -/

namespace Storyworld

variable {α : Type} {cs body rest tag : List Code} {same : Code → Code → Bool} {n : Nat}

theorem splitLabel?_isInfix {label value : List Code} (h : splitLabel? cs = some (label, value)) :
    value <:+: cs := by
  simp only [splitLabel?] at h
  split at h
  · cases h
  · rename_i c after hafter
    split at h
    · cases h
    · obtain ⟨-, rfl⟩ := Prod.mk.inj (Option.some.inj h)
      have htail : after <:+ cs := by
        have hdrop := List.dropWhile_suffix (l := cs) (!isColon ·)
        rw [hafter] at hdrop
        exact (List.suffix_cons c after).trans hdrop
      exact (trimWith_isInfix isBlank after).trans htail.isInfix

/-- The head of the item and the values of its attributes are excerpts of a text. -/
def Item.Excerpt (cs : List Code) (item : Item) : Prop :=
  item.head <:+: cs ∧ Entries.All (fun _ value => value.toList <:+: cs) item.attributes

theorem addLine_excerpt {items : List Item} {line : List Code} (hline : line <:+: cs)
    (h : ∀ item ∈ items, item.Excerpt cs) : ∀ item ∈ addLine items line, item.Excerpt cs := by
  have htrim : trim line <:+: cs := (trimWith_isInfix isBlank line).trans hline
  have hhead {ds : List Code} (hds : ds <:+: cs) :
      Item.Excerpt cs ⟨trim (trimStart isBullet ds), []⟩ :=
    ⟨(trimWith_isInfix isBlank _).trans ((List.dropWhile_suffix _).isInfix.trans hds),
      Entries.all_nil⟩
  simp only [addLine]
  split
  · exact h
  · exact List.forall_mem_singleton.mpr (hhead htrim)
  · rename_i c ds last older hds
    rw [hds] at htrim
    obtain ⟨hlast, holder⟩ := List.forall_mem_cons.mp h
    split
    · exact List.forall_mem_cons.mpr ⟨hhead htrim, h⟩
    · split
      · rename_i label value hlabel
        have hvalue := (splitLabel?_isInfix hlabel).trans htrim
        refine List.forall_mem_cons.mpr ⟨⟨hlast.1, hlast.2.put ?_⟩, holder⟩
        rwa [Text.toList_ofList]
      · exact h

theorem listItems_excerpt (cs : List Code) : ∀ item ∈ listItems cs, item.Excerpt cs := by
  intro item hitem
  refine List.foldlRecOn (motive := fun items => ∀ item ∈ items, item.Excerpt cs)
    (lines cs) addLine ?_ ?_ item (List.mem_reverse.mp hitem)
  · exact List.forall_mem_nil _
  · intro items h line hline
    exact addLine_excerpt ((lines_isInfix cs).1 line hline) h

theorem exists_of_mem_leftmost {found? : List Code → Option (α × List Code)} {a : α}
    (h : a ∈ leftmost found? n cs) : ∃ part rest, part <:+ cs ∧ found? part = some (a, rest) := by
  fun_induction leftmost found? n cs with
  | case1 => cases h
  | case2 skip c cs ih =>
    obtain ⟨part, rest, hpart, hfound⟩ := ih h
    exact ⟨part, rest, hpart.trans (List.suffix_cons c cs), hfound⟩
  | case3 c cs b rest hb ih =>
    rcases List.mem_cons.mp h with rfl | h
    · exact ⟨c :: cs, rest, List.suffix_refl _, hb⟩
    · obtain ⟨part, rest, hpart, hfound⟩ := ih h
      exact ⟨part, rest, hpart.trans (List.suffix_cons c cs), hfound⟩
  | case4 c cs hb ih =>
    obtain ⟨part, rest, hpart, hfound⟩ := ih h
    exact ⟨part, rest, hpart.trans (List.suffix_cons c cs), hfound⟩

theorem afterName?_isSuffix (h : afterName? same tag cs = some rest) : rest <:+ cs := by
  fun_induction afterName? same tag cs with
  | case1 => exact Option.some.inj h ▸ List.suffix_refl _
  | case2 t ts c cs hc ih => exact (ih h).trans (List.suffix_cons c cs)
  | case3 => cases h
  | case4 => cases h

theorem afterOpening?_isSuffix (h : afterOpening? cs = some rest) : rest <:+ cs := by
  cases cs with
  | nil => cases h
  | cons c cs =>
    simp only [afterOpening?] at h
    split at h
    · cases h
    · split at h
      · rename_i d after hdrop
        obtain rfl := Option.some.inj h
        have hsuffix := List.dropWhile_suffix (l := c :: cs) (· != '>')
        rw [hdrop] at hsuffix
        exact (List.suffix_cons d after).trans hsuffix
      · cases h

theorem untilClosing?_isPrefix (h : untilClosing? same tag cs = some (body, rest)) :
    body <+: cs := by
  induction cs generalizing body with
  | nil => cases h
  | cons c cs ih =>
    rw [untilClosing?] at h
    split at h
    · obtain ⟨rfl, -⟩ := Prod.mk.inj (Option.some.inj h)
      exact List.nil_prefix
    · obtain ⟨⟨ds, after⟩, hds, hbody⟩ := Option.map_eq_some_iff.mp h
      obtain ⟨rfl, rfl⟩ := Prod.mk.inj hbody
      exact List.cons_prefix_cons.mpr ⟨rfl, ih hds⟩

theorem elementAt?_isInfix (h : elementAt? tag cs = some (body, rest)) : body <:+: cs := by
  unfold elementAt? at h
  split at h
  · rename_i ds
    obtain ⟨after, hname, h⟩ := Option.bind_eq_some_iff.mp h
    obtain ⟨inner, hopening, h⟩ := Option.bind_eq_some_iff.mp h
    have hinner := (afterOpening?_isSuffix hopening).trans (afterName?_isSuffix hname)
    exact (untilClosing?_isPrefix h).isInfix.trans
      (hinner.trans (List.suffix_cons (.char '<') ds)).isInfix
  · cases h

theorem elements_isInfix {name : Text} (h : body ∈ elements name cs) : body <:+: cs := by
  obtain ⟨part, rest, hpart, hfound⟩ := exists_of_mem_leftmost h
  exact (elementAt?_isInfix hfound).trans hpart.isInfix

theorem sceneFields_isInfix {key : String} {value : Text} (h : (key, value) ∈ sceneFields cs) :
    value.toList <:+: cs := by
  obtain ⟨body, hbody, h⟩ := List.mem_flatMap.mp h
  obtain ⟨item, hitem, h⟩ := List.mem_flatMap.mp h
  obtain ⟨hhead, hattributes⟩ := listItems_excerpt body item hitem
  refine List.IsInfix.trans ?_ (elements_isInfix hbody)
  rcases List.mem_append.mp h with h | h
  · split at h
    · rename_i label words hlabel
      obtain ⟨-, rfl⟩ := Prod.mk.inj (List.mem_singleton.mp h)
      rw [Text.toList_ofList]
      exact (splitLabel?_isInfix hlabel).trans hhead
    · cases h
  · exact hattributes _ h

end Storyworld
