import Storyworld.Files
import Storyworld.Proofs.KeptCheckpoint

/-! Files that keep an archive: what is read from them is what the archive holds, and a write into the
folder of a conversation keeps the archive in which this conversation is changed. -/

namespace Storyworld

open Codec Record

theorem role_returns (r : Role) : Role.codec.Returns r := by
  cases r <;> rfl

theorem turn_returns (t : Turn) : Turn.codec.Returns t := by
  refine codec_returns ?_ rfl
  refine field_returns (field_returns (field_returns (field_returns (make_returns _ _) ?_
    (count_returns _)) ?_ (role_returns _)) ?_ (text_returns _)) ?_ (optionalText_returns _)
  all_goals simp [field, make, Entries.keys, Key.plain]

theorem turns_return (ts : List Turn) : (list Turn.codec).Returns ts :=
  list_returns fun t _ => turn_returns t

def Conversation.folder (c : Conversation) : Folder :=
  ⟨c.history.map (Codec.list Turn.codec).dump, c.checkpoint⟩

@[simp] theorem Conversation.folder_history (c : Conversation) :
    c.folder.history = c.history.map (Codec.list Turn.codec).dump := rfl

@[simp] theorem Conversation.folder_checkpoint (c : Conversation) :
    c.folder.checkpoint = c.checkpoint := rfl

/-- A kept checkpoint can be read. -/
def Conversation.Readable (c : Conversation) : Prop :=
  ∀ v, c.checkpoint = some v → ∃ p, Checkpoint.codec.load v = .accepted p

namespace Archive

variable {a b : Archive} {slug : String}

theorem mem_slugs_insert {c : Conversation} {other : String} :
    other ∈ (insert slug c a).slugs ↔ other = slug ∨ other ∈ a.slugs := by
  induction a with
  | nil => simp [insert, slugs]
  | cons e a ih =>
    simp only [slugs] at ih
    by_cases h : slug < e.1
    · simp [insert, slugs, h]
    · simp only [insert, slugs, h, if_false, List.map_cons, List.mem_cons, ih]
      grind

theorem sorted_insert (h : a.slugs.Pairwise (· < ·)) (hn : slug ∉ a.slugs) (c : Conversation) :
    (insert slug c a).slugs.Pairwise (· < ·) := by
  induction a with
  | nil => simp [insert, slugs]
  | cons e a ih =>
    obtain ⟨hfirst, hrest⟩ := List.pairwise_cons.mp h
    by_cases hlt : slug < e.1
    · simp only [insert, hlt, if_true]
      refine List.pairwise_cons.mpr ⟨fun other hother => ?_, h⟩
      rcases List.mem_cons.mp hother with rfl | hother
      · exact hlt
      · exact String.lt_trans hlt (hfirst other hother)
    · have hne : slug ≠ e.1 := fun he => hn (he ▸ List.mem_cons_self)
      have hgt : e.1 < slug := Decidable.byContradiction fun hle => hne (String.le_antisymm hle hlt)
      simp only [insert, hlt, if_false]
      have hfree : slug ∉ slugs a := fun hm => hn (List.mem_cons_of_mem _ hm)
      refine List.pairwise_cons.mpr ⟨fun other hother => ?_, ih hrest hfree⟩
      rcases mem_slugs_insert.mp hother with rfl | hother
      · exact hgt
      · exact hfirst other hother

theorem sorted_erase (h : a.slugs.Pairwise (· < ·)) (slug : String) :
    (a.erase slug).slugs.Pairwise (· < ·) :=
  h.sublist (List.filter_sublist.map _)

end Archive

namespace Files

variable {f g : Files} {a b : Archive} {slug : String} {c d : Conversation} {α : Type}

/-- The files are those of an archive. -/
structure Keep (f : Files) (a : Archive) : Prop where
  cards : ∀ slug, f.cards.get? slug = (Entries.get? slug a).map (·.card)
  folders : ∀ slug, f.folders.get? slug = (Entries.get? slug a).map (·.folder)
  readable : a.All Conversation.Readable
  nodup : f.cards.keys.Nodup
  sorted : a.slugs.Pairwise (· < ·)

theorem keep_empty : empty.Keep .empty :=
  ⟨fun _ => rfl, fun _ => rfl, nofun, List.nodup_nil, List.Pairwise.nil⟩

namespace Keep

theorem historyOf (h : f.Keep a) (hc : Entries.get? slug a = some c) :
    f.historyOf slug = c.history.map (Codec.list Turn.codec).dump := by
  simp [Files.historyOf, h.folders, hc]

theorem checkpointOf (h : f.Keep a) (hc : Entries.get? slug a = some c) :
    f.checkpointOf slug = c.checkpoint := by
  simp [Files.checkpointOf, h.folders, hc]

theorem run_turns (h : f.Keep a) (slug : String) :
    (turns slug).run f = match a.turns slug with
      | .ok ts => .ok ts f
      | .error e => .error e f := by
  cases hc : Entries.get? slug a with
  | none => simp [turns, Files.historyOf, h.folders, Archive.turns, hc]
  | some c =>
    have hhistory := h.historyOf hc
    rw [Archive.turns_of_get? hc, Conversation.turns]
    cases ht : c.history with
    | unwritten => simp [turns, hhistory, ht, History.map]
    | emptied => simp [turns, hhistory, ht, History.map]
    | written ts =>
      have hload := turns_return ts
      unfold Codec.Returns at hload
      simp [turns, hhistory, ht, History.map, hload]

theorem run_checkpoint? (h : f.Keep a) (slug : String) :
    (checkpoint? slug).run f = .ok (a.checkpoint? slug) f := by
  cases hc : Entries.get? slug a with
  | none => simp [checkpoint?, Files.checkpointOf, h.folders, Archive.checkpoint?, hc]
  | some c =>
    have hcheckpoint := h.checkpointOf hc
    cases hv : c.checkpoint with
    | none =>
      simp [checkpoint?, hcheckpoint, Archive.checkpoint?, hc, Conversation.checkpoint?, hv]
    | some v =>
      obtain ⟨p, hp⟩ := h.readable slug c hc v hv
      simp [checkpoint?, hcheckpoint, Archive.checkpoint?, hc, Conversation.checkpoint?, hv, hp,
        Checked.toOption]

theorem run_card? (h : f.Keep a) (slug : String) :
    (card? slug).run f = match a.card? slug with
      | .ok card => .ok card f
      | .error e => .error e f := by
  have hcard := h.cards slug
  cases hc : Entries.get? slug a with
  | none => simp [card?, hcard, Archive.card?, hc]
  | some c => cases hv : Card.codec.load c.card <;> simp [card?, hcard, Archive.card?, hc, hv]

theorem run_opened (h : f.Keep a) (slug : String) :
    (opened slug).run f = match a.opened slug with
      | .ok found => .ok found f
      | .error e => .error e f := by
  have hcard := h.run_card? slug
  unfold opened Archive.opened
  rw [EStateM.run_bind, hcard]
  cases a.card? slug with
  | error e => rfl
  | ok found =>
    cases found with
    | none => rfl
    | some card => cases hs : card.initialState <;> simp [hs]

theorem run_list (h : f.Keep a) : list.run f = .ok a.slugs f := by
  -- The same slugs, each of them once, and both lists in order.
  have hmem : ∀ slug, slug ∈ f.cards.keys.mergeSort ↔ slug ∈ a.slugs := by
    intro slug
    have hslugs : slug ∈ a.slugs ↔ (Entries.get? slug a).isSome := Entries.mem_keys_iff
    rw [List.mem_mergeSort, Entries.mem_keys_iff, h.cards, Option.isSome_map]
    exact hslugs.symm
  have hmerged : f.cards.keys.mergeSort.Pairwise fun s t => decide (s ≤ t) = true :=
    List.pairwise_mergeSort (by simpa using fun _ _ _ => String.le_trans)
      (by simpa using String.le_total) f.cards.keys
  have hordered : f.cards.keys.mergeSort.Pairwise (· ≤ ·) := by simpa using hmerged
  have hperm : f.cards.keys.mergeSort.Perm a.slugs :=
    (List.perm_ext_iff_of_nodup ((List.mergeSort_perm _ _).nodup_iff.mpr h.nodup)
      (h.sorted.imp String.ne_of_lt)).mpr hmem
  have hsame : f.cards.keys.mergeSort = a.slugs :=
    hperm.eq_of_pairwise (fun s t _ _ => String.le_antisymm) hordered (h.sorted.imp String.lt_asymm)
  simp [list, hsame]

theorem put (h : f.Keep a) (hc : Entries.get? slug a = some c) {change : Folder → Folder}
    (hcard : d.card = c.card) (hfolder : d.folder = change c.folder) (hd : d.Readable) :
    (f.inFolder slug change).Keep (Entries.put slug d a) where
  cards other := by
    rw [cards_inFolder, h.cards, Entries.get?_put]
    by_cases ho : slug = other
    · simp [← ho, hc, hcard]
    · simp [ho]
  folders other := by
    rw [get?_inFolder, Entries.get?_put, h.folders, h.folders, hc]
    by_cases ho : slug = other <;> simp [ho, hfolder]
  readable := h.readable.put hd
  nodup := by
    rw [cards_inFolder]
    exact h.nodup
  sorted := by
    have hslugs : Archive.slugs (Entries.put slug d a) = a.slugs := Entries.keys_put_of_get? hc d
    rw [hslugs]
    exact h.sorted

theorem run_writeInto (h : f.Keep a) (hc : Entries.get? slug a = some c)
    (change : Folder → Folder) :
    (writeInto slug change).run f = .ok () (f.inFolder slug change) := by
  simp [writeInto, h.folders, hc]

theorem run_writeInto_none (h : f.Keep a) (hc : Entries.get? slug a = none)
    (change : Folder → Folder) : (writeInto slug change).run f = .error .noConversation f := by
  simp [writeInto, h.folders, hc]

theorem put_emptied (h : f.Keep a) (hc : Entries.get? slug a = some c) :
    (f.inFolder slug fun d => { d with history := .emptied }).Keep
      (Entries.put slug c.emptied a) :=
  h.put hc rfl rfl (h.readable slug c hc)

theorem run_writeTurns (h : f.Keep a) (hc : Entries.get? slug a = some c) {ts : List Turn}
    (hplain : ts.all (·.isPlain) = true) : ∃ g, (writeTurns slug ts).run f = .ok () g ∧
      g.Keep (Entries.put slug (c.write ts) a) := by
  have hempty := h.put_emptied hc
  have hself := Entries.get?_put_self a slug c.emptied
  have hput : ((f.inFolder slug fun d => { d with history := .emptied }).inFolder slug fun d =>
      { d with history := .written ((Codec.list Turn.codec).dump ts) }).Keep
        (Entries.put slug (c.write ts) (Entries.put slug c.emptied a)) :=
    hempty.put hself rfl rfl (h.readable slug c hc)
  rw [Entries.put_put] at hput
  refine ⟨_, ?_, hput⟩
  simp [writeTurns, h.run_writeInto hc, isPlain_turns, hplain, hempty.run_writeInto hself]

/-- Where a history cannot be encoded, its file is left empty. -/
theorem run_writeTurns_half (h : f.Keep a) (hc : Entries.get? slug a = some c) {ts : List Turn}
    (hhalf : ts.all (·.isPlain) = false) : ∃ g, (writeTurns slug ts).run f = .error .unencodable g ∧
      g.Keep (Entries.put slug c.emptied a) :=
  ⟨_, by simp [writeTurns, h.run_writeInto hc, isPlain_turns, hhalf], h.put_emptied hc⟩

theorem run_dropFrom (h : f.Keep a) (hc : Entries.get? slug a = some c) (n : Nat) :
    ∃ g, (dropFrom slug n).run f = .ok () g ∧ g.Keep (Entries.put slug (c.dropFrom n) a) := by
  have hread : a.checkpoint? slug = c.checkpoint? := by simp [Archive.checkpoint?, hc]
  unfold dropFrom Conversation.dropFrom
  rw [EStateM.run_bind, h.run_checkpoint?, hread]
  cases c.checkpoint? with
  | none => exact ⟨f, rfl, (Entries.put_self hc).symm ▸ h⟩
  | some p =>
    by_cases hn : n ≤ p.index
    · simp only [hn, if_true]
      refine ⟨_, rfl, h.put hc rfl rfl ?_⟩
      rintro _ ⟨⟩
    · simp only [hn, if_false]
      exact ⟨f, rfl, (Entries.put_self hc).symm ▸ h⟩

end Keep

end Files

end Storyworld
