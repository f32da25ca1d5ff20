import Storyworld.Proofs.Lines
import Storyworld.Proofs.Replay

/-! What conversations amount to: for every slug that is taken a list of lines, which operations
extend, edit and cut off. The lines are lost with the first one that cannot be encoded. -/

namespace Storyworld

/-- The lines of a conversation, none once they are lost. -/
abbrev Page := Option (List Line)

/-- What stands under every slug that is taken. -/
abbrev Ledger := String → Option Page

namespace Ledger

def empty : Ledger := fun _ => none

/-- Lines that are lost stay so. -/
def rewrite (l : Ledger) (slug : String) (change : List Line → Page) : Ledger :=
  fun other => if slug = other then (l other).map (·.bind change) else l other

/-- A new line goes into a page, which is lost if the line cannot be encoded. Where there is none the
page stays. -/
def enter (line : Option Line) (lines : List Line) (place : Line → List Line) : Page :=
  match line with
  | none => some lines
  | some line => if line.isPlain then some (place line) else none

def after (l : Ledger) : Operation → Ledger
  | .create name card => fun other =>
    if slug name = other ∧ card.isPlain then some ((l other).getD (some [])) else l other
  | .delete slug => fun other => if slug = other then none else l other
  | .append slug role text parseOutput =>
    l.rewrite slug fun lines => enter (Line.of? role text parseOutput) lines fun line => lines ++ [line]
  | .update slug index changes => l.rewrite slug fun lines =>
    let old := if 0 ≤ index then lines[index.toNat]? else none
    enter (old.bind (·.edited? changes)) lines (lines.set index.toNat)
  | .truncate slug length => l.rewrite slug fun lines => some (lines.take length.toNat)
  | _ => l

def run (l : Ledger) (ops : List Operation) : Ledger := ops.foldl after l

theorem rewrite_eq_self {l : Ledger} {slug : String} {change : List Line → Page}
    (h : ∀ lines, l slug = some (some lines) → change lines = some lines) :
    l.rewrite slug change = l := by
  funext other
  by_cases ho : slug = other
  · subst ho
    cases hl : l slug with
    | none => simp [rewrite, hl]
    | some page =>
      cases page with
      | none => simp [rewrite, hl]
      | some lines => simp [rewrite, hl, h lines hl]
  · simp [rewrite, ho]

end Ledger

namespace Conversation

/-- The lines of a conversation, if its history can be read. -/
def page (c : Conversation) : Page := c.turns.toOption.map (·.map Turn.line)

theorem page_of_turns {c : Conversation} {turns : List Turn} (h : c.turns = .ok turns) :
    c.page = some (turns.map Turn.line) := by
  rw [page, h]
  rfl

theorem page_of_error {c : Conversation} {e : ArchiveError} (h : c.turns = .error e) :
    c.page = none := by
  rw [page, h]
  rfl

end Conversation

namespace Archive

variable {a b : Archive} {slug : String} {c : Conversation} {turns : List Turn}

def ledger (a : Archive) : Ledger := fun slug => (Entries.get? slug a).map Conversation.page

theorem ledger_put {d : Conversation} {change : List Line → Page}
    (hc : Entries.get? slug a = some c) (hd : d.page = c.page.bind change) :
    ledger (Entries.put slug d a) = a.ledger.rewrite slug change := by
  funext other
  simp only [ledger, Ledger.rewrite, Entries.get?_put]
  by_cases ho : slug = other
  · simp [← ho, hc, hd]
  · simp [ho]

theorem ledger_put_same {d : Conversation} (hc : Entries.get? slug a = some c)
    (hd : d.page = c.page) : ledger (Entries.put slug d a) = a.ledger := by
  funext other
  simp only [ledger, Entries.get?_put]
  by_cases ho : slug = other
  · simp [← ho, hc, hd]
  · simp [ho]

/-- Where the turns cannot be read nothing changes, and neither does a page. -/
theorem ledger_of_error {e : ArchiveError} (h : a.turns slug = .error e)
    (change : List Line → Page) : a.ledger = a.ledger.rewrite slug change := by
  refine Eq.symm (Ledger.rewrite_eq_self fun lines hlines => ?_)
  obtain ⟨c, hc, hpage⟩ := Option.map_eq_some_iff.mp hlines
  rw [turns_of_get? hc] at h
  rw [c.page_of_error h] at hpage
  cases hpage

/-- Where a page would stay as it is nothing has to change. -/
theorem ledger_of_same {change : List Line → Page} (ht : a.turns slug = .ok turns)
    (h : change (turns.map Turn.line) = some (turns.map Turn.line)) :
    a.ledger = a.ledger.rewrite slug change := by
  refine Eq.symm (Ledger.rewrite_eq_self fun lines hlines => ?_)
  obtain ⟨c, hc, hpage⟩ := Option.map_eq_some_iff.mp hlines
  rw [turns_of_get? hc] at ht
  rw [c.page_of_turns ht] at hpage
  rwa [← Option.some.inj hpage]

/-- A rewritten history shows in the page, which is lost if the new turns cannot be encoded. -/
theorem ledger_rewrite {α : Type} {next : List Turn} {settle : Conversation → Conversation} {v : α}
    {change : List Line → Page} (ht : a.turns slug = .ok turns)
    (hsettle : ∀ c : Conversation, (settle c).turns = c.turns)
    (hchange : change (turns.map Turn.line) =
      if next.all (·.isPlain) then some (next.map Turn.line) else none) :
    (a.rewrite slug next settle v).2.ledger = a.ledger.rewrite slug change := by
  rcases a.rewrite_cases slug next settle v with ⟨hc, hr⟩ | ⟨c, hc, hr⟩
  · rw [hr]
    refine Eq.symm (Ledger.rewrite_eq_self fun lines hlines => ?_)
    simp [ledger, hc] at hlines
  · have hpage := c.page_of_turns (turns_of_get? hc ▸ ht)
    rcases hr with ⟨hplain, hr⟩ | ⟨hhalf, hr⟩ <;> rw [hr]
    · refine ledger_put hc ?_
      rw [Conversation.page_of_turns (hsettle (c.write next)), hpage, Option.bind_some, hchange,
        if_pos hplain]
    · refine ledger_put hc ?_
      rw [Conversation.page_of_error c.turns_emptied, hpage, Option.bind_some, hchange, hhalf]
      rfl

theorem ledger_create (a : Archive) (name : Text) (card : Card) :
    (a.attempted (a.create name card)).2.ledger = a.ledger.after (.create name card) := by
  funext other
  simp only [create, Ledger.after]
  cases hc : Entries.get? (Storyworld.slug name) a with
  | some c =>
    by_cases ho : Storyworld.slug name = other
    · subst ho
      simp [attempted, ledger, hc]
    · simp [attempted, ho]
  | none =>
    cases hplain : card.isPlain with
    | false => simp [attempted]
    | true =>
      by_cases ho : Storyworld.slug name = other
      · subst ho
        simp [attempted, ledger, get?_insert hc, hc, Conversation.page, Conversation.turns,
          Except.toOption]
      · simp [attempted, ledger, get?_insert hc, ho]

theorem ledger_delete (a : Archive) (slug : String) :
    (a.delete slug).2.ledger = a.ledger.after (.delete slug) := by
  funext other
  simp only [delete, ledger, Ledger.after, get?_erase]
  by_cases ho : slug = other <;> simp [ho]

theorem ledger_append (h : a.All Conversation.Encodable) (slug : String)
    (role text parseOutput : Value) :
    (a.append slug role text parseOutput).2.ledger =
      a.ledger.after (.append slug role text parseOutput) := by
  simp only [append, Ledger.after]
  cases ht : a.turns slug with
  | error e => exact ledger_of_error ht _
  | ok turns =>
    dsimp only
    rcases Checked.cases_of_toOption (check_toOption turns.length role text parseOutput) with
      ⟨problems, hcheck, hline⟩ | ⟨l, hcheck, hline⟩ <;> simp only [hcheck, hline]
    · exact ledger_of_same ht rfl
    · refine ledger_rewrite ht (fun _ => rfl) ?_
      simp [Ledger.enter, turns_plain h ht]

theorem ledger_update (h : a.All Conversation.Encodable) (slug : String) (index : Int)
    (changes : Entries Text Value) :
    (a.update slug index changes).2.ledger = a.ledger.after (.update slug index changes) := by
  simp only [update, Ledger.after]
  cases ht : a.turns slug with
  | error e => exact ledger_of_error ht _
  | ok turns =>
    dsimp only
    cases hp : position? turns index with
    | none =>
      have houtside := position?_eq_none.mp hp
      refine ledger_of_same ht ?_
      -- An index behind the end edits no line of the ledger either.
      have hnone : (if 0 ≤ index then (turns.map Turn.line)[index.toNat]? else none) = none := by
        split
        · refine List.getElem?_eq_none ?_
          rw [List.length_map]
          omega
        · rfl
      simp only [hnone, Option.bind_none, Ledger.enter]
    | some i =>
      obtain ⟨rfl, hi⟩ := position?_eq_some.mp hp
      obtain ⟨old, hold⟩ : ∃ old, turns[i]? = some old := ⟨_, List.getElem?_eq_getElem hi⟩
      have hline : (turns.map Turn.line)[i]? = some old.line := by simp [hold]
      simp only [hold, Int.natCast_nonneg, if_true, Int.toNat_natCast]
      rcases Checked.cases_of_toOption (amended_toOption old changes) with
        ⟨problems, hamended, hedited⟩ | ⟨l, hamended, hedited⟩ <;> simp only [hamended]
      · refine ledger_of_same ht ?_
        simp only [hline, Option.bind_some, hedited, Ledger.enter]
      · refine ledger_rewrite ht (Conversation.turns_dropFrom · i) ?_
        simp only [hline, Option.bind_some, hedited, Ledger.enter, List.map_set, Line.line_turn,
          all_set (turns_plain h ht) hi, Line.isPlain_turn]

theorem ledger_truncate (h : a.All Conversation.Encodable) (slug : String) (length : Int) :
    (a.truncate slug length).2.ledger = a.ledger.after (.truncate slug length) := by
  simp only [truncate, Ledger.after]
  cases ht : a.turns slug with
  | error e => exact ledger_of_error ht _
  | ok turns =>
    refine ledger_rewrite ht (Conversation.turns_dropFrom · _) ?_
    have hplain : (turns.take length.toNat).all (·.isPlain) = true := by
      rw [List.all_eq_true]
      exact fun t hmem => List.all_eq_true.mp (turns_plain h ht) t (List.mem_of_mem_take hmem)
    rw [if_pos hplain, List.map_take]

theorem ledger_saveCheckpoint {p : Checkpoint} (h : a.saveCheckpoint slug p = .ok b) :
    b.ledger = a.ledger := by
  obtain ⟨-, c, hc, rfl⟩ := saveCheckpoint_eq_ok.mp h
  exact ledger_put_same hc rfl

/-- Each operation on the archive does to the ledger what it says. -/
theorem ledger_after (h : a.All Conversation.Encodable) (op : Operation) :
    (a.after op).ledger = a.ledger.after op := by
  cases op with
  | create name card => exact ledger_create a name card
  | delete slug => exact ledger_delete a slug
  | append slug role text parseOutput => exact ledger_append h slug role text parseOutput
  | update slug index changes => exact ledger_update h slug index changes
  | truncate slug length => exact ledger_truncate h slug length
  | ask slug index =>
    rcases state_snd a slug index with hsame | ⟨p, hsave⟩
    · exact congrArg ledger hsame
    · exact ledger_saveCheckpoint hsave
  | save slug p =>
    simp only [after, attempt, silent, Ledger.after]
    cases hs : a.saveCheckpoint slug p with
    | error e => rfl
    | ok b => exact ledger_saveCheckpoint hs
  | clear slug =>
    simp only [after, attempt, clearCheckpoint]
    cases hc : Entries.get? slug a with
    | none => rfl
    | some c => exact ledger_put_same hc rfl

theorem ledger_run (h : a.All Conversation.Encodable) (ops : List Operation) :
    (a.run ops).ledger = a.ledger.run ops := by
  induction ops generalizing a with
  | nil => rfl
  | cons op ops ih =>
    have hnext := ih (encodable_after h op)
    rw [ledger_after h] at hnext
    exact hnext

end Archive

end Storyworld
