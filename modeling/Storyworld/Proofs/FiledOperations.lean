import Storyworld.Proofs.FiledArchive

/-! Operations on files that keep an archive. Each gives what it gives on the archive, and leaves files
that keep the archive afterwards. Where it fails, it leaves every file as it was, unless it is over a
history that cannot be encoded. -/

namespace Storyworld

namespace Files

variable {f g : Files} {a b : Archive} {slug : String} {c : Conversation} {α : Type}

/-- Work on files ends as an attempt on an archive does, and leaves files that keep what that leaves.
An error changes nothing here or there, except where a history could not be encoded. -/
def Follows (f : Files) (a : Archive) (x : Filing α) : Except ArchiveError α × Archive → Prop
  | (.ok v, b) => ∃ g, x.run f = .ok v g ∧ g.Keep b
  | (.error e, b) => ∃ g, x.run f = .error e g ∧ g.Keep b ∧ (e = .unencodable ∨ g = f ∧ b = a)

theorem follows_ok {x : Filing α} {v : α} (hx : x.run f = .ok v g) (hg : g.Keep b) :
    f.Follows a x (.ok v, b) := ⟨g, hx, hg⟩

theorem follows_error {x : Filing α} {e : ArchiveError} (h : f.Keep a) (hx : x.run f = .error e f) :
    f.Follows a x (.error e, a) := ⟨f, hx, h, .inr ⟨rfl, rfl⟩⟩

theorem Follows.unchanged {x : Filing α} {e : ArchiveError} (h : f.Follows a x (.error e, b))
    (he : e ≠ .unencodable) : x.run f = .error e f := by
  obtain ⟨g, hrun, -, hleft⟩ := h
  rcases hleft with hencode | ⟨hsame, -⟩
  · exact absurd hencode he
  · rw [hrun, hsame]

/-- What is only read first makes no difference. -/
theorem Follows.read {β : Type} {x : Filing β} {v : β} {k : β → Filing α}
    {r : Except ArchiveError α × Archive} (hk : f.Follows a (k v) r) (hx : x.run f = .ok v f) :
    f.Follows a (x >>= k) r := by
  have hrun : (x >>= k).run f = (k v).run f := by rw [EStateM.run_bind, hx]
  unfold Follows
  rw [hrun]
  exact hk

theorem Follows.discarded {x : Filing α} {r : Except ArchiveError α × Archive}
    (hx : f.Follows a x r) : f.Follows a (discard x) (Archive.silent r) := by
  have hrun : (discard x).run f = _ := Filing.run_map _ x f
  rcases r with ⟨e | v, b⟩
  · obtain ⟨g, hx, hg⟩ := hx
    exact ⟨g, by rw [hrun, hx], hg⟩
  · obtain ⟨g, hx, hg⟩ := hx
    exact ⟨g, by rw [hrun, hx], hg⟩

namespace Keep

/-- The turns are read, or why they cannot be is the end of it. -/
theorem follows_turns (h : f.Keep a) (slug : String) {k : List Turn → Filing α}
    {attempt : List Turn → Except ArchiveError α × Archive}
    (hk : ∀ ts, a.turns slug = .ok ts → f.Follows a (k ts) (attempt ts)) :
    f.Follows a (turns slug >>= k) (match a.turns slug with
      | .error e => (.error e, a)
      | .ok ts => attempt ts) := by
  have hturns := h.run_turns slug
  cases ht : a.turns slug with
  | error e =>
    rw [ht] at hturns
    exact follows_error h (by rw [EStateM.run_bind, hturns])
  | ok ts =>
    rw [ht] at hturns
    exact (hk ts ht).read hturns

theorem follows_create (h : f.Keep a) (name : Text) (card : Card) :
    f.Follows a (create name card) (a.attempted (a.create name card)) := by
  have hcard := h.cards (Storyworld.slug name)
  cases hc : Entries.get? (Storyworld.slug name) a with
  | some c =>
    simp only [Archive.create, hc, Option.isSome_some, if_true]
    exact follows_error h (by simp [create, hcard, hc])
  | none =>
    have hfree : f.cards.get? (Storyworld.slug name) = none := by simp [hcard, hc]
    have hnone : f.folders.get? (Storyworld.slug name) = none := by simp [h.folders, hc]
    simp only [Archive.create, hc, Option.isSome_none, Bool.false_eq_true, if_false]
    cases hplain : card.isPlain with
    | false =>
      simp only [Bool.not_false, if_true]
      exact follows_error h (by simp [create, hfree, hplain])
    | true =>
      simp only [Bool.not_true, Bool.false_eq_true, if_false]
      refine follows_ok (run_create hfree hplain) ⟨?_, ?_, ?_, ?_, ?_⟩
      · intro other
        rw [cards_makeFolder, Archive.get?_insert hc, putCard, Entries.get?_put, h.cards]
        split <;> rfl
      · intro other
        rw [Archive.get?_insert hc]
        simp only [makeFolder, putCard, hnone, Option.isSome_none, Bool.false_eq_true, if_false,
          Entries.get?_put, h.folders]
        split <;> rfl
      · refine h.readable.insert hc ?_
        rintro _ ⟨⟩
      · rw [cards_makeFolder]
        exact Entries.nodup_put h.nodup _ _
      · exact Archive.sorted_insert h.sorted (Entries.get?_eq_none_iff.mp hc) _

theorem follows_delete (h : f.Keep a) (slug : String) :
    f.Follows a (delete slug) (.ok (a.delete slug).1, (a.delete slug).2) := by
  have hcard := h.cards slug
  unfold Archive.delete
  cases hc : Entries.get? slug a with
  | none =>
    have hsame : a.erase slug = a := Entries.erase_eq_self hc
    exact follows_ok (by simp [delete, hcard, hc]) (hsame.symm ▸ h)
  | some c =>
    have hrun : (delete slug).run f = .ok true (removeFolder slug (removeCard slug f)) := by
      simp [delete, hcard, hc]
    refine follows_ok hrun ⟨?_, ?_, ?_, ?_, ?_⟩
    · intro other
      rw [Archive.get?_erase, removeFolder, removeCard, Entries.get?_erase, h.cards]
      split <;> rfl
    · intro other
      rw [Archive.get?_erase, removeFolder, removeCard, Entries.get?_erase, h.folders]
      split <;> rfl
    · exact h.readable.erase slug
    · exact Entries.nodup_erase h.nodup slug
    · exact Archive.sorted_erase h.sorted slug

/-- A history is written anew, and then the rest is settled. -/
theorem follows_rewrite (h : f.Keep a) {ts : List Turn} {k : Filing α} {v : α}
    {settle : Conversation → Conversation}
    (hk : ∀ c g, Entries.get? slug a = some c → g.Keep (Entries.put slug (c.write ts) a) →
      ∃ g', k.run g = .ok v g' ∧ g'.Keep (Entries.put slug (settle (c.write ts)) a)) :
    f.Follows a (writeTurns slug ts >>= fun _ => k) (a.rewrite slug ts settle v) := by
  rcases a.rewrite_cases slug ts settle v with ⟨hc, hr⟩ | ⟨c, hc, ⟨hplain, hr⟩ | ⟨hhalf, hr⟩⟩ <;>
    rw [hr]
  · have hwrite : (writeTurns slug ts).run f = .error .noConversation f := by
      simp [writeTurns, h.run_writeInto_none hc]
    exact follows_error h (by rw [EStateM.run_bind, hwrite])
  · obtain ⟨g, hwrite, hg⟩ := h.run_writeTurns hc hplain
    obtain ⟨g', hsettle, hg'⟩ := hk c g hc hg
    exact follows_ok (by rw [EStateM.run_bind, hwrite]; exact hsettle) hg'
  · obtain ⟨g, hwrite, hg⟩ := h.run_writeTurns_half hc hhalf
    exact ⟨g, by rw [EStateM.run_bind, hwrite], hg, .inl rfl⟩

/-- After a history is written, a checkpoint is dropped that it could concern. -/
theorem follows_redrop (h : f.Keep a) (slug : String) (ts : List Turn) (n : Nat) (v : α) :
    f.Follows a (do writeTurns slug ts; dropFrom slug n; return v)
      (a.rewrite slug ts (·.dropFrom n) v) := by
  refine h.follows_rewrite fun c g hc hg => ?_
  obtain ⟨g', hdrop, hg'⟩ := hg.run_dropFrom (Entries.get?_put_self _ _ _) n
  rw [Entries.put_put] at hg'
  exact ⟨g', by simp [hdrop], hg'⟩

theorem follows_append (h : f.Keep a) (slug : String) (role text parseOutput : Value) :
    f.Follows a (append slug role text parseOutput) (a.append slug role text parseOutput) := by
  refine h.follows_turns slug fun ts _ => ?_
  cases Turn.check ts.length role text parseOutput with
  | refused problems => exact follows_error h rfl
  | accepted t => exact h.follows_rewrite fun c g hc hg => ⟨g, rfl, hg⟩

theorem follows_update (h : f.Keep a) (slug : String) (index : Int) (changes : Entries Text Value) :
    f.Follows a (update slug index changes) (a.update slug index changes) := by
  refine h.follows_turns slug fun ts _ => ?_
  cases position? ts index with
  | none => exact follows_error h rfl
  | some i =>
    dsimp only
    cases ts[i]? with
    | none => exact follows_error h rfl
    | some old =>
      dsimp only
      cases Archive.amended old changes with
      | refused problems => exact follows_error h rfl
      | accepted t => exact h.follows_redrop slug (ts.set i t) i t

theorem follows_truncate (h : f.Keep a) (slug : String) (length : Int) :
    f.Follows a (truncate slug length) (a.truncate slug length) :=
  h.follows_turns slug fun ts _ => h.follows_redrop slug (ts.take length.toNat) _ _

theorem follows_saveCheckpoint (h : f.Keep a) (slug : String) (p : Checkpoint) :
    f.Follows a (saveCheckpoint slug p)
      (a.attempted ((a.saveCheckpoint slug p).map fun b => ((), b))) := by
  unfold Archive.saveCheckpoint Archive.modify
  cases hplain : p.isPlain with
  | false => exact follows_error h (by simp [saveCheckpoint, hplain])
  | true =>
    cases hc : Entries.get? slug a with
    | none => exact follows_error h (by simp [saveCheckpoint, hplain, h.run_writeInto_none hc])
    | some c =>
      refine follows_ok (by simp [saveCheckpoint, hplain, h.run_writeInto hc]; rfl)
        (h.put hc rfl rfl fun v hv => ?_)
      exact ⟨_, Option.some.inj hv ▸ load_finiteOnly p⟩

theorem follows_clearCheckpoint (h : f.Keep a) (slug : String) :
    f.Follows a (clearCheckpoint slug) (.ok (), a.clearCheckpoint slug) := by
  unfold Archive.clearCheckpoint
  cases hc : Entries.get? slug a with
  | some c => exact follows_ok rfl (h.put hc rfl rfl nofun)
  | none =>
    have hfolder : f.folders.get? slug = none := by simp [h.folders, hc]
    exact follows_ok (by simp [clearCheckpoint, inFolder, hfolder]) h

theorem follows_stateOf (h : f.Keep a) (slug : String) (card : Card) (initial : State)
    (index : Option Int) :
    f.Follows a (stateOf slug card initial index) (a.stateOf slug card initial index) := by
  refine h.follows_turns slug fun ts _ => .read ?_ (h.run_checkpoint? slug)
  cases hw : stateWhen card initial ts (a.checkpoint? slug) index with
  | error e => exact follows_error h rfl
  | ok answer =>
    obtain ⟨s, left⟩ := answer
    cases left with
    | none => exact follows_ok rfl h
    | some p =>
      have hsave := h.follows_saveCheckpoint slug p
      cases hs : a.saveCheckpoint slug p with
      | error e =>
        rw [hs] at hsave
        obtain ⟨g, hrun, hg⟩ := hsave
        simp only [hs]
        exact ⟨g, by simp [hrun], hg⟩
      | ok b =>
        rw [hs] at hsave
        obtain ⟨g, hrun, hg⟩ := hsave
        simp only [hs]
        exact follows_ok (by simp [hrun]) hg

theorem follows_state (h : f.Keep a) (slug : String) (index : Option Int) :
    f.Follows a (state slug index) (a.state slug index) := by
  have hopened := h.run_opened slug
  unfold Archive.state
  cases ho : a.opened slug with
  | error e =>
    rw [ho] at hopened
    exact follows_error h (by rw [state, EStateM.run_bind, hopened])
  | ok found =>
    rw [ho] at hopened
    refine .read ?_ hopened
    cases found with
    | none => exact follows_ok rfl h
    | some p =>
      obtain ⟨card, initial⟩ := p
      have hstate := h.follows_stateOf slug card initial index
      dsimp only
      rcases hs : a.stateOf slug card initial index with ⟨e | s, b⟩ <;> rw [hs] at hstate
      · obtain ⟨g, hrun, hg⟩ := hstate
        exact ⟨g, by simp [hrun], hg⟩
      · obtain ⟨g, hrun, hg⟩ := hstate
        exact follows_ok (by simp [hrun]) hg

end Keep

/-- What can be done with files, without its answer. -/
def perform : Operation → Filing Unit
  | .create name card => discard (create name card)
  | .delete slug => discard (delete slug)
  | .append slug role text parseOutput => discard (append slug role text parseOutput)
  | .update slug index changes => discard (update slug index changes)
  | .truncate slug length => discard (truncate slug length)
  | .ask slug index => discard (state slug index)
  | .save slug p => discard (saveCheckpoint slug p)
  | .clear slug => discard (clearCheckpoint slug)

def ending : EStateM.Result ArchiveError Files α → Files
  | .ok _ g => g
  | .error _ g => g

/-- The files that work leaves, whether it comes to its end or not. -/
def left (x : Filing α) (f : Files) : Files := ending (x.run f)

def run (f : Files) (ops : List Operation) : Files := ops.foldl (fun f op => left (perform op) f) f

theorem run_discard (x : Filing α) (f : Files) :
    (discard x).run f = match x.run f with
      | .ok _ g => .ok () g
      | .error e g => .error e g :=
  Filing.run_map _ x f

/-- An operation on files that keep an archive leaves files that keep what it makes of the archive. If
it fails, these are the files as they were, unless a history could not be encoded. -/
theorem Keep.perform (h : f.Keep a) (op : Operation) :
    f.Follows a (perform op) (a.attempt op) := by
  cases op with
  | create name card => exact (h.follows_create name card).discarded
  | delete slug => exact (h.follows_delete slug).discarded
  | append slug role text parseOutput => exact (h.follows_append slug role text parseOutput).discarded
  | update slug index changes => exact (h.follows_update slug index changes).discarded
  | truncate slug length => exact (h.follows_truncate slug length).discarded
  | ask slug index => exact (h.follows_state slug index).discarded
  | save slug p => exact (h.follows_saveCheckpoint slug p).discarded
  | clear slug => exact (h.follows_clearCheckpoint slug).discarded

/-- How an operation on files ends: it is done, and the files keep what it makes of the archive, or it
fails, and they are what they were unless a history could not be encoded. -/
theorem Keep.perform_cases (h : f.Keep a) (op : Operation) :
    (∃ g, (Files.perform op).run f = .ok () g ∧ g.Keep (a.after op)) ∨
      ∃ e g, (Files.perform op).run f = .error e g ∧ (a.attempt op).1 = .error e ∧
        g.Keep (a.after op) ∧ (e = .unencodable ∨ g = f ∧ a.after op = a) := by
  have hop := h.perform op
  unfold Archive.after
  generalize a.attempt op = r at hop ⊢
  rcases r with ⟨e | v, b⟩
  · obtain ⟨g, hrun, hg, hleft⟩ := hop
    exact .inr ⟨e, g, hrun, rfl, hg, hleft⟩
  · obtain ⟨g, hrun, hg⟩ := hop
    exact .inl ⟨g, hrun, hg⟩

theorem Keep.left (h : f.Keep a) (op : Operation) : (left (Files.perform op) f).Keep (a.after op) := by
  unfold Files.left
  rcases h.perform_cases op with ⟨g, hrun, hg⟩ | ⟨e, g, hrun, -, hg, -⟩ <;> rw [hrun] <;> exact hg

theorem Keep.run (h : f.Keep a) (ops : List Operation) : (f.run ops).Keep (a.run ops) := by
  induction ops generalizing f a with
  | nil => exact h
  | cons op ops ih => exact ih (h.left op)

end Files

end Storyworld
