import Storyworld.Archive

/-! Runs of operations on an archive. An operation that fails leaves the archive as it was, unless it
breaks off while it writes a history: then that history is empty. One that succeeds changes a single
conversation. -/

namespace Storyworld

/-- What can be done with an archive. -/
inductive Operation where
  | create (name : Text) (card : Card)
  | delete (slug : String)
  | append (slug : String) (role text parseOutput : Value)
  | update (slug : String) (index : Int) (changes : Entries Text Value)
  | truncate (slug : String) (length : Int)
  | ask (slug : String) (index : Option Int)
  | save (slug : String) (p : Checkpoint)
  | clear (slug : String)

/-- The slug that an operation goes to. -/
def Operation.slug : Operation → String
  | .create name _ => Storyworld.slug name
  | .delete slug | .append slug _ _ _ | .update slug _ _ | .truncate slug _ | .ask slug _
  | .save slug _ | .clear slug => slug

/-- No half is in the texts that go into a history. -/
def Operation.isPlain : Operation → Bool
  | .append _ _ text parseOutput => text.isPlain && parseOutput.isPlain
  | .update _ _ changes => changes.all (·.2.isPlain)
  | _ => true

namespace Conversation

def emptied (c : Conversation) : Conversation := { c with history := .emptied }

@[simp] theorem turns_emptied (c : Conversation) : c.emptied.turns = .error .unreadable := rfl

def write (c : Conversation) (turns : List Turn) : Conversation :=
  { c with history := .written turns }

@[simp] theorem turns_write (c : Conversation) (turns : List Turn) :
    (c.write turns).turns = .ok turns := rfl

/-- No half is in a turn of the history. -/
def Encodable (c : Conversation) : Prop :=
  ∀ turns, c.history = .written turns → turns.all (·.isPlain) = true

theorem Encodable.turns {c : Conversation} {turns : List Turn} (h : c.Encodable)
    (ht : c.turns = .ok turns) : turns.all (·.isPlain) = true := by
  unfold Conversation.turns at ht
  split at ht
  · exact Except.ok.inj ht ▸ rfl
  · cases ht
  · rename_i hwritten
    exact Except.ok.inj ht ▸ h _ hwritten

theorem history_dropFrom (c : Conversation) (n : Nat) : (c.dropFrom n).history = c.history := by
  unfold dropFrom
  split
  · split <;> rfl
  · rfl

theorem turns_dropFrom (c : Conversation) (n : Nat) : (c.dropFrom n).turns = c.turns := by
  unfold turns
  rw [history_dropFrom]

end Conversation

namespace Archive

variable {a b : Archive} {slug : String} {turns : List Turn} {P : Conversation → Prop}

/-- An attempt that changes nothing where it fails, as what it answers and what it leaves. -/
def attempted {ε α : Type} (a : Archive) : Except ε (α × Archive) → Except ε α × Archive
  | .ok (v, next) => (.ok v, next)
  | .error e => (.error e, a)

def silent {α : Type} (r : Except ArchiveError α × Archive) : Except ArchiveError Unit × Archive :=
  (r.1.map fun _ => (), r.2)

/-- What an operation does, without its answer. -/
def attempt (a : Archive) : Operation → Except ArchiveError Unit × Archive
  | .create name card => silent (a.attempted (a.create name card))
  | .delete slug => (.ok (), (a.delete slug).2)
  | .append slug role text parseOutput => silent (a.append slug role text parseOutput)
  | .update slug index changes => silent (a.update slug index changes)
  | .truncate slug length => silent (a.truncate slug length)
  | .ask slug index => silent (a.state slug index)
  | .save slug p => silent (a.attempted ((a.saveCheckpoint slug p).map fun next => ((), next)))
  | .clear slug => (.ok (), a.clearCheckpoint slug)

def after (a : Archive) (op : Operation) : Archive := (a.attempt op).2

def run (a : Archive) (ops : List Operation) : Archive := ops.foldl after a

theorem turns_of_get? {c : Conversation} (h : Entries.get? slug a = some c) :
    a.turns slug = c.turns := by
  simp [Archive.turns, h]

/-- Every conversation in the archive satisfies a condition. -/
def All (P : Conversation → Prop) (a : Archive) : Prop :=
  ∀ slug c, Entries.get? slug a = some c → P c

theorem turns_plain (h : a.All Conversation.Encodable) (ht : a.turns slug = .ok turns) :
    turns.all (·.isPlain) = true := by
  cases hc : Entries.get? slug a with
  | none =>
    simp only [Archive.turns, hc, Except.ok.injEq] at ht
    exact ht ▸ rfl
  | some c => exact (h slug c hc).turns (turns_of_get? hc ▸ ht)

theorem modify_eq_ok {f : Conversation → Conversation} :
    a.modify slug f = .ok b ↔
      ∃ c, Entries.get? slug a = some c ∧ b = Entries.put slug (f c) a := by
  unfold modify
  cases Entries.get? slug a with
  | none => simp
  | some c => simp [eq_comm]

theorem create_eq_ok {name : Text} {card : Card} (h : a.create name card = .ok (slug, b)) :
    slug = Storyworld.slug name ∧ Entries.get? slug a = none ∧ card.isPlain = true ∧
      b = insert slug ⟨(Card.codec.dump card).finiteOnly, .unwritten, none⟩ a := by
  simp only [create] at h
  split at h
  · cases h
  split at h
  · cases h
  · rename_i hn hplain
    simp only [Except.ok.injEq, Prod.mk.injEq] at h
    obtain ⟨rfl, rfl⟩ := h
    exact ⟨rfl, by simpa using hn, by simpa using hplain, rfl⟩

theorem saveCheckpoint_eq_ok {p : Checkpoint} :
    a.saveCheckpoint slug p = .ok b ↔ p.isPlain = true ∧
      ∃ c, Entries.get? slug a = some c ∧ b = Entries.put slug (c.setCheckpoint p) a := by
  unfold saveCheckpoint
  cases p.isPlain
  · simp
  · simpa using modify_eq_ok

/-- A history is written anew in a conversation that is there, if all its turns can be encoded, and
emptied if not. -/
theorem rewrite_cases {α : Type} (a : Archive) (slug : String) (turns : List Turn)
    (settle : Conversation → Conversation) (v : α) :
    (Entries.get? slug a = none ∧
        a.rewrite slug turns settle v = (.error .noConversation, a)) ∨
      ∃ c, Entries.get? slug a = some c ∧
        ((turns.all (·.isPlain) = true ∧ a.rewrite slug turns settle v =
            (.ok v, Entries.put slug (settle (c.write turns)) a)) ∨
          (turns.all (·.isPlain) = false ∧ a.rewrite slug turns settle v =
            (.error .unencodable, Entries.put slug c.emptied a))) := by
  unfold rewrite
  cases hc : Entries.get? slug a with
  | none => exact .inl ⟨rfl, rfl⟩
  | some c =>
    refine .inr ⟨c, rfl, ?_⟩
    cases hplain : turns.all (·.isPlain)
    · exact .inr ⟨rfl, by simp [Conversation.emptied]⟩
    · exact .inl ⟨rfl, by simp [Conversation.write]⟩

theorem All.put {c : Conversation} (h : a.All P) (hc : P c) : All P (Entries.put slug c a) := by
  intro other d hd
  rw [Entries.get?_put] at hd
  split at hd
  · obtain rfl := Option.some.inj hd
    exact hc
  · exact h other d hd

theorem All.insert {c : Conversation} (h : a.All P) (hn : Entries.get? slug a = none) (hc : P c) :
    All P (Archive.insert slug c a) := by
  intro other d hd
  rw [get?_insert hn] at hd
  split at hd
  · obtain rfl := Option.some.inj hd
    exact hc
  · exact h other d hd

theorem All.erase (h : a.All P) (slug : String) : All P (a.erase slug) := by
  intro other d hd
  rw [get?_erase] at hd
  split at hd
  · cases hd
  · exact h other d hd

/-- An attempt keeps what its success keeps. -/
theorem All.attempted {ε α : Type} {r : Except ε (α × Archive)} (h : a.All P)
    (hr : ∀ x b, r = .ok (x, b) → b.All P) : (a.attempted r).2.All P := by
  cases r with
  | ok p => exact hr p.1 p.2 rfl
  | error e => exact h

end Archive

/-- What an operation can make of a history, and what it does to the conversation afterwards. -/
inductive Rewrites (turns : List Turn) :
    Operation → List Turn → (Conversation → Conversation) → Prop
  | append {slug : String} {role text parseOutput : Value} {t : Turn} :
      Turn.check turns.length role text parseOutput = .accepted t →
        Rewrites turns (.append slug role text parseOutput) (turns ++ [t]) id
  | update {slug : String} {index : Int} {changes : Entries Text Value} {i : Nat} {old t : Turn} :
      turns[i]? = some old → Archive.amended old changes = .accepted t →
        Rewrites turns (.update slug index changes) (turns.set i t) (·.dropFrom i)
  | truncate {slug : String} {length : Int} : Rewrites turns (.truncate slug length)
      (turns.take length.toNat) (·.dropFrom (turns.take length.toNat).length)

theorem Rewrites.turns_settle {op : Operation} {turns next : List Turn}
    {settle : Conversation → Conversation} (h : Rewrites turns op next settle) (c : Conversation) :
    (settle c).turns = c.turns := by
  cases h with
  | append => rfl
  | update => exact c.turns_dropFrom _
  | truncate => exact c.turns_dropFrom _

theorem Rewrites.encodable {op : Operation} {turns next : List Turn}
    {settle : Conversation → Conversation} (h : Rewrites turns op next settle)
    (hplain : next.all (·.isPlain) = true) (c : Conversation) :
    (settle (c.write next)).Encodable := by
  intro written hwritten
  have hturns : (settle (c.write next)).turns = .ok next := h.turns_settle _
  rw [Conversation.turns, hwritten] at hturns
  exact Except.ok.inj hturns ▸ hplain

namespace Archive

variable {a b : Archive} {op : Operation} {slug : String} {turns next : List Turn}
  {P : Conversation → Prop} {r : Except ArchiveError Unit × Archive}

/-- What becomes of an attempt on a history. -/
inductive Revises (a : Archive) (op : Operation) : Except ArchiveError Unit × Archive → Prop
  | refused (e : ArchiveError) : e ≠ .unencodable → Revises a op (.error e, a)
  | written {c : Conversation} {turns next : List Turn} {settle : Conversation → Conversation} :
      Entries.get? op.slug a = some c → c.turns = .ok turns → Rewrites turns op next settle →
        next.all (·.isPlain) = true →
          Revises a op (.ok (), Entries.put op.slug (settle (c.write next)) a)
  | emptied {c : Conversation} {turns next : List Turn} {settle : Conversation → Conversation} :
      Entries.get? op.slug a = some c → c.turns = .ok turns → Rewrites turns op next settle →
        next.all (·.isPlain) = false →
          Revises a op (.error .unencodable, Entries.put op.slug c.emptied a)

/-- Turns are read or unreadable, and no half is met in that. -/
theorem turns_error {e : ArchiveError} (h : a.turns slug = .error e) : e ≠ .unencodable := by
  unfold Archive.turns Conversation.turns at h
  rintro rfl
  split at h
  · split at h <;> cases h
  · cases h

theorem revises_rewrite {α : Type} {settle : Conversation → Conversation}
    (hturns : a.turns op.slug = .ok turns) (hr : Rewrites turns op next settle) (v : α) :
    a.Revises op (silent (a.rewrite op.slug next settle v)) := by
  rcases a.rewrite_cases op.slug next settle v with ⟨-, hw⟩ | ⟨c, hc, ⟨hplain, hw⟩ | ⟨hhalf, hw⟩⟩ <;>
    rw [hw]
  · exact .refused _ nofun
  · exact .written hc (turns_of_get? hc ▸ hturns) hr hplain
  · exact .emptied hc (turns_of_get? hc ▸ hturns) hr hhalf

theorem revises_append (a : Archive) (slug : String) (role text parseOutput : Value) :
    a.Revises (.append slug role text parseOutput)
      (silent (a.append slug role text parseOutput)) := by
  unfold append
  cases hturns : a.turns slug with
  | error e => exact .refused e (turns_error hturns)
  | ok turns =>
    dsimp only
    cases hcheck : Turn.check turns.length role text parseOutput with
    | refused problems => exact .refused _ nofun
    | accepted t => exact revises_rewrite hturns (.append hcheck) t

theorem revises_update (a : Archive) (slug : String) (index : Int) (changes : Entries Text Value) :
    a.Revises (.update slug index changes) (silent (a.update slug index changes)) := by
  unfold update
  cases hturns : a.turns slug with
  | error e => exact .refused e (turns_error hturns)
  | ok turns =>
    dsimp only
    cases position? turns index with
    | none => exact .refused _ nofun
    | some i =>
      dsimp only
      cases hold : turns[i]? with
      | none => exact .refused _ nofun
      | some old =>
        dsimp only
        cases hnew : amended old changes with
        | refused problems => exact .refused _ nofun
        | accepted t => exact revises_rewrite hturns (.update hold hnew) t

theorem revises_truncate (a : Archive) (slug : String) (length : Int) :
    a.Revises (.truncate slug length) (silent (a.truncate slug length)) := by
  unfold truncate
  cases hturns : a.turns slug with
  | error e => exact .refused e (turns_error hturns)
  | ok turns => exact revises_rewrite hturns .truncate _

/-- An attempt keeps what every history that it rewrites or empties keeps. -/
theorem All.revises (h : a.All P) (hr : a.Revises op r)
    (hempty : ∀ c turns next settle, P c → c.turns = .ok turns → Rewrites turns op next settle →
      next.all (·.isPlain) = false → P c.emptied)
    (hwrite : ∀ c turns next settle, P c → c.turns = .ok turns → Rewrites turns op next settle →
      next.all (·.isPlain) = true → P (settle (c.write next))) : r.2.All P := by
  cases hr with
  | refused e _ => exact h
  | written hc hturns hrewrites hplain =>
    exact h.put (hwrite _ _ _ _ (h _ _ hc) hturns hrewrites hplain)
  | emptied hc hturns hrewrites hhalf =>
    exact h.put (hempty _ _ _ _ (h _ _ hc) hturns hrewrites hhalf)

theorem saveCheckpoint_error {p : Checkpoint} {e : ArchiveError}
    (h : a.saveCheckpoint slug p = .error e) : e ≠ .unencodable := by
  unfold saveCheckpoint modify at h
  rintro rfl
  split at h
  · split at h <;> cases h
  · cases h

/-- A question that fails leaves the archive as it is, and another one adds at most a checkpoint. -/
theorem stateOf_cases (a : Archive) (slug : String) (card : Card) (initial : State)
    (index : Option Int) :
    (∃ e, e ≠ .unencodable ∧ a.stateOf slug card initial index = (.error e, a)) ∨
      ∃ s b, a.stateOf slug card initial index = (.ok s, b) ∧
        (b = a ∨ ∃ p, a.saveCheckpoint slug p = .ok b) := by
  unfold stateOf
  cases hturns : a.turns slug with
  | error e => exact .inl ⟨e, turns_error hturns, rfl⟩
  | ok turns =>
    dsimp only
    split
    · exact .inl ⟨.fault _, nofun, rfl⟩
    · exact .inr ⟨_, a, rfl, .inl rfl⟩
    · rename_i s p _
      cases hs : a.saveCheckpoint slug p with
      | ok b => exact .inr ⟨s, b, rfl, .inr ⟨p, hs⟩⟩
      | error e => exact .inl ⟨e, saveCheckpoint_error hs, rfl⟩

theorem state_cases (a : Archive) (slug : String) (index : Option Int) :
    (∃ e, e ≠ .unencodable ∧ a.state slug index = (.error e, a)) ∨
      ∃ s b, a.state slug index = (.ok s, b) ∧ (b = a ∨ ∃ p, a.saveCheckpoint slug p = .ok b) := by
  unfold state
  cases ho : a.opened slug with
  | error e =>
    refine .inl ⟨e, ?_, rfl⟩
    rintro rfl
    unfold opened card? at ho
    grind
  | ok found =>
    cases found with
    | none => exact .inr ⟨none, a, rfl, .inl rfl⟩
    | some p =>
      obtain ⟨card, initial⟩ := p
      rcases a.stateOf_cases slug card initial index with ⟨e, he, hs⟩ | ⟨s, b, hs, hb⟩ <;>
        simp only [hs]
      · exact .inl ⟨e, he, rfl⟩
      · exact .inr ⟨s, b, rfl, hb⟩

theorem state_snd (a : Archive) (slug : String) (index : Option Int) :
    (a.state slug index).2 = a ∨ ∃ p, a.saveCheckpoint slug p = .ok (a.state slug index).2 := by
  rcases a.state_cases slug index with ⟨e, -, hs⟩ | ⟨s, b, hs, hb⟩ <;> rw [hs]
  · exact .inl rfl
  · exact hb

/-- All that an operation can do, with how it ends. -/
inductive Step (a : Archive) (op : Operation) : Except ArchiveError Unit × Archive → Prop
  | refused (e : ArchiveError) : e ≠ .unencodable → Step a op (.error e, a)
  | stay : Step a op (.ok (), a)
  | begin (card : Value) : Entries.get? op.slug a = none →
      Step a op (.ok (), insert op.slug ⟨card, .unwritten, none⟩ a)
  | erase : Step a op (.ok (), a.erase op.slug)
  | checkpoint {c : Conversation} (v : Option Value) : Entries.get? op.slug a = some c →
      Step a op (.ok (), Entries.put op.slug { c with checkpoint := v } a)
  | history {r : Except ArchiveError Unit × Archive} : a.Revises op r → Step a op r

theorem step_saveCheckpoint {p : Checkpoint} (h : a.saveCheckpoint op.slug p = .ok b) :
    a.Step op (.ok (), b) := by
  obtain ⟨-, c, hc, rfl⟩ := saveCheckpoint_eq_ok.mp h
  exact .checkpoint _ hc

theorem step_attempt (a : Archive) (op : Operation) : a.Step op (a.attempt op) := by
  cases op with
  | create name card =>
    simp only [attempt]
    cases hcreate : a.create name card with
    | error e =>
      refine .refused e ?_
      rintro rfl
      unfold create at hcreate
      grind
    | ok answer =>
      obtain ⟨hslug, hn, -, hb⟩ := create_eq_ok hcreate
      rw [hslug] at hn hb
      simp only [attempted, silent, Except.map, hb]
      exact .begin _ hn
  | delete slug => exact .erase
  | append slug role text parseOutput => exact .history (a.revises_append slug role text parseOutput)
  | update slug index changes => exact .history (a.revises_update slug index changes)
  | truncate slug length => exact .history (a.revises_truncate slug length)
  | ask slug index =>
    simp only [attempt]
    rcases a.state_cases slug index with ⟨e, he, hs⟩ | ⟨s, b, hs, rfl | ⟨p, hb⟩⟩ <;> rw [hs]
    · exact .refused e he
    · exact .stay
    · exact step_saveCheckpoint hb
  | save slug p =>
    simp only [attempt]
    cases hs : a.saveCheckpoint slug p with
    | error e => exact .refused e (saveCheckpoint_error hs)
    | ok b => exact step_saveCheckpoint hs
  | clear slug =>
    simp only [attempt, clearCheckpoint]
    cases hc : Entries.get? slug a with
    | none => exact .stay
    | some c => exact .checkpoint none hc

/-- An operation keeps what holds of a new conversation, whatever its checkpoint, if every history that
it rewrites or empties keeps it. -/
theorem All.step (h : a.All P) (hs : a.Step op r) (hbegin : ∀ card, P ⟨card, .unwritten, none⟩)
    (hcheckpoint : ∀ (c : Conversation) v, P c → P { c with checkpoint := v })
    (hempty : ∀ c turns next settle, P c → c.turns = .ok turns → Rewrites turns op next settle →
      next.all (·.isPlain) = false → P c.emptied)
    (hwrite : ∀ c turns next settle, P c → c.turns = .ok turns → Rewrites turns op next settle →
      next.all (·.isPlain) = true → P (settle (c.write next))) : r.2.All P := by
  cases hs with
  | refused e _ => exact h
  | stay => exact h
  | begin card hn => exact h.insert hn (hbegin card)
  | erase => exact h.erase op.slug
  | checkpoint v hc => exact h.put (hcheckpoint _ v (h _ _ hc))
  | history hr => exact h.revises hr hempty hwrite

/-- An operation leaves every other conversation as it is. -/
theorem Step.get? (hs : a.Step op r) {other : String} (ho : op.slug ≠ other) :
    Entries.get? other r.2 = Entries.get? other a := by
  cases hs with
  | refused e _ => rfl
  | stay => rfl
  | begin card hn => rw [get?_insert hn, if_neg ho]
  | erase => rw [get?_erase, if_neg ho]
  | checkpoint v hc => rw [Entries.get?_put, if_neg ho]
  | history hr => cases hr with
    | refused e _ => rfl
    | written => rw [Entries.get?_put, if_neg ho]
    | emptied => rw [Entries.get?_put, if_neg ho]

theorem encodable_after (h : a.All Conversation.Encodable) (op : Operation) :
    (a.after op).All Conversation.Encodable :=
  h.step (a.step_attempt op) (fun _ => nofun) (fun _ _ hc => hc) (fun _ _ _ _ _ _ _ _ => nofun)
    fun c _ _ _ _ _ hrewrites hplain => hrewrites.encodable hplain c

theorem encodable_run (h : a.All Conversation.Encodable) (ops : List Operation) :
    (a.run ops).All Conversation.Encodable := by
  induction ops generalizing a with
  | nil => exact h
  | cons op ops ih => exact ih (encodable_after h op)

end Archive

end Storyworld
