import Storyworld.Proofs.BareArchive
import Storyworld.Proofs.Requests

/-! Twins: files that differ at most in checkpoints. They answer every request alike, and stay twins. -/

namespace Storyworld

namespace Files

variable {f g k : Files} {a b : Archive} {slug : String} {α β : Type}

/-- Files of two archives that differ at most in checkpoints, each of which replay confirms. -/
structure Twins (f g : Files) (a b : Archive) : Prop where
  left : f.Keep a
  right : g.Keep b
  soundLeft : a.All Conversation.Sound
  soundRight : b.All Conversation.Sound
  bare : a.bare = b.bare

/-- The same answer, with twins left behind. -/
def Alike : EStateM.Result ArchiveError Files α → EStateM.Result ArchiveError Files α → Prop
  | .ok v f, .ok w g => v = w ∧ ∃ a b, f.Twins g a b
  | .error d f, .error e g => d = e ∧ ∃ a b, f.Twins g a b
  | _, _ => False

/-- Work that does not depend on checkpoints. -/
def Blind (x : Filing α) : Prop := ∀ f g a b, f.Twins g a b → Alike (x.run f) (x.run g)

theorem blind_pure (v : α) : Blind (pure v) := fun _ _ a b h => ⟨rfl, a, b, h⟩

theorem blind_throw (e : ArchiveError) : Blind (throw e : Filing α) :=
  fun _ _ a b h => ⟨rfl, a, b, h⟩

theorem Alike.bind {x y : Filing α} {k : α → Filing β} (hx : Alike (x.run f) (y.run g))
    (hk : ∀ v, Blind (k v)) : Alike ((x >>= k).run f) ((y >>= k).run g) := by
  rw [EStateM.run_bind, EStateM.run_bind]
  cases hf : x.run f <;> cases hg : y.run g <;> rw [hf, hg] at hx
  · obtain ⟨rfl, a, b, h⟩ := hx
    exact hk _ _ _ a b h
  · exact hx.elim
  · exact hx.elim
  · exact hx

theorem Blind.bind {x : Filing α} {k : α → Filing β} (hx : Blind x) (hk : ∀ v, Blind (k v)) :
    Blind (x >>= k) := fun f g a b h => (hx f g a b h).bind hk

theorem Alike.observing {x y : Filing α} (hx : Alike (x.run f) (y.run g)) :
    Alike ((observing x).run f) ((observing y).run g) := by
  rw [Filing.run_observing, Filing.run_observing]
  cases hf : x.run f <;> cases hg : y.run g <;> rw [hf, hg] at hx
  · exact ⟨congrArg _ hx.1, hx.2⟩
  · exact hx.elim
  · exact hx.elim
  · exact ⟨congrArg _ hx.1, hx.2⟩

theorem Blind.observing {x : Filing α} (hx : Blind x) : Blind (observing x) :=
  fun f g a b h => (hx f g a b h).observing

/-- Reading what is the same in a bare archive. -/
theorem blind_of_read {x : Filing α} (read : Archive → Except ArchiveError α)
    (hx : ∀ (f : Files) a, f.Keep a → x.run f = match read a with
      | .ok v => .ok v f
      | .error e => .error e f)
    (hbare : ∀ a : Archive, read a.bare = read a) : Blind x := by
  intro f g a b h
  have hread : read a = read b := by rw [← hbare a, h.bare, hbare]
  rw [hx f a h.left, hx g b h.right, hread]
  cases read b with
  | ok v => exact ⟨rfl, a, b, h⟩
  | error e => exact ⟨rfl, a, b, h⟩

theorem alike_of_follows {x y : Filing α} {r s : Except ArchiveError α × Archive}
    (hx : f.Follows a x r) (hy : g.Follows b y s) (hr : r.2.All Conversation.Sound)
    (hs : s.2.All Conversation.Sound) (hsame : Archive.bared r = Archive.bared s) :
    Alike (x.run f) (y.run g) := by
  obtain ⟨answer, a'⟩ := r
  obtain ⟨answer', b'⟩ := s
  obtain ⟨hanswer, hbare⟩ := Prod.mk.inj hsame
  obtain rfl : answer = answer' := hanswer
  cases answer with
  | error e =>
    obtain ⟨f', hrunx, hf, -⟩ := hx
    obtain ⟨g', hruny, hg, -⟩ := hy
    rw [hrunx, hruny]
    exact ⟨rfl, a', b', hf, hg, hr, hs, hbare⟩
  | ok v =>
    obtain ⟨f', hrunx, hf⟩ := hx
    obtain ⟨g', hruny, hg⟩ := hy
    rw [hrunx, hruny]
    exact ⟨rfl, a', b', hf, hg, hr, hs, hbare⟩

/-- An attempt that makes up an operation and does the same to a bare archive. -/
theorem blind_of_follows {x : Filing α} {attempt : Archive → Except ArchiveError α × Archive}
    (op : Operation) (hafter : ∀ a : Archive, a.after op = (attempt a).2)
    (hadm : ∀ a : Archive, a.Admits op)
    (hx : ∀ (f : Files) a, f.Keep a → f.Follows a x (attempt a))
    (hbare : ∀ a : Archive, attempt a.bare = Archive.bared (attempt a)) : Blind x := by
  have hsafe : ∀ a : Archive, a.All Conversation.Sound → (attempt a).2.All Conversation.Sound := by
    intro a h
    rw [← hafter]
    exact Archive.sound_after h (hadm a)
  intro f g a b h
  refine alike_of_follows (hx f a h.left) (hx g b h.right) (hsafe a h.soundLeft)
    (hsafe b h.soundRight) ?_
  rw [← hbare, h.bare, hbare]

theorem blind_list : Blind list :=
  blind_of_read (fun a => .ok a.slugs) (fun _ _ h => h.run_list) fun a =>
    congrArg Except.ok a.slugs_bare

theorem blind_turns (slug : String) : Blind (turns slug) :=
  blind_of_read (·.turns slug) (fun f a h => by rw [h.run_turns]; cases a.turns slug <;> rfl)
    (·.turns_bare slug)

theorem blind_card? (slug : String) : Blind (card? slug) := by
  refine blind_of_read (·.card? slug) (fun f a h => ?_) (·.card?_bare slug)
  rw [h.run_card?]
  cases a.card? slug <;> rfl

theorem blind_opened (slug : String) : Blind (opened slug) := by
  refine blind_of_read (·.opened slug) (fun f a h => ?_) (·.opened_bare slug)
  rw [h.run_opened]
  cases a.opened slug <;> rfl

theorem blind_create (name : Text) (card : Card) : Blind (create name card) :=
  blind_of_follows (.create name card) (fun _ => rfl) (fun _ => trivial)
    (fun _ _ h => h.follows_create name card) (·.create_bare name card)

theorem blind_delete (slug : String) : Blind (delete slug) :=
  blind_of_follows (.delete slug) (fun _ => rfl) (fun _ => trivial)
    (fun _ _ h => h.follows_delete slug) (·.delete_bare slug)

theorem blind_append (slug : String) (role text parseOutput : Value) :
    Blind (append slug role text parseOutput) :=
  blind_of_follows (.append slug role text parseOutput) (fun _ => rfl) (fun _ => trivial)
    (fun _ _ h => h.follows_append slug role text parseOutput)
    (·.append_bare slug role text parseOutput)

theorem blind_update (slug : String) (index : Int) (changes : Entries Text Value) :
    Blind (update slug index changes) :=
  blind_of_follows (.update slug index changes) (fun _ => rfl) (fun _ => trivial)
    (fun _ _ h => h.follows_update slug index changes) (·.update_bare slug index changes)

theorem blind_truncate (slug : String) (length : Int) : Blind (truncate slug length) :=
  blind_of_follows (.truncate slug length) (fun _ => rfl) (fun _ => trivial)
    (fun _ _ h => h.follows_truncate slug length) (·.truncate_bare slug length)

/-- The state of an opened conversation, where a checkpoint can hold the one that is asked for. -/
theorem alike_stateOf (h : f.Twins g a b) {card : Card} {initial : State} {index : Option Int}
    (ho : a.opened slug = .ok (some (card, initial)))
    (hstorable : ∀ s ∈ a.replayed? slug index, s.Storable) :
    Alike ((stateOf slug card initial index).run f) ((stateOf slug card initial index).run g) := by
  have hob : b.opened slug = .ok (some (card, initial)) := by
    rw [← b.opened_bare, ← h.bare, a.opened_bare, ho]
  have hturns : b.turns slug = a.turns slug := by rw [← b.turns_bare, ← h.bare, a.turns_bare]
  have hstorableB : ∀ s ∈ b.replayed? slug index, s.Storable := by
    rwa [← b.replayed?_bare, ← h.bare, a.replayed?_bare]
  -- Each checkpoint is sound, so both archives answer as without one.
  have hsame : (a.stateOf slug card initial index).1 = (b.stateOf slug card initial index).1 := by
    cases ht : a.turns slug with
    | error e => simp [Archive.stateOf, hturns, ht]
    | ok ts =>
      rw [Archive.stateOf_fst h.soundLeft ho ht fun s hs => (hstorable s hs).2,
        Archive.stateOf_fst h.soundRight hob (hturns.trans ht) fun s hs => (hstorableB s hs).2]
  have hsound := Archive.sound_stateOf h.soundLeft ho fun s hs => (hstorable s hs).1
  have hsoundB := Archive.sound_stateOf h.soundRight hob fun s hs => (hstorableB s hs).1
  have hbare : (a.stateOf slug card initial index).2.bare =
      (b.stateOf slug card initial index).2.bare := by
    rw [Archive.stateOf_bare, Archive.stateOf_bare, h.bare]
  exact alike_of_follows (h.left.follows_stateOf slug card initial index)
    (h.right.follows_stateOf slug card initial index) hsound hsoundB (Prod.ext hsame hbare)

end Files

namespace Service

open Files (Blind Alike Twins left)

variable {f g : Files} {a b : Archive} {slug : String} {α : Type}

theorem blind_respond (status : Nat) (body : Value) : Blind (respond status body) := by
  unfold respond
  split
  · exact Files.blind_pure _
  · exact Files.blind_throw _

theorem blind_unprocessable (body : Option Value) (problems : List Problem) :
    Blind (unprocessable body problems) := by
  unfold unprocessable
  dsimp only
  split
  · exact Files.blind_throw _
  · split
    · exact Files.blind_throw _
    · exact blind_respond _ _

theorem blind_refusal (status : Nat) (reason : Text) : Blind (refusal status reason) :=
  blind_respond status (.object [("detail", .text reason)])

theorem blind_notFound : Blind notFound := blind_refusal 404 "Conversation not found"

theorem blind_turnNotFound : Blind turnNotFound := blind_refusal 404 "Turn not found"

theorem blind_faultReply (fault : Fault) : Blind (faultReply fault) := by
  unfold faultReply
  cases fault.message? with
  | none => exact Files.blind_throw _
  | some reason => exact blind_respond _ _

theorem blind_withRead {read : Checked α} {body : Option Value} {k : α → Reply}
    (hk : ∀ x, Blind (k x)) : Blind (withRead read body k) := by
  cases read with
  | accepted x => exact hk x
  | refused problems => exact blind_unprocessable body problems

theorem blind_withOpened {k : Card → State → Reply} (hk : ∀ card initial, Blind (k card initial)) :
    Blind (withOpened slug k) := by
  refine (Files.blind_opened slug).bind fun found => ?_
  cases found with
  | none => exact blind_notFound
  | some p => exact hk p.1 p.2

theorem alike_withState (h : Twins f g a b) {index : Option Int} {k : Card → State → Reply}
    (hstorable : ∀ s ∈ a.replayed? slug index, s.Storable) (hk : ∀ card s, Blind (k card s)) :
    Alike ((withState slug index k).run f) ((withState slug index k).run g) := by
  have hsame : b.opened slug = a.opened slug := by rw [← b.opened_bare, ← h.bare, a.opened_bare]
  unfold withState withOpened
  rw [EStateM.run_bind, EStateM.run_bind, h.left.run_opened, h.right.run_opened, hsame]
  cases ho : a.opened slug with
  | error e => exact ⟨rfl, a, b, h⟩
  | ok found =>
    cases found with
    | none => exact blind_notFound f g a b h
    | some p =>
      refine (Files.alike_stateOf h ho hstorable).observing.bind fun result => ?_
      cases result with
      | ok s => exact hk p.1 s
      | error e =>
        cases e with
        | fault fault => exact blind_faultReply fault
        | _ => exact Files.blind_throw _

theorem blind_list : Blind list :=
  Files.blind_list.bind fun _ => blind_respond _ _

theorem blind_create (body : Option Value) : Blind (create body) := by
  refine blind_withRead fun b => (Files.blind_create b.name b.card).observing.bind fun result => ?_
  cases result with
  | ok slug => exact blind_respond _ _
  | error e =>
    cases e with
    | taken slug => exact blind_respond _ _
    | _ => exact Files.blind_throw _

theorem blind_card (slug : String) : Blind (card slug) := by
  refine (Files.blind_card? slug).bind fun found => ?_
  cases found with
  | none => exact blind_notFound
  | some c => exact blind_respond _ _

theorem blind_delete (slug : String) : Blind (delete slug) := by
  refine (Files.blind_delete slug).bind fun done => ?_
  split
  · exact blind_respond _ _
  · exact blind_notFound

theorem blind_turns (slug : String) : Blind (turns slug) :=
  blind_withOpened fun _ _ => (Files.blind_turns slug).bind fun _ => blind_respond _ _

theorem blind_append (slug : String) (body : Option Value) : Blind (append slug body) :=
  blind_withRead fun _ => blind_withOpened fun _ _ =>
    (Files.blind_append slug _ _ _).bind fun _ => blind_respond _ _

theorem blind_update (slug index : String) (body : Option Value) :
    Blind (update slug index body) := by
  refine blind_withRead fun (i, b) => blind_withOpened fun _ _ =>
    (Files.blind_update slug i b.changes).observing.bind fun result => ?_
  cases result with
  | ok t => exact blind_respond _ _
  | error e =>
    cases e with
    | noTurn i => exact blind_turnNotFound
    | _ => exact Files.blind_throw _

theorem blind_truncate (slug index : String) : Blind (truncate slug index) := by
  refine blind_withRead fun i => blind_withOpened fun _ _ =>
    (Files.blind_turns slug).bind fun ts => ?_
  split
  · exact blind_turnNotFound
  · exact (Files.blind_truncate slug i).bind fun _ => blind_respond _ _

theorem alike_withRead {read : Checked α} {body : Option Value} {index : α → Option Int}
    {k : α → Reply} (h : Twins f g a b)
    (hstorable : ∀ s i, (read.toOption.map fun x => Operation.ask slug (index x)) = some (.ask s i) →
      ∀ state ∈ a.replayed? s i, state.Storable)
    (hk : ∀ x, (∀ state ∈ a.replayed? slug (index x), state.Storable) →
      Alike ((k x).run f) ((k x).run g)) :
    Alike ((withRead read body k).run f) ((withRead read body k).run g) := by
  cases read with
  | accepted x => exact hk x (hstorable _ _ rfl)
  | refused problems => exact blind_unprocessable body problems f g a b h

/-- Twins answer a request alike, given that a checkpoint can hold the state that it asks for. -/
theorem alike_handle (h : Twins f g a b) {r : Request}
    (hstorable : ∀ s i, operation? r = some (.ask s i) →
      ∀ state ∈ a.replayed? s i, state.Storable) :
    Alike ((handle r).run f) ((handle r).run g) := by
  unfold handle
  split
  case h_1 => exact blind_respond _ _ f g a b h
  case h_2 => exact blind_list f g a b h
  case h_3 => exact blind_create r.body f g a b h
  case h_4 slug _ _ => exact blind_card slug f g a b h
  case h_5 slug _ _ => exact blind_delete slug f g a b h
  case h_6 slug _ _ => exact blind_turns slug f g a b h
  case h_7 slug _ _ => exact blind_append slug r.body f g a b h
  case h_8 slug index _ _ => exact blind_update slug index r.body f g a b h
  case h_9 slug index _ _ => exact blind_truncate slug index f g a b h
  case h_10 he hm =>
    simp only [operation?, he, hm] at hstorable
    exact alike_withRead h hstorable fun _ hask => alike_withState h hask fun _ _ =>
      blind_respond _ _
  case h_11 slug name he hm =>
    simp only [operation?, he, hm] at hstorable
    refine alike_withRead h hstorable fun _ hask => alike_withState h hask fun card s => ?_
    dsimp only
    split
    · exact blind_faultReply _
    · split
      · exact Files.blind_throw _
      · exact blind_respond _ _
  case h_12 he hm =>
    simp only [operation?, he, hm] at hstorable
    refine alike_withRead h hstorable fun b hask => alike_withState h hask fun card s => ?_
    split
    · exact Files.blind_throw _
    · split
      · exact Files.blind_throw _
      · exact blind_respond _ _
  case h_13 => exact blind_respond _ _ f g a b h

end Service

end Storyworld
