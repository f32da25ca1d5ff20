import Storyworld.Demo
import Storyworld.Proofs.Lines
import Storyworld.Proofs.Replay

/-! The checkpoint that is kept with a conversation. Every operation on the archive leaves it within
the history and equal to what replay gives for the turns up to its index, so that no answer depends
on it. Only this rests on no digest: a change to the history drops each checkpoint that it could
concern. A history that was emptied while it was written can no longer be read, and the checkpoint
beside it is of no use. -/

namespace Storyworld

/-- A kept checkpoint reads as one that lies within the history and that replay confirms, if the
history can be read. -/
def Conversation.Sound (c : Conversation) : Prop :=
  ∀ turns v, c.turns = .ok turns → c.checkpoint = some v → ∃ p card initial,
    Checkpoint.codec.load v = .accepted p ∧ Card.codec.load c.card = .accepted card ∧
      card.initialState = .ok initial ∧ p.index < turns.length ∧ p.Faithful card initial turns

namespace Conversation

variable {c : Conversation} {turns next : List Turn}

theorem sound_of_none (h : c.checkpoint = none) : c.Sound := by
  intro turns v _ hv
  rw [h] at hv
  cases hv

theorem sound_emptied (c : Conversation) : c.emptied.Sound := nofun

theorem Sound.write (h : c.Sound) (ht : c.turns = .ok turns)
    (hagree : ∀ p, c.checkpoint? = some p → p.index < turns.length →
      p.index < next.length ∧ next.take (p.index + 1) = turns.take (p.index + 1)) :
    (c.write next).Sound := by
  intro written v hwritten hv
  obtain rfl := Except.ok.inj hwritten
  have hv : c.checkpoint = some v := hv
  obtain ⟨p, card, initial, hp, hcard, hinitial, hi, hfaithful⟩ := h turns v ht hv
  have hread : c.checkpoint? = some p := by simp [checkpoint?, hv, hp, Checked.toOption]
  obtain ⟨hlt, htake⟩ := hagree p hread hi
  refine ⟨p, card, initial, hp, hcard, hinitial, hlt, ?_⟩
  rw [Checkpoint.Faithful, ← hfaithful]
  exact congrArg (replay card initial) htake

/-- A new history that agrees with the old one before an index, from which on checkpoints are
dropped. -/
theorem Sound.dropFrom (h : c.Sound) (ht : c.turns = .ok turns) {n : Nat}
    (hagree : ∀ i < n, i < turns.length →
      i < next.length ∧ next.take (i + 1) = turns.take (i + 1)) :
    ((c.write next).dropFrom n).Sound := by
  unfold Conversation.dropFrom
  cases hread : (c.write next).checkpoint? with
  | none =>
    refine h.write ht fun p hp _ => ?_
    cases hread.symm.trans hp
  | some q =>
    dsimp only
    split
    · exact sound_of_none rfl
    · rename_i hn
      refine h.write ht fun p hp hi => ?_
      obtain rfl := Option.some.inj (hread.symm.trans hp)
      exact hagree _ (by omega) hi

/-- No change to a history leaves a checkpoint that it concerns. -/
theorem Sound.rewrites (h : c.Sound) (ht : c.turns = .ok turns)
    {op : Operation} {settle : Conversation → Conversation} (hr : Rewrites turns op next settle) :
    (settle (c.write next)).Sound := by
  cases hr with
  | append _ =>
    refine h.write ht fun p _ hi => ⟨?_, List.take_append_of_le_length hi⟩
    rw [List.length_append]
    omega
  | update _ _ =>
    refine h.dropFrom ht fun j hj hlt => ⟨by simpa using hlt, ?_⟩
    rw [List.take_set_of_le (by omega)]
  | truncate =>
    refine h.dropFrom ht fun j hj hlt => ⟨hj, ?_⟩
    rw [List.length_take] at hj
    rw [List.take_take, Nat.min_eq_left (by omega)]

theorem sound_setCheckpoint {p : Checkpoint} {card : Card} {initial : State}
    (ht : c.turns = .ok turns) (hcard : Card.codec.load c.card = .accepted card)
    (hinitial : card.initialState = .ok initial) (hi : p.index < turns.length)
    (hfaithful : p.Faithful card initial turns) (hfinite : p.state.Finite) :
    (c.setCheckpoint p).Sound := by
  intro read v hread hv
  obtain rfl := Except.ok.inj (ht.symm.trans hread)
  obtain rfl := Option.some.inj hv
  exact ⟨p, card, initial, load_kept_checkpoint hfinite, hcard, hinitial, hi, hfaithful⟩

end Conversation

/-- The index that is asked for, that of the last turn if none is given. -/
def askedIndex (turns : List Turn) (index : Option Int) : Int := index.getD (turns.length - 1)

namespace Archive

variable {a b : Archive} {slug : String} {turns : List Turn} {card : Card} {initial s : State}

theorem opened_eq_ok (h : a.opened slug = .ok (some (card, initial))) :
    ∃ c, Entries.get? slug a = some c ∧ Card.codec.load c.card = .accepted card ∧
      card.initialState = .ok initial := by
  unfold opened card? at h
  cases hc : Entries.get? slug a with
  | none => simp [hc] at h
  | some c =>
    cases hl : Card.codec.load c.card with
    | refused problems => simp [hc, hl] at h
    | accepted card' =>
      cases hs : card'.initialState with
      | error f => simp [hc, hl, hs] at h
      | ok s =>
        simp only [hc, hl, hs, Except.ok.injEq, Option.some.injEq, Prod.mk.injEq] at h
        obtain ⟨rfl, rfl⟩ := h
        exact ⟨c, rfl, hl, hs⟩

theorem trusted_of_sound (h : a.All Conversation.Sound)
    (ho : a.opened slug = .ok (some (card, initial))) (ht : a.turns slug = .ok turns) :
    Trusted card initial turns (a.checkpoint? slug) := by
  obtain ⟨c, hc, hcard, hinitial⟩ := opened_eq_ok ho
  intro p hp _
  rw [turns_of_get? hc] at ht
  simp only [checkpoint?, hc, Option.bind_some, Conversation.checkpoint?] at hp
  cases hv : c.checkpoint with
  | none => simp [hv] at hp
  | some v =>
    obtain ⟨q, card', initial', hq, hcard', hinitial', _, hfaithful⟩ := h slug c hc turns v ht hv
    simp only [hv, Option.bind_some, hq, Checked.toOption, Option.some.injEq] at hp
    obtain rfl := Checked.accepted.inj (hcard.symm.trans hcard')
    obtain rfl := Except.ok.inj (hinitial.symm.trans hinitial')
    rw [← hp]
    exact hfaithful

/-- The state at an index of a conversation or at its end, as replay from the beginning gives it. -/
def replayed? (a : Archive) (slug : String) (index : Option Int) : Option State :=
  match a.opened slug, a.turns slug with
  | .ok (some (card, initial)), .ok turns =>
    (plainStateAt card initial turns (askedIndex turns index)).toOption
  | _, _ => none

theorem replayed?_eq_some {index : Option Int} : a.replayed? slug index = some s ↔
    ∃ card initial turns, a.opened slug = .ok (some (card, initial)) ∧ a.turns slug = .ok turns ∧
      plainStateAt card initial turns (askedIndex turns index) = .ok s := by
  unfold replayed?
  constructor
  · intro h
    split at h
    · rename_i card initial turns ho ht
      refine ⟨card, initial, turns, ho, ht, ?_⟩
      cases hs : plainStateAt card initial turns (askedIndex turns index) with
      | error f => simp [hs, Except.toOption] at h
      | ok s' => simpa [hs, Except.toOption] using h
    · cases h
  · rintro ⟨card, initial, turns, ho, ht, hs⟩
    simp [ho, ht, hs, Except.toOption]

/-- What a run may do. A state that it replays is finite, and a checkpoint that it brings in from
outside is one that replay confirms. -/
def Admits (a : Archive) : Operation → Prop
  | .ask slug index => ∀ s ∈ a.replayed? slug index, s.Finite
  | .save slug p => p.state.Finite ∧ a.replayed? slug (some p.index) = some p.state
  | _ => True

def AdmitsAll : Archive → List Operation → Prop
  | _, [] => True
  | a, op :: ops => a.Admits op ∧ (a.after op).AdmitsAll ops

theorem sound_saveCheckpoint {p : Checkpoint} (h : a.All Conversation.Sound)
    (ho : a.opened slug = .ok (some (card, initial))) (ht : a.turns slug = .ok turns)
    (hi : p.index < turns.length) (hfaithful : p.Faithful card initial turns)
    (hfinite : p.state.Finite) (hs : a.saveCheckpoint slug p = .ok b) :
    b.All Conversation.Sound := by
  obtain ⟨c, hc, hcard, hinitial⟩ := opened_eq_ok ho
  obtain ⟨-, d, hd, rfl⟩ := saveCheckpoint_eq_ok.mp hs
  obtain rfl := Option.some.inj (hc.symm.trans hd)
  rw [turns_of_get? hc] at ht
  exact h.put (Conversation.sound_setCheckpoint ht hcard hinitial hi hfaithful hfinite)

/-- How a question to an opened conversation is answered whose history can be read: by the fault that
replay meets, or by the state if a checkpoint that is left behind for it can be saved. -/
theorem stateOf_of_turns (ho : a.opened slug = .ok (some (card, initial)))
    (ht : a.turns slug = .ok turns) (index : Option Int) :
    (∃ f, stateWhen card initial turns (a.checkpoint? slug) index = .error f ∧
        a.stateOf slug card initial index = (.error (.fault f), a)) ∨
      ∃ s left, stateWhen card initial turns (a.checkpoint? slug) index = .ok (s, left) ∧
        (left = none ∧ a.stateOf slug card initial index = (.ok s, a) ∨
          ∃ p, left = some p ∧
            ((∃ b, a.saveCheckpoint slug p = .ok b ∧
                a.stateOf slug card initial index = (.ok s, b)) ∨
              (p.isPlain = false ∧
                a.stateOf slug card initial index = (.error .unserializable, a)))) := by
  obtain ⟨c, hc, -⟩ := opened_eq_ok ho
  unfold stateOf
  simp only [ht]
  cases stateWhen card initial turns (a.checkpoint? slug) index with
  | error f => exact .inl ⟨f, rfl, rfl⟩
  | ok answer =>
    obtain ⟨s, left⟩ := answer
    refine .inr ⟨s, left, rfl, ?_⟩
    cases left with
    | none => exact .inl ⟨rfl, rfl⟩
    | some p =>
      refine .inr ⟨p, rfl, ?_⟩
      cases hplain : p.isPlain with
      | true => exact .inl ⟨_, saveCheckpoint_eq_ok.mpr ⟨hplain, c, hc, rfl⟩,
          by simp [saveCheckpoint, modify, hplain, hc]⟩
      | false => exact .inr ⟨rfl, by simp [saveCheckpoint, hplain]⟩

theorem sound_stateOf {index : Option Int} (h : a.All Conversation.Sound)
    (ho : a.opened slug = .ok (some (card, initial)))
    (hfinite : ∀ s ∈ a.replayed? slug index, s.Finite) :
    (a.stateOf slug card initial index).2.All Conversation.Sound := by
  cases ht : a.turns slug with
  | error e => simpa [stateOf, ht] using h
  | ok turns =>
    rcases stateOf_of_turns ho ht index with ⟨f, -, hs⟩ |
      ⟨s, left, hw, ⟨-, hs⟩ | ⟨p, rfl, ⟨b, hb, hs⟩ | ⟨-, hs⟩⟩⟩ <;> rw [hs]
    · exact h
    · exact h
    · obtain ⟨hindex, hi, hfaithful, -⟩ := stateWhen_left (trusted_of_sound h ho ht) hw
      refine sound_saveCheckpoint h ho ht hi hfaithful (hfinite p.state ?_) hb
      refine replayed?_eq_some.mpr ⟨card, initial, turns, ho, ht, ?_⟩
      rw [askedIndex, hindex]
      exact hfaithful.plain hi
    · exact h

/-- A replayed state, or the fault instead of it, as the archive answers with it. -/
def answer (x : Except Fault State) : Except ArchiveError (Option State) :=
  (x.map some).mapError .fault

theorem state_of_opened (index : Option Int) (ho : a.opened slug = .ok (some (card, initial))) :
    a.state slug index = ((a.stateOf slug card initial index).1.map some,
      (a.stateOf slug card initial index).2) := by
  simp only [state, ho]
  rcases a.stateOf slug card initial index with ⟨_ | _, _⟩ <;> rfl

/-- The state that is asked for is the one that replay from the beginning gives. Only where a half is
in it, it may be that the checkpoint for it cannot be saved. -/
theorem state_eq_plain (h : a.All Conversation.Sound)
    (ho : a.opened slug = .ok (some (card, initial))) (ht : a.turns slug = .ok turns)
    (index : Int) :
    (a.state slug (some index)).1 = answer (plainStateAt card initial turns index) ∨
      (a.state slug (some index)).1 = .error .unserializable ∧
        ∃ s, plainStateAt card initial turns index = .ok s ∧ s.isPlain = false := by
  have htrusted := trusted_of_sound h ho ht
  have hplain : (stateWhen card initial turns (a.checkpoint? slug) (some index)).map Prod.fst =
      plainStateAt card initial turns index := stateAt_eq_plain htrusted index
  rw [state_of_opened _ ho, ← hplain]
  rcases stateOf_of_turns ho ht (some index) with ⟨f, hw, hs⟩ |
    ⟨s, left, hw, ⟨-, hs⟩ | ⟨p, rfl, ⟨b, -, hs⟩ | ⟨hhalf, hs⟩⟩⟩ <;> rw [hs, hw]
  · exact .inl rfl
  · exact .inl rfl
  · exact .inl rfl
  · obtain ⟨-, -, -, hstate, hdigest⟩ := stateWhen_left htrusted hw
    refine .inr ⟨rfl, s, rfl, ?_⟩
    rw [Checkpoint.isPlain_eq, hdigest, hstate] at hhalf
    simpa [isPlain_fingerprint] using hhalf

theorem sound_state {index : Option Int} (h : a.All Conversation.Sound)
    (hadm : a.Admits (.ask slug index)) : (a.state slug index).2.All Conversation.Sound := by
  cases ho : a.opened slug with
  | error e => simpa [state, ho] using h
  | ok opened =>
    cases opened with
    | none => simpa [state, ho] using h
    | some p =>
      obtain ⟨card, initial⟩ := p
      rw [state_of_opened _ ho]
      exact sound_stateOf h ho hadm

theorem sound_revises {op : Operation} {r : Except ArchiveError Unit × Archive}
    (h : a.All Conversation.Sound) (hr : a.Revises op r) : r.2.All Conversation.Sound :=
  h.revises hr (fun c _ _ _ _ _ _ _ => c.sound_emptied) fun _ _ _ _ hc ht hrewrites _ =>
    hc.rewrites ht hrewrites

theorem sound_after (h : a.All Conversation.Sound) {op : Operation} (hadm : a.Admits op) :
    (a.after op).All Conversation.Sound := by
  cases op with
  | create name card =>
    have hcreate : (a.attempted (a.create name card)).2.All Conversation.Sound := by
      refine h.attempted fun s b hb => ?_
      obtain ⟨-, hn, -, rfl⟩ := create_eq_ok hb
      exact h.insert hn (Conversation.sound_of_none rfl)
    exact hcreate
  | delete slug => exact h.erase slug
  | append slug role text parseOutput =>
    exact sound_revises h (a.revises_append slug role text parseOutput)
  | update slug index changes => exact sound_revises h (a.revises_update slug index changes)
  | truncate slug length => exact sound_revises h (a.revises_truncate slug length)
  | ask slug index => exact sound_state h hadm
  | save slug p =>
    obtain ⟨hfinite, hreplayed⟩ := hadm
    obtain ⟨card, initial, turns, ho, ht, hplain⟩ := replayed?_eq_some.mp hreplayed
    obtain ⟨hi, hfaithful⟩ := faithful_of_plain hplain
    simp only [after, attempt, silent]
    cases hs : a.saveCheckpoint slug p with
    | error e => exact h
    | ok next => exact sound_saveCheckpoint h ho ht hi hfaithful hfinite hs
  | clear slug =>
    simp only [after, attempt, clearCheckpoint]
    split
    · exact h.put (Conversation.sound_of_none rfl)
    · exact h

theorem sound_run {ops : List Operation} (h : a.All Conversation.Sound) (hadm : a.AdmitsAll ops) :
    (a.run ops).All Conversation.Sound := by
  induction ops generalizing a with
  | nil => exact h
  | cons op ops ih => exact ih (sound_after h hadm.1) hadm.2

/-- A checkpoint that is kept beside a history which can be read lies within it and holds what replay
gives at its index. Every state that is asked for is the one that replay gives, unless there is a half
in it and no checkpoint of it can be saved. Where the history cannot be read no state is given. -/
structure Confirmed (a : Archive) (slug : String) : Prop where
  checkpoint : ∀ c v turns, Entries.get? slug a = some c → c.turns = .ok turns →
    c.checkpoint = some v → ∃ p, Checkpoint.codec.load v = .accepted p ∧ p.index < turns.length ∧
      a.replayed? slug (some p.index) = some p.state
  state : ∀ card initial turns, a.opened slug = .ok (some (card, initial)) →
    a.turns slug = .ok turns → ∀ index,
      (a.state slug (some index)).1 = answer (plainStateAt card initial turns index) ∨
        (a.state slug (some index)).1 = .error .unserializable ∧
          ∃ s, plainStateAt card initial turns index = .ok s ∧ s.isPlain = false
  unreadable : ∀ card initial e, a.opened slug = .ok (some (card, initial)) →
    a.turns slug = .error e → ∀ index, (a.state slug index).1 = .error e

/-- No run from an empty archive leaves a checkpoint beside a readable history that replay does not
confirm, and none leaves a history unreadable that gives it no half. -/
theorem run_confirmed {ops : List Operation} (h : empty.AdmitsAll ops) (slug : String) :
    (empty.run ops).Confirmed slug ∧
      ((∀ op ∈ ops, op.isPlain = true) → ∃ turns, (empty.run ops).turns slug = .ok turns) := by
  have hsound : (empty.run ops).All Conversation.Sound :=
    sound_run (fun slug c hc => by cases hc) h
  refine ⟨⟨fun c v turns hc ht hv => ?_, fun card initial turns ho ht index =>
    state_eq_plain hsound ho ht index, fun card initial e ho ht index => ?_⟩, fun hplain => ?_⟩
  · obtain ⟨p, card, initial, hp, hcard, hinitial, hi, hfaithful⟩ := hsound slug c hc turns v ht hv
    refine ⟨p, hp, hi, replayed?_eq_some.mpr ⟨card, initial, turns, ?_, ?_, hfaithful.plain hi⟩⟩
    · simp [opened, card?, hc, hcard, hinitial]
    · rwa [turns_of_get? hc]
  · rw [state_of_opened index ho]
    simp [stateOf, ht, Except.map]
  · have hlegible : (empty.run ops).All Conversation.Legible :=
      legible_run (fun slug c hc => by cases hc) hplain
    cases hc : Entries.get? slug (empty.run ops) with
    | none => exact ⟨[], by simp [Archive.turns, hc]⟩
    | some c => exact turns_of_get? hc ▸ (hlegible slug c hc).2

instance (a : Archive) (slug : String) (index : Option Int) :
    Decidable (a.Admits (.ask slug index)) :=
  inferInstanceAs (Decidable (∀ s ∈ a.replayed? slug index, s.Finite))

theorem admitsAll_append {ops more : List Operation} :
    a.AdmitsAll (ops ++ more) ↔ a.AdmitsAll ops ∧ (a.run ops).AdmitsAll more := by
  induction ops generalizing a with
  | nil => simp [AdmitsAll, run]
  | cons op ops ih => simp [AdmitsAll, run, ih, and_assoc]

def weatherCard : Card := ⟨[Demo.parameter "weather" .global .text .null], [], .standard⟩

/-- A conversation is deleted and begun again. -/
def rainyStart : List Operation := [
  .create "Rain" weatherCard,
  .append "rain" (.text "user") (.text "set(weather, fog)") .null,
  .delete "rain",
  .create "Rain!" weatherCard,
  .append "rain" (.text "user") (.text "set(weather, rain)") .null,
  .append "rain" (.text "user") (.text "set(weather, fog)") .null]

/-- The state after its first turn. -/
def rainy : State := ((empty.run rainyStart).replayed? "rain" (some 0)).getD .empty

/-- The end of the conversation is cut off and changed behind a checkpoint without digest. -/
def rainyEnd : List Operation := [
  .save "rain" ⟨0, rainy, none⟩,
  .truncate "rain" 1,
  .append "rain" (.text "user") (.text "set(weather, snow)") .null,
  .update "rain" 1 [("text", .text "set(weather, sun)")],
  .ask "rain" (some 1),
  .append "rain" (.text "user") (.text "Good night.") .null]

theorem rainy_confirmed : empty.AdmitsAll (rainyStart ++ rainyEnd) ∧
    (empty.run (rainyStart ++ rainyEnd)).Confirmed "rain" ∧
      ∃ turns, (empty.run (rainyStart ++ rainyEnd)).turns "rain" = .ok turns := by
  have hfinite : ((empty.run rainyStart).replayed? "rain" (some 0)).any (·.Finite) = true := by
    decide +kernel
  obtain ⟨s, hs⟩ : ∃ s, (empty.run rainyStart).replayed? "rain" (some 0) = some s := by
    refine Option.isSome_iff_exists.mp ?_
    cases hs : (empty.run rainyStart).replayed? "rain" (some 0) with
    | none => simp [hs] at hfinite
    | some s => rfl
  have hrainy : rainy = s := by rw [rainy, hs, Option.getD_some]
  have hasked : (empty.run (rainyStart ++ rainyEnd.take 4)).Admits (.ask "rain" (some 1)) := by
    decide +kernel
  have hadmits : empty.AdmitsAll (rainyStart ++ rainyEnd) := by
    refine admitsAll_append.mpr ⟨⟨trivial, trivial, trivial, trivial, trivial, trivial, trivial⟩, ?_⟩
    refine ⟨⟨?_, ?_⟩, trivial, trivial, trivial, hasked, trivial, trivial⟩
    · simpa [hs, hrainy] using hfinite
    · exact hs.trans (congrArg some hrainy.symm)
  obtain ⟨hconfirmed, hreadable⟩ := run_confirmed hadmits "rain"
  exact ⟨hadmits, hconfirmed, hreadable (by decide)⟩

/-- A history is lost with the first half that is written into it. -/
theorem append_half {c : Conversation} {role text parseOutput : Value} {t : Turn}
    (hc : Entries.get? slug a = some c) (ht : c.turns = .ok turns)
    (hcheck : Turn.check turns.length role text parseOutput = .accepted t)
    (hhalf : t.isPlain = false) :
    a.append slug role text parseOutput = (.error .unencodable, Entries.put slug c.emptied a) := by
  rw [← turns_of_get? hc] at ht
  have hall : (turns ++ [t]).all (·.isPlain) = false := by simp [hhalf]
  simp [append, ht, hcheck, rewrite, hc, hall, Conversation.emptied]

theorem turns_put (a : Archive) (slug : String) (c : Conversation) :
    Archive.turns (Entries.put slug c a) slug = c.turns :=
  turns_of_get? (Entries.get?_put_self _ _ _)

theorem state_emptied {c : Conversation} (hc : Entries.get? slug a = some c)
    (ho : a.opened slug = .ok (some (card, initial))) (index : Option Int) :
    (Archive.state (Entries.put slug c.emptied a) slug index).1 = .error .unreadable := by
  have hput : Archive.opened (Entries.put slug c.emptied a) slug = a.opened slug := by
    simp [opened, card?, hc, Entries.get?_put_self, Conversation.emptied]
  simp [state, hput, ho, stateOf, turns_put]

/-- A conversation of one turn, whose state has been asked for. -/
def rainyTurn : List Operation := [
  .create "Rain" weatherCard,
  .append "rain" (.text "user") (.text "set(weather, rain)") .null,
  .ask "rain" (some 0)]

/-- Where the next turn holds half a surrogate pair, the checkpoint at index 0 is left beside a history
that cannot be read, and the state at index 0 is no longer answered. -/
theorem half_leaves_checkpoint :
    let ops := rainyTurn ++ [.append "rain" (.text "user") (.text (.ofList [.high 0])) .null]
    empty.AdmitsAll ops ∧ ((empty.run ops).checkpoint? "rain").map (·.index) = some 0 ∧
      (empty.run ops).turns "rain" = .error .unreadable ∧
      ((empty.run ops).state "rain" (some 0)).1 = .error .unreadable := by
  have hasked : (empty.run (rainyTurn.take 2)).Admits (.ask "rain" (some 0)) := by decide +kernel
  have hkept : ((empty.run rainyTurn).checkpoint? "rain").map (·.index) = some 0 ∧
      ((empty.run rainyTurn).turns "rain").toOption.map (·.length) = some 1 ∧
      ((empty.run rainyTurn).opened "rain").toOption.join.isSome := by decide +kernel
  obtain ⟨hindex, hlength, hopened⟩ := hkept
  intro ops
  have hadmits : empty.AdmitsAll ops := ⟨trivial, trivial, hasked, trivial, trivial⟩
  have hrun : empty.run ops = ((empty.run rainyTurn).append "rain" (.text "user")
      (.text (.ofList [.high 0])) .null).2 := by simp [ops, run, after, attempt, silent]
  generalize empty.run rainyTurn = a at *
  obtain ⟨found, hfound⟩ := Option.isSome_iff_exists.mp hopened
  obtain ⟨card, initial⟩ := found
  have ho : a.opened "rain" = .ok (some (card, initial)) := by
    cases ho : a.opened "rain" with
    | error e => simp [ho, Except.toOption] at hfound
    | ok found => simpa [ho, Except.toOption] using hfound
  obtain ⟨c, hc, -⟩ := opened_eq_ok ho
  rw [turns_of_get? hc] at hlength
  cases ht : c.turns with
  | error e => simp [ht, Except.toOption] at hlength
  | ok turns =>
    have hone : turns.length = 1 := by simpa [ht, Except.toOption] using hlength
    have hcheck : Turn.check turns.length (.text "user") (.text (.ofList [.high 0])) .null =
        .accepted ⟨1, .user, .ofList [.high 0], none⟩ := by
      rw [hone]
      rfl
    rw [hrun, append_half hc ht hcheck rfl]
    refine ⟨hadmits, ?_, turns_put a "rain" _, state_emptied hc ho _⟩
    simpa [checkpoint?, Entries.get?_put_self, hc, Conversation.checkpoint?,
      Conversation.emptied] using hindex

end Archive

end Storyworld
