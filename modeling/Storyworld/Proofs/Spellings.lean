import Storyworld.Block.Document
import Storyworld.Proofs.FiledArchive
import Storyworld.Proofs.StoredCard

/-! Documents in either spelling. What is accepted stays the same when keys of its records change to
their other spelling, at whatever depth, and is read back from what is written for it. -/

namespace Storyworld

variable {σ α β : Type}

namespace Checked

/-- What the first check accepts, the second accepts too. -/
def Entails (x y : Checked α) : Prop := ∀ a, x = .accepted a → y = .accepted a

variable {x y : Checked α}

theorem Entails.refl (x : Checked α) : x.Entails x := fun _ h => h

theorem Entails.map (h : x.Entails y) (f : α → β) : (x.map f).Entails (y.map f) := by
  intro b hb
  obtain ⟨a, ha, rfl⟩ := map_eq_accepted hb
  rw [h a ha]
  rfl

theorem Entails.ap {f g : Checked (α → β)} (hf : f.Entails g) (h : x.Entails y) :
    (f.ap x).Entails (g.ap y) := by
  intro b hb
  obtain ⟨f', a, hf', ha, rfl⟩ := ap_eq_accepted hb
  rw [hf f' hf', h a ha]
  rfl

theorem Entails.andThen (h : x.Entails y) (f : α → Checked β) :
    (x.andThen f).Entails (y.andThen f) := by
  intro b hb
  obtain ⟨a, ha, hb⟩ := andThen_eq_accepted hb
  rw [h a ha]
  exact hb

/-- The paths of problems do not count. -/
theorem Entails.under (h : x.Entails y) (segment other : Text) :
    (x.under segment).Entails (y.under other) := by
  intro a ha
  rw [h a (under_eq_accepted ha)]
  rfl

end Checked

namespace Key

variable {key : Key} {fields : Entries Text Value} {v : Value}

def spellings (key : Key) : List Text := [key.camel, key.snake]

/-- The field is there in neither spelling. -/
def Absent (key : Key) (fields : Entries Text Value) : Prop :=
  ∀ k ∈ key.spellings, fields.get? k = none

instance : Decidable (key.Absent fields) :=
  inferInstanceAs (Decidable (∀ k ∈ key.spellings, fields.get? k = none))

/-- The field is there, in one spelling alone. -/
def Holds (key : Key) (fields : Entries Text Value) (v : Value) : Prop :=
  ∃ k ∈ key.spellings, fields.get? k = some v ∧
    ∀ other ∈ key.spellings, other ≠ k → fields.get? other = none

theorem Absent.find? (h : key.Absent fields) : key.find? fields = none := by
  rw [Key.find?, h key.camel (by simp [spellings]), h key.snake (by simp [spellings])]
  rfl

theorem Holds.find? (h : key.Holds fields v) : ∃ k, key.find? fields = some (k, v) := by
  obtain ⟨k, hk, hget, hother⟩ := h
  simp only [spellings, List.mem_cons, List.not_mem_nil, or_false] at hk
  rcases hk with rfl | rfl
  · exact ⟨key.camel, by rw [Key.find?, hget]⟩
  · by_cases hsame : key.camel = key.snake
    · exact ⟨key.camel, by rw [Key.find?, hsame, hget]⟩
    · have hcamel := hother key.camel (by simp [spellings]) hsame
      exact ⟨key.snake, by rw [Key.find?, hcamel, hget]; rfl⟩

end Key

mutual

/-- Two documents that a codec is to read alike: each field of each record is absent from both, or
it is in both, in one of its two spellings here and there. Keys that are data stay as they are. -/
inductive Respelled : {α : Type} → Codec α → Value → Value → Prop
  | same {α : Type} (c : Codec α) (v : Value) : Respelled c v v
  | optional {α : Type} {c : Codec α} {v w : Value} :
      Respelled c v w → Respelled (.optional c) v w
  | list {α : Type} {c : Codec α} {vs ws : List Value} :
      RespelledItems c vs ws → Respelled (.list c) (.list vs) (.list ws)
  | record {σ : Type} {r : Record σ σ} {check : σ → Checked σ} {fs gs : Entries Text Value} :
      RespelledFields r fs gs → Respelled (r.codec check) (.object fs) (.object gs)

inductive RespelledItems : {α : Type} → Codec α → List Value → List Value → Prop
  | nil {α : Type} (c : Codec α) : RespelledItems c [] []
  | cons {α : Type} {c : Codec α} {v w : Value} {vs ws : List Value} :
      Respelled c v w → RespelledItems c vs ws → RespelledItems c (v :: vs) (w :: ws)

inductive RespelledFields : {σ α : Type} → Record σ α → Entries Text Value → Entries Text Value → Prop
  | make {σ α : Type} (build : α) (fs gs : Entries Text Value) :
      RespelledFields (.make build : Record σ α) fs gs
  | absent {σ α β : Type} {r : Record σ (α → β)} {key : Key} {c : Codec α} {default : Option α}
      {get : σ → α} {fs gs : Entries Text Value} :
      RespelledFields r fs gs → key.Absent fs → key.Absent gs →
        RespelledFields (r.field key c default get) fs gs
  | present {σ α β : Type} {r : Record σ (α → β)} {key : Key} {c : Codec α} {default : Option α}
      {get : σ → α} {fs gs : Entries Text Value} {v w : Value} :
      RespelledFields r fs gs → key.Holds fs v → key.Holds gs w → Respelled c v w →
        RespelledFields (r.field key c default get) fs gs

end

theorem Respelled.null_iff {v w : Value} :
    ∀ {α : Type} {c : Codec α}, Respelled c v w → (v = .null ↔ w = .null)
  | _, _, .same _ _ => Iff.rfl
  | _, _, .optional h => h.null_iff
  | _, _, .list _ => by simp
  | _, _, .record _ => by simp

theorem Codec.optional_entails {c : Codec α} {v w : Value} (hnull : v = .null ↔ w = .null)
    (h : (c.load v).Entails (c.load w)) : ((optional c).load v).Entails ((optional c).load w) := by
  by_cases hv : v = .null
  · rw [hnull.mp hv, hv]
    exact .refl _
  · have hw : w ≠ .null := fun hw => hv (hnull.mpr hw)
    have hload (u : Value) (hu : u ≠ .null) : (optional c).load u = (c.load u).map some := by
      cases u with
      | null => exact (hu rfl).elim
      | _ => rfl
    rw [hload v hv, hload w hw]
    exact h.map some

namespace Record

theorem field_load_of_absent {r : Record σ (α → β)} {key : Key} {c : Codec α} {default : Option α}
    {get : σ → α} {fields : Entries Text Value} (h : key.Absent fields) :
    (r.field key c default get).load fields = (r.load fields).ap
      (match default with
        | some a => .accepted a
        | none => .refused [⟨[key.camel], .missing⟩]) := by
  cases default <;> simp only [field, h.find?]

theorem field_load_of_holds {r : Record σ (α → β)} {key : Key} {c : Codec α} {default : Option α}
    {get : σ → α} {fields : Entries Text Value} {v : Value} (h : key.Holds fields v) :
    ∃ spelling, (r.field key c default get).load fields =
      (r.load fields).ap ((c.load v).under spelling) := by
  obtain ⟨spelling, hfind⟩ := h.find?
  exact ⟨spelling, by simp only [field, hfind]⟩

end Record

mutual

theorem Respelled.entails {v w : Value} :
    ∀ {α : Type} {c : Codec α}, Respelled c v w → (c.load v).Entails (c.load w)
  | _, _, .same c v => .refl _
  | _, _, .optional h => Codec.optional_entails h.null_iff h.entails
  | _, _, .list h => h.entails fun i => toString i
  | _, _, .record h => h.entails.andThen _

theorem RespelledItems.entails {vs ws : List Value} :
    ∀ {α : Type} {c : Codec α}, RespelledItems c vs ws → ∀ place : Nat → Text,
      (Checked.all (vs.mapIdx fun i v => (c.load v).under (place i))).Entails
        (Checked.all (ws.mapIdx fun i w => (c.load w).under (place i)))
  | _, _, .nil c, _ => .refl _
  | _, _, .cons h hs, place => by
    simp only [List.mapIdx_cons, Checked.all]
    exact ((h.entails.under _ _).map _).ap (hs.entails fun i => place (i + 1))

theorem RespelledFields.entails {fs gs : Entries Text Value} :
    ∀ {σ α : Type} {r : Record σ α}, RespelledFields r fs gs → (r.load fs).Entails (r.load gs)
  | _, _, _, .make build _ _ => .refl _
  | _, _, _, .absent h hf hg => by
    rw [Record.field_load_of_absent hf, Record.field_load_of_absent hg]
    exact h.entails.ap (.refl _)
  | _, _, _, .present h hf hg hvw => by
    obtain ⟨k, hk⟩ := Record.field_load_of_holds hf
    obtain ⟨k', hk'⟩ := Record.field_load_of_holds hg
    rw [hk, hk']
    exact h.entails.ap (hvw.entails.under k k')

end

open Codec Record

theorem tier_returns (t : Tier) : Tier.codec.Returns t := choice_returns (by cases t <;> decide)

theorem castAction_returns (a : CastAction) : CastAction.codec.Returns a :=
  choice_returns (by cases a <;> decide)

theorem locationAction_returns (a : LocationAction) : LocationAction.codec.Returns a :=
  choice_returns (by cases a <;> decide)

theorem mutation_returns (m : Mutation) : Mutation.codec.Returns m := by
  refine codec_returns ?_ rfl
  refine field_returns (field_returns (field_returns (field_returns (field_returns (field_returns
    (field_returns (field_returns (make_returns _ _) ?_ (text_returns _)) ?_ (text_returns _)) ?_
    (optionalText_returns _)) ?_ (optionalText_returns _)) ?_ (scope_returns _)) ?_
    (text_returns _)) ?_ (optionalText_returns _)) ?_ (optionalText_returns _)
  all_goals simp [field, make, Entries.keys, Key.plain]

theorem castIntent_returns (c : CastIntent) : CastIntent.codec.Returns c := by
  have htier : (optional Tier.codec).Returns c.tier :=
    optional_returns fun t _ => ⟨tier_returns t, by simp [Tier.codec, choice]⟩
  refine codec_returns ?_ rfl
  refine field_returns (field_returns (field_returns (field_returns (make_returns _ _) ?_
    (castAction_returns _)) ?_ (text_returns _)) ?_ htier) ?_ (optionalText_returns _)
  all_goals simp [field, make, Entries.keys, Key.plain]

theorem locationIntent_returns (l : LocationIntent) : LocationIntent.codec.Returns l := by
  refine codec_returns ?_ rfl
  refine field_returns (field_returns (make_returns _ _) ?_ (locationAction_returns _)) ?_
    (text_returns _)
  all_goals simp [field, make, Entries.keys, Key.plain]

theorem sceneUpdate_returns (u : SceneUpdate) : SceneUpdate.codec.Returns u := by
  have htags : (optional (list text)).Returns u.sceneTags :=
    optional_returns fun tags _ => ⟨texts_return tags, by simp [list]⟩
  refine codec_returns ?_ rfl
  refine field_returns (field_returns (make_returns _ _) ?_ (optionalText_returns _)) ?_ htags
  all_goals simp [field, make, Entries.keys]

theorem block_returns (b : Block) : Block.codec.Returns b := by
  have hscene : (optional SceneUpdate.codec).Returns b.scene :=
    optional_returns fun u _ => ⟨sceneUpdate_returns u, by simp [SceneUpdate.codec, Record.codec]⟩
  refine codec_returns ?_ rfl
  refine field_returns (field_returns (field_returns (field_returns (make_returns _ _) ?_
    (list_returns fun m _ => mutation_returns m)) ?_
    (list_returns fun c _ => castIntent_returns c)) ?_
    (list_returns fun l _ => locationIntent_returns l)) ?_ hscene
  all_goals simp [field, make, Entries.keys, Key.plain]

/-- The records that documents consist of. -/
inductive RecordKind where
  | phaseBand
  | arrayConfig
  | parameter
  | entity
  | characterLimits
  | locationLimits
  | castConfig
  | card
  | mutation
  | castIntent
  | locationIntent
  | sceneUpdate
  | block
  | cast
  | locations
  | scene
  | state
  | checkpoint
  | turn

namespace RecordKind

def Content : RecordKind → Type
  | phaseBand => PhaseBand
  | arrayConfig => ArrayConfig
  | parameter => Parameter
  | entity => Entity
  | characterLimits => CharacterLimits
  | locationLimits => LocationLimits
  | castConfig => CastConfig
  | card => Card
  | mutation => Mutation
  | castIntent => CastIntent
  | locationIntent => LocationIntent
  | sceneUpdate => SceneUpdate
  | block => Block
  | cast => Cast
  | locations => Locations
  | scene => Scene
  | state => State
  | checkpoint => Checkpoint
  | turn => Turn

def codec : (kind : RecordKind) → Codec kind.Content
  | phaseBand => PhaseBand.codec
  | arrayConfig => ArrayConfig.codec
  | parameter => Parameter.codec
  | entity => Entity.codec
  | characterLimits => CharacterLimits.codec
  | locationLimits => LocationLimits.codec
  | castConfig => CastConfig.codec
  | card => Card.codec
  | mutation => Mutation.codec
  | castIntent => CastIntent.codec
  | locationIntent => LocationIntent.codec
  | sceneUpdate => SceneUpdate.codec
  | block => Block.codec
  | cast => Cast.codec
  | locations => Locations.codec
  | scene => Scene.codec
  | state => State.codec
  | checkpoint => Checkpoint.codec
  | turn => Turn.codec

/-- Whatever is accepted is read back from what is written for it. -/
theorem returns_of_load (kind : RecordKind) {v : Value} {a : kind.Content}
    (h : kind.codec.load v = .accepted a) : kind.codec.Returns a := by
  cases kind with
  | phaseBand => exact phaseBand_returns a
  | arrayConfig => exact arrayConfig_returns a
  | parameter => exact parameter_returns (parameter_ensures v a h)
  | entity => exact entity_returns a
  | characterLimits => exact characterLimits_return a
  | locationLimits => exact locationLimits_return a
  | castConfig => exact castConfig_returns a
  | card => exact card_returns (valid_of_load h)
  | mutation => exact mutation_returns a
  | castIntent => exact castIntent_returns a
  | locationIntent => exact locationIntent_returns a
  | sceneUpdate => exact sceneUpdate_returns a
  | block => exact block_returns a
  | cast => exact cast_returns a
  | locations => exact locations_return a
  | scene => exact scene_returns a
  | state => exact state_returns a
  | checkpoint => exact checkpoint_returns a
  | turn => exact turn_returns a

/-- A document that is accepted gives a value which is read back from its own document, and which
every document that differs in the spelling of keys alone gives too. -/
theorem accepted_read_alike (kind : RecordKind) {v : Value} {a : kind.Content}
    (h : kind.codec.load v = .accepted a) :
    kind.codec.load (kind.codec.dump a) = .accepted a ∧
      ∀ w, Respelled kind.codec v w → kind.codec.load w = .accepted a :=
  ⟨kind.returns_of_load h, fun _ hw => hw.entails a h⟩

end RecordKind

namespace Demo

/-- Ceilings of a cast, some of them given, with a text for a number. -/
def ceilings (characters focus : Text) : Value :=
  .object [("locationCast", .object [("maxCandidate", .int 4)]),
    (characters, .object [(focus, .text " 2 "), ("note", .null)])]

theorem ceilings_respelled : Respelled CastConfig.codec (ceilings "characterCast" "maxFocus")
    (ceilings "character_cast" "max_focus") := by
  have hcharacters : Respelled CharacterLimits.codec
      (.object [("maxFocus", .text " 2 "), ("note", .null)])
      (.object [("max_focus", .text " 2 "), ("note", .null)]) := by
    have hfocus : RespelledFields ((make CharacterLimits.mk).field ⟨"maxFocus", "max_focus"⟩ .count
        (some 3) CharacterLimits.focus) [("maxFocus", .text " 2 "), ("note", .null)]
        [("max_focus", .text " 2 "), ("note", .null)] :=
      .present (.make _ _ _) ⟨"maxFocus", by decide, rfl, by decide⟩
        ⟨"max_focus", by decide, rfl, by decide⟩ (.same _ (.text " 2 "))
    exact .record (.absent (.absent hfocus (by decide) (by decide)) (by decide) (by decide))
  refine .record (.present (.present (.make _ _ _) ?_ ?_ hcharacters) ?_ ?_
    (.same _ (.object [("maxCandidate", .int 4)])))
  · exact ⟨"characterCast", by decide, rfl, by decide⟩
  · exact ⟨"character_cast", by decide, rfl, by decide⟩
  · exact ⟨"locationCast", by decide, rfl, by decide⟩
  · exact ⟨"locationCast", by decide, rfl, by decide⟩

theorem ceilings_read_alike :
    CastConfig.codec.load (ceilings "characterCast" "maxFocus") = .accepted ⟨⟨2, 5, 10⟩, ⟨4⟩⟩ ∧
      CastConfig.codec.load (CastConfig.codec.dump ⟨⟨2, 5, 10⟩, ⟨4⟩⟩) =
        .accepted ⟨⟨2, 5, 10⟩, ⟨4⟩⟩ ∧
      CastConfig.codec.load (ceilings "character_cast" "max_focus") =
        .accepted ⟨⟨2, 5, 10⟩, ⟨4⟩⟩ := by
  have hload : CastConfig.codec.load (ceilings "characterCast" "maxFocus") =
      .accepted ⟨⟨2, 5, 10⟩, ⟨4⟩⟩ := rfl
  have h := RecordKind.castConfig.accepted_read_alike hload
  exact ⟨hload, h.1, h.2 _ ceilings_respelled⟩

end Demo

end Storyworld
