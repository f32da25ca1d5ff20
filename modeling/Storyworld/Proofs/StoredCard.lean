import Storyworld.Files
import Storyworld.Proofs.StoredCheckpoint

/-! Storing a card and getting it back. A card whose numbers are all finite is read back as it was
stored. Of the others, one with finite bands loses what is not finite among its defaults and bounds,
and one with an infinite band cannot be read any more. A card with a half in it is not stored. -/

namespace Storyworld

variable {α β σ : Type}

namespace Codec

theorem choice_returns {all : List α} {name : α → Text} {a : α}
    (h : all.find? (name · == name a) = some a) : (choice all name).Returns a := by
  simp [Returns, choice, h]

theorem real_returns (x : Double) : real.Returns x := rfl

theorem pair_returns {c : Codec α} {p : α × α} (h : c.Returns p.1) (h' : c.Returns p.2) :
    (pair c).Returns p := by
  unfold Returns at h h'
  simp [Returns, pair, h, h', Checked.under, Checked.map, Checked.ap]

theorem optionalCount_returns (n : Option Nat) : (optional count).Returns n :=
  optional_returns fun n _ => ⟨count_returns n, by simp [count, Value.int]⟩

theorem optionalReal_returns (x : Option Double) : (optional real).Returns x :=
  optional_returns fun x _ => ⟨real_returns x, by simp [real, Value.float]⟩

end Codec

open Codec Record

theorem scope_returns (s : Scope) : Scope.codec.Returns s := choice_returns (by cases s <;> decide)

theorem parameterType_returns (t : ParameterType) : ParameterType.codec.Returns t :=
  choice_returns (by cases t <;> decide)

theorem itemType_returns (t : ItemType) : ItemType.codec.Returns t :=
  choice_returns (by cases t <;> decide)

theorem entityType_returns (t : EntityType) : EntityType.codec.Returns t :=
  choice_returns (by cases t <;> decide)

theorem phaseBand_returns (b : PhaseBand) : PhaseBand.codec.Returns b := by
  refine codec_returns ?_ rfl
  refine field_returns (field_returns (make_returns _ _) ?_ (text_returns _)) ?_
    (pair_returns (real_returns _) (real_returns _))
  all_goals simp [field, make, Entries.keys, Key.plain]

theorem arrayConfig_returns (c : ArrayConfig) : ArrayConfig.codec.Returns c := by
  have hfields : (optional (entries ItemType.codec)).Returns c.itemFields :=
    optional_returns fun es _ => ⟨entries_returns fun e _ => itemType_returns e.2, by simp [entries]⟩
  refine codec_returns ?_ rfl
  refine field_returns (field_returns (field_returns (make_returns _ _) ?_ (itemType_returns _)) ?_
    (optionalCount_returns _)) ?_ hfields
  all_goals simp [field, make, Entries.keys]

theorem unlessBroken_eq_accepted {breach? : α → Option Breach} {a : α} (h : breach? a = none) :
    unlessBroken breach? a = .accepted a := by
  simp [unlessBroken, h]

theorem parameter_returns {p : Parameter} (h : p.breach? = none) : Parameter.codec.Returns p := by
  refine codec_returns ?_ (unlessBroken_eq_accepted h)
  refine field_returns (field_returns (field_returns (field_returns (field_returns (field_returns
    (field_returns (field_returns (field_returns (field_returns (field_returns (make_returns _ _)
    ?_ (text_returns _)) ?_ (optionalText_returns _)) ?_ (scope_returns _)) ?_
    (parameterType_returns _)) ?_ (text_returns _)) ?_ (any_returns _)) ?_
    (list_returns fun b _ => phaseBand_returns b)) ?_ (texts_return _)) ?_
    (arrayConfig_returns _)) ?_ (optionalReal_returns _)) ?_ (optionalReal_returns _)
  all_goals simp [field, make, Entries.keys, Key.plain]

theorem entity_returns (e : Entity) : Entity.codec.Returns e := by
  refine codec_returns ?_ rfl
  refine field_returns (field_returns (field_returns (field_returns (make_returns _ _) ?_
    (text_returns _)) ?_ (entityType_returns _)) ?_ (texts_return _)) ?_ (optionalText_returns _)
  all_goals simp [field, make, Entries.keys, Key.plain]

theorem characterLimits_return (l : CharacterLimits) : CharacterLimits.codec.Returns l := by
  refine codec_returns ?_ rfl
  refine field_returns (field_returns (field_returns (make_returns _ _) ?_ (count_returns _)) ?_
    (count_returns _)) ?_ (count_returns _)
  all_goals simp [field, make, Entries.keys]

theorem locationLimits_return (l : LocationLimits) : LocationLimits.codec.Returns l := by
  refine codec_returns ?_ rfl
  refine field_returns (make_returns _ _) ?_ (count_returns _)
  simp [make, Entries.keys]

theorem castConfig_returns (c : CastConfig) : CastConfig.codec.Returns c := by
  refine codec_returns ?_ rfl
  refine field_returns (field_returns (make_returns _ _) ?_ (characterLimits_return _)) ?_
    (locationLimits_return _)
  all_goals simp [field, make, Entries.keys]

theorem card_returns {card : Card} (hv : card.Valid) : Card.codec.Returns card := by
  refine codec_returns ?_ (unlessBroken_eq_accepted hv.whole)
  refine field_returns (field_returns (field_returns (make_returns _ _) ?_
    (list_returns fun p hp => parameter_returns (hv.parameters p hp))) ?_
    (list_returns fun e _ => entity_returns e)) ?_ (castConfig_returns _)
  all_goals simp [field, make, Entries.keys, Key.plain]

/-- Both ends of the band are finite. -/
def PhaseBand.Finite (b : PhaseBand) : Prop :=
  b.range.1.isFinite = true ∧ b.range.2.isFinite = true

instance (b : PhaseBand) : Decidable b.Finite := inferInstanceAs (Decidable (_ ∧ _))

def Parameter.FiniteBands (p : Parameter) : Prop := ∀ b ∈ p.phases, b.Finite

instance (p : Parameter) : Decidable p.FiniteBands :=
  inferInstanceAs (Decidable (∀ b ∈ p.phases, b.Finite))

def Card.FiniteBands (card : Card) : Prop := ∀ p ∈ card.parameters, p.FiniteBands

instance (card : Card) : Decidable card.FiniteBands :=
  inferInstanceAs (Decidable (∀ p ∈ card.parameters, p.FiniteBands))

/-- The parameter with null for every number of its default that is not finite, and without the
bounds that are not. -/
def Parameter.finiteOnly (p : Parameter) : Parameter :=
  { p with
    default := p.default.finiteOnly
    min := p.min.filter (·.isFinite)
    max := p.max.filter (·.isFinite) }

def Card.finiteOnly (card : Card) : Card :=
  { card with parameters := card.parameters.map Parameter.finiteOnly }

theorem finiteItems_eq_map (vs : List Value) : finiteItems vs = vs.map Value.finiteOnly := by
  induction vs with
  | nil => rfl
  | cons v vs ih => rw [finiteItems, ih, List.map_cons]

theorem finiteOnly_list {c : Codec α} {f : α → α} {l : List α}
    (h : ∀ a ∈ l, (c.dump a).finiteOnly = c.dump (f a)) :
    ((list c).dump l).finiteOnly = (list c).dump (l.map f) := by
  simp only [list, Value.finiteOnly, finiteItems_eq_map, List.map_map, Value.list.injEq]
  exact List.map_congr_left h

theorem finiteOnly_real (x : Option Double) :
    ((optional real).dump x).finiteOnly = (optional real).dump (x.filter (·.isFinite)) := by
  cases x with
  | none => rfl
  | some x => cases hx : x.isFinite <;> simp [Codec.optional, real, Value.float, Value.finiteOnly,
      Option.filter, hx]

theorem finiteOnly_phaseBand {b : PhaseBand} (h : b.Finite) :
    (PhaseBand.codec.dump b).finiteOnly = PhaseBand.codec.dump b := by
  simp [PhaseBand.codec, Record.codec, field, make, pair, real, text, Value.float,
    Value.finiteOnly, finiteFields, finiteItems, h.1, h.2]

theorem finiteOnly_arrayConfig (c : ArrayConfig) :
    (ArrayConfig.codec.dump c).finiteOnly = ArrayConfig.codec.dump c := by
  have hcount : ((optional count).dump c.maxLength).finiteOnly = (optional count).dump c.maxLength := by
    cases c.maxLength <;> rfl
  have hfields : ((optional (entries ItemType.codec)).dump c.itemFields).finiteOnly =
      (optional (entries ItemType.codec)).dump c.itemFields := by
    cases c.itemFields with
    | none => rfl
    | some es =>
      simp [Codec.optional, entries, ItemType.codec, choice, Value.finiteOnly, finiteFields_eq_mapValues,
        Entries.mapValues, Function.comp_def]
  simp [ArrayConfig.codec, Record.codec, field, make, Value.finiteOnly, finiteFields, hcount, hfields]
  simp [ItemType.codec, choice, Value.finiteOnly]

theorem finiteOnly_parameter {p : Parameter} (h : p.FiniteBands) :
    (Parameter.codec.dump p).finiteOnly = Parameter.codec.dump p.finiteOnly := by
  have htexts := Value.finiteOnly_eq _ (finite_texts p.enumValues)
  have hid := Value.finiteOnly_eq _ (finite_optionalText p.id)
  have hbands : ((list PhaseBand.codec).dump p.phases).finiteOnly =
      (list PhaseBand.codec).dump p.phases := by
    rw [finiteOnly_list (f := id) fun b hb => finiteOnly_phaseBand (h b hb), List.map_id]
  simp [Parameter.codec, Record.codec, field, make, Value.finiteOnly, finiteFields, htexts, hid,
    hbands, finiteOnly_real, finiteOnly_arrayConfig, Parameter.finiteOnly]
  simp [text, any, Scope.codec, ParameterType.codec, choice, Value.finiteOnly]

theorem finiteOnly_entity (e : Entity) :
    (Entity.codec.dump e).finiteOnly = Entity.codec.dump e := by
  have htexts := Value.finiteOnly_eq _ (finite_texts e.parameterNames)
  have hparent := Value.finiteOnly_eq _ (finite_optionalText e.parentLocation)
  simp [Entity.codec, Record.codec, field, make, Value.finiteOnly, finiteFields, htexts, hparent]
  simp [text, EntityType.codec, choice, Value.finiteOnly]

theorem finiteOnly_castConfig (c : CastConfig) :
    (CastConfig.codec.dump c).finiteOnly = CastConfig.codec.dump c := by
  simp [CastConfig.codec, CharacterLimits.codec, LocationLimits.codec, Record.codec, field, make,
    count, Value.int, Value.finiteOnly, finiteFields]

theorem finiteOnly_card {card : Card} (h : card.FiniteBands) :
    (Card.codec.dump card).finiteOnly = Card.codec.dump card.finiteOnly := by
  have hparameters := finiteOnly_list fun p hp => finiteOnly_parameter (h p hp)
  have hentities : ((list Entity.codec).dump card.entities).finiteOnly =
      (list Entity.codec).dump card.entities := by
    rw [finiteOnly_list (f := id) fun e _ => finiteOnly_entity e, List.map_id]
  simp [Card.codec, Record.codec, field, make, Value.finiteOnly, finiteFields, hparameters,
    hentities, finiteOnly_castConfig, Card.finiteOnly]

theorem Parameter.breach?_finiteOnly {p : Parameter} (h : p.breach? = none) :
    p.finiteOnly.breach? = none := by
  unfold Parameter.breach? at h ⊢
  split at h
  · cases h
  · rename_i henum
    refine (if_neg henum).trans ?_
    simp only [Parameter.finiteOnly]
    cases hmin : p.min.filter (·.isFinite) with
    | none => rfl
    | some low =>
      cases hmax : p.max.filter (·.isFinite) with
      | none => rfl
      | some high =>
        -- Both bounds are still there, so they were compared before.
        rw [(Option.filter_eq_some_iff.mp hmin).1, (Option.filter_eq_some_iff.mp hmax).1] at h
        exact h

theorem sharedKey?_finiteOnly (seen : List Text) (ps : List Parameter) :
    sharedKey? seen (ps.map Parameter.finiteOnly) = sharedKey? seen ps := by
  induction ps generalizing seen with
  | nil => rfl
  | cons p ps ih =>
    have hkeys : p.finiteOnly.keys = p.keys := rfl
    simp only [List.map_cons, sharedKey?, hkeys, ih]

theorem Card.Valid.finiteOnly {card : Card} (hv : card.Valid) : card.finiteOnly.Valid where
  whole := by
    have hwhole := hv.whole
    unfold Card.breach? at hwhole ⊢
    rw [← sharedKey?_finiteOnly] at hwhole
    exact hwhole
  parameters p hp := by
    obtain ⟨q, hq, rfl⟩ := List.mem_map.mp hp
    exact Parameter.breach?_finiteOnly (hv.parameters q hq)

theorem Parameter.finiteOnly_eq_iff {p : Parameter} : p.finiteOnly = p ↔ p.Finite := by
  have hbound (x : Option Double) :
      x.filter (·.isFinite) = x ↔ ∀ y, x = some y → y.isFinite = true := by
    cases x <;> simp [Option.filter]
  constructor
  · intro h
    have hdefault : p.default.finiteOnly = p.default := congrArg Parameter.default h
    have hmin : p.min.filter (·.isFinite) = p.min := congrArg Parameter.min h
    have hmax : p.max.filter (·.isFinite) = p.max := congrArg Parameter.max h
    exact ⟨Value.finiteOnly_eq_iff.mp hdefault, (hbound _).mp hmin, (hbound _).mp hmax⟩
  · intro h
    rw [Parameter.finiteOnly, Value.finiteOnly_eq_iff.mpr h.default, (hbound _).mpr h.min,
      (hbound _).mpr h.max]

theorem Card.finiteOnly_eq_iff {card : Card} : card.finiteOnly = card ↔ card.Finite := by
  have hmap (ps : List Parameter) : ps.map Parameter.finiteOnly = ps ↔ ∀ p ∈ ps, p.Finite := by
    have hid := List.map_inj_left (l := ps) (f := Parameter.finiteOnly) (g := id)
    simpa only [List.map_id, id, Parameter.finiteOnly_eq_iff] using hid
  rw [Card.Finite, ← hmap]
  exact ⟨congrArg Card.parameters, fun h => by rw [Card.finiteOnly, h]⟩

/-- A kept card with finite bands is read with all that is finite in it. -/
theorem load_kept_card {card : Card} (hv : card.Valid) (h : card.FiniteBands) :
    Card.codec.load (Card.codec.dump card).finiteOnly = .accepted card.finiteOnly := by
  rw [finiteOnly_card h]
  exact card_returns hv.finiteOnly

/-- The codec accepts the document. -/
def Codec.Reads (c : Codec α) (v : Value) : Prop := ∃ a, c.load v = .accepted a

theorem Codec.Reads.of_list {c : Codec α} {items : List Value} (h : (list c).Reads (.list items)) :
    ∀ v ∈ items, c.Reads v := by
  obtain ⟨l, hl⟩ := h
  have hitems := Checked.all_eq_accepted hl
  intro v hv
  obtain ⟨i, hi, rfl⟩ := List.mem_iff_getElem.mp hv
  have hmem : ((c.load items[i]).under (toString i)) ∈ l.map Checked.accepted := by
    rw [← hitems]
    exact List.mem_mapIdx.mpr ⟨i, hi, rfl⟩
  obtain ⟨a, _, ha⟩ := List.mem_map.mp hmem
  exact ⟨a, Checked.under_eq_accepted ha.symm⟩

theorem Codec.Reads.of_pair {c : Codec α} {v w : Value} (h : (pair c).Reads (.list [v, w])) :
    c.Reads v ∧ c.Reads w := by
  obtain ⟨p, hp⟩ := h
  obtain ⟨f, b, hf, hb, -⟩ := Checked.ap_eq_accepted hp
  obtain ⟨a, ha, -⟩ := Checked.map_eq_accepted hf
  exact ⟨⟨a, Checked.under_eq_accepted ha⟩, ⟨b, Checked.under_eq_accepted hb⟩⟩

namespace Record

theorem reads_of_field {r : Record σ (α → β)} {key : Key} {c : Codec α} {default : Option α}
    {get : σ → α} {fields : Entries Text Value} {b : β}
    (h : (r.field key c default get).load fields = .accepted b) :
    (∃ f, r.load fields = .accepted f) ∧
      ∀ spelling v, key.find? fields = some (spelling, v) → c.Reads v := by
  obtain ⟨f, a, hf, ha, -⟩ := Checked.ap_eq_accepted h
  refine ⟨⟨f, hf⟩, fun spelling v hv => ⟨a, ?_⟩⟩
  rw [hv] at ha
  exact Checked.under_eq_accepted ha

theorem reads_of_codec {r : Record σ σ} {check : σ → Checked σ} {fields : Entries Text Value}
    (h : (r.codec check).Reads (.object fields)) : ∃ s, r.load fields = .accepted s := by
  obtain ⟨s, hs⟩ := h
  obtain ⟨t, ht, -⟩ := Checked.andThen_eq_accepted hs
  exact ⟨t, ht⟩

end Record

theorem isFinite_of_reads {x : Double} (h : real.Reads (Value.float x).finiteOnly) :
    x.isFinite = true := by
  obtain ⟨y, hy⟩ := h
  cases hx : x.isFinite with
  | true => rfl
  | false => simp [Value.float, Value.finiteOnly, hx, real, Checked.fail] at hy

theorem PhaseBand.finite_of_reads {b : PhaseBand}
    (h : PhaseBand.codec.Reads (PhaseBand.codec.dump b).finiteOnly) : b.Finite := by
  obtain ⟨_, hfields⟩ := reads_of_codec h
  have hrange := (reads_of_field hfields).2 "range" ((pair real).dump b.range).finiteOnly rfl
  obtain ⟨hlow, hhigh⟩ := hrange.of_pair
  exact ⟨isFinite_of_reads hlow, isFinite_of_reads hhigh⟩

theorem Codec.Reads.of_finiteOnly {c : Codec α} {l : List α}
    (h : (list c).Reads ((list c).dump l).finiteOnly) : ∀ a ∈ l, c.Reads (c.dump a).finiteOnly := by
  intro a ha
  refine h.of_list _ ?_
  rw [finiteItems_eq_map]
  exact List.mem_map_of_mem (List.mem_map_of_mem ha)

theorem Parameter.finiteBands_of_reads {p : Parameter}
    (h : Parameter.codec.Reads (Parameter.codec.dump p).finiteOnly) : p.FiniteBands := by
  -- The fields are read from the last one back to the bands.
  obtain ⟨_, hmax⟩ := reads_of_codec h
  obtain ⟨_, hmin⟩ := (reads_of_field hmax).1
  obtain ⟨_, harray⟩ := (reads_of_field hmin).1
  obtain ⟨_, henum⟩ := (reads_of_field harray).1
  obtain ⟨_, hphases⟩ := (reads_of_field henum).1
  have hbands := (reads_of_field hphases).2 "phases"
    ((list PhaseBand.codec).dump p.phases).finiteOnly rfl
  exact fun b hb => PhaseBand.finite_of_reads (hbands.of_finiteOnly b hb)

theorem Card.finiteBands_of_reads {card : Card}
    (h : Card.codec.Reads (Card.codec.dump card).finiteOnly) : card.FiniteBands := by
  obtain ⟨_, hcast⟩ := reads_of_codec h
  obtain ⟨_, hentities⟩ := (reads_of_field hcast).1
  obtain ⟨_, hparameters⟩ := (reads_of_field hentities).1
  have hread := (reads_of_field hparameters).2 "parameters"
    ((list Parameter.codec).dump card.parameters).finiteOnly rfl
  exact fun p hp => Parameter.finiteBands_of_reads (hread.of_finiteOnly p hp)

namespace Files

variable {f : Files} {name : Text} {slug : String} {card : Card}

theorem run_card? {v : Value} (h : f.cards.get? slug = some v) :
    (card? slug).run f = match Card.codec.load v with
      | .accepted card => .ok (some card) f
      | .refused problems => .error (.invalid problems) f := by
  cases hv : Card.codec.load v <;> simp [card?, h, hv]

/-- What was created under a slug is read from the document that was kept of it. -/
theorem run_card?_created (hplain : card.isPlain = true)
    (hfree : f.cards.get? (Storyworld.slug name) = none) :
    ∃ g, (create name card).run f = .ok (Storyworld.slug name) g ∧
      (card? (Storyworld.slug name)).run g =
        match Card.codec.load (Card.codec.dump card).finiteOnly with
        | .accepted c => .ok (some c) g
        | .refused problems => .error (.invalid problems) g := by
  refine ⟨_, run_create hfree hplain, run_card? ?_⟩
  rw [cards_makeFolder]
  exact Entries.get?_put_self _ _ _

/-- A stored card is read back as it is exactly if all its numbers are finite; with finite bands it is
read back without what is not finite elsewhere, and with a band that is not finite it is refused. -/
structure Stores (f : Files) (name : Text) (card : Card) (g : Files) : Prop where
  stored : (create name card).run f = .ok (Storyworld.slug name) g
  same_iff : (card? (Storyworld.slug name)).run g = .ok (some card) g ↔
    card.Finite ∧ card.FiniteBands
  read : card.FiniteBands → (card? (Storyworld.slug name)).run g = .ok (some card.finiteOnly) g
  refused : ¬ card.FiniteBands → ∃ problems,
    (card? (Storyworld.slug name)).run g = .error (.invalid problems) g

theorem stores_of_plain (hv : card.Valid) (hplain : card.isPlain = true)
    (hfree : f.cards.get? (Storyworld.slug name) = none) :
    ∃ g, f.Stores name card g := by
  obtain ⟨g, hcreate, hread⟩ := run_card?_created hplain hfree
  have hfinite : card.FiniteBands →
      (card? (Storyworld.slug name)).run g = .ok (some card.finiteOnly) g := fun hbands => by
    rw [hread, load_kept_card hv hbands]
  have hinfinite : ¬ card.FiniteBands → ∃ problems,
      (card? (Storyworld.slug name)).run g = .error (.invalid problems) g := fun hbands => by
    cases hload : Card.codec.load (Card.codec.dump card).finiteOnly with
    | accepted c => exact absurd (Card.finiteBands_of_reads ⟨c, hload⟩) hbands
    | refused problems => exact ⟨problems, by rw [hread, hload]⟩
  refine ⟨g, hcreate, ⟨fun hsame => ?_, fun ⟨hcard, hbands⟩ => ?_⟩, hfinite, hinfinite⟩
  · have hbands : card.FiniteBands := Decidable.byContradiction fun hbands => by
      obtain ⟨problems, herror⟩ := hinfinite hbands
      cases herror.symm.trans hsame
    have heq := (hfinite hbands).symm.trans hsame
    simp only [EStateM.Result.ok.injEq, Option.some.injEq, and_true] at heq
    exact ⟨Card.finiteOnly_eq_iff.mp heq, hbands⟩
  · rw [hfinite hbands, Card.finiteOnly_eq_iff.mpr hcard]

/-- A card is stored under any free slug and read back, but for numbers that are not finite, if no half
is in it. Else it is refused, and nothing is stored. -/
theorem create_reads_back_iff (hv : card.Valid) (hfree : f.cards.get? (Storyworld.slug name) = none) :
    (card.isPlain = true → ∃ g, f.Stores name card g) ∧
      (card.isPlain = false → (create name card).run f = .error .unserializable f) :=
  ⟨fun hplain => stores_of_plain hv hplain hfree,
    fun hhalf => by simp [create, hfree, hhalf]⟩

end Files

namespace Demo

theorem card_finiteBands : Demo.card.FiniteBands := by decide +kernel

theorem card_reads_back : Demo.card.Valid ∧
    Entries.get? "library-after-hours" Files.empty.cards = none ∧ Demo.card.isPlain = true ∧
    ∃ g, (Files.create name Demo.card).run .empty = .ok "library-after-hours" g ∧
      (Files.card? "library-after-hours").run g = .ok (some Demo.card) g := by
  have hfree : Files.empty.cards.get? (slug name) = none := rfl
  have hplain : Demo.card.isPlain = true := by decide +kernel
  obtain ⟨g, hstores⟩ := (Files.create_reads_back_iff card_valid hfree).1 hplain
  exact ⟨card_valid, rfl, hplain, g, hstores.stored,
    hstores.same_iff.mpr ⟨card_finite, card_finiteBands⟩⟩

/-- A card whose last band has no upper end. -/
def openEnded : Card := ⟨[{ parameter "favor" .global .number .null with
  phases := [⟨"wary", .ofInt 0, .ofInt 70⟩, ⟨"devoted", .ofInt 71, .infinite false⟩] }], [], .standard⟩

theorem openEnded_unreadable : openEnded.Valid ∧ ∃ g,
    (Files.create "Levels" openEnded).run .empty = .ok "levels" g ∧
      ∀ result, (Files.card? "levels").run g ≠ .ok result g := by
  have hvalid : openEnded.Valid := ⟨by decide +kernel, by decide +kernel⟩
  have hfree : Files.empty.cards.get? (slug "Levels") = none := rfl
  have hplain : openEnded.isPlain = true := by decide +kernel
  obtain ⟨g, hcreate, hread⟩ := Files.run_card?_created hplain hfree
  refine ⟨hvalid, g, hcreate, fun result hresult => ?_⟩
  have hrefused : ¬ openEnded.FiniteBands := by decide +kernel
  have hload := hread.symm.trans hresult
  split at hload
  · rename_i c hc
    exact hrefused (Card.finiteBands_of_reads ⟨c, hc⟩)
  · cases hload

end Demo

end Storyworld
