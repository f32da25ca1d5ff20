import Storyworld.Proofs.LocationPaths
import Storyworld.Proofs.StoredCard

/-! Well-formed cards. A card is accepted exactly if no key and no name is shared and the parents of
every entity lead up to a root. The check of the parents ends on every card, also where they run in a
circle. The walk that names the locations above another keeps no account of where it has been, and
ends on the cards that are accepted. -/

namespace Storyworld

variable {entities : List Entity} {start : Text} {seen names : List Text}
  {parent : Option Text} {outcome : Except Breach (List Text)}

/-- What the check of the parents above an entity comes to, from a parent on and with some names
passed already. There is no bound on the levels. -/
inductive Climbs (entities : List Entity) (start : Text) :
    List Text → Option Text → Except Breach (List Text) → Prop
  | root {seen : List Text} {parent : Option Text} (h : parent.getD "" = "") :
      Climbs entities start seen parent (.ok [])
  | undeclared {seen : List Text} {parent : Text} (hname : parent ≠ "")
      (hfind : entities.find? (·.name == parent) = none) :
      Climbs entities start seen (some parent) (.error (.unknownParent start parent))
  | misplaced {seen : List Text} {parent : Text} {owner : Entity} (hname : parent ≠ "")
      (hfind : entities.find? (·.name == parent) = some owner) (htype : owner.type ≠ .location) :
      Climbs entities start seen (some parent) (.error (.unknownParent start parent))
  | circle {seen : List Text} {parent : Text} {owner : Entity} (hname : parent ≠ "")
      (hfind : entities.find? (·.name == parent) = some owner) (htype : owner.type = .location)
      (hseen : parent ∈ seen) : Climbs entities start seen (some parent) (.error (.cycle parent))
  | onward {seen : List Text} {parent : Text} {owner : Entity}
      {outcome : Except Breach (List Text)} (hname : parent ≠ "")
      (hfind : entities.find? (·.name == parent) = some owner) (htype : owner.type = .location)
      (hseen : parent ∉ seen)
      (h : Climbs entities start (parent :: seen) owner.parentLocation outcome) :
      Climbs entities start seen (some parent) (outcome.map (parent :: ·))

/-- The entities that are not passed yet. -/
def unseen (entities : List Entity) (seen : List Text) : List Entity :=
  entities.filter fun e => !seen.contains e.name

theorem length_unseen_cons {owner : Entity} (hmem : owner ∈ entities) (hseen : owner.name ∉ seen) :
    (unseen entities (owner.name :: seen)).length < (unseen entities seen).length := by
  have hfilter : unseen entities (owner.name :: seen) =
      (unseen entities seen).filter (·.name ≠ owner.name) := by
    simp [unseen, List.filter_filter]
  rw [hfilter, List.length_filter_lt_length_iff_exists]
  exact ⟨owner, List.mem_filter.mpr ⟨hmem, by simpa using hseen⟩, by simp⟩

theorem mem_of_find?_name {name : Text} {owner : Entity}
    (h : entities.find? (·.name == name) = some owner) : owner ∈ entities ∧ owner.name = name :=
  ⟨List.mem_of_find?_eq_some h, by simpa using List.find?_some h⟩

/-- The check comes to an end wherever it begins: each level that leads on passes an entity that
was not passed before. -/
theorem exists_climbs (entities : List Entity) (start : Text) (seen : List Text)
    (parent : Option Text) : ∃ outcome, Climbs entities start seen parent outcome := by
  generalize hcount : (unseen entities seen).length = count
  induction count using Nat.strong_induction_on generalizing seen parent with
  | _ count ih =>
    by_cases hroot : parent.getD "" = ""
    · exact ⟨_, .root hroot⟩
    obtain ⟨name, rfl⟩ : ∃ name, parent = some name := by
      cases parent with
      | none => exact absurd rfl hroot
      | some name => exact ⟨name, rfl⟩
    cases hfind : entities.find? (·.name == name) with
    | none => exact ⟨_, .undeclared hroot hfind⟩
    | some owner =>
      by_cases htype : owner.type = .location
      · by_cases hseen : name ∈ seen
        · exact ⟨_, .circle hroot hfind htype hseen⟩
        · obtain ⟨hmem, rfl⟩ := mem_of_find?_name hfind
          have hless := length_unseen_cons hmem hseen
          obtain ⟨outcome, h⟩ := ih _ (hcount ▸ hless) (owner.name :: seen) owner.parentLocation rfl
          exact ⟨_, .onward hroot hfind htype hseen h⟩
      · exact ⟨_, .misplaced hroot hfind htype⟩

/-- As many levels as there are entities left to pass are enough for the check. -/
theorem Climbs.climb_eq (h : Climbs entities start seen parent outcome) {levels : Nat}
    (hlevels : (unseen entities seen).length ≤ levels) :
    climb entities start levels seen parent = outcome := by
  induction h generalizing levels with
  | @root seen parent hroot =>
    cases parent with
    | none => rw [climb]
    | some name =>
      rw [climb]
      exact if_pos hroot
  | undeclared hname hfind => rw [climb, if_neg hname, hfind]
  | misplaced hname hfind htype => simp [climb, hname, hfind, htype]
  | circle hname hfind htype hseen => simp [climb, hname, hfind, htype, hseen]
  | @onward seen parent owner outcome hname hfind htype hseen _ ih =>
    obtain ⟨hmem, rfl⟩ := mem_of_find?_name hfind
    have hless := length_unseen_cons hmem hseen
    obtain ⟨rest, rfl⟩ : ∃ rest, levels = rest + 1 := ⟨levels - 1, by omega⟩
    have hrest : climb entities start rest (owner.name :: seen) owner.parentLocation = outcome :=
      ih (by omega)
    simp only [climb, if_neg hname, hfind, htype, ne_eq, not_true_eq_false, if_false,
      List.contains_eq_mem, hseen, decide_false, Bool.false_eq_true, hrest]
    cases outcome <;> rfl

theorem climbs_iff {levels : Nat} (hlevels : (unseen entities seen).length ≤ levels) :
    Climbs entities start seen parent outcome ↔
      climb entities start levels seen parent = outcome := by
  constructor
  · exact fun h => h.climb_eq hlevels
  · rintro rfl
    obtain ⟨outcome, h⟩ := exists_climbs entities start seen parent
    rwa [h.climb_eq hlevels]

theorem find?_name_eq_some (hnames : entities.Pairwise fun e f => e.name ≠ f.name) {owner : Entity}
    (hmem : owner ∈ entities) : entities.find? (·.name == owner.name) = some owner := by
  have hsymm : Std.Symm fun e f : Entity => e.name ≠ f.name := ⟨fun e f h => h.symm⟩
  cases hfind : entities.find? (·.name == owner.name) with
  | none => simpa using List.find?_eq_none.mp hfind owner hmem
  | some found =>
    obtain ⟨hfound, hname⟩ := mem_of_find?_name hfind
    exact congrArg some (Classical.not_not.mp fun hne => hnames.forall hfound hmem hne hname)

namespace Card

variable {card : Card} {e : Entity} {above : List Entity}

/-- The locations above an entity, nearest first. Each is declared under the name that the one below
has for its parent, and the last has no parent. -/
inductive Ascent (card : Card) : Entity → List Entity → Prop
  | root {e : Entity} (h : e.parentLocation.getD "" = "") : Ascent card e []
  | up {e owner : Entity} {above : List Entity} (hmem : owner ∈ card.entities)
      (htype : owner.type = .location) (hparent : e.parentLocation = some owner.name)
      (hname : owner.name ≠ "") (howner : Ascent card owner above) : Ascent card e (owner :: above)

/-- No two parameters have a key in common, no two entities a name, and every entity has an ascent to
a root on which no name comes twice. -/
structure WellFormed (card : Card) : Prop where
  keys : card.parameters.Pairwise fun p q => ∀ k ∈ p.keys, k ∉ q.keys
  names : card.entities.Pairwise fun e f => e.name ≠ f.name
  ascents : ∀ e ∈ card.entities, ∃ above, card.Ascent e above ∧ ((e :: above).map (·.name)).Nodup

/-- The walk that joins a full path: it looks up one parent after the other, and that is all. It
stops where there is no parent, and cannot go on from a name that is not declared. -/
inductive WalksUp (card : Card) : Option Text → List Text → Prop
  | stop {parent : Option Text} (h : parent.getD "" = "") : WalksUp card parent []
  | onward {name : Text} {owner : Entity} {names : List Text} (hname : name ≠ "")
      (hfind : card.entities.find? (·.name == name) = some owner)
      (h : WalksUp card owner.parentLocation names) : WalksUp card (some name) (name :: names)

theorem ascent_of_climb {levels : Nat}
    (h : climb card.entities start levels seen e.parentLocation = .ok names) :
    ∃ above, card.Ascent e above ∧ above.map (·.name) = names ∧ names.Nodup ∧
      ∀ name ∈ names, name ∉ seen := by
  induction levels generalizing e seen names with
  | zero =>
    obtain ⟨rfl, hroot⟩ | ⟨_, _, _, _, _, _, _, _, hlevels, _⟩ := climb_eq_ok h
    · exact ⟨[], .root hroot, rfl, List.nodup_nil, by simp⟩
    · cases hlevels
  | succ levels ih =>
    obtain ⟨rfl, hroot⟩ | ⟨owner, rest, names, hmem, htype, hparent, hname, hseen, hlevels, rfl,
      hrest⟩ := climb_eq_ok h
    · exact ⟨[], .root hroot, rfl, List.nodup_nil, by simp⟩
    · obtain rfl := Nat.succ.inj hlevels
      obtain ⟨above, habove, rfl, hnodup, hpassed⟩ := ih hrest
      have hfresh : ∀ name ∈ above.map (·.name), name ≠ owner.name ∧ name ∉ seen :=
        fun name hmem => by simpa using hpassed name hmem
      refine ⟨owner :: above, .up hmem htype hparent hname habove, rfl, ?_, ?_⟩
      · exact List.nodup_cons.mpr ⟨fun hself => (hfresh _ hself).1 rfl, hnodup⟩
      · exact List.forall_mem_cons.mpr ⟨hseen, fun name hmem => (hfresh name hmem).2⟩

theorem Ascent.climbs (h : card.Ascent e above)
    (hnames : card.entities.Pairwise fun e f => e.name ≠ f.name)
    (hnodup : (above.map (·.name)).Nodup) (hseen : ∀ owner ∈ above, owner.name ∉ seen) :
    Climbs card.entities start seen e.parentLocation (.ok (above.map (·.name))) := by
  induction h generalizing seen with
  | root hroot => exact .root hroot
  | @up e owner above hmem htype hparent hname _ ih =>
    obtain ⟨hself, hnodup⟩ := List.nodup_cons.mp hnodup
    obtain ⟨howner, hrest⟩ := List.forall_mem_cons.mp hseen
    have hpassed : ∀ other ∈ above, other.name ∉ owner.name :: seen := by
      intro other hother hmem
      rcases List.mem_cons.mp hmem with hname | hmem
      · exact hself (List.mem_map.mpr ⟨other, hother, hname⟩)
      · exact hrest other hother hmem
    rw [hparent]
    exact .onward hname (find?_name_eq_some hnames hmem) htype howner (ih hnodup hpassed)

theorem lineage_eq_ok_iff : card.lineage e = .ok names ↔ ∃ above, names = e.name :: above ∧
    climb card.entities e.name card.entities.length [e.name] e.parentLocation = .ok above := by
  rw [lineage]
  cases climb card.entities e.name card.entities.length [e.name] e.parentLocation <;>
    simp [eq_comm]

/-- Every entity has its place in the count of levels that the check of a card starts with. -/
theorem length_unseen_le (entities : List Entity) (seen : List Text) :
    (unseen entities seen).length ≤ entities.length := List.length_filter_le _ _

theorem exists_lineage_iff (hnames : card.entities.Pairwise fun e f => e.name ≠ f.name) :
    (∃ names, card.lineage e = .ok names) ↔
      ∃ above, card.Ascent e above ∧ ((e :: above).map (·.name)).Nodup := by
  simp only [lineage_eq_ok_iff, List.map_cons, List.nodup_cons]
  constructor
  · rintro ⟨_, names, -, h⟩
    obtain ⟨above, habove, rfl, hnodup, hseen⟩ := ascent_of_climb h
    exact ⟨above, habove, fun hself => hseen _ hself (List.mem_singleton_self _), hnodup⟩
  · rintro ⟨above, habove, hself, hnodup⟩
    have hseen : ∀ owner ∈ above, owner.name ∉ [e.name] := by
      intro owner hmem hname
      exact hself (List.mem_singleton.mp hname ▸ List.mem_map_of_mem hmem)
    exact ⟨_, above.map (·.name), rfl,
      (habove.climbs hnames hnodup hseen).climb_eq (length_unseen_le _ _)⟩

theorem breach?_eq_none_iff_wellFormed : card.breach? = none ↔ card.WellFormed := by
  rw [breach?_eq_none_iff]
  constructor
  · rintro ⟨hkeys, hnames, hlineages⟩
    exact ⟨hkeys, hnames, fun e he => (exists_lineage_iff hnames).mp (hlineages e he)⟩
  · rintro ⟨hkeys, hnames, hascents⟩
    exact ⟨hkeys, hnames, fun e he => (exists_lineage_iff hnames).mpr (hascents e he)⟩

theorem Ascent.walksUp (h : card.Ascent e above)
    (hnames : card.entities.Pairwise fun e f => e.name ≠ f.name) :
    card.WalksUp e.parentLocation (above.map (·.name)) := by
  induction h with
  | root hroot => exact .stop hroot
  | up hmem _ hparent hname _ ih =>
    rw [hparent]
    exact .onward hname (find?_name_eq_some hnames hmem) ih

theorem WalksUp.unique {names' : List Text} (h : card.WalksUp parent names)
    (h' : card.WalksUp parent names') : names = names' := by
  induction h generalizing names' with
  | stop hroot =>
    cases h' with
    | stop _ => rfl
    | onward hname _ _ => exact absurd hroot hname
  | onward hname hfind _ ih =>
    cases h' with
    | stop hroot => exact absurd hroot hname
    | onward _ hfind' hrest =>
      obtain rfl := Option.some.inj (hfind.symm.trans hfind')
      rw [ih hrest]

/-- On a well-formed card the full path of a location is made of the names that the walk finds. -/
theorem WellFormed.locationPath? (h : card.WellFormed) (he : e ∈ card.locations) :
    ∃ above, card.Ascent e above ∧
      (∀ names, card.WalksUp e.parentLocation names ↔ names = above.map (·.name)) ∧
      card.locationPath? e.name =
        some (Text.intercalate "." ((e :: above).reverse.map (·.name))) := by
  obtain ⟨hmem, htype⟩ := mem_locations.mp he
  obtain ⟨names, hlineage⟩ := (exists_lineage_iff h.names).mpr (h.ascents e hmem)
  obtain ⟨_, rfl, hclimb⟩ := lineage_eq_ok_iff.mp hlineage
  obtain ⟨above, habove, rfl, -⟩ := ascent_of_climb hclimb
  have hwalk := habove.walksUp h.names
  refine ⟨above, habove, fun names => ⟨fun hnames => hnames.unique hwalk, fun hn => hn ▸ hwalk⟩, ?_⟩
  have hfind : card.locations.find? (·.name == e.name) = some e :=
    find?_name_eq_some (h.names.sublist List.filter_sublist) he
  rw [Card.locationPath?, hfind, Option.map_some, pathOf, hlineage]
  simp only [← List.map_cons, List.map_reverse]

/-- The fields of a card, each in order by itself. -/
def parts : Record Card Card :=
  (Record.make Card.mk)
    |>.field (.plain "parameters") (.list Parameter.codec) (some []) (·.parameters)
    |>.field (.plain "entities") (.list Entity.codec) (some []) (·.entities)
    |>.field ⟨"castConfig", "cast_config"⟩ CastConfig.codec (some .standard) (·.castConfig)

theorem codec_eq_parts : Card.codec = parts.codec (unlessBroken Card.breach?) := rfl

theorem load_eq_accepted_iff {fields : Entries Text Value} (h : parts.load fields = .accepted card)
    (other : Card) : Card.codec.load (.object fields) = .accepted other ↔
      other = card ∧ card.WellFormed := by
  rw [← breach?_eq_none_iff_wellFormed]
  simp only [codec_eq_parts, Record.codec, h, Checked.andThen, unlessBroken]
  cases card.breach? <;> simp [Checked.fail, eq_comm]

theorem parts_of_load {fields : Entries Text Value}
    (h : Card.codec.load (.object fields) = .accepted card) : parts.load fields = .accepted card := by
  rw [codec_eq_parts] at h
  obtain ⟨other, hparts, hcheck⟩ := Checked.andThen_eq_accepted h
  simp only [unlessBroken] at hcheck
  split at hcheck
  · cases hcheck
  · rwa [Checked.accepted.inj hcheck] at hparts

/-- A document whose parts are in order by themselves is accepted exactly if it makes a well-formed
card. The check of the parents has one outcome on every card, which is the one that is computed; and
on a card that is accepted the walk up from each location ends without a name that is not declared,
and its full path has those names from the root down. -/
theorem accepted_iff_wellFormed {fields : Entries Text Value}
    (hparts : parts.load fields = .accepted card) :
    ((∃ other, Card.codec.load (.object fields) = .accepted other) ↔ card.WellFormed) ∧
    (∀ e ∈ card.entities,
      (∃! outcome, Climbs card.entities e.name [e.name] e.parentLocation outcome) ∧
      Climbs card.entities e.name [e.name] e.parentLocation
        (climb card.entities e.name card.entities.length [e.name] e.parentLocation)) ∧
    ∀ other, Card.codec.load (.object fields) = .accepted other → other = card ∧
      ∀ e ∈ card.locations, ∃ above, card.Ascent e above ∧
        (∀ names, card.WalksUp e.parentLocation names ↔ names = above.map (·.name)) ∧
        card.locationPath? e.name =
          some (Text.intercalate "." ((e :: above).reverse.map (·.name))) := by
  refine ⟨?_, fun e _ => ?_, fun other hother => ?_⟩
  · simp only [load_eq_accepted_iff hparts, exists_eq_left]
  · have hclimbs (outcome : Except Breach (List Text)) :
        Climbs card.entities e.name [e.name] e.parentLocation outcome ↔
          climb card.entities e.name card.entities.length [e.name] e.parentLocation = outcome :=
      climbs_iff (length_unseen_le card.entities [e.name])
    exact ⟨⟨_, (hclimbs _).mpr rfl, fun outcome h => ((hclimbs outcome).mp h).symm⟩,
      (hclimbs _).mpr rfl⟩
  · obtain ⟨rfl, hwell⟩ := (load_eq_accepted_iff hparts other).mp hother
    exact ⟨rfl, fun e he => hwell.locationPath? he⟩

end Card

theorem Demo.card_accepted : ∃ fields, Card.parts.load fields = .accepted Demo.card ∧
    (∃ other, Card.codec.load (.object fields) = .accepted other) ∧ Demo.card.WellFormed ∧
    ∃ e ∈ Demo.card.locations, e.name = "Library" ∧ ∃ above, Demo.card.Ascent e above ∧
      Demo.card.WalksUp (some "Campus") (above.map (·.name)) ∧
      Demo.card.locationPath? "Library" =
        some (Text.intercalate "." ((e :: above).reverse.map (·.name))) := by
  have hload : Card.codec.load (.object (Card.parts.dump Demo.card)) = .accepted Demo.card :=
    card_returns Demo.card_valid
  have hparts := Card.parts_of_load hload
  obtain ⟨haccepted, -, hpaths⟩ := Card.accepted_iff_wellFormed hparts
  have hlibrary : (⟨"Library", .location, [], some "Campus"⟩ : Entity) ∈ Demo.card.locations :=
    Card.mem_locations.mpr ⟨by simp [Demo.card], rfl⟩
  obtain ⟨above, habove, hwalk, hpath⟩ := (hpaths _ hload).2 _ hlibrary
  exact ⟨_, hparts, ⟨_, hload⟩, haccepted.mp ⟨_, hload⟩, _, hlibrary, rfl, above, habove,
    (hwalk _).mpr rfl, hpath⟩

-- Parents that run in a circle are found out, however often they lead around it.
example : Card.breach? ⟨[], [⟨"Tower", .location, [], some "Stairs"⟩,
    ⟨"Stairs", .location, [], some "Tower"⟩], .standard⟩ = some (.cycle "Tower") := by decide

end Storyworld
