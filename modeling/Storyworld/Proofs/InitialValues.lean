import Storyworld.Proofs.Independence

/-! The state before any history. A card gives it exactly the defaults that are declared, and gives
it unless some of them would belong to an entity without a name. -/

namespace Storyworld

variable {card : Card} {p : Parameter} {s : State} {v w : Variables} {a : Address} {value : Value}

/-- Where a parameter has its default from the start. -/
inductive Card.StartsAt (card : Card) (p : Parameter) : Address → Prop
  | global (hscope : p.scope = .global) : StartsAt card p (.global p.name)
  | scene (hscope : p.scope = .scene) : StartsAt card p (.scene p.name)
  | character {e : Entity} (hscope : p.scope = .character) (he : e ∈ card.entities)
      (hbound : p.name ∈ e.parameterNames) : StartsAt card p (.character e.name p.name)

/-- The value is the default, other than null, of a parameter that starts at the address. -/
def Card.InitialValue (card : Card) (a : Address) (value : Value) : Prop :=
  ∃ p ∈ card.parameters, p.default = value ∧ value ≠ .null ∧ card.StartsAt p a

/-- A state with the initial values in its buckets and with nothing else anywhere. -/
structure State.Fresh (card : Card) (s : State) : Prop where
  values : ∀ a value, s.values.value? a = some value ↔ card.InitialValue a value
  buckets : Entries.keys s.values = Scope.all.map Scope.name
  subjects : ∀ subject ∈ Entries.keys (s.values.bucket .character),
    ∃ parameter value, card.InitialValue (.character subject parameter) value
  relationships : s.values.bucket .relationship = []
  cast : s.cast = .empty
  locationCast : s.locationCast = .empty
  scene : s.scene = .empty
  entitiesRuntime : s.entitiesRuntime = []

/-- Addresses of characters need a name to be addresses. -/
def Address.named : Address → Except AddressError Address
  | .character subject parameter =>
    if subject = "" then .error (.noSubject .character) else .ok (.character subject parameter)
  | a => .ok a

theorem Address.named_eq_ok {b : Address} (h : a.named = .ok b) : a = b := by
  cases a with
  | character subject parameter =>
    rw [named] at h
    split at h
    · cases h
    · exact Except.ok.inj h
  | _ => exact Except.ok.inj h

theorem Address.named_eq_error_iff {e : AddressError} : a.named = .error e ↔
    e = .noSubject .character ∧ ∃ parameter, a = .character "" parameter := by
  cases a with
  | character subject parameter =>
    rw [named]
    by_cases hs : subject = "" <;> simp [hs, eq_comm]
  | _ => simp [named]

theorem Address.resolve_character (subject parameter : Text) :
    resolve .character parameter (some subject) none = named (.character subject parameter) := by
  by_cases hs : subject = ""
  · subst hs
    rfl
  · have hgiven : given? (some subject) = some subject := by simp [given?, hs]
    rw [resolve, hgiven, named, if_neg hs]

namespace Card

theorem mem_initialAddresses {x : Except AddressError Address} :
    x ∈ card.initialAddresses p ↔ ∃ a, card.StartsAt p a ∧ x = a.named := by
  constructor
  · intro hx
    simp only [initialAddresses] at hx
    split at hx
    · rename_i hscope
      rw [hscope, List.mem_singleton] at hx
      exact ⟨_, .global hscope, hx⟩
    · rename_i hscope
      rw [hscope, List.mem_singleton] at hx
      exact ⟨_, .scene hscope, hx⟩
    · rename_i hscope
      obtain ⟨e, he, rfl⟩ := List.mem_map.mp hx
      obtain ⟨hmem, hbound⟩ := List.mem_filter.mp he
      exact ⟨_, .character hscope hmem (by simpa using hbound), Address.resolve_character _ _⟩
    · cases hx
  · rintro ⟨a, hstart, rfl⟩
    cases hstart with
    | global hscope => simp [initialAddresses, hscope, Address.resolve, Address.named]
    | scene hscope => simp [initialAddresses, hscope, Address.resolve, Address.named]
    | character hscope he hbound =>
      simp only [initialAddresses, hscope]
      rw [← Address.resolve_character]
      exact List.mem_map_of_mem (List.mem_filter.mpr ⟨he, by simpa using hbound⟩)

/-- All that is written into the empty buckets for the initial state, in order. -/
def initialWrites (card : Card) : List (Except AddressError Address × Value) :=
  (card.parameters.filter hasDefault).flatMap fun p =>
    (card.initialAddresses p).map fun x => (x, p.default)

def writeInitial (v : Variables) (x : Except AddressError Address × Value) :
    Except Fault Variables :=
  v.writeTo x.1 x.2

theorem hasDefault_iff : hasDefault p = true ↔ p.default ≠ .null := by
  rw [hasDefault]
  cases p.default <;> simp

theorem mem_initialWrites {x : Except AddressError Address} :
    (x, value) ∈ card.initialWrites ↔ ∃ a, card.InitialValue a value ∧ x = a.named := by
  simp only [initialWrites, List.mem_flatMap, List.mem_filter, hasDefault_iff, List.mem_map,
    Prod.mk.injEq, mem_initialAddresses, InitialValue]
  constructor
  · rintro ⟨p, ⟨hp, hdefault⟩, _, ⟨a, hstart, rfl⟩, rfl, rfl⟩
    exact ⟨a, ⟨p, hp, rfl, hdefault, hstart⟩, rfl⟩
  · rintro ⟨a, ⟨p, hp, rfl, hdefault, hstart⟩, rfl⟩
    exact ⟨p, ⟨hp, hdefault⟩, _, ⟨a, hstart, rfl⟩, rfl, rfl⟩

theorem initialState_eq (card : Card) : card.initialState =
    (card.initialWrites.foldlM writeInitial Variables.empty).map
      fun values => { State.empty with values := values } := by
  have hruns : ∀ (ps : List Parameter) (v : Variables),
      ps.foldlM (fun v p => (card.initialAddresses p).foldlM (fun v a => v.writeTo a p.default) v) v =
      (ps.flatMap fun p => (card.initialAddresses p).map fun x => (x, p.default)).foldlM
        writeInitial v := by
    intro ps
    induction ps with
    | nil => exact fun v => rfl
    | cons p ps ih =>
      intro v
      simp only [List.foldlM_cons, List.flatMap_cons, List.foldlM_append, List.foldlM_map, writeInitial,
        ih]
  rw [initialState, hruns, ← initialWrites]
  cases card.initialWrites.foldlM writeInitial Variables.empty <;> rfl

theorem InitialValue.declared (h : card.InitialValue a value) : a.Declared card := by
  obtain ⟨p, hp, -, -, hstart⟩ := h
  cases hstart with
  | global hscope => exact ⟨p, hp, rfl, hscope⟩
  | scene hscope => exact ⟨p, hp, rfl, hscope⟩
  | character hscope he _ => exact ⟨⟨_, he, rfl⟩, p, hp, rfl, hscope⟩

theorem StartsAt.name_eq {q : Parameter} {b : Address} (h : card.StartsAt p a)
    (h' : card.StartsAt q b) (hab : a = b) : q.name = p.name := by
  cases h <;> cases h' <;> simp_all

/-- Only one parameter starts at an address, so only one value is initial there. -/
theorem Valid.initialValue_unique (hv : card.Valid) {other : Value}
    (h : card.InitialValue a value) (h' : card.InitialValue a other) : value = other := by
  obtain ⟨p, hp, rfl, -, hstart⟩ := h
  obtain ⟨q, hq, rfl, -, hstart'⟩ := h'
  have hkey : p.name ∈ q.keys := hstart.name_eq hstart' rfl ▸ List.mem_cons_self
  rw [hv.eq_of_key hp hq List.mem_cons_self hkey]

end Card

namespace Variables

/-- Declared coordinates only, of characters those with an initial value, of relationships none. -/
structure Initial (card : Card) (v : Variables) : Prop where
  declared : v.Declared card
  subjects : ∀ subject ∈ Entries.keys (v.bucket .character),
    ∃ parameter value, card.InitialValue (.character subject parameter) value
  relationships : v.bucket .relationship = []

theorem empty_initial (card : Card) : Variables.empty.Initial card :=
  ⟨empty_declared card, nofun, rfl⟩

theorem Initial.write (h : v.Initial card) (ha : card.InitialValue a value) :
    ∃ next, v.write a value = .ok next ∧ next.Initial card := by
  obtain ⟨next, hwrite, hdeclared⟩ := h.declared.write ha.declared value
  refine ⟨next, hwrite, hdeclared, ?_, ?_⟩
  · rw [write_eq_ok hwrite, bucket_putBucket]
    split
    · intro subject hsubject
      obtain ⟨p, -, -, -, hstart⟩ := id ha
      cases hstart with
      | character hscope he hbound =>
        rw [place, Entries.keys_put] at hsubject
        split at hsubject
        · exact h.subjects subject hsubject
        · rcases List.mem_append.mp hsubject with hold | hnew
          · exact h.subjects subject hold
          · obtain rfl := List.mem_singleton.mp hnew
            exact ⟨p.name, value, ha⟩
      | _ => contradiction
    · exact h.subjects
  · obtain ⟨p, -, -, -, hstart⟩ := ha
    rw [write_eq_ok hwrite, bucket_putBucket, if_neg, h.relationships]
    cases hstart <;> rintro ⟨⟩

/-- A run of writes leaves at each address what was written there, or else what was there before. -/
theorem value?_of_writes {l : List (Except AddressError Address × Value)}
    (h : l.foldlM Card.writeInitial v = .ok w) (c : Address) :
    (∃ value, (.ok c, value) ∈ l ∧ w.value? c = some value) ∨
      (∀ value, (.ok c, value) ∉ l) ∧ w.value? c = v.value? c := by
  induction l generalizing v with
  | nil =>
    obtain rfl : v = w := Except.ok.inj h
    exact .inr ⟨nofun, rfl⟩
  | cons x l ih =>
    obtain ⟨u, hu, hl⟩ := bind_eq_ok (List.foldlM_cons.symm.trans h)
    obtain ⟨x, value⟩ := x
    cases x with
    | error e => cases hu
    | ok a =>
      have hwrite := value?_write (Card.writeTo_eq_ok hu) c
      rcases ih hl with ⟨last, hmem, hlast⟩ | ⟨hnone, hkept⟩
      · exact .inl ⟨last, List.mem_cons_of_mem _ hmem, hlast⟩
      · by_cases hac : a = c
        · subst hac
          exact .inl ⟨value, List.mem_cons_self, by rw [hkept, hwrite, if_pos rfl]⟩
        · refine .inr ⟨fun other hmem => ?_, by rw [hkept, hwrite, if_neg hac]⟩
          rcases List.mem_cons.mp hmem with hself | hmem
          · exact hac (by simpa using congrArg Prod.fst hself.symm)
          · exact hnone other hmem

end Variables

theorem Variables.Initial.writeInitial (h : v.Initial card) (ha : card.InitialValue a value) :
    (∀ f, Card.writeInitial v (a.named, value) = .error f ↔
      f = .address (.noSubject .character) ∧ a.named = .error (.noSubject .character)) ∧
    ∀ next, Card.writeInitial v (a.named, value) = .ok next → next.Initial card := by
  obtain ⟨w, hwrite, hw⟩ := h.write ha
  simp only [Card.writeInitial]
  cases hnamed : a.named with
  | error e =>
    obtain ⟨rfl, -⟩ := Address.named_eq_error_iff.mp hnamed
    exact ⟨fun f => by simp [Variables.writeTo, eq_comm], nofun⟩
  | ok b =>
    obtain rfl := Address.named_eq_ok hnamed
    simp only [Variables.writeTo, hwrite]
    exact ⟨fun f => by simp, fun next hnext => Except.ok.inj hnext ▸ hw⟩

namespace Card

theorem mem_initialWrites_unnamed :
    (∃ x ∈ card.initialWrites, x.1 = .error (.noSubject .character)) ↔
      ∃ parameter value, card.InitialValue (.character "" parameter) value := by
  constructor
  · rintro ⟨⟨x, value⟩, hx, rfl⟩
    obtain ⟨a, ha, hnamed⟩ := mem_initialWrites.mp hx
    obtain ⟨-, parameter, rfl⟩ := Address.named_eq_error_iff.mp hnamed.symm
    exact ⟨parameter, value, ha⟩
  · rintro ⟨parameter, value, ha⟩
    exact ⟨(_, value), mem_initialWrites.mpr ⟨_, ha, rfl⟩, rfl⟩

/-- An initial state is refused exactly where a character without a name would have a value. -/
theorem initialState_eq_error_iff {f : Fault} : card.initialState = .error f ↔
    f = .address (.noSubject .character) ∧
      ∃ parameter value, card.InitialValue (.character "" parameter) value := by
  rw [← mem_initialWrites_unnamed, initialState_eq]
  rw [← foldlM_eq_error_iff (P := Variables.Initial card) (f := writeInitial)
    (l := card.initialWrites) ?_ (Variables.empty_initial card)]
  · cases card.initialWrites.foldlM writeInitial Variables.empty <;> simp [Except.map]
  · rintro ⟨x, value⟩ hx v hv
    obtain ⟨a, ha, rfl⟩ := mem_initialWrites.mp hx
    exact hv.writeInitial ha

theorem exists_writes_of_initialState (h : card.initialState = .ok s) :
    card.initialWrites.foldlM writeInitial Variables.empty = .ok s.values ∧
      s = { State.empty with values := s.values } := by
  rw [initialState_eq] at h
  cases hrun : card.initialWrites.foldlM writeInitial Variables.empty with
  | error f => simp [hrun, Except.map] at h
  | ok values =>
    obtain rfl : { State.empty with values := values } = s := by simpa [hrun, Except.map] using h
    exact ⟨rfl, rfl⟩

theorem initial_of_initialState (h : card.initialState = .ok s) : s.values.Initial card := by
  have hrun := (exists_writes_of_initialState h).1
  refine (Ends.foldlM (Q := fun _ => True) (Variables.empty_initial card) ?_).of_ok hrun
  rintro ⟨x, value⟩ hx v hv
  obtain ⟨a, ha, rfl⟩ := mem_initialWrites.mp hx
  exact ⟨fun hnext => (hv.writeInitial ha).2 _ hnext, fun _ => trivial⟩

theorem Valid.value?_initialState (hv : card.Valid) (h : card.initialState = .ok s) :
    s.values.value? a = some value ↔ card.InitialValue a value := by
  have hrun := Variables.value?_of_writes (exists_writes_of_initialState h).1 a
  have hinitial : ∀ value, (.ok a, value) ∈ card.initialWrites → card.InitialValue a value := by
    intro value hmem
    obtain ⟨b, hb, hnamed⟩ := mem_initialWrites.mp hmem
    exact Address.named_eq_ok hnamed.symm ▸ hb
  constructor
  · intro hvalue
    rcases hrun with ⟨last, hmem, hlast⟩ | ⟨-, hkept⟩
    · obtain rfl : last = value := Option.some.inj (hlast.symm.trans hvalue)
      exact hinitial last hmem
    · have hempty : Variables.empty.value? a = none := by cases a <;> rfl
      rw [hkept, hempty] at hvalue
      cases hvalue
  · intro ha
    have hnamed : a.named = .ok a := by
      cases hn : a.named with
      | ok b => rw [Address.named_eq_ok hn]
      | error e =>
        obtain ⟨-, parameter, rfl⟩ := Address.named_eq_error_iff.mp hn
        cases h.symm.trans (initialState_eq_error_iff.mpr ⟨rfl, parameter, value, ha⟩)
    rcases hrun with ⟨last, hmem, hlast⟩ | ⟨hnone, -⟩
    · rw [hlast, hv.initialValue_unique (hinitial last hmem) ha]
    · exact (hnone value (mem_initialWrites.mpr ⟨a, ha, hnamed.symm⟩)).elim

theorem Valid.fresh_initialState (hv : card.Valid) (h : card.initialState = .ok s) :
    s.Fresh card := by
  obtain ⟨-, hs⟩ := exists_writes_of_initialState h
  have hinitial := initial_of_initialState h
  exact ⟨fun a value => hv.value?_initialState h, hinitial.declared.buckets, hinitial.subjects,
    hinitial.relationships, by rw [hs]; rfl, by rw [hs]; rfl, by rw [hs]; rfl, by rw [hs]; rfl⟩

/-- Every location of a valid card has its full path, and the card gives a fresh state unless an
initial value would be that of a character without a name; then, and for no other reason, it gives
none. -/
theorem Valid.opens_unless_nameless (hv : card.Valid) :
    (∀ e ∈ card.locations, card.FullPath e (card.pathOf e)) ∧
      ((∃ s, card.initialState = .ok s ∧ s.Fresh card) ↔
        ∀ parameter value, ¬ card.InitialValue (.character "" parameter) value) ∧
      ∀ f, card.initialState = .error f ↔ f = .address (.noSubject .character) ∧
        ∃ parameter value, card.InitialValue (.character "" parameter) value := by
  refine ⟨fun e he => hv.fullPath (List.mem_filter.mp he).1, ⟨?_, ?_⟩, fun f =>
    initialState_eq_error_iff⟩
  · rintro ⟨s, hs, -⟩ parameter value hnameless
    cases hs.symm.trans (initialState_eq_error_iff.mpr ⟨rfl, parameter, value, hnameless⟩)
  · intro hnamed
    cases hs : card.initialState with
    | ok s => exact ⟨s, rfl, hv.fresh_initialState hs⟩
    | error f =>
      obtain ⟨-, parameter, value, hnameless⟩ := initialState_eq_error_iff.mp hs
      exact (hnamed parameter value hnameless).elim

end Card

theorem Demo.card_opens : Demo.card.Valid ∧ ∃ s, Demo.card.initialState = .ok s ∧
    s.Fresh Demo.card ∧ s.values.value? (.character "Bob" "mood") = some (.text "calm") := by
  obtain ⟨-, hopens, -⟩ := Card.Valid.opens_unless_nameless Demo.card_valid
  have hnamed : ∀ e ∈ card.entities, e.name ≠ "" := by decide
  obtain ⟨s, hs, hfresh⟩ := hopens.mpr fun parameter value hnameless => by
    obtain ⟨⟨e, he, hempty⟩, -⟩ := hnameless.declared
    exact hnamed e he hempty
  have hbob : (⟨"Bob", .character, ["favor", "mood", "trust"], none⟩ : Entity) ∈ card.entities := by
    simp [card]
  have hmood : card.StartsAt mood (.character "Bob" "mood") :=
    .character rfl hbob (by simp [mood, parameter])
  exact ⟨Demo.card_valid, s, hs, hfresh,
    (hfresh.values _ _).mpr ⟨mood, by simp [card], rfl, nofun, hmood⟩⟩

/-- A card with a parameter for an entity whose name is empty. -/
def Demo.nameless : Card where
  parameters := [parameter "favor" .character .number (.int 1)]
  entities := [⟨"", .character, ["favor"], none⟩]
  castConfig := .standard

theorem Demo.nameless_unopened : Demo.nameless.Valid ∧
    Demo.nameless.initialState = .error (.address (.noSubject .character)) :=
  ⟨⟨by decide +kernel, by decide +kernel⟩, by rfl⟩

end Storyworld
