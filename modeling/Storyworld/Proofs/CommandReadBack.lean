import Storyworld.Proofs.Independence
import Storyworld.Proofs.SceneTags
import Storyworld.Proofs.WrittenCalls

/-! One command written to the coordinates of a parameter. What its operator makes of the value there
is read back at the same coordinates, and every other value stays as it was. -/

namespace Storyworld

variable {card : Card} {s : State} {p : Parameter} {a : Address} {names : List Text}
  {subject target : Option Text} {key operator : Text}

/-- A name that can stand in a path: without dots, and without blanks around it. -/
structure PlainName (name : Text) : Prop where
  ne_empty : name ≠ ""
  no_dot : .char '.' ∉ name.toList
  trimmed_eq : trimmed name = name

theorem PlainName.trim_eq {name : Text} (h : PlainName name) :
    trim name.toList = name.toList := by
  have hlist := congrArg Text.toList h.trimmed_eq
  rwa [trimmed, Text.toList_ofList] at hlist

/-- The names in the path to a value, which are joined by dots. -/
def pathNames (subject : Option Text) (key : Text) (target : Option Text) : List Text :=
  subject.toList ++ key :: target.toList

theorem pathSegments_intercalate (hne : names ≠ []) (h : ∀ name ∈ names, PlainName name) :
    pathSegments (Text.intercalate "." names) = names := by
  have hparts : splitAtMark (.char '.') (Text.intercalate "." names).toList =
      names.map Text.toList := by
    rw [Text.toList_intercalate]
    refine splitAtMark_intercalate (by simpa using hne) fun part hpart => ?_
    obtain ⟨name, hname, rfl⟩ := List.mem_map.mp hpart
    exact (h name hname).no_dot
  rw [pathSegments, hparts, List.map_map]
  exact (List.map_congr_left fun name hname => (h name hname).trimmed_eq).trans (List.map_id names)

theorem trim_intercalate (hne : names ≠ []) (h : ∀ name ∈ names, PlainName name) :
    (Text.intercalate "." names).toList ≠ [] ∧
      trim (Text.intercalate "." names).toList = (Text.intercalate "." names).toList := by
  induction names with
  | nil => exact (hne rfl).elim
  | cons name names ih =>
    obtain ⟨hname, hnames⟩ := List.forall_mem_cons.mp h
    have hfirst : name.toList ≠ [] := by simpa using hname.ne_empty
    cases names with
    | nil => simpa using ⟨hname.ne_empty, hname.trim_eq⟩
    | cons next names =>
      obtain ⟨hrest, htrim⟩ := ih (List.cons_ne_nil next names) hnames
      rw [Text.intercalate_cons_cons, Text.toList_append, Text.toList_append,
        List.append_assoc]
      refine ⟨by simp [hfirst], ?_⟩
      exact trimWith_append hname.trim_eq htrim hfirst hrest _

theorem trimmed_intercalate (hne : names ≠ []) (h : ∀ name ∈ names, PlainName name) :
    trimmed (Text.intercalate "." names) = Text.intercalate "." names := by
  rw [trimmed, (trim_intercalate hne h).2, Text.ofList_toList]

/-- Names lead to an address where there are as many declared entities as the scope of the parameter
needs. -/
inductive Parameter.LeadsTo (card : Card) (p : Parameter) :
    Option Text → Option Text → Address → Prop
  | global (hscope : p.scope = .global) : LeadsTo card p none none (.global p.name)
  | scene (hscope : p.scope = .scene) : LeadsTo card p none none (.scene p.name)
  | character {subject : Text} (hscope : p.scope = .character) (hs : card.HasEntity subject) :
      LeadsTo card p (some subject) none (.character subject p.name)
  | relationship {subject target : Text} (hscope : p.scope = .relationship)
      (hs : card.HasEntity subject) (ht : card.HasEntity target) :
      LeadsTo card p (some subject) (some target) (.relationship subject p.name target)

theorem splitPath?_intercalate (h : ∀ name ∈ pathNames subject key target, PlainName name)
    (hpair : target.isSome → subject.isSome) :
    splitPath? (Text.intercalate "." (pathNames subject key target)) = some (subject, key, target) := by
  have hempty : ¬ (pathNames subject key target).contains "" = true := fun hmem =>
    (h "" (List.contains_iff_mem.mp hmem)).ne_empty rfl
  rw [splitPath?, pathSegments_intercalate (by simp [pathNames]) h, if_neg hempty]
  cases subject with
  | none =>
    cases target with
    | none => rfl
    | some t => simp at hpair
  | some s => cases target <;> rfl

namespace Card

theorem HasEntity.entity? {name : Text} (h : card.HasEntity name) :
    ∃ e, card.entity? name = some e ∧ e.name = name := by
  obtain ⟨e, he, rfl⟩ := h
  exact entity?_name he

theorem HasEntity.entityName? {name : Text} (h : card.HasEntity name) :
    card.entityName? (some name) = some (some name) := by
  obtain ⟨e, he, rfl⟩ := h.entity?
  simp [Card.entityName?, he]

theorem HasEntity.canonical {name : Text} (h : card.HasEntity name) (hne : name ≠ "") :
    State.canonical card (some name) = some name := by
  obtain ⟨e, he, hname⟩ := h.entity?
  have hgiven : Address.given? (some name) = some name := by simp [Address.given?, hne]
  rw [State.canonical, hgiven, Option.map_some, he]
  exact congrArg some hname

end Card

namespace Parameter

theorem LeadsTo.shape (h : p.LeadsTo card subject target a) (key : Text) :
    (target.isSome → subject.isSome) ∧
      p.scope.segments = (pathNames subject key target).length := by
  cases h <;> simp_all [pathNames, Scope.segments]

theorem LeadsTo.entityNames (h : p.LeadsTo card subject target a) :
    card.entityName? subject = some subject ∧ card.entityName? target = some target := by
  cases h with
  | global _ => exact ⟨rfl, rfl⟩
  | scene _ => exact ⟨rfl, rfl⟩
  | character _ hs => exact ⟨hs.entityName?, rfl⟩
  | relationship _ hs ht => exact ⟨hs.entityName?, ht.entityName?⟩

theorem LeadsTo.canonical (h : p.LeadsTo card subject target a)
    (hne : ∀ name ∈ pathNames subject key target, name ≠ "") :
    State.canonical card subject = subject ∧ State.canonical card target = target := by
  cases h with
  | global _ => exact ⟨rfl, rfl⟩
  | scene _ => exact ⟨rfl, rfl⟩
  | character _ hs => exact ⟨hs.canonical (hne _ (by simp [pathNames])), rfl⟩
  | relationship _ hs ht =>
    exact ⟨hs.canonical (hne _ (by simp [pathNames])), ht.canonical (hne _ (by simp [pathNames]))⟩

theorem LeadsTo.resolve (h : p.LeadsTo card subject target a)
    (hne : ∀ name ∈ pathNames subject key target, name ≠ "") :
    Address.resolve p.scope p.name subject target = .ok a := by
  have hgiven : ∀ name ∈ pathNames subject key target, Address.given? (some name) = some name :=
    fun name hname => by simp [Address.given?, hne name hname]
  cases h with
  | global hscope => rw [hscope, Address.resolve]
  | scene hscope => rw [hscope, Address.resolve]
  | character hscope _ => rw [hscope, Address.resolve, hgiven _ (by simp [pathNames])]
  | relationship hscope _ _ =>
    rw [hscope, Address.resolve, hgiven _ (by simp [pathNames]), hgiven _ (by simp [pathNames])]

/-- An operator as it is applied: texts are taken as they are, others without blanks around them. -/
def operatorOf (p : Parameter) (operator : Text) : Text :=
  if p.type = .text then operator else trimmed operator

/-- The value that follows an operator, if the operator takes one. -/
def literalOf (p : Parameter) (operator : Text) (value : Option Text) : Option Text :=
  if p.takesValue operator then value else none

end Parameter

theorem State.parameterValue_eq (hp : card.parameter? key = some p)
    (h : p.LeadsTo card subject target a)
    (hne : ∀ name ∈ pathNames subject key target, name ≠ "") (s : State) :
    s.parameterValue card key subject target = .ok (s.values.read a) := by
  obtain ⟨hsubject, htarget⟩ := h.canonical hne
  simp only [parameterValue, hp, hsubject, htarget, h.resolve hne]

theorem State.applyText_of_overlong {text : Text} (h : OverlongTags text) :
    s.applyText card text = .error .overlong := by
  have hparse : card.parse text = .error .overlong := Card.parse_eq_error_iff.mpr ⟨rfl, h⟩
  simp only [applyText, hparse]

theorem Card.resolve?_path (hp : card.parameter? key = some p)
    (h : p.LeadsTo card subject target a)
    (hplain : ∀ name ∈ pathNames subject key target, PlainName name) (operator : Text)
    (value : Option Text) (i j : Nat) :
    ∃ m, card.resolve?
        ⟨Text.intercalate "." (pathNames subject key target) :: operator :: value.toList, i, j⟩ =
      some m ∧ m.parameter = p.name ∧ m.address? = some a ∧ m.operator = p.operatorOf operator ∧
      m.valueLiteral = p.literalOf (p.operatorOf operator) value := by
  have hnil : pathNames subject key target ≠ [] := by simp [pathNames]
  obtain ⟨hpair, hsegments⟩ := h.shape key
  obtain ⟨hsubject, htarget⟩ := h.entityNames
  have haddress := h.resolve fun name hname => (hplain name hname).ne_empty
  simp only [resolve?, trimmed_intercalate hnil hplain, splitPath?_intercalate hplain hpair,
    pathSegments_intercalate hnil hplain, hp, hsubject, htarget, hsegments, Option.bind_eq_bind,
    Option.bind_some, ne_eq, not_true_eq_false, if_false]
  refine ⟨_, rfl, rfl, ?_, rfl, ?_⟩
  · simp only [Mutation.address?, haddress]
    rfl
  · have hfirst : value.toList[0]? = value := by cases value <;> rfl
    rw [hfirst, Parameter.literalOf, Parameter.operatorOf]
    exact apply_ite Prod.fst _ _ _

theorem Call.all_written {pairs : List (Code × Text)} (hne : pairs ≠ [])
    (h : ∀ b ∈ pairs, Quotable b.1 b.2) :
    Call.all (written pairs) = [⟨pairs.map Prod.snd, 0, (written pairs).length⟩] := by
  have hstands : Stands (written pairs).toList ⟨pairs.map Prod.snd, 0, (written pairs).length⟩ :=
    ⟨by simp [← Text.length_toList], by simp, by
      simpa [span, ← Text.length_toList] using derives_written hne h⟩
  have hspan := hstands.leftmost_span
  simp only [span, List.drop_zero, Nat.sub_zero, ← Text.length_toList, List.take_length] at hspan
  rw [← Text.length_toList]
  exact (hspan.unique (all_leftmost (written pairs))).symm

/-- A command for the value of a parameter at coordinates, by the arguments of its call, each with
the quotation mark it is put in. -/
structure Command (card : Card) (p : Parameter) (subject : Option Text) (key : Text)
    (target : Option Text) (a : Address) (operator : Text) (value : Option Text)
    (pairs : List (Code × Text)) : Prop where
  declared : p ∈ card.parameters
  key_mem : key ∈ p.keys
  leads : p.LeadsTo card subject target a
  plain : ∀ name ∈ pathNames subject key target, PlainName name
  quotable : ∀ b ∈ pairs, Call.Quotable b.1 b.2
  arguments : pairs.map Prod.snd =
    Text.intercalate "." (pathNames subject key target) :: operator :: value.toList

namespace Command

variable {value : Option Text} {pairs : List (Code × Text)} {result : Value}

theorem parameter? (h : Command card p subject key target a operator value pairs)
    (hv : card.Valid) : card.parameter? key = some p := by
  have hkey : PlainName key := h.plain key (by simp [pathNames])
  exact hv.parameter?_key h.declared h.key_mem fun he => (hkey.ne_empty he).elim

/-- The text of a command asks for one mutation, of the value at its coordinates. -/
theorem exists_mutation (h : Command card p subject key target a operator value pairs)
    (hv : card.Valid) : ∃ call m, card.resolve? call = some m ∧
      card.mutations (Call.written pairs) = [m] ∧ m.address? = some a ∧
      card.parameter? m.parameter = some p ∧ m.operator = p.operatorOf operator ∧
      m.valueLiteral = p.literalOf (p.operatorOf operator) value := by
  have hne : pairs ≠ [] := by
    rintro rfl
    cases h.arguments
  obtain ⟨m, hm, hname, haddress, hoperator, hliteral⟩ := Card.resolve?_path (h.parameter? hv)
    h.leads h.plain operator value 0 (Call.written pairs).length
  rw [← h.arguments] at hm
  refine ⟨_, m, hm, ?_, haddress, ?_, hoperator, hliteral⟩
  · rw [Card.mutations, Call.all_written hne h.quotable]
    simp [hm]
  · rw [hname]
    exact hv.parameter?_self h.declared

/-- The text of a command leads to a state that differs at its coordinates alone, where it has what
the operator computes, or what was there before if that is refused. -/
theorem exists_next (h : Command card p subject key target a operator value pairs)
    (hv : card.Valid) (hs : card.Reachable s) (hread : ¬ OverlongTags (Call.written pairs))
    (happly : p.apply (s.values.read a) (p.operatorOf operator)
        (p.literalOf (p.operatorOf operator) value) = .ok result ∨
      result = s.values.read a ∧ ∃ why, p.apply (s.values.read a) (p.operatorOf operator)
        (p.literalOf (p.operatorOf operator) value) = .error (.refused why)) :
    ∃ next, s.applyText card (Call.written pairs) = .ok next ∧
      ∀ c, next.values.read c = if a = c then result else s.values.read c := by
  obtain ⟨call, m, hm, hmutations, haddress, hp, hoperator, hliteral⟩ := h.exists_mutation hv
  have hrevise : card.revise (s.values.read a) m = .ok result := by
    rcases happly with hok | ⟨rfl, why, hrefused⟩
    · simp only [Card.revise, hp, hoperator, hliteral, hok]
    · simp only [Card.revise, hp, hoperator, hliteral, hrefused]
  have hdeclared := hs.declared hv
  obtain ⟨w, hw, -, hwread⟩ := hv.exists_mutate hm hdeclared haddress hrevise
  cases hparse : card.parse (Call.written pairs) with
  | error f => exact (hread (Card.parse_eq_error_iff.mp hparse).2).elim
  | ok b =>
    have hrun : b.mutations.foldlM card.mutate s.values.complete = .ok w := by
      rw [(Card.parse_eq_ok hparse).1, hmutations, hdeclared.complete, List.foldlM_cons, hw]
      rfl
    obtain ⟨next, hnext, rfl⟩ := State.exists_applyParsed hrun
    exact ⟨next, by simp only [State.applyText, hparse, hnext], hwread⟩

/-- What the operator of a command computes from the value at its coordinates is read back there
after its text. All other values stay as they were, and all values if the operator is refused. Only
overlong tags in the arguments keep the text from being read. -/
theorem reads_back (h : Command card p subject key target a operator value pairs)
    (hv : card.Valid) (hs : card.Reachable s) :
    (OverlongTags (Call.written pairs) →
      s.applyText card (Call.written pairs) = .error .overlong ∧
        HasLongRun (Call.written pairs).toList) ∧
    (¬ OverlongTags (Call.written pairs) →
      (∀ result, p.apply (s.values.read a) (p.operatorOf operator)
          (p.literalOf (p.operatorOf operator) value) = .ok result →
        ∃ next, s.applyText card (Call.written pairs) = .ok next ∧
          next.parameterValue card key subject target = .ok result ∧
          ∀ c, c ≠ a → next.values.read c = s.values.read c) ∧
      (∀ why, p.apply (s.values.read a) (p.operatorOf operator)
          (p.literalOf (p.operatorOf operator) value) = .error (.refused why) →
        ∃ next, s.applyText card (Call.written pairs) = .ok next ∧
          ∀ c, next.values.read c = s.values.read c)) := by
  refine ⟨fun hoverlong => ?_, fun hread => ⟨fun result hok => ?_, fun why hrefused => ?_⟩⟩
  · exact ⟨State.applyText_of_overlong hoverlong, hoverlong.hasLongRun⟩
  · obtain ⟨next, hnext, hreads⟩ := h.exists_next hv hs hread (.inl hok)
    refine ⟨next, hnext, ?_, fun c hc => by rw [hreads c, if_neg (Ne.symm hc)]⟩
    rw [State.parameterValue_eq (h.parameter? hv) h.leads fun name hname =>
      (h.plain name hname).ne_empty, hreads a, if_pos rfl]
  · obtain ⟨next, hnext, hreads⟩ := h.exists_next hv hs hread (.inr ⟨rfl, why, hrefused⟩)
    refine ⟨next, hnext, fun c => ?_⟩
    rw [hreads c]
    split
    · rename_i hc
      rw [hc]
    · rfl

end Command

namespace Demo

/-- A favor is asked for under the id of its parameter, and the operator has blanks around it. -/
theorem favor_command : Command Demo.card favor (some "Alice") "p_favor" none
    (.character "Alice" "favor") " up_small " none
    [('\x22', "Alice.p_favor"), ('\x27', " up_small ")] where
  declared := by simp [Demo.card]
  key_mem := by decide
  leads := .character rfl ⟨_, List.mem_cons_self, rfl⟩
  plain := by
    simp only [pathNames, Option.toList_some, Option.toList_none, List.cons_append, List.nil_append,
      List.forall_mem_cons]
    refine ⟨⟨by decide, by decide, by decide⟩, ⟨by decide, by decide, by decide⟩, ?_⟩
    exact List.forall_mem_nil _
  quotable := by decide
  arguments := by decide

theorem favor_reads_back : Demo.card.Valid ∧ ∃ s next result, Demo.card.Reachable s ∧
    favor.apply (s.values.read (.character "Alice" "favor")) "up_small" none = .ok result ∧
    s.applyText Demo.card "ce.set(\"Alice.p_favor\", ' up_small ')" = .ok next ∧
    next.parameterValue Demo.card "p_favor" (some "Alice") none = .ok result ∧
    ∀ c, c ≠ .character "Alice" "favor" → next.values.read c = s.values.read c := by
  obtain ⟨s, hs⟩ := Demo.card.exists_reachable "set(Alice.favor, 250)" (by decide +kernel)
  have htext : Call.written [('\x22', "Alice.p_favor"), ('\x27', " up_small ")] =
      "ce.set(\"Alice.p_favor\", ' up_small ')" := by decide
  have hoperator : favor.operatorOf " up_small " = "up_small" := by decide
  have hdelta : symbolicDelta? (lowered (trimmed "up_small")) = some 2 := by decide +kernel
  obtain ⟨result, happly⟩ : ∃ result,
      favor.apply (s.values.read (.character "Alice" "favor")) "up_small" none = .ok result := by
    generalize s.values.read (.character "Alice" "favor") = current
    refine ⟨.number (favor.clamp ((favor.baseNumber current).shift 2)), ?_⟩
    show favor.applyNumber current "up_small" = _
    rw [Parameter.applyNumber, hdelta]
  obtain ⟨-, hread⟩ := favor_command.reads_back Demo.card_valid hs
  rw [htext, hoperator] at hread
  obtain ⟨hback, -⟩ := hread (not_overlongTags_of_length (by decide))
  obtain ⟨next, hnext, hvalue, hothers⟩ := hback result happly
  exact ⟨Demo.card_valid, s, next, result, hs, happly, hnext, hvalue, hothers⟩

theorem escaped_of_notMem {mark : Code} {said : List Code} (h : mark ∉ said) :
    Call.escaped mark said = said := by
  induction said with
  | nil => rfl
  | cons c said ih =>
    simp only [List.mem_cons, not_or] at h
    have hrest := ih h.2
    rw [Call.escaped] at hrest ⊢
    rw [List.flatMap_cons, if_neg (Ne.symm h.1), hrest]
    rfl

theorem mem_onesElement {n : Nat} {c : Code} (h : c ∈ (onesElement n).toList) :
    c ∈ ("<SceneMeta>- scene_tags: 1</SceneMeta>" : Text).toList := by
  have hopening : ∀ d ∈ ("<SceneMeta>- scene_tags: " : Text).toList,
      d ∈ ("<SceneMeta>- scene_tags: 1</SceneMeta>" : Text).toList := by simp
  have hclosing : ∀ d ∈ ("</SceneMeta>" : Text).toList,
      d ∈ ("<SceneMeta>- scene_tags: 1</SceneMeta>" : Text).toList := by simp
  unfold onesElement at h
  rw [Text.toList_append, Text.toList_append] at h
  rcases List.mem_append.mp h with h | h
  · rcases List.mem_append.mp h with h | h
    · exact hopening c h
    · rw [Text.toList_ofList] at h
      rw [List.eq_of_mem_replicate h]
      decide
  · exact hclosing c h

theorem quotable_onesElement (n : Nat) : Call.Quotable '\x27' (onesElement n) where
  isQuote_mark := by decide
  one_line h := absurd (mem_onesElement h) (by decide)
  no_backslash h := absurd (mem_onesElement (List.mem_of_getLast? h)) (by decide)

def weather : Parameter := parameter "weather" .global .text (.text "clear")

theorem weather_command (n : Nat) : Command Demo.card weather none "weather" none
    (.global "weather") (onesElement n) none
    [('\x27', "weather"), ('\x27', onesElement n)] where
  declared := by simp [Demo.card, weather]
  key_mem := List.mem_cons_self
  leads := .global rfl
  plain := List.forall_mem_singleton.mpr ⟨by decide, by decide, by decide⟩
  quotable := List.forall_mem_cons.mpr
    ⟨by decide, List.forall_mem_singleton.mpr (quotable_onesElement n)⟩
  arguments := rfl

theorem written_weather (n : Nat) : Call.written [('\x27', "weather"), ('\x27', onesElement n)] =
    "ce.set('weather', '" ++ onesElement n ++ "')" := by
  have hmark : .char '\x27' ∉ (onesElement n).toList := fun h => absurd (mem_onesElement h) (by decide)
  have hname : Call.quotedWith '\x27' "weather" = "'weather'" := by decide
  have hones : Call.quotedWith '\x27' (onesElement n) = "'" ++ onesElement n ++ "'" := by
    rw [← Text.toList_inj, Call.quotedWith, escaped_of_notMem hmark]
    simp
  rw [Call.written, List.map_cons, List.map_singleton, hname, hones, ← Text.toList_inj]
  simp

/-- A command whose operator is accepted, in a text that is not read. -/
theorem weather_unread : Demo.card.Valid ∧ ∃ s, Demo.card.Reachable s ∧
    Command Demo.card weather none "weather" none (.global "weather") (onesElement 4301) none
      [('\x27', "weather"), ('\x27', onesElement 4301)] ∧
    weather.apply (s.values.read (.global "weather")) (onesElement 4301) none =
      .ok (.text (onesElement 4301)) ∧
    s.applyText Demo.card (Call.written [('\x27', "weather"), ('\x27', onesElement 4301)]) =
      .error .overlong := by
  obtain ⟨s, hs⟩ := Demo.card.exists_reachable "set(weather, fog)" (by decide +kernel)
  have htags := overlongTags_ones "ce.set('weather', '" (by decide)
    (show digitLimit < 4301 by decide) "')"
  rw [← written_weather] at htags
  exact ⟨Demo.card_valid, s, hs, weather_command 4301, rfl, State.applyText_of_overlong htags⟩

end Demo

end Storyworld
