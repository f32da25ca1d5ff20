import Storyworld.Proofs.Composition
import Storyworld.Store

/-! The laws of the store. A write that succeeds changes the one path that leads to its coordinates, a
write that fails changes nothing, although it works its way inwards step by step, and a read finds what
is at the end of the path. -/

namespace Storyworld

variable {v w : Variables} {a : Address} {value : Value} {c d : Coordinates} {key : Text}
  {es fields : Entries Text Value}

/-! Values along paths of keys. -/

namespace Value

/-- What stands at the end of a path through objects inside one another. -/
def at? : Value → List Text → Option Value
  | v, [] => some v
  | v, key :: path => (v.fields?.bind (Entries.get? key)).bind (at? · path)

@[simp] theorem at?_nil (v : Value) : v.at? [] = some v := rfl

@[simp] theorem at?_object (fields : Entries Text Value) (key : Text) (path : List Text) :
    (object fields).at? (key :: path) = (fields.get? key).bind (·.at? path) := rfl

/-- The fields of an object with a value put at the end of a path, where any other value on the way
gives way to an object. -/
def putAt (value : Value) : List Text → Entries Text Value → Entries Text Value
  | [], fields => fields
  | [key], fields => fields.put key value
  | key :: next :: path, fields =>
    fields.put key (object (putAt value (next :: path) (Variables.inner fields key)))

theorem at?_inner (fields : Entries Text Value) {key next : Text} {path : List Text} :
    (object (Variables.inner fields key)).at? (next :: path) =
      (object fields).at? (key :: next :: path) := by
  rw [at?_object, at?_object, Variables.inner]
  cases fields.get? key with
  | none => rfl
  | some x => cases hx : x.fields? <;> simp [at?, hx, Entries.get?]

theorem at?_putAt (value : Value) {path : List Text} (hpath : path ≠ []) (fields : Entries Text Value)
    (rest : List Text) :
    (object (putAt value path fields)).at? (path ++ rest) = value.at? rest := by
  fun_induction putAt value path fields with
  | case1 fields => exact (hpath rfl).elim
  | case2 key fields => simp [at?_object, Entries.get?_put_self]
  | case3 key next path fields ih =>
    rw [List.cons_append, at?_object, Entries.get?_put_self]
    exact ih (List.cons_ne_nil _ _)

/-- Putting a value at the end of a path leaves what is found along every path that parts from it. -/
theorem at?_putAt_of_parts (value : Value) (fields : Entries Text Value) {path other : List Text}
    (hother : ¬ other <+: path) (hpath : ¬ path <+: other) :
    (object (putAt value path fields)).at? other = (object fields).at? other := by
  fun_induction putAt value path fields generalizing other with
  | case1 fields => rfl
  | case2 key fields =>
    cases other with
    | nil => exact (hother List.nil_prefix).elim
    | cons first other =>
      have hne : first ≠ key := by
        rintro rfl
        exact hpath (by simp)
      rw [at?_object, at?_object, Entries.get?_put_of_ne _ _ hne]
  | case3 key next path fields ih =>
    cases other with
    | nil => exact (hother List.nil_prefix).elim
    | cons first other =>
      rw [at?_object, Entries.get?_put]
      split
      · rename_i heq
        subst heq
        rw [List.cons_prefix_cons, not_and] at hother hpath
        cases other with
        | nil => exact (hother rfl List.nil_prefix).elim
        | cons second other =>
          rw [Option.bind_some, ih (hother rfl) (hpath rfl), at?_inner]
      · rfl

end Value

/-! A write as a whole, at the end of the path to its address. -/

namespace Address

/-- The keys below the bucket of the scope. -/
def keys : Address → List Text
  | global p => [p]
  | scene p => [p]
  | character s p => [s, p]
  | relationship s p t => [s, p, t]

def path (a : Address) : List Text := a.scopeOf.name :: a.keys

end Address

namespace Variables

theorem place_eq_putAt (b : Entries Text Value) (value : Value) (a : Address) :
    place b value a = Value.putAt value a.keys b := by
  cases a <;> rfl

theorem inner_mapValues (v : Variables) (scope : Scope) :
    inner (Entries.mapValues Value.object v) scope.name = v.bucket scope := by
  rw [inner, Entries.get?_mapValues, bucket]
  cases Entries.get? scope.name v <;> rfl

theorem asValue_putBucket (v : Variables) (scope : Scope) (b : Entries Text Value) :
    (v.putBucket scope b).asValue =
      .object ((Entries.mapValues Value.object v).put scope.name (.object b)) := by
  rw [asValue, putBucket, Entries.mapValues_put]

/-- What a write makes of the store. -/
theorem asValue_write (h : v.write a value = .ok w) :
    w.asValue = .object (Value.putAt value a.path (Entries.mapValues Value.object v)) := by
  obtain ⟨key, path, hkeys⟩ : ∃ key path, a.keys = key :: path := by
    cases a <;> exact ⟨_, _, rfl⟩
  rw [write_eq_ok h, asValue_putBucket, place_eq_putAt, Address.path, hkeys, Value.putAt,
    inner_mapValues]

theorem stored?_eq_at? (b : Entries Text Value) (a : Address) :
    stored? b a = (Value.object b).at? a.keys := by
  cases a with
  | global p => simp [stored?, Address.keys]
  | scene p => simp [stored?, Address.keys]
  | character s p =>
    rw [Address.keys, ← Value.at?_inner]
    simp [stored?]
  | relationship s p t =>
    rw [Address.keys, ← Value.at?_inner, ← Value.at?_inner]
    simp [stored?]

/-- Reading finds what is at the end of the path, null if there is nothing. -/
theorem read_eq_at? (v : Variables) (a : Address) :
    v.read a = (v.asValue.at? a.path).getD .null := by
  obtain ⟨key, path, hkeys⟩ : ∃ key path, a.keys = key :: path := by
    cases a <;> exact ⟨_, _, rfl⟩
  rw [read_eq_value?, value?, stored?_eq_at?, Address.path, hkeys, asValue, ← Value.at?_inner,
    inner_mapValues]

end Variables

/-! Step by step a write comes to the same, and an error finds the store as it was. -/

theorem Variables.get?_of_fieldsUnder? (h : fieldsUnder? es key = some fields) (hne : fields ≠ []) :
    es.get? key = some (.object fields) := by
  rw [fieldsUnder?] at h
  cases hget : es.get? key with
  | none =>
    rw [hget] at h
    exact (hne (Option.some.inj h).symm).elim
  | some x =>
    rw [hget] at h
    cases x with
    | object inner => exact congrArg (fun fs => some (Value.object fs)) (Option.some.inj h)
    | _ => cases h

theorem Variables.HasBuckets.putBucket_self (hv : v.HasBuckets) (scope : Scope) :
    v.putBucket scope (v.bucket scope) = v := by
  obtain ⟨b, hb⟩ := Option.isSome_iff_exists.mp (hv scope)
  refine Entries.put_self ?_
  rw [bucket, hb, Option.getD_some]

theorem Editing.run_provide_within (key : Text) (e : WriteError) (work : Editing Unit)
    (fields : Entries Text Value) :
    (do provide key; within key e work : Editing Unit).run fields =
      match Variables.fieldsUnder? fields key with
      | none => .error e fields
      | some inner =>
        match work.run inner with
        | .ok a next => .ok a (fields.put key (.object next))
        | .error e next => .error e (fields.put key (.object next)) := by
  change within key e work (if (fields.get? key).isSome then fields else _) = _
  simp only [Variables.fieldsUnder?, EStateM.run]
  cases hget : fields.get? key with
  | none =>
    simp only [within, Option.isSome_none, Bool.false_eq_true, if_false, Entries.get?_put_self,
      Option.bind_some, Value.fields?]
    cases work [] <;> simp only [Entries.put_put]
  | some x =>
    rewrite [Option.isSome_some, if_pos rfl, within, hget]
    rfl

namespace Store

/-- The steps of a write at an address. -/
theorem run_assignAt (hv : v.HasBuckets) (a : Address) (value : Value) :
    (inBucket a.scopeOf (Editing.assignAt value a)).run v =
      match v.write a value with
      | .ok w => .ok () w
      | .error e => .error (.write e) v := by
  have hself := hv.putBucket_self a.scopeOf
  cases a with
  | global p => rfl
  | scene p => rfl
  | character s p =>
    have hrun := Editing.run_provide_within s (.subjectNoObject .character)
      (Editing.assign p value) (v.bucket .character)
    simp only [EStateM.run] at hrun
    simp only [EStateM.run, inBucket, Address.scopeOf, Editing.assignAt, hrun, Variables.write]
    cases hs : Variables.fieldsUnder? (v.bucket .character) s with
    | none => exact congrArg _ hself
    | some fields => rfl
  | relationship s p t =>
    have hrun (work : Editing Unit) := Editing.run_provide_within s
      (.subjectNoObject .relationship) work (v.bucket .relationship)
    have hinner (fields : Entries Text Value) := Editing.run_provide_within p .targetsNoObject
      (Editing.assign t value) fields
    simp only [EStateM.run] at hrun hinner
    simp only [EStateM.run, inBucket, Address.scopeOf, Editing.assignAt, hrun, hinner,
      Variables.write]
    cases hs : Variables.fieldsUnder? (v.bucket .relationship) s with
    | none => exact congrArg _ hself
    | some fields =>
      cases hp : Variables.fieldsUnder? fields p with
      | some targets => simp only [hp]; rfl
      | none =>
        -- There is something under the parameter, so the subject has been there before.
        have hne : fields ≠ [] := by
          rintro rfl
          cases hp
        simp only [hp, Entries.put_self (Variables.get?_of_fieldsUnder? hs hne)]
        exact congrArg _ hself

end Store

/-! Coordinates as they are asked for. -/

namespace Coordinates

/-- The scope is known, and what it needs besides is there and not empty. -/
structure Full (c : Coordinates) : Prop where
  scope : c.scope ∈ Scope.all.map Scope.name
  subject : c.scope = "character" ∨ c.scope = "relationship" → ∃ s, c.subject = some s ∧ s ≠ ""
  target : c.scope = "relationship" → ∃ t, c.target = some t ∧ t ≠ ""

/-- The keys that lead to the value. The world and the scene have no subjects, and only relationships
have targets. -/
def path (c : Coordinates) : List Text :=
  if c.scope = "character" then [c.scope, c.subject.getD "", c.parameter]
  else if c.scope = "relationship" then [c.scope, c.subject.getD "", c.parameter, c.target.getD ""]
  else [c.scope, c.parameter]

theorem ofName?_eq_some {name : Text} {scope : Scope} (h : Scope.ofName? name = some scope) :
    name = scope.name := by
  have hname := List.find?_some h
  exact (beq_iff_eq.mp hname).symm

theorem given?_eq_some_iff {name : Option Text} {s : Text} :
    Address.given? name = some s ↔ name = some s ∧ s ≠ "" := by
  simp [Address.given?, Option.filter_eq_some_iff]

theorem given?_eq_none {name : Option Text} (h : Address.given? name = none) :
    ¬ ∃ s, name = some s ∧ s ≠ "" := by
  rintro ⟨s, hs⟩
  rw [given?_eq_some_iff.mpr hs] at h
  cases h

theorem mem_names (scope : Scope) : scope.name ∈ Scope.all.map Scope.name :=
  List.mem_map_of_mem (by cases scope <;> decide)

/-- Coordinates give an address exactly if they are full, and it has their path. -/
theorem address_cases (c : Coordinates) :
    (∃ a, c.address = .ok a ∧ c.Full ∧ a.path = c.path) ∨
      ∃ e, c.address = .error e ∧ ¬ c.Full := by
  obtain ⟨scope, parameter, subject, target⟩ := c
  simp only [address, Address.resolveNamed]
  cases hscope : Scope.ofName? scope with
  | none =>
    refine .inr ⟨_, rfl, fun hfull => ?_⟩
    obtain ⟨s, hs, hname⟩ := List.mem_map.mp hfull.scope
    exact List.find?_eq_none.mp hscope s hs (by simpa using hname)
  | some known =>
    obtain rfl := ofName?_eq_some hscope
    cases known with
    | global => exact .inl ⟨_, rfl, ⟨mem_names .global, by simp [Scope.name], by simp [Scope.name]⟩, rfl⟩
    | scene => exact .inl ⟨_, rfl, ⟨mem_names .scene, by simp [Scope.name], by simp [Scope.name]⟩, rfl⟩
    | character =>
      simp only [Address.resolve]
      cases hs : Address.given? subject with
      | none => exact .inr ⟨_, rfl, fun hfull => given?_eq_none hs (hfull.subject (.inl rfl))⟩
      | some s =>
        obtain ⟨rfl, hne⟩ := given?_eq_some_iff.mp hs
        exact .inl ⟨_, rfl, ⟨mem_names .character, fun _ => ⟨s, rfl, hne⟩, by simp [Scope.name]⟩, rfl⟩
    | relationship =>
      simp only [Address.resolve]
      cases hs : Address.given? subject with
      | none => exact .inr ⟨_, rfl, fun hfull => given?_eq_none hs (hfull.subject (.inr rfl))⟩
      | some s =>
        obtain ⟨rfl, hsne⟩ := given?_eq_some_iff.mp hs
        cases ht : Address.given? target with
        | none => exact .inr ⟨_, rfl, fun hfull => given?_eq_none ht (hfull.target rfl)⟩
        | some t =>
          obtain ⟨rfl, htne⟩ := given?_eq_some_iff.mp ht
          have hfull : Full ⟨Scope.relationship.name, parameter, some s, some t⟩ :=
            ⟨mem_names .relationship, fun _ => ⟨s, rfl, hsne⟩, fun _ => ⟨t, rfl, htne⟩⟩
          exact .inl ⟨_, rfl, hfull, rfl⟩

end Coordinates

theorem Address.path_inj {a b : Address} (h : a.path = b.path) : a = b := by
  obtain ⟨hname, hkeys⟩ := List.cons.inj h
  have hscope := Variables.name_inj hname
  cases a <;> cases b <;> simp_all [keys, scopeOf]

/-! What stands in the way of a write. -/

/-- What is on the way to the end of a path are objects, as far as there is anything. -/
def Unblocked (path : List Text) (fields : Entries Text Value) : Prop :=
  ∀ above, above <+: path → above ≠ path →
    ∀ x, (Value.object fields).at? above = some x → x.fields?.isSome

theorem unblocked_single (key : Text) (fields : Entries Text Value) : Unblocked [key] fields := by
  intro above hprefix hne x hx
  rcases List.prefix_cons_iff.mp hprefix with rfl | ⟨rest, rfl, hrest⟩
  · obtain rfl := Option.some.inj hx
    rfl
  · exact (hne (by rw [List.prefix_nil.mp hrest])).elim

theorem unblocked_cons {key next : Text} {path : List Text} {fields : Entries Text Value} :
    Unblocked (key :: next :: path) fields ↔ (∀ x, fields.get? key = some x → x.fields?.isSome) ∧
      Unblocked (next :: path) (Variables.inner fields key) := by
  constructor
  · intro h
    refine ⟨fun x hx => ?_, fun above hprefix hne x hx => ?_⟩
    · exact h [key] ⟨next :: path, rfl⟩ (by simp) x (by simp [hx])
    · cases above with
      | nil =>
        obtain rfl := Option.some.inj hx
        rfl
      | cons first above =>
        rw [Value.at?_inner] at hx
        refine h (key :: first :: above) ?_ ?_ x hx
        · exact List.cons_prefix_cons.mpr ⟨rfl, hprefix⟩
        · exact fun he => hne (List.cons.inj he).2
  · rintro ⟨hkey, hinner⟩ above hprefix hne x hx
    rcases List.prefix_cons_iff.mp hprefix with rfl | ⟨above, rfl, habove⟩
    · obtain rfl := Option.some.inj hx
      rfl
    · cases above with
      | nil => exact hkey x (by simpa using hx)
      | cons first above =>
        rw [← Value.at?_inner] at hx
        exact hinner _ habove (fun he => hne (by rw [he])) x hx

theorem Variables.fieldsUnder?_isSome_iff : (fieldsUnder? es key).isSome ↔
    ∀ x, es.get? key = some x → x.fields?.isSome := by
  rw [fieldsUnder?]
  cases es.get? key <;> simp

theorem Variables.exists_write_iff : (∃ w, v.write a value = .ok w) ↔
    Unblocked a.path (Entries.mapValues Value.object v) := by
  have hbucket (key : Text) (path : List Text) :
      Unblocked (a.scopeOf.name :: key :: path) (Entries.mapValues Value.object v) ↔
        Unblocked (key :: path) (v.bucket a.scopeOf) := by
    rw [unblocked_cons, inner_mapValues, and_iff_right]
    intro x hx
    rw [Entries.get?_mapValues] at hx
    obtain ⟨b, -, rfl⟩ := Option.map_eq_some_iff.mp hx
    rfl
  cases a with
  | global p => exact iff_of_true ⟨_, rfl⟩ ((hbucket p []).mpr (unblocked_single _ _))
  | scene p => exact iff_of_true ⟨_, rfl⟩ ((hbucket p []).mpr (unblocked_single _ _))
  | character s p =>
    rw [Address.path, Address.keys, hbucket, unblocked_cons, and_iff_left (unblocked_single _ _),
      ← fieldsUnder?_isSome_iff]
    simp only [Variables.write, Address.scopeOf]
    cases fieldsUnder? (v.bucket .character) s <;> simp
  | relationship s p t =>
    rw [Address.path, Address.keys, hbucket, unblocked_cons, unblocked_cons,
      and_iff_left (unblocked_single _ _), ← fieldsUnder?_isSome_iff, ← fieldsUnder?_isSome_iff]
    simp only [Variables.write, Address.scopeOf]
    cases hs : fieldsUnder? (v.bucket .relationship) s with
    | none => simp
    | some fields =>
      rw [inner_of_fieldsUnder? hs]
      cases hp : fieldsUnder? fields p <;> simp [hp]

namespace Store

theorem start_hasBuckets (given : Option Variables) : (start given).HasBuckets := by
  cases given with
  | none => exact fun scope => by cases scope <;> decide
  | some v => exact v.complete_hasBuckets

theorem run_read (c : Coordinates) (v : Variables) : (read c).run v =
    match c.address with
    | .ok a => .ok (v.read a) v
    | .error e => .error (.address e) v := by
  simp only [read, locate]
  cases c.address <;> rfl

theorem run_write (hv : v.HasBuckets) (c : Coordinates) (value : Value) : (write c value).run v =
    match c.address with
    | .error e => .error (.address e) v
    | .ok a =>
      match v.write a value with
      | .ok w => .ok () w
      | .error e => .error (.write e) v := by
  simp only [write, locate]
  cases hc : c.address with
  | error e => rfl
  | ok a => exact run_assignAt hv a value

/-- What is different after a value was written at some coordinates: it is found there, and nothing
has changed on any path that parts from theirs. -/
structure Writes (c : Coordinates) (value : Value) (v w : Variables) : Prop where
  complete : start (some w) = w
  here : ∀ d : Coordinates, d.Full → d.path = c.path → (read d).run w = .ok value w
  elsewhere : ∀ d : Coordinates, d.Full → d.path ≠ c.path →
    ∃ x, (read d).run v = .ok x v ∧ (read d).run w = .ok x w
  onPath : ∀ rest, w.asValue.at? (c.path ++ rest) = value.at? rest
  offPath : ∀ path, ¬ path <+: c.path → ¬ c.path <+: path →
    w.asValue.at? path = v.asValue.at? path

theorem writes_of_write (hv : v.HasBuckets) (hc : c.path = a.path)
    (h : v.write a value = .ok w) : Writes c value v w := by
  have hput := Variables.asValue_write h
  have hread {d : Coordinates} (hd : d.Full) :
      ∃ b, b.path = d.path ∧ ∀ u, (read d).run u = .ok (u.read b) u := by
    obtain ⟨b, hb, -, hpath⟩ | ⟨e, -, hpartial⟩ := d.address_cases
    · exact ⟨b, hpath, fun u => by rw [run_read, hb]⟩
    · exact (hpartial hd).elim
  refine ⟨?complete, fun d hd hpath => ?here, fun d hd hpath => ?elsewhere, fun rest => ?onPath,
    fun path hprefix hpath => ?offPath⟩
  case complete =>
    have hw : w.HasBuckets := Variables.write_eq_ok h ▸ hv.putBucket _ _
    exact hw.complete
  case here =>
    obtain ⟨b, hb, hrun⟩ := hread hd
    have hab : a = b := Address.path_inj (by rw [hb, hpath, hc])
    rw [hrun, Variables.read_write h, if_pos hab]
  case elsewhere =>
    obtain ⟨b, hb, hrun⟩ := hread hd
    have hab : a ≠ b := fun hab => hpath (by rw [← hb, ← hab, hc])
    refine ⟨v.read b, hrun v, ?_⟩
    rw [hrun, Variables.read_write h, if_neg hab]
  case onPath =>
    rw [hc, hput]
    exact Value.at?_putAt value (List.cons_ne_nil _ _) _ rest
  case offPath =>
    rw [hc] at hprefix hpath
    rw [hput]
    exact Value.at?_putAt_of_parts value _ hprefix hpath

/-- Whatever a store holds, a write succeeds if its coordinates are full and nothing blocks the path,
and changes what is at the end of the path alone. A write that fails leaves the store as it was. A read
never changes it, gives what is at the end of the path, null if there is nothing, and fails over
coordinates that are not full and over nothing else. -/
theorem write_lawful (given : Option Variables) (c : Coordinates) (value : Value) :
    ((∃ w, (write c value).run (start given) = .ok () w) ↔
      c.Full ∧ Unblocked c.path (Entries.mapValues Value.object (start given))) ∧
    (∀ w, (write c value).run (start given) = .ok () w → Writes c value (start given) w) ∧
    (∀ e w, (write c value).run (start given) = .error e w → w = start given ∧
      ((∃ why, e = .address why ∧ ¬ c.Full) ∨ ∃ why, e = .write why ∧ c.Full)) ∧
    ((read c).run (start given) =
        .ok (((start given).asValue.at? c.path).getD .null) (start given) ∧ c.Full ∨
      ∃ why, (read c).run (start given) = .error (.address why) (start given) ∧ ¬ c.Full) := by
  have hbuckets := start_hasBuckets given
  generalize start given = v at hbuckets
  have hwrite := run_write hbuckets c value
  have hread := run_read c v
  obtain ⟨a, ha, hfull, hpath⟩ | ⟨why, he, hpartial⟩ := c.address_cases
  · simp only [ha, Variables.read_eq_at?, hpath] at hwrite hread
    refine ⟨?_, fun w hw => ?_, fun e w hw => ?_, .inl ⟨hread, hfull⟩⟩
    · have hwritten : (∃ w, v.write a value = .ok w) ↔ _ := Variables.exists_write_iff
      rw [and_iff_right hfull, ← hpath, ← hwritten, hwrite]
      cases v.write a value <;> simp
    · rw [hwrite] at hw
      split at hw
      · rename_i next hnext
        cases hw
        exact writes_of_write hbuckets hpath.symm hnext
      · cases hw
    · rw [hwrite] at hw
      split at hw
      · cases hw
      · cases hw
        exact ⟨rfl, .inr ⟨_, rfl, hfull⟩⟩
  · simp only [he] at hwrite hread
    refine ⟨?_, fun w hw => ?_, fun e w hw => ?_, .inr ⟨_, hread, hpartial⟩⟩
    · simp [hwrite, hpartial]
    · rw [hwrite] at hw
      cases hw
    · rw [hwrite] at hw
      cases hw
      exact ⟨rfl, .inl ⟨_, rfl, hpartial⟩⟩

/-- A number in the place of the targets ends a write before anything has changed. -/
example : (write ⟨"relationship", "trust", some "Alice", some "Bob"⟩ (.int 3)).run
      [("relationship", [("Alice", .object [("trust", .int 1)])])] =
    .error (.write .targetsNoObject)
      [("relationship", [("Alice", .object [("trust", .int 1)])])] := by
  rfl

end Store

end Storyworld
