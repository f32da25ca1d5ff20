import Storyworld.Archive

/-! Documents read back as what was written. Each way of building a codec hands this on, so that it
holds of states and checkpoints as a whole; and where all numbers are finite, keeping only the finite
ones changes nothing. The document of a turn or of a checkpoint can be encoded where its texts can. -/

namespace Storyworld

variable {α β σ : Type}

/-- Reading what the codec writes for a value gives the value back. -/
def Codec.Returns (c : Codec α) (a : α) : Prop := c.load (c.dump a) = .accepted a

theorem all_accepted (l : List α) : Checked.all (l.map Checked.accepted) = .accepted l := by
  induction l with
  | nil => rfl
  | cons a l ih => simp only [List.map_cons, Checked.all, ih, Checked.map, Checked.ap]

namespace Codec

variable {c : Codec α}

theorem count_returns (n : Nat) : count.Returns n := by
  have hn : ¬(n : Int) < 0 := by omega
  simp [Returns, count, integer, Value.int, Checked.andThen, hn]

theorem text_returns (s : Text) : text.Returns s := rfl

theorem any_returns (v : Value) : any.Returns v := rfl

theorem optional_returns {a : Option α} (h : ∀ b ∈ a, c.Returns b ∧ c.dump b ≠ .null) :
    (optional c).Returns a := by
  cases a with
  | none => rfl
  | some b =>
    obtain ⟨hb, hn⟩ := h b rfl
    unfold Returns at hb
    simp [Returns, optional, hb, Checked.map]

theorem all_mapIdx {f : Nat → Value → Checked α} {l : List α}
    (h : ∀ i, ∀ a ∈ l, f i (c.dump a) = .accepted a) :
    Checked.all ((l.map c.dump).mapIdx f) = .accepted l := by
  induction l generalizing f with
  | nil => rfl
  | cons a l ih =>
    rw [List.map_cons, List.mapIdx_cons, Checked.all, h 0 a List.mem_cons_self,
      ih fun i b hb => h (i + 1) b (List.mem_cons_of_mem _ hb)]
    rfl

theorem list_returns {l : List α} (h : ∀ a ∈ l, c.Returns a) : (list c).Returns l := by
  refine all_mapIdx fun i a ha => ?_
  rw [h a ha]
  rfl

theorem entries_returns {es : Entries Text α} (h : ∀ e ∈ es, c.Returns e.2) :
    (entries c).Returns es := by
  have hmap : (es.mapValues c.dump).map
      (fun e => ((c.load e.2).under e.1).map fun a => (e.1, a)) = es.map Checked.accepted := by
    rw [Entries.mapValues, List.map_map]
    refine List.map_congr_left fun e he => ?_
    have hload : c.load (c.dump e.2) = .accepted e.2 := h e he
    rw [Function.comp_apply, hload]
    rfl
  exact (congrArg Checked.all hmap).trans (all_accepted es)

end Codec

namespace Record

/-- All that holds the written fields is read as the value. -/
def Returns (r : Record σ α) (s : σ) (a : α) : Prop :=
  ∀ fields : Entries Text Value,
    (∀ key v, (r.dump s).get? key = some v → fields.get? key = some v) →
      r.load fields = .accepted a

theorem make_returns (build : α) (s : σ) : (make build).Returns s build := fun _ _ => rfl

theorem dump_field (r : Record σ (α → β)) (key : Key) (codec : Codec α) (default : Option α)
    (get : σ → α) (s : σ) :
    (r.field key codec default get).dump s = r.dump s ++ [(key.camel, codec.dump (get s))] := rfl

/-- A further field is read back if no field before it has its key. -/
theorem field_returns {r : Record σ (α → β)} {s : σ} {f : α → β} {key : Key} {codec : Codec α}
    {default : Option α} {get : σ → α} (hr : r.Returns s f) (hk : key.camel ∉ (r.dump s).keys)
    (hc : codec.Returns (get s)) : (r.field key codec default get).Returns s (f (get s)) := by
  intro fields hfields
  have hbefore : r.load fields = .accepted f := by
    refine hr fields fun k v hv => hfields k v ?_
    rw [dump_field, Entries.get?_append, hv]
    rfl
  have hfind : key.find? fields = some (key.camel, codec.dump (get s)) := by
    rw [Key.find?, hfields key.camel (codec.dump (get s))]
    rw [dump_field, Entries.get?_append, Entries.get?_eq_none_iff.mpr hk]
    simp [Entries.get?]
  unfold Codec.Returns at hc
  simp [field, hbefore, hfind, hc, Checked.under, Checked.ap, Checked.map]

theorem codec_returns {r : Record σ σ} {s : σ} {check : σ → Checked σ} (hr : r.Returns s s)
    (hs : check s = .accepted s) : (r.codec check).Returns s := by
  simp [Codec.Returns, codec, hr (r.dump s) (fun _ _ h => h), Checked.andThen, hs]

end Record

open Codec Record

theorem texts_return (l : List Text) : (list text).Returns l := list_returns fun s _ => text_returns s

theorem optionalText_returns (a : Option Text) : (optional text).Returns a :=
  optional_returns fun s _ => ⟨text_returns s, by simp [text]⟩

theorem buckets_return (b : Entries Text (Entries Text Value)) : (entries (entries any)).Returns b :=
  entries_returns fun _ _ => entries_returns fun e _ => any_returns e.2

theorem cast_returns (c : Cast) : Cast.codec.Returns c := by
  refine codec_returns ?_ rfl
  refine field_returns (field_returns (field_returns (make_returns _ _) ?_ (texts_return _)) ?_
    (texts_return _)) ?_ (texts_return _)
  all_goals simp [field, make, Entries.keys, Key.plain]

theorem locations_return (l : Locations) : Locations.codec.Returns l := by
  refine codec_returns ?_ rfl
  refine field_returns (field_returns (make_returns _ _) ?_ (optionalText_returns _)) ?_
    (texts_return _)
  all_goals simp [field, make, Entries.keys, Key.plain]

theorem scene_returns (s : Scene) : Scene.codec.Returns s := by
  refine codec_returns ?_ rfl
  refine field_returns (field_returns (make_returns _ _) ?_ (text_returns _)) ?_ (texts_return _)
  all_goals simp [field, make, Entries.keys]

theorem state_returns (s : State) : State.codec.Returns s := by
  refine codec_returns ?_ rfl
  refine field_returns (field_returns (field_returns (field_returns (field_returns
    (make_returns _ _) ?_ (buckets_return _)) ?_ (cast_returns _)) ?_ (locations_return _)) ?_
    (scene_returns _)) ?_ (buckets_return _)
  all_goals simp [field, make, Entries.keys, Key.plain]

theorem checkpoint_returns (c : Checkpoint) : Checkpoint.codec.Returns c := by
  refine codec_returns ?_ rfl
  refine field_returns (field_returns (field_returns (make_returns _ _) ?_ (count_returns _)) ?_
    (state_returns _)) ?_ (optionalText_returns _)
  all_goals simp [field, make, Entries.keys, Key.plain]

mutual

theorem Value.finiteOnly_eq : ∀ v : Value, v.allFinite = true → v.finiteOnly = v
  | .null, _ => rfl
  | .bool _, _ => rfl
  | .text _, _ => rfl
  | .number (.int _), _ => rfl
  | .number (.float x), h => by
    have hx : x.isFinite = true := by simpa only [Value.allFinite] using h
    simp [Value.finiteOnly, hx]
  | .list items, h => by
    rw [Value.finiteOnly, finiteItems_eq items (by simpa only [Value.allFinite] using h)]
  | .object fields, h => by
    rw [Value.finiteOnly, finiteFields_eq fields (by simpa only [Value.allFinite] using h)]

theorem finiteItems_eq : ∀ vs : List Value, allFiniteItems vs = true → finiteItems vs = vs
  | [], _ => rfl
  | v :: vs, h => by
    rw [allFiniteItems, Bool.and_eq_true] at h
    rw [finiteItems, Value.finiteOnly_eq v h.1, finiteItems_eq vs h.2]

theorem finiteFields_eq : ∀ fs : List (Text × Value), allFiniteFields fs = true →
    finiteFields fs = fs
  | [], _ => rfl
  | (k, v) :: fs, h => by
    rw [allFiniteFields, Bool.and_eq_true] at h
    rw [finiteFields, Value.finiteOnly_eq v h.1, finiteFields_eq fs h.2]

end

mutual

theorem Value.allFinite_finiteOnly : ∀ v : Value, v.finiteOnly.allFinite = true
  | .null => rfl
  | .bool _ => rfl
  | .text _ => rfl
  | .number (.int _) => rfl
  | .number (.float x) => by
    rw [Value.finiteOnly]
    split
    · assumption
    · rfl
  | .list items => allFinite_finiteItems items
  | .object fields => allFinite_finiteFields fields

theorem allFinite_finiteItems : ∀ vs : List Value, allFiniteItems (finiteItems vs) = true
  | [] => rfl
  | v :: vs => by
    rw [finiteItems, allFiniteItems, Value.allFinite_finiteOnly v, allFinite_finiteItems vs]
    rfl

theorem allFinite_finiteFields : ∀ fs : List (Text × Value),
    allFiniteFields (finiteFields fs) = true
  | [] => rfl
  | (_, v) :: fs => by
    rw [finiteFields, allFiniteFields, Value.allFinite_finiteOnly v, allFinite_finiteFields fs]
    rfl

end

/-- A value is kept as it is exactly where every number in it is finite. -/
theorem Value.finiteOnly_eq_iff {v : Value} : v.finiteOnly = v ↔ v.allFinite = true :=
  ⟨fun h => h ▸ v.allFinite_finiteOnly, v.finiteOnly_eq⟩

theorem allFiniteItems_iff {vs : List Value} :
    allFiniteItems vs = true ↔ ∀ v ∈ vs, v.allFinite = true := by
  induction vs with
  | nil => simp [allFiniteItems]
  | cons v vs ih => simp [allFiniteItems, ih]

theorem allFiniteFields_iff {fs : Entries Text Value} :
    allFiniteFields fs = true ↔ ∀ e ∈ fs, e.2.allFinite = true := by
  induction fs with
  | nil => simp [allFiniteFields]
  | cons e fs ih => simp only [allFiniteFields, Bool.and_eq_true, ih, List.forall_mem_cons]

/-- Every number among the values that the state holds is finite. -/
def State.Finite (s : State) : Prop :=
  (∀ b ∈ s.values, ∀ e ∈ b.2, e.2.allFinite = true) ∧
    ∀ b ∈ s.entitiesRuntime, ∀ e ∈ b.2, e.2.allFinite = true

instance (s : State) : Decidable s.Finite := inferInstanceAs (Decidable (_ ∧ _))

theorem finite_texts (l : List Text) : ((list text).dump l).allFinite = true := by
  simp [list, text, Value.allFinite, allFiniteItems_iff]

theorem finite_optionalText (a : Option Text) :
    ((Codec.optional text).dump a).allFinite = true := by
  cases a <;> simp [Codec.optional, text, Value.allFinite]

theorem finiteFields_eq_mapValues (fs : Entries Text Value) :
    finiteFields fs = fs.mapValues Value.finiteOnly := by
  induction fs with
  | nil => rfl
  | cons e fs ih =>
    rw [finiteFields, ih]
    rfl

/-- The buckets with null for every number that is not finite. -/
def finiteBuckets (b : Entries Text (Entries Text Value)) : Entries Text (Entries Text Value) :=
  b.mapValues fun fields => fields.mapValues Value.finiteOnly

/-- The state with null for every number that is not finite. -/
def State.finiteOnly (s : State) : State :=
  { s with
    values := finiteBuckets s.values
    entitiesRuntime := finiteBuckets s.entitiesRuntime }

theorem finiteOnly_buckets (b : Entries Text (Entries Text Value)) :
    ((entries (entries any)).dump b).finiteOnly =
      (entries (entries any)).dump (finiteBuckets b) := by
  simp [entries, any, finiteBuckets, Value.finiteOnly, finiteFields_eq_mapValues,
    Entries.mapValues, Function.comp_def]

theorem finiteOnly_checkpoint (c : Checkpoint) : (Checkpoint.codec.dump c).finiteOnly =
    Checkpoint.codec.dump { c with state := c.state.finiteOnly } := by
  have htexts (l : List Text) := Value.finiteOnly_eq _ (finite_texts l)
  have htext (a : Option Text) := Value.finiteOnly_eq _ (finite_optionalText a)
  simp [Checkpoint.codec, State.codec, Cast.codec, Locations.codec, Scene.codec, Record.codec,
    field, make, Value.finiteOnly, finiteFields, htexts, htext, finiteOnly_buckets,
    State.finiteOnly]
  simp [count, text, Value.int, Value.finiteOnly]

/-- A checkpoint is kept with null for every number in its state that is not finite. -/
theorem load_finiteOnly (c : Checkpoint) :
    Checkpoint.codec.load (Checkpoint.codec.dump c).finiteOnly =
      .accepted { c with state := c.state.finiteOnly } := by
  rw [finiteOnly_checkpoint]
  exact checkpoint_returns _

theorem mapValues_eq_self {α : Type} {es : Entries Text α} {f : α → α} :
    es.mapValues f = es ↔ ∀ e ∈ es, f e.2 = e.2 := by
  induction es with
  | nil => simp [Entries.mapValues]
  | cons e es ih =>
    rw [List.forall_mem_cons, ← ih]
    simp [Entries.mapValues, Prod.ext_iff]

theorem finiteBuckets_eq_iff {b : Entries Text (Entries Text Value)} :
    finiteBuckets b = b ↔ ∀ e ∈ b, ∀ f ∈ e.2, f.2.allFinite = true := by
  simp only [finiteBuckets, mapValues_eq_self, Value.finiteOnly_eq_iff]

theorem State.finiteOnly_eq_iff {s : State} : s.finiteOnly = s ↔ s.Finite := by
  rw [State.Finite, ← finiteBuckets_eq_iff, ← finiteBuckets_eq_iff]
  cases s
  simp [State.finiteOnly]

/-- A checkpoint of a finite state is kept as it is. -/
theorem load_kept_checkpoint {c : Checkpoint} (h : c.state.Finite) :
    Checkpoint.codec.load (Checkpoint.codec.dump c).finiteOnly = .accepted c := by
  rw [load_finiteOnly, State.finiteOnly_eq_iff.mpr h]

theorem isPlain_optionalText (a : Option Text) :
    ((Codec.optional text).dump a).isPlain = a.all (·.isPlain) := by
  cases a <;> rfl

/-- The document of a turn can be encoded exactly if its texts can. -/
theorem isPlain_turn (t : Turn) : (Turn.codec.dump t).isPlain = t.isPlain := by
  have hrole : (Role.codec.dump t.role).isPlain = true := by cases t.role <;> rfl
  simp only [Turn.codec, Record.codec, field, make, Key.plain, List.nil_append, List.cons_append,
    Value.isPlain, plainFields, Text.isPlain_ofString, hrole, isPlain_optionalText, Turn.isPlain]
  simp [count, text, Value.int, Value.isPlain]

theorem isPlain_turns (ts : List Turn) :
    ((list Turn.codec).dump ts).isPlain = ts.all (·.isPlain) := by
  simp only [list, Value.isPlain, plainItems_eq_all, List.all_map, Function.comp_def, isPlain_turn]

theorem isHalf_hexDigit : ∀ n < 16, (hexDigit n).isHalf = false := by decide

theorem isHalf_hexDigits (width n : Nat) : ∀ c ∈ hexDigits width n, c.isHalf = false := by
  induction width generalizing n with
  | zero => nofun
  | succ width ih =>
    intro c hc
    rcases List.mem_append.mp hc with hc | hc
    · exact ih (n / 16) c hc
    · rw [List.mem_singleton.mp hc]
      exact isHalf_hexDigit _ (Nat.mod_lt _ (by decide))

theorem isPlain_fingerprint (bytes : List UInt8) : (fingerprint bytes).isPlain = true := by
  rw [Text.isPlain, List.all_eq_true]
  intro c hc
  obtain ⟨b, -, hb⟩ := List.mem_flatMap.mp hc
  simp [isHalf_hexDigits 2 _ c hb]

/-- The document of a checkpoint can be encoded exactly if its state and its digest can. -/
theorem Checkpoint.isPlain_eq (c : Checkpoint) :
    c.isPlain = (c.state.isPlain && c.digest.all (·.isPlain)) := by
  simp only [Checkpoint.isPlain, State.isPlain, Checkpoint.codec, Record.codec, field, make,
    Key.plain, List.nil_append, List.cons_append, Value.isPlain, plainFields,
    Text.isPlain_ofString, isPlain_optionalText]
  simp [count, Value.int, Value.isPlain, State.codec, Record.codec]

end Storyworld
