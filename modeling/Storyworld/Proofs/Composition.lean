import Storyworld.Proofs.Independence

/-! Blocks compose. The intents of two blocks, put together into one, do what the blocks do one after
the other, and fail where they fail: no kind of intent reads what another one writes, and buckets that
the first block completes stay complete. -/

namespace Storyworld

/-- What the later of two updates leaves open is as in the earlier one. -/
def SceneUpdate.append (earlier later : SceneUpdate) : SceneUpdate :=
  ⟨later.locationHint.or earlier.locationHint, later.sceneTags.or earlier.sceneTags⟩

/-- The intents of both blocks in one. -/
def Block.append (p q : Block) : Block where
  mutations := p.mutations ++ q.mutations
  cast := p.cast ++ q.cast
  locations := p.locations ++ q.locations
  scene := p.scene.merge SceneUpdate.append q.scene

variable {card : Card} {s : State} {v w : Variables} {m : Mutation} {ms : List Mutation}

namespace Variables

/-- The step by which the buckets are completed. -/
def addBucket (v : Variables) (scope : Scope) : Variables :=
  if (Entries.get? scope.name v).isSome then v else v ++ [(scope.name, [])]

theorem isSome_addBucket (v : Variables) (scope t : Scope) :
    (Entries.get? t.name (v.addBucket scope)).isSome ↔
      scope = t ∨ (Entries.get? t.name v).isSome := by
  rw [addBucket]
  by_cases hst : scope = t
  · subst hst
    split <;> simp_all [Entries.get?_append, Entries.get?]
  · have hname : scope.name ≠ t.name := fun h => hst (name_inj h)
    split <;> simp [Entries.get?_append, Entries.get?, hst, hname]

theorem isSome_addBuckets (scopes : List Scope) (v : Variables) (t : Scope) :
    (Entries.get? t.name (scopes.foldl addBucket v)).isSome ↔
      t ∈ scopes ∨ (Entries.get? t.name v).isSome := by
  induction scopes generalizing v with
  | nil => simp
  | cons scope scopes ih =>
    rw [List.foldl_cons, ih, isSome_addBucket, List.mem_cons, eq_comm (a := t)]
    exact or_left_comm.trans or_assoc.symm

theorem complete_hasBuckets (v : Variables) : v.complete.HasBuckets := by
  intro t
  exact (isSome_addBuckets Scope.all v t).mpr (.inl (by cases t <;> decide))

theorem HasBuckets.putBucket (h : v.HasBuckets) (scope : Scope) (b : Entries Text Value) :
    (v.putBucket scope b).HasBuckets := by
  intro t
  rw [Variables.putBucket, Entries.get?_put]
  split
  · rfl
  · exact h t

end Variables

namespace Card

/-- A mutation leaves the variables alone, or writes to them once. -/
theorem mutate_eq_or_write (h : card.mutate v m = .ok w) :
    w = v ∨ ∃ a value, v.write a value = .ok w := by
  simp only [mutate] at h
  split at h
  · cases h
  · split at h
    · cases h
    · rename_i a _
      split at h
      · exact .inl (Except.ok.inj h).symm
      · cases h
      · cases h
      · rename_i value _
        exact .inr ⟨a, value, writeTo_eq_ok h⟩

theorem mutate_hasBuckets (hv : v.HasBuckets) (h : card.mutate v m = .ok w) : w.HasBuckets := by
  obtain rfl | ⟨a, value, hwrite⟩ := mutate_eq_or_write h
  · exact hv
  · rw [Variables.write_eq_ok hwrite]
    exact hv.putBucket _ _

/-- A run of mutations from complete buckets ends with complete ones. -/
theorem foldlM_mutate_hasBuckets (hv : v.HasBuckets) (h : ms.foldlM card.mutate v = .ok w) :
    w.HasBuckets :=
  (Ends.foldlM (Q := fun _ => True) hv fun _ _ _ hu =>
    ⟨fun hstep => mutate_hasBuckets hu hstep, fun _ => trivial⟩).of_ok h

end Card

namespace State

/-- What a block does apart from its mutations. -/
def stage (config : CastConfig) (s : State) (b : Block) : State :=
  ((s.applyLocations config b.locations).applyCast config b.cast).applyScene b.scene

/-- The other intents do not read the values. -/
theorem stage_withValues (config : CastConfig) (s : State) (b : Block) (v : Variables) :
    ({ s with values := v } : State).stage config b = { s.stage config b with values := v } := by
  rw [stage, stage]
  cases b.scene <;> rfl

theorem applyScene_merge (s : State) (u w : Option SceneUpdate) :
    s.applyScene (u.merge SceneUpdate.append w) = (s.applyScene u).applyScene w := by
  rcases u with - | ⟨hint, tags⟩ <;> rcases w with - | ⟨hint', tags'⟩
  case some.some =>
    cases hint' <;> cases tags' <;> rfl
  all_goals rfl

theorem stage_append (config : CastConfig) (s : State) (p q : Block) :
    s.stage config (p.append q) = (s.stage config p).stage config q := by
  rw [stage, Block.append, applyScene_merge]
  simp only [stage, applyLocations, applyCast, List.foldl_append]
  cases p.scene <;> rfl

theorem applyParsed_eq_bind (card : Card) (s : State) (b : Block) : s.applyParsed card b =
      b.mutations.foldlM card.mutate s.values.complete >>= fun v =>
        .ok { s.stage card.castConfig b with values := v } := by
  refine bind_congr fun v => ?_
  rw [← stage_withValues]
  rfl

theorem applyParsed_append (card : Card) (s : State) (p q : Block) :
    s.applyParsed card (p.append q) = s.applyParsed card p >>= fun t => t.applyParsed card q := by
  rw [applyParsed_eq_bind, applyParsed_eq_bind, stage_append, Block.append, List.foldlM_append]
  cases hv : p.mutations.foldlM card.mutate s.values.complete with
  | error e => rfl
  | ok v =>
    let t : State := { s.stage card.castConfig p with values := v }
    have hcomplete : t.values.complete = v :=
      (Card.foldlM_mutate_hasBuckets s.values.complete_hasBuckets hv).complete
    have hnext : t.applyParsed card q = q.mutations.foldlM card.mutate v >>= fun w =>
        .ok { (s.stage card.castConfig p).stage card.castConfig q with values := w } := by
      rw [applyParsed_eq_bind, hcomplete, stage_withValues]
    exact hnext.symm

theorem foldlM_applyParsed (card : Card) (s : State) (p : Block) (rest : List Block) :
    (p :: rest).foldlM (fun t b => t.applyParsed card b) s =
      s.applyParsed card (rest.foldl Block.append p) := by
  induction rest generalizing p with
  | nil => simp
  | cons b rest ih =>
    rw [List.foldl_cons, ← ih]
    simp only [List.foldlM_cons, applyParsed_append, bind_assoc]

/-- Texts that can be read do what their blocks do. -/
theorem foldlM_applyText {texts : List Text} {blocks : List Block}
    (h : texts.mapM card.parse = .ok blocks) (s : State) :
    texts.foldlM (fun t text => t.applyText card text) s =
      blocks.foldlM (fun t b => t.applyParsed card b) s := by
  induction texts generalizing blocks s with
  | nil =>
    obtain rfl : [] = blocks := Except.ok.inj h
    rfl
  | cons text texts ih =>
    rw [List.mapM_cons] at h
    obtain ⟨b, hb, h⟩ := bind_eq_ok h
    obtain ⟨bs, hbs, h⟩ := bind_eq_ok h
    obtain rfl : b :: bs = blocks := Except.ok.inj h
    have hstep : s.applyText card text = s.applyParsed card b := by
      rw [applyText, hb]
    rw [List.foldlM_cons, List.foldlM_cons, hstep]
    exact bind_congr fun t => ih hbs t

/-- Two blocks in one do to any state what they do one after the other, up to the failure, if there
is one. So it does not matter over how many turns the intents of a block are spread. -/
theorem applyParsed_composes (card : Card) (s : State) (p q : Block) :
    s.applyParsed card (p.append q) = (s.applyParsed card p >>= fun t => t.applyParsed card q) ∧
      ∀ (texts : List Text) (rest : List Block), texts.mapM card.parse = .ok (p :: rest) →
        texts.foldlM (fun t text => t.applyText card text) s =
          s.applyParsed card (rest.foldl Block.append p) := by
  refine ⟨applyParsed_append card s p q, fun texts rest htexts => ?_⟩
  rw [foldlM_applyText htexts, foldlM_applyParsed]

end State

end Storyworld
