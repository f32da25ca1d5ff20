import Storyworld.Proofs.Twins

/-! Requests that only read. The checkpoints that they leave behind are all that they change, and no
answer to a later request depends on these: it is the same as if they had not been made. -/

namespace Storyworld

namespace Service

open Files (Twins left)

variable {f g : Files} {a b : Archive} {slug : String}

/-- A request that reads, or tries out a text. -/
def Reads (r : Request) : Prop :=
  r.method = "GET" ∨ r.method = "POST" ∧ ∃ slug, endpoint? r.path = some (.preview slug)

theorem Reads.asks {r : Request} {op : Operation} (h : Reads r) (hop : operation? r = some op) :
    ∃ slug index, op = .ask slug index := by
  unfold operation? at hop
  rcases h with hget | ⟨hpost, slug, hpreview⟩
  · rw [hget] at hop
    split at hop
    case h_6 slug _ _ =>
      obtain ⟨index, -, rfl⟩ := Option.map_eq_some_iff.mp hop
      exact ⟨slug, index, rfl⟩
    case h_7 slug _ _ _ =>
      obtain ⟨index, -, rfl⟩ := Option.map_eq_some_iff.mp hop
      exact ⟨slug, index, rfl⟩
    case h_9 => cases hop
    all_goals contradiction
  · rw [hpost, hpreview] at hop
    obtain ⟨b, -, rfl⟩ := Option.map_eq_some_iff.mp hop
    exact ⟨slug, b.index, rfl⟩

/-- The state that a request asks for, as replay from the beginning gives it. -/
def replayed? (f : Files) (r : Request) : Option State :=
  match operation? r with
  | some (.ask slug index) =>
    match (Files.opened slug).run f, (Files.turns slug).run f with
    | .ok (some (card, initial)) _, .ok ts _ =>
      (plainStateAt card initial ts (askedIndex ts index)).toOption
    | _, _ => none
  | _ => none

/-- A checkpoint can hold every state that is replayed for some requests. -/
def ReplaysStorable : Files → List Request → Prop
  | _, [] => True
  | f, r :: rs => (∀ s ∈ replayed? f r, s.Storable) ∧ ReplaysStorable (left (handle r) f) rs

instance decidableReplaysStorable :
    (f : Files) → (rs : List Request) → Decidable (ReplaysStorable f rs)
  | _, [] => inferInstanceAs (Decidable True)
  | f, r :: rs =>
    have := decidableReplaysStorable (left (handle r) f) rs
    inferInstanceAs (Decidable (_ ∧ _))

def answer : EStateM.Result ArchiveError Files Response → Except ArchiveError Response
  | .ok resp _ => .ok resp
  | .error e _ => .error e

/-- The answers to those requests that are marked. -/
def answers (f : Files) : List (Request × Bool) → List (Except ArchiveError Response)
  | [] => []
  | (r, marked) :: rs =>
    let rest := answers (left (handle r) f) rs
    if marked then answer ((handle r).run f) :: rest else rest

theorem replayed?_of_keep (h : f.Keep a) {r : Request} {index : Option Int}
    (hop : operation? r = some (.ask slug index)) : replayed? f r = a.replayed? slug index := by
  simp only [replayed?, hop, h.run_opened, h.run_turns, Archive.replayed?]
  rcases a.opened slug with e | _ | ⟨card, initial⟩
  · rfl
  · rfl
  · cases a.turns slug <;> rfl

/-- A reading leaves twins of what was there. -/
theorem twins_of_reading (h : Twins f g a b) {r : Request} (hreads : Reads r)
    (hstorable : ∀ s ∈ replayed? f r, s.Storable) : ∃ a', Twins (left (handle r) f) g a' b := by
  have hends := ends_handle h.left r
  have hask : ∀ op k, operation? r = some op → k.Keep (a.after op) → ∃ a', Twins k g a' b := by
    intro op k hop hk
    obtain ⟨slug, index, rfl⟩ := hreads.asks hop
    rw [replayed?_of_keep h.left hop] at hstorable
    have hadm : a.Admits (.ask slug index) := fun s hs => (hstorable s hs).1
    refine ⟨_, hk, h.right, Archive.sound_after h.soundLeft hadm, h.soundRight, ?_⟩
    rw [← h.bare]
    exact a.state_bare slug index
  unfold left
  generalize hop : operation? r = op at hends
  generalize (handle r).run f = result at hends
  cases hends with
  | read | refused | failed => exact ⟨a, h⟩
  | broken hbroken => exact hask _ _ hop (h.left.broken hbroken)
  | done _ hdone _ => exact hask _ _ hop (h.left.performed hdone)
  | asked _ hdone => exact hask _ _ hop (h.left.performed hdone)
  | askedInVain _ hdone => exact hask _ _ hop (h.left.performed hdone)

theorem alike_step (h : Twins f g a b) {r : Request}
    (hstorable : ∀ s ∈ replayed? f r, s.Storable) :
    answer ((handle r).run f) = answer ((handle r).run g) ∧
      ∃ a' b', Twins (left (handle r) f) (left (handle r) g) a' b' := by
  have halike := alike_handle h fun _ _ hop => replayed?_of_keep h.left hop ▸ hstorable
  unfold left
  cases hf : (handle r).run f <;> cases hg : (handle r).run g <;> rw [hf, hg] at halike
  · exact ⟨congrArg Except.ok halike.1, halike.2⟩
  · exact halike.elim
  · exact halike.elim
  · exact ⟨congrArg Except.error halike.1, halike.2⟩

theorem answers_of_twins (h : Twins f g a b) {rs : List (Request × Bool)}
    (hreads : ∀ r ∈ rs, r.2 = false → Reads r.1)
    (hstorable : ReplaysStorable f (rs.map Prod.fst)) :
    answers f rs = answers g (rs.filter Prod.snd) := by
  induction rs generalizing f g a b with
  | nil => rfl
  | cons r rs ih =>
    obtain ⟨r, marked⟩ := r
    have hrest := fun x hx => hreads x (List.mem_cons_of_mem _ hx)
    cases marked with
    | false =>
      -- Only the longer run makes this reading, and it leaves twins of what the other run has.
      obtain ⟨a', htwins⟩ := twins_of_reading h (hreads (r, false) List.mem_cons_self rfl) hstorable.1
      exact ih htwins hrest hstorable.2
    | true =>
      obtain ⟨hanswer, a', b', htwins⟩ := alike_step h hstorable.1
      have hnext := ih htwins hrest hstorable.2
      simp only [answers, if_true, List.filter_cons_of_pos, hanswer, hnext]

/-- Whatever operations came before, the answers to requests are the same without the readings among
them. A checkpoint has to be able to hold every state that is replayed, and one from outside has to be
one that replay confirms. -/
theorem answers_without_readings {ops : List Operation} {rs : List (Request × Bool)}
    (hops : Archive.empty.AdmitsAll ops) (hreads : ∀ r ∈ rs, r.2 = false → Reads r.1)
    (hstorable : ReplaysStorable (Files.empty.run ops) (rs.map Prod.fst)) :
    answers (Files.empty.run ops) rs = answers (Files.empty.run ops) (rs.filter Prod.snd) := by
  have hempty : Archive.empty.All Conversation.Sound := fun _ _ hc => by cases hc
  have hkeep : (Files.empty.run ops).Keep (Archive.empty.run ops) := Files.keep_empty.run ops
  have hsound := Archive.sound_run hempty hops
  exact answers_of_twins ⟨hkeep, hkeep, hsound, hsound, rfl⟩ hreads hstorable

end Service

namespace Demo

/-- A rainy conversation with readings in between, before and after its only turn is edited. -/
def rainReadings : List (Request × Bool) :=
  rainRequests.map (·, true) ++ [
    (⟨"GET", "/api/conversations/rain/state", [], none⟩, false),
    (⟨"PATCH", "/api/conversations/rain/turns/0", [], some (.object
      [("parse_output", .text "set(weather, fog)")])⟩, true),
    (⟨"POST", "/api/conversations/rain/preview", [], some (.object
      [("text", .text "set(weather, snow)")])⟩, false),
    (⟨"GET", "/api/conversations/rain/parameters/weather", [], none⟩, true)]

theorem rainReadings_unnoticed :
    Archive.empty.AdmitsAll [.create name card] ∧
      (∀ r ∈ rainReadings, r.2 = false → Service.Reads r.1) ∧
      Service.ReplaysStorable (Files.empty.run [.create name card]) (rainReadings.map Prod.fst) ∧
      Service.answers (Files.empty.run [.create name card]) rainReadings =
        Service.answers (Files.empty.run [.create name card]) (rainReadings.filter Prod.snd) := by
  have hops : Archive.empty.AdmitsAll [.create name card] := ⟨trivial, trivial⟩
  have hreads : ∀ r ∈ rainReadings, r.2 = false → Service.Reads r.1 := by
    intro r hr hmarked
    simp only [rainReadings, rainRequests, List.map_cons, List.map_nil, List.cons_append,
      List.nil_append, List.mem_cons, List.not_mem_nil, or_false] at hr
    rcases hr with rfl | rfl | rfl | rfl | rfl | rfl
    · cases hmarked
    · cases hmarked
    · exact .inl rfl
    · cases hmarked
    · exact .inr ⟨rfl, "rain", by decide +kernel⟩
    · cases hmarked
  have hstorable : Service.ReplaysStorable (Files.empty.run [.create name card])
      (rainReadings.map Prod.fst) := by decide +kernel
  exact ⟨hops, hreads, hstorable, Service.answers_without_readings hops hreads hstorable⟩

end Demo

end Storyworld
