import Storyworld.Proofs.LedgerInFiles
import Storyworld.Service

/-! What a request leaves behind. It is answered with success where the operation that it asks for
was carried out, and everything that is stored is as before where it is refused, except that a
checkpoint may have been added. So it is where a request is not answered, unless this broke off a
history. -/

namespace Storyworld

namespace Files

variable {f g : Files} {a : Archive} {slug : String} {α : Type}

/-- Work that follows an attempt ends as it does, also without its answer. -/
theorem Follows.run_cases {x : Filing α} {r : Except ArchiveError α × Archive}
    (hx : f.Follows a x r) :
    (∃ v g, r.1 = .ok v ∧ x.run f = .ok v g ∧ (discard x).run f = .ok () g) ∨
      ∃ e g, r.1 = .error e ∧ x.run f = .error e g ∧ (discard x).run f = .error e g ∧
        (e ≠ .unencodable → g = f) := by
  rcases r with ⟨e | v, b⟩
  · obtain ⟨g, hrun, -, hleft⟩ := hx
    refine .inr ⟨e, g, rfl, hrun, by rw [run_discard, hrun], fun he => ?_⟩
    exact hleft.elim (fun h => absurd h he) And.left
  · obtain ⟨g, hrun, -⟩ := hx
    exact .inl ⟨v, g, rfl, hrun, by rw [run_discard, hrun]⟩

/-- The same card and the same history under every slug. -/
def Same (f g : Files) : Prop :=
  ∀ slug, g.cards.get? slug = f.cards.get? slug ∧ g.historyOf slug = f.historyOf slug

namespace Keep

theorem performed (h : f.Keep a) {op : Operation} (hdone : (Files.perform op).run f = .ok () g) :
    g.Keep (a.after op) := by
  have hg := h.left op
  rw [Files.left, hdone] at hg
  exact hg

theorem broken (h : f.Keep a) {op : Operation} {e : ArchiveError}
    (hbroken : (Files.perform op).run f = .error e g) : g.Keep (a.after op) := by
  have hg := h.left op
  rw [Files.left, hbroken] at hg
  exact hg

theorem same_asked (h : f.Keep a) {index : Option Int}
    (hdone : (Files.perform (.ask slug index)).run f = .ok () g) : f.Same g := by
  have hg : g.Keep (a.state slug index).2 := h.performed hdone
  rcases a.state_snd slug index with hsame | ⟨p, hsave⟩
  · rw [hsame] at hg
    intro other
    simp only [Files.historyOf, hg.cards, h.cards, hg.folders, h.folders, and_self]
  · obtain ⟨-, c, hc, hput⟩ := Archive.saveCheckpoint_eq_ok.mp hsave
    rw [hput] at hg
    intro other
    simp only [Files.historyOf, hg.cards, h.cards, hg.folders, h.folders, Entries.get?_put]
    by_cases ho : slug = other
    · simp [← ho, hc, Conversation.setCheckpoint, Conversation.folder]
    · simp [ho]

end Keep

end Files

namespace Archive

variable {a : Archive} {slug : String} {t : Turn}

theorem rewrite_eq_ok {α : Type} {turns : List Turn} {settle : Conversation → Conversation} {v w : α}
    (h : (a.rewrite slug turns settle v).1 = .ok w) : turns.all (·.isPlain) = true ∧ w = v := by
  rcases a.rewrite_cases slug turns settle v with ⟨-, hr⟩ | ⟨c, -, ⟨hplain, hr⟩ | ⟨-, hr⟩⟩ <;>
    rw [hr] at h <;> cases h
  exact ⟨hplain, rfl⟩

theorem attempted_eq_ok {ε α : Type} {r : Except ε (α × Archive)} {v : α}
    (h : (a.attempted r).1 = .ok v) : r = .ok (v, (a.attempted r).2) := by
  cases r with
  | error e => cases h
  | ok p =>
    cases h
    rfl

/-- A turn that was written can be shown. -/
theorem append_plain {role text parseOutput : Value}
    (h : (a.append slug role text parseOutput).1 = .ok t) : t.isPlain = true := by
  unfold append at h
  split at h
  · cases h
  split at h
  · cases h
  · obtain ⟨hplain, rfl⟩ := rewrite_eq_ok h
    exact List.all_eq_true.mp hplain _ (List.mem_append_right _ List.mem_cons_self)

theorem update_plain {index : Int} {changes : Entries Text Value}
    (h : (a.update slug index changes).1 = .ok t) : t.isPlain = true := by
  unfold update at h
  split at h
  · cases h
  split at h
  · cases h
  split at h
  · cases h
  split at h
  · cases h
  · rename_i hold _ t _
    obtain ⟨hplain, rfl⟩ := rewrite_eq_ok h
    obtain ⟨hi, -⟩ := List.getElem?_eq_some_iff.mp hold
    exact List.all_eq_true.mp hplain _ (List.mem_set hi t)

theorem truncate_plain {length : Int} {turns : List Turn}
    (h : (a.truncate slug length).1 = .ok turns) : turns.all (·.isPlain) = true := by
  unfold truncate at h
  split at h
  · cases h
  · obtain ⟨hplain, rfl⟩ := rewrite_eq_ok h
    exact hplain

end Archive

namespace Service

open Files (left perform)

variable {f g : Files} {a : Archive} {slug : String} {α : Type}

/-- The operation that a request asks for, if it is not one that only reads and all its parts can be
read. -/
def operation? (r : Request) : Option Operation :=
  match endpoint? r.path, r.method with
  | some .conversations, "POST" =>
    (readBody CreateBody.codec r.body).toOption.map fun b => .create b.name b.card
  | some (.conversation slug), "DELETE" => some (.delete slug)
  | some (.turns slug), "POST" => (readBody AppendBody.codec r.body).toOption.map fun b =>
      .append slug (.text b.role.name) (.text b.text) ((Codec.optional .text).dump b.parseOutput)
  | some (.turn slug index), "PATCH" =>
    (((readIndex "path" index).map Prod.mk).ap (readBody UpdateBody.codec r.body)).toOption.map
      fun (i, b) => .update slug i b.changes
  | some (.turn slug index), "DELETE" =>
    (readIndex "path" index).toOption.map fun i => .truncate slug i
  | some (.state slug), "GET" | some (.parameter slug _), "GET" =>
    (readQueryIndex r.query).toOption.map fun index => .ask slug index
  | some (.preview slug), "POST" =>
    (readBody PreviewBody.codec r.body).toOption.map fun b => .ask slug b.index
  | _, _ => none

def CarriedOut : Option Operation → Files → Files → Prop
  | none, f, g => g = f
  | some op, f, g => (perform op).run f = .ok () g

/-- How a request can end that asks for an operation, or only reads. -/
inductive Ends (f : Files) : Option Operation → EStateM.Result ArchiveError Files Response → Prop
  | read (resp : Response) : Ends f none (.ok resp f)
  | refused (op : Option Operation) (resp : Response) : 400 ≤ resp.status → Ends f op (.ok resp f)
  | failed (op : Option Operation) (e : ArchiveError) : Ends f op (.error e f)
  | broken {op : Operation} {g : Files} {e : ArchiveError} : (perform op).run f = .error e g →
      Ends f (some op) (.error e g)
  | done {op : Operation} {g : Files} (resp : Response) : (perform op).run f = .ok () g →
      resp.status < 400 → Ends f (some op) (.ok resp g)
  | asked {slug : String} {index : Option Int} {g : Files} (resp : Response) :
      (perform (.ask slug index)).run f = .ok () g → Ends f (some (.ask slug index)) (.ok resp g)
  | askedInVain {slug : String} {index : Option Int} {g : Files} (e : ArchiveError) :
      (perform (.ask slug index)).run f = .ok () g → Ends f (some (.ask slug index)) (.error e g)

theorem run_respond (status : Nat) (body : Value) (f : Files) :
    (respond status body).run f =
      if body.isPlain then .ok ⟨status, body.finiteOnly⟩ f else .error .unencodable f := by
  unfold respond
  split <;> rfl

theorem ends_rejected (op : Option Operation) {status : Nat} (h : 400 ≤ status) (body : Value) :
    Ends f op ((respond status body).run f) := by
  rw [run_respond]
  split
  · exact .refused op _ h
  · exact .failed op _

theorem ends_refusal (op : Option Operation) {status : Nat} (reason : Text) (h : 400 ≤ status) :
    Ends f op ((refusal status reason).run f) := ends_rejected op h _

theorem ends_shown (status : Nat) (body : Value) : Ends f none ((respond status body).run f) := by
  rw [run_respond]
  split
  · exact .read _
  · exact .failed none _

theorem ends_respond {op : Operation} {status : Nat} {body : Value} (hbody : body.isPlain = true)
    (hdone : (perform op).run f = .ok () g) (h : status < 400) :
    Ends f (some op) ((respond status body).run g) := by
  rw [run_respond, if_pos hbody]
  exact .done _ hdone h

theorem ends_unprocessable (op : Option Operation) (body : Option Value) (problems : List Problem) :
    Ends f op ((unprocessable body problems).run f) := by
  unfold unprocessable
  dsimp only
  split
  · exact .failed op _
  · split
    · exact .failed op _
    · exact ends_rejected op (by decide) _

theorem ends_withRead {read : Checked α} {body : Option Value} {k : α → Reply} {op : α → Operation}
    (hk : ∀ x, Ends f (some (op x)) ((k x).run f)) :
    Ends f (read.toOption.map op) ((withRead read body k).run f) := by
  cases read with
  | accepted x => exact hk x
  | refused problems => exact ends_unprocessable _ body problems

theorem ends_withOpened (h : f.Keep a) {op : Option Operation} {k : Card → State → Reply}
    (hk : ∀ card initial, a.opened slug = .ok (some (card, initial)) →
      Ends f op ((k card initial).run f)) : Ends f op ((withOpened slug k).run f) := by
  have hopened := h.run_opened slug
  unfold withOpened
  rw [EStateM.run_bind, hopened]
  cases ho : a.opened slug with
  | error e => exact .failed op e
  | ok found =>
    cases found with
    | none => exact ends_refusal op _ (by decide)
    | some p => exact hk p.1 p.2 ho

theorem ends_faultReply (op : Option Operation) (fault : Fault) :
    Ends f op ((faultReply fault).run f) := by
  unfold faultReply
  cases fault.message? with
  | none => exact .failed op _
  | some reason => exact ends_refusal op reason (by decide)

theorem left_respond (status : Nat) (body : Value) (f : Files) :
    left (respond status body) f = f := by
  rw [left, run_respond]
  split <;> rfl

theorem left_faultReply (fault : Fault) (f : Files) : left (faultReply fault) f = f := by
  unfold faultReply
  cases fault.message? with
  | none => rfl
  | some reason => exact left_respond 400 _ f

/-- Work that leaves the files alone once the state is there. -/
theorem ends_withState (h : f.Keep a) {index : Option Int} {k : Card → State → Reply}
    (hk : ∀ card s g, left (k card s) g = g) :
    Ends f (some (.ask slug index)) ((withState slug index k).run f) := by
  refine ends_withOpened h fun card initial ho => ?_
  have hopened := h.run_opened slug
  rw [ho] at hopened
  have hstate := h.follows_stateOf slug card initial index
  rcases a.stateOf_cases slug card initial index with ⟨e, he, hs⟩ | ⟨s, b, hs, -⟩ <;> rw [hs] at hstate
  · have hrun := hstate.unchanged he
    simp only [EStateM.run_bind, Filing.run_observing, hrun]
    cases e with
    | fault fault => exact ends_faultReply _ fault
    | _ => exact .failed _ _
  · obtain ⟨g, hrun, -⟩ := hstate
    have hdone : (perform (.ask slug index)).run f = .ok () g := by
      rw [perform, Files.run_discard, Files.state, EStateM.run_bind, hopened]
      simp [hrun]
    -- From here on nothing is written, whatever the answer.
    have hleft := hk card s g
    unfold left Files.ending at hleft
    simp only [EStateM.run_bind, Filing.run_observing, hrun]
    cases hresult : (k card s).run g with
    | ok resp g' =>
      simp only [hresult] at hleft
      exact hleft ▸ .asked resp hdone
    | error e g' =>
      simp only [hresult] at hleft
      exact hleft ▸ .askedInVain e hdone

theorem ends_create (h : f.Keep a) (body : Option Value) :
    Ends f ((readBody CreateBody.codec body).toOption.map fun b => .create b.name b.card)
      ((create body).run f) := by
  refine ends_withRead fun b => ?_
  rcases (h.follows_create b.name b.card).run_cases with
    ⟨slug, g, hcreate, hrun, hdone⟩ | ⟨e, g, -, hrun, hbroken, hsame⟩
  · simp only [EStateM.run_bind, Filing.run_observing, hrun]
    obtain ⟨-, -, hplain, -⟩ := Archive.create_eq_ok (Archive.attempted_eq_ok hcreate)
    refine ends_respond ?_ hdone (by decide)
    simpa [Value.isPlain, plainFields, Card.isPlain] using hplain
  · simp only [EStateM.run_bind, Filing.run_observing, hrun]
    cases e with
    | taken slug =>
      rw [hsame (by simp)]
      exact ends_refusal _ _ (by decide)
    | _ => exact .broken hbroken

theorem ends_delete (h : f.Keep a) (slug : String) :
    Ends f (some (.delete slug)) ((delete slug).run f) := by
  have hcard := h.cards slug
  unfold delete
  cases hc : Entries.get? slug a with
  | none =>
    have hrun : (Files.delete slug).run f = .ok false f := by simp [Files.delete, hcard, hc]
    simp only [EStateM.run_bind, hrun, Bool.false_eq_true, if_false]
    exact ends_refusal _ _ (by decide)
  | some c =>
    have hrun : (Files.delete slug).run f =
        .ok true (Files.removeFolder slug (Files.removeCard slug f)) := by
      simp [Files.delete, hcard, hc]
    have hdone : (perform (.delete slug)).run f =
        .ok () (Files.removeFolder slug (Files.removeCard slug f)) := by
      rw [perform, Files.run_discard, hrun]
    simp only [EStateM.run_bind, hrun, if_true]
    exact ends_respond rfl hdone (by decide)

theorem ends_append (h : f.Keep a) (slug : String) (body : Option Value) :
    Ends f ((readBody AppendBody.codec body).toOption.map fun b => .append slug
      (.text b.role.name) (.text b.text) ((Codec.optional .text).dump b.parseOutput))
      ((append slug body).run f) := by
  refine ends_withRead fun b => ends_withOpened h fun card initial _ => ?_
  rcases (h.follows_append slug (.text b.role.name) (.text b.text)
    ((Codec.optional .text).dump b.parseOutput)).run_cases with
    ⟨t, g, hwritten, hrun, hdone⟩ | ⟨e, g, -, hrun, hbroken, -⟩ <;> rw [EStateM.run_bind, hrun]
  · have hplain := (isPlain_turn t).trans (Archive.append_plain hwritten)
    exact ends_respond hplain hdone (by decide)
  · exact .broken hbroken

theorem ends_update (h : f.Keep a) (slug index : String) (body : Option Value) :
    Ends f ((((readIndex "path" index).map Prod.mk).ap (readBody UpdateBody.codec body)).toOption.map
      fun (i, b) => .update slug i b.changes) ((update slug index body).run f) := by
  refine ends_withRead fun (i, b) => ends_withOpened h fun card initial _ => ?_
  rcases (h.follows_update slug i b.changes).run_cases with
    ⟨t, g, hwritten, hrun, hdone⟩ | ⟨e, g, -, hrun, hbroken, hsame⟩ <;>
    simp only [EStateM.run_bind, Filing.run_observing, hrun]
  · have hplain := (isPlain_turn t).trans (Archive.update_plain hwritten)
    exact ends_respond hplain hdone (by decide)
  · cases e with
    | noTurn i =>
      rw [hsame (by simp)]
      exact ends_refusal _ _ (by decide)
    | _ => exact .broken hbroken

theorem ends_truncate (h : f.Keep a) (slug index : String) :
    Ends f ((readIndex "path" index).toOption.map fun i => .truncate slug i)
      ((truncate slug index).run f) := by
  refine ends_withRead fun i => ends_withOpened h fun card initial _ => ?_
  rw [EStateM.run_bind, h.run_turns]
  cases a.turns slug with
  | error e => exact .failed _ e
  | ok ts =>
    dsimp only
    cases position? ts i with
    | none =>
      simp only [Option.isNone_none, if_true]
      exact ends_refusal _ _ (by decide)
    | some j =>
      simp only [Option.isNone_some, Bool.false_eq_true, if_false, EStateM.run_bind]
      rcases (h.follows_truncate slug i).run_cases with
        ⟨kept, g, hwritten, hrun, hdone⟩ | ⟨e, g, -, hrun, hbroken, -⟩ <;> rw [hrun]
      · have hplain := (isPlain_turns kept).trans (Archive.truncate_plain hwritten)
        exact ends_respond hplain hdone (by decide)
      · exact .broken hbroken

theorem ends_state (h : f.Keep a) (slug : String) (query : Entries String String) :
    Ends f ((readQueryIndex query).toOption.map fun index => .ask slug index)
      ((state slug query).run f) :=
  ends_withRead fun _ => ends_withState h fun _ s => left_respond 200 (State.codec.dump s)

theorem ends_parameter (h : f.Keep a) (slug name : String) (query : Entries String String) :
    Ends f ((readQueryIndex query).toOption.map fun index => .ask slug index)
      ((parameter slug name query).run f) := by
  refine ends_withRead fun index => ends_withState h fun card s g => ?_
  dsimp only
  split
  · exact left_faultReply _ g
  · split
    · rfl
    · exact left_respond 200 _ g

theorem ends_preview (h : f.Keep a) (slug : String) (body : Option Value) :
    Ends f ((readBody PreviewBody.codec body).toOption.map fun b => .ask slug b.index)
      ((preview slug body).run f) := by
  refine ends_withRead fun b => ends_withState h fun card s g => ?_
  split
  · rfl
  · split
    · rfl
    · exact left_respond 200 _ g

theorem ends_list (h : f.Keep a) : Ends f none (list.run f) := by
  unfold list
  rw [EStateM.run_bind, h.run_list]
  exact ends_shown 200 _

theorem ends_card (h : f.Keep a) (slug : String) : Ends f none ((card slug).run f) := by
  unfold card
  rw [EStateM.run_bind, h.run_card?]
  cases a.card? slug with
  | error e => exact .failed _ _
  | ok found => cases found with
    | none => exact ends_refusal _ _ (by decide)
    | some c => exact ends_shown 200 _

theorem ends_turns (h : f.Keep a) (slug : String) : Ends f none ((turns slug).run f) := by
  refine ends_withOpened h fun card initial _ => ?_
  rw [EStateM.run_bind, h.run_turns]
  cases a.turns slug with
  | error e => exact .failed _ e
  | ok ts => exact ends_shown 200 _

theorem ends_handle (h : f.Keep a) (r : Request) : Ends f (operation? r) ((handle r).run f) := by
  unfold handle
  split
  case h_1 => exact ends_refusal _ _ (by decide)
  case h_2 he hm => simpa [operation?, he, hm] using ends_list h
  case h_3 he hm => simpa [operation?, he, hm] using ends_create h r.body
  case h_4 slug he hm => simpa [operation?, he, hm] using ends_card h slug
  case h_5 slug he hm => simpa [operation?, he, hm] using ends_delete h slug
  case h_6 slug he hm => simpa [operation?, he, hm] using ends_turns h slug
  case h_7 slug he hm => simpa [operation?, he, hm] using ends_append h slug r.body
  case h_8 slug index he hm => simpa [operation?, he, hm] using ends_update h slug index r.body
  case h_9 slug index he hm => simpa [operation?, he, hm] using ends_truncate h slug index
  case h_10 slug he hm => simpa [operation?, he, hm] using ends_state h slug r.query
  case h_11 slug name he hm => simpa [operation?, he, hm] using ends_parameter h slug name r.query
  case h_12 slug he hm => simpa [operation?, he, hm] using ends_preview h slug r.body
  case h_13 => exact ends_refusal _ _ (by decide)

/-- The files after some requests. -/
def serve (f : Files) (rs : List Request) : Files := rs.foldl (fun f r => left (handle r) f) f

namespace Ends

variable {op : Option Operation} {resp : Response} {e : ArchiveError}

theorem keep {result : EStateM.Result ArchiveError Files Response} (hends : Ends f op result)
    (h : f.Keep a) (hencodable : a.All Conversation.Encodable) :
    ∃ b, (Files.ending result).Keep b ∧ b.All Conversation.Encodable := by
  cases hends with
  | read | refused | failed => exact ⟨a, h, hencodable⟩
  | broken hbroken => exact ⟨_, h.broken hbroken, Archive.encodable_after hencodable _⟩
  | done _ hdone _ => exact ⟨_, h.performed hdone, Archive.encodable_after hencodable _⟩
  | asked _ hdone => exact ⟨_, h.performed hdone, Archive.encodable_after hencodable _⟩
  | askedInVain _ hdone => exact ⟨_, h.performed hdone, Archive.encodable_after hencodable _⟩

theorem granted (hends : Ends f op (.ok resp g)) (hstatus : resp.status < 400) :
    CarriedOut op f g := by
  cases hends with
  | read => rfl
  | refused _ _ hrefused => omega
  | done _ hdone _ => exact hdone
  | asked _ hdone => exact hdone

theorem same (hends : Ends f op (.ok resp g)) (h : f.Keep a) (hstatus : 400 ≤ resp.status) :
    f.Same g := by
  cases hends with
  | read | refused => exact fun _ => ⟨rfl, rfl⟩
  | done _ _ hdone => omega
  | asked _ hdone => exact h.same_asked hdone

theorem same_of_error (hends : Ends f op (.error e g)) (h : f.Keep a)
    (hencodable : a.All Conversation.Encodable) :
    f.Same g ∨ ∃ done, op = some done ∧ done.isPlain = false ∧ f.LosesHistory done.slug g := by
  cases hends with
  | failed => exact .inl fun _ => ⟨rfl, rfl⟩
  | @broken done _ _ hbroken =>
    rcases h.failing hencodable hbroken with rfl | ⟨-, hhalf, hloses⟩
    · exact .inl fun _ => ⟨rfl, rfl⟩
    · exact .inr ⟨done, rfl, hhalf, hloses⟩
  | askedInVain _ hdone => exact .inl (h.same_asked hdone)

end Ends

theorem keep_serve (h : f.Keep a) (hencodable : a.All Conversation.Encodable) (rs : List Request) :
    ∃ b, (serve f rs).Keep b ∧ b.All Conversation.Encodable := by
  induction rs generalizing f a with
  | nil => exact ⟨a, h, hencodable⟩
  | cons r rs ih =>
    obtain ⟨b, hb, hbencodable⟩ := (ends_handle h r).keep h hencodable
    exact ih hb hbencodable

/-- A request that is answered with success has done what it asks for. One that is refused has changed
no card and no history, and neither has one that is not answered, unless a half in it cost a history. -/
structure AllOrNothing (f : Files) (r : Request) : Prop where
  granted : ∀ resp g, (handle r).run f = .ok resp g → resp.status < 400 →
    CarriedOut (operation? r) f g
  refused : ∀ resp g, (handle r).run f = .ok resp g → 400 ≤ resp.status → f.Same g
  unanswered : ∀ e g, (handle r).run f = .error e g → f.Same g ∨
    ∃ op, operation? r = some op ∧ op.isPlain = false ∧ f.LosesHistory op.slug g

/-- Whatever was done to the files and whatever requests came before, the next one is granted or
changes nothing. -/
theorem serve_allOrNothing (ops : List Operation) (rs : List Request) (r : Request) :
    AllOrNothing (serve (Files.empty.run ops) rs) r := by
  obtain ⟨a, h, hencodable⟩ := keep_serve (Files.keep_empty.run ops)
    (Archive.encodable_run (fun _ _ hc => by cases hc) ops) rs
  have hends := ends_handle h r
  refine ⟨fun resp g hrun => ?_, fun resp g hrun => ?_, fun e g hrun => ?_⟩ <;> rw [hrun] at hends
  · exact hends.granted
  · exact hends.same h
  · exact hends.same_of_error h hencodable

end Service

namespace Demo

def rainCard : Card := ⟨[parameter "weather" .global .text .null], [], .standard⟩

/-- A conversation is begun and gets its first turn. -/
def rainRequests : List Request := [
  ⟨"POST", "/api/conversations", [], some (.object
    [("name", .text "Rain"), ("card", Card.codec.dump rainCard)])⟩,
  ⟨"POST", "/api/conversations/rain/turns", [], some (.object
    [("role", .text "user"), ("text", .text "set(weather, rain)")])⟩]

def statusOf : EStateM.Result ArchiveError Files Response → Option Nat
  | .ok resp _ => some resp.status
  | .error _ _ => none

end Demo

/-- A question for a parameter that does not exist is refused after a checkpoint was kept. -/
example :
    let f := Service.serve .empty Demo.rainRequests
    let result := (Service.handle ⟨"GET", "/api/conversations/rain/parameters/mood", [], none⟩).run f
    Demo.statusOf result = some 400 ∧ (f.checkpointOf "rain").isNone ∧
      ((Files.ending result).checkpointOf "rain").isSome := by
  decide +kernel

end Storyworld
