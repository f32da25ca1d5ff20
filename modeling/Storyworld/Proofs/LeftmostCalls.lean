import Storyworld.Proofs.CallGrammar

/-! The calls of a text are its leftmost calls by the grammar, in order and without overlap. -/

namespace Storyworld

namespace Call

def span (text : List Code) (c : Call) : List Code := (text.drop c.start).take (c.stop - c.start)

/-- What stands at the positions of the call is one by the grammar, and its head is not the end of a
longer word. -/
structure Stands (text : List Code) (c : Call) : Prop where
  within : c.stop ≤ text.length
  head_free : (text.take c.start).getLast?.any joinsHead = false
  derives : Derives (c.span text) c.args

/-- The calls from a position on, where no call begins outside of them. -/
structure Leftmost (text : List Code) (i : Nat) (calls : List Call) : Prop where
  stands : ∀ c ∈ calls, Stands text c
  from_le : ∀ c ∈ calls, i ≤ c.start
  ordered : calls.Pairwise (·.stop ≤ ·.start)
  covers : ∀ c, Stands text c → i ≤ c.start → ∃ d ∈ calls, d.start ≤ c.start ∧ c.start < d.stop

variable {text done cs : List Code} {args : List Text} {a b : Call} {calls others : List Call}
  {i stop : Nat}

theorem Derives.ne_nil (h : Derives cs args) : cs ≠ [] := by
  obtain ⟨hhead, -⟩ := h
  rcases hhead with ⟨⟨-⟩⟩ | ⟨-, -, -⟩ <;> simp

theorem Derives.args_ne_nil (h : Derives cs args) : args ≠ [] := by
  obtain ⟨-, harguments⟩ := h
  cases harguments <;> simp

theorem Stands.start_lt_stop (h : Stands text a) : a.start < a.stop := by
  have hspan : 0 < (a.span text).length := List.length_pos_iff.mpr h.derives.ne_nil
  simp only [span, List.length_take] at hspan
  omega

theorem stands_iff_callAt? : Stands (done ++ cs) ⟨args, done.length, stop⟩ ↔
    ∃ rest, callAt? done.getLast? cs = some (args, rest) ∧
      stop = done.length + (cs.length - rest.length) := by
  constructor
  · intro h
    have hpos := h.start_lt_stop
    have hwithin := h.within
    have hfree := h.head_free
    have hderives := h.derives
    simp only [span, List.drop_left, List.take_left, List.length_append] at *
    refine ⟨cs.drop (stop - done.length), callAt?_eq_some_iff.mpr ⟨hfree, _,
      (List.take_append_drop ..).symm, hderives⟩, ?_⟩
    rw [List.length_drop]
    omega
  · rintro ⟨rest, hread, rfl⟩
    obtain ⟨hfree, used, rfl, hderives⟩ := callAt?_eq_some_iff.mp hread
    exact ⟨by simp, by simpa using hfree, by simpa [span] using hderives⟩

theorem Stands.exists_append (h : Stands text a) :
    ∃ done cs, text = done ++ cs ∧ a.start = done.length := by
  have hpos := h.start_lt_stop
  have hwithin := h.within
  refine ⟨text.take a.start, text.drop a.start, (List.take_append_drop ..).symm, ?_⟩
  rw [List.length_take]
  omega

/-- At most one call stands at a position. -/
theorem Stands.eq (ha : Stands text a) (hb : Stands text b) (h : a.start = b.start) : a = b := by
  obtain ⟨done, cs, rfl, hstart⟩ := ha.exists_append
  obtain ⟨aargs, _, astop⟩ := a
  obtain ⟨bargs, _, bstop⟩ := b
  obtain rfl : _ = done.length := hstart
  obtain rfl : done.length = _ := h
  obtain ⟨rest, hread, rfl⟩ := stands_iff_callAt?.mp ha
  obtain ⟨rest', hread', rfl⟩ := stands_iff_callAt?.mp hb
  obtain ⟨rfl, rfl⟩ : aargs = bargs ∧ rest = rest' := by simpa using hread.symm.trans hread'
  rfl

theorem Leftmost.cons (ha : Stands text a) (h : Leftmost text a.stop calls) :
    Leftmost text a.start (a :: calls) where
  stands := List.forall_mem_cons.mpr ⟨ha, h.stands⟩
  from_le := List.forall_mem_cons.mpr ⟨Nat.le_refl _, fun c hc =>
    Nat.le_trans (Nat.le_of_lt ha.start_lt_stop) (h.from_le c hc)⟩
  ordered := List.pairwise_cons.mpr ⟨h.from_le, h.ordered⟩
  covers c hc hle := by
    by_cases hinside : c.start < a.stop
    · exact ⟨a, List.mem_cons_self, hle, hinside⟩
    · obtain ⟨d, hd, hcover⟩ := h.covers c hc (Nat.le_of_not_lt hinside)
      exact ⟨d, List.mem_cons_of_mem a hd, hcover⟩

theorem Leftmost.tail (h : Leftmost text i (a :: calls)) : Leftmost text a.stop calls where
  stands := (List.forall_mem_cons.mp h.stands).2
  from_le := (List.pairwise_cons.mp h.ordered).1
  ordered := (List.pairwise_cons.mp h.ordered).2
  covers c hc hle := by
    have ha := (h.stands a List.mem_cons_self).start_lt_stop
    have hia := h.from_le a List.mem_cons_self
    obtain ⟨d, hd, hcover⟩ := h.covers c hc (by omega)
    rcases List.mem_cons.mp hd with rfl | hd
    · omega
    · exact ⟨d, hd, hcover⟩

theorem Leftmost.of_succ (h : Leftmost text (i + 1) calls)
    (hno : ∀ c, Stands text c → c.start ≠ i) : Leftmost text i calls where
  stands := h.stands
  from_le c hc := Nat.le_of_succ_le (h.from_le c hc)
  ordered := h.ordered
  covers c hc hle := h.covers c hc (Nat.lt_of_le_of_ne hle (hno c hc).symm)

theorem Leftmost.head_start_le (h : Leftmost text i (a :: calls)) (hb : Stands text b)
    (hle : i ≤ b.start) : a.start ≤ b.start := by
  obtain ⟨d, hd, hcover⟩ := h.covers b hb hle
  have ha := (h.stands a List.mem_cons_self).start_lt_stop
  rcases List.mem_cons.mp hd with rfl | hd
  · exact hcover.1
  · have := (List.pairwise_cons.mp h.ordered).1 d hd
    omega

theorem Leftmost.unique (h : Leftmost text i calls) (h' : Leftmost text i others) :
    calls = others := by
  induction calls generalizing i others with
  | nil =>
    cases others with
    | nil => rfl
    | cons b others =>
      have hb := h'.stands b List.mem_cons_self
      obtain ⟨d, hd, -⟩ := h.covers b hb (h'.from_le b List.mem_cons_self)
      cases hd
  | cons a calls ih =>
    have ha := h.stands a List.mem_cons_self
    have hia := h.from_le a List.mem_cons_self
    cases others with
    | nil =>
      obtain ⟨d, hd, -⟩ := h'.covers a ha hia
      cases hd
    | cons b others =>
      have hb := h'.stands b List.mem_cons_self
      have hab := h.head_start_le hb (h'.from_le b List.mem_cons_self)
      have hba := h'.head_start_le ha hia
      obtain rfl := ha.eq hb (Nat.le_antisymm hab hba)
      rw [ih h.tail h'.tail]

theorem callsFrom_leftmost (cs done : List Code) (skip : Nat) (hskip : skip ≤ cs.length) :
    Leftmost (done ++ cs) (done.length + skip)
      (callsFrom done.getLast? done.length skip cs) := by
  -- The characters to skip are those left of the call before, so the calls start behind them.
  induction cs generalizing done skip with
  | nil =>
    obtain rfl : skip = 0 := by simpa using hskip
    refine ⟨nofun, nofun, .nil, fun c hc hle => ?_⟩
    have := hc.start_lt_stop
    have := hc.within
    simp only [List.append_nil] at *
    omega
  | cons c cs ih =>
    have hnext := ih (done ++ [c])
    simp only [List.append_assoc, List.singleton_append, List.length_append, List.length_singleton,
      List.getLast?_concat] at hnext
    cases skip with
    | succ skip =>
      have htail := hnext skip (by simpa using hskip)
      rw [Nat.add_assoc, Nat.add_comm 1] at htail
      exact htail
    | zero =>
      unfold callsFrom
      split
      · rename_i args rest hread
        have hstands := stands_iff_callAt?.mpr ⟨rest, hread, rfl⟩
        have hpos := hstands.start_lt_stop
        refine .cons hstands ?_
        have htail := hnext ((c :: cs).length - rest.length - 1)
          (by simp only [List.length_cons]; omega)
        dsimp only at hpos
        rw [show done.length + 1 + ((c :: cs).length - rest.length - 1) =
          done.length + ((c :: cs).length - rest.length) by omega] at htail
        exact htail
      · rename_i hread
        refine .of_succ (hnext 0 (Nat.zero_le _)) ?_
        rintro ⟨args, _, stop⟩ hstands rfl
        obtain ⟨rest, hsome, -⟩ := stands_iff_callAt?.mp hstands
        rw [hread] at hsome
        cases hsome

theorem all_leftmost (text : Text) : Leftmost text.toList 0 (Call.all text) :=
  callsFrom_leftmost text.toList [] 0 (Nat.zero_le _)

/-- A call is the only one of its own text. -/
theorem Stands.leftmost_span (h : Stands text a) :
    Leftmost (a.span text) 0 [⟨a.args, 0, a.stop - a.start⟩] := by
  have hlen : (a.span text).length = a.stop - a.start := by
    have := h.within
    simp only [span, List.length_take, List.length_drop]
    omega
  refine ⟨?_, by simp, List.pairwise_singleton .., fun c hc _ => ?_⟩
  · simp only [List.mem_singleton, forall_eq]
    refine ⟨by simp [hlen], rfl, ?_⟩
    have hspan : span (a.span text) ⟨a.args, 0, a.stop - a.start⟩ = a.span text := by
      simp [span, List.take_take]
    rw [hspan]
    exact h.derives
  · have := hc.start_lt_stop
    have := hc.within
    exact ⟨_, List.mem_singleton_self _, Nat.zero_le _, by dsimp only; omega⟩

/-- The calls found are the leftmost ones of the grammar and nothing else, and each is found again
in its own text. -/
theorem all_exact (text : Text) :
    Leftmost text.toList 0 (Call.all text) ∧
      (∀ calls, Leftmost text.toList 0 calls → calls = Call.all text) ∧
      ∀ c ∈ Call.all text, c.args ≠ [] ∧ c.start < c.stop ∧
        Call.all (Text.ofList (c.span text.toList)) = [⟨c.args, 0, c.stop - c.start⟩] := by
  refine ⟨all_leftmost text, fun calls h => h.unique (all_leftmost text), fun c hc => ?_⟩
  have hstands := (all_leftmost text).stands c hc
  have hspan := all_leftmost (Text.ofList (c.span text.toList))
  rw [Text.toList_ofList] at hspan
  exact ⟨hstands.derives.args_ne_nil, hstands.start_lt_stop, hspan.unique hstands.leftmost_span⟩

-- A call that is never closed hides none behind it.
example : Call.all "ce.set('open set(weather, fog,)" = [⟨["weather", "fog"], 13, 31⟩] := by decide

end Call

end Storyworld
