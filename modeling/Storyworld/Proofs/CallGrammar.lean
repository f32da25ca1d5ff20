import Storyworld.Call

/-! The grammar of calls, and that reading a call and deriving it from the grammar are the same. -/

namespace Storyworld

namespace Call

def Blanks (cs : List Code) : Prop := ∀ c ∈ cs, isBlank c = true

/-- A quoted text from behind its first mark up to the last, and what it says. A backslash in front
of the mark belongs to it, and there is no newline. -/
inductive QuotedBody (mark : Code) : List Code → List Code → Prop
  | close : QuotedBody mark [mark] []
  | escaped {cs said : List Code} (h : QuotedBody mark cs said) :
      QuotedBody mark ('\\' :: mark :: cs) (mark :: said)
  | plain {c : Code} {cs said : List Code} (hmark : c ≠ mark) (hline : c ≠ '\n')
      (hescape : ¬ (c = '\\' ∧ cs.head? = some mark)) (h : QuotedBody mark cs said) :
      QuotedBody mark (c :: cs) (c :: said)

inductive Argument : List Code → Text → Prop
  | quoted {mark : Code} {cs said : List Code} (hmark : isQuote mark = true)
      (h : QuotedBody mark cs said) : Argument (mark :: cs) (Text.ofList said)
  | bare {cs : List Code} (hne : cs ≠ []) (h : ∀ c ∈ cs, isBare c = true) :
      Argument cs (Text.ofList cs)

/-- The end of a call, behind a comma or not. -/
inductive Ending : List Code → Prop
  | plain {b : List Code} (hb : Blanks b) : Ending (b ++ [.char ')'])
  | comma {b b' : List Code} (hb : Blanks b) (hb' : Blanks b') :
      Ending (b ++ .char ',' :: (b' ++ [.char ')']))

inductive Arguments : List Code → List Text → Prop
  | last {b s e : List Code} {a : Text} (hb : Blanks b) (ha : Argument s a) (he : Ending e) :
      Arguments (b ++ (s ++ e)) [a]
  | more {b s b' cs : List Code} {a : Text} {args : List Text} (hb : Blanks b)
      (ha : Argument s a) (hb' : Blanks b') (h : Arguments cs args) :
      Arguments (b ++ (s ++ (b' ++ .char ',' :: cs))) (a :: args)

inductive Opening : List Code → Prop
  | set {b : List Code} (hb : Blanks b) :
      Opening (.char 's' :: .char 'e' :: .char 't' :: (b ++ [.char '(']))

inductive Head : List Code → Prop
  | plain {cs : List Code} (h : Opening cs) : Head cs
  | prefixed {b b' cs : List Code} (hb : Blanks b) (hb' : Blanks b') (h : Opening cs) :
      Head (.char 'c' :: .char 'e' :: (b ++ .char '.' :: (b' ++ cs)))

/-- A text is a call with these arguments. -/
inductive Derives : List Code → List Text → Prop
  | call {head cs : List Code} {args : List Text} (hhead : Head head) (h : Arguments cs args) :
      Derives (head ++ cs) args

/-- What may follow an argument, with the arguments in it. -/
inductive After : List Code → List Text → Prop
  | ending {cs : List Code} (h : Ending cs) : After cs []
  | more {b cs : List Code} {args : List Text} (hb : Blanks b) (h : Arguments cs args) :
      After (b ++ .char ',' :: cs) args

/-- What may follow a comma, with the arguments in it. -/
inductive Next : List Code → List Text → Prop
  | close {b : List Code} (hb : Blanks b) : Next (b ++ [.char ')']) []
  | more {cs : List Code} {args : List Text} (h : Arguments cs args) : Next cs args

variable {cs rest : List Code} {args acc : List Text} {c mark : Code}

theorem Blanks.nil : Blanks [] := by simp [Blanks]

theorem Blanks.cons (hc : isBlank c = true) (h : Blanks cs) : Blanks (c :: cs) := by
  simpa [Blanks, hc] using h

theorem QuotedBody.ne_nil {said : List Code} (h : QuotedBody mark cs said) : cs ≠ [] := by
  cases h <;> simp

theorem Ending.cons (hc : isBlank c = true) (h : Ending cs) : Ending (c :: cs) := by
  cases h with
  | plain hb => exact .plain (hb.cons hc)
  | comma hb hb' => exact .comma (hb.cons hc) hb'

theorem Arguments.cons (hc : isBlank c = true) (h : Arguments cs args) :
    Arguments (c :: cs) args := by
  cases h with
  | last hb ha he => exact .last (hb.cons hc) ha he
  | more hb ha hb' h => exact .more (hb.cons hc) ha hb' h

theorem After.cons (hc : isBlank c = true) (h : After cs args) : After (c :: cs) args := by
  cases h with
  | ending h => exact .ending (h.cons hc)
  | more hb h => exact .more (hb.cons hc) h

theorem Next.cons (hc : isBlank c = true) (h : Next cs args) : Next (c :: cs) args := by
  cases h with
  | close hb => exact .close (hb.cons hc)
  | more h => exact .more (h.cons hc)

theorem After.close : After [')'] [] := .ending (.plain Blanks.nil)

theorem After.comma (h : Next cs args) : After (',' :: cs) args := by
  cases h with
  | close hb => exact .ending (.comma Blanks.nil hb)
  | more h => exact .more Blanks.nil h

theorem Argument.arguments {s : List Code} {a : Text} (ha : Argument s a) (h : After cs args) :
    Arguments (s ++ cs) (a :: args) := by
  cases h with
  | ending he => exact .last Blanks.nil ha he
  | more hb h => exact .more Blanks.nil ha hb h

/-- What is read from a state on, with the arguments in it. -/
def Reads : ArgumentState → List Code → List Text → Prop
  | .first, cs, args => Arguments cs args
  | .next, cs, args => Next cs args
  | .after, cs, args => After cs args
  | .quoted mark taken, cs, args => isQuote mark = true → ∃ body said more others,
      cs = body ++ more ∧ QuotedBody mark body said ∧ After more others ∧
      args = Text.ofList (taken.reverse ++ said) :: others
  | .bare taken, cs, args => ∃ run more others, cs = run ++ more ∧ (∀ c ∈ run, isBare c = true) ∧
      After more others ∧ args = Text.ofList (taken.reverse ++ run) :: others

theorem Reads.open_quote (hc : isQuote c = true) (h : Reads (.quoted c []) cs args) :
    Arguments (c :: cs) args := by
  obtain ⟨body, said, more, others, rfl, hbody, hmore, rfl⟩ := h hc
  exact (Argument.quoted hc hbody).arguments hmore

theorem Reads.open_bare (hc : isBare c = true) (h : Reads (.bare [c]) cs args) :
    Arguments (c :: cs) args := by
  obtain ⟨run, more, others, rfl, hrun, hmore, rfl⟩ := h
  have hall : ∀ d ∈ c :: run, isBare d = true := List.forall_mem_cons.mpr ⟨hc, hrun⟩
  exact (Argument.bare (List.cons_ne_nil c run) hall).arguments hmore

theorem Reads.bare {taken : List Code} (hc : isBare c = true)
    (h : Reads (.bare (c :: taken)) cs args) : Reads (.bare taken) (c :: cs) args := by
  obtain ⟨run, more, others, rfl, hrun, hmore, rfl⟩ := h
  exact ⟨c :: run, more, others, rfl, List.forall_mem_cons.mpr ⟨hc, hrun⟩, hmore, by simp⟩

theorem Reads.bare_end {taken : List Code} (h : After cs args) :
    Reads (.bare taken) cs (Text.ofList taken.reverse :: args) :=
  ⟨[], cs, args, rfl, by simp, h, by simp⟩

theorem Reads.close {taken : List Code} (h : After cs args) :
    Reads (.quoted mark taken) (mark :: cs) (Text.ofList taken.reverse :: args) :=
  fun _ => ⟨[mark], [], cs, args, rfl, .close, h, by simp⟩

theorem Reads.escaped {taken : List Code} (h : Reads (.quoted mark (mark :: taken)) cs args) :
    Reads (.quoted mark taken) ('\\' :: mark :: cs) args := by
  intro hquote
  obtain ⟨body, said, more, others, rfl, hbody, hmore, rfl⟩ := h hquote
  exact ⟨_, _, more, others, rfl, hbody.escaped, hmore, by simp⟩

theorem Reads.plain {taken : List Code} (hmark : c ≠ mark) (hline : c ≠ '\n')
    (hescape : ¬ (c = '\\' ∧ cs.head? = some mark))
    (h : Reads (.quoted mark (c :: taken)) cs args) :
    Reads (.quoted mark taken) (c :: cs) args := by
  intro hquote
  obtain ⟨body, said, more, others, rfl, hbody, hmore, rfl⟩ := h hquote
  have hhead : body.head? = (body ++ more).head? := by
    obtain ⟨d, ds, rfl⟩ := List.exists_cons_of_ne_nil hbody.ne_nil
    rfl
  rw [← hhead] at hescape
  exact ⟨_, _, more, others, rfl, hbody.plain hmark hline hescape, hmore, by simp⟩

/-- The text falls into what is read from a state on and the rest, and the arguments into those read
before and those read from there on. -/
def Splits (st : ArgumentState) (acc : List Text) (cs : List Code) (args : List Text)
    (rest : List Code) : Prop :=
  ∃ used new, cs = used ++ rest ∧ args = acc ++ new ∧ Reads st used new

variable {st st' : ArgumentState}

theorem Splits.cons (h : Splits st acc cs args rest)
    (hreads : ∀ {used new}, Reads st used new → Reads st' (c :: used) new) :
    Splits st' acc (c :: cs) args rest := by
  obtain ⟨used, new, rfl, rfl, hused⟩ := h
  exact ⟨c :: used, new, rfl, rfl, hreads hused⟩

theorem Splits.cons_done {a : Text} (h : Splits st (acc ++ [a]) cs args rest)
    (hreads : ∀ {used new}, Reads st used new → Reads st' (c :: used) (a :: new)) :
    Splits st' acc (c :: cs) args rest := by
  obtain ⟨used, new, rfl, rfl, hused⟩ := h
  exact ⟨c :: used, a :: new, rfl, by simp, hreads hused⟩

theorem quote_ne_backslash (h : isQuote mark = true) : mark ≠ '\\' := by
  rintro rfl
  simp [isQuote] at h

theorem splits_of_readArguments (h : readArguments st acc cs = some (args, rest)) :
    Splits st acc cs args rest := by
  fun_induction readArguments st acc cs
  case case2 ih =>
    obtain ⟨used, new, rfl, rfl, hused⟩ := ih h
    exact ⟨_, new, rfl, rfl, hused.escaped⟩
  case case3 mark taken acc c cs hc ih =>
    -- The backslash stands for itself, and what is read next begins with no mark.
    obtain ⟨used, new, hcs, rfl, hused⟩ := ih h
    refine ⟨'\\' :: used, new, by rw [hcs]; rfl, rfl, fun hquote => ?_⟩
    have hescape : ¬ (Code.char '\\' = '\\' ∧ used.head? = some mark) := by
      rintro ⟨-, hhead⟩
      cases used with
      | nil =>
        obtain ⟨body, _, _, _, hnil, hbody, _⟩ := hused hquote
        exact hbody.ne_nil (List.append_eq_nil_iff.mp hnil.symm).1
      | cons d used => exact hc ((List.cons.inj hcs).1.trans (by simpa using hhead))
    exact hused.plain (quote_ne_backslash hquote).symm (by decide) hescape hquote
  case case4 ih => exact (ih h).cons_done Reads.close
  case case6 mark taken acc c cs hno hmark hline ih =>
    obtain ⟨used, new, hcs, rfl, hused⟩ := ih h
    have hescape : ¬ (c = '\\' ∧ used.head? = some mark) := by
      rintro ⟨hc, hhead⟩
      cases used with
      | nil => cases hhead
      | cons d used => exact hno d (used ++ rest) hc hcs
    exact ⟨c :: used, new, by rw [hcs]; rfl, rfl, hused.plain hmark hline hescape⟩
  case case7 hc ih => exact (ih h).cons (Reads.bare hc)
  case case8 hblank ih => exact (ih h).cons_done fun hused => Reads.bare_end (hused.cons hblank)
  case case9 ih => exact (ih h).cons_done fun hused => Reads.bare_end (After.comma hused)
  case case10 =>
    obtain ⟨rfl, rfl⟩ : _ ∧ _ := by simpa using h
    exact ⟨[')'], _, rfl, rfl, Reads.bare_end .close⟩
  case case12 hblank ih => exact (ih h).cons (After.cons hblank)
  case case13 ih => exact (ih h).cons After.comma
  case case14 =>
    obtain ⟨rfl, rfl⟩ : _ ∧ _ := by simpa using h
    exact ⟨[')'], [], rfl, by simp, After.close⟩
  case case16 hblank ih => exact (ih h).cons (Next.cons hblank)
  case case17 =>
    obtain ⟨rfl, rfl⟩ : _ ∧ _ := by simpa using h
    exact ⟨[')'], [], rfl, by simp, Next.close Blanks.nil⟩
  case case18 hquote ih => exact (ih h).cons fun hused => .more (Reads.open_quote hquote hused)
  case case19 hbare ih => exact (ih h).cons fun hused => .more (Reads.open_bare hbare hused)
  case case21 hblank ih => exact (ih h).cons (Arguments.cons hblank)
  case case22 hquote ih => exact (ih h).cons (Reads.open_quote hquote)
  case case23 hbare ih => exact (ih h).cons (Reads.open_bare hbare)
  all_goals cases h

theorem bare_or_mark (h : isBare c = true) :
    isBlank c = false ∧ isQuote c = false ∧ c ≠ ',' ∧ c ≠ ')' := by
  simp only [isBare, Bool.and_eq_true, Bool.not_eq_true', bne_iff_ne] at h
  obtain ⟨⟨⟨⟨hblank, hcomma⟩, _⟩, hclose⟩, hquote⟩ := h
  exact ⟨hblank, hquote, hcomma, hclose⟩

theorem blank_not_bare (h : isBlank c = true) : isBare c = false := by
  simp [isBare, h]

theorem isBlank_mark : ∀ c ∈ ['(', ')', ',', '.', '\x27', '\x22'], isBlank c = false := by
  intro c hc
  simp only [List.mem_cons, List.not_mem_nil, or_false] at hc
  rcases hc with rfl | rfl | rfl | rfl | rfl | rfl <;> rfl

-- From here on the reader is run state by state.
attribute [local simp] readArguments

/-- The states between arguments, in which blanks are passed over. -/
def Between (st : ArgumentState) : Prop := st = .first ∨ st = .next ∨ st = .after

theorem readArguments_blanks (hst : Between st) (h : Blanks cs) (rest : List Code) :
    readArguments st acc (cs ++ rest) = readArguments st acc rest := by
  induction cs with
  | nil => rfl
  | cons c cs ih =>
    obtain ⟨hc, hcs⟩ := List.forall_mem_cons.mp h
    rw [← ih hcs]
    rcases hst with rfl | rfl | rfl <;> simp [hc]

theorem readArguments_bare (h : ∀ c ∈ cs, isBare c = true) (taken : List Code) (acc : List Text)
    (rest : List Code) : readArguments (.bare taken) acc (cs ++ rest) =
      readArguments (.bare (cs.reverse ++ taken)) acc rest := by
  induction cs generalizing taken with
  | nil => rfl
  | cons c cs ih =>
    obtain ⟨hc, hcs⟩ := List.forall_mem_cons.mp h
    have hstep : readArguments (.bare taken) acc (c :: (cs ++ rest)) =
        readArguments (.bare (c :: taken)) acc (cs ++ rest) := by simp [hc]
    rw [List.cons_append, hstep, ih hcs]
    simp

theorem readArguments_bare_end (taken : List Code) (h : ∀ c, cs.head? = some c → isBare c = false) :
    readArguments (.bare taken) acc cs =
      readArguments .after (acc ++ [Text.ofList taken.reverse]) cs := by
  cases cs with
  | nil => rfl
  | cons c cs => simp [h c rfl]

theorem readArguments_quoted {said : List Code} (hquote : isQuote mark = true)
    (h : QuotedBody mark cs said) (taken : List Code) (acc : List Text) (rest : List Code) :
    readArguments (.quoted mark taken) acc (cs ++ rest) =
      readArguments .after (acc ++ [Text.ofList (taken.reverse ++ said)]) rest := by
  have hmark := quote_ne_backslash hquote
  induction h generalizing taken with
  | close => simp [hmark]
  | escaped h ih =>
    have hstep := ih (mark :: taken)
    simpa using hstep
  | @plain c cs said hc hline hescape h ih =>
    have hstep := ih (c :: taken)
    obtain ⟨d, ds, rfl⟩ := List.exists_cons_of_ne_nil h.ne_nil
    by_cases hback : c = '\\'
    · have hd : d ≠ mark := fun he => hescape ⟨hback, by simp [he]⟩
      subst hback
      simpa [hd] using hstep
    · have hread : readArguments (.quoted mark taken) acc (c :: (d :: ds ++ rest)) =
          readArguments (.quoted mark (c :: taken)) acc (d :: ds ++ rest) := by
        rw [readArguments]
        · simp [hc, hline]
        · intro e es he
          exact (hback he).elim
      rw [List.cons_append, hread, hstep]
      simp

/-- An argument is read where one may begin, as far as another character follows a bare one. -/
theorem readArguments_argument {s : List Code} {a : Text} (hst : st = .first ∨ st = .next)
    (ha : Argument s a) (h : ∀ c, rest.head? = some c → isBare c = false) :
    readArguments st acc (s ++ rest) = readArguments .after (acc ++ [a]) rest := by
  cases ha with
  | @quoted mark cs said hmark hbody =>
    have hblank : isBlank mark = false := by
      rcases (by simpa [isQuote] using hmark : mark = '\x27' ∨ mark = '\x22') with rfl | rfl <;>
        exact isBlank_mark _ (by simp)
    have hclose : mark ≠ ')' := by
      rintro rfl
      simp [isQuote] at hmark
    have hread := readArguments_quoted hmark hbody [] acc rest
    rcases hst with rfl | rfl <;> simpa [hblank, hclose, hmark] using hread
  | bare hne hall =>
    obtain ⟨c, cs, rfl⟩ := List.exists_cons_of_ne_nil hne
    obtain ⟨hc, hcs⟩ := List.forall_mem_cons.mp hall
    obtain ⟨hblank, hquote, hcomma, hclose⟩ := bare_or_mark hc
    have hopen : readArguments st acc (c :: cs ++ rest) =
        readArguments (.bare [c]) acc (cs ++ rest) := by
      rcases hst with rfl | rfl <;> simp [hblank, hclose, hquote, hc]
    rw [hopen, readArguments_bare hcs, readArguments_bare_end _ h]
    simp

theorem head?_blanks (hcs : Blanks cs) (hrest : ∀ c, rest.head? = some c → isBare c = false) :
    ∀ c, (cs ++ rest).head? = some c → isBare c = false := by
  cases cs with
  | nil => exact hrest
  | cons d ds =>
    intro c hc
    obtain rfl : d = c := by simpa using hc
    exact blank_not_bare (hcs d List.mem_cons_self)

theorem readArguments_ending (h : Ending cs) (rest : List Code) :
    readArguments .after acc (cs ++ rest) = some (acc, rest) := by
  have hclose : isBlank ')' = false := isBlank_mark _ (by simp)
  have hcomma : isBlank ',' = false := isBlank_mark _ (by simp)
  cases h with
  | plain hb =>
    rw [List.append_assoc, readArguments_blanks (.inr (.inr rfl)) hb]
    simp [hclose]
  | @comma b b' hb hb' =>
    have hread : readArguments .next acc (b' ++ ([.char ')'] ++ rest)) = some (acc, rest) := by
      rw [readArguments_blanks (.inr (.inl rfl)) hb']
      simp [hclose]
    rw [List.append_assoc, readArguments_blanks (.inr (.inr rfl)) hb]
    simpa [hcomma] using hread

theorem head?_ending (h : Ending cs) (rest : List Code) :
    ∀ c, (cs ++ rest).head? = some c → isBare c = false := by
  cases h with
  | plain hb =>
    rw [List.append_assoc]
    exact head?_blanks hb (by simp [isBare])
  | comma hb hb' =>
    rw [List.append_assoc]
    exact head?_blanks hb (by simp [isBare])

theorem readArguments_of_arguments (hst : st = .first ∨ st = .next) (h : Arguments cs args)
    (acc : List Text) (rest : List Code) :
    readArguments st acc (cs ++ rest) = some (acc ++ args, rest) := by
  have hcomma : isBlank ',' = false := isBlank_mark _ (by simp)
  induction h generalizing st acc with
  | last hb ha he =>
    rw [List.append_assoc, readArguments_blanks (hst.imp_right .inl) hb, List.append_assoc,
      readArguments_argument hst ha (head?_ending he rest), readArguments_ending he]
  | @more b s b' cs a args hb ha hb' h ih =>
    have hread : readArguments .after (acc ++ [a]) (',' :: (cs ++ rest)) =
        some (acc ++ [a] ++ args, rest) := by
      rw [← ih (.inr rfl)]
      simp [hcomma]
    rw [List.append_assoc, readArguments_blanks (hst.imp_right .inl) hb, List.append_assoc,
      List.append_assoc, readArguments_argument hst ha (head?_blanks hb' (by simp [isBare])),
      readArguments_blanks (.inr (.inr rfl)) hb', List.cons_append, hread]
    simp

theorem readArguments_eq_some_iff :
    readArguments .first [] cs = some (args, rest) ↔
      ∃ used, cs = used ++ rest ∧ Arguments used args := by
  constructor
  · intro h
    obtain ⟨used, new, hcs, rfl, hused⟩ := splits_of_readArguments h
    exact ⟨used, hcs, hused⟩
  · rintro ⟨used, rfl, h⟩
    exact readArguments_of_arguments (.inl rfl) h [] rest

theorem dropWhile_blanks (hb : Blanks cs) (hc : isBlank c = false) (rest : List Code) :
    (cs ++ c :: rest).dropWhile isBlank = c :: rest := by
  rw [List.dropWhile_append_of_pos hb, List.dropWhile_cons_of_neg (by simp [hc])]

theorem exists_blanks (cs : List Code) : ∃ b, Blanks b ∧ cs = b ++ cs.dropWhile isBlank :=
  ⟨cs.takeWhile isBlank, List.all_eq_true.mp List.all_takeWhile,
    (List.takeWhile_append_dropWhile).symm⟩

theorem afterSet?_eq_some_iff : afterSet? cs = some rest ↔ ∃ o, cs = o ++ rest ∧ Opening o := by
  constructor
  · intro h
    simp only [afterSet?] at h
    split at h
    · rename_i tail
      split at h
      · rename_i arguments hparen
        obtain ⟨b, hb, htail⟩ := exists_blanks tail
        obtain rfl := Option.some.inj h
        exact ⟨_, by rw [htail, hparen]; simp, .set hb⟩
      · cases h
    · cases h
  · rintro ⟨o, rfl, hb⟩
    cases hb with
    | @set b hb =>
      have hdrop := dropWhile_blanks hb (isBlank_mark '(' (by simp)) rest
      simp [afterSet?, hdrop]

theorem afterHead?_eq_some_iff :
    afterHead? cs = some rest ↔ ∃ head, cs = head ++ rest ∧ Head head := by
  constructor
  · intro h
    simp only [afterHead?] at h
    split at h
    · rename_i tail
      split at h
      · rename_i name hdot
        obtain ⟨b, hb, htail⟩ := exists_blanks tail
        obtain ⟨b', hb', hname⟩ := exists_blanks name
        obtain ⟨o, ho, hopening⟩ := afterSet?_eq_some_iff.mp h
        exact ⟨_, by rw [htail, hdot, hname, ho]; simp, .prefixed hb hb' hopening⟩
      · cases h
    · obtain ⟨o, rfl, ho⟩ := afterSet?_eq_some_iff.mp h
      exact ⟨o, rfl, .plain ho⟩
  · rintro ⟨head, rfl, h⟩
    cases h with
    | plain h =>
      have hset : afterSet? (head ++ rest) = some rest := afterSet?_eq_some_iff.mpr ⟨head, rfl, h⟩
      cases h with
      | set hb => simpa [afterHead?] using hset
    | @prefixed b b' cs hb hb' h =>
      have hset : afterSet? (cs ++ rest) = some rest := afterSet?_eq_some_iff.mpr ⟨cs, rfl, h⟩
      have hdot := dropWhile_blanks hb (isBlank_mark '.' (by simp)) (b' ++ (cs ++ rest))
      cases h with
      | @set b'' hb'' =>
        have hname := dropWhile_blanks hb' (by decide : isBlank 's' = false)
          (.char 'e' :: .char 't' :: (b'' ++ [.char '('] ++ rest))
        simp only [List.cons_append, List.append_assoc, List.nil_append] at hdot hname hset ⊢
        simp [afterHead?, hdot, hname, hset]

theorem callAt?_eq_some_iff {before : Option Code} : callAt? before cs = some (args, rest) ↔
    before.any joinsHead = false ∧ ∃ used, cs = used ++ rest ∧ Derives used args := by
  have hread : (afterHead? cs).bind (readArguments .first []) = some (args, rest) ↔
      ∃ used, cs = used ++ rest ∧ Derives used args := by
    rw [Option.bind_eq_some_iff]
    constructor
    · rintro ⟨tail, htail, harguments⟩
      obtain ⟨head, rfl, hhead⟩ := afterHead?_eq_some_iff.mp htail
      obtain ⟨used, rfl, hused⟩ := readArguments_eq_some_iff.mp harguments
      exact ⟨head ++ used, (List.append_assoc ..).symm, .call hhead hused⟩
    · rintro ⟨_, rfl, ⟨hhead, hused⟩⟩
      exact ⟨_, afterHead?_eq_some_iff.mpr ⟨_, List.append_assoc .., hhead⟩,
        readArguments_eq_some_iff.mpr ⟨_, rfl, hused⟩⟩
  unfold callAt?
  split <;> simp_all

end Call

end Storyworld
