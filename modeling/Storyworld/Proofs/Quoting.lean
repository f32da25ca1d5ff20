import Mathlib.Algebra.Group.Nat.Defs
import Mathlib.Data.List.Chain
import Storyworld.Json.Token
import Storyworld.Text.Quoted

/-! Reading back what was quoted as data. The body of a data quote gives the code units of the text
and ends at its own closing mark, so a quote is told apart from all that may follow it. -/

namespace Storyworld

/-- The code units of a character, two of them beyond the basic plane. -/
def unitsOf (c : Code) : List Nat :=
  if c.toNat < 0x10000 then [c.toNat]
  else [0xd800 + (c.toNat - 0x10000) / 0x400, 0xdc00 + (c.toNat - 0x10000) % 0x400]

theorem hexDigitValue?_hexDigit {d : Nat} (h : d < 16) :
    Json.hexDigitValue? (hexDigit d) = some d := by
  have hall : ∀ d < 16, Json.hexDigitValue? (hexDigit d) = some d := by decide
  exact hall d h

theorem hexDigit_toNat_lt {d : Nat} (h : d < 16) : (hexDigit d).toNat < 128 := by
  have hall : ∀ d < 16, (hexDigit d).toNat < 128 := by decide
  exact hall d h

theorem hexValue?_hexDigits (width n : Nat) :
    Json.hexValue? (hexDigits width n) = some (n % 16 ^ width) := by
  induction width generalizing n with
  | zero => simp [hexDigits, Json.hexValue?, Nat.mod_one]
  | succ width ih =>
    have hd : n % 16 < 16 := Nat.mod_lt n (by decide)
    have hp : n % 16 ^ (width + 1) = n / 16 % 16 ^ width * 16 + n % 16 := by
      rw [Nat.pow_succ', Nat.mod_mul]
      omega
    simp only [Json.hexValue?] at ih
    simp [hexDigits, Json.hexValue?, List.foldlM_append, ih, hexDigitValue?_hexDigit hd, hp]

theorem length_hexDigits (width n : Nat) : (hexDigits width n).length = width := by
  induction width generalizing n with
  | zero => rfl
  | succ width ih => simp [hexDigits, ih]

theorem hexDigits_inj {width m n : Nat} (hm : m < 16 ^ width) (hn : n < 16 ^ width)
    (h : hexDigits width m = hexDigits width n) : m = n := by
  have hv := congrArg Json.hexValue? h
  rw [hexValue?_hexDigits, hexValue?_hexDigits, Nat.mod_eq_of_lt hm, Nat.mod_eq_of_lt hn] at hv
  exact Option.some.inj hv

theorem stringBody_unit {n : Nat} (h : n < 0x10000) (rest : List Code) :
    Json.stringBody (unitEscape.unit n ++ rest) =
      (Json.stringBody rest).map fun p => (.unit n :: p.1, p.2 + 6) := by
  obtain ⟨a, b, c, d, hs⟩ : ∃ a b c d, hexDigits 4 n = [a, b, c, d] := ⟨_, _, _, _, rfl⟩
  have hn : n % 16 ^ 4 = n := Nat.mod_eq_of_lt h
  have hv := hexValue?_hexDigits 4 n
  rw [hs, hn] at hv
  simp only [unitEscape.unit, hs, List.cons_append, List.nil_append, Json.stringBody, hv]
  cases Json.stringBody rest <;> rfl

theorem stringBody_plain {c : Code} (hq : c ≠ '\x22') (hb : c ≠ '\\') (h : 32 ≤ c.toNat)
    (rest : List Code) :
    Json.stringBody (c :: rest) =
      (Json.stringBody rest).map fun p => (.code c :: p.1, p.2 + 1) := by
  rw [Json.stringBody.eq_def]
  split
  · simp_all
  · simp_all
  · simp_all
  · rename_i d cs _ _ he
    obtain ⟨rfl, rfl⟩ := List.cons.inj he
    simp only [hq, hb, if_false, Nat.not_lt.mpr h, decide_false, Bool.or_false]
    cases Json.stringBody rest <;> simp

theorem shortEscape?_some {c e : Code} (h : shortEscape? c = some e) :
    c.toNat < 128 ∧ e.toNat < 128 ∧ e ≠ 'u' ∧ Json.escaped? e = some c := by
  unfold shortEscape? at h
  split at h
  · rename_i hc
    have hc : c = '\x22' ∨ c = '\\' := by simpa using hc
    obtain rfl := Option.some.inj h
    rcases hc with rfl | rfl <;> exact ⟨by decide, by decide, by decide, rfl⟩
  repeat'
    split at h
    · subst c
      obtain rfl := Option.some.inj h
      exact ⟨by decide, by decide, by decide, rfl⟩
  cases h

theorem shortEscape?_none {c : Code} (h : shortEscape? c = none) : c ≠ '\x22' ∧ c ≠ '\\' := by
  constructor <;> rintro rfl <;> simp [shortEscape?] at h

/-- An escape of two characters is read as the character it names. -/
theorem stringBody_escaped {c e : Code} (hu : e ≠ 'u') (he : Json.escaped? e = some c)
    (rest : List Code) :
    Json.stringBody ('\\' :: e :: rest) =
      (Json.stringBody rest).map fun p => (.code c :: p.1, p.2 + 2) := by
  rw [Json.stringBody.eq_def]
  split
  · simp_all
  · simp_all
  · rename_i d cs _ hd
    obtain ⟨rfl, rfl⟩ := List.cons.inj (List.cons.inj hd).2
    rw [he]
    cases Json.stringBody rest <;> rfl
  · rename_i hne he
    obtain ⟨rfl, rfl⟩ := List.cons.inj he
    exact absurd rfl (hne e rest rfl)

theorem Code.eq_high {c : Code} (hlow : 0xd800 ≤ c.toNat) (hhigh : c.toNat < 0xdc00) :
    ∃ bits, c = .high bits := by
  cases c with
  | char c =>
    have hvalid := c.valid
    simp only [UInt32.isValidChar, Nat.isValidChar] at hvalid
    have hnat : c.val.toNat = c.toNat := rfl
    simp only [Code.toNat_char] at hlow hhigh
    omega
  | high bits => exact ⟨bits, rfl⟩
  | low bits => simp only [Code.toNat] at hhigh; omega

theorem Code.toNat_lt (c : Code) : c.toNat < 0x110000 := by
  cases c with
  | char c =>
    rcases c.valid with h | h
    · exact Nat.lt_trans h (by decide)
    · exact h.2
  | high bits => simp only [Code.toNat]; omega
  | low bits => simp only [Code.toNat]; omega

theorem stringBody_unitEscape (c : Code) (rest : List Code) :
    Json.stringBody (unitEscape c ++ rest) =
      (Json.stringBody rest).map fun p =>
        ((unitsOf c).map .unit ++ p.1, p.2 + (unitEscape c).length) := by
  have hc := c.toNat_lt
  by_cases h : c.toNat < 0x10000
  · simp only [unitEscape, unitsOf, if_pos h]
    rw [stringBody_unit h]
    simp [unitEscape.unit, length_hexDigits]
  · simp only [unitEscape, unitsOf, if_neg h, List.append_assoc]
    rw [stringBody_unit (by omega), stringBody_unit (by omega)]
    cases Json.stringBody rest <;> simp [unitEscape.unit, length_hexDigits]

/-- The parts that a code point is quoted in. -/
def partsOf (c : Code) : List Json.Part :=
  match shortEscape? c with
  | some _ => [.code c]
  | none => if c.toNat < 32 || 127 ≤ c.toNat then (unitsOf c).map .unit else [.code c]

/-- Reading a quoted code point gives its parts and goes on behind it. -/
theorem stringBody_dataChar (c : Code) (rest : List Code) :
    Json.stringBody (dataChar true c ++ rest) =
      (Json.stringBody rest).map fun p => (partsOf c ++ p.1, p.2 + (dataChar true c).length) := by
  unfold dataChar partsOf
  cases hs : shortEscape? c with
  | some e =>
    obtain ⟨-, -, hu, he⟩ := shortEscape?_some hs
    exact stringBody_escaped hu he rest
  | none =>
    simp only [Bool.true_and]
    split
    · exact stringBody_unitEscape c rest
    · rename_i hp
      simp only [Bool.or_eq_true, decide_eq_true_eq, not_or, Nat.not_lt] at hp
      obtain ⟨hq, hb⟩ := shortEscape?_none hs
      exact stringBody_plain hq hb hp.1 rest

theorem stringBody_quoted (cs rest : List Code) :
    Json.stringBody (cs.flatMap (dataChar true) ++ .char '\x22' :: rest) =
      some (cs.flatMap partsOf, (cs.flatMap (dataChar true)).length + 1) := by
  induction cs with
  | nil => simp [Json.stringBody]
  | cons c cs ih =>
    rw [List.flatMap_cons, List.append_assoc, stringBody_dataChar, ih]
    simp only [Option.map_some, List.flatMap_cons, List.length_append, Option.some.injEq,
      Prod.mk.injEq, true_and]
    omega

/-! Two halves that stand one behind the other are quoted as the character that they encode. -/

/-- The character of a high and a low half. -/
def paired (high low : Fin 1024) : Code := Code.ofNat (0x10000 + high * 0x400 + low)

/-- The code points with each high half directly before a low one joined to it. -/
def joinHalves : List Code → List Code
  | .high h :: .low l :: cs => paired h l :: joinHalves cs
  | c :: cs => c :: joinHalves cs
  | [] => []

def Text.joined (s : Text) : Text := ofList (joinHalves s.toList)

/-- No high half stands directly before a low one. -/
def Apart (cs : List Code) : Prop := cs.IsChain fun c d => (c.isHigh && d.isLow) = false

instance : DecidablePred Apart := fun cs =>
  inferInstanceAs (Decidable (cs.IsChain fun c d => (c.isHigh && d.isLow) = false))

theorem Apart.joinHalves_eq {cs : List Code} (h : Apart cs) : joinHalves cs = cs := by
  fun_induction joinHalves cs with
  | case1 high low cs ih => simp [Apart, Code.isHigh, Code.isLow] at h
  | case2 c cs hne ih => rw [ih h.of_cons]
  | case3 => rfl

theorem Apart.joined_eq {s : Text} (h : Apart s.toList) : s.joined = s := by
  rw [Text.joined, h.joinHalves_eq, Text.ofList_toList]

theorem paired_toNat (high low : Fin 1024) :
    (paired high low).toNat = 0x10000 + high * 0x400 + low := by
  have hvalid : (0x10000 + high * 0x400 + low : Nat).isValidChar := .inr (by omega)
  rw [paired, Code.ofNat, dif_neg (by omega), dif_neg (by omega), Code.toNat_char,
    Char.ofNat, dif_pos hvalid]
  rfl

theorem unitsOf_eq_cons {c : Code} {v : Nat} {us : List Nat} (h : unitsOf c = v :: us) :
    v = c.toNat ∨ v = 0xd800 + (c.toNat - 0x10000) / 0x400 := by
  unfold unitsOf at h
  split at h
  · exact .inl (List.cons.inj h).1.symm
  · exact .inr (List.cons.inj h).1.symm

theorem unitsOf_high (bits : Fin 1024) : unitsOf (.high bits) = [0xd800 + (bits : Nat)] := by
  rw [unitsOf, if_pos (by simp only [Code.toNat]; omega), Code.toNat]

theorem unitsOf_low (bits : Fin 1024) : unitsOf (.low bits) = [0xdc00 + (bits : Nat)] := by
  rw [unitsOf, if_pos (by simp only [Code.toNat]; omega), Code.toNat]

theorem unitsOf_paired (high low : Fin 1024) :
    unitsOf (paired high low) = [0xd800 + (high : Nat), 0xdc00 + (low : Nat)] := by
  rw [unitsOf, paired_toNat, if_neg (by omega)]
  have hhigh : 0xd800 + (0x10000 + high * 0x400 + low - 0x10000) / 0x400 = 0xd800 + (high : Nat) := by
    omega
  have hlow : 0xdc00 + (0x10000 + high * 0x400 + low - 0x10000) % 0x400 = 0xdc00 + (low : Nat) := by
    omega
  rw [hhigh, hlow]

/-- The escapes of a code point are those of its units. -/
theorem unitEscape_eq_flatMap (c : Code) : unitEscape c = (unitsOf c).flatMap unitEscape.unit := by
  unfold unitEscape unitsOf
  split <;> simp

theorem dataChar_of_large {c : Code} (h : 128 ≤ c.toNat) :
    dataChar true c = (unitsOf c).flatMap unitEscape.unit ∧ partsOf c = (unitsOf c).map .unit := by
  have hshort : shortEscape? c = none := by
    cases hs : shortEscape? c with
    | none => rfl
    | some e => exact absurd (shortEscape?_some hs).1 (by omega)
  have hlarge : 127 ≤ c.toNat := by omega
  simp [dataChar, partsOf, hshort, hlarge, unitEscape_eq_flatMap]

theorem dataChar_paired (high low : Fin 1024) :
    dataChar true (paired high low) = dataChar true (.high high) ++ dataChar true (.low low) := by
  have hpaired : 128 ≤ (paired high low).toNat := by rw [paired_toNat]; omega
  have hhigh : 128 ≤ (Code.high high).toNat := by simp only [Code.toNat]; omega
  have hlow : 128 ≤ (Code.low low).toNat := by simp only [Code.toNat]; omega
  rw [(dataChar_of_large hpaired).1, (dataChar_of_large hhigh).1, (dataChar_of_large hlow).1,
    unitsOf_paired, unitsOf_high, unitsOf_low]
  simp

theorem flatMap_dataChar_joinHalves (cs : List Code) :
    (joinHalves cs).flatMap (dataChar true) = cs.flatMap (dataChar true) := by
  fun_induction joinHalves cs with
  | case1 high low cs ih => simp [dataChar_paired, ih]
  | case2 c cs hne ih => simp [ih]
  | case3 => rfl

/-- A unit that makes no pair with the part behind it is read by itself. -/
theorem ofParts_unit {u : Nat} {ps : List Json.Part}
    (h : ∀ v qs, ps = .unit v :: qs → ¬(0xd800 ≤ u ∧ u < 0xdc00 ∧ 0xdc00 ≤ v ∧ v < 0xe000)) :
    Json.ofParts (.unit u :: ps) = Code.ofNat u :: Json.ofParts ps := by
  cases ps with
  | nil => rfl
  | cons p qs =>
    cases p with
    | code c => rfl
    | unit v => rw [Json.ofParts, if_neg (h v qs rfl)]

/-- The first part of a code point is a low half only if the code point is. -/
theorem partsOf_eq_unit {c : Code} {v : Nat} {qs ps : List Json.Part}
    (h : partsOf c ++ ps = .unit v :: qs) : v < 0xdc00 ∨ 0xe000 ≤ v ∨ ∃ bits, c = .low bits := by
  have hunits : ∃ us, unitsOf c = v :: us := by
    unfold partsOf at h
    split at h
    · cases h
    · split at h
      · cases hu : unitsOf c with
        | nil =>
          unfold unitsOf at hu
          split at hu <;> cases hu
        | cons u us =>
          rw [hu] at h
          cases h
          exact ⟨us, rfl⟩
      · cases h
  obtain ⟨us, hu⟩ := hunits
  have hc := c.toNat_lt
  cases c with
  | low bits => exact .inr (.inr ⟨bits, rfl⟩)
  | high bits =>
    rw [unitsOf_high] at hu
    cases hu
    omega
  | char c =>
    have hvalid : c.toNat < 0xd800 ∨ 0xdfff < c.toNat := by
      rcases c.valid with h | h
      · exact .inl h
      · exact .inr h.1
    have hv := unitsOf_eq_cons hu
    simp only [Code.toNat_char] at hc hv
    omega

theorem ofParts_partsOf {c : Code} {cs : List Code}
    (h : ∀ high low ds, c = .high high → cs ≠ .low low :: ds) :
    Json.ofParts (partsOf c ++ cs.flatMap partsOf) = c :: Json.ofParts (cs.flatMap partsOf) := by
  by_cases hlarge : c.toNat < 0x10000
  · have hone : partsOf c = [.code c] ∨ partsOf c = [.unit c.toNat] := by
      unfold partsOf unitsOf
      rw [if_pos hlarge]
      split
      · exact .inl rfl
      · split
        · exact .inr rfl
        · exact .inl rfl
    rcases hone with hone | hone
    · rw [hone]
      rfl
    · rw [hone, List.singleton_append, ofParts_unit, Code.ofNat_toNat]
      intro v qs hv hpair
      cases cs with
      | nil => cases hv
      | cons d ds =>
        rw [List.flatMap_cons] at hv
        obtain hlt | hge | ⟨low, rfl⟩ := partsOf_eq_unit hv
        · omega
        · omega
        · obtain ⟨high, rfl⟩ := Code.eq_high hpair.1 hpair.2.1
          exact h high low ds rfl rfl
  · obtain ⟨-, hparts⟩ := dataChar_of_large (c := c) (by omega)
    rw [hparts, unitsOf, if_neg hlarge]
    have hc := c.toNat_lt
    simp only [List.map_cons, List.map_nil, List.cons_append, List.nil_append]
    rw [Json.ofParts, if_pos (by omega)]
    have hn : 0x10000 + (0xd800 + (c.toNat - 0x10000) / 0x400 - 0xd800) * 0x400 +
        (0xdc00 + (c.toNat - 0x10000) % 0x400 - 0xdc00) = c.toNat := by omega
    rw [hn, Code.ofNat_toNat]

/-- What was quoted reads back with its pairs of halves joined. -/
theorem ofParts_flatMap_partsOf (cs : List Code) :
    Json.ofParts (cs.flatMap partsOf) = joinHalves cs := by
  fun_induction joinHalves cs with
  | case1 high low cs ih =>
    have hhigh : 128 ≤ (Code.high high).toNat := by simp only [Code.toNat]; omega
    have hlow : 128 ≤ (Code.low low).toNat := by simp only [Code.toNat]; omega
    rw [List.flatMap_cons, List.flatMap_cons, (dataChar_of_large hhigh).2,
      (dataChar_of_large hlow).2, unitsOf_high, unitsOf_low]
    simp only [List.map_cons, List.map_nil, List.cons_append, List.nil_append]
    rw [Json.ofParts, if_pos (by omega), ih, paired, Nat.add_sub_cancel_left,
      Nat.add_sub_cancel_left]
  | case2 c cs hne ih =>
    rw [List.flatMap_cons, ofParts_partsOf hne, ih]
  | case3 => rfl

theorem hexDigits_ascii (width n : Nat) : ∀ x ∈ hexDigits width n, x.toNat < 128 := by
  induction width generalizing n with
  | zero => simp [hexDigits]
  | succ width ih =>
    rw [hexDigits, List.forall_mem_append, List.forall_mem_singleton]
    exact ⟨ih _, hexDigit_toNat_lt (Nat.mod_lt n (by decide))⟩

theorem unitEscape_ascii (c : Code) : ∀ x ∈ unitEscape c, x.toNat < 128 := by
  have hm : '\\'.toNat < 128 ∧ 'u'.toNat < 128 := by decide
  have hunit (n : Nat) : ∀ x ∈ unitEscape.unit n, x.toNat < 128 := by
    simp only [unitEscape.unit, List.forall_mem_cons]
    exact ⟨hm.1, hm.2, hexDigits_ascii _ _⟩
  unfold unitEscape
  split
  · exact hunit _
  · exact List.forall_mem_append.mpr ⟨hunit _, hunit _⟩

theorem dataChar_ascii (c : Code) : ∀ x ∈ dataChar true c, x.toNat < 128 := by
  unfold dataChar
  split
  · rename_i e he
    have h := shortEscape?_some he
    simp only [List.forall_mem_cons]
    exact ⟨by decide, h.2.1, by simp⟩
  · split
    · exact unitEscape_ascii c
    · rename_i hp
      simp only [Bool.true_and, Bool.or_eq_true, decide_eq_true_eq, not_or, Nat.not_lt,
        Nat.not_le] at hp
      rw [List.forall_mem_singleton]
      omega

theorem quoteData_ascii (cs : List Code) : ∀ x ∈ quoteData true cs, x.toNat < 128 := by
  simp only [quoteData, List.cons_append, List.forall_mem_cons, List.forall_mem_append]
  refine ⟨by decide, ?_, by decide, by simp⟩
  intro x hx
  obtain ⟨c, _, hx⟩ := List.mem_flatMap.mp hx
  exact dataChar_ascii c x hx

/-- A quote at the front of a text determines what it quotes, up to pairs of halves, and what follows
it. -/
theorem quoteData_append_inj {cs ds rest rest' : List Code}
    (h : quoteData true cs ++ rest = quoteData true ds ++ rest') :
    joinHalves cs = joinHalves ds ∧ rest = rest' := by
  have hb : cs.flatMap (dataChar true) ++ .char '\x22' :: rest =
      ds.flatMap (dataChar true) ++ .char '\x22' :: rest' := by
    simpa [quoteData] using h
  have hr := congrArg Json.stringBody hb
  rw [stringBody_quoted, stringBody_quoted] at hr
  obtain ⟨hparts, -⟩ := Prod.mk.inj (Option.some.inj hr)
  have hjoined : joinHalves cs = joinHalves ds := by
    rw [← ofParts_flatMap_partsOf, hparts, ofParts_flatMap_partsOf]
  refine ⟨hjoined, ?_⟩
  rw [← flatMap_dataChar_joinHalves cs, hjoined, flatMap_dataChar_joinHalves] at hb
  exact (List.cons.inj (List.append_cancel_left hb)).2

theorem quotedAscii_joined (s : Text) : quotedAscii s.joined = quotedAscii s := by
  rw [quotedAscii, quotedAscii, Text.joined, Text.toList_ofList, quoteData, quoteData,
    flatMap_dataChar_joinHalves]

end Storyworld
