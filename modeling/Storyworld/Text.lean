/-! Texts as sequences of code points. A code point is a character, or one half of a surrogate pair by
itself: such a half stands in no encoded document, but it can be written as an escape. -/

namespace Storyworld

inductive Code where
  | char (c : Char)
  | high (bits : Fin 1024)
  | low (bits : Fin 1024)
deriving DecidableEq

namespace Code

instance : Coe Char Code := ⟨char⟩

instance : Inhabited Code := ⟨char 'A'⟩

def toNat : Code → Nat
  | char c => c.toNat
  | high bits => 0xd800 + bits
  | low bits => 0xdc00 + bits

def ofNat (n : Nat) : Code :=
  if h : 0xd800 ≤ n ∧ n < 0xdc00 then high ⟨n - 0xd800, by omega⟩
  else if h : 0xdc00 ≤ n ∧ n < 0xe000 then low ⟨n - 0xdc00, by omega⟩
  else char (Char.ofNat n)

instance : LE Code := ⟨fun a b => a.toNat ≤ b.toNat⟩

instance (a b : Code) : Decidable (a ≤ b) := inferInstanceAs (Decidable (a.toNat ≤ b.toNat))

/-- The character that it is, none for a half. -/
def char? : Code → Option Char
  | char c => some c
  | _ => none

def isHigh : Code → Bool
  | high _ => true
  | _ => false

def isLow : Code → Bool
  | low _ => true
  | _ => false

def isHalf (c : Code) : Bool := c.isHigh || c.isLow

/-- A decimal digit in ASCII. -/
def isDigit : Code → Bool
  | char c => c.isDigit
  | _ => false

/-- A letter or a digit in ASCII. -/
def isAlphanum : Code → Bool
  | char c => c.isAlphanum
  | _ => false

/-- The small letter for a capital one in ASCII. -/
def toLower : Code → Code
  | char c => char c.toLower
  | c => c

@[simp] theorem toNat_char (c : Char) : (char c).toNat = c.toNat := rfl

@[simp] theorem isDigit_char (c : Char) : (char c).isDigit = c.isDigit := rfl

@[simp] theorem isAlphanum_char (c : Char) : (char c).isAlphanum = c.isAlphanum := rfl

@[simp] theorem toLower_char (c : Char) : (char c).toLower = char c.toLower := rfl

@[simp] theorem isHalf_char (c : Char) : (char c).isHalf = false := rfl

theorem ofNat_toNat (c : Code) : ofNat c.toNat = c := by
  cases c with
  | char c =>
    have hvalid := c.valid
    simp only [UInt32.isValidChar, Nat.isValidChar] at hvalid
    have hnat : c.val.toNat = c.toNat := rfl
    rw [hnat] at hvalid
    rw [ofNat, dif_neg (by simp; omega), dif_neg (by simp; omega), toNat_char, Char.ofNat_toNat]
  | high bits =>
    have hnat : (high bits).toNat = 0xd800 + bits := rfl
    rw [ofNat, dif_pos (by omega)]
    simp [hnat]
  | low bits =>
    have hnat : (low bits).toNat = 0xdc00 + bits := rfl
    rw [ofNat, dif_neg (by omega), dif_pos (by omega)]
    simp [hnat]

theorem isDigit_iff {c : Code} : c.isDigit = true ↔ 48 ≤ c.toNat ∧ c.toNat ≤ 57 := by
  cases c with
  | char c => simp [Char.isDigit, UInt32.le_iff_toNat_le]
  | high bits | low bits =>
    simp only [isDigit, toNat, reduceCtorEq, false_iff]
    omega

end Code

structure Text where
  ofList ::
  toList : List Code
deriving DecidableEq

namespace Text

def ofString (s : String) : Text := ofList (s.toList.map .char)

instance : Coe String Text := ⟨ofString⟩

instance : Inhabited Text := ⟨ofList []⟩

instance : Append Text := ⟨fun s t => ofList (s.toList ++ t.toList)⟩

def length (s : Text) : Nat := s.toList.length

/-- The text as a string of characters, if no half is in it. -/
def plain? (s : Text) : Option String := (s.toList.mapM Code.char?).map String.ofList

/-- Whether the text can be encoded: no half is in it. -/
def isPlain (s : Text) : Bool := s.toList.all fun c => !c.isHalf

def intercalate (separator : Text) (parts : List Text) : Text :=
  ofList (separator.toList.intercalate (parts.map toList))

variable {s t u : Text}

@[simp] theorem toList_ofList (l : List Code) : (ofList l).toList = l := rfl

@[simp] theorem ofList_toList (s : Text) : ofList s.toList = s := rfl

@[simp] theorem toList_ofString (s : String) : (ofString s).toList = s.toList.map .char := rfl

@[simp] theorem isPlain_ofString (s : String) : (ofString s).isPlain = true := by
  simp [isPlain]

theorem toList_inj : s.toList = t.toList ↔ s = t := ⟨fun h => by rw [← ofList_toList s, h], congrArg _⟩

@[simp] theorem ofString_inj {s t : String} : ofString s = ofString t ↔ s = t := by
  rw [← toList_inj, toList_ofString, toList_ofString,
    List.map_inj_right fun _ _ => Code.char.inj, String.toList_inj]

@[simp] theorem toList_eq_nil : s.toList = [] ↔ s = ofString "" := toList_inj (t := ofString "")

@[simp] theorem toList_append : (s ++ t).toList = s.toList ++ t.toList := rfl

@[simp] theorem empty_append : ofString "" ++ s = s := rfl

@[simp] theorem append_empty : s ++ ofString "" = s := by
  simp [← toList_inj]

theorem append_assoc : s ++ t ++ u = s ++ (t ++ u) := by
  simp [← toList_inj]

@[simp] theorem length_toList : s.toList.length = s.length := rfl

@[simp] theorem length_append : (s ++ t).length = s.length + t.length :=
  List.length_append

theorem toList_intercalate (parts : List Text) :
    (s.intercalate parts).toList = s.toList.intercalate (parts.map toList) := rfl

@[simp] theorem intercalate_singleton : s.intercalate [t] = t := by
  simp [← toList_inj, toList_intercalate]

@[simp] theorem intercalate_cons_cons {parts : List Text} :
    s.intercalate (t :: u :: parts) = t ++ s ++ s.intercalate (u :: parts) := by
  simp [← toList_inj, toList_intercalate, List.intercalate_cons_cons]

theorem intercalate_concat {parts : List Text} (h : parts ≠ []) :
    s.intercalate (parts ++ [t]) = s.intercalate parts ++ s ++ t := by
  induction parts with
  | nil => exact (h rfl).elim
  | cons p parts ih =>
    cases parts with
    | nil => simp
    | cons q parts =>
      rw [List.cons_append, List.cons_append, intercalate_cons_cons, intercalate_cons_cons,
        ← List.cons_append, ih (List.cons_ne_nil q parts)]
      simp only [append_assoc]

@[simp] theorem plain?_ofString (s : String) : (ofString s).plain? = some s := by
  have hmap (l : List Char) : (l.map Code.char).mapM Code.char? = some l := by
    induction l with
    | nil => rfl
    | cons c l ih => simp [Code.char?, ih]
  simp [plain?, hmap]

theorem plain?_eq_some {s : Text} {w : String} : s.plain? = some w ↔ s = ofString w := by
  refine ⟨fun h => ?_, fun h => by rw [h, plain?_ofString]⟩
  have hmap (l : List Code) (cs : List Char) (h : l.mapM Code.char? = some cs) : l = cs.map .char := by
    induction l generalizing cs with
    | nil => cases cs <;> simp_all
    | cons c l ih =>
      cases c with
      | char c =>
        simp only [List.mapM_cons, Code.char?, Option.bind_eq_bind, Option.bind_some,
          Option.bind_eq_some_iff] at h
        obtain ⟨rest, hrest, heq⟩ := h
        cases heq
        simp [ih rest hrest]
      | high | low => simp [Code.char?] at h
  simp only [plain?, Option.map_eq_some_iff] at h
  obtain ⟨cs, hcs, rfl⟩ := h
  simp [← toList_inj, hmap _ _ hcs]

end Text

end Storyworld
