import Storyworld.Entries
import Storyworld.Text.Case
import Storyworld.Text.Trim

/-! Dash-led items in the body of an element, with the labelled lines that follow them. -/

namespace Storyworld

structure Item where
  head : List Code
  attributes : Entries String Text

/-- The small letters of a key, which ignores case, digits and punctuation. -/
def squash (cs : List Code) : String :=
  String.ofList ((lower cs).filterMap fun c => c.char?.filter fun c => 'a' ≤ c && c ≤ 'z')

def isColon (c : Code) : Bool := c == ':' || c == '：'

/-- A label of at most 32 characters before the first colon, and what follows. -/
def splitLabel? (cs : List Code) : Option (List Code × List Code) :=
  let before := cs.takeWhile (!isColon ·)
  let label := trimEnd isBlank before
  match cs.dropWhile (!isColon ·) with
  | [] => none
  | _ :: rest =>
    if before.isEmpty || 32 < label.length then none else some (trim label, trim rest)

def isBullet (c : Code) : Bool := c == '-' || c == '*' || c == '•'

/-- Takes a line: a bullet, or the first line, begins an item, and a labelled line belongs to the
newest one. Items are kept newest first. -/
def addLine (items : List Item) (line : List Code) : List Item :=
  match trim line, items with
  | [], _ => items
  | cs, [] => [⟨trim (trimStart isBullet cs), []⟩]
  | c :: cs, last :: older =>
    if isBullet c then ⟨trim (trimStart isBullet (c :: cs)), []⟩ :: items
    else match splitLabel? (c :: cs) with
      | some (label, value) =>
        ⟨last.head, last.attributes.put (squash label) (Text.ofList value)⟩ :: older
      | none => items

def listItems (body : List Code) : List Item := ((lines body).foldl addLine []).reverse

def isMark (c : Code) : Bool :=
  let marks : List Code := ['\x22', '\x27', '“', '”', '‘', '’', '「', '」']
  marks.contains c

/-- A text without blanks around it, then without marks, then without blanks. -/
def unquote (cs : List Code) : List Code := trim (trimWith isMark (trim cs))

def nameLabels : List Text := ["character", "location", "entity", "name", "角色", "地点", "实体"]

def isOpening (c : Code) : Bool := c == '(' || c == '（'

def isClosing (c : Code) : Bool := c == ')' || c == '）'

/-- A note in parentheses at the end, and what stands before it. -/
def trailingNote? (cs : List Code) : Option (List Code × List Code) :=
  match (trimEnd isBlank cs).reverse with
  | [] => none
  | last :: before =>
    if !isClosing last then none
    else
      let inside (c : Code) : Bool := !isOpening c && !isClosing c
      match before.dropWhile inside with
      | c :: rest =>
        if isOpening c then
          some (trimEnd isBlank rest.reverse, trim (before.takeWhile inside).reverse)
        else none
      | [] => none

/-- The name in the head of an item and its note, where an empty note is none. -/
def entityRef (head : List Code) : Text × Option Text :=
  let named := match splitLabel? head with
    | some (label, value) =>
      if nameLabels.contains (Text.ofList (lower label)) then value else head
    | none => head
  match trailingNote? named with
  | some (name, note) =>
    (Text.ofList (unquote name), if note.isEmpty then none else some (Text.ofList note))
  | none => (Text.ofList (unquote named), none)

end Storyworld
