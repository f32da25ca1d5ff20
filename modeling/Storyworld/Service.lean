import Storyworld.Block.Document
import Storyworld.Files

/-! The archive as a service of requests and responses. A request is refused with a status and a
reason, or with the problems of its parts; an error that nobody answers for ends it without a
response. -/

namespace Storyworld

open Record (make)

/-- A request with its path as it reads once decoded. -/
structure Request where
  method : String
  path : String
  query : Entries String String
  body : Option Value

structure Response where
  status : Nat
  body : Value

namespace Service

/-- The work on files that ends in a response. -/
abbrev Reply := Filing Response

inductive Endpoint where
  | conversations
  | conversation (slug : String)
  | turns (slug : String)
  | turn (slug index : String)
  | state (slug : String)
  | parameter (slug name : String)
  | preview (slug : String)
deriving DecidableEq

/-- The endpoint whose path has these segments, none of which may be empty. -/
def endpointOf? (segments : List String) : Option Endpoint :=
  if segments.contains "" then none
  else match segments with
    | ["api", "conversations"] => some .conversations
    | ["api", "conversations", slug] => some (.conversation slug)
    | ["api", "conversations", slug, "turns"] => some (.turns slug)
    | ["api", "conversations", slug, "turns", index] => some (.turn slug index)
    | ["api", "conversations", slug, "state"] => some (.state slug)
    | ["api", "conversations", slug, "parameters", name] => some (.parameter slug name)
    | ["api", "conversations", slug, "preview"] => some (.preview slug)
    | _ => none

/-- The endpoint of a path. Slashes at the end of a path do not count. -/
def endpoint? (path : String) : Option Endpoint :=
  match path.toList with
  | '/' :: rest =>
    endpointOf? ((splitAtMark '/' (trimEnd (· == '/') rest)).map String.ofList)
  | _ => none

/-- There is no response with a body that cannot be encoded. -/
def respond (status : Nat) (body : Value) : Reply :=
  if body.isPlain then return ⟨status, body.finiteOnly⟩ else throw .unencodable

def refusal (status : Nat) (reason : Text) : Reply :=
  respond status (.object [("detail", .text reason)])

def notFound : Reply := refusal 404 "Conversation not found"

def turnNotFound : Reply := refusal 404 "Turn not found"

/-- Bodies are not checked against a type of record, only for something with fields. -/
def inBody (p : Problem) : Problem :=
  if p.kind = .notRecord then ⟨p.path, .noAttributes⟩ else p

/-- What stands at a path, or as far on the way to it as there is something. -/
def inputAt : List Text → Value → Value
  | [], v => v
  | segment :: path, .object fields =>
    match Entries.get? segment fields with
    | some v => inputAt path v
    | none => .object fields
  | segment :: path, .list items =>
    match items.zipIdx.find? fun (_, i) => (toString i : Text) = segment with
    | some (v, _) => inputAt path v
    | none => .list items
  | _, v => v

/-- What is said to have a problem. It is plain and finite where it is not in the body. -/
def inputOf (body : Option Value) (p : Problem) : Value :=
  match p.path with
  | [] => .null
  | part :: path => if part = "body" then inputAt path (body.getD .null) else .null

/-- The response to a request with problems shows what has them as well. -/
def unprocessable (body : Option Value) (problems : List Problem) : Reply :=
  let inputs := problems.map (inputOf body)
  if !inputs.all (·.allFinite) then throw .notFinite
  else if !inputs.all (·.isPlain) then throw .unencodable
  else respond 422 (.list (problems.map fun p => .text p.message))

def readBody {α : Type} (codec : Codec α) (body : Option Value) : Checked α :=
  match body with
  | none | some .null => .refused [⟨["body"], .missing⟩]
  | some v =>
    match codec.load v with
    | .accepted a => .accepted a
    | .refused ps => .refused (ps.map fun p => (inBody p).under "body")

def readIndex (segment text : String) : Checked Int :=
  ((Codec.integer.load (.text text)).under "index").under segment

def readQueryIndex (query : Entries String String) : Checked (Option Int) :=
  match query.get? "index" with
  | none => .accepted none
  | some text => (readIndex "query" text).map some

structure CreateBody where
  name : Text
  card : Card

def CreateBody.codec : Codec CreateBody :=
  ((make CreateBody.mk)
    |>.field (.plain "name") .text none (·.name)
    |>.field (.plain "card") Card.codec none (·.card)).codec .accepted

structure AppendBody where
  role : Role
  text : Text
  parseOutput : Option Text

def AppendBody.codec : Codec AppendBody :=
  ((make AppendBody.mk)
    |>.field (.plain "role") Role.codec (some .assistant) (·.role)
    |>.field (.plain "text") .text none (·.text)
    |>.field (.plain "parse_output") (.optional .text) (some none) (·.parseOutput)).codec .accepted

/-- Changes to a turn. A parse output that is given as null is taken away; one that is not given
stays, and so does a text that is not given or null. -/
structure UpdateBody where
  text : Option Text
  parseOutput : Option (Option Text)

def UpdateBody.codec : Codec UpdateBody :=
  ((make UpdateBody.mk)
    |>.field (.plain "text") (.optional .text) (some none) (·.text)
    |>.field (.plain "parse_output") ⟨fun v => ((Codec.optional .text).load v).map some,
      fun p => (Codec.optional .text).dump (p.getD none)⟩ (some none)
      (·.parseOutput)).codec .accepted

def UpdateBody.changes (b : UpdateBody) : Entries Text Value :=
  (b.text.map fun s => (("text" : Text), Value.text s)).toList ++
    (b.parseOutput.map fun p => (("parse_output" : Text), (Codec.optional .text).dump p)).toList

structure PreviewBody where
  text : Text
  index : Option Int

def PreviewBody.codec : Codec PreviewBody :=
  ((make PreviewBody.mk)
    |>.field (.plain "text") .text none (·.text)
    |>.field (.plain "index") (.optional .integer) (some none) (·.index)).codec .accepted

def withRead {α : Type} (read : Checked α) (body : Option Value) (k : α → Reply) : Reply :=
  match read with
  | .accepted x => k x
  | .refused problems => unprocessable body problems

/-- Goes on with a conversation that exists and can be opened. -/
def withOpened (slug : String) (k : Card → State → Reply) : Reply := do
  match ← Files.opened slug with
  | none => notFound
  | some (card, initial) => k card initial

/-- A fault that a caller can mend is a bad request; any other is not answered. -/
def faultReply (f : Fault) : Reply :=
  match f.message? with
  | some reason => refusal 400 reason
  | none => throw (.fault f)

/-- Goes on with the state of a conversation at an index. -/
def withState (slug : String) (index : Option Int) (k : Card → State → Reply) : Reply :=
  withOpened slug fun card initial => do
    match ← observing (Files.stateOf slug card initial index) with
    | .ok s => k card s
    | .error (.fault f) => faultReply f
    | .error e => throw e

def turnsBody (turns : List Turn) : Value := (Codec.list Turn.codec).dump turns

def list : Reply := do
  respond 200 (.list ((← Files.list).map fun slug : String => .text slug))

def create (body : Option Value) : Reply :=
  withRead (readBody CreateBody.codec body) body fun b => do
    match ← observing (Files.create b.name b.card) with
    | .ok slug =>
      respond 201 (.object [("slug", .text slug), ("card", Card.codec.dump b.card)])
    | .error (.taken _) => refusal 409 "Conversation already exists"
    | .error e => throw e

def card (slug : String) : Reply := do
  match ← Files.card? slug with
  | none => notFound
  | some c => respond 200 (Card.codec.dump c)

def delete (slug : String) : Reply := do
  if ← Files.delete slug then respond 200 (.object [("ok", .bool true)])
  else notFound

def turns (slug : String) : Reply :=
  withOpened slug fun _ _ => do
    respond 200 (turnsBody (← Files.turns slug))

def append (slug : String) (body : Option Value) : Reply :=
  withRead (readBody AppendBody.codec body) body fun b =>
    withOpened slug fun _ _ => do
      let t ← Files.append slug (.text b.role.name) (.text b.text)
        ((Codec.optional .text).dump b.parseOutput)
      respond 201 (Turn.codec.dump t)

def update (slug index : String) (body : Option Value) : Reply :=
  withRead (((readIndex "path" index).map Prod.mk).ap (readBody UpdateBody.codec body)) body
    fun (i, b) => withOpened slug fun _ _ => do
      match ← observing (Files.update slug i b.changes) with
      | .ok t => respond 200 (Turn.codec.dump t)
      | .error (.noTurn _) => turnNotFound
      | .error e => throw e

/-- Drops the turn at an index and every turn after it. -/
def truncate (slug index : String) : Reply :=
  withRead (readIndex "path" index) none fun i =>
    withOpened slug fun _ _ => do
      if (position? (← Files.turns slug) i).isNone then turnNotFound
      else respond 200 (turnsBody (← Files.truncate slug i))

def state (slug : String) (query : Entries String String) : Reply :=
  withRead (readQueryIndex query) none fun index =>
    withState slug index fun _ s => respond 200 (State.codec.dump s)

def optionalText (s : Option Text) : Value := (Codec.optional .text).dump s

def parameter (slug name : String) (query : Entries String String) : Reply :=
  withRead (readQueryIndex query) none fun index =>
    withState slug index fun card s =>
      let subject := query.get? "subject"
      let target := query.get? "target"
      match s.parameterValue card name subject target with
      | .error f => faultReply f
      | .ok v =>
        -- Only here a value goes into the response as it is, and not as part of a document.
        if !v.allFinite then throw .notFinite
        else respond 200 (.object [
          ("name", .text name), ("subject", optionalText subject),
          ("target", optionalText target), ("value", v),
          ("phase", optionalText ((card.parameter? name).bind (·.phase? v)))])

def preview (slug : String) (body : Option Value) : Reply :=
  withRead (readBody PreviewBody.codec body) body fun b =>
    withState slug b.index fun card base =>
      match card.parse b.text with
      | .error _ => throw (.fault .overlong)
      | .ok parsed =>
        match base.applyParsed card parsed with
        | .error f => throw (.fault f)
        | .ok s =>
          respond 200 (.object [
            ("parsed", Block.codec.dump parsed), ("state", State.codec.dump s)])

def handle (r : Request) : Reply :=
  match endpoint? r.path, r.method with
  | none, _ => refusal 404 "Not Found"
  | some .conversations, "GET" => list
  | some .conversations, "POST" => create r.body
  | some (.conversation slug), "GET" => card slug
  | some (.conversation slug), "DELETE" => delete slug
  | some (.turns slug), "GET" => turns slug
  | some (.turns slug), "POST" => append slug r.body
  | some (.turn slug index), "PATCH" => update slug index r.body
  | some (.turn slug index), "DELETE" => truncate slug index
  | some (.state slug), "GET" => state slug r.query
  | some (.parameter slug name), "GET" => parameter slug name r.query
  | some (.preview slug), "POST" => preview slug r.body
  | some _, _ => refusal 405 "Method Not Allowed"

end Service

end Storyworld
