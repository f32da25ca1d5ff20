import Storyworld.Block.Parser
import Storyworld.Fault
import Storyworld.State

/-! From one state to the next: what the intents of a block do. A refused operator leaves its value
as it was; all other parts of the block still apply. -/

namespace Storyworld

/-- Writes to coordinates that may give no address. -/
def Variables.writeTo (v : Variables) (a : Except AddressError Address) (value : Value) :
    Except Fault Variables :=
  match a with
  | .error e => .error (.address e)
  | .ok a =>
    match v.write a value with
    | .ok next => .ok next
    | .error e => .error (.write e)

namespace Card

/-- The addresses at which a parameter has a value from the start: one for the world or the scene,
one for each bound character, none for relationships. -/
def initialAddresses (card : Card) (p : Parameter) : List (Except AddressError Address) :=
  match p.scope with
  | .global | .scene => [Address.resolve p.scope p.name none none]
  | .character =>
    (card.boundEntities p.name).map fun e => Address.resolve .character p.name (some e.name) none
  | .relationship => []

def hasDefault (p : Parameter) : Bool :=
  match p.default with
  | .null => false
  | _ => true

/-- The state before any history, in which parameters have their defaults. -/
def initialState (card : Card) : Except Fault State := do
  let values ← (card.parameters.filter hasDefault).foldlM
    (fun v p => (card.initialAddresses p).foldlM (fun v a => v.writeTo a p.default) v)
    Variables.empty
  .ok { State.empty with values := values }

def mutate (card : Card) (v : Variables) (m : Mutation) : Except Fault Variables :=
  match card.parameter? m.parameter with
  | none => .error (.unknownParameter m.parameter)
  | some p =>
    match Address.resolve m.scope m.parameter m.subject m.target with
    | .error e => .error (.address e)
    | .ok a =>
      match p.apply (v.read a) m.operator m.valueLiteral with
      | .error (.refused _) => .ok v
      | .error .overlong => .error .overlong
      | .error .tooLarge => .error .tooLarge
      | .ok value => v.writeTo (.ok a) value

end Card

def Locations.apply (config : CastConfig) (l : Locations) (i : LocationIntent) : Locations :=
  match i.action with
  | .setCurrent => l.setCurrent i.location
  | .addCandidate => (l.addCandidate i.location config.locations.candidate).2
  | .removeCandidate => (l.removeCandidate i.location).2

def Cast.apply (config : CastConfig) (c : Cast) (i : CastIntent) : Cast :=
  match i.action with
  | .enter => (c.enter i.entity (i.tier.getD .focus) config.characters).2
  | .leave => (c.leave i.entity).2

def addNote (runtime : Entries Text (Entries Text Value)) (i : CastIntent) :
    Entries Text (Entries Text Value) :=
  match Address.given? i.note with
  | none => runtime
  | some note => runtime.put i.entity (((runtime.get? i.entity).getD []).put "note" (.text note))

namespace State

def applyLocations (config : CastConfig) (s : State) (is : List LocationIntent) : State :=
  { s with locationCast := is.foldl (Locations.apply config) s.locationCast }

def applyCast (config : CastConfig) (s : State) (is : List CastIntent) : State :=
  { s with
    cast := is.foldl (Cast.apply config) s.cast
    entitiesRuntime := is.foldl addNote s.entitiesRuntime }

def applyScene (s : State) (update : Option SceneUpdate) : State :=
  match update with
  | none => s
  | some u => { s with scene :=
      ⟨u.locationHint.getD s.scene.locationHint, u.sceneTags.getD s.scene.sceneTags⟩ }

def applyParsed (card : Card) (s : State) (b : Block) : Except Fault State := do
  let values ← b.mutations.foldlM card.mutate s.values.complete
  let located := ({ s with values := values } : State).applyLocations card.castConfig
    b.locations
  .ok ((located.applyCast card.castConfig b.cast).applyScene b.scene)

def applyText (card : Card) (s : State) (text : Text) : Except Fault State :=
  match card.parse text with
  | .ok b => s.applyParsed card b
  | .error _ => .error .overlong

/-- What an entity key stands for: a canonical name where it finds one, else itself. -/
def canonical (card : Card) (key : Option Text) : Option Text :=
  (Address.given? key).map fun k =>
    match card.entity? k with
    | some e => e.name
    | none => k

/-- The value of a parameter, found by name or id, null where it is unset. -/
def parameterValue (card : Card) (s : State) (name : Text) (subject target : Option Text) :
    Except Fault Value :=
  match card.parameter? name with
  | none => .error (.unknownParameter name)
  | some p =>
    match Address.resolve p.scope p.name (canonical card subject) (canonical card target) with
    | .ok a => .ok (s.values.read a)
    | .error e => .error (.address e)

end State

end Storyworld
