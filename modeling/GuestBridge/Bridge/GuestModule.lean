import GuestBridge.Bridge.Basic
import GuestBridge.Slots
import GuestBridge.Text.Identifier

/-!
# Guest modules

A module of the guest is opened by name, and its members are looked up once and kept. The
name is guest code, so only plain paths are let through. Members whose names start with an
underscore are never looked up.
-/

namespace GuestBridge

/-- An opened module of the guest. -/
structure GuestModule where
  name : String
  /-- The module object. -/
  object : Handle
  /-- The members looked up so far. -/
  members : Slots Value
  deriving Repr, Inhabited

namespace GuestModule

variable {σ : Type}

/-- A character that starts a segment of a module path. -/
def isSegmentStart (c : Char) : Bool :=
  Text.isAsciiLetter c || c = '_'

/-- A character that continues a segment of a module path. -/
def isSegmentChar (c : Char) : Bool :=
  isSegmentStart c || Text.isAsciiDigit c

/-- A segment of a module path. -/
def isSegment : List Char → Bool
  | [] => false
  | c :: cs => isSegmentStart c && cs.all isSegmentChar

/-- A path of segments with points between them. -/
def isPath (name : String) : Bool :=
  (Text.pieces (· = '.') name.toList).all isSegment

/-- A member name that is never looked up. -/
def isReserved (member : String) : Bool :=
  member.toList.head? = some '_'

/-- Bring a module into scope and look it up. -/
def open? (i : Interpreter σ) (name : String) (b : Bridge σ) : Outcome σ GuestModule :=
  if isPath name then
    (b.exec i ("using " ++ name)).andThen fun _ b ↦
      (b.eval i name).andThen fun v b ↦
        match v with
        | .handle h => (.ok ⟨name, h, Slots.empty⟩, b)
        | other => (.error (.conversion "module" other.kind), b.drop other)
  else (.error (.moduleName name), b)

/-- A member, looked up unless it is kept already. -/
def get (i : Interpreter σ) (member : String) (m : GuestModule) (b : Bridge σ) :
    Except Failure Value × GuestModule × Bridge σ :=
  if isReserved member then (.error (.noMember m.name member), m, b)
  else
    match m.members.find? member with
    | some v => (.ok v, m, b.retain v)
    | none =>
      match b.getAttr i m.object member with
      | (.ok v, b) => (.ok v, { m with members := (m.members.put member v).2 }, b.retain v)
      | (.error e, b) => (.error e, m, b)

/-- Call a member. -/
def call (i : Interpreter σ) (member : String) (args : List Value) (m : GuestModule)
    (b : Bridge σ) : Except Failure Value × GuestModule × Bridge σ :=
  match m.get i member b with
  | (.ok v, m, b) =>
    let (result, b) := b.callValue i v args
    (result, m, b.drop v)
  | (.error e, m, b) => (.error e, m, b)

/-- The values that a module holds, in the order in which they are dropped with it. -/
def held (m : GuestModule) : List Value :=
  .handle m.object :: m.members.toList

/-- A module as text for people. -/
def display (m : GuestModule) : String :=
  s!"<JuliaModule {m.name}>"

end GuestModule

end GuestBridge
