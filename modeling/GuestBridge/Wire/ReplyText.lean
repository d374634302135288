import GuestBridge.Wire.JsonText

/-!
# Reply lines

A reply is one line of JSON: an object with a single member, either `ok` with a value or
`err` with the type and the message of an exception. An exception is an object with two
texts, or an array of the two; other members of the object are skipped.
-/

namespace GuestBridge.Wire

/-- What a reply line says. -/
inductive ReplyText where
  | ok (value : Json)
  /-- An exception with its type and message. -/
  | err (kind message : String)
  deriving Repr, Inhabited

namespace ReplyText

open Json

/-- The levels of nesting that a reply line may have in all. -/
def depthLimit : Nat := 127

/-- The members of an exception object from the next one on, with the type and the message
met so far; neither may be met twice. -/
def errMembers : (fuel : Nat) → (kind message : Option String) → List Char →
    Option ((String × String) × List Char)
  | 0, _, _, _ => none
  | fuel + 1, kind, message, cs =>
    match (string? cs).bind fun (key, rest) ↦ (colon? rest).map (key, ·) with
    | none => none
    | some (key, rest) =>
      let next := if key = "type" then
          if kind.isSome then none else (string? rest).map fun (s, rest) ↦ (some s, message, rest)
        else if key = "message" then
          if message.isSome then none else (string? rest).map fun (s, rest) ↦ (kind, some s, rest)
        else (valueEnd (rest.length + 1) rest).map fun rest ↦ (kind, message, rest)
      match next with
      | none => none
      | some (kind, message, rest) =>
        match skipSpace rest with
        | ',' :: rest => errMembers fuel kind message (skipSpace rest)
        | '\x7d' :: rest =>
          match kind, message with
          | some kind, some message => some ((kind, message), rest)
          | _, _ => none
        | _ => none

/-- The two texts of an exception in array form, from behind the opening bracket. -/
def errItems (cs : List Char) : Option ((String × String) × List Char) :=
  match string? (skipSpace cs) with
  | none => none
  | some (kind, rest) =>
    match skipSpace rest with
    | ',' :: rest =>
      match string? (skipSpace rest) with
      | none => none
      | some (message, rest) =>
        match skipSpace rest with
        | ']' :: rest => some ((kind, message), rest)
        | _ => none
    | _ => none

/-- An exception. -/
def raised? (cs : List Char) : Option ((String × String) × List Char) :=
  match cs with
  | '\x7b' :: cs => errMembers (cs.length + 1) none none (skipSpace cs)
  | '[' :: cs => errItems cs
  | _ => none

/-- The member of a reply, from its key on. -/
def member? (cs : List Char) : Option (ReplyText × List Char) :=
  match (string? cs).bind fun (key, rest) ↦ (colon? rest).map (key, ·) with
  | some ("ok", rest) =>
    (value? (rest.length + 1) (depthLimit - 1) rest).map fun (v, rest) ↦ (.ok v, rest)
  | some ("err", rest) => (raised? rest).map fun ((kind, message), rest) ↦ (.err kind message, rest)
  | _ => none

/-- What a reply line says. Blanks at the end of the line do not count. -/
def parse? (line : String) : Option ReplyText :=
  match skipSpace (Text.trimEnd line.toList) with
  | '\x7b' :: cs =>
    match member? (skipSpace cs) with
    | some (reply, rest) =>
      match skipSpace rest with
      | '\x7d' :: rest => if (skipSpace rest).isEmpty then some reply else none
      | _ => none
    | none => none
  | _ => none

end ReplyText

end GuestBridge.Wire
