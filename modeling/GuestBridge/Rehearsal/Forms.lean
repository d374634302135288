import GuestBridge.Definition.Header

/-!
# Forms of rehearsed code

A rehearsal understands only the code that a bridge sends: importing a module, definitions in
long and in short form, the definition of a helper, and bare names.
-/

namespace GuestBridge.Rehearsal

open Text Definition

/-- The text in front of a suffix, if it ends with it. -/
def dropSuffix? (suffix cs : List Char) : Option (List Char) :=
  (dropPrefix? suffix.reverse cs.reverse).map List.reverse

/-- The name and the parenthesised parameters that a text starts with, and the rest. -/
def signature? (cs : List Char) : Option (List Char × List Char) :=
  match name? cs with
  | some (name, '(' :: cs) =>
    match cs.dropWhile (· ≠ ')') with
    | ')' :: rest => some (name, rest)
    | _ => none
  | _ => none

/-- The name and the body of a definition in long form. -/
def longForm? (cs : List Char) : Option (List Char × List Char) :=
  match dropPrefix? "function".toList cs with
  | some (c :: cs) =>
    if isAsciiBlank c then
      match signature? (cs.dropWhile isAsciiBlank) with
      | some (name, '\n' :: rest) => (dropSuffix? "\nend".toList rest).map (name, ·)
      | _ => none
    else none
  | _ => none

/-- The name and the right-hand side of a definition in short form: one line behind an
equals sign. -/
def shortForm? (cs : List Char) : Option (List Char × List Char) :=
  match signature? cs with
  | some (name, rest) =>
    match rest.dropWhile isAsciiBlank with
    | '=' :: rest =>
      let side := rest.dropWhile isAsciiBlank
      if side.isEmpty || side.contains '\n' then none else some (name, side)
    | _ => none
  | none => none

/-- The names of a helper and of the function that it applies. -/
def batchForm? (cs : List Char) : Option (List Char × List Char) :=
  match name? cs with
  | some (name, rest) =>
    match (dropPrefix? "(args_list) = [Base.invokelatest(".toList rest).bind name? with
    | some (target, rest) =>
      if rest = ", a...) for a in args_list]".toList then some (name, target) else none
    | none => none
  | none => none

/-- A text that is nothing but a name. -/
def isName (cs : List Char) : Bool :=
  match name? cs with
  | some (_, []) => true
  | _ => false

/-- What rehearsed code is. -/
inductive Form where
  /-- Bring a module into scope. -/
  | using (module : String)
  /-- Define a function with a body, in long or in short form. -/
  | define (name body : String)
  /-- Define the helper of a function. -/
  | defineBatch (name target : String)
  /-- A bare name. -/
  | identifier
  | other
  deriving DecidableEq, Repr

/-- What a code without outer blanks is. -/
def Form.of (cs : List Char) : Form :=
  match dropPrefix? "using ".toList cs with
  | some module => .using (String.ofList (trim module))
  | none =>
    match longForm? cs with
    | some (name, body) => .define (String.ofList name) (String.ofList body)
    | none =>
      match batchForm? cs with
      | some (name, target) => .defineBatch (String.ofList name) (String.ofList target)
      | none =>
        match shortForm? cs with
        | some (name, side) => .define (String.ofList name) (String.ofList side)
        | none => if isName cs then .identifier else .other

/-- The name that a code defines, if it is a definition in long or in short form. -/
def definedName? (code : String) : Option String :=
  let cs := trim code.toList
  match longForm? cs with
  | some (name, _) => some (String.ofList name)
  | none => (shortForm? cs).map fun (name, _) ↦ String.ofList name

end GuestBridge.Rehearsal
