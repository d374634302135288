import GuestBridge.Text.Blank
import GuestBridge.Value.Basic

/-!
# Values as guest code

A literal is a guest expression that evaluates to the value. The least integer has no
literal of its own, texts must not interpolate, an empty array needs its element type, and a
handle is looked up in the guest's table.
-/

namespace GuestBridge.Wire

/-- The guest's table of objects behind handles. -/
def handleTable : String := "__jlext__.handle"

/-- A handle as guest code. -/
def handleRef (h : Handle) : String :=
  s!"{handleTable}({h.id})"

/-- The hexadecimal digits of a number, at least four of them. -/
def hexQuad (n : Nat) : List Char :=
  let digits := Nat.toDigits 16 n
  List.replicate (4 - digits.length) '0' ++ digits

/-- How a character stands in a text literal. -/
def literalChar (c : Char) : List Char :=
  if c = '"' then ['\\', '"']
  else if c = '\\' then ['\\', '\\']
  else if c = '$' then ['\\', '$']
  else if c = '\n' then ['\\', 'n']
  else if c = '\r' then ['\\', 'r']
  else if c = '\t' then ['\\', 't']
  else if Text.isControl c then '\\' :: 'u' :: hexQuad c.toNat
  else [c]

/-- A text literal, as characters. -/
def textLiteralChars (cs : List Char) : List Char :=
  '"' :: cs.flatMap literalChar ++ ['"']

/-- A text literal. -/
def textLiteral (s : String) : String :=
  String.ofList (textLiteralChars s.toList)

/-- An integer literal. -/
def intLiteral (n : Int64) : String :=
  if n = Int64.minValue then "typemin(Int64)" else toString n.toInt

/-- A floating-point literal. -/
def floatLiteral (x : Binary64) : String :=
  if x.isNaN then "NaN"
  else if x.isInfinite then (if x.negative then "-Inf" else "Inf")
  else x.text .display

mutual

/-- A guest expression that evaluates to a value. -/
def literal : Value → String
  | .nothing => "nothing"
  | .bool b => if b then "true" else "false"
  | .int n => intLiteral n
  | .float x => floatLiteral x
  | .str s => textLiteral s
  | .array [] => "Any[]"
  | .array (v :: vs) => "[" ++ ", ".intercalate (literals (v :: vs)) ++ "]"
  | .tuple vs =>
    "(" ++ ", ".intercalate (literals vs) ++ (if vs.length = 1 then "," else "") ++ ")"
  | .handle h => handleRef h

/-- Guest expressions for a list of values. -/
def literals : List Value → List String
  | [] => []
  | v :: vs => literal v :: literals vs

end

end GuestBridge.Wire
