import GuestBridge.Host.Scan

/-!
# The text a string literal stands for

A plain literal resolves its escapes and reads a return and line feed as one line feed; a
raw literal stands for what is between its quotes. Suffixes are dropped. Byte strings and
other literals stand for no text.
-/

namespace GuestBridge.Host.StringLiteral

open GuestBridge.Host.Scan

/-- What a one-letter escape stands for. -/
def simpleEscape (c : Char) : Option Char :=
  if c = 'n' then some '\n' else if c = 'r' then some '\r' else if c = 't' then some '\t'
  else if c = '\\' then some '\\' else if c = '0' then some (Char.ofNat 0)
  else if c = '\'' then some '\'' else if c = '"' then some '"' else none

/-- The text of a plain literal from behind its opening quote. -/
def plainText : (fuel : Nat) → List Char → Option (List Char)
  | 0, _ => none
  | _, [] => none
  | _, '"' :: _ => some []
  | fuel + 1, '\r' :: '\n' :: cs => (plainText fuel cs).map ('\n' :: ·)
  | fuel + 1, '\\' :: 'x' :: a :: b :: cs =>
    match hexValue a, hexValue b with
    | some a, some b => (plainText fuel cs).map (Char.ofNat (a * 16 + b) :: ·)
    | _, _ => none
  | fuel + 1, '\\' :: 'u' :: cs =>
    match codeEscape? cs with
    | some (n, rest) => (plainText fuel rest).map (Char.ofNat n :: ·)
    | none => none
  | fuel + 1, '\\' :: '\n' :: cs => plainText fuel (cs.dropWhile isLineBlank)
  | fuel + 1, '\\' :: '\r' :: cs => plainText fuel (cs.dropWhile isLineBlank)
  | fuel + 1, '\\' :: c :: cs =>
    match simpleEscape c with
    | some c => (plainText fuel cs).map (c :: ·)
    | none => none
  | fuel + 1, c :: cs => (plainText fuel cs).map (c :: ·)
where
  /-- The blanks that a backslash at a line's end swallows. -/
  isLineBlank (c : Char) : Bool := c = ' ' || c = '\t' || c = '\n' || c = '\r'

/-- The text of a raw literal from behind its opening quote. -/
def rawText (hashes : Nat) : List Char → Option (List Char)
  | [] => none
  | c :: cs =>
    if c = '"' && cs.take hashes = List.replicate hashes '#' then some []
    else (rawText hashes cs).map (c :: ·)

/-- The text that a literal stands for, if it is a string literal. -/
def value? (literal : String) : Option String :=
  match literal.toList with
  | '"' :: cs => (plainText (cs.length + 1) cs).map String.ofList
  | 'r' :: cs =>
    (rawOpening 0 cs).bind fun (hashes, rest) ↦ (rawText hashes rest).map String.ofList
  | _ => none

end GuestBridge.Host.StringLiteral
