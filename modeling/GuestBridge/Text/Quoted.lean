import GuestBridge.Text.Printable

/-!
# Quoted text

Two quoted forms of a text. Both stand between double quotes and escape the quote, the
backslash, line feeds, returns and tabs by a backslash and a letter, and every other
character that is not printable by its code point. They differ only in how they write the
null character: `quote` as a backslash and a zero, `quoteLiteral`, whose output is read
back as source text, by its two-digit code where an octal digit follows.
-/

namespace GuestBridge.Text

/-- The code-point escape of a character, in hexadecimal digits. -/
def codeEscape (c : Char) : List Char :=
  ['\\', 'u', '{'] ++ Nat.toDigits 16 c.toNat ++ ['}']

/-- How a character stands between quotes. -/
def quoteChar (c : Char) : List Char :=
  if c = '"' then ['\\', '"']
  else if c = '\\' then ['\\', '\\']
  else if c = '\n' then ['\\', 'n']
  else if c = '\r' then ['\\', 'r']
  else if c = '\t' then ['\\', 't']
  else if c.toNat = 0 then ['\\', '0']
  else if isPrintable c then [c]
  else codeEscape c

/-- The quoted form of a text. -/
def quoteChars (cs : List Char) : List Char :=
  '"' :: cs.flatMap quoteChar ++ ['"']

/-- An octal digit. -/
def isOctalDigit (c : Char) : Bool :=
  '0' ≤ c && c ≤ '7'

/-- The inside of a string literal that reads back as the text. -/
def literalBody : List Char → List Char
  | [] => []
  | c :: cs =>
    let escaped :=
      if c.toNat = 0 && cs.head?.any isOctalDigit then ['\\', 'x', '0', '0'] else quoteChar c
    escaped ++ literalBody cs

/-- A string literal that reads back as the text. -/
def quoteLiteralChars (cs : List Char) : List Char :=
  '"' :: literalBody cs ++ ['"']

/-- The quoted form of a text. -/
def quote (s : String) : String :=
  String.ofList (quoteChars s.toList)

/-- A string literal that reads back as the text. -/
def quoteLiteral (s : String) : String :=
  String.ofList (quoteLiteralChars s.toList)

end GuestBridge.Text
