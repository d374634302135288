import GuestBridge.Host.Token
import GuestBridge.Text.Blank
import GuestBridge.Text.Identifier
import GuestBridge.Text.Quoted

/-!
# Scanning host source into tokens

`scan` cuts a text into token trees. Blanks and plain comments separate tokens; a
documentation comment becomes the attribute it stands for. The scan fails on delimiters
that do not match, on literals that are not well formed, and on characters that start no
token. Each helper takes the rest of the text and gives back what remains after the piece
it recognises.
-/

namespace GuestBridge.Host

open GuestBridge.Text

namespace Scan

/-- The rest of a text after an identifier, if it starts with one. -/
def identEnd : List Char → Option (List Char)
  | c :: cs => if isIdentStart c then some (cs.dropWhile isIdentContinue) else none
  | [] => none

/-- The rest after a literal's suffix, which is an identifier or nothing. -/
def suffixEnd (cs : List Char) : List Char :=
  (identEnd cs).getD cs

/-- What was read between two positions of a text, the second one a rest of the first. -/
def between (start rest : List Char) : List Char :=
  start.take (start.length - rest.length)

/-- A hexadecimal digit's value. -/
def hexValue (c : Char) : Option Nat :=
  if '0' ≤ c && c ≤ '9' then some (c.toNat - 48)
  else if 'a' ≤ c && c ≤ 'f' then some (c.toNat - 87)
  else if 'A' ≤ c && c ≤ 'F' then some (c.toNat - 55)
  else none

/-- A hexadecimal digit. -/
def isHex (c : Char) : Bool :=
  (hexValue c).isSome

/-- A code point that is a character: not a surrogate and not beyond the last plane. -/
def isScalar (n : Nat) : Bool :=
  n < 0xD800 || (0xDFFF < n && n < 0x110000)

/-- The digits of a code-point escape after its opening brace, up to its closing brace:
one to six digits, with underscores after the first. -/
def codeEscapeDigits : (count value : Nat) → List Char → Option (Nat × List Char)
  | _, _, [] => none
  | count, value, c :: cs =>
    match hexValue c with
    | some d => if count = 6 then none else codeEscapeDigits (count + 1) (value * 16 + d) cs
    | none =>
      if count = 0 then none
      else if c = '_' then codeEscapeDigits count value cs
      else if c = '}' then (if isScalar value then some (value, cs) else none)
      else none

/-- A code-point escape after its letter: the code point and the rest. -/
def codeEscape? : List Char → Option (Nat × List Char)
  | '{' :: cs => codeEscapeDigits 0 0 cs
  | _ => none

/-- The rest after the blanks that a backslash at a line's end swallows. A return must be
followed by a line feed, and something must come after the blanks. -/
def continuationEnd : (afterReturn : Bool) → List Char → Option (List Char)
  | true, '\n' :: cs => continuationEnd false cs
  | true, _ => none
  | false, [] => none
  | false, c :: cs =>
    if c = '\r' then continuationEnd true cs
    else if c = ' ' || c = '\t' || c = '\n' then continuationEnd false cs
    else some (c :: cs)

/-- The kinds of quoted literals. -/
inductive QuotedKind where
  | text
  | bytes
  | terminated
  deriving DecidableEq

/-- The rest after the two digits of a byte escape. -/
def byteEscapeEnd (kind : QuotedKind) : List Char → Option (List Char)
  | a :: b :: cs =>
    let allowed := match kind with
      | .text => isOctalDigit a && isHex b
      | .bytes => isHex a && isHex b
      | .terminated => isHex a && isHex b && !(a = '0' && b = '0')
    if allowed then some cs else none
  | _ => none

/-- The rest after the character that follows a backslash, and what belongs to it. -/
def escapeEnd (kind : QuotedKind) : List Char → Option (List Char)
  | [] => none
  | c :: cs =>
    if c = 'x' then byteEscapeEnd kind cs
    else if c = 'n' || c = 'r' || c = 't' || c = '\\' || c = '\'' || c = '"' then some cs
    else if c = '0' then (if kind = .terminated then none else some cs)
    else if c = 'u' then
      match kind, codeEscape? cs with
      | .bytes, _ => none
      | .text, some (_, rest) => some rest
      | .terminated, some (n, rest) => if n = 0 then none else some rest
      | _, none => none
    else if c = '\n' then continuationEnd false cs
    else if c = '\r' then continuationEnd true cs
    else none

/-- A character that may stand in a literal without an escape. -/
def standsPlain (kind : QuotedKind) (c : Char) : Bool :=
  match kind with
  | .text => true
  | .bytes => c.toNat < 128
  | .terminated => c.toNat ≠ 0

/-- The rest after a literal with escapes, from behind its opening quote. -/
def cookedEnd (kind : QuotedKind) : (fuel : Nat) → List Char → Option (List Char)
  | 0, _ => none
  | _, [] => none
  | fuel + 1, c :: cs =>
    if c = '"' then some (suffixEnd cs)
    else if c = '\r' then
      match cs with
      | '\n' :: rest => cookedEnd kind fuel rest
      | _ => none
    else if c = '\\' then (escapeEnd kind cs).bind (cookedEnd kind fuel)
    else if standsPlain kind c then cookedEnd kind fuel cs
    else none

/-- The number of hashes and the rest behind the opening quote of a raw literal. -/
def rawOpening : (hashes : Nat) → List Char → Option (Nat × List Char)
  | hashes, '#' :: cs => rawOpening (hashes + 1) cs
  | hashes, '"' :: cs => if hashes ≤ 255 then some (hashes, cs) else none
  | _, _ => none

/-- The rest after a raw literal that closes with a quote and as many hashes as it opened
with. -/
def rawClosing (kind : QuotedKind) (hashes : Nat) : List Char → Option (List Char)
  | [] => none
  | '\r' :: '\n' :: cs => rawClosing kind hashes cs
  | c :: cs =>
    if c = '"' && cs.take hashes = List.replicate hashes '#' then
      some (suffixEnd (cs.drop hashes))
    else if c = '\r' || !standsPlain kind c then none
    else rawClosing kind hashes cs

/-- The rest after a raw literal, from behind its letters. -/
def rawEnd (kind : QuotedKind) (cs : List Char) : Option (List Char) :=
  (rawOpening 0 cs).bind fun (hashes, rest) ↦ rawClosing kind hashes rest

/-- The rest after a quoted or raw string literal of any kind. -/
def stringEnd : List Char → Option (List Char)
  | '"' :: cs => cookedEnd .text (cs.length + 1) cs
  | 'r' :: cs => rawEnd .text cs
  | 'b' :: '"' :: cs => cookedEnd .bytes (cs.length + 1) cs
  | 'b' :: 'r' :: cs => rawEnd .bytes cs
  | 'c' :: '"' :: cs => cookedEnd .terminated (cs.length + 1) cs
  | 'c' :: 'r' :: cs => rawEnd .terminated cs
  | _ => none

/-- The rest after the one character of a character or byte literal, from behind its
opening apostrophe. -/
def singleEnd (kind : QuotedKind) : List Char → Option (List Char)
  | '\\' :: '\n' :: _ => none
  | '\\' :: '\r' :: _ => none
  | '\\' :: cs => escapeEnd kind cs
  | c :: cs => if standsPlain kind c then some cs else none
  | [] => none

/-- The rest after a character or byte literal. -/
def charEnd : List Char → Option (List Char)
  | 'b' :: '\'' :: cs => (singleEnd .bytes cs).bind closing
  | '\'' :: cs => (singleEnd .text cs).bind closing
  | _ => none
where
  /-- The rest after the closing apostrophe and the suffix. -/
  closing : List Char → Option (List Char)
    | '\'' :: cs => some (suffixEnd cs)
    | _ => none

/-- A number must not run on into an identifier. -/
def wordBreak (cs : List Char) : Option (List Char) :=
  if cs.head?.any isIdentContinue then none else some cs

/-- The rest after the suffix of a number. -/
def numberSuffixEnd (cs : List Char) : Option (List Char) :=
  wordBreak (suffixEnd cs)

/-- What a float's digits look like before the exponent: the rest, and whether a point was
seen, and whether an exponent letter ended them. -/
def floatMantissa : (hasPoint : Bool) → List Char → Option (List Char × Bool × Bool)
  | hasPoint, [] => some ([], hasPoint, false)
  | hasPoint, c :: cs =>
    if isAsciiDigit c || c = '_' then floatMantissa hasPoint cs
    else if c = '.' then
      if hasPoint then some (c :: cs, hasPoint, false)
      else if cs.head?.any fun d ↦ d = '.' || isIdentStart d then none
      else floatMantissa true cs
    else if c = 'e' || c = 'E' then some (c :: cs, hasPoint, true)
    else some (c :: cs, hasPoint, false)

/-- The rest after an exponent's sign and digits, from behind its letter. Without a digit
there is no exponent. -/
def exponentEnd : (hasSign hasDigit : Bool) → List Char → Option (List Char)
  | _, hasDigit, [] => if hasDigit then some [] else none
  | hasSign, hasDigit, c :: cs =>
    if c = '+' || c = '-' then
      if hasDigit then some (c :: cs)
      else if hasSign then none
      else exponentEnd true hasDigit cs
    else if isAsciiDigit c then exponentEnd hasSign true cs
    else if c = '_' then exponentEnd hasSign hasDigit cs
    else if hasDigit then some (c :: cs) else none

/-- The rest after a float literal: digits with a point, an exponent or both. A letter that
starts no exponent is a suffix if a point came before it. -/
def floatEnd (cs : List Char) : Option (List Char) :=
  if cs.head?.any isAsciiDigit then
    match floatMantissa false cs with
    | none => none
    | some (rest, hasPoint, false) => if hasPoint then numberSuffixEnd rest else none
    | some (rest, hasPoint, true) =>
      match exponentEnd false false rest.tail with
      | some after => numberSuffixEnd after
      | none => if hasPoint then numberSuffixEnd rest else none
  else none

/-- The rest after the digits of a whole number of the given base. Letters that are no
digits of the base end it; decimal digits that are none are an error. -/
def digitsEnd (base : Nat) : (seen : Bool) → List Char → Option (List Char)
  | seen, [] => if seen then some [] else none
  | seen, c :: cs =>
    if isAsciiDigit c then
      if c.toNat - 48 ≥ base then none else digitsEnd base true cs
    else if isHex c && base = 16 then digitsEnd base true cs
    else if c = '_' then
      if !seen && base = 10 then none else digitsEnd base seen cs
    else if seen then some (c :: cs) else none

/-- The rest after a whole number. -/
def integerEnd (cs : List Char) : Option (List Char) :=
  let digits := match cs with
    | '0' :: 'x' :: rest => digitsEnd 16 false rest
    | '0' :: 'o' :: rest => digitsEnd 8 false rest
    | '0' :: 'b' :: rest => digitsEnd 2 false rest
    | _ => digitsEnd 10 false cs
  digits.bind numberSuffixEnd

/-- The rest after a literal. -/
def literalEnd (cs : List Char) : Option (List Char) :=
  stringEnd cs <|> charEnd cs <|> floatEnd cs <|> integerEnd cs

/-- A punctuation character other than the apostrophe. -/
def isPunctuation (c : Char) : Bool :=
  "~!@#$%^&*-=+|;:,<.>/?".toList.contains c

/-- A text that starts a comment. -/
def startsComment : List Char → Bool
  | '/' :: '/' :: _ => true
  | '/' :: '*' :: _ => true
  | _ => false

/-- Whether a text starts with punctuation that is no comment. An apostrophe counts. -/
def startsPunctuation (cs : List Char) : Bool :=
  !startsComment cs && cs.head?.any fun c ↦ isPunctuation c || c = '\''

/-- A word, raw or not, and the rest. The words that name positions cannot be raw. -/
def word? (cs : List Char) : Option (String × List Char) :=
  match cs with
  | 'r' :: '#' :: name =>
    (identEnd name).bind fun rest ↦
      let text := String.ofList (between name rest)
      if ["_", "super", "self", "Self", "crate"].contains text then none
      else some ("r#" ++ text, rest)
  | _ => (identEnd cs).map fun rest ↦ (String.ofList (between cs rest), rest)

/-- The starts of literals that are not well formed; they are no words. -/
def brokenLiteralStarts : List (List Char) :=
  ["r\"", "r#\"", "r##", "b\"", "b'", "br\"", "br#", "c\"", "cr\"", "cr#"].map String.toList

/-- A lifetime, from behind its apostrophe. What follows must not make it a character
literal or a raw lifetime. -/
def lifetime? (cs : List Char) : Option (Token × List Char) :=
  (word? cs).bind fun (name, rest) ↦
    if rest.head? = some '\'' then none
    else if rest.head? = some '#' && !(List.isPrefixOf ['r', '#'] cs) then none
    else some (.lifetime ("'" ++ name), rest)

/-- The token that a text starts with, groups aside. -/
def leaf? (cs : List Char) : Option (Token × List Char) :=
  match literalEnd cs with
  | some rest => some (.literal (String.ofList (between cs rest)), rest)
  | none =>
    match cs with
    | '\'' :: name => lifetime? name
    | c :: rest =>
      if isPunctuation c && !startsComment cs then
        some (.punct c (startsPunctuation rest), rest)
      else if brokenLiteralStarts.any (·.isPrefixOf cs) then none
      else (word? cs).map fun (text, rest) ↦ (.word text, rest)
    | [] => none

/-- The text of a line and the rest behind it, from the line's end on; a return before the
line feed is part of neither. -/
def lineEnd : List Char → List Char × List Char
  | [] => ([], [])
  | '\n' :: cs => ([], '\n' :: cs)
  | '\r' :: '\n' :: cs => ([], '\n' :: cs)
  | c :: cs => let (line, rest) := lineEnd cs; (c :: line, rest)

/-- The rest after a block comment, from behind its opening; block comments nest. -/
def blockCommentEnd : (depth : Nat) → List Char → Option (List Char)
  | depth, '/' :: '*' :: cs => blockCommentEnd (depth + 1) cs
  | depth, '*' :: '/' :: cs => if depth = 0 then some cs else blockCommentEnd (depth - 1) cs
  | depth, _ :: cs => blockCommentEnd depth cs
  | _, [] => none

/-- A line that starts a documentation comment: three slashes but not four, or an
exclamation mark behind two. -/
def startsDocLine : List Char → Bool
  | '/' :: '/' :: '/' :: '/' :: _ => false
  | '/' :: '/' :: '/' :: _ => true
  | '/' :: '/' :: '!' :: _ => true
  | _ => false

/-- The rest after the plain comment that a text starts with, if it starts with one. -/
def plainCommentEnd (cs : List Char) : Option (List Char) :=
  match cs with
  | '/' :: '/' :: rest => if startsDocLine cs then none else some (lineEnd rest).2
  | '/' :: '*' :: '*' :: '/' :: rest => some rest
  | '/' :: '*' :: '!' :: _ => none
  | '/' :: '*' :: '*' :: '*' :: rest => blockCommentEnd 0 ('*' :: '*' :: rest)
  | '/' :: '*' :: '*' :: _ => none
  | '/' :: '*' :: rest => blockCommentEnd 0 rest
  | _ => none

/-- A blank of host source: the marks of writing direction count too. -/
def isSourceBlank (c : Char) : Bool :=
  isBlank c || c = '\u200e' || c = '\u200f'

/-- The rest after blanks and plain comments. -/
def skipBlanks : (fuel : Nat) → List Char → List Char
  | 0, cs => cs
  | _, [] => []
  | fuel + 1, c :: cs =>
    match plainCommentEnd (c :: cs) with
    | some rest => skipBlanks fuel rest
    | none => if isSourceBlank c then skipBlanks fuel cs else c :: cs

/-- A documentation comment: its text, whether it documents what encloses it, and the
rest. -/
def docComment? (cs : List Char) : Option (List Char × Bool × List Char) :=
  match cs with
  | '/' :: '/' :: '!' :: rest => let (line, rest) := lineEnd rest; some (line, true, rest)
  | '/' :: '*' :: '!' :: rest => block rest true
  | '/' :: '/' :: '/' :: rest =>
    if rest.head? = some '/' then none
    else let (line, rest) := lineEnd rest; some (line, false, rest)
  | '/' :: '*' :: '*' :: rest => if rest.head? = some '*' then none else block rest false
  | _ => none
where
  /-- The text of a block comment without its marks. -/
  block (body : List Char) (inner : Bool) : Option (List Char × Bool × List Char) :=
    (blockCommentEnd 0 body).map fun rest ↦
      let text := between body rest
      (text.take (text.length - 2), inner, rest)

/-- A documentation comment may hold a return only before a line feed. -/
def hasBareReturn : List Char → Bool
  | [] => false
  | '\r' :: '\n' :: cs => hasBareReturn cs
  | '\r' :: _ => true
  | _ :: cs => hasBareReturn cs

/-- The attribute that a documentation comment stands for, last token first. -/
def docTokens (text : List Char) (inner : Bool) : List Token :=
  let doc := Token.group .bracket
    [.word "doc", .punct '=' false, .literal (String.ofList (quoteLiteralChars text))]
  if inner then [doc, .punct '!' false, .punct '#' false]
  else [doc, .punct '#' false]

/-- The delimiter that a character opens. -/
def opens? (c : Char) : Option Delimiter :=
  if c = '(' then some .paren else if c = '[' then some .bracket
  else if c = '{' then some .brace else none

/-- The delimiter that a character closes. -/
def closes? (c : Char) : Option Delimiter :=
  if c = ')' then some .paren else if c = ']' then some .bracket
  else if c = '}' then some .brace else none

/-- Cut a text into trees. `stack` holds the groups that are still open with what came
before each of them, and `done` the trees of the innermost one, both last first. -/
def trees : (fuel : Nat) → (stack : List (Delimiter × List Token)) → (done : List Token) →
    List Char → Option (List Token)
  | 0, _, _, _ => none
  | fuel + 1, stack, done, cs =>
    match skipBlanks (cs.length + 1) cs with
    | [] => if stack.isEmpty then some done.reverse else none
    | c :: rest =>
      match (docComment? (c :: rest)).filter fun (text, _, _) ↦ !hasBareReturn text with
      | some (text, inner, after) => trees fuel stack (docTokens text inner ++ done) after
      | none =>
        match opens? c, closes? c with
        | some d, _ => trees fuel ((d, done) :: stack) [] rest
        | none, some d =>
          match stack with
          | (opened, outer) :: stack =>
            if opened = d then trees fuel stack (.group d done.reverse :: outer) rest else none
          | [] => none
        | none, none =>
          match leaf? (c :: rest) with
          | some (token, after) => trees fuel stack (token :: done) after
          | none => none

end Scan

/-- The token trees of a text, a leading byte-order mark aside. -/
def scan (s : String) : Option (List Token) :=
  let cs := s.toList
  let cs := if cs.head? = some '\ufeff' then cs.tail else cs
  Scan.trees (cs.length + 1) [] [] cs

end GuestBridge.Host
