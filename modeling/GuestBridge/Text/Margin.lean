import GuestBridge.Text.Blank

/-!
# Lines and their common margin

A text is a nonempty list of lines separated by line feeds. `dedent` takes away the
longest margin that all lines with visible characters share; lines of blanks only have
no say in it and come out empty. The margin is computed over lines that have lost their ends,
and what is taken away from them is looked for again in the whole lines. `indent` puts a prefix
in front of every line with visible characters.
-/

namespace GuestBridge.Text

/-- The lines of a text: the pieces between line feeds. There is always at least one. -/
def splitLines (cs : List Char) : List (List Char) :=
  pieces (· = '\n') cs

/-- The text whose lines are the given ones. -/
def joinLines (lines : List (List Char)) : List Char :=
  joinWith ['\n'] lines

/-- A line without the return at its end. -/
def dropReturn (line : List Char) : List Char :=
  if line.getLast? = some '\r' then line.dropLast else line

/-- The lines of a list without what ends them: a line feed, possibly with a return in front of
it. No line feed ends the last line, and if it is empty it is none. -/
def withoutEnds : List (List Char) → List (List Char)
  | [] => []
  | [line] => if line = [] then [] else [line]
  | line :: next :: lines => dropReturn line :: withoutEnds (next :: lines)

/-- The longest common prefix of two texts. -/
def commonPrefix : List Char → List Char → List Char
  | a :: as, b :: bs => if a = b then a :: commonPrefix as bs else []
  | _, _ => []

/-- The leading blanks of a line. -/
def lineIndent (line : List Char) : List Char :=
  line.takeWhile isBlank

/-- The longest common prefix of all texts of a nonempty list; nothing for an empty one. -/
def commonPrefixAll : List (List Char) → List Char
  | [] => []
  | first :: rest => rest.foldl commonPrefix first

/-- The margin of a list of lines: the longest run of blanks that starts every line with
visible characters. -/
def margin (lines : List (List Char)) : List Char :=
  commonPrefixAll ((lines.filter (!isBlankLine ·)).map lineIndent)

/-- A line without the margin `m`, or the line as it is if it does not start with it; a line of
blanks becomes empty. -/
def stripMargin (m line : List Char) : List Char :=
  if isBlankLine line then [] else (dropPrefix? m line).getD line

/-- Take the common margin away from every line. -/
def dedentChars (cs : List Char) : List Char :=
  let lines := splitLines cs
  joinLines (lines.map (stripMargin (margin (withoutEnds lines))))

/-- Put `pre` in front of every line with visible characters. -/
def indentChars (pre cs : List Char) : List Char :=
  joinLines ((splitLines cs).map fun line ↦ if isBlankLine line then line else pre ++ line)

/-- The settled form of an embedded text: without margin and without outer blanks. -/
def settleChars (cs : List Char) : List Char :=
  trim (dedentChars cs)

/-- Take the common margin away from every line of a text. -/
def dedent (s : String) : String :=
  String.ofList (dedentChars s.toList)

/-- Put a prefix in front of every line of a text that has visible characters. -/
def indent (pre s : String) : String :=
  String.ofList (indentChars pre.toList s.toList)

/-- The settled form of an embedded text. -/
def settle (s : String) : String :=
  String.ofList (settleChars s.toList)

end GuestBridge.Text
