/-!
# Tokens of host source

Host source is Rust. A text is a list of token trees: words, single punctuation characters
that know whether they stick to the next one, lifetimes, literals as written, and groups
between matching delimiters.
-/

namespace GuestBridge.Host

/-- The three pairs of delimiters that a text can show. -/
inductive Delimiter where
  | paren
  | bracket
  | brace
  deriving DecidableEq, Repr, Inhabited

/-- The opening character of a delimiter. -/
def Delimiter.opening : Delimiter → Char
  | .paren => '('
  | .bracket => '['
  | .brace => '{'

/-- The closing character of a delimiter. -/
def Delimiter.closing : Delimiter → Char
  | .paren => ')'
  | .bracket => ']'
  | .brace => '}'

/-- A token tree. -/
inductive Token where
  /-- A word: an identifier or keyword, with its `r#` mark if it has one. -/
  | word (text : String)
  /-- A punctuation character; `joint` says that another one follows without a gap. -/
  | punct (c : Char) (joint : Bool)
  /-- A lifetime, with its apostrophe. -/
  | lifetime (text : String)
  /-- A literal as written, with its suffix. -/
  | literal (text : String)
  /-- The tokens between a pair of delimiters. -/
  | group (d : Delimiter) (inner : List Token)
  deriving Repr, Inhabited

mutual

/-- The number of tokens in a tree, the groups counted too. -/
def Token.size : Token → Nat
  | .group _ inner => 1 + Token.sizeAll inner
  | _ => 1

/-- The number of tokens in a list of trees. -/
def Token.sizeAll : List Token → Nat
  | [] => 0
  | t :: ts => t.size + Token.sizeAll ts

end

/-- A word without its raw mark. -/
def unraw (text : String) : String :=
  match text.toList with
  | 'r' :: '#' :: cs => String.ofList cs
  | _ => text

mutual

/-- The pieces of text a tree is written with, each delimiter and punctuation character a
piece of its own. -/
def Token.pieces : Token → List String
  | .word text | .lifetime text | .literal text => [text]
  | .punct c _ => [c.toString]
  | .group d inner => d.opening.toString :: (Token.piecesAll inner ++ [d.closing.toString])

/-- The pieces of text a list of trees is written with. -/
def Token.piecesAll : List Token → List String
  | [] => []
  | t :: ts => t.pieces ++ Token.piecesAll ts

end

/-- Token trees as text, the pieces separated by single spaces. -/
def Token.render (ts : List Token) : String :=
  " ".intercalate (Token.piecesAll ts)

end GuestBridge.Host
