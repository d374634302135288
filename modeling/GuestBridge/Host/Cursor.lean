import GuestBridge.Host.Tree

/-!
# Reading token trees

A reader walks over a list of trees and fails or goes on behind some of them. Besides what
is left it keeps what it has taken, so that a recognised piece can be written again, and the
expressions it met inside types, patterns and attributes. The tests look at a list of trees
without reading it; a test for several punctuation characters asks that they stick together.
-/

namespace GuestBridge.Host

/-- What a reader works on. -/
structure Cursor where
  /-- The trees that are left. -/
  rest : List Token
  /-- The trees that were read, last first. -/
  taken : List Token
  /-- The expressions met inside other syntax, last first. -/
  embedded : List Expr
  deriving Inhabited

/-- A reader of token trees. It never puts trees back or reads others than it was given. -/
@[ext] structure Reader (α : Type) where
  /-- What the reader answers from a cursor on, and where it stands then. -/
  run : Cursor → Option (α × Cursor)
  /-- What is left afterwards is an end of what was left before. -/
  suffix {c c' : Cursor} {a : α} : run c = some (a, c') → c'.rest <:+ c.rest

instance {α : Type} : CoeFun (Reader α) fun _ ↦ Cursor → Option (α × Cursor) := ⟨Reader.run⟩

/-- A test on the trees that are left. -/
abbrev Test : Type := List Token → Bool

namespace Test

/-- The words that are no identifiers unless they are raw. -/
def keywords : List String :=
  ["_", "abstract", "as", "async", "await", "become", "box", "break", "const", "continue",
   "crate", "do", "dyn", "else", "enum", "extern", "false", "final", "fn", "for", "if",
   "impl", "in", "let", "loop", "macro", "match", "mod", "move", "mut", "override", "priv",
   "pub", "ref", "return", "Self", "self", "static", "struct", "super", "trait", "true",
   "try", "type", "typeof", "unsafe", "unsized", "use", "virtual", "where", "while",
   "yield"]

/-- Nothing is left. -/
def atEnd : Test := List.isEmpty

/-- The given punctuation characters come next, without a gap between them. -/
def punctChars : List Char → Test
  | [], _ => true
  | [c], .punct d _ :: _ => c = d
  | c :: cs, .punct d joint :: ts => c = d && joint && punctChars cs ts
  | _, _ => false

/-- The given punctuation comes next. -/
def punct (s : String) : Test :=
  punctChars s.toList

/-- The given word comes next. -/
def word (w : String) : Test
  | .word text :: _ => text = w
  | _ => false

/-- One of the given words comes next. -/
def oneOf (ws : List String) : Test
  | .word text :: _ => ws.contains text
  | _ => false

/-- Any word comes next. -/
def anyWord : Test
  | .word _ :: _ => true
  | _ => false

/-- An identifier comes next. -/
def ident : Test
  | .word text :: _ => !keywords.contains text
  | _ => false

/-- A lifetime comes next. -/
def lifetime : Test
  | .lifetime _ :: _ => true
  | _ => false

/-- A group with the given delimiter comes next. -/
def group (d : Delimiter) : Test
  | .group d' _ :: _ => d = d'
  | _ => false

/-- A parenthesised group comes next. -/
def paren : Test := group .paren

/-- A bracketed group comes next. -/
def bracket : Test := group .bracket

/-- A braced group comes next. -/
def brace : Test := group .brace

/-- A literal that is a number. -/
def isNumber (text : String) : Bool :=
  text.toList.head?.any Text.isAsciiDigit

/-- A literal comes next; the truth values and negated numbers count. -/
def literal : Test
  | .literal _ :: _ => true
  | .word text :: _ => text = "true" || text = "false"
  | .punct '-' _ :: .literal text :: _ => isNumber text
  | _ => false

/-- A string literal comes next. -/
def string : Test
  | .literal text :: _ => (StringLiteral.value? text).isSome
  | _ => false

/-- What the given test says behind the first tree. -/
def second (t : Test) : Test :=
  fun ts ↦ t (ts.drop 1)

/-- What the given test says behind the second tree. -/
def third (t : Test) : Test :=
  fun ts ↦ t (ts.drop 2)

/-- One test or the other holds. -/
def or (s t : Test) : Test :=
  fun ts ↦ s ts || t ts

/-- Both tests hold. -/
def and (s t : Test) : Test :=
  fun ts ↦ s ts && t ts

/-- The first test holds and the second does not. -/
def butNot (s t : Test) : Test :=
  fun ts ↦ s ts && !t ts

/-- One of the given tests holds. -/
def any (tests : List Test) : Test :=
  fun ts ↦ tests.any (· ts)

end Test

namespace Reader

variable {α β : Type}

instance : Monad Reader where
  pure a :=
    { run c := some (a, c)
      suffix h := by cases h; exact List.suffix_rfl }
  bind r k :=
    { run c := (r c).bind fun (a, c') ↦ k a c'
      suffix h := by
        obtain ⟨⟨a, c⟩, hr, hk⟩ := Option.bind_eq_some_iff.1 h
        exact ((k a).suffix hk).trans (r.suffix hr) }

instance : LawfulMonad Reader :=
  .mk' Reader (fun r ↦ Reader.ext (funext fun c ↦ Option.bind_fun_some (r c)))
    (fun _ _ ↦ rfl)
    (fun r _ _ ↦ Reader.ext (funext fun c ↦ Option.bind_assoc (r c) _ _))

instance : Alternative Reader where
  failure :=
    { run _ := none
      suffix h := by cases h }
  orElse r s :=
    { run c := (r c).or (s () c)
      suffix h := by
        rcases Option.or_eq_some_iff.1 h with h | ⟨-, h⟩
        · exact r.suffix h
        · exact (s ()).suffix h }

/-- The trees that are left. -/
def ahead : Reader (List Token) where
  run c := some (c.rest, c)
  suffix h := by cases h; exact List.suffix_rfl

/-- What a test says about the trees that are left. -/
def peek (t : Test) : Reader Bool where
  run c := some (t c.rest, c)
  suffix h := by cases h; exact List.suffix_rfl

/-- Read one tree that passes a test. -/
def takeIf (t : Test) : Reader Token where
  run
    | ⟨token :: rest, taken, embedded⟩ =>
      if t (token :: rest) then some (token, ⟨rest, token :: taken, embedded⟩) else none
    | _ => none
  suffix {c c' a} h := by
    obtain ⟨_ | ⟨token, rest⟩, taken, embedded⟩ := c
    · cases h
    · obtain ⟨-, h⟩ := Option.ite_none_right_eq_some.1 h
      cases h
      exact List.suffix_cons _ rest

/-- Go on only if a test holds. -/
def require (t : Test) : Reader Unit where
  run c := if t c.rest then some ((), c) else none
  suffix h := by
    obtain ⟨-, h⟩ := Option.ite_none_right_eq_some.1 h
    cases h
    exact List.suffix_rfl

/-- Read as many trees as asked for. -/
def skip : Nat → Reader Unit
  | 0 => pure ()
  | n + 1 => do
    let _ ← takeIf fun _ ↦ true
    skip n

/-- Read the given punctuation. -/
def punct (s : String) : Reader Unit := do
  require (Test.punct s)
  skip s.length

/-- Read the given punctuation if it comes next. -/
def punct? (s : String) : Reader Bool := do
  if ← peek (Test.punct s) then
    skip s.length
    return true
  return false

/-- Read the given word. -/
def word (w : String) : Reader Unit := do
  let _ ← takeIf (Test.word w)

/-- Read the given word if it comes next. -/
def word? (w : String) : Reader Bool := do
  if ← peek (Test.word w) then
    skip 1
    return true
  return false

/-- Ask a question where it is allowed; elsewhere the answer is no and nothing is read. -/
def askIf (allowed : Bool) (question : Reader Bool) : Reader Bool :=
  if allowed then question else pure false

/-- Read any word. -/
def anyWord : Reader String := do
  match ← takeIf Test.anyWord with
  | .word text => return text
  | _ => failure

/-- Read an identifier. -/
def ident : Reader String := do
  require Test.ident
  anyWord

/-- Read a lifetime. -/
def lifetime : Reader Unit := do
  let _ ← takeIf Test.lifetime

/-- Read a lifetime if one comes next. -/
def lifetime? : Reader Bool := do
  if ← peek Test.lifetime then
    lifetime
    return true
  return false

/-- Read a group with the given delimiter; the inner reader must read all of it. -/
def group (d : Delimiter) (inner : Reader α) : Reader α where
  run
    | ⟨.group d' trees :: rest, taken, embedded⟩ =>
      if d = d' then
        match inner ⟨trees, [], embedded⟩ with
        | some (a, ⟨[], inside, embedded⟩) =>
          some (a, ⟨rest, .group d inside.reverse :: taken, embedded⟩)
        | _ => none
      else none
    | _ => none
  suffix {c c' a} h := by
    obtain ⟨_ | ⟨token, rest⟩, taken, embedded⟩ := c
    · cases h
    · cases token with
      | group d' trees =>
        obtain ⟨-, h⟩ := Option.ite_none_right_eq_some.1 h
        split at h
        · cases h
          exact List.suffix_cons _ rest
        · cases h
      | _ => cases h

/-- Read any group as it stands. -/
def anyGroup : Reader Token :=
  takeIf (Test.any [Test.paren, Test.bracket, Test.brace])

/-- Read a group with the given delimiter as it stands. -/
def wholeGroup (d : Delimiter) : Reader Token :=
  takeIf (Test.group d)

/-- Read with a reader if it succeeds, and nothing otherwise. -/
def attempt (r : Reader α) : Reader (Option α) where
  run c := match r c with
    | some (a, c') => some (some a, c')
    | none => some (none, c)
  suffix h := by
    split at h
    next hr => cases h; exact r.suffix hr
    next => cases h; exact List.suffix_rfl

/-- What a reader would give here, without reading. -/
def lookahead (r : Reader α) : Reader (Option α) where
  run c := some ((r c).map Prod.fst, c)
  suffix h := by cases h; exact List.suffix_rfl

/-- Read a piece and give back the trees it was read from as well. -/
def capture (r : Reader α) : Reader (α × List Token) where
  run := fun ⟨rest, taken, embedded⟩ ↦
    match r ⟨rest, [], embedded⟩ with
    | some (a, ⟨rest, piece, embedded⟩) =>
      some ((a, piece.reverse), ⟨rest, piece ++ taken, embedded⟩)
    | none => none
  suffix h := by
    dsimp only at h
    split at h
    next hr => cases h; exact (r.suffix hr :)
    next => cases h

/-- Read a piece and put other trees in the place of what was read. -/
def substituting (r : Reader (α × List Token)) : Reader α where
  run := fun ⟨rest, taken, embedded⟩ ↦
    match r ⟨rest, [], embedded⟩ with
    | some ((a, piece), ⟨rest, _, embedded⟩) => some (a, ⟨rest, piece.reverse ++ taken, embedded⟩)
    | none => none
  suffix h := by
    dsimp only at h
    split at h
    next hr => cases h; exact (r.suffix hr :)
    next => cases h

/-- Note an expression that stands inside other syntax. -/
def embed (e : Expr) : Reader Unit where
  run c := some ((), ⟨c.rest, c.taken, e :: c.embedded⟩)
  suffix h := by cases h; exact List.suffix_rfl

/-- Read a piece and collect the expressions that stand inside it. -/
def collect (r : Reader α) : Reader (α × List Expr) where
  run := fun ⟨rest, taken, embedded⟩ ↦
    match r ⟨rest, taken, []⟩ with
    | some (a, ⟨rest, taken, found⟩) => some ((a, found.reverse), ⟨rest, taken, embedded⟩)
    | none => none
  suffix h := by
    dsimp only at h
    split at h
    next hr => cases h; exact (r.suffix hr :)
    next => cases h

/-- Run a repetition with fuel for every tree that is left, those inside of groups too. -/
def bounded (repetition : (fuel : Nat) → Reader α) : Reader α := do
  repetition (Token.sizeAll (← ahead) + 1)

/-- Repeat a reader while a test holds, less than `fuel` times. -/
def whileTest (t : Test) (r : Reader α) : (fuel : Nat) → Reader (List α)
  | 0 => failure
  | fuel + 1 => do
    if ← peek t then
      let a ← r
      let as ← whileTest t r fuel
      return a :: as
    return []

/-- Repeat a reader for as long as a test holds. -/
def repeatWhile (t : Test) (r : Reader α) : Reader (List α) :=
  bounded (whileTest t r)

/-- Repeat a reader until a test holds. -/
def repeatUntil (t : Test) (r : Reader α) : Reader (List α) :=
  repeatWhile (fun ts ↦ !t ts) r

/-- Pieces between separators up to where a test holds; the last separator may be left
out. -/
def separatedBy (sep : String) (done : Test) (r : Reader α) :
    (fuel : Nat) → Reader (List α)
  | 0 => failure
  | fuel + 1 => do
    if ← peek done then
      return []
    let a ← r
    if ← peek done then
      return [a]
    punct sep
    let as ← separatedBy sep done r fuel
    return a :: as

/-- Pieces between commas up to where a test holds. -/
def commas (done : Test) (r : Reader α) : Reader (List α) :=
  bounded (separatedBy "," done r)

/-- Pieces between commas to the end of a group. -/
def commaList (r : Reader α) : Reader (List α) :=
  commas Test.atEnd r

/-- Pieces between plus signs. The list ends where a test holds or no sign follows. -/
def summands (done : Test) (r : Reader α) : (fuel : Nat) → Reader (List α)
  | 0 => failure
  | fuel + 1 => do
    if ← peek done then
      return []
    let a ← r
    if ← punct? "+" then
      let as ← summands done r fuel
      return a :: as
    return [a]

/-- Pieces between plus signs, none at all if a test holds at once. -/
def plusList (done : Test) (r : Reader α) : Reader (List α) :=
  bounded (summands done r)

/-- All that is left of a group. -/
def remainder : Reader Unit where
  run c := some ((), ⟨[], c.rest.reverse ++ c.taken, c.embedded⟩)
  suffix h := by cases h; exact List.nil_suffix

end Reader

end GuestBridge.Host
