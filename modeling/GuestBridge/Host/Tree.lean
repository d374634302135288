import GuestBridge.Host.Token
import GuestBridge.Host.StringLiteral

/-!
# Trees of host functions

What the bridge needs to know of a host function: its attributes, visibility, name,
parameters and result type as tokens, and a tree of its body. The tree keeps literals,
returns, blocks and the constructs that own the returns inside them apart; every other
expression is a node over the expressions it holds.
-/

namespace GuestBridge.Host

/-- How an expression behaves inside larger ones. -/
inductive Form where
  /-- Conditions, loops, matches and marked blocks: they end a statement by themselves. -/
  | control
  /-- Ranges: no operator applies to them. -/
  | range
  /-- Comparisons: they do not chain. -/
  | comparison
  /-- An asynchronous block. -/
  | async
  /-- All other expressions. -/
  | plain
  deriving DecidableEq, Repr, Inhabited

mutual

/-- An expression of host source. -/
inductive Expr where
  /-- A literal as written. -/
  | literal (text : String)
  /-- An expression in parentheses, or in an invisible group, as a compiler may put around what it
  hands over: everything that reads expressions treats the two alike. No text holds the latter. -/
  | paren (inner : Expr)
  /-- The empty tuple. -/
  | unit
  /-- A block of statements. -/
  | block (labelled : Bool) (body : List Stmt)
  /-- A return from the function. -/
  | ret (operand : Option Expr)
  /-- A closure. -/
  | closure (body : Expr)
  /-- A macro invocation with its delimited argument. -/
  | invocation (argument : Token)
  /-- Tokens that are accepted without a tree. -/
  | verbatim
  /-- An expression under attributes whose values hold expressions themselves. -/
  | attributed (values : List Expr) (inner : Expr)
  /-- Any other expression over the expressions it holds, those in its patterns and types
  included. -/
  | node (form : Form) (parts : List Expr)

/-- A statement of host source. -/
inductive Stmt where
  /-- An expression statement, with or without a semicolon. -/
  | expr (e : Expr) (semicolon : Bool)
  /-- A binding over the expressions it holds. -/
  | binding (parts : List Expr)
  /-- A nested item. -/
  | item (tokens : List Token)
  /-- A macro invocation as a statement, under attributes that hold expressions. -/
  | invocation (values : List Expr) (argument : Token) (semicolon : Bool)

end

instance : Inhabited Expr := ⟨.unit⟩

instance : Inhabited Stmt := ⟨.expr .unit false⟩

/-- A block whose returns count, as one part of a larger expression. -/
def Expr.ofBody (body : List Stmt) : Expr :=
  .block false body

/-- Put attributes on an expression. Returns, closures and verbatim tokens do not show
what their attributes hold. -/
def Expr.withAttributes (values : List Expr) : Expr → Expr
  | .ret operand => .ret operand
  | .closure body => .closure body
  | .verbatim => .verbatim
  | e => if values.isEmpty then e else .attributed values e

/-- An expression without its attributes. -/
def Expr.bare : Expr → Expr
  | .attributed _ e => e.bare
  | e => e

/-- The form of an expression. -/
def Expr.form (e : Expr) : Form :=
  match e.bare with
  | .node form _ => form
  | .block _ _ => .control
  | _ => .plain

/-- The text of a string literal, possibly in parentheses. -/
def Expr.stringValue? : Expr → Option String
  | .literal text => StringLiteral.value? text
  | .paren inner => inner.stringValue?
  | .attributed _ inner => inner.stringValue?
  | _ => none

/-- What a parameter or a pattern looks like from outside. -/
inductive PatternShape where
  /-- A name, possibly with a pattern of its own behind it. -/
  | name (word : String) (refined : Bool)
  | wildcard
  | tuple
  | record (type : String)
  | tupleRecord (type : String)
  | reference
  /-- A range that lacks an end. -/
  | openRange
  /-- The rest of a sequence. -/
  | rest
  | other
  deriving DecidableEq, Repr, Inhabited

/-- A declared parameter of a host function. -/
inductive Param where
  /-- The receiver of a method. -/
  | receiver
  /-- A pattern with its type, written as tokens. -/
  | typed (shape : PatternShape) (type : List Token)
  deriving Repr, Inhabited

/-- The tokens and the meaning of an attribute. -/
structure Attr where
  /-- The attribute as it is written again. -/
  tokens : List Token
  /-- Whether it stands inside of what it describes. -/
  inner : Bool
  /-- The documentation line it holds. -/
  doc : Option String
  deriving Repr, Inhabited

/-- A host function item. -/
structure FnItem where
  /-- The attributes, those at the head of the body last. -/
  attributes : List Attr
  visibility : List Token
  isAsync : Bool
  /-- The name as written. -/
  name : String
  /-- Whether the item has generic parameters. -/
  isGeneric : Bool
  params : List Param
  /-- The declared result type. -/
  result : Option (List Token)
  body : List Stmt
  deriving Inhabited

end GuestBridge.Host
