import GuestBridge.Host.Grammar.Item
import GuestBridge.Host.Scan

/-!
# Parsing host functions

The rules of the grammar tied together. Every rule that calls another one either reads a
tree first or calls it for the same trees at most a few levels deep, so a depth of eight
for each tree suffices.
-/

namespace GuestBridge.Host

/-- The grammar, usable to the given depth of calls. -/
def Grammar.ofDepth : Nat → Grammar
  | 0 => .empty
  | depth + 1 =>
    let g := Grammar.ofDepth depth
    { type := g.typeRule
      bound := g.boundRule
      pattern := g.patternRule
      expr := g.exprRule
      unary := g.unaryRule
      operators := g.operatorsRule
      early := g.earlyRule
      statements := g.statementsRule
      item := g.itemRule
      useTree := g.useTreeRule }

/-- The grammar for the given trees. -/
def Grammar.forTokens (ts : List Token) : Grammar :=
  .ofDepth (8 * Token.sizeAll ts + 16)

/-- Read all of the given trees. -/
def Reader.all? {α : Type} (r : Reader α) (ts : List Token) : Option α :=
  match r ⟨ts, [], []⟩ with
  | some (a, ⟨[], _, _⟩) => some a
  | _ => none

/-- The function item that the given trees make up. -/
def FnItem.ofTokens? (ts : List Token) : Option FnItem :=
  (Grammar.forTokens ts).fnItem.all? ts

/-- The function item that a text holds. -/
def FnItem.parse? (text : String) : Option FnItem :=
  (scan text).bind FnItem.ofTokens?

end GuestBridge.Host
