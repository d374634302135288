import GuestBridge.Value.Basic

/-!
# What comes back of a value and of a text

A value that crosses the boundary comes back as it is shown there, which leaves out who owns
its handles. A quoted text comes back if every character does.
-/

namespace GuestBridge

namespace Value

mutual

/-- What a value shows: its handles without owners and with their types' names as given by a
function, and one number that is none. -/
def shown (name : String → String) : Value → Value
  | .float x => .float (if x.isNaN then Binary64.nan else x)
  | .array vs => .array (shownAll name vs)
  | .tuple vs => .tuple (shownAll name vs)
  | .handle h => .handle (.permanent h.id (name h.typeName))
  | v => v

/-- What some values show. -/
def shownAll (name : String → String) : List Value → List Value
  | [] => []
  | v :: vs => shown name v :: shownAll name vs

end

end Value

namespace Wire

variable {write : Char → List Char}
  {body : (fuel : Nat) → List Char → Option (List Char × List Char)}

/-- A text comes back up to its closing quote if every character does. -/
theorem body_flatMap (hquote : ∀ fuel rest, body (fuel + 1) ('"' :: rest) = some ([], rest))
    (hchar : ∀ c fuel cs, body (fuel + 1) (write c ++ cs) =
      (body fuel cs).map fun p ↦ (c :: p.1, p.2))
    (text rest : List Char) {fuel : Nat} (hfuel : text.length < fuel) :
    body fuel (text.flatMap write ++ '"' :: rest) = some (text, rest) := by
  induction text generalizing fuel with
  | nil =>
    obtain ⟨fuel, rfl⟩ := Nat.exists_eq_add_of_lt hfuel
    rw [List.flatMap_nil, List.nil_append, hquote]
  | cons c text ih =>
    cases fuel with
    | zero => simp at hfuel
    | succ fuel =>
      rw [List.flatMap_cons, List.append_assoc, hchar, ih (by simpa using hfuel)]
      rfl

/-- A text is at most as long as what is written for it. -/
theorem length_le_flatMap (hne : ∀ c, write c ≠ []) (text : List Char) :
    text.length ≤ (text.flatMap write).length := by
  induction text with
  | nil => simp
  | cons c text ih =>
    have hpos := List.length_pos_iff.2 (hne c)
    simp only [List.flatMap_cons, List.length_append, List.length_cons]
    omega

end Wire

end GuestBridge
