import GuestBridge.Proofs.Wire.Common
import GuestBridge.Proofs.Wire.NumberText
import GuestBridge.Wire.Literal

/-!
# What the driver of a guest writes

The guest's driver writes a value as one line of JSON. A finite floating-point number is
written by the guest itself; any text with a point or an exponent will do that reads as the
number.
-/

namespace GuestBridge.Wire

/-- How the driver writes a character of a text. -/
def driverChar (c : Char) : List Char :=
  if c = '"' then ['\\', '"']
  else if c = '\\' then ['\\', '\\']
  else if c = '\n' then ['\\', 'n']
  else if c = '\r' then ['\\', 'r']
  else if c = '\t' then ['\\', 't']
  else if c.toNat < 32 || c.toNat = 127 then '\\' :: 'u' :: hexQuad c.toNat
  else [c]

/-- How the driver writes a text. -/
def driverString (s : String) : List Char :=
  '"' :: s.toList.flatMap driverChar ++ ['"']

/-- How the driver writes an object with one member. -/
def driverObject (key : String) (value : List Char) : List Char :=
  '\x7b' :: driverString key ++ ':' :: value ++ ['\x7d']

/-- How the driver writes an object with two members. -/
def driverPair (key : String) (value : List Char) (key' : String) (value' : List Char) :
    List Char :=
  '\x7b' :: driverString key ++ ':' :: value ++ ',' :: driverString key' ++ ':' :: value' ++
    ['\x7d']

mutual

/-- How the driver writes a value; the guest writes finite floating-point numbers. -/
def driverText (float : Binary64 → List Char) : Value → List Char
  | .nothing => "null".toList
  | .bool b => if b then "true".toList else "false".toList
  | .int n => (toString n.toInt).toList
  | .float x =>
    if x.isNaN then driverObject "float" (driverString "NaN")
    else if x.isInfinite then
      driverObject "float" (driverString (if x.negative then "-Inf" else "Inf"))
    else float x
  | .str s => driverString s
  | .array vs => '[' :: driverItems float vs ++ [']']
  | .tuple vs => driverObject "tuple" ('[' :: driverItems float vs ++ [']'])
  | .handle h =>
    driverPair "handle" (toString h.id).toList "type" (driverString h.typeName)

/-- How the driver writes the items of an array. -/
def driverItems (float : Binary64 → List Char) : List Value → List Char
  | [] => []
  | [v] => driverText float v
  | v :: w :: vs => driverText float v ++ ',' :: driverItems float (w :: vs)

end

/-- The line that the driver writes for a value. -/
def driverReply (float : Binary64 → List Char) (v : Value) : List Char :=
  driverObject "ok" (driverText float v)

/-- The line that the driver writes for an exception. -/
def driverFailure (kind message : String) : List Char :=
  driverObject "err" (driverPair "type" (driverString kind) "message" (driverString message))

/-- A text that a guest may write for a finite floating-point number. -/
def FloatText (x : Binary64) (cs : List Char) : Prop :=
  JsonNumber.read? cs = some (.float x, []) ∧ ('.' ∈ cs ∨ 'e' ∈ cs ∨ 'E' ∈ cs)

end Wire

namespace Value

mutual

/-- The levels of JSON that a value takes. -/
def levels : Value → Nat
  | .array vs => levelsAll vs + 1
  | .tuple vs => levelsAll vs + 2
  | .handle _ => 1
  | .float x => if x.isFinite then 0 else 1
  | _ => 0

/-- The levels of JSON that some values take. -/
def levelsAll : List Value → Nat
  | [] => 0
  | v :: vs => max (levels v) (levelsAll vs)

end

mutual

/-- The floating-point numbers in a value. -/
def floats : Value → List Binary64
  | .float x => [x]
  | .array vs | .tuple vs => floatsAll vs
  | _ => []

/-- The floating-point numbers in some values. -/
def floatsAll : List Value → List Binary64
  | [] => []
  | v :: vs => floats v ++ floatsAll vs

end

end Value

namespace Wire.Json

/-! ### Reading texts -/

/-- Four hexadecimal digits are read whatever stands behind them. -/
theorem hexQuad?_append {cs left : List Char} {n : Nat} (h : hexQuad? cs = some (n, left))
    (rest : List Char) : hexQuad? (cs ++ rest) = some (n, left ++ rest) := by
  match cs, h with
  | a :: b :: c :: d :: cs, h =>
    simp only [hexQuad?, List.cons_append] at h ⊢
    split at h
    · cases h
      rfl
    · cases h

/-- The hexadecimal digits of a small code are read as this code. -/
theorem hexQuad?_hexQuad {n : Nat} (h : n < 256) (rest : List Char) :
    hexQuad? (hexQuad n ++ rest) = some (n, rest) := by
  have hall : ∀ n < 256, hexQuad? (hexQuad n) = some (n, []) := by decide +kernel
  exact hexQuad?_append (hall n h) rest

/-- A character that the driver writes is read as this character. -/
private theorem stringBody_driverChar (c : Char) (fuel : Nat) (cs : List Char) :
    stringBody (fuel + 1) (driverChar c ++ cs) =
      (stringBody fuel cs).map fun p ↦ (c :: p.1, p.2) := by
  unfold driverChar
  by_cases hquote : c = '"'
  · subst hquote
    rfl
  by_cases hback : c = '\\'
  · subst hback
    rfl
  by_cases hline : c = '\n'
  · subst hline
    rfl
  by_cases hreturn : c = '\r'
  · subst hreturn
    rfl
  by_cases htab : c = '\t'
  · subst htab
    rfl
  simp only [hquote, hback, hline, hreturn, htab, if_false]
  split
  · next hcode =>
    have hsmall : c.toNat < 256 := by
      simp only [Bool.or_eq_true, decide_eq_true_eq] at hcode
      omega
    have hescape : codeEscape? (hexQuad c.toNat ++ cs) = some (c, cs) := by
      unfold codeEscape?
      rw [hexQuad?_hexQuad hsmall]
      have hlow : c.toNat < 0xD800 := by omega
      simp [hlow, Char.ofNat_toNat]
    simp only [List.cons_append, stringBody, hescape]
    rfl
  · next hcode =>
    have hlow : ¬ c.toNat < 32 := by
      simp only [Bool.or_eq_true, decide_eq_true_eq, not_or] at hcode
      exact hcode.1
    simp [stringBody, hquote, hback, hlow]

/-- The driver writes something for every character. -/
private theorem driverChar_ne_nil (c : Char) : driverChar c ≠ [] := by
  unfold driverChar
  repeat' split
  all_goals simp

/-- A text is read back. -/
theorem string?_driverString (s : String) (rest : List Char) :
    string? (driverString s ++ rest) = some (s, rest) := by
  have hlength := length_le_flatMap driverChar_ne_nil s.toList
  have hbody := body_flatMap (fun _ _ ↦ rfl) stringBody_driverChar s.toList rest
    (show s.toList.length < (s.toList.flatMap driverChar ++ '"' :: rest).length + 1 by
      simp only [List.length_append]
      omega)
  simp only [driverString, List.cons_append, List.append_assoc, List.nil_append, string?,
    hbody, Option.map_some, String.ofList_toList]

end GuestBridge.Wire.Json
