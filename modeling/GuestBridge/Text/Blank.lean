import GuestBridge.Text.Pieces

/-!
# Blank characters

The white-space characters of Unicode (property `White_Space`), trimming and splitting by
them, and the smaller ASCII set that the recognisers of guest code use.
-/

namespace GuestBridge.Text

/-- A character with the Unicode property `White_Space`. -/
def isBlank (c : Char) : Bool :=
  let n := c.toNat
  (9 ≤ n && n ≤ 13) || n = 32 || n = 0x85 || n = 0xA0 || n = 0x1680 ||
    (0x2000 ≤ n && n ≤ 0x200A) || n = 0x2028 || n = 0x2029 || n = 0x202F ||
    n = 0x205F || n = 0x3000

/-- An ASCII white-space character: tab, line feed, vertical tab, form feed, carriage
return or space. -/
def isAsciiBlank (c : Char) : Bool :=
  (9 ≤ c.toNat && c.toNat ≤ 13) || c.toNat = 32

/-- A control character (category `Cc`). -/
def isControl (c : Char) : Bool :=
  c.toNat ≤ 31 || (127 ≤ c.toNat && c.toNat ≤ 159)

/-- A text without its leading blanks. -/
def trimStart (cs : List Char) : List Char :=
  cs.dropWhile isBlank

/-- A text without its trailing blanks. -/
def trimEnd (cs : List Char) : List Char :=
  (cs.reverse.dropWhile isBlank).reverse

/-- A text without its leading and trailing blanks. -/
def trim (cs : List Char) : List Char :=
  trimEnd (trimStart cs)

/-- A line that holds nothing but blanks. -/
def isBlankLine (line : List Char) : Bool :=
  line.all isBlank

/-- The rest of `cs` after the leading `pre`, if it starts with `pre`. -/
def dropPrefix? : (pre cs : List Char) → Option (List Char)
  | [], cs => some cs
  | _ :: _, [] => none
  | p :: pre, c :: cs => if p = c then dropPrefix? pre cs else none

/-- A prefix that is present is exactly what is taken away. -/
theorem eq_append_of_dropPrefix? {pre cs rest : List Char}
    (h : dropPrefix? pre cs = some rest) : cs = pre ++ rest := by
  induction pre generalizing cs with
  | nil => simpa [dropPrefix?] using h
  | cons p pre ih =>
    cases cs with
    | nil => simp [dropPrefix?] at h
    | cons c cs =>
      simp only [dropPrefix?] at h
      split at h
      next hpc => rw [hpc, ih h, List.cons_append]
      next => simp at h

/-- A text that starts with a prefix loses exactly that prefix. -/
theorem dropPrefix?_append (pre rest : List Char) :
    dropPrefix? pre (pre ++ rest) = some rest := by
  induction pre with
  | nil => rfl
  | cons p pre ih => simpa [dropPrefix?] using ih

/-- The maximal blank-free pieces of a text, in order. -/
def words (cs : List Char) : List (List Char) :=
  (pieces isBlank cs).filter (· ≠ [])

end GuestBridge.Text
