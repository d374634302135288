import GuestBridge.Text.Blank
import GuestBridge.Text.Identifier

/-!
# Headers of guest definitions

Whether guest code already is a complete definition, and what name it defines. A definition
in long form starts with the keyword `function`; one in short form has a parameter list, an
optional condition, an optional result type and a plain equals sign behind its name. Blanks
and comments in front of the code do not count.
-/

namespace GuestBridge.Definition

open GuestBridge.Text

/-- How many characters stand in front of the first place of a text where `b` follows `a`. -/
def pairAt? (a b : Char) : List Char → Option Nat
  | c :: d :: cs => if c = a && d = b then some 0 else (pairAt? a b (d :: cs)).map (· + 1)
  | _ => none

/-- A pair that is found ends inside the text. -/
theorem le_of_pairAt? {a b : Char} {cs : List Char} {i : Nat} (h : pairAt? a b cs = some i) :
    i + 2 ≤ cs.length := by
  fun_induction pairAt? a b cs generalizing i with
  | case1 =>
    cases h
    simp
  | case2 c d cs _ ih =>
    obtain ⟨j, hj, rfl⟩ := Option.map_eq_some_iff.1 h
    have hle := ih hj
    simp only [List.length_cons] at hle ⊢
    omega
  | case3 => cases h

/-- The rest of a text behind the end of the block comments it is inside of. Whichever of the
next `#=` and the next `=#` comes first counts, and a comment that does not end leaves
nothing. -/
def behindBlock : (depth : Nat) → (cs : List Char) → List Char
  | 0, cs => cs
  | depth + 1, cs =>
    match ho : pairAt? '#' '=' cs, hc : pairAt? '=' '#' cs with
    | some o, some c =>
      if o < c then behindBlock (depth + 2) (cs.drop (o + 2))
      else behindBlock depth (cs.drop (c + 2))
    | none, some c => behindBlock depth (cs.drop (c + 2))
    | _, none => []
termination_by _ cs => cs.length
decreasing_by
  · have hle := le_of_pairAt? ho
    rw [List.length_drop]
    omega
  all_goals
    have hle := le_of_pairAt? hc
    rw [List.length_drop]
    omega

/-- Nothing is added behind a block comment. -/
theorem behindBlock_suffix (depth : Nat) (cs : List Char) : behindBlock depth cs <:+ cs := by
  fun_induction behindBlock depth cs with
  | case1 cs => exact List.suffix_refl cs
  | case2 depth cs o _ _ _ _ ih => exact ih.trans (List.drop_suffix _ _)
  | case3 depth cs o c _ _ _ ih => exact ih.trans (List.drop_suffix _ _)
  | case4 depth cs c _ _ ih => exact ih.trans (List.drop_suffix _ _)
  | case5 depth cs => exact List.nil_suffix

private theorem length_lt_of_trimStart {c : Char} {cs rest : List Char}
    (h : trimStart cs = c :: rest) :
    rest.length < cs.length := by
  have hle := (List.dropWhile_suffix (l := cs) isBlank).length_le
  rw [trimStart] at h
  rw [h, List.length_cons] at hle
  omega

/-- The rest of a code after its leading blanks and comments. Block comments nest, and a line
comment ends with its line. -/
def codeStart (cs : List Char) : List Char :=
  match _h : trimStart cs with
  | '#' :: '=' :: rest => codeStart (behindBlock 1 rest)
  | '#' :: rest => codeStart ((rest.dropWhile (· ≠ '\n')).drop 1)
  | rest => rest
termination_by cs.length
decreasing_by
  · have hlt := length_lt_of_trimStart _h
    have hle := (behindBlock_suffix 1 rest).length_le
    rw [List.length_cons] at hlt
    omega
  · have hlt := length_lt_of_trimStart _h
    have hle := (List.dropWhile_suffix (l := rest) (· ≠ '\n')).length_le
    rw [List.length_drop]
    omega

/-- A character that starts a name of the guest. -/
def isNameStart (c : Char) : Bool :=
  isAsciiLetter c || c = '_'

/-- A character that continues a name of the guest. -/
def isNameChar (c : Char) : Bool :=
  isNameStart c || isAsciiDigit c || c = '!'

/-- The name a text starts with, and the rest. -/
def name? : List Char → Option (List Char × List Char)
  | c :: cs =>
    if isNameStart c then some (c :: cs.takeWhile isNameChar, cs.dropWhile isNameChar) else none
  | [] => none

/-- The last of the names between points that a text goes on with behind a first one, and
the rest. A point that no name follows is not part of it. -/
def lastName : (fuel : Nat) → (last : List Char) → List Char → List Char × List Char
  | 0, last, cs => (last, cs)
  | fuel + 1, last, cs =>
    match cs with
    | '.' :: rest =>
      match name? rest with
      | some (next, rest) => lastName fuel next rest
      | none => (last, cs)
    | _ => (last, cs)

/-- The last name of the dotted path a text starts with, and the rest. -/
def path? (cs : List Char) : Option (List Char × List Char) :=
  (name? cs).map fun (first, rest) ↦ lastName (rest.length + 1) first rest

/-- The name that a definition in long form reveals: nothing if the code is in another form,
and no name if its header is not a name with a parameter list or type parameters. -/
def longForm? (cs : List Char) : Option (Option (List Char)) :=
  match dropPrefix? "function".toList cs with
  | some (c :: cs) =>
    if isAsciiBlank c then
      match path? (cs.dropWhile isAsciiBlank) with
      | some (last, rest) =>
        match rest.dropWhile isAsciiBlank with
        | '(' :: _ => some (some last)
        | '{' :: _ => some (some last)
        | _ => some none
      | none => some none
    else none
  | _ => none

/-- The rest behind the parenthesis that opens a parameter list. Type parameters on the same
line may stand in front of it. -/
def openingEnd : List Char → Option (List Char)
  | '(' :: cs => some cs
  | '{' :: cs => afterBraces cs
  | _ => none
where
  /-- The rest behind the first closing brace on the line that a parenthesis follows. -/
  afterBraces : List Char → Option (List Char)
    | '}' :: '(' :: cs => some cs
    | '\n' :: _ => none
    | _ :: cs => afterBraces cs
    | [] => none

/-- What stands behind each closing parenthesis of the line. -/
def closings : List Char → List (List Char)
  | ')' :: cs => cs :: closings cs
  | '\n' :: _ => []
  | _ :: cs => closings cs
  | [] => []

/-- A text without its leading and trailing ASCII blanks. -/
def trimAscii (cs : List Char) : List Char :=
  ((cs.dropWhile isAsciiBlank).reverse.dropWhile isAsciiBlank).reverse

/-- A text without its trailing ASCII blanks. -/
def trimAsciiEnd (cs : List Char) : List Char :=
  (cs.reverse.dropWhile isAsciiBlank).reverse

/-- What stands behind the colons of a result type: something on a single line, with blanks
around it. -/
def isTyped (cs : List Char) : Bool :=
  if cs.all isAsciiBlank then cs.any (· ≠ '\n') else !(trimAscii cs).contains '\n'

/-- What stands behind the keyword of a condition and one blank: something on a single line,
blanks, and possibly a result type. -/
def isConditioned (cs : List Char) : Bool :=
  !(trimAsciiEnd cs).contains '\n' || go [] cs
where
  /-- Some double colons split the text into a condition and a type; what was passed comes
  first, its end foremost. -/
  go : (passed : List Char) → List Char → Bool
    | passed, ':' :: ':' :: cs =>
      (!(trimAsciiEnd passed.reverse).contains '\n' && isTyped cs) || go (':' :: passed) (':' :: cs)
    | passed, c :: cs => go (c :: passed) cs
    | _, [] => false

/-- What may stand between a parameter list and the equals sign: blanks, or a condition, or
a result type, or both. -/
def isSignatureEnd (cs : List Char) : Bool :=
  let core := cs.dropWhile isAsciiBlank
  core.isEmpty ||
    (match core with
      | ':' :: ':' :: rest => isTyped rest
      | _ => false) ||
    match dropPrefix? "where".toList core with
    | some (c :: rest) => isAsciiBlank c && isConditioned rest
    | _ => false

/-- What follows a parameter list is the rest of a short form: the end of the signature and
an equals sign that is not part of a longer operator. -/
def isShortTail (cs : List Char) : Bool :=
  match cs.dropWhile (· ≠ '=') with
  | '=' :: rest =>
    isSignatureEnd (cs.takeWhile (· ≠ '=')) && !rest.head?.any fun c ↦ c = '=' || c = '>'
  | _ => false

/-- The name that a definition in short form defines. -/
def shortForm? (cs : List Char) : Option (List Char) :=
  (path? cs).bind fun (last, rest) ↦
    (openingEnd rest).bind fun params ↦
      if (closings params).any isShortTail then some last else none

/-- The name that a complete definition defines: nothing if the code is none, and no name if
its header does not reveal it. -/
def definedName? (code : String) : Option (Option String) :=
  let cs := codeStart code.toList
  match longForm? cs with
  | some last => some (last.map String.ofList)
  | none => (shortForm? cs).map fun last ↦ some (String.ofList last)

/-- Whether guest code is a complete definition. -/
def isComplete (code : String) : Bool :=
  (definedName? code).isSome

end GuestBridge.Definition
