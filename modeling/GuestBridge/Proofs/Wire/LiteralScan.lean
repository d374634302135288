import GuestBridge.Proofs.Wire.LiteralRoundTrip

/-!
# Scanning literals

A scan of guest code keeps count of the brackets that are open, and knows whether it is
inside of a text. It stops at a comma or a closing bracket where none is open. The literal of a
value is scanned to its end, at any depth, and leaves the scan where it was.

So no literal ends with another one behind a comma: this comma would be inside of a text of
the longer literal, and then what is text in one of the two is code in the other up to their
common end.
-/

namespace GuestBridge.Wire

open Text

/-- Where a scan of guest code stands, and how many brackets are open. -/
inductive Place where
  /-- Between the parts of the code. -/
  | code (depth : Nat)
  /-- Inside of a text. -/
  | text (depth : Nat)
  /-- Inside of a text, behind a backslash. -/
  | escape (depth : Nat)
  deriving DecidableEq, Repr

namespace Place

/-- Where a scan stands behind a character, unless it stops there. -/
def next? : Place → Char → Option Place
  | .code depth, c =>
    if c = '"' then some (.text depth)
    else if c = '\\' then none
    else if c = '(' || c = '[' then some (.code (depth + 1))
    else if c = ')' || c = ']' then if depth = 0 then none else some (.code (depth - 1))
    else if c = ',' && depth = 0 then none
    else some (.code depth)
  | .text depth, c =>
    if c = '"' then some (.code depth)
    else if c = '\\' then some (.escape depth)
    else some (.text depth)
  | .escape depth, _ => some (.text depth)

/-- Where a scan stands behind some characters, unless it stops at one of them. -/
def run? (p : Place) (cs : List Char) : Option Place :=
  cs.foldlM next? p

variable {p q p' q' : Place} {c : Char} {cs : List Char} {depth : Nat}

/-- A scan that gets through one text goes on with what is behind it. -/
theorem run?_append (h : run? p cs = some q) (ds : List Char) :
    run? p (cs ++ ds) = run? q ds := by
  rw [run?, List.foldlM_append]
  rw [run?] at h
  rw [h]
  rfl

/-- A scan of two texts goes through the first one. -/
theorem exists_run?_of_append {ds : List Char} (h : run? p (cs ++ ds) = some q) :
    ∃ middle, run? p cs = some middle ∧ run? middle ds = some q := by
  rw [run?, List.foldlM_append] at h
  exact Option.bind_eq_some_iff.1 h

/-- A scan of a character and a text behind it. -/
theorem run?_cons : run? p (c :: cs) = (next? p c).bind (run? · cs) :=
  List.foldlM_cons

/-! ### Opposite scans -/

/-- One scan stands inside of a text where the other one does not. -/
def Opposite : Place → Place → Prop
  | .text _, .code _ | .code _, .text _ => True
  | _, _ => False

/-- Which of two opposite scans is the one inside of a text does not matter. -/
theorem Opposite.symm (h : Opposite p q) : Opposite q p := by
  cases p <;> cases q <;> exact h

/-- A scan of code enters a text with a quote, and stays in the code with any other character
at which it does not stop. -/
theorem next?_code (h : next? (.code depth) c = some q) :
    (c = '"' ∧ q = .text depth) ∨ (c ≠ '"' ∧ c ≠ '\\' ∧ ∃ depth', q = .code depth') := by
  by_cases hquote : c = '"'
  · refine .inl ⟨hquote, ?_⟩
    simpa [next?, hquote] using h.symm
  by_cases hback : c = '\\'
  · simp [next?, hback] at h
  refine .inr ⟨hquote, hback, ?_⟩
  simp only [next?, hquote, hback, if_false] at h
  split_ifs at h <;> exact ⟨_, (Option.some.inj h).symm⟩

/-- A character leaves two scans opposite. At a backslash one of them stops. -/
theorem Opposite.next (h : Opposite p q) (hp : next? p c = some p') (hq : next? q c = some q') :
    Opposite p' q' := by
  have hstep : ∀ {d e : Nat} {p' q' : Place}, next? (.text d) c = some p' →
      next? (.code e) c = some q' → Opposite p' q' := by
    intro d e p' q' hp hq
    rcases next?_code hq with ⟨hquote, rfl⟩ | ⟨hquote, hback, e', rfl⟩
    · obtain rfl : Place.code d = p' := by simpa [next?, hquote] using hp
      trivial
    · obtain rfl : Place.text d = p' := by simpa [next?, hquote, hback] using hp
      trivial
  cases p with
  | text d =>
    cases q with
    | code e => exact hstep hp hq
    | text e => cases h
    | escape e => cases h
  | code d =>
    cases q with
    | text e => exact (hstep hq hp).symm
    | code e => cases h
    | escape e => cases h
  | escape d => cases q <;> cases h

/-- Two scans that are opposite somewhere are opposite as far as both get. -/
theorem Opposite.run (h : Opposite p q) (hp : run? p cs = some p') (hq : run? q cs = some q') :
    Opposite p' q' := by
  induction cs generalizing p q with
  | nil =>
    cases hp
    cases hq
    exact h
  | cons c cs ih =>
    obtain ⟨p₁, hp₁, hp⟩ := Option.bind_eq_some_iff.1 (run?_cons.symm.trans hp)
    obtain ⟨q₁, hq₁, hq⟩ := Option.bind_eq_some_iff.1 (run?_cons.symm.trans hq)
    exact ih (h.next hp₁ hq₁) hp hq

/-! ### Scans of literals -/

/-- The characters of code that a scan heeds. -/
def marks : List Char := ['"', '\\', '(', ')', '[', ']', ',']

/-- A character of code that is no bracket, comma, quote or backslash. -/
def isPlain (c : Char) : Bool :=
  !marks.contains c

/-- A scan stays where it is at a plain character. -/
theorem next?_plain (h : isPlain c) : next? (.code depth) c = some (.code depth) := by
  have hne : c ≠ '"' ∧ c ≠ '\\' ∧ c ≠ '(' ∧ c ≠ ')' ∧ c ≠ '[' ∧ c ≠ ']' ∧ c ≠ ',' := by
    simpa [isPlain, marks] using h
  obtain ⟨hquote, hback, hopen, hclose, hopen', hclose', hcomma⟩ := hne
  simp [next?, hquote, hback, hopen, hclose, hopen', hclose', hcomma]

/-- A scan goes through plain characters. -/
theorem run?_plain (h : cs.all isPlain) : run? (.code depth) cs = some (.code depth) := by
  induction cs with
  | nil => rfl
  | cons c cs ih =>
    rw [List.all_cons, Bool.and_eq_true] at h
    rw [run?_cons, next?_plain h.1, Option.bind_some, ih h.2]

/-- A character of a text that neither ends it nor escapes another one. -/
def isTextual (c : Char) : Bool :=
  c ≠ '"' && c ≠ '\\'

/-- A scan goes through characters of a text that are neither quotes nor backslashes. -/
theorem run?_textual (h : cs.all isTextual) : run? (.text depth) cs = some (.text depth) := by
  induction cs with
  | nil => rfl
  | cons c cs ih =>
    rw [List.all_cons, Bool.and_eq_true] at h
    have hnext : next? (.text depth) c = some (.text depth) := by
      have hne : c ≠ '"' ∧ c ≠ '\\' := by simpa [isTextual] using h.1
      simp [next?, hne]
    rw [run?_cons, hnext, Option.bind_some, ih h.2]

/-- What a text literal has for a character leaves a scan inside of the text. -/
theorem run?_literalChar (c : Char) :
    run? (.text depth) (literalChar c) = some (.text depth) := by
  have hdigits : ∀ n < 160, (hexQuad n).all isTextual := by decide +kernel
  unfold literalChar
  split_ifs with hquote hback _ _ _ _ hcontrol
  · rfl
  · rfl
  · rfl
  · rfl
  · rfl
  · rfl
  · have hescape : run? (.text depth) ('\\' :: 'u' :: hexQuad c.toNat) =
        run? (.text depth) (hexQuad c.toNat) := rfl
    rw [hescape, run?_textual (hdigits _ (LiteralReader.toNat_lt_of_isControl hcontrol))]
  · exact run?_textual (by simp [isTextual, hquote, hback])

/-- A scan goes through a text literal. -/
theorem run?_textLiteral (s : String) :
    run? (.code depth) (textLiteral s).toList = some (.code depth) := by
  have hbody : ∀ cs : List Char,
      run? (.text depth) (cs.flatMap literalChar) = some (.text depth) := by
    intro cs
    induction cs with
    | nil => rfl
    | cons c cs ih => rw [List.flatMap_cons, run?_append (run?_literalChar c), ih]
  have hquote : next? (.code depth) '"' = some (.text depth) := rfl
  rw [textLiteral, String.toList_ofList, textLiteralChars, List.cons_append, run?_cons, hquote,
    Option.bind_some, run?_append (hbody _)]
  rfl

/-- The characters of a number are plain. -/
theorem isPlain_of_isNumeral (h : isNumeral c) : isPlain c := by
  have hmarks : marks.all fun d ↦ !isNumeral d := by decide
  have hnotMem : c ∉ marks := by
    intro hmem
    have hfalse := List.all_eq_true.1 hmarks c hmem
    rw [h] at hfalse
    cases hfalse
  rw [isPlain, Bool.not_eq_true', ← Bool.not_eq_true, List.contains_iff_mem]
  exact hnotMem

/-- A scan goes through a number. -/
theorem run?_numeral (h : ∀ c ∈ cs, isNumeral c) :
    run? (.code depth) cs = some (.code depth) :=
  run?_plain (List.all_eq_true.2 fun c hc ↦ isPlain_of_isNumeral (h c hc))

open LiteralReader (itemsText)

/-- A scan goes through something in brackets, one level deeper. -/
theorem run?_brackets {first last : Char} (hfirst : first = '(' ∨ first = '[')
    (hlast : last = ')' ∨ last = ']')
    (h : run? (.code (depth + 1)) cs = some (.code (depth + 1))) :
    run? (.code depth) (first :: (cs ++ [last])) = some (.code depth) := by
  have hopen : next? (.code depth) first = some (.code (depth + 1)) := by
    rcases hfirst with rfl | rfl <;> rfl
  have hclose : run? (.code (depth + 1)) [last] = some (.code depth) := by
    rcases hlast with rfl | rfl <;> rfl
  rw [run?_cons, hopen, Option.bind_some, run?_append h, hclose]

/-- A scan goes through an integer literal. -/
theorem run?_intLiteral (n : Int64) :
    run? (.code depth) (intLiteral n).toList = some (.code depth) := by
  unfold intLiteral
  split_ifs
  · rfl
  · exact run?_numeral LiteralReader.isNumeral_of_mem_int

/-- A scan goes through a floating-point literal. -/
theorem run?_floatLiteral (x : Binary64) :
    run? (.code depth) (floatLiteral x).toList = some (.code depth) := by
  unfold floatLiteral
  split_ifs with hnan hinf
  · exact run?_plain (by decide)
  · exact run?_plain (by decide)
  · exact run?_plain (by decide)
  · have hfinite : x.isFinite := by
      simp_all [Binary64.isNaN, Binary64.isInfinite, Binary64.isFinite]
    exact run?_numeral (Binary64.isNumeral_of_read? (Binary64.read?_text hfinite)).1

/-- A scan goes through a lookup of a handle. -/
theorem run?_handleRef (h : Handle) :
    run? (.code depth) (handleRef h).toList = some (.code depth) := by
  have hdigits : run? (.code (depth + 1)) (Nat.toDigits 10 h.id) = some (.code (depth + 1)) :=
    run?_numeral fun _ hc ↦ LiteralReader.isNumeral_of_mem_toDigits hc
  have hname : run? (.code depth) handleTable.toList = some (.code depth) :=
    run?_plain (by decide)
  rw [LiteralReader.toList_handleRef, run?_append hname]
  exact run?_brackets (.inl rfl) (.inl rfl) hdigits

mutual

/-- A scan goes through the literal of a value and stands where it stood before. -/
theorem run?_literal (v : Value) {depth : Nat} :
    run? (.code depth) (literal v).toList = some (.code depth) := by
  cases v with
  | nothing => exact run?_plain (by decide)
  | bool b => cases b <;> exact run?_plain (by decide)
  | int n => exact run?_intLiteral n
  | float x => exact run?_floatLiteral x
  | str s => exact run?_textLiteral s
  | array vs =>
    cases vs with
    | nil => rfl
    | cons v vs =>
      have htext : (literal (.array (v :: vs))).toList = '[' :: (itemsText (v :: vs) ++ [']']) := by
        simp [literal, itemsText]
      rw [htext]
      exact run?_brackets (.inr rfl) (.inr rfl) (run?_items (v :: vs))
  | tuple vs =>
    have htext : (literal (.tuple vs)).toList =
        '(' :: ((itemsText vs ++ (if vs.length = 1 then "," else "").toList) ++ [')']) := by
      simp [literal, itemsText]
    have hcomma : run? (.code (depth + 1)) (if vs.length = 1 then "," else "").toList =
        some (.code (depth + 1)) := by
      split_ifs <;> rfl
    rw [htext]
    refine run?_brackets (.inl rfl) (.inl rfl) ?_
    rw [run?_append (run?_items vs), hcomma]
  | handle h => exact run?_handleRef h

/-- A scan goes through literals with commas between them where a bracket is open. -/
theorem run?_items (vs : List Value) {depth : Nat} :
    run? (.code (depth + 1)) (itemsText vs) = some (.code (depth + 1)) := by
  match vs with
  | [] => rfl
  | [v] =>
    rw [LiteralReader.itemsText_singleton]
    exact run?_literal v
  | v :: w :: vs =>
    rw [LiteralReader.itemsText_cons, run?_append (run?_literal v)]
    exact run?_items (w :: vs)

end

end Place

/-- No literal ends with another one behind a comma. -/
theorem literal_ne_append (v w : Value) (front : List Char) :
    (literal v).toList ≠ front ++ ',' :: ' ' :: (literal w).toList := by
  intro heq
  have hlong : Place.run? (.code 0) (literal v).toList = some (.code 0) := Place.run?_literal v
  rw [heq] at hlong
  obtain ⟨place, -, hback⟩ := Place.exists_run?_of_append hlong
  -- Inside of a text the scan goes on opposite to a scan of the shorter literal alone.
  have htext : ∀ {depth : Nat}, Place.run? (.text depth) (literal w).toList ≠ some (.code 0) :=
    fun hrun ↦ Place.Opposite.run (p := .text _) (q := .code 0) trivial hrun
      (Place.run?_literal w)
  cases place with
  | code depth =>
    cases depth with
    | zero => cases hback
    | succ depth =>
      have hrun : Place.run? (.code (depth + 1)) (literal w).toList = some (.code 0) := hback
      rw [Place.run?_literal w] at hrun
      cases hrun
  | text depth => exact htext hback
  | escape depth => exact htext hback

end GuestBridge.Wire
