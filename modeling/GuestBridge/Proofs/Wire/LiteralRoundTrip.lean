import GuestBridge.Proofs.Wire.Common
import GuestBridge.Proofs.Wire.LiteralReader

/-!
# Literals are read back

The literal of a value is read as this value, whatever closes or goes on behind it, and no
control character stands in it.
-/

namespace GuestBridge.Wire.LiteralReader

open Text

variable {fuel : Nat} {rest : List Char}

/-! ### Texts -/

/-- Hexadecimal digits are read that fill the limit, whatever stands behind them. -/
private theorem hexDigits_append {limit value code : Nat} {cs : List Char}
    (h : hexDigits limit value cs = (code, [])) (hlength : cs.length = limit)
    (rest : List Char) : hexDigits limit value (cs ++ rest) = (code, rest) := by
  induction limit generalizing value cs with
  | zero =>
    obtain rfl := List.length_eq_zero_iff.1 hlength
    obtain rfl : value = code := congrArg Prod.fst h
    rfl
  | succ limit ih =>
    cases cs with
    | nil => simp at hlength
    | cons c cs =>
      rw [List.cons_append]
      simp only [hexDigits] at h ⊢
      split at h
      · exact ih h (by simpa using hlength)
      · cases h

/-- The code of a control character is read. -/
private theorem codeEscape?_hexQuad {n : Nat} (h : n < 160) (cs : List Char) :
    codeEscape? (hexQuad n ++ cs) = some (Char.ofNat n, cs) := by
  have hall : ∀ n < 160, hexDigits 4 0 (hexQuad n) = (n, []) ∧ (hexQuad n).length = 4 ∧
      (hexQuad n).head?.any (fun c ↦ (Host.Scan.hexValue c).isSome) = true := by decide +kernel
  obtain ⟨hdigits, hlength, hhead⟩ := hall n h
  have hfirst : (hexQuad n ++ cs).head? = (hexQuad n).head? := by
    cases hq : hexQuad n with
    | nil => simp [hq] at hlength
    | cons c cs => rfl
  have hvalid : n.isValidChar := .inl (by omega)
  rw [codeEscape?, hfirst, if_pos hhead, hexDigits_append hdigits hlength]
  simp only [if_pos hvalid]

/-- A control character has a small code. -/
theorem toNat_lt_of_isControl {c : Char} (h : isControl c) : c.toNat < 160 := by
  simp only [isControl, Bool.or_eq_true, Bool.and_eq_true, decide_eq_true_eq] at h
  omega

/-- A character of a text literal is read as this character. -/
private theorem textBody_literalChar (c : Char) (fuel : Nat) (cs : List Char) :
    textBody (fuel + 1) (literalChar c ++ cs) =
      (textBody fuel cs).map fun p ↦ (c :: p.1, p.2) := by
  unfold literalChar
  by_cases hquote : c = '"'
  · subst hquote
    rfl
  by_cases hback : c = '\\'
  · subst hback
    rfl
  by_cases hdollar : c = '$'
  · subst hdollar
    rfl
  by_cases hline : c = '\n'
  · subst hline
    rfl
  by_cases hreturn : c = '\r'
  · subst hreturn
    rfl
  by_cases htab : c = '\t'
  · subst htab
    rfl
  simp only [hquote, hback, hdollar, hline, hreturn, htab, if_false]
  split
  · next hcontrol =>
    have hescape := codeEscape?_hexQuad (toNat_lt_of_isControl hcontrol) cs
    rw [Char.ofNat_toNat] at hescape
    simp only [List.cons_append, textBody, hescape]
    rfl
  · simp [textBody, hquote, hback, hdollar]

/-- Something is written for every character. -/
private theorem literalChar_ne_nil (c : Char) : literalChar c ≠ [] := by
  unfold literalChar
  repeat' split
  all_goals simp

/-- A text literal is read as its text. -/
theorem value?_textLiteral (s : String) (rest : List Char) :
    value? (fuel + 1) ((textLiteral s).toList ++ rest) = some (.str s, rest) := by
  have hlength := length_le_flatMap literalChar_ne_nil s.toList
  have hbody := body_flatMap (fun _ _ ↦ rfl) textBody_literalChar s.toList rest
    (show s.toList.length < (s.toList.flatMap literalChar ++ '"' :: rest).length + 1 by
      simp only [List.length_append]
      omega)
  have htext : (textLiteral s).toList ++ rest =
      '"' :: (s.toList.flatMap literalChar ++ '"' :: rest) := by
    simp [textLiteral, textLiteralChars]
  rw [htext, value?, hbody]
  simp

/-! ### Words -/

/-- A text starts with no character of a word. -/
private def NoWord (rest : List Char) : Prop :=
  ∀ c ∈ rest.head?, isWordChar c = false

/-- A character that may not stand in a word ends it. -/
private theorem noWord_cons {c : Char} (h : isWordChar c = false) (cs : List Char) :
    NoWord (c :: cs) :=
  forall_head?_cons h cs

/-- A word is read as far as it goes. -/
private theorem value?_word {word : List Char} (hne : word ≠ [])
    (hword : word.all isWordChar) (hrest : NoWord rest) :
    value? (fuel + 1) (word ++ rest) = wordValue? word rest := by
  rw [List.all_eq_true] at hword
  obtain ⟨htake, hdrop⟩ := span_append hword hrest
  cases word with
  | nil => exact absurd rfl hne
  | cons c cs =>
    have hc := hword c (List.mem_cons_self ..)
    have hhead : ∀ d : Char, isWordChar d = false → c ≠ d := by
      rintro d hd rfl
      rw [hd] at hc
      cases hc
    have hquote := hhead '"' (by decide)
    have hbracket := hhead '[' (by decide)
    have hparen := hhead '(' (by decide)
    rw [List.cons_append] at htake hdrop ⊢
    rw [value?]
    · rw [htake, hdrop]
    all_goals simp_all

/-- A number is no other word. -/
private theorem wordValue?_number {word : List Char} (h : ∀ c ∈ word, isNumeral c) :
    wordValue? word rest = (number? word).map (·, rest) := by
  have hne : ∀ {other : List Char}, other.all isNumeral = false → word ≠ other := by
    rintro other hfalse rfl
    rw [List.all_eq_true.2 h] at hfalse
    cases hfalse
  have hconstants : constants.find? (·.1 = word) = none := by
    have hall : constants.all (fun p ↦ !p.1.all isNumeral) := by decide
    rw [List.find?_eq_none]
    intro p hp
    have hother : p.1.all isNumeral = false := by simpa using List.all_eq_true.1 hall p hp
    simpa using (hne hother).symm
  rw [wordValue?, if_neg (hne (by decide)), if_neg (hne (by decide)), if_neg (hne (by decide)),
    hconstants]

/-- A character of a number may stand in a word. -/
private theorem isWordChar_of_isNumeral {c : Char} (h : isNumeral c) : isWordChar c := by
  simp only [isNumeral, Bool.or_eq_true, decide_eq_true_eq] at h
  rcases h with ((h | rfl) | rfl) | rfl
  · simp [isWordChar, h]
  · decide
  · decide
  · decide

/-- A number is read as far as it goes. -/
private theorem value?_number {word : List Char} {v : Value} (hne : word ≠ [])
    (hword : ∀ c ∈ word, isNumeral c) (hrest : NoWord rest) (h : number? word = some v) :
    value? (fuel + 1) (word ++ rest) = some (v, rest) := by
  have hall : word.all isWordChar :=
    List.all_eq_true.2 fun c hc ↦ isWordChar_of_isNumeral (hword c hc)
  rw [value?_word hne hall hrest, wordValue?_number hword, h]
  rfl

/-- The digits of a natural number may stand in a number. -/
theorem isNumeral_of_mem_toDigits {n : Nat} {c : Char} (h : c ∈ Nat.toDigits 10 n) :
    isNumeral c := by
  simp [isNumeral, isAsciiDigit_of_mem_toDigits h]

/-- The text of an integer may stand in a number. -/
theorem isNumeral_of_mem_int {n : Int} : ∀ c ∈ (toString n).toList, isNumeral c := by
  intro c hc
  rw [toList_toString_int] at hc
  split at hc
  · rcases List.mem_cons.1 hc with rfl | hc
    · decide
    · exact isNumeral_of_mem_toDigits hc
  · exact isNumeral_of_mem_toDigits hc

/-- The text of an integer is not empty. -/
theorem toList_int_ne_nil (n : Int) : (toString n).toList ≠ [] := by
  rw [toList_toString_int]
  split
  · simp
  · exact Nat.toDigits_ne_nil

/-- Every integer but the least is read as this integer. -/
private theorem int?_toString {n : Int64} (h : n ≠ Int64.minValue) :
    int? (toString n.toInt).toList = some n := by
  have hlow := n.le_toInt
  have hhigh := n.toInt_lt
  have hleast : n.toInt ≠ -2 ^ 63 := by
    intro heq
    exact h (Int64.toInt_inj.1 heq)
  rw [toList_toString_int]
  split
  · next hneg =>
    have hsame : -(n.toInt.natAbs : Int) = n.toInt := by omega
    have hfit : n.toInt.natAbs < 2 ^ 63 := by omega
    simp only [int?, natural?_toDigits, Option.bind_some, if_pos hfit, hsame, Int64.ofInt_toInt]
  · next hpos =>
    have hsame : (n.toInt.natAbs : Int) = n.toInt := by omega
    have hfit : n.toInt.natAbs < 2 ^ 63 := by omega
    obtain ⟨c, hc, hdigit⟩ := exists_head?_toDigits n.toInt.natAbs
    have hother : int? (Nat.toDigits 10 n.toInt.natAbs) =
        (natural? (Nat.toDigits 10 n.toInt.natAbs)).bind fun n ↦
          if n < 2 ^ 63 then some (Int64.ofInt n) else none := by
      cases hd : Nat.toDigits 10 n.toInt.natAbs with
      | nil => rfl
      | cons d ds =>
        have hminus : d ≠ '-' := by
          rintro rfl
          obtain rfl : '-' = c := by simpa [hd] using hc
          cases hdigit
        simp [int?, hminus]
    rw [hother, natural?_toDigits, Option.bind_some, if_pos hfit, hsame, Int64.ofInt_toInt]

/-- An integer literal is read as its integer. -/
private theorem value?_intLiteral (n : Int64) (hrest : NoWord rest) :
    value? (fuel + 1) ((intLiteral n).toList ++ rest) = some (.int n, rest) := by
  unfold intLiteral
  split
  · next hleast =>
    have htext : "typemin(Int64)".toList ++ rest =
        "typemin".toList ++ '(' :: ("Int64)".toList ++ rest) := rfl
    rw [htext, value?_word (by decide) (by decide) (noWord_cons (by decide) _), hleast]
    rfl
  · next hleast =>
    apply value?_number (toList_int_ne_nil _) isNumeral_of_mem_int hrest
    rw [number?, int?_toString hleast]

/-- A text with a point or an exponent is no integer. -/
private theorem int?_eq_none {word : List Char} {c : Char} (hc : c ∈ word)
    (h : c = '.' ∨ c = 'e') : int? word = none := by
  have hdigit : isAsciiDigit c = false := by
    rcases h with rfl | rfl <;> decide
  unfold int?
  split
  · next cs =>
    have hmem : c ∈ cs := by
      rcases List.mem_cons.1 hc with rfl | hc
      · rcases h with h | h <;> cases h
      · exact hc
    rw [natural?_eq_none hmem hdigit]
    rfl
  · rw [natural?_eq_none hc hdigit]
    rfl

/-- A floating-point literal is read as its number, or as none if it is none. -/
private theorem value?_floatLiteral (x : Binary64) (hrest : NoWord rest) :
    value? (fuel + 1) ((floatLiteral x).toList ++ rest) =
      some (.float (if x.isNaN then Binary64.nan else x), rest) := by
  unfold floatLiteral
  by_cases hnan : x.isNaN
  · simp only [hnan, if_true]
    rw [value?_word (by decide) (by decide) hrest]
    rfl
  by_cases hinf : x.isInfinite
  · simp only [hnan, hinf, if_true]
    rw [Binary64.eq_infinity hinf]
    cases x.negative with
    | true =>
      rw [value?_word (by decide) (by decide) hrest]
      rfl
    | false =>
      rw [value?_word (by decide) (by decide) hrest]
      rfl
  · have hfinite : x.isFinite := by
      simp_all [Binary64.isNaN, Binary64.isInfinite, Binary64.isFinite]
    have hread := Binary64.read?_text hfinite
    obtain ⟨hall, c, hc, hmark⟩ := Binary64.isNumeral_of_read? hread
    simp only [hnan, hinf]
    refine value?_number (List.ne_nil_of_mem hc) hall hrest ?_
    simp [number?, int?_eq_none hc hmark, hread]

/-- A lookup of a handle is a call with the id. -/
theorem toList_handleRef (h : Handle) :
    (handleRef h).toList = handleTable.toList ++ '(' :: (Nat.toDigits 10 h.id ++ [')']) := by
  simp only [handleRef, String.toList_append, Nat.toString_eq_repr, Nat.toList_repr,
    List.append_assoc]
  rfl

/-- A lookup of a handle is read as its id. -/
private theorem value?_handleRef (h : Handle) (rest : List Char) :
    value? (fuel + 1) ((handleRef h).toList ++ rest) =
      some (.handle (.permanent h.id ""), rest) := by
  have htext : (handleRef h).toList ++ rest =
      handleTable.toList ++ '(' :: (Nat.toDigits 10 h.id ++ ')' :: rest) := by
    simp [toList_handleRef]
  have hclose : NoDigit (')' :: rest) := forall_head?_cons (by decide) rest
  obtain ⟨htake, hdrop⟩ :=
    span_append (fun _ hc ↦ isAsciiDigit_of_mem_toDigits (n := h.id) hc) hclose
  rw [htext, value?_word (by decide) (by decide) (noWord_cons (by decide) _), wordValue?,
    if_neg (by decide), if_neg (by decide), if_pos rfl]
  simp [lookup?, htake, hdrop, natural?_toDigits]

/-! ### Values -/

/-- A text is empty, or what it starts with may follow a value. -/
def Closes (rest : List Char) : Prop :=
  ∀ c ∈ rest.head?, c = ',' ∨ c = ')' ∨ c = ']'

/-- What may follow a value ends a word. -/
private theorem Closes.noWord (h : Closes rest) : NoWord rest := by
  intro c hc
  rcases h c hc with rfl | rfl | rfl <;> decide

/-- A text starts with what may follow a value. -/
theorem closes_cons {c : Char} (h : c = ',' ∨ c = ')' ∨ c = ']') (cs : List Char) :
    Closes (c :: cs) :=
  forall_head?_cons (p := fun c ↦ c = ',' ∨ c = ')' ∨ c = ']') h cs

/-- A word that is a value by itself is read as it. -/
private theorem value?_constant {word : String} {v : Value} (hrest : Closes rest)
    (hword : word.toList.all isWordChar) (hne : word.toList ≠ [])
    (h : ∀ rest, wordValue? word.toList rest = some (v, rest)) :
    value? (fuel + 1) (word.toList ++ rest) = some (v, rest) := by
  rw [value?_word hne hword hrest.noWord, h]

/-- The literals of some values with commas between them. -/
def itemsText (vs : List Value) : List Char :=
  (", ".intercalate (literals vs)).toList

/-- One value has no comma. -/
theorem itemsText_singleton (v : Value) : itemsText [v] = (literal v).toList := by
  simp [itemsText, literals]

/-- A comma stands between two values. -/
theorem itemsText_cons (v w : Value) (vs : List Value) :
    itemsText (v :: w :: vs) = (literal v).toList ++ ',' :: ' ' :: itemsText (w :: vs) := by
  simp [itemsText, literals, String.toList_intercalate]

/-- No value starts with a closing parenthesis. -/
theorem ne_close_of_items? {cs : List Char} {r : List Value × List Char}
    (h : items? fuel cs = some r) : ∀ cs', cs ≠ ')' :: cs' := by
  rintro cs' rfl
  cases fuel with
  | zero => simp [items?] at h
  | succ fuel =>
    cases fuel with
    | zero => simp [items?, value?] at h
    | succ fuel =>
      have hnone : value? (fuel + 1) (')' :: cs') = none := by
        rw [value?]
        · rfl
        all_goals simp
      rw [items?, hnone] at h
      cases h

/-- Items in brackets are read as an array. -/
private theorem value?_array {vs : List Value} {cs : List Char}
    (h : items? fuel cs = some (vs, ']' :: rest)) :
    value? (fuel + 1) ('[' :: cs) = some (.array vs, rest) := by
  rw [value?, h]
  rfl

/-- One item in parentheses, with its comma, is read as a tuple. -/
private theorem value?_tuple_one {v : Value} {cs : List Char}
    (h : items? fuel cs = some ([v], ',' :: ')' :: rest)) :
    value? (fuel + 1) ('(' :: cs) = some (.tuple [v], rest) := by
  have hclose := ne_close_of_items? h
  rw [value?]
  · rw [h]
    rfl
  · exact fun cs' heq ↦ hclose cs' heq

/-- Two or more items in parentheses are read as a tuple. -/
private theorem value?_tuple {v w : Value} {vs : List Value} {cs : List Char}
    (h : items? fuel cs = some (v :: w :: vs, ')' :: rest)) :
    value? (fuel + 1) ('(' :: cs) = some (.tuple (v :: w :: vs), rest) := by
  have hclose := ne_close_of_items? h
  rw [value?]
  · rw [h]
    rfl
  · exact fun cs' heq ↦ hclose cs' heq

/-- The last item is read. -/
private theorem items?_last {v : Value} {cs : List Char} (h : value? fuel cs = some (v, rest))
    (hrest : ∀ rest', rest ≠ ',' :: ' ' :: rest') :
    items? (fuel + 1) cs = some ([v], rest) := by
  rw [items?, h]
  split
  · next heq => cases heq
  · next heq =>
    cases heq
    exact absurd rfl (hrest _)
  · next heq =>
    cases heq
    rfl

/-- An item is read, and the others after it. -/
private theorem items?_next {v : Value} {vs : List Value} {cs more : List Char}
    (h : value? fuel cs = some (v, ',' :: ' ' :: more))
    (hmore : items? fuel more = some (vs, rest)) :
    items? (fuel + 1) cs = some (v :: vs, rest) := by
  rw [items?, h]
  simp [hmore]

mutual

/-- The literal of a value is read as this value. -/
theorem value?_literal (v : Value) {fuel : Nat} {rest : List Char} (hrest : Closes rest)
    (hfuel : (literal v).toList.length < fuel) :
    value? fuel ((literal v).toList ++ rest) = some (v.shown fun _ ↦ "", rest) := by
  obtain ⟨fuel, rfl⟩ := Nat.exists_eq_add_of_le' (show 1 ≤ fuel by omega)
  cases v with
  | nothing => exact value?_constant hrest (by decide) (by decide) fun _ ↦ rfl
  | bool b =>
    cases b with
    | true => exact value?_constant hrest (by decide) (by decide) fun _ ↦ rfl
    | false => exact value?_constant hrest (by decide) (by decide) fun _ ↦ rfl
  | int n => exact value?_intLiteral n hrest.noWord
  | float x => exact value?_floatLiteral x hrest.noWord
  | str s => exact value?_textLiteral s rest
  | array vs =>
    cases vs with
    | nil =>
      have htext : (literal (.array [])).toList ++ rest =
          "Any".toList ++ '[' :: (']' :: rest) := rfl
      rw [htext, value?_word (by decide) (by decide) (noWord_cons (by decide) _)]
      rfl
    | cons v vs =>
      have htext : (literal (.array (v :: vs))).toList = '[' :: (itemsText (v :: vs) ++ [']']) := by
        simp [literal, itemsText]
      simp only [htext, List.length_cons, List.length_append, List.length_nil] at hfuel
      have hlength : (itemsText (v :: vs)).length + 1 < fuel := by omega
      rw [htext, List.cons_append, List.append_assoc]
      exact value?_array (items?_literals (v :: vs) (by simp)
        (closes_cons (by simp) rest) (by simp) hlength)
  | tuple vs =>
    match vs with
    | [] => rfl
    | [v] =>
      have htext : (literal (.tuple [v])).toList = '(' :: (itemsText [v] ++ [',', ')']) := by
        simp [literal, itemsText]
      simp only [htext, List.length_cons, List.length_append, List.length_nil] at hfuel
      have hlength : (itemsText [v]).length + 1 < fuel := by omega
      rw [htext, List.cons_append, List.append_assoc]
      exact value?_tuple_one (items?_literals [v] (by simp)
        (closes_cons (by simp) (')' :: rest)) (by simp) hlength)
    | v :: w :: vs =>
      have htext : (literal (.tuple (v :: w :: vs))).toList =
          '(' :: (itemsText (v :: w :: vs) ++ [')']) := by
        simp [literal, itemsText]
      simp only [htext, List.length_cons, List.length_append, List.length_nil] at hfuel
      have hlength : (itemsText (v :: w :: vs)).length + 1 < fuel := by omega
      rw [htext, List.cons_append, List.append_assoc]
      exact value?_tuple (items?_literals (v :: w :: vs) (by simp)
        (closes_cons (by simp) rest) (by simp) hlength)
  | handle h => exact value?_handleRef h rest

/-- The literals of some values with commas between them are read as these values. -/
theorem items?_literals (vs : List Value) {fuel : Nat} {rest : List Char} (hne : vs ≠ [])
    (hrest : Closes rest) (hmore : ∀ rest', rest ≠ ',' :: ' ' :: rest')
    (hfuel : (itemsText vs).length + 1 < fuel) :
    items? fuel (itemsText vs ++ rest) = some (Value.shownAll (fun _ ↦ "") vs, rest) := by
  obtain ⟨fuel, rfl⟩ := Nat.exists_eq_add_of_le' (show 1 ≤ fuel by omega)
  match vs with
  | [v] =>
    rw [itemsText_singleton] at hfuel ⊢
    exact items?_last (value?_literal v hrest (by omega)) hmore
  | v :: w :: vs =>
    rw [itemsText_cons] at hfuel ⊢
    simp only [List.length_append, List.length_cons] at hfuel
    have hlength : (literal v).toList.length < fuel := by omega
    have hlengths : (itemsText (w :: vs)).length + 1 < fuel := by omega
    have hread := value?_literal v
      (closes_cons (.inl rfl) (' ' :: (itemsText (w :: vs) ++ rest))) hlength
    have hreads := items?_literals (w :: vs) (by simp) hrest hmore hlengths
    simpa [Value.shownAll] using items?_next hread hreads

end

/-! ### Control characters -/

/-- No control character stands in a text. -/
private def printable (cs : List Char) : Bool :=
  cs.all fun c ↦ !isControl c

/-- One text behind another. -/
private theorem printable_append {cs ds : List Char} (hcs : printable cs) (hds : printable ds) :
    printable (cs ++ ds) := by
  rw [printable, List.all_append, Bool.and_eq_true]
  exact ⟨hcs, hds⟩

/-- One character in front of a text. -/
private theorem printable_cons {c : Char} {cs : List Char} (hc : isControl c = false)
    (hcs : printable cs) : printable (c :: cs) := by
  rw [printable, List.all_cons, hc]
  exact hcs

/-- A number has no control character. -/
private theorem printable_of_isNumeral {cs : List Char} (h : ∀ c ∈ cs, isNumeral c) :
    printable cs := by
  refine List.all_eq_true.2 fun c hc ↦ ?_
  have hnumeral := h c hc
  simp only [isNumeral, Bool.or_eq_true, decide_eq_true_eq] at hnumeral
  rcases hnumeral with ((hdigit | rfl) | rfl) | rfl
  · have hzero : ('0' : Char).toNat = 48 := rfl
    have hnine : ('9' : Char).toNat = 57 := rfl
    rw [isAsciiDigit_eq, Char.isDigit_iff_toNat] at hdigit
    simp only [isControl, Bool.not_eq_true', Bool.or_eq_false_iff, Bool.and_eq_false_iff,
      decide_eq_false_iff_not]
    omega
  · decide
  · decide
  · decide

/-- What is written for a character has no control character. -/
private theorem printable_literalChar (c : Char) : printable (literalChar c) := by
  have hall : ∀ n < 160, printable (hexQuad n) := by decide +kernel
  unfold literalChar
  repeat' split
  · decide
  · decide
  · decide
  · decide
  · decide
  · decide
  · next hcontrol =>
    have hdigits := hall _ (toNat_lt_of_isControl hcontrol)
    exact printable_cons (by decide) (printable_cons (by decide) hdigits)
  · next hcontrol => simpa [printable] using hcontrol

/-- A text literal has no control character. -/
private theorem printable_textLiteral (s : String) : printable (textLiteral s).toList := by
  have hbody : printable (s.toList.flatMap literalChar) := by
    refine List.all_eq_true.2 fun c hc ↦ ?_
    obtain ⟨d, -, hd⟩ := List.mem_flatMap.1 hc
    exact List.all_eq_true.1 (printable_literalChar d) c hd
  rw [textLiteral, String.toList_ofList, textLiteralChars]
  exact printable_append (printable_cons (by decide) hbody) (by decide)

/-- A floating-point literal has no control character. -/
private theorem printable_floatLiteral (x : Binary64) : printable (floatLiteral x).toList := by
  unfold floatLiteral
  split
  · decide
  · split
    · split <;> decide
    · next hnan hinf =>
      have hfinite : x.isFinite := by
        simp_all [Binary64.isNaN, Binary64.isInfinite, Binary64.isFinite]
      exact printable_of_isNumeral (Binary64.isNumeral_of_read? (Binary64.read?_text hfinite)).1

mutual

/-- The literal of a value has no control character. -/
private theorem printable_literal (v : Value) : printable (literal v).toList := by
  cases v with
  | nothing => decide
  | bool b => cases b <;> decide
  | int n =>
    simp only [literal, intLiteral]
    split
    · decide
    · exact printable_of_isNumeral isNumeral_of_mem_int
  | float x => exact printable_floatLiteral x
  | str s => exact printable_textLiteral s
  | array vs =>
    cases vs with
    | nil => decide
    | cons v vs =>
      have htext : (literal (.array (v :: vs))).toList = '[' :: (itemsText (v :: vs) ++ [']']) := by
        simp [literal, itemsText]
      rw [htext]
      exact printable_cons (by decide)
        (printable_append (printable_items (v :: vs)) (by decide))
  | tuple vs =>
    have htext : (literal (.tuple vs)).toList =
        '(' :: (itemsText vs ++ ((if vs.length = 1 then "," else "").toList ++ [')'])) := by
      simp [literal, itemsText]
    rw [htext]
    refine printable_cons (by decide) (printable_append (printable_items vs) ?_)
    split <;> decide
  | handle h =>
    rw [literal, toList_handleRef]
    refine printable_append (by decide) (printable_cons (by decide) ?_)
    exact printable_append (printable_of_isNumeral fun _ hc ↦ isNumeral_of_mem_toDigits hc)
      (by decide)

/-- The literals of some values have no control character. -/
private theorem printable_items (vs : List Value) : printable (itemsText vs) := by
  match vs with
  | [] => decide
  | [v] =>
    rw [itemsText_singleton]
    exact printable_literal v
  | v :: w :: vs =>
    rw [itemsText_cons]
    refine printable_append (printable_literal v) ?_
    exact printable_cons (by decide) (printable_cons (by decide) (printable_items (w :: vs)))

end

/-- A literal holds no control character, and whatever closes or goes on behind it, it is read
as its value, up to the owners and the types' names of handles. -/
theorem read?_literal (v : Value) :
    (∀ c ∈ (literal v).toList, isControl c = false) ∧
      ∀ rest, Closes rest →
        read? ((literal v).toList ++ rest) = some (v.shown fun _ ↦ "", rest) := by
  refine ⟨fun c hc ↦ ?_, fun rest hrest ↦ value?_literal v hrest ?_⟩
  · simpa using List.all_eq_true.1 (printable_literal v) c hc
  · simp only [List.length_append]
    omega

/-- A tuple of one array, with a text, a number and a handle in it, comes back from inside of
another array. -/
theorem read?_literal_nested :
    let v := Value.tuple [.array [.str "$\x01a0", .float ⟨0x3FF8000000000000⟩,
      .handle (.permanent 7 "Dict")]]
    Closes ", 1]".toList ∧ read? ((literal v).toList ++ ", 1]".toList) =
      some (.tuple [.array [.str "$\x01a0", .float ⟨0x3FF8000000000000⟩,
        .handle (.permanent 7 "")]], ", 1]".toList) := by
  intro v
  have hcloses : Closes ", 1]".toList := closes_cons (.inl rfl) _
  exact ⟨hcloses, (read?_literal v).2 ", 1]".toList hcloses⟩

end GuestBridge.Wire.LiteralReader
