import GuestBridge.Proofs.Host.LiteralText
import GuestBridge.Proofs.Host.Relabelling
import GuestBridge.Proofs.Host.Scan.Comments

/-!
# Tokens of a text with and without its margin

The tokens of a text and of what is left of it without its margin differ in their literals
alone. Both are made from the same tokens by exchanging literals: in these, each literal is a
label that tells what stands in its place on either side. The grammar reads labels like the
literals themselves, so what it makes of the one text it makes of the other.
-/

namespace GuestBridge.Host

open GuestBridge.Text StringLiteral

/-! ### The literals of a tree -/

mutual

/-- The literals in a tree. -/
def Token.literals : Token → List String
  | .literal text => [text]
  | .group _ inner => Token.literalsAll inner
  | _ => []

/-- The literals in a list of trees. -/
def Token.literalsAll : List Token → List String
  | [] => []
  | t :: ts => t.literals ++ Token.literalsAll ts

end

mutual

/-- The literals in a tree that stand outside of brackets. -/
def Token.outerLiterals : Token → List String
  | .literal text => [text]
  | .group d inner => if d = .bracket then [] else Token.outerLiteralsAll inner
  | _ => []

/-- The literals in a list of trees that stand outside of brackets. -/
def Token.outerLiteralsAll : List Token → List String
  | [] => []
  | t :: ts => t.outerLiterals ++ Token.outerLiteralsAll ts

end

/-! ### Labels -/

/-- A literal of a text: as it is written, or the one that a documentation comment stands for. -/
inductive Label where
  | written (text : String)
  | doc (text : String)

namespace Label

/-- The literal in the text itself. -/
def text : Label → String
  | written text => text
  | doc text => quoteLiteral text

/-- The literal in what is left of the text without its margin. -/
def cut (m : List Char) : Label → String
  | written text => cutText m text
  | doc text => quoteLiteral (String.ofList (Scan.cutDoc m text.toList))

/-- A label as a text. -/
def encode : Label → String
  | written text => String.ofList ('w' :: text.toList)
  | doc text => String.ofList ('d' :: text.toList)

/-- The label that a text stands for. -/
def decode (s : String) : Option Label :=
  match s.toList with
  | 'w' :: cs => some (written (String.ofList cs))
  | 'd' :: cs => some (doc (String.ofList cs))
  | _ => none

@[simp] private theorem decode_encode (label : Label) : decode label.encode = some label := by
  cases label <;> simp [encode, decode]

end Label

/-- A literal that stands for a text is no number. -/
theorem isNumber_of_value? {t : String} (h : (value? t).isSome = true) :
    Test.isNumber t = false := by
  unfold value? at h
  split at h
  next heq => simp [Test.isNumber, heq, show isAsciiDigit '"' = false by decide]
  next heq => simp [Test.isNumber, heq, show isAsciiDigit 'r' = false by decide]
  next => cases h

/-- The label that a literal is, if it is one: a string literal with the label as its text, or a
byte string of such a one. -/
def Label.ofLiteral? (l : String) : Option Label :=
  match value? l with
  | some s => Label.decode s
  | none =>
    match l.toList with
    | 'b' :: cs => (value? (String.ofList cs)).bind Label.decode
    | _ => none

/-- Literals that the grammar does not tell apart. -/
def SameKind (t t' : String) : Prop :=
  (value? t').isSome = (value? t).isSome ∧ Test.isNumber t' = Test.isNumber t

instance (t t' : String) : Decidable (SameKind t t') :=
  inferInstanceAs (Decidable (_ ∧ _))

/-- What stands in the place of a label; other literals stay. -/
def Label.exchange (f : Label → String) (l : String) : String :=
  match Label.ofLiteral? l with
  | some label => if SameKind l (f label) then f label else l
  | none => l

/-- What a string literal stands for when labels are exchanged. -/
def Label.exchangeValue (f : Label → String) (s : String) : String :=
  match Label.decode s with
  | some label => (value? (f label)).getD s
  | none => s

private theorem Label.sameKind_exchange (f : Label → String) (l : String) :
    SameKind l (Label.exchange f l) := by
  unfold Label.exchange
  split
  · split
    · assumption
    · exact ⟨rfl, rfl⟩
  · exact ⟨rfl, rfl⟩

/-- String literals are of one kind. -/
theorem sameKind_of_value? {t t' : String} (h : (value? t).isSome = true)
    (h' : (value? t').isSome = true) : SameKind t t' :=
  ⟨h'.trans h.symm, (isNumber_of_value? h').trans (isNumber_of_value? h).symm⟩

private theorem Label.value?_exchange (f : Label → String) (l : String) :
    value? (Label.exchange f l) = (value? l).map (Label.exchangeValue f) := by
  have hkind := (Label.sameKind_exchange f l).1
  cases hvalue : value? l with
  | none =>
    rw [hvalue] at hkind
    simpa using hkind
  | some s =>
    have hl : (value? l).isSome = true := by rw [hvalue]; rfl
    rw [Label.exchange, Label.ofLiteral?, hvalue, Option.map_some, Label.exchangeValue]
    dsimp only
    cases Label.decode s with
    | none => exact hvalue
    | some label =>
      cases hlabel : value? (f label) with
      | none =>
        have hother : ¬SameKind l (f label) := by simp [SameKind, hlabel, hl]
        simp [hlabel, hother, hvalue]
      | some s' =>
        have hsame := sameKind_of_value? hl (by rw [hlabel]; rfl)
        simp [hlabel, hsame]

private theorem Label.ofLiteral?_number {l : String} (h : Test.isNumber l = true) :
    Label.ofLiteral? l = none := by
  cases hvalue : value? l with
  | some s =>
    rw [isNumber_of_value? (by rw [hvalue]; rfl)] at h
    cases h
  | none =>
    rw [Label.ofLiteral?, hvalue]
    dsimp only
    split
    next heq =>
      rw [Test.isNumber, heq] at h
      cases h
    next => rfl

/-- The exchange of labels by what they tell. -/
def Relabelling.ofLabels (f : Label → String) : Relabelling where
  text := Label.exchange f
  value := Label.exchangeValue f
  value? := Label.value?_exchange f
  number l hl := by rw [Label.exchange, Label.ofLiteral?_number hl]
  negative l _ := by
    have hminus : Label.ofLiteral? ("-" ++ l) = none := by
      simp [Label.ofLiteral?, StringLiteral.value?]
    rw [Label.exchange, hminus]
  truth l hl := by rcases hl with rfl | rfl <;> rfl
  isNumber l := (Label.sameKind_exchange f l).2

namespace Label

private theorem ofLiteral?_quoteLiteral (label : Label) :
    ofLiteral? (quoteLiteral label.encode) = some label := by
  rw [ofLiteral?, value?_quoteLiteral]
  exact decode_encode label

private theorem value?_byteString (t : String) : value? ("b" ++ t) = none := by
  simp [value?]

private theorem ofLiteral?_byteString (label : Label) :
    ofLiteral? ("b" ++ quoteLiteral label.encode) = some label := by
  rw [ofLiteral?, value?_byteString]
  simp [value?_quoteLiteral]

/-- Every literal has a label, and its kind is all that matters. -/
theorem exists_exchange (label : Label) {t : String} (ht : Test.isNumber t = false) :
    ∃ l, ∀ f : Label → String, SameKind t (f label) → exchange f l = f label := by
  cases hvalue : value? t with
  | some s =>
    refine ⟨quoteLiteral label.encode, fun f hf ↦ ?_⟩
    have hsome : (value? (f label)).isSome = true := by rw [hf.1, hvalue]; rfl
    have hsame := sameKind_of_value? (t := quoteLiteral label.encode)
      (by rw [value?_quoteLiteral]; rfl) hsome
    rw [exchange, ofLiteral?_quoteLiteral]
    exact if_pos hsame
  | none =>
    refine ⟨"b" ++ quoteLiteral label.encode, fun f hf ↦ ?_⟩
    have hsame : SameKind ("b" ++ quoteLiteral label.encode) (f label) := by
      refine ⟨by rw [hf.1, hvalue, value?_byteString], ?_⟩
      rw [hf.2, ht]
      simp [Test.isNumber, show isAsciiDigit 'b' = false by decide]
    rw [exchange, ofLiteral?_byteString]
    exact if_pos hsame

end Label

/-! ### Twins -/

/-- The literals of a text as they are. -/
def Relabelling.asWritten : Relabelling :=
  .ofLabels Label.text

/-- The literals of a text when the margin of its lines is cut. -/
def Relabelling.withoutMargin (m : List Char) : Relabelling :=
  .ofLabels (Label.cut m)

open Relabelling

/-- What stands in the place of a literal loses the margin of its lines, which all have it. -/
structure Loses (m : List Char) (l : String) : Prop where
  indented : Indented m (asWritten.text l).toList
  text_eq : (withoutMargin m).text l = cutText m (asWritten.text l)

/-- What stands in the place of a literal is the text of a documentation comment, which loses the
margin of its lines. -/
def LosesDoc (m : List Char) (l : String) : Prop :=
  ∃ text, asWritten.text l = quoteLiteral text ∧
    (withoutMargin m).text l = quoteLiteral (String.ofList (Scan.cutDoc m text.toList))

/-- Trees with labels for literals. Those of documentation comments stand in brackets. -/
structure Labelled (m : List Char) (ts : List Token) : Prop where
  all : ∀ t ∈ ts, ∀ l ∈ t.literals, Loses m l ∨ LosesDoc m l
  outer : ∀ t ∈ ts, ∀ l ∈ t.outerLiterals, Loses m l

/-- The tokens of a text and of what is left of it without its margin. -/
def Twins (m : List Char) (ts ts' : List Token) : Prop :=
  ∃ ls, Labelled m ls ∧ asWritten.on ls = ts ∧ (withoutMargin m).on ls = ts'

variable {m : List Char} {ts ts' us us' : List Token}

/-- The literals of several trees are those of each in turn. -/
theorem Token.literalsAll_eq (ts : List Token) :
    Token.literalsAll ts = ts.flatMap Token.literals := by
  induction ts with
  | nil => rfl
  | cons t ts ih => rw [Token.literalsAll, ih, List.flatMap_cons]

/-- The literals of several trees outside of brackets are those of each in turn. -/
theorem Token.outerLiteralsAll_eq (ts : List Token) :
    Token.outerLiteralsAll ts = ts.flatMap Token.outerLiterals := by
  induction ts with
  | nil => rfl
  | cons t ts ih => rw [Token.outerLiteralsAll, ih, List.flatMap_cons]

namespace Labelled

private theorem nil : Labelled m [] :=
  ⟨List.forall_mem_nil _, List.forall_mem_nil _⟩

private theorem append (h : Labelled m ts) (h' : Labelled m us) : Labelled m (ts ++ us) :=
  ⟨List.forall_mem_append.2 ⟨h.all, h'.all⟩, List.forall_mem_append.2 ⟨h.outer, h'.outer⟩⟩

private theorem reverse (h : Labelled m ts) : Labelled m ts.reverse :=
  ⟨fun t ht ↦ h.all t (List.mem_reverse.1 ht), fun t ht ↦ h.outer t (List.mem_reverse.1 ht)⟩

private theorem group (d : Delimiter) (h : Labelled m ts) : Labelled m [.group d ts] := by
  refine ⟨?_, ?_⟩
  · rintro t ht l hl
    obtain rfl := List.mem_singleton.1 ht
    rw [Token.literals, Token.literalsAll_eq] at hl
    obtain ⟨t, ht, hl⟩ := List.mem_flatMap.1 hl
    exact h.all t ht l hl
  · rintro t ht l hl
    obtain rfl := List.mem_singleton.1 ht
    rw [Token.outerLiterals] at hl
    split at hl
    · cases hl
    · rw [Token.outerLiteralsAll_eq] at hl
      obtain ⟨t, ht, hl⟩ := List.mem_flatMap.1 hl
      exact h.outer t ht l hl

end Labelled

namespace Twins

/-- No tokens are the twins of none. -/
theorem nil : Twins m [] [] :=
  ⟨[], .nil, rfl, rfl⟩

/-- Twins in a row are twins. -/
theorem append (h : Twins m ts ts') (h' : Twins m us us') : Twins m (ts ++ us) (ts' ++ us') := by
  obtain ⟨ls, hls, rfl, rfl⟩ := h
  obtain ⟨ks, hks, rfl, rfl⟩ := h'
  exact ⟨ls ++ ks, hls.append hks, by simp, by simp⟩

/-- Twins read backwards are twins. -/
theorem reverse (h : Twins m ts ts') : Twins m ts.reverse ts'.reverse := by
  obtain ⟨ls, hls, rfl, rfl⟩ := h
  exact ⟨ls.reverse, hls.reverse, by simp, by simp⟩

/-- Groups of twins. -/
theorem group (d : Delimiter) (h : Twins m ts ts') : Twins m [.group d ts] [.group d ts'] := by
  obtain ⟨ls, hls, rfl, rfl⟩ := h
  exact ⟨[.group d ls], hls.group d, by simp, by simp⟩

/-- A tree without literals. -/
theorem single {t : Token} (h : t.literals = []) (houter : t.outerLiterals = [])
    (hon : ∀ φ : Relabelling, φ.on t = t) : Twins m [t] [t] :=
  ⟨[t], ⟨by simp [h], by simp [houter]⟩, by simp [hon], by simp [hon]⟩

/-- A literal that loses the margin of its lines. -/
theorem literal {text : String} (h : Indented m text.toList)
    (hkind : SameKind text (cutText m text))
    (hnumber : Test.isNumber text = true → cutText m text = text) :
    Twins m [.literal text] [.literal (cutText m text)] := by
  obtain ⟨l, htext, hcut⟩ : ∃ l, asWritten.text l = text ∧
      (withoutMargin m).text l = cutText m text := by
    by_cases hnum : Test.isNumber text = true
    · exact ⟨text, asWritten.number text hnum,
        by rw [hnumber hnum, (withoutMargin m).number text hnum]⟩
    · obtain ⟨l, hl⟩ := Label.exists_exchange (.written text) (Bool.eq_false_iff.2 hnum)
      exact ⟨l, hl Label.text ⟨rfl, rfl⟩, hl (Label.cut m) hkind⟩
  have hloses : Loses m l := ⟨by rwa [htext], by rw [htext, hcut]⟩
  refine ⟨[.literal l], ⟨?_, ?_⟩, by simp [htext], by simp [hcut]⟩
  · simp [Token.literals, hloses]
  · simp [Token.outerLiterals, hloses]

/-- The attribute that a documentation comment stands for. -/
theorem doc (text : List Char) (inner : Bool) :
    Twins m (Scan.docTokens text inner) (Scan.docTokens (Scan.cutDoc m text) inner) := by
  have hquote (text : List Char) :
      String.ofList (quoteLiteralChars text) = quoteLiteral (String.ofList text) := by
    simp [quoteLiteral]
  have hvalue (text : List Char) : (value? (quoteLiteral (String.ofList text))).isSome = true := by
    rw [value?_quoteLiteral]
    rfl
  obtain ⟨l, hl⟩ := Label.exists_exchange (.doc (String.ofList text))
    (isNumber_of_value? (hvalue text))
  have htext : asWritten.text l = quoteLiteral (String.ofList text) :=
    hl Label.text ⟨rfl, rfl⟩
  have hcut : (withoutMargin m).text l = quoteLiteral (String.ofList (Scan.cutDoc m text)) := by
    have hcut := hl (Label.cut m)
    simp only [Label.cut, String.toList_ofList] at hcut
    exact hcut (sameKind_of_value? (hvalue text) (hvalue _))
  have hloses : LosesDoc m l := ⟨String.ofList text, htext, by rw [hcut, String.toList_ofList]⟩
  have hgroup : Twins m
      [.group .bracket [.word "doc", .punct '=' false,
        .literal (String.ofList (quoteLiteralChars text))]]
      [.group .bracket [.word "doc", .punct '=' false,
        .literal (String.ofList (quoteLiteralChars (Scan.cutDoc m text)))]] := by
    refine ⟨[.group .bracket [.word "doc", .punct '=' false, .literal l]], ⟨?_, ?_⟩, ?_, ?_⟩
    · simp [Token.literals, Token.literalsAll, hloses]
    · simp [Token.outerLiterals]
    · simp [htext, hquote]
    · simp [hcut, hquote]
  have hpunct (c : Char) : Twins m [.punct c false] [.punct c false] :=
    .single rfl rfl fun _ ↦ rfl
  unfold Scan.docTokens
  cases inner with
  | true => exact hgroup.append ((hpunct '!').append (hpunct '#'))
  | false => exact hgroup.append (hpunct '#')

end Twins

end GuestBridge.Host
