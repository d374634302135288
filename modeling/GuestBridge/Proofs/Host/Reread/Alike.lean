import GuestBridge.Host.Grammar.Item
import GuestBridge.Proofs.Host.Relabelling

/-!
# Trees that look alike

A piece of host source that was read is written again a little differently: the lifetimes among
generic arguments come first, and double colons in front of parenthesised arguments are left out.
Behind the piece stands something else. A reader that looks at the trees that are left sees none of
this where it stands. `Alike` relates the trees at such places, and a test is firm where it says
the same about alike trees.
-/

namespace GuestBridge.Host

/-- What may follow a piece where it was read and where it is written again. -/
abbrev Edges : Type := List Token → List Token → Prop

/-- Nothing follows: the piece fills a group. -/
def Edges.sealed : Edges :=
  fun xs ys ↦ xs = [] ∧ ys = []

/-- The places at which a reader can stand. -/
inductive Place where
  /-- No type starts here whose first word takes parenthesised arguments behind double colons. -/
  | plain
  | typed
  /-- Behind a word of a path, which may take generic arguments. -/
  | arguments
  /-- Behind the path of a type, which may take parenthesised arguments. -/
  | call
  deriving DecidableEq, Repr

/-- A word of a path that may take generic arguments. -/
def isArgumentWord (w : String) : Bool :=
  w = "Self" || !Test.keywords.contains w

/-- A word of a path that may take parenthesised arguments. -/
def isPathWord (w : String) : Bool :=
  isArgumentWord w || ["super", "self", "crate", "try"].contains w

/-- The same punctuation character comes next, if any. -/
def SameHead (xs ys : List Token) : Prop :=
  ∀ c, Test.punctChars [c] xs = Test.punctChars [c] ys

/-- Trees look the same to a reader at a place, up to edges. -/
inductive Alike : Edges → Place → List Token → List Token → Prop where
  | edge {E : Edges} {p : Place} {xs ys : List Token} : E xs ys → Alike E p xs ys
  /-- A sign may be the beginning of an arrow, so it matters what follows it. -/
  | same {E : Edges} {p : Place} {t : Token} {xs ys : List Token}
    (head : ∀ joint, t = .punct '-' joint → SameHead xs ys) :
    Alike E .typed xs ys → Alike E p (t :: xs) (t :: ys)
  | group {E : Edges} {p : Place} {d : Delimiter} {is js xs ys : List Token} :
    Alike .sealed .typed is js → Alike E .typed xs ys →
      Alike E p (.group d is :: xs) (.group d js :: ys)
  | word {E : Edges} {p : Place} {w : String} {xs ys : List Token} :
    isArgumentWord w = true → Alike E .arguments xs ys → Alike E p (.word w :: xs) (.word w :: ys)
  | callee {E : Edges} {p : Place} {w : String} {xs ys : List Token} :
    p ≠ .plain → isPathWord w = true → Alike E .call xs ys →
      Alike E p (.word w :: xs) (.word w :: ys)
  | angles {E : Edges} {joint : Bool} {xs ys : List Token} :
    Alike E .arguments (.punct '<' joint :: xs) (.punct '<' false :: ys)
  | turbofish {E : Edges} {joint joint' : Bool} {xs ys : List Token} :
    Alike E .arguments (.punct ':' true :: .punct ':' joint :: .punct '<' joint' :: xs)
      (.punct ':' true :: .punct ':' false :: .punct '<' false :: ys)
  | parens {E : Edges} {joint : Bool} {is js xs ys : List Token} :
    Alike E .call (.punct ':' true :: .punct ':' joint :: .group .paren is :: xs)
      (.group .paren js :: ys)

variable {E E' : Edges} {p : Place} {xs ys : List Token} {s t : Test}

namespace Alike

/-- What looks alike at the plain place looks alike at every place. -/
theorem of_plain (h : Alike E .plain xs ys) (p : Place) : Alike E p xs ys := by
  cases h with
  | edge he => exact .edge he
  | same head hs => exact .same head hs
  | group hi hs => exact .group hi hs
  | word hw hs => exact .word hw hs
  | callee hp hw hs => exact absurd rfl hp

/-- What looks alike where a type may start looks alike at every place but the plain one. -/
theorem of_typed (h : Alike E .typed xs ys) {p : Place} (hp : p ≠ .plain) : Alike E p xs ys := by
  cases h with
  | edge he => exact .edge he
  | same head hs => exact .same head hs
  | group hi hs => exact .group hi hs
  | word hw hs => exact .word hw hs
  | callee _ hw hs => exact .callee hp hw hs

/-- Edges that look alike themselves can be left out. -/
theorem of_edges (h : Alike E p xs ys) (hE : ∀ xs ys, E xs ys → Alike E' .plain xs ys) :
    Alike E' p xs ys := by
  induction h with
  | edge he => exact (hE _ _ he).of_plain _
  | same head _ ih => exact .same head (ih hE)
  | group hi _ _ ih => exact .group hi (ih hE)
  | word hw _ ih => exact .word hw (ih hE)
  | callee hp hw _ ih => exact .callee hp hw (ih hE)
  | angles => exact .angles
  | turbofish => exact .turbofish
  | parens => exact .parens

/-- Generic arguments look different where they come next; everything else is typed. -/
theorem arguments_cases (h : Alike E .arguments xs ys) :
    (∃ joint xs' ys', xs = .punct '<' joint :: xs' ∧ ys = .punct '<' false :: ys') ∨
    (∃ joint joint' xs' ys',
      xs = .punct ':' true :: .punct ':' joint :: .punct '<' joint' :: xs' ∧
      ys = .punct ':' true :: .punct ':' false :: .punct '<' false :: ys') ∨
    Alike E .typed xs ys := by
  cases h with
  | edge he => exact .inr (.inr (.edge he))
  | same head hs => exact .inr (.inr (.same head hs))
  | group hi hs => exact .inr (.inr (.group hi hs))
  | word hw hs => exact .inr (.inr (.word hw hs))
  | callee _ hw hs => exact .inr (.inr (.callee (by decide) hw hs))
  | angles => exact .inl ⟨_, _, _, rfl, rfl⟩
  | turbofish => exact .inr (.inl ⟨_, _, _, _, rfl, rfl⟩)

/-- Parenthesised arguments look different where they come next. -/
theorem call_cases (h : Alike E .call xs ys) :
    (∃ joint is js xs' ys', xs = .punct ':' true :: .punct ':' joint :: .group .paren is :: xs' ∧
      ys = .group .paren js :: ys') ∨ Alike E .typed xs ys := by
  cases h with
  | edge he => exact .inr (.edge he)
  | same head hs => exact .inr (.same head hs)
  | group hi hs => exact .inr (.group hi hs)
  | word hw hs => exact .inr (.word hw hs)
  | callee _ hw hs => exact .inr (.callee (by decide) hw hs)
  | parens => exact .inl ⟨_, _, _, _, _, rfl, rfl⟩

end Alike

/-- Nothing is written differently here: no arguments come next. -/
class Place.Hard (p : Place) : Prop where
  eq : p = .plain ∨ p = .typed

instance : Place.Hard .plain := ⟨.inl rfl⟩
instance : Place.Hard .typed := ⟨.inr rfl⟩

/-- What looks alike at a hard place looks alike where a type may start. -/
theorem Alike.typed [p.Hard] (h : Alike E p xs ys) : Alike E .typed xs ys := by
  obtain rfl | rfl := Place.Hard.eq (p := p)
  · exact h.of_plain _
  · exact h

/-! ### Ends of types -/

/-- What can come behind a type or its parts: nothing, a separator, a closing bracket, or what
follows the result type of a function. -/
inductive Closer : List Token → Prop where
  | nil : Closer []
  | comma {joint : Bool} {ts : List Token} : Closer (.punct ',' joint :: ts)
  | angle {joint : Bool} {ts : List Token} : Closer (.punct '>' joint :: ts)
  | brace {is ts : List Token} : Closer (.group .brace is :: ts)
  | where_ {ts : List Token} : Closer (.word "where" :: ts)

/-- Edges at which types end. No conditions follow where they are written again. -/
class Edges.Closing (E : Edges) : Prop where
  left {xs ys : List Token} : E xs ys → Closer xs
  right {xs ys : List Token} : E xs ys → Closer ys
  where_ {xs ys : List Token} : E xs ys → Test.word "where" ys = false

/-- Edges with the same ends on both sides. -/
class Edges.Even (E : Edges) : Prop extends E.Closing where
  even {xs ys : List Token} : E xs ys → xs = [] ∧ ys = [] ∨
    ∃ c joint joint' xs' ys', xs = .punct c joint :: xs' ∧ ys = .punct c joint' :: ys'

instance : Edges.sealed.Even where
  left h := h.1 ▸ .nil
  right h := h.2 ▸ .nil
  where_ h := h.2 ▸ rfl
  even h := .inl h

/-- A test says the same at edges. -/
class Test.EdgeFirm (E : Edges) (t : Test) : Prop where
  eq {xs ys : List Token} : E xs ys → t xs = t ys

/-- A test fails at edges. -/
class Test.Absent (E : Edges) (t : Test) : Prop where
  left {xs ys : List Token} : E xs ys → t xs = false
  right {xs ys : List Token} : E xs ys → t ys = false

/-- A test fails where types end. -/
class Test.Quiet (t : Test) : Prop where
  eq {ts : List Token} : Closer ts → t ts = false

/-- A test looks at the next tree alone, and not into a group. -/
class Test.Local (t : Test) : Prop where
  cons (a : Token) (xs ys : List Token) : t (a :: xs) = t (a :: ys)
  group (d : Delimiter) (is js xs ys : List Token) :
    t (.group d is :: xs) = t (.group d js :: ys)
  punct (c : Char) (joint joint' : Bool) (xs ys : List Token) :
    t (.punct c joint :: xs) = t (.punct c joint' :: ys)

/-- A test does not tell double colons and a parenthesis apart. -/
class Test.Uncalled (t : Test) : Prop where
  eq (joint joint' : Bool) (is js xs ys : List Token) :
    t (.punct ':' joint :: .punct ':' joint' :: .group .paren is :: xs) =
      t (.group .paren js :: ys)

/-- A test says the same about alike trees. -/
class Test.Firm (E : Edges) (p : Place) (t : Test) : Prop where
  eq {xs ys : List Token} : Alike E p xs ys → t xs = t ys

namespace Test

instance : EdgeFirm .sealed t :=
  ⟨fun h ↦ by rw [h.1, h.2]⟩

instance [E.Closing] [t.Quiet] : Absent E t :=
  ⟨fun h ↦ Quiet.eq (Edges.Closing.left h), fun h ↦ Quiet.eq (Edges.Closing.right h)⟩

instance [t.Absent E] : EdgeFirm E t :=
  ⟨fun h ↦ (Absent.left (t := t) h).trans (Absent.right h).symm⟩

instance (priority := low) [E.Even] [t.Local] : EdgeFirm E t := by
  refine ⟨fun h ↦ ?_⟩
  obtain ⟨rfl, rfl⟩ | ⟨c, joint, joint', xs, ys, rfl, rfl⟩ := Edges.Even.even h
  · rfl
  · exact Local.punct c joint joint' xs ys

/-! ### Tests of one tree -/

instance : Local (fun _ ↦ true) := ⟨fun _ _ _ ↦ rfl, fun _ _ _ _ _ ↦ rfl, fun _ _ _ _ _ ↦ rfl⟩
instance : Local atEnd := ⟨fun _ _ _ ↦ rfl, fun _ _ _ _ _ ↦ rfl, fun _ _ _ _ _ ↦ rfl⟩
instance (w : String) : Local (word w) :=
  ⟨fun a _ _ ↦ by cases a <;> rfl, fun _ _ _ _ _ ↦ rfl, fun _ _ _ _ _ ↦ rfl⟩
instance (ws : List String) : Local (oneOf ws) :=
  ⟨fun a _ _ ↦ by cases a <;> rfl, fun _ _ _ _ _ ↦ rfl, fun _ _ _ _ _ ↦ rfl⟩
instance : Local anyWord :=
  ⟨fun a _ _ ↦ by cases a <;> rfl, fun _ _ _ _ _ ↦ rfl, fun _ _ _ _ _ ↦ rfl⟩
instance : Local ident :=
  ⟨fun a _ _ ↦ by cases a <;> rfl, fun _ _ _ _ _ ↦ rfl, fun _ _ _ _ _ ↦ rfl⟩
instance : Local lifetime :=
  ⟨fun a _ _ ↦ by cases a <;> rfl, fun _ _ _ _ _ ↦ rfl, fun _ _ _ _ _ ↦ rfl⟩
instance : Local string :=
  ⟨fun a _ _ ↦ by cases a <;> rfl, fun _ _ _ _ _ ↦ rfl, fun _ _ _ _ _ ↦ rfl⟩
instance (d : Delimiter) : Local (group d) :=
  ⟨fun a _ _ ↦ by cases a <;> rfl, fun _ _ _ _ _ ↦ rfl, fun _ _ _ _ _ ↦ rfl⟩
instance : Local paren := inferInstanceAs (Local (group .paren))
instance : Local bracket := inferInstanceAs (Local (group .bracket))
instance : Local brace := inferInstanceAs (Local (group .brace))

instance [s.Local] [t.Local] : Local (or s t) where
  cons a xs ys := by simp only [or, Local.cons a xs ys]
  group d is js xs ys := by simp only [or, Local.group d is js xs ys]
  punct c joint joint' xs ys := by simp only [or, Local.punct c joint joint' xs ys]

instance : Local (any []) := ⟨fun _ _ _ ↦ rfl, fun _ _ _ _ _ ↦ rfl, fun _ _ _ _ _ ↦ rfl⟩

/-- One more alternative is an alternative to the others. -/
theorem any_cons (t : Test) (tests : List Test) : any (t :: tests) = or t (any tests) := rfl

instance {tests : List Test} [t.Local] [Local (any tests)] : Local (any (t :: tests)) :=
  inferInstanceAs (Local (or t (any tests)))

instance : Uncalled atEnd := ⟨fun _ _ _ _ _ _ ↦ rfl⟩
instance (w : String) : Uncalled (word w) := ⟨fun _ _ _ _ _ _ ↦ rfl⟩
instance (ws : List String) : Uncalled (oneOf ws) := ⟨fun _ _ _ _ _ _ ↦ rfl⟩
instance : Uncalled anyWord := ⟨fun _ _ _ _ _ _ ↦ rfl⟩
instance : Uncalled ident := ⟨fun _ _ _ _ _ _ ↦ rfl⟩
instance : Uncalled lifetime := ⟨fun _ _ _ _ _ _ ↦ rfl⟩
instance : Uncalled string := ⟨fun _ _ _ _ _ _ ↦ rfl⟩
instance : Uncalled brace := ⟨fun _ _ _ _ _ _ ↦ rfl⟩
instance : Uncalled bracket := ⟨fun _ _ _ _ _ _ ↦ rfl⟩

/-- Types end at no word but `where`. -/
theorem quiet_word {w : String} (hw : w ≠ "where") : Quiet (word w) :=
  ⟨fun h ↦ by cases h <;> simp [word, Ne.symm hw]⟩

/-- Types end at none of several words without `where`. -/
theorem quiet_oneOf {ws : List String} (hws : ws.contains "where" = false) : Quiet (oneOf ws) :=
  ⟨fun h ↦ by cases h <;> first | rfl | exact hws⟩

instance : Quiet ident := ⟨fun h ↦ by cases h <;> rfl⟩
instance : Quiet lifetime := ⟨fun h ↦ by cases h <;> rfl⟩
instance : Quiet string := ⟨fun h ↦ by cases h <;> rfl⟩
instance : Quiet paren := ⟨fun h ↦ by cases h <;> rfl⟩
instance : Quiet bracket := ⟨fun h ↦ by cases h <;> rfl⟩
instance : Quiet literal := ⟨fun h ↦ by cases h <;> rfl⟩

instance [s.Quiet] [t.Quiet] : Quiet (or s t) :=
  ⟨fun h ↦ by simp only [or, Quiet.eq (t := s) h, Quiet.eq (t := t) h, Bool.or_false]⟩

instance : Quiet (any []) := ⟨fun _ ↦ rfl⟩

instance {tests : List Test} [t.Quiet] [Quiet (any tests)] : Quiet (any (t :: tests)) :=
  inferInstanceAs (Quiet (or t (any tests)))

/-! ### Firm tests -/

instance [p.Hard] [t.Local] [EdgeFirm E t] : Firm E p t where
  eq h := by
    cases h.typed with
    | edge he => exact EdgeFirm.eq he
    | same _ _ => exact Local.cons _ _ _
    | group _ _ => exact Local.group _ _ _ _ _
    | word _ _ => exact Local.cons _ _ _
    | callee _ _ _ => exact Local.cons _ _ _

instance [t.Local] [Firm E .typed t] : Firm E .arguments t where
  eq h := by
    obtain ⟨_, _, _, rfl, rfl⟩ | ⟨_, _, _, _, rfl, rfl⟩ | h := h.arguments_cases
    · exact Local.punct _ _ _ _ _
    · exact Local.punct _ _ _ _ _
    · exact Firm.eq h

instance [t.Uncalled] [Firm E .typed t] : Firm E .call t where
  eq h := by
    obtain ⟨_, _, _, _, _, rfl, rfl⟩ | h := h.call_cases
    · exact Uncalled.eq _ _ _ _ _ _
    · exact Firm.eq h

instance [Firm E p s] [Firm E p t] : Firm E p (or s t) :=
  ⟨fun h ↦ by simp only [or, Firm.eq (t := s) h, Firm.eq (t := t) h]⟩

instance [Firm E p s] [Firm E p t] : Firm E p (and s t) :=
  ⟨fun h ↦ by simp only [and, Firm.eq (t := s) h, Firm.eq (t := t) h]⟩

instance [Firm E p s] [Firm E p t] : Firm E p (butNot s t) :=
  ⟨fun h ↦ by simp only [butNot, Firm.eq (t := s) h, Firm.eq (t := t) h]⟩

instance : Firm E p (any []) := ⟨fun _ ↦ rfl⟩

instance {tests : List Test} [Firm E p t] [Firm E p (any tests)] : Firm E p (any (t :: tests)) :=
  inferInstanceAs (Firm E p (or t (any tests)))

instance [Firm E p t] : Firm E p (fun ts ↦ !t ts) :=
  ⟨fun h ↦ by simp only [Firm.eq (t := t) h]⟩

instance (b : Bool) [Firm E p t] : Firm E p (fun ts ↦ b && t ts) :=
  ⟨fun h ↦ by simp only [Firm.eq (t := t) h]⟩

/-! ### Punctuation -/

/-- The next tree does not decide how several characters go on. -/
theorem firm_punctChars [p.Hard] (cs : List Char)
    (hE : ∀ cs', cs' <:+ cs → ∀ xs ys, E xs ys → punctChars cs' xs = punctChars cs' ys)
    (h : Alike E p xs ys) : punctChars cs xs = punctChars cs ys := by
  induction cs generalizing p xs ys with
  | nil => rfl
  | cons c cs ih =>
    cases h.typed with
    | edge he => exact hE _ List.suffix_rfl _ _ he
    | @same _ _ t xs ys _ hs =>
      cases t with
      | punct d joint =>
        have hrest := ih (fun cs' hcs' ↦ hE cs' (hcs'.trans (List.suffix_cons c cs))) hs
        cases cs with
        | nil => rfl
        | cons c' cs => simp only [punctChars, hrest]
      | _ => cases cs <;> rfl
    | group _ _ => cases cs <;> rfl
    | word _ _ => cases cs <;> rfl
    | callee _ _ _ => cases cs <;> rfl

instance (s : String) [p.Hard] : Firm .sealed p (punct s) :=
  ⟨firm_punctChars _ fun _ _ _ _ h ↦ by rw [h.1, h.2]⟩

/-- A text without the punctuation at which types end. -/
class Clear (s : String) : Prop where
  ne : ∀ c ∈ s.toList, c ≠ ',' ∧ c ≠ '>'

/-- A text of one character. -/
class Single (s : String) : Prop where
  eq : ∃ c, s.toList = [c]

private theorem quiet_punctChars {c : Char} {cs : List Char} (hc : c ≠ ',' ∧ c ≠ '>') :
    Quiet (punctChars (c :: cs)) :=
  ⟨fun h ↦ by cases h <;> cases cs <;> simp [punctChars, hc.1, hc.2]⟩

instance (s : String) [Clear s] [E.Closing] [p.Hard] : Firm E p (punct s) := by
  refine ⟨firm_punctChars _ fun cs hcs xs ys h ↦ ?_⟩
  cases cs with
  | nil => rfl
  | cons c cs =>
    have hquiet : Quiet (punctChars (c :: cs)) :=
      quiet_punctChars (Clear.ne c (hcs.mem List.mem_cons_self))
    exact EdgeFirm.eq (t := punctChars (c :: cs)) h

instance (s : String) [Single s] : Local (punct s) := by
  obtain ⟨c, hs⟩ := Single.eq (s := s)
  have heq : punct s = punctChars [c] := by rw [punct, hs]
  rw [heq]
  exact ⟨fun a _ _ ↦ by cases a <;> rfl, fun _ _ _ _ _ ↦ rfl, fun _ _ _ _ _ ↦ rfl⟩

/-- A sign shows what follows it. -/
instance [E.Closing] [p.Hard] : Firm E p (punct "->") where
  eq h := by
    have hchars : "->".toList = ['-', '>'] := by simp
    have hquiet : Quiet (punctChars ['-', '>']) := quiet_punctChars (by decide)
    rw [punct, hchars]
    cases h.typed with
    | edge he => exact EdgeFirm.eq (t := punctChars ['-', '>']) he
    | @same _ _ t xs ys head _ =>
      cases t with
      | punct d joint =>
        by_cases hd : '-' = d
        · subst hd
          simp only [punctChars, head joint rfl '>']
        · simp [punctChars, hd]
      | _ => rfl
    | group _ _ => rfl
    | word _ _ => rfl
    | callee _ _ _ => rfl

/-- A text that generic arguments do not start with. -/
class Aside (s : String) : Prop where
  ne : ∃ c cs, s.toList = c :: cs ∧ c ≠ '<' ∧ c ≠ ':'

private theorem punctChars_cons_ne {c d : Char} (hc : c ≠ d) (cs : List Char) (joint : Bool)
    (ts : List Token) : punctChars (c :: cs) (.punct d joint :: ts) = false := by
  cases cs <;> simp [punctChars, hc]

private theorem punctChars_cons_group (c : Char) (cs : List Char) (d : Delimiter)
    (is ts : List Token) :
    punctChars (c :: cs) (.group d is :: ts) = false := by
  cases cs <;> rfl

instance (s : String) [Aside s] [Firm E .typed (punct s)] : Firm E .arguments (punct s) where
  eq h := by
    obtain ⟨c, cs, hs, hangle, hcolon⟩ := Aside.ne (s := s)
    obtain ⟨_, _, _, rfl, rfl⟩ | ⟨_, _, _, _, rfl, rfl⟩ | h := h.arguments_cases
    · simp only [punct, hs, punctChars_cons_ne hangle]
    · simp only [punct, hs, punctChars_cons_ne hcolon]
    · exact Firm.eq h

/-- A text that double colons do not start with. -/
class Apart (s : String) : Prop where
  ne : ∃ c cs, s.toList = c :: cs ∧ c ≠ ':'

instance (s : String) [Aside s] : Apart s := by
  obtain ⟨c, cs, hs, -, hcolon⟩ := Aside.ne (s := s)
  exact ⟨c, cs, hs, hcolon⟩

instance (s : String) [Apart s] [Firm E .typed (punct s)] : Firm E .call (punct s) where
  eq h := by
    obtain ⟨c, cs, hs, hcolon⟩ := Apart.ne (s := s)
    obtain ⟨_, _, _, _, _, rfl, rfl⟩ | h := h.call_cases
    · simp only [punct, hs, punctChars_cons_ne hcolon, punctChars_cons_group]
    · exact Firm.eq h

instance [Firm E .typed (punct "::")] : Firm E .arguments (punct "::") where
  eq h := by
    obtain ⟨_, _, _, rfl, rfl⟩ | ⟨_, _, _, _, rfl, rfl⟩ | h := h.arguments_cases
    · simp [punct, punctChars]
    · simp [punct, punctChars]
    · exact Firm.eq h

/-- A colon that is not doubled. -/
instance [Firm E .typed (punct ":")] [Firm E .typed (punct "::")] :
    Firm E .call (butNot (punct ":") (punct "::")) where
  eq h := by
    obtain ⟨_, _, _, _, _, rfl, rfl⟩ | h := h.call_cases
    · simp [butNot, punct, punctChars]
    · simp only [butNot, Firm.eq (t := punct ":") h, Firm.eq (t := punct "::") h]

/-! ### Trees further ahead -/

private theorem eq_of_typed [Firm E .arguments t] (h : Alike E .typed xs ys) : t xs = t ys :=
  Firm.eq (h.of_typed (p := .arguments) (by decide))

instance [Firm .sealed .arguments t] : Firm .sealed .plain (second t) where
  eq h := by
    cases h with
    | edge he => rw [he.1, he.2]
    | same _ hs => exact eq_of_typed (t := t) hs
    | group _ hs => exact eq_of_typed (t := t) hs
    | word _ hs => exact Firm.eq (t := t) hs
    | callee hp _ _ => exact absurd rfl hp

instance [Firm .sealed .arguments t] [Firm .sealed .call t] : Firm .sealed .typed (second t) where
  eq h := by
    cases h with
    | edge he => rw [he.1, he.2]
    | same _ hs => exact eq_of_typed (t := t) hs
    | group _ hs => exact eq_of_typed (t := t) hs
    | word _ hs => exact Firm.eq (t := t) hs
    | callee _ _ hs => exact Firm.eq (t := t) hs

/-- A test passes no word of a path. -/
class Unworded (t : Test) : Prop where
  eq {w : String} (hw : isPathWord w = true) (ts : List Token) : t (.word w :: ts) = false

instance : Unworded lifetime := ⟨fun _ _ ↦ rfl⟩
instance (d : Delimiter) : Unworded (group d) := ⟨fun _ _ ↦ rfl⟩
instance : Unworded brace := ⟨fun _ _ ↦ rfl⟩

/-- Behind what is no word of a path, everything looks the same. -/
theorem second_eq [s.Unworded] [p.Hard] [Firm E .typed t] (h : Alike E p xs ys)
    (hs : s xs = true) (hE : E xs ys → second t xs = second t ys) : second t xs = second t ys := by
  cases h.typed with
  | edge he => exact hE he
  | same _ hrest => exact Firm.eq (t := t) hrest
  | group _ hrest => exact Firm.eq (t := t) hrest
  | word hw _ =>
    rw [Unworded.eq (t := s) (by simp [isPathWord, hw])] at hs
    cases hs
  | callee _ hw _ =>
    rw [Unworded.eq (t := s) hw] at hs
    cases hs

/-- What a test says behind another one that holds. -/
class Follows (E : Edges) (p : Place) (s t : Test) : Prop where
  eq {xs ys : List Token} : Alike E p xs ys → s xs = true → second t xs = second t ys

instance [s.Unworded] [p.Hard] [Firm .sealed .typed t] : Follows .sealed p s t :=
  ⟨fun h hs ↦ second_eq h hs fun he ↦ by rw [he.1, he.2]⟩

instance [s.Absent E] [s.Unworded] [p.Hard] [Firm E .typed t] : Follows E p s t where
  eq h hs := second_eq h hs fun he ↦ by
    rw [Absent.left (t := s) he] at hs
    cases hs

instance [Firm E p s] [Follows E p s t] : Firm E p (and s (second t)) where
  eq {xs ys} h := by
    have hs := Firm.eq (t := s) h
    simp only [and, ← hs]
    cases hxs : s xs with
    | false => rfl
    | true => rw [Follows.eq (t := t) h hxs]

instance [Firm E p s] [Follows E p s t] : Firm E p (butNot s (second t)) where
  eq {xs ys} h := by
    have hs := Firm.eq (t := s) h
    simp only [butNot, ← hs]
    cases hxs : s xs with
    | false => rfl
    | true => rw [Follows.eq (t := t) h hxs]

/-- Double colons are the same on both sides. -/
theorem colons_cases [E.Closing] [p.Hard] (h : Alike E p xs ys) (hxs : punct "::" xs = true) :
    ∃ joint xs' ys', xs = .punct ':' true :: .punct ':' joint :: xs' ∧
      ys = .punct ':' true :: .punct ':' joint :: ys' ∧ Alike E .typed xs' ys' := by
  have hchars : "::".toList = [':', ':'] := by simp
  have hquiet (c : Char) (cs : List Char) (hc : c = ':') {ts : List Token} (hts : Closer ts) :
      punctChars (c :: cs) ts = false :=
    (quiet_punctChars (by rw [hc]; decide)).eq hts
  rw [punct, hchars] at hxs
  cases h.typed with
  | edge he =>
    rw [hquiet ':' [':'] rfl (Edges.Closing.left he)] at hxs
    cases hxs
  | @same _ _ t xs ys _ hrest =>
    cases t with
    | punct c joint =>
      simp only [punctChars, Bool.and_eq_true, decide_eq_true_eq] at hxs
      obtain ⟨⟨rfl, rfl⟩, hxs⟩ := hxs
      cases hrest with
      | edge he =>
        rw [hquiet ':' [] rfl (Edges.Closing.left he)] at hxs
        cases hxs
      | @same _ _ t xs ys _ hrest =>
        cases t with
        | punct c joint =>
          obtain rfl : ':' = c := by simpa [punctChars] using hxs
          exact ⟨joint, xs, ys, rfl, rfl, hrest⟩
        | _ => cases hxs
      | group _ _ => cases hxs
      | word _ _ => cases hxs
      | callee _ _ _ => cases hxs
    | _ => cases hxs
  | group _ _ => cases hxs
  | word _ _ => cases hxs
  | callee _ _ _ => cases hxs

private theorem third_colons_eq [E.Closing] [p.Hard] [Firm E .typed t] (h : Alike E p xs ys)
    (hxs : punct "::" xs = true) : third t xs = third t ys := by
  obtain ⟨joint, xs, ys, rfl, rfl, hrest⟩ := colons_cases h hxs
  exact Firm.eq (t := t) hrest

instance [E.Closing] [p.Hard] [Firm E p (punct "::")] [Firm E .typed t] :
    Firm E p (and (punct "::") (third t)) where
  eq {xs ys} h := by
    have hs := Firm.eq (t := punct "::") h
    simp only [and, ← hs]
    cases hxs : punct "::" xs with
    | false => rfl
    | true => rw [third_colons_eq (t := t) h hxs]

instance [E.Closing] [p.Hard] [Firm E p (punct "::")] [Firm E .typed t] :
    Firm E p (butNot (punct "::") (third t)) where
  eq {xs ys} h := by
    have hs := Firm.eq (t := punct "::") h
    simp only [butNot, ← hs]
    cases hxs : punct "::" xs with
    | false => rfl
    | true => rw [third_colons_eq (t := t) h hxs]

instance [Firm E .typed (and (punct "::") (third (punct "<")))] :
    Firm E .call (and (punct "::") (third (punct "<"))) where
  eq h := by
    obtain ⟨_, _, _, _, _, rfl, rfl⟩ | h := h.call_cases
    · simp [and, third, punct, punctChars]
    · exact Firm.eq h

instance [Firm E .typed (butNot (punct "::") (third paren))] :
    Firm E .call (butNot (punct "::") (third paren)) where
  eq h := by
    obtain ⟨_, _, _, _, _, rfl, rfl⟩ | h := h.call_cases
    · simp [butNot, third, paren, group, punct, punctChars]
    · exact Firm.eq h

/-- The third tree is the second behind the first. -/
theorem third_eq (t : Test) : third t = second (second t) := by
  funext ts
  cases ts <;> rfl

/-- Alternatives about the second tree are one test of it. -/
theorem or_second (s t : Test) : or (second s) (second t) = second (or s t) := rfl

/-- Conditions on the second tree are one test of it. -/
theorem and_second (s t : Test) : and (second s) (second t) = second (and s t) := rfl

/-- An exception about the second tree is part of one test of it. -/
theorem butNot_second (s t : Test) : butNot (second s) (second t) = second (butNot s t) := rfl

/-- A test for punctuation passes no word of a path. -/
theorem unworded_punct {s : String} (hs : s.toList ≠ []) : Unworded (punct s) := by
  obtain ⟨c, cs, hcs⟩ := List.exists_cons_of_ne_nil hs
  refine ⟨fun _ ts ↦ ?_⟩
  rw [punct, hcs]
  cases cs <;> rfl

/-- A test for a word that no path contains passes no word of a path. -/
theorem unworded_word {w : String} (hw : isPathWord w = false) : Unworded (word w) :=
  ⟨fun {w'} hw' ts ↦ by
    have hne : w' ≠ w := by
      rintro rfl
      rw [hw] at hw'
      cases hw'
    simp [word, hne]⟩

/-- Behind a sign, a literal is the same on both sides. -/
instance [E.Even] [p.Hard] : Firm E p literal where
  eq h := by
    cases h.typed with
    | edge he =>
      exact (Quiet.eq (t := literal) (Edges.Closing.left he)).trans
        (Quiet.eq (Edges.Closing.right he)).symm
    | @same _ _ t xs ys _ hrest =>
      cases t with
      | punct c joint =>
        by_cases hc : c = '-'
        · subst hc
          cases hrest with
          | edge he =>
            obtain ⟨rfl, rfl⟩ | ⟨c, joint, joint', xs, ys, rfl, rfl⟩ := Edges.Even.even he <;> rfl
          | @same _ _ t _ _ _ _ => cases t <;> rfl
          | group _ _ => rfl
          | word _ _ => rfl
          | callee _ _ _ => rfl
        · simp [literal, hc]
      | _ => rfl
    | group _ _ => rfl
    | word _ _ => rfl
    | callee _ _ _ => rfl

/-! ### Signs -/

/-- Behind a sign that passes a test, the same punctuation comes next. -/
class Sighted (E : Edges) (t : Test) : Prop where
  head {joint : Bool} {ts xs ys : List Token} : t (.punct '-' joint :: ts) = true →
    Alike E .typed xs ys → SameHead xs ys

/-- A sign does not pass a test. -/
class Signless (t : Test) : Prop where
  eq (joint : Bool) (ts : List Token) : t (.punct '-' joint :: ts) = false

private theorem sameHead [E.Even] (h : Alike E .typed xs ys) : SameHead xs ys := by
  intro c
  have hlocal : Local (punctChars [c]) :=
    ⟨fun a _ _ ↦ by cases a <;> rfl, fun _ _ _ _ _ ↦ rfl, fun _ _ _ _ _ ↦ rfl⟩
  exact Firm.eq (t := punctChars [c]) h

instance [E.Even] : Sighted E t := ⟨fun _ h ↦ sameHead h⟩

instance [t.Signless] : Sighted E t :=
  ⟨fun ht _ ↦ by rw [Signless.eq (t := t)] at ht; cases ht⟩

instance (w : String) : Signless (word w) := ⟨fun _ _ ↦ rfl⟩
instance (ws : List String) : Signless (oneOf ws) := ⟨fun _ _ ↦ rfl⟩
instance : Signless anyWord := ⟨fun _ _ ↦ rfl⟩
instance : Signless ident := ⟨fun _ _ ↦ rfl⟩
instance : Signless lifetime := ⟨fun _ _ ↦ rfl⟩
instance : Signless string := ⟨fun _ _ ↦ rfl⟩
instance (d : Delimiter) : Signless (group d) := ⟨fun _ _ ↦ rfl⟩
instance : Signless paren := ⟨fun _ _ ↦ rfl⟩
instance : Signless bracket := ⟨fun _ _ ↦ rfl⟩
instance : Signless brace := ⟨fun _ _ ↦ rfl⟩

instance [s.Signless] [t.Signless] : Signless (or s t) :=
  ⟨fun _ _ ↦ by simp only [or, Signless.eq, Bool.or_false]⟩

instance : Signless (any []) := ⟨fun _ _ ↦ rfl⟩

instance {tests : List Test} [t.Signless] [Signless (any tests)] : Signless (any (t :: tests)) :=
  inferInstanceAs (Signless (or t (any tests)))

/-- Behind a text that ends with a sign, the same punctuation comes next. -/
class Landed (E : Edges) (s : String) : Prop where
  head {xs ys : List Token} : s.toList.getLast? = some '-' → Alike E .typed xs ys → SameHead xs ys

/-- A text does not end with a sign. -/
class Closed (s : String) : Prop where
  ne : s.toList.getLast? ≠ some '-'

instance (s : String) [E.Even] : Landed E s := ⟨fun _ h ↦ sameHead h⟩
instance (s : String) [Closed s] : Landed E s := ⟨fun hs _ ↦ absurd hs Closed.ne⟩

end Test

end GuestBridge.Host
