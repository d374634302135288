import GuestBridge.Proofs.Host.Reread.Calls

/-!
# Signatures that are written from what was read

What a function was read from says enough of its name, its parameters and its types for a
signature that is written with them to be read as the same.
-/

namespace GuestBridge.Host

/-! ### Names of patterns -/

/-- A pattern that is a name has a word that is an identifier or stands for a receiver. -/
def PatternShape.Proper : PatternShape → Prop
  | .name w _ => Test.keywords.contains w = false ∨ w = "self"
  | _ => True

namespace Reader

variable {α : Type} {r s : Reader PatternShape} {c c' : Cursor}

/-- The names among the answers of a reader are proper. -/
class Proper (r : Reader PatternShape) : Prop where
  of_run {c c' : Cursor} {shape : PatternShape} : r c = some (shape, c') → shape.Proper

instance : Proper (pure .wildcard) := ⟨fun h ↦ by cases h; trivial⟩
instance : Proper (pure .tuple) := ⟨fun h ↦ by cases h; trivial⟩
instance (type : String) : Proper (pure (.record type)) := ⟨fun h ↦ by cases h; trivial⟩
instance (type : String) : Proper (pure (.tupleRecord type)) := ⟨fun h ↦ by cases h; trivial⟩
instance : Proper (pure .reference) := ⟨fun h ↦ by cases h; trivial⟩
instance : Proper (pure .openRange) := ⟨fun h ↦ by cases h; trivial⟩
instance : Proper (pure .rest) := ⟨fun h ↦ by cases h; trivial⟩
instance : Proper (pure .other) := ⟨fun h ↦ by cases h; trivial⟩

instance (p : Prop) [Decidable p] {shape shape' : PatternShape} [hs : Proper (pure shape)]
    [hs' : Proper (pure shape')] : Proper (pure (if p then shape else shape')) := by
  split <;> assumption

instance : Proper failure := ⟨fun h ↦ by cases h⟩

instance {r : Reader α} {k : α → Reader PatternShape} [∀ a, Proper (k a)] : Proper (r >>= k) where
  of_run h := by
    obtain ⟨_, _, -, hk⟩ := of_bind h
    exact Proper.of_run hk

instance (p : Prop) [Decidable p] [hr : Proper r] [hs : Proper s] :
    Proper (if p then r else s) := by
  split <;> assumption

instance (priority := high) {question : Reader Bool} [hr : Proper r] [hs : Proper s] :
    Proper (do if ← question then r else s) where
  of_run h := by
    obtain ⟨answer, _, -, h⟩ := of_bind h
    cases answer with
    | true => exact Proper.of_run (r := r) h
    | false => exact Proper.of_run (r := s) h

instance (d : Delimiter) [Proper r] : Proper (group d r) where
  of_run h := by
    obtain ⟨_, _, -, -, hr⟩ := group_eq_some h
    exact Proper.of_run hr

private theorem ident_eq_some {name : String} (h : ident c = some (name, c')) :
    Test.keywords.contains name = false := by
  obtain ⟨_, c₁, hrequire, hword⟩ := of_bind h
  obtain ⟨hident, hc⟩ := Option.ite_none_right_eq_some.1 hrequire
  cases hc
  obtain ⟨_ | ⟨w | _ | _ | _ | _, rest⟩, ts, es⟩ := c
  case cons.word =>
    cases hword
    simpa [Test.ident] using hident
  all_goals cases hident

end Reader

namespace Grammar

open Reader

variable {g : Grammar} {c c' : Cursor}

/-- The pattern behind a name does not matter. -/
theorem proper_namePattern_go {name : String} (h : PatternShape.Proper (.name name false)) :
    Proper (do
      if ← punct? "@" then
        let _ ← g.pattern
        return .name name true
      return .name name false) := by
  have hpure (refined : Bool) : Proper (pure (.name name refined)) :=
    ⟨fun hrun ↦ by cases hrun; exact h⟩
  infer_instance

instance : Proper g.namePattern where
  of_run h := by
    obtain ⟨_, c₁, -, h⟩ := of_bind h
    obtain ⟨_, c₂, -, h⟩ := of_bind h
    obtain ⟨receiver, c₃, hreceiver, h⟩ := of_bind h
    cases hreceiver
    dsimp only at h
    rw [ite_reader] at h
    split at h
    next hword =>
      obtain ⟨name, c₄, hname, h⟩ := of_bind h
      obtain ⟨_ | ⟨w | _ | _ | _ | _, rest⟩, ts, es⟩ := c₂
      case cons.word =>
        cases hname
        exact (proper_namePattern_go (.inr (of_decide_eq_true hword))).of_run h
      all_goals cases hword
    next =>
      obtain ⟨name, c₄, hname, h⟩ := of_bind h
      exact (proper_namePattern_go (.inl (ident_eq_some hname))).of_run h

instance : Proper g.patternRange := by
  unfold patternRange
  infer_instance

instance : Proper g.pathPattern := by
  unfold pathPattern
  infer_instance

instance : Proper g.constantPattern := by
  unfold constantPattern
  infer_instance

instance : Proper g.parenPattern := by
  unfold parenPattern
  infer_instance

instance : Proper g.slicePattern := by
  unfold slicePattern
  infer_instance

instance : Proper g.restPattern := by
  unfold restPattern
  infer_instance

instance : Proper g.patternRule := by
  unfold patternRule
  dsimp only
  infer_instance

instance (d : Nat) : Proper (ofDepth d).pattern := by
  cases d with
  | zero => exact inferInstanceAs (Proper failure)
  | succ d => exact inferInstanceAs (Proper (patternRule _))

/-! ### Parameters -/

variable {d d' : Nat} {T : List Token}

/-- The trees of a type that a grammar has read in front of something types end at. -/
def HasRead (g : Grammar) (T : List Token) : Prop :=
  ∃ c c', g.typeTrees c = some (T, c') ∧ Closer c'.rest

/-- A type that was read at one depth can be read at every depth large enough for its size. -/
theorem HasRead.readsType (h : (ofDepth d).HasRead T) (hd : 3 * (Token.sizeAll T + 1) ≤ d') :
    ReadsType (ofDepth d') T := by
  obtain ⟨c, c', htype, hend⟩ := h
  exact readsType_of_typeTrees htype hend hd

/-- A parameter with a proper pattern and a type that a grammar has read. -/
def HasReadParam (g : Grammar) : Param → Prop
  | .receiver => True
  | .typed shape T => shape.Proper ∧ g.HasRead T

private theorem param_eq_some {p : Param} (h : (ofDepth d).param c = some (some p, c'))
    (hend : Closer c'.rest) : (ofDepth d).HasReadParam p := by
  obtain ⟨received, c₁, -, h⟩ := of_bind h
  rw [ite_reader] at h
  split at h
  next =>
    obtain ⟨_, c₂, -, h⟩ := of_bind h
    cases h
    trivial
  next =>
    obtain ⟨nameless, c₂, -, h⟩ := of_bind h
    cases nameless with
    | true =>
      obtain ⟨T, c₃, htype, h⟩ := of_bind h
      cases h
      exact ⟨trivial, c₂, _, htype, hend⟩
    | false =>
      obtain ⟨shape, c₃, hpattern, h⟩ := of_bind h
      obtain ⟨_, c₄, -, h⟩ := of_bind h
      obtain ⟨dots, c₅, -, h⟩ := of_bind h
      cases dots with
      | true => cases h
      | false =>
        obtain ⟨T, c₆, htype, h⟩ := of_bind h
        cases h
        exact ⟨Proper.of_run hpattern, c₅, _, htype, hend⟩

private theorem closer_of_comma {u : Unit} (h : punct "," c = some (u, c')) : Closer c.rest := by
  obtain ⟨front, hmarks, hrest, -, -⟩ := punct_eq_some h
  have hchars : ",".toList = [','] := by simp
  rw [hchars] at hmarks
  cases hmarks with
  | @single _ joint =>
    rw [hrest]
    exact .comma

private theorem closer_of_atEnd {xs : List Token} (h : Test.atEnd xs = true) : Closer xs := by
  rw [List.isEmpty_iff.1 h]
  exact .nil

/-- No parameter stands behind dots. -/
theorem params_dots {ps : List Param} (h : (do
    if !(← peek Test.atEnd) then
      punct ","
    return [] : Reader (List Param)) c = some (ps, c')) : ps = [] := by
  obtain ⟨last, c₁, -, h⟩ := of_bind h
  cases last with
  | true =>
    cases h
    rfl
  | false =>
    obtain ⟨_, _, -, h⟩ := of_bind h
    cases h
    rfl

/-- What is read behind a parameter. -/
def behindParam (g : Grammar) (p : Param) (fuel : Nat) : Reader (List Param) := do
  if ← peek Test.atEnd then
    return [p]
  punct ","
  return p :: (← g.params false fuel)

/-- A parameter ends where the list does, or at a comma. -/
theorem behindParam_eq_some {fuel : Nat} {P : Param → Prop} {p : Param} {ps : List Param}
    (hmore : ∀ {c : Cursor} {first : Bool} {ps : List Param},
      g.params first fuel c = some (ps, c') → ∀ p ∈ ps, P p)
    (h : g.behindParam p fuel c = some (ps, c')) :
    Closer c.rest ∧ ∃ more, ps = p :: more ∧ ∀ q ∈ more, P q := by
  obtain ⟨ended, _, hpeek, h⟩ := of_bind h
  cases hpeek
  rw [ite_reader] at h
  split at h
  next hended =>
    cases h
    exact ⟨closer_of_atEnd hended, [], rfl, List.forall_mem_nil _⟩
  next =>
    obtain ⟨_, c₁, hcomma, h⟩ := of_bind h
    obtain ⟨more, c₂, hparams, h⟩ := of_bind h
    cases h
    exact ⟨closer_of_comma hcomma, more, rfl, hmore hparams⟩

/-- Every parameter that was read has a proper pattern and a type that was read. -/
theorem params_eq_some {first : Bool} {fuel : Nat} {ps : List Param}
    (h : (ofDepth d).params first fuel c = some (ps, c')) :
    ∀ p ∈ ps, (ofDepth d).HasReadParam p := by
  induction fuel generalizing first c ps with
  | zero => cases h
  | succ fuel ih =>
    obtain ⟨ended, c₁, hpeek, h⟩ := of_bind h
    cases hpeek
    rw [ite_reader] at h
    split at h
    next =>
      cases h
      exact List.forall_mem_nil _
    next =>
      obtain ⟨_, c₂, -, h⟩ := of_bind h
      obtain ⟨dots, c₃, -, h⟩ := of_bind h
      cases dots with
      | true =>
        obtain ⟨_, _, hnone, h⟩ := of_bind h
        cases hnone
        rw [params_dots h]
        exact List.forall_mem_nil _
      | false =>
        obtain ⟨declared, c₄, hparam, h⟩ := of_bind h
        rcases declared with _ | p
        · rw [params_dots h]
          exact List.forall_mem_nil _
        · obtain ⟨hend, more, rfl, hmore⟩ : Closer c₄.rest ∧ ∃ more, ps = p :: more ∧
              ∀ q ∈ more, (ofDepth d).HasReadParam q := by
            cases p with
            | typed shape T => exact behindParam_eq_some ih h
            | receiver =>
              cases first with
              | true => exact behindParam_eq_some ih h
              | false => cases h
          exact List.forall_mem_cons.2 ⟨param_eq_some hparam hend, hmore⟩

/-! ### Signatures -/

private theorem opensSignature_of_word {w : String} {xs : List Token}
    (hw : w ∈ ["const", "async", "unsafe", "extern", "fn"]) (h : Test.word w xs = true) :
    opensSignature xs = true := by
  rcases xs with _ | ⟨text | _ | _ | _ | _, xs⟩
  case cons.word =>
    obtain rfl := of_decide_eq_true h
    exact List.contains_iff_mem.2 hw
  all_goals cases h

/-- A qualifier opens a signature, or it is not there. -/
theorem opensSignature_of_word? {w : String} {there : Bool}
    (hw : w ∈ ["const", "async", "unsafe", "extern", "fn"])
    (h : word? w c = some (there, c')) : opensSignature c.rest = true ∨ c' = c := by
  cases htest : Test.word w c.rest with
  | true => exact .inl (opensSignature_of_word hw htest)
  | false =>
    rw [word?_of_false htest] at h
    cases h
    exact .inr rfl

/-- A signature starts with one of its qualifiers or the keyword of functions. -/
theorem opensSignature_of_signature {s : Signature} (h : g.signature false c = some (s, c')) :
    opensSignature c.rest = true := by
  obtain ⟨_, c₁, hconst, h₁⟩ := of_bind h
  obtain hopens | rfl := opensSignature_of_word? (by simp) hconst
  · exact hopens
  obtain ⟨_, c₂, hasync, h₂⟩ := of_bind h₁
  obtain hopens | rfl := opensSignature_of_word? (by simp) hasync
  · exact hopens
  obtain ⟨_, c₃, hsafe, h₃⟩ := of_bind h₂
  cases hsafe
  obtain ⟨_, c₄, hunsafe, h₄⟩ := of_bind h₃
  obtain hopens | rfl := opensSignature_of_word? (by simp) hunsafe
  · exact hopens
  obtain ⟨_, c₅, habi, h₅⟩ := of_bind h₄
  cases habiWord : Test.word "extern" c₄.rest with
  | true => exact opensSignature_of_word (by simp) habiWord
  | false =>
    obtain ⟨there, c₆, hpeek, hnone⟩ := of_bind habi
    cases hpeek
    rw [habiWord] at hnone
    cases hnone
    obtain ⟨_, c₇, hfn, h₇⟩ := of_bind h₅
    obtain ⟨token, c₈, htoken, -⟩ := of_bind hfn
    obtain ⟨_ | ⟨token', rest⟩, ts, es⟩ := c₄
    · cases htoken
    · obtain ⟨hword, -⟩ := Option.ite_none_right_eq_some.1 htoken
      exact opensSignature_of_word (by simp) hword

/-- What a signature was read from. -/
structure HasReadSignature (g : Grammar) (s : Signature) : Prop where
  name : Test.keywords.contains s.name = false
  params : ∀ p ∈ s.params, g.HasReadParam p
  result : ∀ T, s.result = some T → g.HasRead T

/-- The type of the result ends at the conditions or at the body. -/
theorem closer_of_whereClause {there : Bool} (h : g.whereClause? c = some (there, c'))
    (hbrace : Test.brace c'.rest = true) : Closer c.rest := by
  obtain ⟨conditions, c₁, hwhere, h₁⟩ := of_bind h
  cases htest : Test.word "where" c.rest with
  | true =>
    obtain ⟨_ | ⟨text | _ | _ | _ | _, rest⟩, ts, es⟩ := c
    case cons.word =>
      obtain rfl := of_decide_eq_true htest
      exact .where_
    all_goals cases htest
  | false =>
    rw [word?_of_false htest] at hwhere
    cases hwhere
    cases h₁
    obtain ⟨_ | ⟨_ | _ | _ | _ | ⟨d, is⟩, rest⟩, ts, es⟩ := c
    case cons.group =>
      cases d with
      | brace => exact .brace
      | _ => cases hbrace
    all_goals cases hbrace

private theorem signature_eq_some {s : Signature} (h : (ofDepth d).signature false c = some (s, c'))
    (hbrace : Test.brace c'.rest = true) : (ofDepth d).HasReadSignature s := by
  obtain ⟨_, c₁, -, h⟩ := of_bind h
  obtain ⟨_, c₂, -, h⟩ := of_bind h
  obtain ⟨safe, c₃, hsafe, h⟩ := of_bind h
  cases hsafe
  obtain ⟨_, c₄, -, h⟩ := of_bind h
  obtain ⟨_, c₅, -, h⟩ := of_bind h
  obtain ⟨_, c₆, -, h⟩ := of_bind h
  obtain ⟨name, c₇, hname, h⟩ := of_bind h
  obtain ⟨generic, c₈, -, h⟩ := of_bind h
  obtain ⟨ps, c₉, hgroup, h⟩ := of_bind h
  have hparams : ∀ p ∈ ps, (ofDepth d).HasReadParam p := by
    obtain ⟨_, _, -, -, hps⟩ := group_eq_some hgroup
    rw [bounded_apply] at hps
    exact params_eq_some hps
  obtain ⟨arrow, c₁₀, -, h⟩ := of_bind h
  cases arrow with
  | true =>
    obtain ⟨T, c₁₁, htype, h⟩ := of_bind h
    obtain ⟨_, _, hresult, h⟩ := of_bind h
    cases hresult
    obtain ⟨_, c₁₂, hwhere, h⟩ := of_bind h
    cases h
    refine ⟨ident_eq_some hname, hparams, ?_⟩
    rintro _ ⟨⟩
    exact ⟨_, _, htype, closer_of_whereClause hwhere hbrace⟩
  | false =>
    obtain ⟨_, _, hresult, h⟩ := of_bind h
    cases hresult
    obtain ⟨_, c₁₂, hwhere, h⟩ := of_bind h
    cases h
    exact ⟨ident_eq_some hname, hparams, fun _ h ↦ by cases h⟩

private theorem whileTest_innerAttribute {t : Test} {fuel : Nat} {inner : List Attr}
    (h : whileTest t g.innerAttribute fuel c = some (inner, c')) :
    ∀ a ∈ inner, a.inner = true ∧ ¬a.IsOuter := by
  induction fuel generalizing c inner with
  | zero => cases h
  | succ fuel ih =>
    obtain ⟨holds, _, hpeek, h⟩ := of_bind h
    cases hpeek
    rw [ite_reader] at h
    split at h
    next =>
      obtain ⟨a, c₁, ha, h⟩ := of_bind h
      obtain ⟨more, c₂, hmore, h⟩ := of_bind h
      cases h
      exact List.forall_mem_cons.2 ⟨innerAttribute_eq_some ha, ih hmore⟩
    next =>
      cases h
      exact List.forall_mem_nil _

/-- What a function was read from: what stands in front of its signature, the signature, and the
attributes at the head of its body. -/
structure HasReadFn (g : Grammar) (c : Cursor) (item : FnItem) : Prop where
  signature : g.HasReadSignature
    ⟨item.isAsync, item.name, item.isGeneric, item.params, item.result⟩
  attributes : ∃ outer inner c', item.attributes = outer ++ inner ∧
    (∀ a ∈ inner, a.inner = true ∧ ¬a.IsOuter) ∧
      g.front c = some ((outer, item.visibility), c') ∧ opensSignature c'.rest = true

/-- What a function was read from can be told from its reading. -/
theorem fnItem_eq_some {item : FnItem} (h : (ofDepth d).fnItem c = some (item, c')) :
    (ofDepth d).HasReadFn c item := by
  obtain ⟨outer, c₁, houter, h⟩ := of_bind h
  obtain ⟨⟨there, visibility⟩, c₂, hvisibility, h⟩ := of_bind h
  obtain ⟨s, c₃, hsignature, h⟩ := of_bind h
  obtain ⟨⟨inner, body⟩, c₄, hgroup, h⟩ := of_bind h
  cases h
  obtain ⟨trees, inside, hrest, -, hbody⟩ := group_eq_some hgroup
  obtain ⟨_, c₅, hinner, hbody⟩ := of_bind hbody
  obtain ⟨_, _, -, hpure⟩ := of_bind hbody
  cases hpure
  have hbrace : Test.brace c₃.rest = true := by
    rw [hrest]
    rfl
  refine ⟨signature_eq_some hsignature hbrace, outer, inner, c₂, rfl, ?_, ?_,
    opensSignature_of_signature hsignature⟩
  · rw [innerAttributes, repeatWhile, bounded_apply] at hinner
    exact whileTest_innerAttribute hinner
  · rw [front, bind_of_eq_some houter, bind_of_eq_some hvisibility]
    rfl

/-! ### Parameters that are written again -/

variable {a : String} {ys ts : List Token} {es : List Expr}

/-- A name is a pattern where nothing continues it. -/
theorem pattern_name (d : Nat) (ha : Test.keywords.contains a = false) {rest : List Token}
    (hbefore : Test.any [Test.punct "::", Test.punct "!", Test.brace, Test.paren, Test.punct ".."]
      rest = false) (hat : Test.punct "@" rest = false) (ts : List Token) (es : List Expr) :
    (ofDepth (d + 1)).pattern ⟨.word a :: rest, ts, es⟩ =
      some (.name a false, ⟨rest, .word a :: ts, es⟩) := by
  have hword (w : String) (hw : Test.keywords.contains w = true) :
    Test.word w (.word a :: rest) = false := Test.word_keyword hw ha
  have hpunct (s : String) [Written s] : Test.punct s (.word a :: rest) = false :=
    Test.punct_word s a rest
  have hliteral : Test.literal (.word a :: rest) = false := Test.literal_word ha
  have hpath (before : Test) (hbefore : before rest = false) :
      Test.any [Test.and Test.ident (Test.second before),
        Test.and (Test.word "self") (Test.second (Test.punct "::")), Test.punct "::",
        Test.punct "<", Test.oneOf ["Self", "super", "crate"]] (.word a :: rest) = false := by
    have hsecond : Test.second before (.word a :: rest) = false := hbefore
    have honeOf : Test.oneOf ["Self", "super", "crate"] (.word a :: rest) = false :=
      Test.oneOf_keywords (by decide) ha
    simp only [Test.any, List.any_cons, List.any_nil, Test.and, hpunct, honeOf,
      hword "self" (by decide), hsecond, Bool.false_and, Bool.and_false, Bool.or_false]
  have hconstant : Test.any [Test.punct "-", Test.literal, Test.word "const"] (.word a :: rest) =
      false := by
    simp only [Test.any, List.any_cons, List.any_nil, hpunct, hliteral, hword "const" (by decide),
      Bool.or_false]
  have hname : Test.or Test.ident (Test.oneOf ["ref", "mut", "self"]) (.word a :: rest) = true := by
    rw [Test.or, Test.ident_word ha, Bool.true_or]
  have hskip (w : String) (hw : Test.keywords.contains w = true) :
      word? w ⟨.word a :: rest, ts, es⟩ = some (false, ⟨.word a :: rest, ts, es⟩) :=
    word?_of_false (hword w hw)
  have hpattern : (ofDepth (d + 1)).pattern = (ofDepth d).patternRule := rfl
  rw [hpattern, patternRule]
  simp only [↓peek_bind, hpath _ hbefore, Bool.false_eq_true, ↓reduceIte]
  rw [bind_of_eq_some (hskip "_" (by decide))]
  simp only [Bool.false_eq_true, ↓reduceIte]
  rw [bind_of_eq_some (hskip "box" (by decide))]
  simp only [↓peek_bind, hconstant, hname, Bool.false_eq_true, ↓reduceIte, namePattern]
  rw [bind_of_eq_some (hskip "ref" (by decide)), bind_of_eq_some (hskip "mut" (by decide))]
  simp only [↓peek_bind, hword "self" (by decide), Bool.false_eq_true, ↓reduceIte]
  rw [bind_of_eq_some (ident_apply ha rest ts es), bind_of_eq_some (punct?_of_false hat)]
  rfl

private theorem typeTrees_apply {g : Grammar} (hT : g.ReadsType T) (hys : Closer ys)
    (hwhere : Test.word "where" ys = false) (ts : List Token) (es : List Expr) :
    g.typeTrees ⟨T ++ ys, ts, es⟩ = some (T, ⟨ys, T.reverse ++ ts, es⟩) := by
  obtain ⟨shape, found, hread⟩ := hT
  obtain ⟨-, htype⟩ := hread ys hys hwhere
  have hcollect : collect (capture (g.type true)) ⟨T ++ ys, ts, es⟩ =
      some (((shape, T), found.reverse), ⟨ys, T.reverse ++ ts, es⟩) := by
    have hrun := htype []
    rw [List.append_nil] at hrun
    simp only [collect, capture, hrun, List.reverse_reverse]
  rw [typeTrees, bind_of_eq_some hcollect]
  rfl

/-- A name is no receiver. -/
theorem receiverAhead_name (ha : Test.keywords.contains a = false) {rest ts : List Token}
    {es : List Expr} : receiverAhead ⟨.word a :: rest, ts, es⟩ = none := by
  have hself : Test.word "self" (.word a :: rest) = false := Test.word_keyword (by decide) ha
  have hmut : Test.word "mut" (.word a :: rest) = false := Test.word_keyword (by decide) ha
  have hand : Test.punct "&" (.word a :: rest) = false := Test.punct_word _ _ _
  have hnone : word "self" ⟨.word a :: rest, ts, es⟩ = none := by
    simp [word, takeIf, hself]
  rw [receiverAhead]
  simp only [↓peek_bind, hself, Bool.false_eq_true, ↓reduceIte]
  rw [bind_of_eq_some (punct?_of_false hand)]
  simp only [Bool.false_eq_true, ↓reduceIte]
  rw [bind_of_eq_some (word?_of_false hmut), hnone]

/-- A name with a type is a plain parameter. -/
theorem param_plain (hT : (ofDepth (d + 1)).ReadsType T)
    (ha : Test.keywords.contains a = false) (hys : Closer ys)
    (hwhere : Test.word "where" ys = false) (ts : List Token) (es : List Expr) :
    ∃ taken, (ofDepth (d + 1)).param ⟨.word a :: .punct ':' false :: (T ++ ys), ts, es⟩ =
      some (some (.typed (.name a false) T), ⟨ys, taken, es⟩) := by
  have hreceiver : lookahead receiverAhead ⟨.word a :: .punct ':' false :: (T ++ ys), ts, es⟩ =
      some (none, ⟨.word a :: .punct ':' false :: (T ++ ys), ts, es⟩) := by
    simp only [lookahead, receiverAhead_name ha, Option.map_none]
  have hnameless : Test.and Test.ident (Test.second (Test.punct "<"))
      (.word a :: .punct ':' false :: (T ++ ys)) = false := by
    have hangle : Test.second (Test.punct "<") (.word a :: .punct ':' false :: (T ++ ys)) = false :=
      rfl
    rw [Test.and, hangle, Bool.and_false]
  have hcolon : punct ":" ⟨.punct ':' false :: (T ++ ys), .word a :: ts, es⟩ =
      some ((), ⟨T ++ ys, .punct ':' false :: .word a :: ts, es⟩) := rfl
  have hdots : Test.punct "..." (T ++ ys) = false := by
    obtain ⟨shape, found, hread⟩ := hT
    exact (startsType_facts (hread ys hys hwhere).1).2.2
  refine ⟨T.reverse ++ .punct ':' false :: .word a :: ts, ?_⟩
  rw [param, bind_of_eq_some hreceiver]
  simp only [Option.isSome_none, ↓peek_bind, hnameless, Bool.false_eq_true, ↓reduceIte]
  rw [bind_of_eq_some (pattern_name d ha rfl rfl ts es), bind_of_eq_some hcolon,
    bind_of_eq_some (punct?_of_false hdots)]
  simp only [Bool.false_eq_true, ↓reduceIte]
  rw [bind_of_eq_some (typeTrees_apply hT hys hwhere _ _)]
  rfl

/-- The name of a receiver with a type is no plain parameter. -/
theorem param_self {g : Grammar} {p : Option Param} (hdots : Test.punct "..." ys = false)
    (h : g.param ⟨.word "self" :: .punct ':' false :: ys, ts, es⟩ = some (p, c')) :
    p = some .receiver := by
  have hahead : receiverAhead ⟨.word "self" :: .punct ':' false :: ys, ts, es⟩ =
      some ((), ⟨.punct ':' false :: ys, .word "self" :: ts, es⟩) := by
    have hpath : Test.butNot (Test.punct "::") (Test.punct ":::") (.punct ':' false :: ys) =
      false := rfl
    have hdots : Test.second (Test.punct "...") (.punct ':' false :: ys) = false := hdots
    have hself : Test.word "self" (.word "self" :: .punct ':' false :: ys) = true := rfl
    have hskip : skip 1 ⟨.word "self" :: .punct ':' false :: ys, ts, es⟩ =
      some ((), ⟨.punct ':' false :: ys, .word "self" :: ts, es⟩) := rfl
    rw [receiverAhead]
    simp only [↓peek_bind, hself, ↓reduceIte]
    rw [bind_of_eq_some hskip]
    simp only [↓peek_bind, Test.or, Test.and, hpath, hdots, Bool.and_false, Bool.or_false,
      Bool.false_eq_true, ↓reduceIte]
    rfl
  have hreceiver : lookahead receiverAhead ⟨.word "self" :: .punct ':' false :: ys, ts, es⟩ =
      some (some (), ⟨.word "self" :: .punct ':' false :: ys, ts, es⟩) := by
    simp only [lookahead, hahead, Option.map_some]
  rw [param, bind_of_eq_some hreceiver] at h
  obtain ⟨_, c₁, -, h⟩ := of_bind h
  cases h
  rfl

/-! ### Signatures that are written again -/

/-- A signature without qualifiers and generic parameters is read from its parameters on. -/
theorem signature_fn {g : Grammar} {name : String} {ps rest : List Token}
    (hname : Test.keywords.contains name = false) (ts : List Token) (es : List Expr) :
    g.signature false ⟨.word "fn" :: .word name :: .group .paren ps :: rest, ts, es⟩ = (do
      let params ← group .paren (bounded (g.params true))
      let result ← if ← punct? "->" then pure (some (← g.typeTrees)) else pure none
      let _ ← g.whereClause?
      return ⟨false, name, false, params, result⟩ : Reader Signature)
        ⟨.group .paren ps :: rest, .word name :: .word "fn" :: ts, es⟩ := by
  let c : Cursor := ⟨.word "fn" :: .word name :: .group .paren ps :: rest, ts, es⟩
  have hconst : word? "const" c = some (false, c) := rfl
  have hasync : word? "async" c = some (false, c) := rfl
  have hsafe : askIf false (word? "safe") c = some (false, c) := rfl
  have hunsafe : word? "unsafe" c = some (false, c) := rfl
  have habi : abi? c = some ((), c) := rfl
  have hfn : word "fn" c =
    some ((), ⟨.word name :: .group .paren ps :: rest, .word "fn" :: ts, es⟩) := rfl
  have hgenerics : g.generics ⟨.group .paren ps :: rest, .word name :: .word "fn" :: ts, es⟩ =
    some (false, _) := rfl
  rw [signature, bind_of_eq_some hconst, bind_of_eq_some hasync, bind_of_eq_some hsafe]
  simp only [Bool.not_false, ↓reduceIte]
  rw [bind_of_eq_some hunsafe, bind_of_eq_some habi, bind_of_eq_some hfn,
    bind_of_eq_some (ident_apply hname _ _ _), bind_of_eq_some hgenerics]

/-- The result of a call of the guest is read in front of a block. -/
theorem typeTrees_resultTokens (hT : (ofDepth d).ReadsType T) (is ts : List Token)
    (es : List Expr) :
    ∃ trees taken, (ofDepth (d + 1)).typeTrees ⟨resultTokens T [.group .brace is], ts, es⟩ =
      some (trees, ⟨[.group .brace is], taken, es⟩) := by
  obtain ⟨taken, found, htype⟩ := typeRule_resultTokens hT is []
  have hcollect : collect (capture ((ofDepth (d + 1)).type true))
      ⟨resultTokens T [.group .brace is], ts, es⟩ =
        some (((.path, taken.reverse), found.reverse), ⟨[.group .brace is], taken ++ ts, es⟩) := by
    have hrule : (ofDepth (d + 1)).type true ⟨resultTokens T [.group .brace is], [], []⟩ =
      some (.path, ⟨[.group .brace is], taken, found⟩) := htype
    simp only [collect, capture, hrule]
  refine ⟨taken.reverse, taken ++ ts, ?_⟩
  rw [typeTrees]
  exact bind_of_eq_some hcollect _

/-- A signature without qualifiers and generic parameters whose result is a call's. -/
def callerSignature (name : String) (written T rest : List Token) : List Token :=
  .word "fn" :: .word name :: .group .paren written :: .punct '-' true :: .punct '>' false ::
    resultTokens T rest

/-- Such a signature is read in front of a block if its parameters are. -/
theorem signature_callerSignature (hT : (ofDepth d).ReadsType T) {name : String}
    (hname : Test.keywords.contains name = false) {written inside is : List Token}
    {ps : List Param} {es' : List Expr}
    (hps : bounded ((ofDepth (d + 1)).params true) ⟨written, [], es⟩ =
      some (ps, ⟨[], inside, es'⟩)) (ts : List Token) :
    ∃ result taken, (ofDepth (d + 1)).signature false
      ⟨callerSignature name written T [.group .brace is], ts, es⟩ =
        some (⟨false, name, false, ps, some result⟩, ⟨[.group .brace is], taken, es'⟩) := by
  let behind := Token.group .paren inside.reverse :: .word name :: .word "fn" :: ts
  obtain ⟨trees, taken, htrees⟩ :=
    typeTrees_resultTokens hT is (.punct '>' false :: .punct '-' true :: behind) es'
  have harrow : punct? "->" ⟨.punct '-' true :: .punct '>' false ::
      resultTokens T [.group .brace is], behind, es'⟩ =
    some (true, ⟨resultTokens T [.group .brace is], .punct '>' false :: .punct '-' true :: behind,
      es'⟩) := rfl
  have hwhere : (ofDepth (d + 1)).whereClause? ⟨[.group .brace is], taken, es'⟩ =
    some (false, ⟨[.group .brace is], taken, es'⟩) := rfl
  refine ⟨trees, taken, ?_⟩
  rw [callerSignature, signature_fn hname, bind_of_eq_some (group_apply hps),
    bind_of_eq_some harrow]
  simp only [↓reduceIte]
  rw [bind_of_eq_some htrees, pure_bind, bind_of_eq_some hwhere]
  rfl

/-- The parameters of a signature are those between its parentheses. -/
theorem params_of_signature {name : String} {written rest : List Token} {s : Signature}
    (hname : Test.keywords.contains name = false)
    (h : g.signature false ⟨callerSignature name written T rest, ts, es⟩ = some (s, c')) :
    ∃ inside found, bounded (g.params true) ⟨written, [], es⟩ =
      some (s.params, ⟨[], inside, found⟩) := by
  rw [callerSignature, signature_fn hname] at h
  obtain ⟨ps, c₁, hgroup, hbehind⟩ := of_bind h
  obtain ⟨_, inside, hrest, -, hps⟩ := group_eq_some hgroup
  obtain ⟨rfl⟩ := (List.cons.inj hrest).1
  have hparams : s.params = ps := by
    obtain ⟨arrow, c₂, -, h⟩ := of_bind hbehind
    cases arrow with
    | true =>
      obtain ⟨_, _, -, h⟩ := of_bind h
      obtain ⟨_, _, -, h⟩ := of_bind h
      obtain ⟨_, _, -, h⟩ := of_bind h
      cases h
      rfl
    | false =>
      obtain ⟨_, _, -, h⟩ := of_bind h
      obtain ⟨_, _, -, h⟩ := of_bind h
      cases h
      rfl
  rw [hparams]
  exact ⟨inside, _, hps⟩

/-! ### Functions that are written again -/

/-- What stands in front of a signature is read as attributes and a visibility. -/
theorem front_inv {outer : List Attr} {visibility : List Token} {c₁ : Cursor}
    (h : g.front c = some ((outer, visibility), c₁)) : ∃ there c₂,
      g.outerAttributes c = some (outer, c₂) ∧
        capture Grammar.visibility c₂ = some ((there, visibility), c₁) := by
  obtain ⟨_, c₂, houter, h⟩ := of_bind h
  obtain ⟨⟨there, _⟩, _, hvisibility, h⟩ := of_bind h
  cases h
  exact ⟨there, c₂, houter, hvisibility⟩

/-- A function is read from its parts, if its body has no attributes. -/
theorem fnItem_of_parts {outer : List Attr} {visibility is inside : List Token} {c₁ : Cursor}
    {s : Signature} {body : List Stmt} {es' : List Expr}
    (hfront : g.front c = some ((outer, visibility), c₁))
    (hsignature : g.signature false c₁ = some (s, ⟨[.group .brace is], ts, es⟩))
    (hinner : g.innerAttributes ⟨is, [], es⟩ = some ([], ⟨is, [], es⟩))
    (hbody : g.statements ⟨is, [], es⟩ = some (body, ⟨[], inside, es'⟩)) :
    g.fnItem c = some (
      { attributes := outer ++ [], visibility, isAsync := s.isAsync, name := s.name
        isGeneric := s.isGeneric, params := s.params, result := s.result, body },
      ⟨[], .group .brace inside.reverse :: ts, es'⟩) := by
  obtain ⟨there, c₂, houter, hvisibility⟩ := front_inv hfront
  have hinside : (do
      let inner ← g.innerAttributes
      return (inner, ← g.statements) : Reader (List Attr × List Stmt)) ⟨is, [], es⟩ =
        some (([], body), ⟨[], inside, es'⟩) := by
    rw [bind_of_eq_some hinner, bind_of_eq_some hbody]
    rfl
  rw [fnItem, bind_of_eq_some houter, bind_of_eq_some hvisibility]
  dsimp only
  rw [bind_of_eq_some hsignature, bind_of_eq_some (group_apply hinside)]
  rfl

/-- A function has the parameters of its signature. -/
theorem signature_of_fnItem {item : FnItem} {outer : List Attr} {visibility : List Token}
    {c₁ : Cursor} (hfront : g.front c = some ((outer, visibility), c₁))
    (h : g.fnItem c = some (item, c')) :
    ∃ s c₂, g.signature false c₁ = some (s, c₂) ∧ s.params = item.params := by
  obtain ⟨there, c₂, houter, hvisibility⟩ := front_inv hfront
  rw [fnItem, bind_of_eq_some houter, bind_of_eq_some hvisibility] at h
  obtain ⟨s, c₃, hsignature, h⟩ := of_bind h
  obtain ⟨_, _, -, h⟩ := of_bind h
  cases h
  exact ⟨s, c₃, hsignature, rfl⟩

end Grammar

end GuestBridge.Host
