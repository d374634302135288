import GuestBridge.Proofs.Host.Reread.Pieces

/-!
# Types and calls that are written around what was read

A type that was read is written between angle brackets and names are written as arguments. The
grammar reads them there: nothing of what stands around them is taken for a part of them.
-/

namespace GuestBridge.Host

/-! ### Names -/

namespace Test

variable {a w : String} {ws : List String} {xs : List Token}

/-- A word is no punctuation. -/
theorem punct_word (s : String) [Reader.Written s] (w : String) (xs : List Token) :
    punct s (.word w :: xs) = false := by
  obtain ⟨c, cs, hs⟩ := List.exists_cons_of_ne_nil (Reader.Written.ne (s := s))
  rw [punct, hs]
  cases cs <;> rfl

/-- An identifier is no keyword. -/
theorem word_keyword (hw : keywords.contains w = true) (ha : keywords.contains a = false) :
    word w (.word a :: xs) = false := by
  refine decide_eq_false ?_
  rintro rfl
  rw [hw] at ha
  cases ha

/-- An identifier is none of several keywords. -/
theorem oneOf_keywords (hws : ws.all keywords.contains = true)
    (ha : keywords.contains a = false) : oneOf ws (.word a :: xs) = false := by
  rw [oneOf, ← Bool.not_eq_true, List.contains_iff_mem]
  intro hmem
  rw [List.all_eq_true.1 hws a hmem] at ha
  cases ha

/-- A word that is no keyword is an identifier. -/
theorem ident_word (ha : keywords.contains a = false) : ident (.word a :: xs) = true := by
  rw [ident, ha]
  rfl

/-- A word that is no keyword is no literal. -/
theorem literal_word (ha : keywords.contains a = false) : literal (.word a :: xs) = false := by
  have hne (w : String) (hw : keywords.contains w = true) : decide (a = w) = false :=
    @word_keyword a w xs hw ha
  rw [literal, hne "true" (by decide), hne "false" (by decide)]
  rfl

end Test

namespace Reader

variable {α β : Type} {r : Reader α} {t : Test} {c c₁ : Cursor} {a : α}

/-- What follows a look ahead runs from the same cursor. -/
theorem peek_bind (t : Test) (k : Bool → Reader β) (c : Cursor) :
    (peek t >>= k) c = k (t c.rest) c := (rfl)

/-- What follows a reader runs from where the reader stops. -/
theorem bind_of_eq_some (h : r c = some (a, c₁)) (k : α → Reader β) :
    (r >>= k) c = k a c₁ := by
  rw [bind_apply, h]
  rfl

private theorem repeatWhile_of_false (h : t c.rest = false) : repeatWhile t r c = some ([], c) := by
  simp [repeatWhile, bounded_apply, whileTest, peek_apply, h]

/-- A loop that ends after its first round. -/
theorem repeatWhile_once (h : t c.rest = true) (hr : r c = some (a, c₁))
    (hend : t c₁.rest = false) (hne : c.rest ≠ []) : repeatWhile t r c = some ([a], c₁) := by
  obtain ⟨n, hn⟩ := Nat.exists_eq_add_of_le' (Token.one_le_sizeAll hne)
  simp [repeatWhile, bounded_apply, whileTest, peek_apply, h, hr, hend, hn]

private theorem substituting_apply {r : Reader (α × List Token)} {piece : List Token}
    {rest rest' ts ts' : List Token} {es es' : List Expr}
    (h : r ⟨rest, [], es⟩ = some ((a, piece), ⟨rest', ts', es'⟩)) :
    substituting r ⟨rest, ts, es⟩ = some (a, ⟨rest', piece.reverse ++ ts, es'⟩) := by
  simp only [substituting, h]

/-- An identifier is read off the word that comes next. -/
theorem ident_apply {name : String} (h : Test.keywords.contains name = false)
    (ys ts : List Token) (es : List Expr) :
    ident ⟨.word name :: ys, ts, es⟩ = some (name, ⟨ys, .word name :: ts, es⟩) := by
  have hident : Test.ident (.word name :: ys) = true := Test.ident_word h
  simp only [ident, bind_apply, require, hident, if_true, Option.bind_some]
  rfl

end Reader

namespace Grammar

open Reader

variable {g : Grammar} {d : Nat} {a : String} {joint inExpr : Bool} {T ys zs ts : List Token}
  {es : List Expr}

/-! ### Types between angle brackets -/

/-- A type in front of the closing bracket is an argument. -/
theorem genericArgument_type (hT : g.ReadsType T) (zs ts : List Token) :
    ∃ found, g.genericArgument ⟨T ++ .punct '>' false :: zs, ts, []⟩ =
      some (false, ⟨.punct '>' false :: zs, T.reverse ++ ts, found⟩) := by
  obtain ⟨shape, found, hread⟩ := hT
  obtain ⟨hstarts, htype⟩ := hread (.punct '>' false :: zs) .angle rfl
  obtain ⟨hlifetime, hliteral, -⟩ := startsType_facts hstarts
  refine ⟨found, ?_⟩
  unfold genericArgument
  simp only [↓peek_bind, hlifetime, hliteral, Bool.false_eq_true, ↓reduceIte]
  rw [bind_of_eq_some (htype ts)]
  cases shape <;> rfl

/-- No type starts with a closing bracket. -/
theorem closes_type (h : startsType ys = true) : Test.punct ">" ys = false := by
  rcases ys with _ | ⟨_ | ⟨c, joint⟩ | _ | _ | _, ys⟩
  case cons.punct =>
    by_cases hc : c = '>'
    · subst hc
      cases h
    · simp [Test.punct, Test.punctChars, Ne.symm hc]
  all_goals rfl

/-- A type in front of the closing bracket is the only argument. -/
theorem genericArguments_type (hT : g.ReadsType T) (zs ts : List Token) :
    ∃ taken found, bounded g.genericArguments ⟨T ++ .punct '>' false :: zs, ts, []⟩ =
      some ([⟨false, T, false⟩], ⟨.punct '>' false :: zs, taken, found⟩) := by
  have hstarts : startsType (T ++ .punct '>' false :: zs) = true := by
    obtain ⟨shape, found, hread⟩ := hT
    exact (hread _ .angle rfl).1
  obtain ⟨found, hargument⟩ := genericArgument_type hT zs []
  have hcapture : capture g.genericArgument ⟨T ++ .punct '>' false :: zs, ts, []⟩ =
      some ((false, T), ⟨.punct '>' false :: zs, T.reverse ++ ts, found⟩) := by
    rw [List.append_nil] at hargument
    simp only [capture, hargument, List.reverse_reverse]
  refine ⟨T.reverse ++ ts, found, ?_⟩
  rw [bounded_apply, genericArguments]
  simp only [↓peek_bind, closes_type hstarts, Bool.false_eq_true, ↓reduceIte]
  rw [bind_of_eq_some hcapture]
  rfl

private theorem angleArguments_type (hT : g.ReadsType T) (colons : Bool) (zs ts : List Token) :
    ∃ taken found, g.angleArguments ⟨angleStart colons ++ (T ++ .punct '>' false :: zs), ts, []⟩ =
      some (false, ⟨zs, taken, found⟩) := by
  obtain ⟨front, hcolons⟩ : ∃ front,
      punct? "::" ⟨angleStart colons ++ (T ++ .punct '>' false :: zs), [], []⟩ =
        some (colons, ⟨.punct '<' false :: (T ++ .punct '>' false :: zs), front, []⟩) := by
    cases colons <;> exact ⟨_, rfl⟩
  have hopen : punct "<" ⟨.punct '<' false :: (T ++ .punct '>' false :: zs), front, []⟩ =
      some ((), ⟨T ++ .punct '>' false :: zs, .punct '<' false :: front, []⟩) := rfl
  obtain ⟨taken, found, harguments⟩ := genericArguments_type hT zs (.punct '<' false :: front)
  have hclose : punct ">" ⟨.punct '>' false :: zs, taken, found⟩ =
      some ((), ⟨zs, .punct '>' false :: taken, found⟩) := rfl
  let piece := angleStart colons ++ GenericArg.arrange [⟨false, T, false⟩] ++ [.punct '>' false]
  refine ⟨piece.reverse ++ ts, found,
    @substituting_apply _ _ _ _ _ _ _ (.punct '>' false :: taken) _ _ ?_⟩
  rw [bind_of_eq_some hcolons, bind_of_eq_some hopen, bind_of_eq_some harguments,
    bind_of_eq_some hclose]
  rfl

/-- The type of what a call of the guest results in, with the type of the value between angle
brackets. -/
def resultTokens (T rest : List Token) : List Token :=
  .punct ':' true :: .punct ':' false :: .word "jlext" :: .punct ':' true :: .punct ':' false ::
    .word "Result" :: (angleStart false ++ (T ++ .punct '>' false :: rest))

/-- Such a type is a path of two words, the second with an argument. -/
theorem path_resultTokens (hT : g.ReadsType T) (is ts : List Token) :
    ∃ taken found, g.path false ⟨resultTokens T [.group .brace is], ts, []⟩ =
      some (pathShape true false ("jlext", false, true) [("Result", true, false)],
        ⟨[.group .brace is], taken, found⟩) := by
  let inner := angleStart false ++ (T ++ [.punct '>' false, .group .brace is])
  let behind := Token.word "jlext" :: .punct ':' false :: .punct ':' true :: ts
  let second := Token.punct ':' true :: .punct ':' false :: .word "Result" :: inner
  obtain ⟨taken, found, hangle⟩ := angleArguments_type hT false [.group .brace is]
    (.word "Result" :: .punct ':' false :: .punct ':' true :: behind)
  have hsegment : (do punct "::"; g.pathSegment false) ⟨second, behind, []⟩ =
      some (("Result", true, false), ⟨[.group .brace is], taken, found⟩) := by
    have hword : (do punct "::"; g.pathSegment false) ⟨second, behind, []⟩ =
        (do return ("Result", true, ← g.angleArguments))
          ⟨inner, .word "Result" :: .punct ':' false :: .punct ':' true :: behind, []⟩ := rfl
    rw [hword, bind_of_eq_some hangle]
    rfl
  have hmore : g.morePathSegments false ⟨second, behind, []⟩ =
      some ([("Result", true, false)], ⟨[.group .brace is], taken, found⟩) :=
    repeatWhile_once rfl hsegment rfl (List.cons_ne_nil _ _)
  have hfirst : g.path false ⟨resultTokens T [.group .brace is], ts, []⟩ =
      (do return pathShape true false ("jlext", false, true) (← g.morePathSegments false))
        ⟨second, behind, []⟩ := rfl
  exact ⟨taken, found, hfirst.trans (bind_of_eq_some hmore _)⟩

/-- A result type in front of a body is read, and the body is left. -/
theorem typeRule_resultTokens (hT : g.ReadsType T) (is ts : List Token) :
    ∃ taken found, g.typeRule true ⟨resultTokens T [.group .brace is], ts, []⟩ =
      some (.path, ⟨[.group .brace is], taken, found⟩) := by
  obtain ⟨taken, found, hpath⟩ := path_resultTokens hT is ts
  have hqualified : g.qualifiedPath false ⟨resultTokens T [.group .brace is], ts, []⟩ =
      g.path false ⟨resultTokens T [.group .brace is], ts, []⟩ := rfl
  have htype : g.typeRule true ⟨resultTokens T [.group .brace is], ts, []⟩ =
      g.pathType true false ⟨resultTokens T [.group .brace is], ts, []⟩ := rfl
  refine ⟨taken, found, ?_⟩
  rw [htype, pathType, typePath, bind_assoc, bind_of_eq_some (hqualified.trans hpath)]
  rfl

/-! ### Names as arguments -/

private theorem atom_word (ha : Test.keywords.contains a = false) (hys : Test.punct "#" ys = false)
    (ts : List Token) (es : List Expr) :
    g.atom true ⟨.word a :: ys, ts, es⟩ = g.pathExpr true ⟨.word a :: ys, ts, es⟩ := by
  have hword (w : String) (hw : Test.keywords.contains w = true) :
      Test.word w (.word a :: ys) = false := Test.word_keyword hw ha
  have hliteral : Test.literal (.word a :: ys) = false := Test.literal_word ha
  have hasync : startsAsync (.word a :: ys) = false := by
    rw [startsAsync, Test.and, hword "async" (by decide), Bool.false_and]
  have htry : startsTry (.word a :: ys) = false := by
    rw [startsTry, Test.and, hword "try" (by decide), Bool.false_and]
  have hclosure : startsClosure (.word a :: ys) = false := by
    have hbar : Test.punct "|" (.word a :: ys) = false := Test.punct_word _ _ _
    simp only [startsClosure, startsBinder, Test.any, List.any_cons, List.any_nil, Test.and,
      Test.butNot, hbar, hword "move" (by decide), hword "for" (by decide),
      hword "const" (by decide), hword "static" (by decide), hword "async" (by decide),
      Bool.false_and, Bool.or_false]
  have hbuiltin : Test.and (Test.word "builtin") (Test.second (Test.punct "#"))
      (.word a :: ys) = false := by
    rw [Test.and, Test.second, List.drop_one, List.tail_cons, hys, Bool.and_false]
  have hpath : Test.or startsPath (Test.and (Test.word "try")
      (Test.second (Test.or (Test.punct "!") (Test.punct "::")))) (.word a :: ys) = true := by
    rw [Test.or, startsPath, Test.any, List.any_cons, Test.ident_word ha]
    rfl
  unfold atom
  simp only [↓peek_bind, hliteral, hasync, htry, hclosure, hbuiltin, hpath, ↓reduceIte,
    Bool.false_eq_true]

/-- An operand without attributes and prefix operators. -/
theorem unaryRule_atom {c c₁ c₂ : Cursor} {e e' : Expr}
    (hhash : Test.punct "#" c.rest = false)
    (hoperator : Test.any [Test.punct "*", Test.punct "!", Test.punct "-"] c.rest = false)
    (hand : Test.punct "&" c.rest = false) (hatom : g.atom true c = some (e, c₁))
    (happlied : g.applied e c₁ = some (e', c₂)) : g.unaryRule true c = some (e', c₂) := by
  have hattributes : g.exprAttributes c = some ((false, []), c) := by
    have hnone : g.outerAttributes ⟨c.rest, c.taken, []⟩ = some ([], ⟨c.rest, c.taken, []⟩) :=
      repeatWhile_of_false hhash
    simp [exprAttributes, collect, hnone]
  rw [unaryRule, bind_of_eq_some hattributes]
  dsimp only
  rw [bind_of_eq_some (punct?_of_false hand)]
  simp only [Bool.false_eq_true, ↓reduceIte, ↓peek_bind, hoperator]
  rw [bind_of_eq_some hatom, bind_of_eq_some happlied]
  cases e' <;> rfl

/-- A name in front of what are no generic arguments. -/
theorem pathSegment_name (ha : Test.keywords.contains a = false)
    (hys : Test.opensArguments true ys = false) (ts : List Token) (es : List Expr) :
    g.pathSegment true ⟨.word a :: ys, ts, es⟩ =
      some ((a, false, true), ⟨ys, .word a :: ts, es⟩) := by
  have hscope : Test.oneOf ["super", "self", "crate", "try"] [.word a] = false :=
    Test.oneOf_keywords (by decide) ha
  have hargument : isArgumentWord a = true := by
    rw [isArgumentWord, ha, Bool.not_false, Bool.or_true]
  rw [pathSegment_word hscope hargument, hys]
  rfl

/-- A path that no exclamation mark and no block follows. -/
theorem pathExpr_path {shape : PathShape} {taken : List Token}
    (hpath : g.path true ⟨.word a :: ys, ts, []⟩ = some (shape, ⟨zs, taken, []⟩))
    (hbang : Test.punct "!" zs = false) (hbrace : Test.brace zs = false) (es : List Expr) :
    g.pathExpr true ⟨.word a :: ys, ts, es⟩ = some (.node .plain [], ⟨zs, taken, es⟩) := by
  have hqualified : g.qualifiedPath true ⟨.word a :: ys, ts, []⟩ =
      g.path true ⟨.word a :: ys, ts, []⟩ := rfl
  have hcollect : collect (g.qualifiedPath true) ⟨.word a :: ys, ts, es⟩ =
      some ((shape, []), ⟨zs, taken, es⟩) := by
    simp only [collect, hqualified, hpath, List.reverse_nil]
  rw [pathExpr, bind_of_eq_some hcollect]
  simp only [↓peek_bind, Test.butNot, hbang, hbrace, Bool.false_and, Bool.and_false,
    Bool.false_eq_true, ↓reduceIte]
  rfl

private theorem unaryRule_word (ha : Test.keywords.contains a = false) (joint : Bool)
    (ys ts : List Token) (es : List Expr) :
    g.unaryRule true ⟨.word a :: .punct ',' joint :: ys, ts, es⟩ =
      some (.node .plain [], ⟨.punct ',' joint :: ys, .word a :: ts, es⟩) := by
  have hpath : g.path true ⟨.word a :: .punct ',' joint :: ys, ts, []⟩ =
      some (pathShape false false (a, false, true) [],
        ⟨.punct ',' joint :: ys, .word a :: ts, []⟩) := by
    have hrooted : punct? "::" ⟨.word a :: .punct ',' joint :: ys, ts, []⟩ = some (false, _) := rfl
    rw [path, bind_of_eq_some hrooted, bind_of_eq_some (pathSegment_name ha rfl ts [])]
    rfl
  exact unaryRule_atom rfl rfl rfl
    ((atom_word ha rfl ts es).trans (pathExpr_path hpath rfl rfl es)) rfl

private theorem expr_word (d : Nat) (ha : Test.keywords.contains a = false) (joint : Bool)
    (ys ts : List Token) (es : List Expr) :
    (ofDepth (d + 2)).expr true ⟨.word a :: .punct ',' joint :: ys, ts, es⟩ =
      some (.node .plain [], ⟨.punct ',' joint :: ys, .word a :: ts, es⟩) :=
  (bind_of_eq_some (unaryRule_word ha joint ys ts es) _).trans rfl

/-- Names with a comma behind each. -/
def wordArguments (args : List String) : List Token :=
  args.flatMap fun a ↦ [.word a, .punct ',' false]

private theorem exprList_words (d : Nat) (args : List String)
    (hargs : ∀ a ∈ args, Test.keywords.contains a = false) (ts : List Token) (es : List Expr) :
    ∃ parts taken, (ofDepth (d + 2)).exprList ⟨wordArguments args, ts, es⟩ =
      some (parts, ⟨[], taken, es⟩) := by
  have hloop (fuel : Nat) (hfuel : args.length ≤ fuel) : ∃ parts taken,
      separatedBy "," Test.atEnd ((ofDepth (d + 2)).expr true) (fuel + 1)
        ⟨wordArguments args, ts, es⟩ = some (parts, ⟨[], taken, es⟩) := by
    induction args generalizing ts fuel with
    | nil => exact ⟨[], ts, rfl⟩
    | cons a args ih =>
      obtain ⟨fuel, rfl⟩ := Nat.exists_eq_add_of_le' (Nat.le_trans (Nat.le_add_left 1 _) hfuel)
      rw [List.forall_mem_cons] at hargs
      obtain ⟨parts, taken, hmore⟩ := ih hargs.2 (.punct ',' false :: .word a :: ts) fuel
        (Nat.le_of_succ_le_succ hfuel)
      have hword := expr_word d hargs.1 false (wordArguments args) ts es
      have hcomma : punct "," ⟨.punct ',' false :: wordArguments args, .word a :: ts, es⟩ =
        some ((), ⟨wordArguments args, .punct ',' false :: .word a :: ts, es⟩) := rfl
      have htokens : wordArguments (a :: args) =
        .word a :: .punct ',' false :: wordArguments args := rfl
      have hgoes (t : Token) (xs : List Token) : Test.atEnd (t :: xs) = false := rfl
      refine ⟨.node .plain [] :: parts, taken, ?_⟩
      rw [htokens, separatedBy, peek_bind]
      simp only [hgoes, Bool.false_eq_true, ↓reduceIte]
      rw [bind_of_eq_some hword, peek_bind]
      simp only [hgoes, Bool.false_eq_true, ↓reduceIte]
      rw [bind_of_eq_some hcomma, bind_of_eq_some hmore]
      rfl
  refine hloop _ (Nat.le_trans ?_ (Token.length_le_sizeAll _))
  clear hloop hargs
  induction args with
  | nil => exact Nat.le_refl 0
  | cons a args ih =>
    simp only [wordArguments, List.flatMap_cons, List.length_append, List.length_cons,
      List.length_nil] at ih ⊢
    omega

/-- A tuple of names, or the unit value. -/
theorem parenExpr_words (d : Nat) (args : List String)
    (hargs : ∀ a ∈ args, Test.keywords.contains a = false) (ts : List Token) (es : List Expr) :
    ∃ e taken, (ofDepth (d + 2)).parenExpr ⟨[.group .paren (wordArguments args)], ts, es⟩ =
      some (e, ⟨[], taken, es⟩) ∧ (e = .unit ∨ ∃ parts, e = .node .plain parts) := by
  cases args with
  | nil => exact ⟨.unit, _, rfl, .inl rfl⟩
  | cons a args =>
    rw [List.forall_mem_cons] at hargs
    have htokens : wordArguments (a :: args) =
      .word a :: .punct ',' false :: wordArguments args := rfl
    have hgoes (t : Token) (xs : List Token) : Test.atEnd (t :: xs) = false := rfl
    have hword := expr_word d hargs.1 false (wordArguments args) [] es
    have hcomma : punct "," ⟨.punct ',' false :: wordArguments args, [.word a], es⟩ =
      some ((), ⟨wordArguments args, [.punct ',' false, .word a], es⟩) := rfl
    obtain ⟨parts, taken, hmore⟩ := exprList_words d args hargs.2 [.punct ',' false, .word a] es
    refine ⟨.node .plain (.node .plain [] :: parts), .group .paren taken.reverse :: ts,
      group_apply ?_, .inr ⟨_, rfl⟩⟩
    rw [htokens, peek_bind]
    simp only [hgoes, Bool.false_eq_true, ↓reduceIte]
    rw [bind_of_eq_some hword, peek_bind]
    simp only [hgoes, Bool.false_eq_true, ↓reduceIte]
    rw [bind_of_eq_some hcomma, bind_of_eq_some hmore]
    rfl

private theorem expr_words (d : Nat) (args : List String)
    (hargs : ∀ a ∈ args, Test.keywords.contains a = false) (ts : List Token) (es : List Expr) :
    ∃ e taken, (ofDepth (d + 4)).expr true ⟨[.group .paren (wordArguments args)], ts, es⟩ =
      some (e, ⟨[], taken, es⟩) := by
  obtain ⟨e, taken, hparen, he⟩ := parenExpr_words d args hargs ts es
  refine ⟨e, taken, ?_⟩
  have hunary : (ofDepth (d + 3)).unary true ⟨[.group .paren (wordArguments args)], ts, es⟩ =
      some (e, ⟨[], taken, es⟩) := by
    refine unaryRule_atom rfl rfl rfl hparen ?_
    obtain rfl | ⟨parts, rfl⟩ := he <;> rfl
  refine (bind_of_eq_some hunary _).trans ?_
  obtain rfl | ⟨parts, rfl⟩ := he <;> rfl

/-- A tuple of names is the only argument of a call. -/
theorem exprList_tuple (d : Nat) (args : List String)
    (hargs : ∀ a ∈ args, Test.keywords.contains a = false) (ts : List Token) (es : List Expr) :
    ∃ parts taken, (ofDepth (d + 4)).exprList ⟨[.group .paren (wordArguments args)], ts, es⟩ =
      some (parts, ⟨[], taken, es⟩) := by
  obtain ⟨e, taken, hexpr⟩ := expr_words d args hargs ts es
  refine ⟨[e], taken, ?_⟩
  have hlist : (ofDepth (d + 4)).exprList ⟨[.group .paren (wordArguments args)], ts, es⟩ =
      ((ofDepth (d + 4)).expr true >>= fun e ↦ do
        if ← peek Test.atEnd then
          return [e]
        punct ","
        let as ← separatedBy "," Test.atEnd ((ofDepth (d + 4)).expr true)
          (Token.sizeAll [.group .paren (wordArguments args)])
        return e :: as) ⟨[.group .paren (wordArguments args)], ts, es⟩ := rfl
  rw [hlist, bind_of_eq_some hexpr]
  rfl

/-! ### The call of a function through its wrapper -/

variable {name : String} {args : List String}

/-- A method that is called with a type and a tuple of names. -/
def selectionTokens (T : List Token) (args : List String) : List Token :=
  .punct '.' false :: .word "call_as" ::
    (angleStart true ++
      (T ++ [.punct '>' false, .group .paren [.group .paren (wordArguments args)]]))

/-- The method is called on what a function of a module returns. -/
def wrapperCall (name : String) (T : List Token) (args : List String) : List Token :=
  .word name :: .punct ':' true :: .punct ':' false :: .word "function" :: .group .paren [] ::
    selectionTokens T args

private theorem path_wrapperCall (hname : Test.keywords.contains name = false) (ts : List Token) :
    ∃ shape taken, g.path true ⟨wrapperCall name T args, ts, []⟩ =
      some (shape, ⟨.group .paren [] :: selectionTokens T args, taken, []⟩) := by
  let called := Token.group .paren [] :: selectionTokens T args
  let more := Token.punct ':' true :: .punct ':' false :: .word "function" :: called
  let taken := Token.word "function" :: .punct ':' false :: .punct ':' true :: .word name :: ts
  have htokens : wrapperCall name T args = .word name :: more := rfl
  have hrooted : punct? "::" ⟨.word name :: more, ts, []⟩ = some (false, _) := rfl
  have hsegment : (do punct "::"; g.pathSegment true) ⟨more, .word name :: ts, []⟩ =
      some (("function", false, true), ⟨called, taken, []⟩) := rfl
  have hmore : g.morePathSegments true ⟨more, .word name :: ts, []⟩ =
      some ([("function", false, true)], ⟨called, taken, []⟩) :=
    repeatWhile_once rfl hsegment rfl (List.cons_ne_nil _ _)
  refine ⟨pathShape false false (name, false, true) [("function", false, true)], taken, ?_⟩
  rw [htokens, path, bind_of_eq_some hrooted, bind_of_eq_some (pathSegment_name hname rfl ts []),
    bind_of_eq_some hmore]
  rfl

private theorem selection_apply (hT : (ofDepth (d + 4)).ReadsType T)
    (hargs : ∀ a ∈ args, Test.keywords.contains a = false) (e : Expr) (ts : List Token)
    (es : List Expr) :
    ∃ parts taken, (ofDepth (d + 4)).selection e ⟨selectionTokens T args, ts, es⟩ =
      some (.node .plain parts, ⟨[], taken, es⟩) := by
  let last := Token.group .paren [.group .paren (wordArguments args)]
  let behind := Token.word "call_as" :: .punct '.' false :: ts
  obtain ⟨taken, found, hangle⟩ := angleArguments_type hT true [last] behind
  obtain ⟨parts, inside, hlist⟩ := exprList_tuple d args hargs [] es
  have hfound : collect (do let _ ← (ofDepth (d + 4)).angleArguments)
      ⟨angleStart true ++ (T ++ [.punct '>' false, last]), behind, es⟩ =
        some (((), found.reverse), ⟨[last], taken, es⟩) := by
    simp only [collect, bind_apply, hangle, Option.bind_some]
    rfl
  have hselection : (ofDepth (d + 4)).selection e ⟨selectionTokens T args, ts, es⟩ =
    (collect (do let _ ← (ofDepth (d + 4)).angleArguments) >>= fun p ↦ do
      let args ← group .paren (ofDepth (d + 4)).exprList
      return .node .plain (e :: p.2 ++ args))
        ⟨angleStart true ++ (T ++ [.punct '>' false, last]), behind, es⟩ := rfl
  refine ⟨e :: found.reverse ++ parts, .group .paren inside.reverse :: taken, ?_⟩
  rw [hselection, bind_of_eq_some hfound]
  exact bind_of_eq_some (group_apply hlist) _

private theorem applied_apply (hT : (ofDepth (d + 4)).ReadsType T)
    (hargs : ∀ a ∈ args, Test.keywords.contains a = false) (ts : List Token) (es : List Expr) :
    ∃ parts taken, (ofDepth (d + 4)).applied (.node .plain [])
      ⟨.group .paren [] :: selectionTokens T args, ts, es⟩ =
        some (.node .plain parts, ⟨[], taken, es⟩) := by
  obtain ⟨parts, taken, hselection⟩ :=
    selection_apply hT hargs (.node .plain [.node .plain []]) (.group .paren [] :: ts) es
  -- The call, the selection and the end take a round each.
  obtain ⟨n, hn⟩ : ∃ n, Token.sizeAll (.group .paren [] :: selectionTokens T args) = n + 2 :=
    Nat.exists_eq_add_of_le' (Nat.le_trans (by simp [selectionTokens]) (Token.length_le_sizeAll _))
  refine ⟨parts, taken, ?_⟩
  have hcall : (ofDepth (d + 4)).applications (n + 3) (.node .plain [])
      ⟨.group .paren [] :: selectionTokens T args, ts, es⟩ =
    ((ofDepth (d + 4)).selection (.node .plain [.node .plain []]) >>=
      (ofDepth (d + 4)).applications (n + 1))
        ⟨selectionTokens T args, .group .paren [] :: ts, es⟩ := rfl
  rw [applied, bounded_apply, hn, hcall]
  exact bind_of_eq_some hselection _

private theorem unaryRule_wrapperCall (hT : (ofDepth (d + 4)).ReadsType T)
    (hname : Test.keywords.contains name = false)
    (hargs : ∀ a ∈ args, Test.keywords.contains a = false) (ts : List Token) (es : List Expr) :
    ∃ parts taken, (ofDepth (d + 4)).unaryRule true ⟨wrapperCall name T args, ts, es⟩ =
      some (.node .plain parts, ⟨[], taken, es⟩) := by
  obtain ⟨shape, behind, hpath⟩ :
      ∃ shape taken, (ofDepth (d + 4)).path true ⟨wrapperCall name T args, ts, []⟩ =
        some (shape, ⟨.group .paren [] :: selectionTokens T args, taken, []⟩) :=
    path_wrapperCall hname ts
  obtain ⟨parts, taken, happlied⟩ := applied_apply hT hargs behind es
  exact ⟨parts, taken, unaryRule_atom rfl rfl rfl
    ((atom_word hname rfl ts es).trans (pathExpr_path hpath rfl rfl es)) happlied⟩

private theorem earlyRule_wrapperCall (hT : (ofDepth (d + 4)).ReadsType T)
    (hname : Test.keywords.contains name = false)
    (hargs : ∀ a ∈ args, Test.keywords.contains a = false) (ts : List Token) (es : List Expr) :
    ∃ parts taken, (ofDepth (d + 6)).early ⟨wrapperCall name T args, ts, es⟩ =
      some (.node .plain parts, ⟨[], taken, es⟩) := by
  obtain ⟨parts, taken, hunary⟩ := unaryRule_wrapperCall hT hname hargs ts es
  refine ⟨parts, taken, ?_⟩
  have hattributes : (ofDepth (d + 5)).exprAttributes ⟨wrapperCall name T args, ts, es⟩ =
      some ((false, []), ⟨wrapperCall name T args, ts, es⟩) := rfl
  have hblock : Test.any [Test.oneOf ["if", "while", "loop", "match", "unsafe"], startsTry,
      Test.butNot (Test.word "for") startsBinder,
      Test.and (Test.word "const") (Test.second Test.brace), Test.brace, Test.lifetime]
      (wrapperCall name T args) = false := by
    have hword (w : String) (hw : Test.keywords.contains w = true) :
      Test.word w (wrapperCall name T args) = false := Test.word_keyword hw hname
    have honeOf : Test.oneOf ["if", "while", "loop", "match", "unsafe"]
      (wrapperCall name T args) = false := Test.oneOf_keywords (by decide) hname
    simp only [Test.any, List.any_cons, List.any_nil, startsTry, Test.and, Test.butNot, honeOf,
      hword "try" (by decide), hword "for" (by decide), hword "const" (by decide),
      Bool.false_and, Bool.false_or]
    rfl
  have hunary : (ofDepth (d + 5)).unary true ⟨wrapperCall name T args, ts, es⟩ =
    some (.node .plain parts, ⟨[], taken, es⟩) := hunary
  have hearly : (ofDepth (d + 6)).early = (ofDepth (d + 5)).earlyRule := rfl
  rw [hearly, earlyRule, bind_of_eq_some hattributes]
  dsimp only
  simp only [↓peek_bind, hblock, Bool.false_eq_true, ↓reduceIte]
  rw [bind_of_eq_some hunary]
  rfl

/-- A call is no macro invocation. -/
theorem pathStart_wrapperCall (hname : Test.keywords.contains name = false) (ts : List Token)
    (es : List Expr) :
    pathStart ⟨wrapperCall name T args, ts, es⟩ = none := by
  let called := Token.group .paren [] :: selectionTokens T args
  let more := Token.punct ':' true :: .punct ':' false :: .word "function" :: called
  have hrooted : punct? "::" ⟨.word name :: more, ts, es⟩ = some (false, _) := rfl
  have hfirst : simplePath.segment ⟨.word name :: more, ts, es⟩ =
      some (name, ⟨more, .word name :: ts, es⟩) := by
    have htest : Test.or Test.ident (Test.oneOf ["super", "self", "Self", "crate"])
      (.word name :: more) = true := by rw [Test.or, Test.ident_word hname, Bool.true_or]
    simp only [simplePath.segment, bind_apply, require, htest, if_true, Option.bind_some]
    rfl
  have hsegment : (do punct "::"; simplePath.segment) ⟨more, .word name :: ts, es⟩ =
      some ("function", ⟨called, _, es⟩) := rfl
  have hmore : repeatWhile (Test.punct "::") (do punct "::"; simplePath.segment)
      ⟨more, .word name :: ts, es⟩ = some (["function"], ⟨called, _, es⟩) :=
    repeatWhile_once rfl hsegment rfl (List.cons_ne_nil _ _)
  have htokens : wrapperCall name T args = .word name :: more := rfl
  rw [htokens, pathStart, simplePath, bind_assoc, bind_of_eq_some hrooted, bind_assoc,
    bind_of_eq_some hfirst, bind_assoc, bind_of_eq_some hmore]
  rfl

private theorem startsItem_wrapperCall (hname : Test.keywords.contains name = false)
    (args : List String) : startsItem (wrapperCall name T args) = false := by
  have hword (w : String) (hw : Test.keywords.contains w = true) :
    Test.word w (wrapperCall name T args) = false := Test.word_keyword hw hname
  have honeOf : Test.oneOf ["pub", "extern", "use", "fn", "mod", "type", "struct", "enum", "trait",
    "impl", "macro"] (wrapperCall name T args) = false := Test.oneOf_keywords (by decide) hname
  have hident : Test.second Test.ident (wrapperCall name T args) = false := rfl
  have htrait : Test.second (Test.word "trait") (wrapperCall name T args) = false := rfl
  have himpl : Test.second (Test.oneOf ["unsafe", "impl"]) (wrapperCall name T args) = false := rfl
  simp only [startsItem, Test.any, List.any_cons, List.any_nil, Test.and, Test.butNot, honeOf,
    hword "crate" (by decide), hword "static" (by decide), hword "const" (by decide),
    hword "unsafe" (by decide), hword "async" (by decide), hident, htrait, himpl, Bool.false_and,
    Bool.and_false, Bool.or_false]

private theorem stmt_wrapperCall (hT : (ofDepth (d + 4)).ReadsType T)
    (hname : Test.keywords.contains name = false)
    (hargs : ∀ a ∈ args, Test.keywords.contains a = false) (ts : List Token) (es : List Expr) :
    ∃ s taken, (ofDepth (d + 6)).stmt ⟨wrapperCall name T args, ts, es⟩ =
      some (s, ⟨[], taken, es⟩) := by
  obtain ⟨parts, taken, hearly⟩ := earlyRule_wrapperCall hT hname hargs ts es
  have hattributes : collect (ofDepth (d + 6)).outerAttributes ⟨wrapperCall name T args, ts, es⟩ =
      some (([], []), ⟨wrapperCall name T args, ts, es⟩) := rfl
  have hstart : lookahead pathStart ⟨wrapperCall name T args, ts, es⟩ =
      some (none, ⟨wrapperCall name T args, ts, es⟩) := by
    simp only [lookahead, pathStart_wrapperCall hname, Option.map_none]
  have hlet : Test.word "let" (wrapperCall name T args) = false :=
    Test.word_keyword (by decide) hname
  have hitem := startsItem_wrapperCall (T := T) hname args
  refine ⟨stmtOf [] (.node .plain parts) false, taken, ?_⟩
  rw [stmt, bind_of_eq_some hattributes]
  dsimp only
  rw [bind_of_eq_some hstart]
  simp only [Option.getD_none, reduceCtorEq, ↓reduceIte, ↓peek_bind, hlet, hitem, Bool.or_false,
    Bool.false_eq_true, decide_false, exprStmt]
  rw [bind_of_eq_some hearly]
  rfl

/-- The call alone is the only statement of a block. -/
theorem statements_wrapperCall (hT : (ofDepth (d + 4)).ReadsType T)
    (hname : Test.keywords.contains name = false)
    (hargs : ∀ a ∈ args, Test.keywords.contains a = false) (ts : List Token) (es : List Expr) :
    ∃ body taken, (ofDepth (d + 7)).statements ⟨wrapperCall name T args, ts, es⟩ =
      some (body, ⟨[], taken, es⟩) := by
  obtain ⟨s, taken, hstmt⟩ := stmt_wrapperCall hT hname hargs ts es
  refine ⟨[s], taken, ?_⟩
  have hstatements : (ofDepth (d + 7)).statements ⟨wrapperCall name T args, ts, es⟩ =
      ((ofDepth (d + 6)).stmt >>= fun s ↦ do
        if ← peek Test.atEnd then
          return [s]
        if lacksSemicolon s then
          failure
        return s :: (← (ofDepth (d + 6)).statementList (Token.sizeAll (wrapperCall name T args))))
          ⟨wrapperCall name T args, ts, es⟩ := rfl
  rw [hstatements, bind_of_eq_some hstmt]
  rfl

end Grammar

end GuestBridge.Host
