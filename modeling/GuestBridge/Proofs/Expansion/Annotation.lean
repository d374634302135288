import GuestBridge.Proofs.Expansion.Agreement

/-!
# What can be expanded

An annotated function is expanded exactly if the annotation is well formed, the function is
neither generic nor asynchronous and has at most twelve parameters, all of them plain names, and
its body carries guest code.
-/

namespace GuestBridge

open Host Reader

/-! ### Readers that succeed -/

namespace Host.Reader

variable {c c' : Cursor}

private theorem rest_takeIf {t : Test} {token : Token} (h : takeIf t c = some (token, c')) :
    c.rest = token :: c'.rest ∧ t c.rest = true := by
  obtain ⟨_ | ⟨token, rest⟩, taken, embedded⟩ := c
  · cases h
  · obtain ⟨htest, h⟩ := Option.ite_none_right_eq_some.1 h
    cases h
    exact ⟨rfl, htest⟩

private theorem rest_anyWord {w : String} (h : anyWord c = some (w, c')) :
    c.rest = .word w :: c'.rest := by
  obtain ⟨token, c₁, htoken, h⟩ := of_bind h
  cases token with
  | word text =>
    cases h
    exact (rest_takeIf htoken).1
  | _ => cases h

private theorem rest_punct {s : String} {p : Char} (hs : s.toList = [p])
    (h : punct s c = some ((), c')) :
    ∃ joint, c.rest = .punct p joint :: c'.rest := by
  obtain ⟨_, c₁, hrequire, h⟩ := of_bind h
  obtain ⟨htest, hsame⟩ := Option.ite_none_right_eq_some.1 hrequire
  cases hsame
  rw [← String.length_toList, hs] at h
  obtain ⟨token, c₂, htoken, h⟩ := of_bind h
  cases h
  obtain ⟨hrest, -⟩ := rest_takeIf htoken
  rw [Test.punct, hs, hrest] at htest
  cases token with
  | punct d joint =>
    obtain rfl := of_decide_eq_true htest
    exact ⟨joint, hrest⟩
  | _ => cases htest

private theorem eq_of_punct? {s : String} (h : punct? s c = some (false, c')) : c' = c := by
  unfold punct? at h
  obtain ⟨_, c₁, hpeek, h⟩ := of_bind h
  cases hpeek
  rw [ite_reader] at h
  split at h
  · obtain ⟨_, c₂, -, h⟩ := of_bind h
    cases h
  · cases h
    rfl

private theorem eq_of_repeatWhile {α : Type} {t : Test} {r : Reader α}
    (h : repeatWhile t r c = some ([], c')) : c' = c := by
  unfold repeatWhile bounded at h
  obtain ⟨_, c₁, hahead, h⟩ := of_bind h
  cases hahead
  unfold whileTest at h
  obtain ⟨_, c₂, hpeek, h⟩ := of_bind h
  cases hpeek
  rw [ite_reader] at h
  split at h
  · obtain ⟨a, c₃, -, h⟩ := of_bind h
    obtain ⟨as, c₄, -, h⟩ := of_bind h
    cases h
  · cases h
    rfl

end Host.Reader

namespace Expansion

/-! ### Annotations -/

/-- A well-formed annotation and the name it gives, as written: there are no arguments, or each is
a name given by a string literal. Commas stand between the arguments, and one may stand behind the
last, which is the one that counts. -/
inductive Annotation : Option String → List Token → Prop
  | bare : Annotation none []
  | last {literal : String} (joint : Bool) (h : (StringLiteral.value? literal).isSome) :
    Annotation (some literal) [.word "name", .punct '=' joint, .literal literal]
  | closed {literal : String} (joint joint' : Bool) (h : (StringLiteral.value? literal).isSome) :
    Annotation (some literal)
      [.word "name", .punct '=' joint, .literal literal, .punct ',' joint']
  | more {literal : String} {given : Option String} {ts : List Token} (joint joint' : Bool)
    (h : (StringLiteral.value? literal).isSome) (hts : ts ≠ []) (hmore : Annotation given ts) :
    Annotation given
      (.word "name" :: .punct '=' joint :: .literal literal :: .punct ',' joint' :: ts)

/-! ### Reading annotations -/

variable {c c' : Cursor} {ts : List Token} {given : Option String}

private theorem rest_argumentPath {w : String} (h : argumentPath c = some (some w, c')) :
    c.rest = .word w :: c'.rest := by
  obtain ⟨rooted, c₁, hrooted, h⟩ := of_bind h
  obtain ⟨first, c₂, hfirst, h⟩ := of_bind h
  obtain ⟨more, c₃, hmore, h⟩ := of_bind h
  obtain ⟨hplain, hc⟩ := Prod.mk.inj (Option.some.inj h)
  obtain ⟨hnone, rfl⟩ : ¬(rooted || !more.isEmpty) = true ∧ first = w := by
    split at hplain
    next => cases hplain
    next hnone => exact ⟨hnone, Option.some.inj hplain⟩
  simp only [Bool.or_eq_true, Bool.not_eq_true', not_or, Bool.not_eq_false, Bool.not_eq_true,
    List.isEmpty_iff] at hnone
  obtain ⟨rfl, rfl⟩ := hnone
  rw [← hc, ← eq_of_punct? hrooted, eq_of_repeatWhile hmore]
  exact rest_anyWord hfirst

/-- An argument that is read is a name given by a string literal. -/
theorem rest_argument {literal : String} (h : argument c = some (some literal, c')) :
    (StringLiteral.value? literal).isSome = true ∧
      ∃ joint, c.rest = .word "name" :: .punct '=' joint :: .literal literal :: c'.rest := by
  obtain ⟨path, c₁, hpath, h⟩ := of_bind h
  rw [ite_reader] at h
  split at h
  · cases h
  next hname =>
    obtain rfl : path = some "name" := Decidable.not_not.1 hname
    obtain ⟨_, c₂, hequals, h⟩ := of_bind h
    obtain ⟨token, c₃, htoken, h⟩ := of_bind h
    obtain ⟨hrest, hstring⟩ := rest_takeIf htoken
    obtain ⟨joint, hequals⟩ := rest_punct (p := '=') (by decide) hequals
    cases token with
    | literal text =>
      cases h
      rw [hrest] at hstring hequals
      exact ⟨hstring, joint, by rw [rest_argumentPath hpath, hequals]⟩
    | _ => cases h

/-- A name given by a string literal is read as an argument. -/
theorem argument_name {joint : Bool} {literal : String} {taken : List Token}
    {embedded : List Expr} (h : (StringLiteral.value? literal).isSome = true) :
    argument ⟨.word "name" :: .punct '=' joint :: .literal literal :: ts, taken, embedded⟩ =
      some (some literal,
        ⟨ts, .literal literal :: .punct '=' joint :: .word "name" :: taken, embedded⟩) := by
  have hpath : argumentPath ⟨.word "name" :: .punct '=' joint :: .literal literal :: ts, taken,
      embedded⟩ =
        some (some "name", ⟨.punct '=' joint :: .literal literal :: ts, .word "name" :: taken,
          embedded⟩) := rfl
  have hequals : punct "=" ⟨.punct '=' joint :: .literal literal :: ts, .word "name" :: taken,
      embedded⟩ = some ((), ⟨.literal literal :: ts, .punct '=' joint :: .word "name" :: taken,
          embedded⟩) := rfl
  have hliteral : takeIf Test.string ⟨.literal literal :: ts,
      .punct '=' joint :: .word "name" :: taken, embedded⟩ = some (.literal literal,
        ⟨ts, .literal literal :: .punct '=' joint :: .word "name" :: taken, embedded⟩) := if_pos h
  rw [argument, bind_apply, hpath]
  dsimp only [Option.bind_some]
  rw [if_neg (by decide), bind_apply, hequals]
  dsimp only [Option.bind_some]
  rw [bind_apply, hliteral]
  rfl

/-- What arguments are read from is a well-formed annotation. -/
theorem annotation_of_arguments {fuel : Nat} (h : arguments fuel c = some (.ok given, c')) :
    Annotation given c.rest := by
  induction fuel generalizing c with
  | zero => cases h
  | succ fuel ih =>
    obtain ⟨literal?, c₁, hargument, h⟩ := of_bind h
    cases literal? with
    | none => cases h
    | some literal =>
      obtain ⟨hstring, joint, hrest⟩ := rest_argument hargument
      obtain ⟨_, c₂, hpeek, h⟩ := of_bind h
      cases hpeek
      rw [ite_reader] at h
      split at h
      next hend =>
        cases h
        rw [hrest, List.isEmpty_iff.1 hend]
        exact .last joint hstring
      next =>
        obtain ⟨_, c₃, hcomma, h⟩ := of_bind h
        obtain ⟨joint', hcomma⟩ := rest_punct (p := ',') (by decide) hcomma
        obtain ⟨_, c₄, hpeek, h⟩ := of_bind h
        cases hpeek
        rw [ite_reader] at h
        rw [hrest, hcomma]
        split at h
        next hend =>
          cases h
          rw [List.isEmpty_iff.1 hend]
          exact .closed joint joint' hstring
        next hmore =>
          refine .more joint joint' hstring (fun hnil ↦ hmore ?_) (ih h)
          exact List.isEmpty_iff.2 hnil

/-- A well-formed annotation with arguments is read. -/
theorem Annotation.arguments {fuel : Nat} (h : Annotation given ts) (hts : ts ≠ [])
    (hfuel : ts.length < fuel) (taken : List Token) (embedded : List Expr) :
    ∃ c', arguments fuel ⟨ts, taken, embedded⟩ = some (.ok given, c') := by
  induction h generalizing fuel taken with
  | bare => exact absurd rfl hts
  | last joint hstring =>
    obtain _ | fuel := fuel
    · cases hfuel
    rw [Expansion.arguments, bind_apply, argument_name hstring]
    exact ⟨_, rfl⟩
  | closed joint joint' hstring =>
    obtain _ | fuel := fuel
    · cases hfuel
    rw [Expansion.arguments, bind_apply, argument_name hstring]
    exact ⟨_, rfl⟩
  | @more literal given ts joint joint' hstring hmore _ ih =>
    obtain _ | fuel := fuel
    · cases hfuel
    have hfuel : ts.length < fuel := by
      simp only [List.length_cons] at hfuel
      omega
    obtain ⟨c', hc'⟩ := ih hmore hfuel
      (.punct ',' joint' :: .literal literal :: .punct '=' joint :: .word "name" :: taken)
    refine ⟨c', ?_⟩
    rw [Expansion.arguments, bind_apply, argument_name hstring]
    obtain ⟨t, ts, rfl⟩ := List.exists_cons_of_ne_nil hmore
    exact hc'

private theorem nameArgument_eq_ok_iff : nameArgument ts = .ok given ↔ Annotation given ts := by
  unfold nameArgument
  cases ts with
  | nil =>
    constructor
    · intro h
      cases h
      exact .bare
    · intro h
      cases h
      rfl
  | cons t ts =>
    rw [if_neg (by simp)]
    constructor
    · intro h
      split at h
      next result c' harguments =>
        cases h
        exact annotation_of_arguments harguments
      next => cases h
    · intro h
      obtain ⟨c', hc'⟩ := h.arguments (by simp) (Nat.lt_add_one _) [] []
      rw [hc']

/-! ### Findings -/

/-- What is found in an annotated function. -/
structure Finding where
  item : FnItem
  host : HostFunction
  /-- The guest code. -/
  code : String
  /-- The literal that names the function in the guest. -/
  given : Option String

namespace Finding

variable {f : Finding} {marker : List Token} {item : FnItem} {x : Expansion}

/-- What makes a function one that is expanded. -/
structure Fits (f : Finding) (marker : List Token) : Prop where
  annotation : Annotation f.given marker
  specific : f.item.isGeneric = false
  synchronous : f.item.isAsync = false
  arity : f.item.params.length ≤ 12
  host : HostFunction.ofItem f.item = .ok f.host
  code : f.host.source = .ok f.code

/-- The expansion is written from what was found. -/
structure Fills (f : Finding) (x : Expansion) : Prop where
  item : x.item = f.item
  params : f.item.params = x.params.map plainParam
  names : f.host.params = x.params.map fun p ↦ unraw p.1
  result : x.result = f.item.result.getD [.group .paren []]
  source : x.source = f.code
  doc : x.doc = f.host.doc
  given : x.guestName = f.given

/-- A plan is made from a finding. -/
theorem exists_of_plan (h : plan marker item = .ok x) :
    ∃ f : Finding, f.item = item ∧ f.Fits marker ∧ f.Fills x := by
  obtain ⟨given, hgiven, hspecific, hsynchronous, harity, params, hparams, host, hhost, code, hcode,
    rfl⟩ := plan_eq_ok_iff.1 h
  obtain ⟨-, -, hnames, -⟩ := HostFunction.ofItem_eq_ok hhost
  obtain ⟨hplain, hnames⟩ := paramNames_eq hparams hnames
  refine ⟨⟨item, host, code, given⟩, rfl, ?_, ⟨rfl, hplain, hnames, rfl, rfl, rfl, rfl⟩⟩
  exact ⟨nameArgument_eq_ok_iff.1 hgiven, hspecific, hsynchronous, harity, hhost, hcode⟩

/-- The name of a host function that fits is the one its item gives it. -/
theorem Fits.name_eq (h : f.Fits marker) : f.host.name = f.item.hostName :=
  (HostFunction.ofItem_eq_ok h.host).2.1

/-- There is a plan for every finding that fits. -/
theorem Fits.exists_plan (h : f.Fits marker) : ∃ x, plan marker f.item = .ok x ∧ f.Fills x := by
  obtain ⟨-, -, hnames, -⟩ := HostFunction.ofItem_eq_ok h.host
  obtain ⟨params, hparams, hnames⟩ := exists_plainParams hnames
  have hnamed : f.item.params.mapM namedParam = .ok params := by
    rw [hparams, namedParam_plainParam]
  refine ⟨_, plan_eq_ok_iff.2 ⟨f.given, nameArgument_eq_ok_iff.2 h.annotation, h.specific,
    h.synchronous, h.arity, params, hnamed, f.host, h.host, f.code, h.code, rfl⟩, ?_⟩
  exact ⟨rfl, hparams, hnames, rfl, rfl, rfl, rfl⟩

end Finding

end Expansion

end GuestBridge
