import GuestBridge.Expansion.Written
import GuestBridge.Proofs.Expansion.Agreement
import GuestBridge.Proofs.Host.Reread.Signatures

/-!
# Reading the function of an expansion again

The function that takes the place of an annotated item is an item with the same name, visibility
and parameters wherever the attributes all stand in front of the item and no parameter is named
like a receiver.
-/

namespace GuestBridge.Expansion

open Host Reader Grammar

variable {d : Nat} {x : Expansion}

/-! ### Parameters -/

/-- A parameter as it is written: its name with its type. -/
def writtenParam (p : String × List Token) : List Token :=
  .word p.1 :: .punct ':' false :: p.2

/-- What is written behind a parameter. -/
def furtherParams : List (String × List Token) → List Token
  | [] => []
  | p :: ps => .punct ',' false :: separated ((p :: ps).map writtenParam)

private theorem separated_cons (p : String × List Token) (ps : List (String × List Token)) :
    separated ((p :: ps).map writtenParam) = writtenParam p ++ furtherParams ps := by
  cases ps with
  | nil => exact (List.append_nil _).symm
  | cons q ps =>
    have hmark : mark "," = [.punct ',' false] := rfl
    simp [separated, furtherParams, hmark]

private theorem closer_furtherParams (ps : List (String × List Token)) :
    Closer (furtherParams ps) := by
  cases ps with
  | nil => exact .nil
  | cons p ps => exact .comma

private theorem where_furtherParams (ps : List (String × List Token)) :
    Test.word "where" (furtherParams ps) = false := by
  cases ps <;> rfl

section

variable {g : Grammar} {first : Bool} {fuel : Nat} {a : String} {rest ts : List Token}
  {es : List Expr} {c c' : Cursor}

/-- What is read behind what was declared: only the first parameter is a receiver. -/
def behindDeclared (g : Grammar) (first : Bool) (fuel : Nat) : Option Param → Reader (List Param)
  | none => do
    if !(← peek Test.atEnd) then
      punct ","
    return []
  | some .receiver => if first then g.behindParam .receiver fuel else failure
  | some (.typed shape T) => g.behindParam (.typed shape T) fuel

/-- No attributes and no dots stand in front of a parameter that begins with a word. -/
theorem params_word (g : Grammar) (first : Bool) (fuel : Nat) (a : String)
    (rest ts : List Token) (es : List Expr) :
    g.params first (fuel + 1) ⟨.word a :: rest, ts, es⟩ =
      (g.param >>= behindDeclared g first fuel) ⟨.word a :: rest, ts, es⟩ := by
  have hattributes : g.outerAttributes ⟨.word a :: rest, ts, es⟩ =
    some ([], ⟨.word a :: rest, ts, es⟩) := rfl
  have hdots : punct? "..." ⟨.word a :: rest, ts, es⟩ =
    some (false, ⟨.word a :: rest, ts, es⟩) := rfl
  have hend : Test.atEnd (.word a :: rest) = false := rfl
  rw [Grammar.params]
  simp only [↓peek_bind, hend, Bool.false_eq_true, ↓reduceIte]
  rw [bind_of_eq_some hattributes, bind_of_eq_some hdots]
  simp only [Bool.false_eq_true, ↓reduceIte]
  congr 2
  funext declared
  rcases declared with _ | ⟨shape, T⟩ | _
  · rfl
  · cases first <;> rfl
  · rfl

/-- A receiver stays one. -/
theorem params_receiver {ps : List Param}
    (hparam : ∀ p c, g.param ⟨.word a :: rest, ts, es⟩ = some (p, c) → p = some .receiver)
    (h : g.params first fuel ⟨.word a :: rest, ts, es⟩ = some (ps, c')) :
    ∃ more, ps = .receiver :: more := by
  cases fuel with
  | zero => cases h
  | succ fuel =>
    rw [params_word] at h
    obtain ⟨p, c₁, hp, h⟩ := of_bind h
    obtain rfl := hparam p c₁ hp
    cases first with
    | false => cases h
    | true =>
      obtain ⟨-, more, rfl, -⟩ := behindParam_eq_some (P := fun _ ↦ True) (fun _ _ _ ↦ trivial) h
      exact ⟨more, rfl⟩

end

/-- A parameter whose name was read, and its type by a grammar that is deep enough. -/
def Writable (d : Nat) (p : String × List Token) : Prop :=
  (Test.keywords.contains p.1 = false ∨ p.1 = "self") ∧ ReadsType (ofDepth (d + 1)) p.2

/-- Behind a parameter, the others are read. -/
theorem behindParam_iff {g : Grammar} {p : Param} {ps : List (String × List Token)} {fuel : Nat}
    {ts : List Token} {es : List Expr} (hps : ps ≠ []) :
    (∃ taken found, g.behindParam p fuel ⟨furtherParams ps, ts, es⟩ =
      some (p :: ps.map plainParam, ⟨[], taken, found⟩)) ↔
    ∃ taken found, g.params false fuel
      ⟨separated (ps.map writtenParam), .punct ',' false :: ts, es⟩ =
        some (ps.map plainParam, ⟨[], taken, found⟩) := by
  obtain ⟨q, ps, rfl⟩ := List.exists_cons_of_ne_nil hps
  have hbehind : g.behindParam p fuel ⟨furtherParams (q :: ps), ts, es⟩ =
    (do return p :: (← g.params false fuel) : Reader (List Param))
      ⟨separated ((q :: ps).map writtenParam), .punct ',' false :: ts, es⟩ := rfl
  rw [hbehind]
  constructor
  · rintro ⟨taken, found, h⟩
    obtain ⟨more, c₁, hmore, h⟩ := of_bind h
    cases h
    exact ⟨taken, found, hmore⟩
  · rintro ⟨taken, found, h⟩
    exact ⟨taken, found, bind_of_eq_some h _⟩

/-- Parameters that are written are read as they are, if none is named like a receiver. -/
theorem params_separated_iff {ps : List (String × List Token)} (hps : ∀ p ∈ ps, Writable d p)
    {fuel : Nat} (hfuel : ps.length < fuel) (first : Bool) (ts : List Token) (es : List Expr) :
    (∃ taken found, (ofDepth (d + 1)).params first fuel
      ⟨separated (ps.map writtenParam), ts, es⟩ = some (ps.map plainParam, ⟨[], taken, found⟩)) ↔
        ∀ p ∈ ps, p.1 ≠ "self" := by
  induction ps generalizing fuel first ts with
  | nil =>
    cases fuel with
    | zero => cases hfuel
    | succ fuel => exact iff_of_true ⟨ts, es, rfl⟩ (List.forall_mem_nil _)
  | cons p ps ih =>
    obtain ⟨fuel, rfl⟩ := Nat.exists_eq_add_of_le' (Nat.succ_le_of_lt (Nat.zero_lt_of_lt hfuel))
    obtain ⟨⟨hname, htype⟩, hps⟩ := List.forall_mem_cons.1 hps
    have hend := closer_furtherParams ps
    have hwhere := where_furtherParams ps
    rw [separated_cons, List.forall_mem_cons, writtenParam]
    obtain hname | hself := hname
    · have hplain : p.1 ≠ "self" := by
        intro hself
        rw [hself] at hname
        cases hname
      obtain ⟨taken, hparam⟩ := param_plain htype hname hend hwhere ts es
      rw [and_iff_right hplain, List.cons_append, List.cons_append, params_word,
        bind_of_eq_some hparam, behindDeclared]
      by_cases hnil : ps = []
      · subst hnil
        exact iff_of_true ⟨taken, es, rfl⟩ (List.forall_mem_nil _)
      · rw [List.map_cons, ← ih hps (Nat.lt_of_succ_lt_succ hfuel) false]
        exact behindParam_iff hnil
    · refine iff_of_false ?_ fun h ↦ h.1 hself
      rintro ⟨taken, found, h⟩
      have hdots : Test.punct "..." (p.2 ++ furtherParams ps) = false := by
        obtain ⟨shape, found, hread⟩ := htype
        exact (startsType_facts (hread _ hend hwhere).1).2.2
      rw [hself, List.cons_append, List.cons_append] at h
      obtain ⟨more, hmore⟩ := params_receiver (fun p c ↦ param_self hdots) h
      cases hmore

/-! ### The function of an expansion -/

/-- What is written behind the visibility of the function. -/
def signatureTokens (x : Expansion) : List Token :=
  callerSignature x.item.name (separated (x.params.map writtenParam)) x.result
    [.group .brace (wrapperCall x.item.name x.result (x.params.map (·.1)))]

private theorem functionTokens_eq (x : Expansion) : x.functionTokens =
    x.item.attributes.flatMap (·.tokens) ++ x.item.visibility ++ x.signatureTokens := by
  have hcomma : mark "," = [.punct ',' false] := rfl
  have hdot : mark "." = [.punct '.' false] := rfl
  have hcolons : mark "::" = [.punct ':' true, .punct ':' false] := rfl
  have harrow : mark "->" = [.punct '-' true, .punct '>' false] := rfl
  have hopen : mark "<" = [.punct '<' false] := rfl
  have hclose : mark ">" = [.punct '>' false] := rfl
  have hfunction : x.functionTokens = x.item.attributes.flatMap (·.tokens) ++ x.item.visibility ++
      [.word "fn", .word x.item.name] ++ parens (separated (x.params.map writtenParam)) ++
      mark "->" ++ resultOf x.result ++ braces ([.word x.item.name] ++ rooted ["function"] ++
        parens [] ++ mark "." ++ wordList ["call_as"] ++ mark "::" ++ angles x.result ++
        parens (parens (terminated (x.params.map fun p ↦ [.word p.1])))) := rfl
  have harguments : terminated (x.params.map fun p ↦ [.word p.1]) =
      wordArguments (x.params.map (·.1)) := by
    simp only [terminated, wordArguments, hcomma, List.flatMap_map, List.singleton_append]
  rw [hfunction, harguments]
  simp only [signatureTokens, callerSignature, resultTokens, resultOf, rooted, angles, parens,
    braces, wordList, hdot, hcolons, harrow, hopen, hclose, wrapperCall, selectionTokens,
    angleStart, List.flatMap_cons, List.flatMap_nil, List.map_cons, List.map_nil,
    List.append_assoc, List.cons_append, List.nil_append, List.append_nil, Bool.false_eq_true,
    if_true, if_false]

private theorem sizeAll_separated_le (ps : List (String × List Token)) :
    Token.sizeAll (separated (ps.map writtenParam)) ≤ Token.sizeAll (furtherParams ps) := by
  cases ps with
  | nil => exact Nat.le_refl _
  | cons p ps =>
    rw [furtherParams, Token.sizeAll]
    exact Nat.le_add_left _ _

private theorem length_le_sizeAll_separated (ps : List (String × List Token)) :
    ps.length ≤ Token.sizeAll (separated (ps.map writtenParam)) := by
  induction ps with
  | nil => exact Nat.zero_le _
  | cons p ps ih =>
    have hbehind := sizeAll_separated_le ps
    simp only [separated_cons, Token.sizeAll_append, writtenParam, Token.sizeAll, Token.size,
      List.length_cons]
    omega

private theorem sizeAll_type_le {ps : List (String × List Token)} {p : String × List Token}
    (hp : p ∈ ps) :
    Token.sizeAll p.2 ≤ Token.sizeAll (separated (ps.map writtenParam)) := by
  induction ps with
  | nil => cases hp
  | cons q ps ih =>
    have hbehind := sizeAll_separated_le ps
    simp only [separated_cons, Token.sizeAll_append, writtenParam, Token.sizeAll, Token.size]
    obtain rfl | hp := List.mem_cons.1 hp
    · omega
    · have hrest := ih hp
      omega

private theorem sizeAll_signatureTokens_le (x : Expansion) :
    Token.sizeAll x.signatureTokens ≤ Token.sizeAll x.functionTokens := by
  rw [functionTokens_eq, Token.sizeAll_append]
  exact Nat.le_add_left _ _

private theorem all?_eq_some_iff {α : Type} {r : Reader α} {ts : List Token} {a : α} :
    r.all? ts = some a ↔ ∃ taken found, r ⟨ts, [], []⟩ = some (a, ⟨[], taken, found⟩) := by
  unfold Reader.all?
  constructor
  · intro h
    split at h
    next taken found hr =>
      cases h
      exact ⟨taken, found, hr⟩
    next => cases h
  · rintro ⟨taken, found, h⟩
    rw [h]

/-- The unit type is read where types end. -/
theorem readsType_unit (d : Nat) : ReadsType (ofDepth (d + 1)) [.group .paren []] :=
  ⟨.other, [], fun _ _ _ ↦ ⟨rfl, fun _ ↦ rfl⟩⟩

/-- What a planned expansion takes over from what its item was read from. -/
structure Sourced (d : Nat) (c : Cursor) (x : Expansion) : Prop where
  read : (ofDepth d).HasReadFn c x.item
  params : x.item.params = x.params.map plainParam
  result : x.result = x.item.result.getD [.group .paren []]

private theorem exists_sourced {marker text : String} (h : ofText marker text = .ok x) :
    ∃ d c, x.Sourced d c ∧ c.embedded = [] := by
  obtain ⟨hparse, plan, hplan⟩ := ofText_eq_ok h
  obtain ⟨ts, -, htokens⟩ := Option.bind_eq_some_iff.1 hparse
  obtain ⟨taken, found, hitem⟩ := all?_eq_some_iff.1 htokens
  obtain ⟨_, hparams, f, hhost, -⟩ := plan_eq_ok hplan
  obtain ⟨-, -, hnames, -⟩ := HostFunction.ofItem_eq_ok hhost
  obtain ⟨_, -, -, -, -, _, -, _, -, _, -, hx⟩ := plan_eq_ok_iff.1 hplan
  exact ⟨_, ⟨ts, [], []⟩, ⟨fnItem_eq_some hitem, (paramNames_eq hparams hnames).1,
    (congrArg Expansion.result hx).symm⟩, rfl⟩

namespace Sourced

variable {c : Cursor} {d' : Nat}

private theorem hasReadParam (h : x.Sourced d c) {p : String × List Token} (hp : p ∈ x.params) :
    (ofDepth d).HasReadParam (plainParam p) :=
  h.read.signature.params _ (by rw [h.params]; exact List.mem_map_of_mem hp)

private theorem writable (h : x.Sourced d c)
    (hd : 3 * (Token.sizeAll x.signatureTokens + 1) ≤ d' + 1)
    {p : String × List Token} (hp : p ∈ x.params) : Writable d' p := by
  obtain ⟨hname, htype⟩ := h.hasReadParam hp
  have hsize := sizeAll_type_le hp
  refine ⟨hname, htype.readsType (Nat.le_trans ?_ hd)⟩
  simp only [signatureTokens, callerSignature, Token.sizeAll, Token.size]
  omega

private theorem readsType (h : x.Sourced d c)
    (hd : 3 * (Token.sizeAll x.signatureTokens + 1) ≤ d') :
    ReadsType (ofDepth d') x.result := by
  have hsize : Token.sizeAll x.result ≤ Token.sizeAll x.signatureTokens := by
    simp only [signatureTokens, callerSignature, resultTokens, Token.sizeAll, Token.size,
      Token.sizeAll_append]
    omega
  cases hresult : x.item.result with
  | some T =>
    have htype := h.result
    rw [hresult, Option.getD_some] at htype
    rw [htype] at hsize ⊢
    exact (h.read.signature.result T hresult).readsType (by omega)
  | none =>
    have htype := h.result
    rw [hresult, Option.getD_none] at htype
    obtain ⟨d', rfl⟩ := Nat.exists_eq_add_of_le' (by omega : 1 ≤ d')
    rw [htype]
    exact readsType_unit d'

/-- Attributes from the head of a body are the ones that are not outer. -/
theorem isOuter_iff (h : x.Sourced d c) {a : Attr} (ha : a ∈ x.item.attributes) :
    a.IsOuter ↔ a.inner = false := by
  obtain ⟨outer, inner, c', hattributes, hinner, hfront, -⟩ := h.read.attributes
  rw [hattributes, List.mem_append] at ha
  obtain ha | ha := ha
  · obtain ⟨hmark, hshape⟩ := (front_eq_some hfront).2 a ha
    exact iff_of_true hshape hmark
  · obtain ⟨hmark, hshape⟩ := hinner a ha
    exact iff_of_false hshape (by rw [hmark]; exact Bool.noConfusion)

/-- The attributes and the visibility are read again if no attribute stands in the body. -/
theorem front_again (h : x.Sourced d c) (hc : c.embedded = [])
    (hattributes : ∀ a ∈ x.item.attributes, a.inner = false)
    (hd : 3 * Token.sizeAll x.functionTokens ≤ d') :
    ∃ taken found, (ofDepth d').front ⟨x.functionTokens, [], []⟩ =
      some ((x.item.attributes, x.item.visibility), ⟨x.signatureTokens, taken, found⟩) := by
  obtain ⟨outer, inner, c', hsplit, hinner, hfront, hopens⟩ := h.read.attributes
  have hnil : inner = [] := by
    rw [List.eq_nil_iff_forall_not_mem]
    intro a ha
    have hfalse := hattributes a (by rw [hsplit]; exact List.mem_append_right _ ha)
    rw [(hinner a ha).1] at hfalse
    cases hfalse
  rw [hnil, List.append_nil] at hsplit
  rw [functionTokens_eq] at hd ⊢
  rw [hsplit] at hd ⊢
  rw [Token.sizeAll_append] at hd
  have hopens' : opensSignature x.signatureTokens = true := rfl
  obtain ⟨taken, hagain⟩ := Grammar.front_again hfront hopens
    (Nat.le_trans (Nat.mul_le_mul_left 3 (Nat.le_add_right _ _)) hd) hopens' []
  rw [hc] at hagain
  exact ⟨taken, _, hagain⟩

/-- The parameters are read again if none is named like a receiver. -/
theorem params_iff (h : x.Sourced d c) (hd : 3 * (Token.sizeAll x.signatureTokens + 1) ≤ d' + 1)
    (es : List Expr) : (∃ taken found, bounded ((ofDepth (d' + 1)).params true)
      ⟨separated (x.params.map writtenParam), [], es⟩ =
        some (x.item.params, ⟨[], taken, found⟩)) ↔ ∀ p ∈ x.params, p.1 ≠ "self" := by
  rw [h.params, bounded_apply]
  exact params_separated_iff (fun p hp ↦ h.writable hd hp)
    (Nat.lt_succ_of_le (length_le_sizeAll_separated _)) true [] es

private theorem contains_params (h : x.Sourced d c) (hnames : ∀ p ∈ x.params, p.1 ≠ "self") :
    ∀ a ∈ x.params.map (·.1), Test.keywords.contains a = false := by
  intro a ha
  obtain ⟨p, hp, rfl⟩ := List.mem_map.1 ha
  exact (h.hasReadParam hp).1.resolve_right (hnames p hp)

/-- Where the attributes and the parameters are read again, all of the function is. -/
theorem exists_again (h : x.Sourced d c) (hc : c.embedded = [])
    (hattributes : ∀ a ∈ x.item.attributes, a.inner = false)
    (hnames : ∀ p ∈ x.params, p.1 ≠ "self")
    (hd : 3 * (Token.sizeAll x.functionTokens + 1) ≤ d') :
    ∃ again taken found, (ofDepth (d' + 7)).fnItem ⟨x.functionTokens, [], []⟩ =
      some (again, ⟨[], taken, found⟩) ∧ again.name = x.item.name ∧
        again.visibility = x.item.visibility ∧ again.params = x.item.params := by
  have hsize := sizeAll_signatureTokens_le x
  have hname := h.read.signature.name
  obtain ⟨taken, found, hfront⟩ :=
    h.front_again hc hattributes (by omega : 3 * Token.sizeAll x.functionTokens ≤ d' + 7)
  have hbound (k : Nat) : 3 * (Token.sizeAll x.signatureTokens + 1) ≤ d' + k := by omega
  obtain ⟨inside, found', hparams⟩ := (h.params_iff (hbound 7) found).2 hnames
  have hresult : ReadsType (ofDepth (d' + 6)) x.result := h.readsType (hbound 6)
  have hbody : ReadsType (ofDepth (d' + 4)) x.result := h.readsType (hbound 4)
  obtain ⟨result, taken', hsignature⟩ := signature_callerSignature hresult hname hparams taken
  obtain ⟨body, inside', hstatements⟩ :=
    statements_wrapperCall hbody hname (h.contains_params hnames) [] found'
  have hitem := fnItem_of_parts hfront hsignature rfl hstatements
  exact ⟨_, _, _, hitem, rfl, rfl, rfl⟩

/-- Where the function is read with its parameters, none of them is named like a receiver. -/
theorem ne_self_of_again (h : x.Sourced d c) (hc : c.embedded = [])
    (hattributes : ∀ a ∈ x.item.attributes, a.inner = false)
    (hd : 3 * (Token.sizeAll x.functionTokens + 1) ≤ d') {again : FnItem} {c' : Cursor}
    (hagain : (ofDepth (d' + 1)).fnItem ⟨x.functionTokens, [], []⟩ = some (again, c'))
    (hparams : again.params = x.item.params) : ∀ p ∈ x.params, p.1 ≠ "self" := by
  have hsize := sizeAll_signatureTokens_le x
  obtain ⟨taken, found, hfront⟩ :=
    h.front_again hc hattributes (by omega : 3 * Token.sizeAll x.functionTokens ≤ d' + 1)
  obtain ⟨s, c₂, hsignature, hs⟩ := signature_of_fnItem hfront hagain
  obtain ⟨inside, found', hread⟩ := params_of_signature h.read.signature.name hsignature
  rw [hs, hparams] at hread
  exact (h.params_iff (by omega) found).1 ⟨inside, found', hread⟩

end Sourced

/-- The function of an expansion is an item in its own right: what stands in front of it are
attributes of what follows, and all of it is read as one function with the name, the visibility and
the parameters of the annotated item. -/
structure Reparses (x : Expansion) : Prop where
  outer : ∀ a ∈ x.item.attributes, a.IsOuter
  parses : ∃ again, FnItem.ofTokens? x.functionTokens = some again ∧
    again.name = x.item.name ∧ again.visibility = x.item.visibility ∧
      again.params = x.item.params

/-- The function of an expansion is an item like the annotated one exactly if no attribute comes
from the head of its body and no parameter is named like a receiver. -/
theorem ofText_reparses_iff {marker text : String} (h : ofText marker text = .ok x) :
    x.Reparses ↔
      (∀ a ∈ x.item.attributes, a.inner = false) ∧ ∀ p ∈ x.params, p.1 ≠ "self" := by
  obtain ⟨d, c, hsource, hembedded⟩ := exists_sourced h
  obtain ⟨d', hdepth, hd⟩ : ∃ d', 8 * Token.sizeAll x.functionTokens + 16 = d' + 7 ∧
    3 * (Token.sizeAll x.functionTokens + 1) ≤ d' := ⟨_, rfl, by omega⟩
  have hagain {again : FnItem} : FnItem.ofTokens? x.functionTokens = some again ↔
      ∃ taken found, (ofDepth (d' + 7)).fnItem ⟨x.functionTokens, [], []⟩ =
        some (again, ⟨[], taken, found⟩) := by
    rw [FnItem.ofTokens?, forTokens, hdepth, all?_eq_some_iff]
  constructor
  · rintro ⟨houter, again, hparse, -, -, hparams⟩
    have hattributes : ∀ a ∈ x.item.attributes, a.inner = false :=
      fun a ha ↦ (hsource.isOuter_iff ha).1 (houter a ha)
    obtain ⟨taken, found, hitem⟩ := hagain.1 hparse
    exact ⟨hattributes, hsource.ne_self_of_again hembedded hattributes
      (by omega : _ ≤ d' + 6) hitem hparams⟩
  · rintro ⟨hattributes, hnames⟩
    obtain ⟨again, taken, found, hitem, hsame⟩ :=
      hsource.exists_again hembedded hattributes hnames hd
    exact ⟨fun a ha ↦ (hsource.isOuter_iff ha).2 (hattributes a ha),
      again, hagain.2 ⟨taken, found, hitem⟩, hsame⟩

/-- Documentation, another attribute, a scope and raw names are read again. -/
theorem ofText_reparses_raw : ∃ x, ofText ""
    "/// Picks.\n#[inline] pub(crate) fn r#type(r#match: Option<i64>) -> i64 \x7b \"1\" \x7d" =
      .ok x ∧ x.Reparses := by
  obtain ⟨x, hx, hread⟩ : ∃ x, ofText ""
      "/// Picks.\n#[inline] pub(crate) fn r#type(r#match: Option<i64>) -> i64 \x7b \"1\" \x7d" =
        .ok x ∧ (x.item.attributes.all (!·.inner) && x.params.all (·.1 ≠ "self")) = true :=
    exists_of_any (by decide +kernel)
  obtain ⟨hattributes, hnames⟩ := Bool.and_eq_true_iff.1 hread
  refine ⟨x, hx, (ofText_reparses_iff hx).2 ⟨fun a ha ↦ ?_, fun p hp ↦ ?_⟩⟩
  · simpa using List.all_eq_true.1 hattributes a ha
  · exact of_decide_eq_true (List.all_eq_true.1 hnames p hp)

/-- An attribute at the head of the body is written in front of the function as it is. -/
theorem ofText_not_reparses_inner :
    ∃ x, ofText "" "fn f() -> i64 \x7b #![allow(unused)] \"1\" \x7d" = .ok x ∧ ¬x.Reparses := by
  obtain ⟨x, hx, hread⟩ : ∃ x, ofText "" "fn f() -> i64 \x7b #![allow(unused)] \"1\" \x7d" = .ok x ∧
      (x.item.attributes.any fun a ↦ a.tokens.length = 3) = true :=
    exists_of_any (by decide +kernel)
  obtain ⟨a, ha, hlength⟩ := List.any_eq_true.1 hread
  refine ⟨x, hx, fun hreparses ↦ ?_⟩
  obtain ⟨joint, inside, htokens⟩ := hreparses.outer a ha
  rw [htokens] at hlength
  exact absurd hlength (by simp)

end GuestBridge.Expansion
