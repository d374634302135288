import GuestBridge.Expansion.Plan
import GuestBridge.Proofs.Host.GuestLiteral
import GuestBridge.Proofs.Host.LiteralLines
import GuestBridge.Proofs.Host.Scan.Trees

/-!
# The annotated function and its text

The same text can be annotated, which reads it as it stands, or taken up as a text, which dedents
it first. Both give the function the same name and parameters. Its documentation and guest code
are the same wherever dedenting the text around them leaves them alone or dedenting the guest
code makes up for it.
-/

namespace GuestBridge

open Text Host Host.StringLiteral Relabelling

/-- The margin that all lines of a text share. -/
def Text.commonMargin (s : String) : List Char :=
  margin (splitLines s.toList)

variable {m : List Char} {text : String}

namespace Host

/-! ### Items of a text and of its dedented form -/

/-- The items that a text and its dedented form hold are one item with labels for literals. -/
structure ItemTwins (m : List Char) (shape item item' : FnItem) : Prop where
  written : asWritten.on shape = item
  cut : (withoutMargin m).on shape = item'
  body : ∀ s ∈ shape.body, s.Carries (Loses m)
  attributes : ∀ a ∈ shape.attributes, a.Holds fun l ↦ Loses m l ∨ LosesDoc m l

private theorem exists_itemTwins {item item' : FnItem} (h : FnItem.parse? text = some item)
    (h' : FnItem.parse? (dedent text) = some item') :
    ∃ shape, ItemTwins (commonMargin text) shape item item' := by
  obtain ⟨ts, hts, h⟩ := Option.bind_eq_some_iff.1 h
  obtain ⟨ts', hts', h'⟩ := Option.bind_eq_some_iff.1 h'
  obtain ⟨ls, hls, rfl, rfl⟩ := scan_twins hts hts'
  rw [FnItem.ofTokens?_on] at h h'
  obtain ⟨shape, hshape, rfl⟩ := Option.map_eq_some_iff.1 h
  rw [hshape] at h'
  cases h'
  exact ⟨shape, rfl, rfl, FnItem.carries_of_ofTokens? hshape hls.outer,
    FnItem.holds_of_ofTokens? hshape hls.all⟩

/-! ### Documentation -/

/-- Cutting a margin leaves the documentation of an attribute alone, as it does if the attribute
stands in one line or documents nothing. -/
def Attr.Keeps (m : List Char) (a : Attr) : Prop :=
  ∀ line ∈ a.doc, cutText m line = line ∧ ∀ t ∈ a.tokens, ∀ l ∈ t.literals, cutText m l = l

instance (m : List Char) (a : Attr) : Decidable (a.Keeps m) :=
  inferInstanceAs (Decidable (∀ line ∈ a.doc, _ ∧ _))

mutual

private theorem Token.literals_on {φ : Relabelling} : (t : Token) →
    (φ.on t).literals = t.literals.map φ.text
  | .word _ | .punct _ _ | .lifetime _ | .literal _ => rfl
  | .group _ inner => by simp [Token.literals, Token.literalsAll_on inner]

private theorem Token.literalsAll_on {φ : Relabelling} : (ts : List Token) →
    Token.literalsAll (φ.on ts) = (Token.literalsAll ts).map φ.text
  | [] => rfl
  | t :: ts => by simp [Token.literalsAll, Token.literals_on t, Token.literalsAll_on ts]

end

private theorem Attr.doc_eq {a : Attr} (h : a.Holds fun l ↦ Loses m l ∨ LosesDoc m l)
    (hkeeps : (asWritten.on a).Keeps m) :
    ((withoutMargin m).on a).doc = (asWritten.on a).doc := by
  have hdoc (φ : Relabelling) : (φ.on a).doc = a.doc.map φ.value := rfl
  cases hline : a.doc with
  | none => simp [hdoc, hline]
  | some line =>
    obtain ⟨t, ht, l, hl, hvalue, hloses⟩ := h line hline
    obtain ⟨hfixed, htokens⟩ := hkeeps (asWritten.value line) (by simp [hdoc, hline])
    have hon (φ : Relabelling) : value? (φ.text l) = some (φ.value line) := by
      rw [φ.value?, hvalue, Option.map_some]
    have hsame : (withoutMargin m).text l = asWritten.text l := by
      rcases hloses with hloses | ⟨text, hwritten, hcut⟩
      · rw [hloses.text_eq]
        refine htokens (asWritten.on t) (List.mem_map_of_mem ht) _ ?_
        rw [Token.literals_on]
        exact List.mem_map_of_mem hl
      · have htext : asWritten.value line = text := by
          have hboth := hon asWritten
          rw [hwritten, value?_quoteLiteral] at hboth
          exact (Option.some.inj hboth).symm
        have htextFixed : cutMargin m text.toList = text.toList := by
          have hfixed := congrArg String.toList hfixed
          rwa [cutText, String.toList_ofList, htext] at hfixed
        rw [hcut, hwritten, Scan.cutDoc_fixed htextFixed, String.ofList_toList]
    have hvalues := hon (withoutMargin m)
    rw [hsame, hon asWritten] at hvalues
    rw [hdoc, hdoc, hline, Option.map_some, Option.map_some, Option.some.inj hvalues]

private theorem ItemTwins.doc?_eq {shape item item' : FnItem} (h : ItemTwins m shape item item')
    (hkeeps : ∀ a ∈ item.attributes, a.Keeps m) : item'.doc? = item.doc? := by
  obtain ⟨rfl, rfl, -, hattributes⟩ := h
  have hlines (φ : Relabelling) : (φ.on shape).attributes.filterMap
      (fun a ↦ a.doc.map FnItem.docLine) =
        shape.attributes.filterMap fun a ↦ (φ.on a).doc.map FnItem.docLine := by
    exact List.filterMap_map
  have hsame : ∀ a ∈ shape.attributes, ((withoutMargin m).on a).doc.map FnItem.docLine =
      (asWritten.on a).doc.map FnItem.docLine := fun a ha ↦ by
    rw [Attr.doc_eq (hattributes a ha) (hkeeps _ (List.mem_map_of_mem ha))]
  rw [FnItem.doc?, FnItem.doc?, hlines, hlines, List.filterMap_congr hsame]

/-! ### Guest code -/

/-- Why the guest code that a literal carries is the same when a margin is cut from its lines:
there is nothing to cut, or only lines of blanks lose something, or the code stands apart from the
literal's first line. The last two ask something of the literal's escapes. Behind a backslash that
continues a line, there may be no blanks but those that it swallows (`continuesPlainly`): dedenting
empties a line of nothing but U+00A0, even in a text without a margin, and a line that is continued
before it then goes on with the line behind it. And where a margin is cut, no escape may write a
line feed (`writesNoBreak`): the cut does not see the line that begins there. -/
inductive KeepsCode (m : List Char) (t code : String) : Prop
  | uncut (h : cutText m t = t)
  | flush (hm : m = []) (hcontinued : escapesPass continuesPlainly t = true)
  | apart (h : StandsApart code.toList) (hcontinued : escapesPass continuesPlainly t = true)
    (hbreaks : escapesPass writesNoBreak t = true)

/-- Dedenting guest code makes up for the margin that its literal has lost. -/
theorem KeepsCode.settle_eq {t code code' : String} (h : KeepsCode m t code)
    (hlines : Indented m t.toList) (hvalue : value? t = some code)
    (hcut : value? (cutText m t) = some code') : settle code' = settle code := by
  have hdedent (hfirst : m = [] ∨ StandsApart code.toList)
      (hcontinued : escapesPass continuesPlainly t = true)
      (hbreaks : m = [] ∨ escapesPass writesNoBreak t = true) : settle code' = settle code := by
    obtain ⟨s, hs, hstripped⟩ := value?_cutText hvalue hlines hcontinued hbreaks
    cases hs.symm.trans hcut
    rw [settle, settle, settleChars, settleChars, hstripped.dedentChars_eq hlines.blank hfirst]
  cases h with
  | uncut h =>
    rw [h, hvalue] at hcut
    cases hcut
    rfl
  | flush hm hcontinued => exact hdedent (.inl hm) hcontinued (.inl hm)
  | apart h hcontinued hbreaks => exact hdedent (.inr h) hcontinued (.inr hbreaks)

namespace ItemTwins

variable {shape item item' : FnItem}

/-- The literal that carries the guest code loses the margin of its lines. -/
theorem guestLiteral {code : String} (h : ItemTwins m shape item item')
    (hcode : carriedText item.body = .ok code) :
    ∃ t, guestLiteral? item.body = some t ∧ value? t = some code ∧ Indented m t.toList ∧
      guestLiteral? item'.body = some (cutText m t) := by
  obtain ⟨rfl, rfl, hbody, -⟩ := h
  obtain ⟨t, ht, hvalue⟩ := guestLiteral?_of_carriedText hcode
  have hon (φ : Relabelling) : guestLiteral? (φ.on shape).body =
      (guestLiteral? shape.body).map φ.text := guestLiteral?_on shape.body
  rw [hon] at ht
  obtain ⟨l, hl, rfl⟩ := Option.map_eq_some_iff.1 ht
  obtain ⟨s, hs, hmem, hsome⟩ := mem_carried_of_guestLiteral? hl
  have hloses := hbody s hs l hmem hsome
  refine ⟨asWritten.text l, by rw [hon, hl, Option.map_some], hvalue, hloses.indented, ?_⟩
  rw [hon, hl, Option.map_some, hloses.text_eq]

/-- There are as many returns before the last statement on both sides. -/
theorem length_returnsAll (h : ItemTwins m shape item item') :
    (Stmt.returnsAll item'.body.dropLast).length = (Stmt.returnsAll item.body.dropLast).length := by
  obtain ⟨rfl, rfl, -, -⟩ := h
  have hon (φ : Relabelling) : Stmt.returnsAll (φ.on shape).body.dropLast =
      (Stmt.returnsAll shape.body.dropLast).map (Option.map φ.value) := by
    rw [← Stmt.returnsAll_on]
    exact congrArg Stmt.returnsAll List.map_dropLast.symm
  rw [hon, hon, List.length_map, List.length_map]

end ItemTwins

end Host

/-! ### Host functions -/

namespace Host.HostFunction

variable {f : HostFunction} {item : FnItem}

/-- A host function is its item, with the names and the documentation that are read off it. -/
theorem ofItem_eq_ok (h : ofItem item = .ok f) : f.item = item ∧ f.name = item.hostName ∧
    item.paramNames = .ok f.params ∧ f.doc = item.doc? := by
  unfold ofItem at h
  cases hnames : item.paramNames with
  | error e =>
    rw [hnames] at h
    cases h
  | ok names =>
    rw [hnames] at h
    cases h
    exact ⟨rfl, rfl, rfl, rfl⟩

private theorem source_eq_ok {code : String} (h : item.source = .ok code) :
    ∃ text, carriedText item.body = .ok text ∧ code = settle text := by
  unfold FnItem.source at h
  split at h
  next text htext =>
    exact ⟨text, htext, (Except.ok.inj h).symm⟩
  next => cases h

/-- The text of a host function makes up an item when it is dedented. -/
theorem parse_eq_ok (h : parse text = .ok f) :
    FnItem.parse? (dedent text) = some f.item ∧ ofItem f.item = .ok f := by
  unfold parse at h
  split at h
  next item hitem =>
    obtain ⟨rfl, -⟩ := ofItem_eq_ok h
    exact ⟨hitem, h⟩
  next => cases h

end Host.HostFunction

namespace Expansion

variable {marker : List Token} {item : FnItem} {x : Expansion}

private theorem mapError_eq_ok_iff {α ε ε' : Type} {r : Except ε α} {f : ε → ε'} {a : α} :
    r.mapError f = .ok a ↔ r = .ok a := by
  cases r with
  | error e => simp [Except.mapError]
  | ok a => simp [Except.mapError]

private theorem bind_eq_ok_iff {α β ε : Type} {r : Except ε α} {k : α → Except ε β} {b : β} :
    (r >>= k) = .ok b ↔ ∃ a, r = .ok a ∧ k a = .ok b := by
  cases r with
  | error e => simp [bind, Except.bind]
  | ok a => simp [bind, Except.bind]

/-- What goes on behind a check. -/
theorem throw_else_eq_ok_iff {α β ε : Type} {p : Prop} [Decidable p] {e : ε}
    {k : α → Except ε β} {r : Except ε β} {b : β} :
    (if p then throw e >>= k else r) = .ok b ↔ ¬p ∧ r = .ok b := by
  by_cases hp : p
  · simp [hp, bind, Except.bind, throw, throwThe, MonadExceptOf.throw]
  · simp [hp]

/-- What passes a test is no error. -/
theorem exists_of_any {α ε : Type} {r : Except ε α} {p : α → Bool}
    (h : r.toOption.any p = true) : ∃ a, r = .ok a ∧ p a = true := by
  cases r with
  | error e => cases h
  | ok a => exact ⟨a, rfl, h⟩

/-- What a list is mapped to in steps that can fail. -/
theorem forall₂_of_mapM_eq_ok {α β ε : Type} {f : α → Except ε β} {as : List α} {bs : List β}
    (h : as.mapM f = .ok bs) : List.Forall₂ (fun a b ↦ f a = .ok b) as bs := by
  induction as generalizing bs with
  | nil =>
    cases h
    exact .nil
  | cons a as ih =>
    rw [List.mapM_cons] at h
    cases ha : f a with
    | error e =>
      rw [ha] at h
      cases h
    | ok b =>
      cases has : as.mapM f with
      | error e =>
        rw [ha, has] at h
        cases h
      | ok bs =>
        rw [ha, has] at h
        cases h
        exact .cons ha (ih has)

/-- What a plan depends on, and what it is. -/
theorem plan_eq_ok_iff : plan marker item = .ok x ↔
    ∃ guestName, nameArgument marker = .ok guestName ∧ item.isGeneric = false ∧
      item.isAsync = false ∧ item.params.length ≤ maxArity ∧
      ∃ params, item.params.mapM namedParam = .ok params ∧
      ∃ host, HostFunction.ofItem item = .ok host ∧
      ∃ source, host.source = .ok source ∧
        { item, params, result := item.result.getD [.group .paren []], source
          doc := host.doc, guestName } = x := by
  unfold plan
  simp only [bind_eq_ok_iff, throw_else_eq_ok_iff, mapError_eq_ok_iff, pure, Except.pure,
    Except.ok.injEq, Bool.not_eq_true, gt_iff_lt, Nat.not_lt]

/-- A plan takes over its item as a host function does. -/
theorem plan_eq_ok (h : plan marker item = .ok x) :
    x.item = item ∧ item.params.mapM namedParam = .ok x.params ∧
      ∃ f, HostFunction.ofItem item = .ok f ∧ f.source = .ok x.source ∧ x.doc = f.doc := by
  obtain ⟨guestName, -, -, -, -, params, hparams, host, hhost, source, hsource, rfl⟩ :=
    plan_eq_ok_iff.1 h
  exact ⟨rfl, hparams, host, hhost, hsource, rfl⟩

/-- A parameter that is a plain name with a type. -/
def plainParam (p : String × List Token) : Param :=
  .typed (.name p.1 false) p.2

/-- Plain parameters are named parameters of the same names and types. -/
theorem namedParam_plainParam (params : List (String × List Token)) :
    (params.map plainParam).mapM namedParam = .ok params := by
  induction params with
  | nil => rfl
  | cons p params ih =>
    rw [List.map_cons, List.mapM_cons, ih]
    rfl

/-- A parameter that is taken up is a plain name, and it is known by this name without its raw
mark. -/
theorem exists_plainParam {p : Param} {name : String} (h : FnItem.paramName p = .ok name) :
    ∃ named, p = plainParam named ∧ name = unraw named.1 := by
  rcases p with _ | ⟨shape, type⟩
  · cases h
  · cases shape with
    | name word refined =>
      cases refined with
      | false =>
        cases h
        exact ⟨(word, type), rfl, rfl⟩
      | true => cases h
    | _ => cases h

/-- Parameters that are taken up are plain names. -/
theorem exists_plainParams {names : List String} (h : item.paramNames = .ok names) :
    ∃ params : List (String × List Token),
      item.params = params.map plainParam ∧ names = params.map fun p ↦ unraw p.1 := by
  replace h := forall₂_of_mapM_eq_ok h
  generalize item.params = ps at h
  induction h with
  | nil => exact ⟨[], rfl, rfl⟩
  | cons hp _ ih =>
    obtain ⟨named, rfl, rfl⟩ := exists_plainParam (mapError_eq_ok_iff.1 hp)
    obtain ⟨params, rfl, rfl⟩ := ih
    exact ⟨named :: params, rfl, rfl⟩

/-- Parameters that are written as names have these names without their raw marks. -/
theorem paramNames_eq {named : List (String × List Token)} {names : List String}
    (h : item.params.mapM namedParam = .ok named) (hnames : item.paramNames = .ok names) :
    item.params = named.map plainParam ∧ names = named.map fun p ↦ unraw p.1 := by
  obtain ⟨params, hparams, rfl⟩ := exists_plainParams hnames
  rw [hparams, namedParam_plainParam] at h
  cases h
  exact ⟨hparams, rfl⟩

/-- An expansion of a text is a plan for the item that the text holds. -/
theorem ofText_eq_ok_iff {marker : String} : ofText marker text = .ok x ↔
    ∃ ts, scan marker = some ts ∧
      ∃ item, FnItem.parse? text = some item ∧ plan ts item = .ok x := by
  unfold ofText FnItem.parse?
  cases scan marker with
  | none => simp
  | some ts =>
    cases scan text with
    | none => simp
    | some us =>
      simp only [Option.bind_some]
      cases FnItem.ofTokens? us <;> simp

/-- A text expands only if it is an item and the item has a plan. -/
theorem ofText_eq_ok {marker : String} (h : ofText marker text = .ok x) :
    FnItem.parse? text = some x.item ∧ ∃ marker, plan marker x.item = .ok x := by
  obtain ⟨ts, -, item, hitem, hplan⟩ := ofText_eq_ok_iff.1 h
  obtain ⟨rfl, -⟩ := plan_eq_ok hplan
  exact ⟨hitem, ts, hplan⟩

/-- The guest code of an annotated function and of the one taken up from a dedented text, by the
literal that carries it: taken up, it is what is left of the literal's text without the margin. The
same returns are found in both, and the one taken up has guest code unless dedenting made what an
early return returns another text than the final one. -/
structure SharesCode (m : List Char) (x : Expansion) (f : HostFunction) (t code : String) :
    Prop where
  literal : guestLiteral? x.item.body = some t
  value : value? t = some code
  annotated : x.source = settle code
  dedented : ∀ source, f.source = .ok source →
    ∃ rest, value? (cutText m t) = some rest ∧ source = settle rest
  same : KeepsCode m t code → ∀ source, f.source = .ok source → source = x.source
  returns : (Stmt.returnsAll f.item.body.dropLast).length =
    (Stmt.returnsAll x.item.body.dropLast).length
  found : (∀ r ∈ Stmt.returnsAll f.item.body.dropLast, r = value? (cutText m t)) →
    ∃ source, f.source = .ok source

private theorem exists_sharesCode {f : HostFunction} {shape : FnItem}
    (hx : x.item.source = .ok x.source)
    (h : ItemTwins m shape x.item f.item) : ∃ t code, SharesCode m x f t code := by
  obtain ⟨code, hcode, hsettle⟩ := HostFunction.source_eq_ok hx
  obtain ⟨t, ht, hvalue, hlines, hcut⟩ := h.guestLiteral hcode
  have hdedented : ∀ source, f.source = .ok source →
      ∃ rest, value? (cutText m t) = some rest ∧ source = settle rest := by
    intro source hsource
    obtain ⟨rest, hrest, rfl⟩ := HostFunction.source_eq_ok hsource
    obtain ⟨t', ht', hvalue'⟩ := guestLiteral?_of_carriedText hrest
    rw [hcut] at ht'
    cases ht'
    exact ⟨rest, hvalue', rfl⟩
  refine ⟨t, code, ht, hvalue, hsettle, hdedented, fun hkeeps source hsource ↦ ?same,
    h.length_returnsAll, fun hreturns ↦ ?found⟩
  case same =>
    obtain ⟨rest, hrest, rfl⟩ := hdedented source hsource
    rw [hsettle, hkeeps.settle_eq hlines hvalue hrest]
  case found =>
    obtain ⟨-, -, -, hsome⟩ := mem_carried_of_guestLiteral? hcut
    obtain ⟨rest, hrest⟩ := Option.isSome_iff_exists.1 hsome
    rw [hrest] at hreturns
    have hcarried := carriedText_of_guestLiteral? hcut hrest hreturns
    exact ⟨settle rest, by rw [HostFunction.source, FnItem.source, hcarried]⟩

/-- The same text makes the same function, whether it is annotated or taken up as a text: the name
and the parameters are the same, and so are the documentation and the guest code where dedenting
the text leaves them alone. -/
theorem ofText_agrees_parse {marker : String} {f : HostFunction}
    (hx : ofText marker text = .ok x) (hf : HostFunction.parse text = .ok f) :
    f.name = x.item.hostName ∧ f.params = (x.params.map fun p ↦ unraw p.1) ∧
      ((∀ a ∈ x.item.attributes, a.Keeps (commonMargin text)) → f.doc = x.doc) ∧
      ∃ t code, SharesCode (commonMargin text) x f t code := by
  obtain ⟨hparse, marker, hplan⟩ := ofText_eq_ok hx
  obtain ⟨-, hparams, host, hhost, hsource, hdoc⟩ := plan_eq_ok hplan
  obtain ⟨hparse', hitem'⟩ := HostFunction.parse_eq_ok hf
  obtain ⟨shape, htwins⟩ := exists_itemTwins hparse hparse'
  obtain ⟨hitem, -, hnames, hdocHost⟩ := HostFunction.ofItem_eq_ok hhost
  obtain ⟨-, hname', hnames', hdoc'⟩ := HostFunction.ofItem_eq_ok hitem'
  have hsame : f.item.hostName = x.item.hostName ∧ f.item.paramNames = x.item.paramNames := by
    rw [← htwins.written, ← htwins.cut]
    simp only [FnItem.hostName_on, FnItem.paramNames_on, and_self]
  refine ⟨hname'.trans hsame.1, ?_, fun hkeeps ↦ ?_, exists_sharesCode ?_ htwins⟩
  · exact (paramNames_eq hparams (hsame.2.symm.trans hnames')).2
  · rw [hdoc, hdocHost, hdoc', htwins.doc?_eq hkeeps]
  · rw [← hitem]
    exact hsource

/-- A function is the same either way if its lines are indented and the guest code starts on the
line behind the opening quote. -/
theorem ofText_agrees_parse_of_indented : ∃ x f,
    ofText "" "    /// Adds.\n    fn add(a: f64) \x7b\n        \"\n        a + 1\n        \"\n    \x7d" =
      .ok x ∧
    HostFunction.parse
      "    /// Adds.\n    fn add(a: f64) \x7b\n        \"\n        a + 1\n        \"\n    \x7d" = .ok f ∧
    f.name = x.item.hostName ∧ f.params = (x.params.map fun p ↦ unraw p.1) ∧ f.doc = x.doc ∧
      f.source = .ok x.source := by
  generalize htext :
    "    /// Adds.\n    fn add(a: f64) \x7b\n        \"\n        a + 1\n        \"\n    \x7d" = text
  obtain ⟨x, hx, hitem⟩ : ∃ x, ofText "" text = .ok x ∧
      decide ((∀ a ∈ x.item.attributes, a.Keeps (commonMargin text)) ∧
        guestLiteral? x.item.body = some "\"\n        a + 1\n        \"") = true := by
    subst htext
    exact exists_of_any (by decide +kernel)
  obtain ⟨f, hf, hcarries⟩ : ∃ f, HostFunction.parse text = .ok f ∧
      f.source.toOption.any (fun _ ↦ true) = true := by
    subst htext
    exact exists_of_any (by decide +kernel)
  obtain ⟨hkeeps, hliteral⟩ := of_decide_eq_true hitem
  obtain ⟨source, hsource, -⟩ := exists_of_any hcarries
  obtain ⟨hname, hparams, hdoc, t, code, hcode⟩ := ofText_agrees_parse hx hf
  refine ⟨x, f, hx, hf, hname, hparams, hdoc hkeeps, ?_⟩
  obtain rfl := Option.some.inj (hcode.literal.symm.trans hliteral)
  obtain rfl : code = "\n        a + 1\n        " :=
    Option.some.inj (hcode.value.symm.trans (by decide +kernel))
  have hapart : KeepsCode (commonMargin text) "\"\n        a + 1\n        \""
      "\n        a + 1\n        " :=
    .apart (.inl (by decide +kernel)) (by decide +kernel) (by decide +kernel)
  rw [hsource, hcode.same hapart source hsource]

/-- Where dedenting the text cuts into the documentation and the guest code, neither is the same. -/
theorem ofText_differs_parse_of_continued : ∃ x f,
    ofText "" "    /** First\n        second. */\n    fn f() \x7b \"a\n    b\" \x7d" = .ok x ∧
    HostFunction.parse "    /** First\n        second. */\n    fn f() \x7b \"a\n    b\" \x7d" = .ok f ∧
    f.doc ≠ x.doc ∧ f.source ≠ .ok x.source := by
  obtain ⟨x, hx, hread⟩ : ∃ x,
      ofText "" "    /** First\n        second. */\n    fn f() \x7b \"a\n    b\" \x7d" = .ok x ∧
        decide (x.doc = some "First\n        second." ∧ x.source = "a\n    b") = true :=
    exists_of_any (by decide +kernel)
  obtain ⟨f, hf, hparsed⟩ : ∃ f, HostFunction.parse
      "    /** First\n        second. */\n    fn f() \x7b \"a\n    b\" \x7d" = .ok f ∧
        decide (f.doc = some "First\n    second." ∧ f.source.toOption = some "a\nb") = true :=
    exists_of_any (by decide +kernel)
  obtain ⟨hdoc, hsource⟩ := of_decide_eq_true hread
  obtain ⟨hdoc', hsource'⟩ := of_decide_eq_true hparsed
  refine ⟨x, f, hx, hf, ?_, fun hsame ↦ ?_⟩
  · rw [hdoc, hdoc']
    decide
  · rw [hsame, hsource] at hsource'
    exact absurd hsource' (by decide)

end Expansion

end GuestBridge
