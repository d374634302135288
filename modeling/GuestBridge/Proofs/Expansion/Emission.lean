import GuestBridge.Proofs.Expansion.Annotation
import GuestBridge.Proofs.Expansion.Record

/-!
# The expansion conveys what was found

The tokens of an expansion are a function in the place of the annotated one and a module beside
it. The function has the declared parameters and hands them to its wrapper in their order. The
module builds the wrapper from the parts that were found, and maps it over tuples of the declared
types. Every function that is found fit is expanded like this, and no other one.
-/

namespace GuestBridge.Expansion

open Host

variable {ts : List Token} {pieces : List (List Token)} {f : Finding} {x : Expansion}

/-! ### Lists -/

/-- Pieces in their order with commas between them; a comma may stand behind the last. -/
inductive CommaList : List (List Token) → List Token → Prop
  | nil : CommaList [] []
  | last (piece : List Token) : CommaList [piece] piece
  | cons {pieces : List (List Token)} {ts : List Token} (piece : List Token) (joint : Bool)
    (h : CommaList pieces ts) : CommaList (piece :: pieces) (piece ++ .punct ',' joint :: ts)

/-- The inside of a tuple. A single piece needs its comma to be one. -/
def IsTuple (pieces : List (List Token)) (ts : List Token) : Prop :=
  CommaList pieces ts ∧ ∀ piece, pieces = [piece] → ∃ joint, ts = piece ++ [.punct ',' joint]

private theorem commaList_separated (pieces : List (List Token)) :
    CommaList pieces (separated pieces) := by
  induction pieces using separated.induct with
  | case1 => exact .nil
  | case2 piece => exact .last piece
  | case3 piece pieces hmore ih =>
    rw [separated.eq_3 _ _ hmore, List.append_assoc]
    exact .cons piece false ih

private theorem commaList_terminated (pieces : List (List Token)) :
    CommaList pieces (terminated pieces) := by
  induction pieces with
  | nil => exact .nil
  | cons piece pieces ih =>
    rw [terminated, List.flatMap_cons, List.append_assoc]
    exact .cons piece false ih

private theorem isTuple_terminated (pieces : List (List Token)) :
    IsTuple pieces (terminated pieces) := by
  refine ⟨commaList_terminated pieces, ?_⟩
  rintro piece rfl
  exact ⟨false, List.append_nil _⟩

/-! ### Emitted code -/

/-- A function as it is emitted: what stands between its parentheses, behind its arrow and between
its braces. -/
structure EmittedFn where
  params : List Token
  result : List Token
  body : List Token

/-- The tokens of a function. -/
def EmittedFn.tokens (name : String) (f : EmittedFn) : List Token :=
  [.word "fn", .word name] ++ parens f.params ++ mark "->" ++ f.result ++ braces f.body

/-- What is emitted: a function, and a module with two more, each with a line of documentation. -/
structure Emission where
  caller : EmittedFn
  moduleDoc : Token
  wrapperDoc : Token
  wrapper : EmittedFn
  mapDoc : Token
  map : EmittedFn

/-- The tokens that are emitted for an item. -/
def Emission.tokens (item : FnItem) (e : Emission) : List Token :=
  item.attributes.flatMap (·.tokens) ++ item.visibility ++ e.caller.tokens item.name ++
    docAttribute e.moduleDoc ++ item.visibility ++ [.word "mod", .word item.name] ++
    braces (mark "#" ++ brackets ([.word "allow"] ++ parens [.word "unused_imports"]) ++
      wordList ["use", "super"] ++ mark "::" ++ mark "*" ++ mark ";" ++
      docAttribute e.wrapperDoc ++ [.word "pub"] ++ e.wrapper.tokens "function" ++
      docAttribute e.mapDoc ++ [.word "pub"] ++ e.map.tokens "map")

/-- A vector of things of a type. -/
def vectorOf (type : List Token) : List Token :=
  rooted ["std", "vec", "Vec"] ++ angles type

/-- The declared result type; the unit type where none is declared. -/
def Finding.result (f : Finding) : List Token :=
  f.item.result.getD [.group .paren []]

/-- The function hands its parameters to the wrapper. -/
structure Calls (f : Finding) (params : List (String × List Token)) (caller : EmittedFn) :
    Prop where
  /-- Each parameter stands with its type. -/
  declared : CommaList (params.map fun p ↦ .word p.1 :: .punct ':' false :: p.2) caller.params
  result : caller.result = resultOf f.result
  /-- The same names are passed. -/
  body : ∃ passed, IsTuple (params.map fun p ↦ [.word p.1]) passed ∧
    caller.body = [.word f.item.name] ++ rooted ["function"] ++ parens [] ++ mark "." ++
      [.word "call_as"] ++ mark "::" ++ angles f.result ++ parens (parens passed)

/-- The function maps the wrapper over tuples of arguments. -/
structure Maps (f : Finding) (params : List (String × List Token)) (map : EmittedFn) : Prop where
  /-- The tuples are made of the types of the parameters. -/
  batch : ∃ types, IsTuple (params.map (·.2)) types ∧
    map.params = [.word "batch"] ++ mark ":" ++ vectorOf (parens types) ++ mark ","
  result : map.result = resultOf (vectorOf f.result)
  body : map.body = [.word "function"] ++ parens [] ++ mark "." ++ [.word "map_as"] ++ mark "::" ++
    angles (f.result ++ mark "," ++ [.word "_"]) ++ parens [.word "batch"]

/-- The function gives a wrapper that is built from what was found. -/
structure Wraps (f : Finding) (wrapper : EmittedFn) : Prop where
  params : wrapper.params = []
  result : wrapper.result = mark "&" ++ [.lifetime "'static"] ++ wrapperType
  parts : FunctionParts.read? wrapper.body = some
    { hostName := f.host.name
      params := f.host.params
      source := f.code
      name := f.given.bind StringLiteral.value?
      doc := f.host.doc }

/-- Tokens that convey what was found in a function. -/
def Finding.ConveyedBy (f : Finding) (ts : List Token) : Prop :=
  ∃ (e : Emission) (params : List (String × List Token)), ts = e.tokens f.item ∧
    f.item.params = params.map plainParam ∧ f.host.params = (params.map fun p ↦ unraw p.1) ∧
    Calls f params e.caller ∧ Wraps f e.wrapper ∧ Maps f params e.map

/-! ### Expansions convey what was found -/

private theorem isSome_of_annotation {given : Option String} (h : Annotation given ts) :
    ∀ literal ∈ given, (StringLiteral.value? literal).isSome = true := by
  induction h with
  | bare => simp
  | last joint hstring => simpa using hstring
  | closed joint joint' hstring => simpa using hstring
  | more joint joint' hstring hts hmore ih => exact ih

/-- What an expansion emits. -/
def emission (x : Expansion) : Emission where
  caller :=
    { params := separated (x.params.map fun p ↦ [.word p.1] ++ mark ":" ++ p.2)
      result := resultOf x.result
      body := [.word x.item.name] ++ rooted ["function"] ++ parens [] ++ mark "." ++
        [.word "call_as"] ++ mark "::" ++ angles x.result ++
        parens (parens (terminated (x.params.map fun p ↦ [.word p.1]))) }
  moduleDoc := stringLiteral s!"Julia side of [`{x.item.hostName}`](fn@{x.item.name})."
  wrapperDoc := .literal "r\" The wrapper behind the function, built on first use.\""
  wrapper :=
    { params := []
      result := mark "&" ++ [.lifetime "'static"] ++ wrapperType
      body := x.wrapperBody }
  mapDoc := .literal "r\" Apply the function to every argument tuple in one round trip.\""
  map :=
    { params := [.word "batch"] ++ mark ":" ++
        vectorOf (parens (terminated (x.params.map (·.2)))) ++ mark ","
      result := resultOf (vectorOf x.result)
      body := [.word "function"] ++ parens [] ++ mark "." ++ [.word "map_as"] ++ mark "::" ++
        angles (x.result ++ mark "," ++ [.word "_"]) ++ parens [.word "batch"] }

private theorem tokens_eq (x : Expansion) : x.tokens = x.emission.tokens x.item := by
  simp only [tokens, functionTokens, moduleTokens, wrapperTokens, mapTokens, emission,
    Emission.tokens, EmittedFn.tokens, vectorOf, wrapperBody, wordList, List.map_cons, List.map_nil,
    List.append_assoc, List.cons_append, List.nil_append]

/-- What fits is conveyed by the expansion that is written from it. -/
theorem Finding.Fits.conveyedBy (h : f.Fits ts) (hfills : f.Fills x) : f.ConveyedBy x.tokens := by
  obtain ⟨item, params, names, result, source, doc, given⟩ := hfills
  refine ⟨x.emission, x.params, ?tokens, params, names, ?calls, ?wraps, ?maps⟩
  case tokens => rw [tokens_eq, item]
  case calls =>
    refine ⟨?_, ?_, ?_⟩
    · exact commaList_separated _
    · exact congrArg resultOf result
    · refine ⟨_, isTuple_terminated _, ?_⟩
      rw [Finding.result, ← result, ← item]
      rfl
  case wraps =>
    refine ⟨rfl, rfl, ?_⟩
    have hread := read?_wrapperBody (x := x) (given ▸ isSome_of_annotation h.annotation)
    rw [item, ← h.name_eq, ← names, source, given, doc] at hread
    exact hread
  case maps =>
    refine ⟨⟨_, isTuple_terminated _, rfl⟩, ?_, ?_⟩
    · rw [Finding.result, ← result]
      rfl
    · rw [Finding.result, ← result]
      rfl

/-- The annotation and the function are given as text, and the function is fit to be expanded. -/
structure Finding.FitsText (f : Finding) (marker text : String) : Prop where
  item : FnItem.parse? text = some f.item
  fits : ∃ ts, scan marker = some ts ∧ f.Fits ts

/-- What fits is expanded. -/
theorem Finding.FitsText.exists_fills {marker text : String} (h : f.FitsText marker text) :
    ∃ x, ofText marker text = .ok x ∧ f.Fills x := by
  obtain ⟨hitem, ts, hts, hfits⟩ := h
  obtain ⟨x, hplan, hfills⟩ := hfits.exists_plan
  exact ⟨x, ofText_eq_ok_iff.2 ⟨ts, hts, f.item, hitem, hplan⟩, hfills⟩

/-- What is expanded fits. -/
theorem Finding.exists_fitsText {marker text : String} (h : ofText marker text = .ok x) :
    ∃ f : Finding, f.FitsText marker text ∧ f.Fills x := by
  obtain ⟨ts, hts, item, hitem, hplan⟩ := ofText_eq_ok_iff.1 h
  obtain ⟨f, rfl, hfits, hfills⟩ := exists_of_plan hplan
  exact ⟨f, ⟨hitem, ts, hts, hfits⟩, hfills⟩

/-- An annotated function is expanded exactly if it is fit for it, and the expansion conveys what
was found in it. -/
theorem ofText_conveys (marker text : String) :
    (∀ x, ofText marker text = .ok x →
      ∃ f : Finding, f.FitsText marker text ∧ f.ConveyedBy x.tokens) ∧
    ∀ f : Finding, f.FitsText marker text →
      ∃ x, ofText marker text = .ok x ∧ f.ConveyedBy x.tokens := by
  constructor
  · intro x hx
    obtain ⟨f, hfits, hfills⟩ := Finding.exists_fitsText hx
    obtain ⟨ts, -, hts⟩ := hfits.fits
    exact ⟨f, hfits, hts.conveyedBy hfills⟩
  · intro f hfits
    obtain ⟨x, hx, hfills⟩ := hfits.exists_fills
    obtain ⟨ts, -, hts⟩ := hfits.fits
    exact ⟨x, hx, hts.conveyedBy hfills⟩

/-- Raw names lose their marks in texts only, and a null character in front of a digit comes
back. -/
theorem ofText_conveys_raw : ∃ (x : Expansion) (f : Finding),
    ofText "name = \"kind\"," "fn r#type(r#in: Map<i64, u8>) \x7b \"\\01\" \x7d" = .ok x ∧
      f.ConveyedBy x.tokens ∧ f.host.name = "type" ∧ f.host.params = ["in"] ∧
      f.code.toList = [Char.ofNat 0, '1'] ∧ f.given = some "\"kind\"" := by
  obtain ⟨x, hx, hread⟩ : ∃ x,
      ofText "name = \"kind\"," "fn r#type(r#in: Map<i64, u8>) \x7b \"\\01\" \x7d" = .ok x ∧
        decide (x.item.hostName = "type" ∧ (x.params.map fun p ↦ unraw p.1) = ["in"] ∧
          x.source.toList = [Char.ofNat 0, '1'] ∧ x.guestName = some "\"kind\"") = true :=
    exists_of_any (by decide +kernel)
  obtain ⟨hname, hparams, hsource, hguest⟩ := of_decide_eq_true hread
  obtain ⟨f, hfits, hconveyed⟩ := (ofText_conveys _ _).1 x hx
  obtain ⟨x', hx', hfills⟩ := hfits.exists_fills
  obtain rfl : x = x' := Except.ok.inj (hx.symm.trans hx')
  have hhost : f.host.name = x.item.hostName := by
    rw [hfills.item]
    obtain ⟨ts, -, hts⟩ := hfits.fits
    exact hts.name_eq
  refine ⟨x, f, hx, hconveyed, hhost.trans hname, hfills.names.trans hparams, ?_, ?_⟩
  · rw [← hfills.source]
    exact hsource
  · rw [← hfills.given]
    exact hguest

end GuestBridge.Expansion
