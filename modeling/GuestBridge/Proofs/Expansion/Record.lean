import GuestBridge.Bridge.GuestFunction
import GuestBridge.Expansion.Written
import GuestBridge.Proofs.Host.LiteralText

/-!
# Reading the parts of a function off its expansion

An expansion holds a record of what the function is made from, in which every text is a string
literal. The record is found among all other tokens, and the texts that its literals stand for
are the ones that it was written from, whatever characters they have.
-/

namespace GuestBridge

open Host Expansion

variable {ts : List Token} {literal : String}

namespace Expansion

/-! ### Expressions -/

/-- The words of a path that starts with double colons, and what follows them. -/
def path : List Token → List String × List Token
  | .punct ':' true :: .punct ':' _ :: .word w :: ts => (w :: (path ts).1, (path ts).2)
  | ts => ([], ts)

/-- A comma comes between two pieces. -/
def isComma : Token → Bool
  | .punct c _ => c = ','
  | _ => false

/-- The pieces between commas. -/
def commaPieces (ts : List Token) : List (List Token) :=
  if ts.isEmpty then [] else ts.splitOnP isComma

/-- A vector of owned strings. -/
def textVector (texts : List String) : List Token :=
  rooted ["std", "vec"] ++ (mark "!" ++
    brackets (separated (texts.map fun s ↦ ownedString (stringLiteral s))))

/-- The text of an owned string that is made from a literal. -/
def ownedText? (ts : List Token) : Option String :=
  match path ts with
  | (["std", "string", "String", "from"], [.group .paren [.literal literal]]) =>
    StringLiteral.value? literal
  | _ => none

/-- The texts of a vector of owned strings. -/
def ownedTexts? (ts : List Token) : Option (List String) :=
  match path ts with
  | (["std", "vec"], [.punct '!' _, .group .bracket inner]) => (commaPieces inner).mapM ownedText?
  | _ => none

/-- The text of an optional owned string, if there is one. -/
def optionalText? (ts : List Token) : Option (Option String) :=
  match path ts with
  | (["core", "option", "Option", "Some"], [.group .paren inner]) => (ownedText? inner).map some
  | (["core", "option", "Option", "None"], []) => some none
  | _ => none

/-- The value of a field with its name, if it is the one of the given name. -/
def fieldValue? (name : String) : List Token → Option (List Token)
  | .word w :: .punct ':' false :: value => if w = name then some value else none
  | _ => none

/-- The value of a field, by what stands between the braces of a record. -/
def field? (name : String) (ts : List Token) : Option (List Token) :=
  (ts.splitOnP isComma).findSome? (fieldValue? name)

private theorem path_rooted (ws : List String) (h : path ts = ([], ts)) :
    path (rooted ws ++ ts) = (ws, ts) := by
  induction ws with
  | nil => exact h
  | cons w ws ih =>
    change (w :: (path (rooted ws ++ ts)).1, (path (rooted ws ++ ts)).2) = (w :: ws, ts)
    rw [ih]

private theorem ownedText?_ownedString :
    ownedText? (ownedString (.literal literal)) = StringLiteral.value? literal := by
  rw [ownedText?, ownedString, parens, path_rooted _ rfl]
  rfl

private theorem isComma_rooted (ws : List String) : ∀ t ∈ rooted ws, isComma t = false := by
  intro t ht
  obtain ⟨w, -, ht⟩ := List.mem_flatMap.1 ht
  have hmark : mark "::" = [.punct ':' true, .punct ':' false] := rfl
  simp only [hmark, List.cons_append, List.nil_append, List.mem_cons, List.not_mem_nil,
    or_false] at ht
  rcases ht with rfl | rfl | rfl <;> rfl

private theorem isComma_ownedString (t : Token) : ∀ u ∈ ownedString t, isComma u = false := by
  intro u hu
  rcases List.mem_append.1 hu with hu | hu
  · exact isComma_rooted _ u hu
  · obtain rfl := List.mem_singleton.1 hu
    rfl

private theorem isComma_textVector (texts : List String) :
    ∀ t ∈ textVector texts, isComma t = false := by
  intro t ht
  rcases List.mem_append.1 ht with ht | ht
  · exact isComma_rooted _ t ht
  · rcases List.mem_append.1 ht with ht | ht <;> obtain rfl := List.mem_singleton.1 ht <;> rfl

private theorem isComma_optionalString (t? : Option Token) :
    ∀ u ∈ optionalString t?, isComma u = false := by
  intro u hu
  cases t? with
  | none => exact isComma_rooted _ u hu
  | some t =>
    rcases List.mem_append.1 hu with hu | hu
    · exact isComma_rooted _ u hu
    · obtain rfl := List.mem_singleton.1 hu
      rfl

/-- The first of several pieces is told apart by the comma behind it. -/
theorem splitOnP_cons_comma {piece : List Token} (h : ∀ t ∈ piece, isComma t = false) :
    (piece ++ (mark "," ++ ts)).splitOnP isComma = piece :: ts.splitOnP isComma :=
  List.splitOnP_append_cons_of_forall_mem h _ rfl ts

/-- Pieces without commas are told apart by the commas between them. -/
theorem commaPieces_separated {pieces : List (List Token)}
    (h : ∀ piece ∈ pieces, piece ≠ [] ∧ ∀ t ∈ piece, isComma t = false) :
    commaPieces (separated pieces) = pieces := by
  have hsplit (hne : pieces ≠ []) : (separated pieces).splitOnP isComma = pieces := by
    induction pieces using separated.induct with
    | case1 => exact absurd rfl hne
    | case2 piece => exact List.splitOnP_eq_singleton (h piece (List.mem_singleton_self piece)).2
    | case3 piece pieces hmore ih =>
      rw [separated.eq_3 _ _ hmore, List.append_assoc,
        splitOnP_cons_comma (h piece List.mem_cons_self).2,
        ih (fun piece hpiece ↦ h piece (List.mem_cons_of_mem _ hpiece)) (by simpa using hmore)]
  rcases pieces with _ | ⟨piece, pieces⟩
  · rfl
  · have hne : separated (piece :: pieces) ≠ [] := by
      intro hnil
      rw [hnil] at hsplit
      exact (h piece List.mem_cons_self).1 (List.cons.inj (hsplit (by simp))).1.symm
    rw [commaPieces, if_neg (by simpa using hne), hsplit (by simp)]

private theorem mapM_ownedText? (texts : List String) :
    (texts.map fun s ↦ ownedString (stringLiteral s)).mapM ownedText? = some texts := by
  induction texts with
  | nil => rfl
  | cons s texts ih =>
    rw [List.map_cons, List.mapM_cons, ih, stringLiteral, ownedText?_ownedString,
      StringLiteral.value?_quoteLiteral]
    rfl

/-- The texts of a vector are those that it was written from, in order. -/
theorem ownedTexts?_textVector (texts : List String) :
    ownedTexts? (textVector texts) = some texts := by
  rw [ownedTexts?, textVector, path_rooted _ rfl]
  change (commaPieces (separated _)).mapM ownedText? = some texts
  rw [commaPieces_separated, mapM_ownedText?]
  intro piece hpiece
  obtain ⟨s, -, rfl⟩ := List.mem_map.1 hpiece
  exact ⟨by simp [ownedString, parens], isComma_ownedString _⟩

private theorem optionalText?_optionalString (literal? : Option String) :
    optionalText? (optionalString (literal?.map .literal)) =
      match literal? with
      | some literal => (StringLiteral.value? literal).map some
      | none => some none := by
  cases literal? with
  | none => rfl
  | some literal =>
    change optionalText? (rooted ["core", "option", "Option", "Some"] ++
      parens (ownedString (.literal literal))) = _
    rw [optionalText?, parens, path_rooted _ rfl]
    change (ownedText? (ownedString (.literal literal))).map some = _
    rw [ownedText?_ownedString]

/-! ### Records -/

/-- What stands between the braces behind a word. -/
def bracedBehind? (w : String) : List Token → Option (List Token)
  | .word w' :: .group .brace inner :: _ => if w' = w then some inner else none
  | _ => none

mutual

/-- The inside of the first record of a type within a token. -/
def recordWithin? (type : String) : Token → Option (List Token)
  | .group _ inner => record? type inner
  | _ => none

/-- The inside of the first record of a type among tokens, at any depth. -/
def record? (type : String) : List Token → Option (List Token)
  | [] => none
  | t :: ts => (bracedBehind? type (t :: ts)).or ((recordWithin? type t).or (record? type ts))

end

private theorem splitOnP_fieldToken {name : String} {value : List Token}
    (h : ∀ t ∈ value, isComma t = false) :
    (fieldToken name value ++ ts).splitOnP isComma =
      (.word name :: .punct ':' false :: value) :: ts.splitOnP isComma := by
  have hfield : ∀ t ∈ [.word name] ++ mark ":" ++ value, isComma t = false := by
    intro t ht
    rcases List.mem_append.1 ht with ht | ht
    · rcases List.mem_append.1 ht with ht | ht <;> obtain rfl := List.mem_singleton.1 ht <;> rfl
    · exact h t ht
  rw [fieldToken, List.append_assoc, splitOnP_cons_comma hfield]
  rfl

/-- The value of a field is the one that is written with its name. -/
theorem field?_fields {fields : List (String × List Token)}
    (h : ∀ f ∈ fields, ∀ t ∈ f.2, isComma t = false) (name : String) :
    field? name (fields.flatMap fun f ↦ fieldToken f.1 f.2) = fields.lookup name := by
  induction fields with
  | nil => rfl
  | cons f fields ih =>
    rw [field?, List.flatMap_cons, splitOnP_fieldToken (h f List.mem_cons_self),
      List.findSome?_cons, fieldValue?, List.lookup_cons]
    by_cases hname : f.1 = name
    · rw [if_pos hname, hname, beq_self_eq_true]
    · rw [if_neg hname, beq_false_of_ne (Ne.symm hname)]
      exact ih fun f hf ↦ h f (List.mem_cons_of_mem _ hf)

end Expansion

/-- The parts of a function, by the record that holds them as literals. -/
def FunctionParts.read? (ts : List Token) : Option FunctionParts := do
  let fields ← record? "FunctionParts" ts
  let hostName ← (field? "host_name" fields).bind ownedText?
  let params ← (field? "params" fields).bind ownedTexts?
  let source ← (field? "source" fields).bind ownedText?
  let name ← (field? "name" fields).bind optionalText?
  let doc ← (field? "doc" fields).bind optionalText?
  return { hostName, params, source, name, doc }

namespace Expansion

variable {x : Expansion}

/-- What the function that gives the wrapper consists of. -/
def wrapperBody (x : Expansion) : List Token :=
  let lazy := rooted ["jlext", "__private", "Lazy"]
  let bridge := rooted ["std", "sync", "Arc", "clone"] ++
    parens (rooted ["jlext", "Runtime", "global"] ++ parens [])
  let parts := rooted ["jlext", "FunctionParts"] ++ braces x.partsTokens
  let build := wrapperType ++ rooted ["new"] ++ parens (terminated [bridge, parts])
  [.word "static", x.wrapperVariable] ++ mark ":" ++ lazy ++ angles wrapperType ++
    mark "=" ++ lazy ++ rooted ["new"] ++ parens (mark "||" ++ braces build) ++ mark ";" ++
    mark "&" ++ [x.wrapperVariable]

/-- The record is found in the function that builds the wrapper. -/
theorem record?_wrapperBody : record? "FunctionParts" (wrapperBody x) = some x.partsTokens := by
  rfl

/-- The fields of the record. -/
def fields (x : Expansion) : List (String × List Token) :=
  [("host_name", ownedString (stringLiteral x.item.hostName)),
    ("params", textVector (x.params.map fun p ↦ unraw p.1)),
    ("source", ownedString (stringLiteral x.source)),
    ("name", optionalString (x.guestName.map .literal)),
    ("doc", optionalString (x.doc.map stringLiteral))]

private theorem isComma_fields (x : Expansion) : ∀ f ∈ x.fields, ∀ t ∈ f.2, isComma t = false := by
  intro f hf
  simp only [fields, List.mem_cons, List.not_mem_nil, or_false] at hf
  rcases hf with rfl | rfl | rfl | rfl | rfl
  · exact isComma_ownedString _
  · exact isComma_textVector _
  · exact isComma_ownedString _
  · exact isComma_optionalString _
  · exact isComma_optionalString _

private theorem partsTokens_eq (x : Expansion) :
    x.partsTokens = x.fields.flatMap fun f ↦ fieldToken f.1 f.2 := by
  simp [partsTokens, fields, textVector, Function.comp_def]

/-- What is read from the record is what it was written from. -/
theorem read?_wrapperBody (hname : ∀ literal ∈ x.guestName,
    (StringLiteral.value? literal).isSome = true) :
    FunctionParts.read? (wrapperBody x) = some
      { hostName := x.item.hostName
        params := x.params.map fun p ↦ unraw p.1
        source := x.source
        name := x.guestName.bind StringLiteral.value?
        doc := x.doc } := by
  have hguest : optionalText? (optionalString (x.guestName.map .literal)) =
      some (x.guestName.bind StringLiteral.value?) := by
    rw [optionalText?_optionalString]
    cases hgiven : x.guestName with
    | none => rfl
    | some literal =>
      obtain ⟨text, htext⟩ := Option.isSome_iff_exists.1 (hname literal hgiven)
      simp [htext]
  have hdoc : optionalText? (optionalString (x.doc.map stringLiteral)) = some x.doc := by
    have hliteral : x.doc.map stringLiteral = (x.doc.map Text.quoteLiteral).map .literal := by
      rw [Option.map_map]
      rfl
    rw [hliteral, optionalText?_optionalString]
    cases x.doc with
    | none => rfl
    | some doc => simp [StringLiteral.value?_quoteLiteral]
  have htext (s : String) : ownedText? (ownedString (stringLiteral s)) = some s := by
    rw [stringLiteral, ownedText?_ownedString, StringLiteral.value?_quoteLiteral]
  have hfield (name : String) : field? name x.partsTokens = x.fields.lookup name := by
    rw [partsTokens_eq, field?_fields (isComma_fields x)]
  simp [FunctionParts.read?, record?_wrapperBody, hfield, fields, List.lookup_cons, htext,
    ownedTexts?_textVector, hguest, hdoc]

end Expansion

end GuestBridge
