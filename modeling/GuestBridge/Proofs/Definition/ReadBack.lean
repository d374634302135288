import GuestBridge.Definition.Synthesis
import GuestBridge.Proofs.Text.Margin
import GuestBridge.Rehearsal.Script

/-!
# Reading built definitions back

A rehearsal understands the definitions that are built for a guest: from wrapped statements it
reads the name and the indented statements again, and from a helper its own name and that of
the function that it applies.
-/

namespace GuestBridge.Rehearsal

open Text Definition

variable {cs rest : List Char} {name : String} {params : List String}

/-! ### Names -/

/-- A name starts with a letter or an underscore, and goes on with letters, digits,
underscores and exclamation marks. -/
theorem isName_iff :
    isName cs = true ↔ ∃ c tail, cs = c :: tail ∧ isNameStart c = true ∧
      ∀ d ∈ tail, isNameChar d = true := by
  constructor
  · intro h
    cases cs with
    | nil => simp [isName, name?] at h
    | cons c tail =>
      refine ⟨c, tail, rfl, ?_⟩
      by_cases hc : isNameStart c = true
      · refine ⟨hc, fun d hd ↦ ?_⟩
        have hrest : tail.dropWhile isNameChar = [] := by
          simp only [isName, name?, hc, if_true] at h
          split at h
          · next heq => exact (Prod.mk.inj (Option.some.inj heq)).2
          · cases h
        rw [← List.takeWhile_append_dropWhile (p := isNameChar) (l := tail), hrest,
          List.append_nil] at hd
        exact List.all_eq_true.1 List.all_takeWhile d hd
      · simp [isName, name?, hc] at h
  · rintro ⟨c, tail, rfl, hc, htail⟩
    have hrest : (tail ++ []).dropWhile isNameChar = [] := List.dropWhile_append_of_pos htail
    rw [List.append_nil] at hrest
    simp [isName, name?, hc, hrest]

/-- A name is read up to a character that cannot continue it. -/
theorem name?_append (h : isName cs = true) (hrest : ∀ c ∈ rest.head?, isNameChar c = false) :
    name? (cs ++ rest) = some (cs, rest) := by
  obtain ⟨c, tail, rfl, hc, htail⟩ := isName_iff.1 h
  have htake : rest.takeWhile isNameChar = [] := by
    cases rest with
    | nil => rfl
    | cons d rest => simp [hrest d rfl]
  have hdrop : rest.dropWhile isNameChar = rest := by
    cases rest with
    | nil => rfl
    | cons d rest => simp [hrest d rfl]
  rw [List.cons_append, name?, if_pos hc, List.takeWhile_append_of_pos htail,
    List.dropWhile_append_of_pos htail, htake, hdrop, List.append_nil]

/-- A name with more characters of names behind it is a name. -/
theorem isName_append (h : isName cs = true) (hrest : ∀ c ∈ rest, isNameChar c = true) :
    isName (cs ++ rest) = true := by
  obtain ⟨c, tail, rfl, hc, htail⟩ := isName_iff.1 h
  refine isName_iff.2 ⟨c, tail ++ rest, rfl, hc, fun d hd ↦ ?_⟩
  rcases List.mem_append.1 hd with hd | hd
  · exact htail d hd
  · exact hrest d hd

/-- The characters of names are visible ASCII characters. -/
theorem toNat_of_isNameChar {c : Char} (h : isNameChar c = true) :
    33 ≤ c.toNat ∧ c.toNat ≤ 122 := by
  have hle : ∀ a b : Char, a ≤ b ↔ a.toNat ≤ b.toNat := fun a b ↦ Iff.rfl
  simp only [isNameChar, isNameStart, isAsciiLetter, isAsciiDigit, Bool.or_eq_true,
    Bool.and_eq_true, decide_eq_true_eq, hle] at h
  rcases h with (((h | h) | rfl) | h) | rfl
  · exact ⟨Nat.le_trans (by decide) h.1, Nat.le_trans h.2 (by decide)⟩
  · exact ⟨Nat.le_trans (by decide) h.1, Nat.le_trans h.2 (by decide)⟩
  · decide
  · exact ⟨Nat.le_trans (by decide) h.1, Nat.le_trans h.2 (by decide)⟩
  · decide

/-- The characters of names are no blanks. -/
theorem isBlank_of_isNameChar {c : Char} (h : isNameChar c = true) : isBlank c = false := by
  have hc := toNat_of_isNameChar h
  simp only [isBlank, Bool.or_eq_false_iff, Bool.and_eq_false_iff, decide_eq_false_iff_not]
  omega

/-- The characters of names are no ASCII blanks. -/
theorem isAsciiBlank_of_isNameChar {c : Char} (h : isNameChar c = true) :
    isAsciiBlank c = false := by
  have hc := toNat_of_isNameChar h
  simp only [isAsciiBlank, Bool.or_eq_false_iff, Bool.and_eq_false_iff, decide_eq_false_iff_not]
  omega

/-- What starts a name also continues one. -/
theorem isNameChar_of_isNameStart {c : Char} (h : isNameStart c = true) : isNameChar c = true := by
  simp [isNameChar, h]

/-- The characters of a name. -/
theorem isNameChar_of_mem {c : Char} (h : isName cs = true) (hc : c ∈ cs) :
    isNameChar c = true := by
  obtain ⟨first, tail, rfl, hfirst, htail⟩ := isName_iff.1 h
  rcases List.mem_cons.1 hc with rfl | hc
  · exact isNameChar_of_isNameStart hfirst
  · exact htail c hc

/-- There are no ASCII blanks in front of a name. -/
theorem dropWhile_isAsciiBlank_append (h : isName cs = true) (rest : List Char) :
    (cs ++ rest).dropWhile isAsciiBlank = cs ++ rest := by
  obtain ⟨c, tail, rfl, hc, -⟩ := isName_iff.1 h
  simp [isAsciiBlank_of_isNameChar (isNameChar_of_isNameStart hc)]

/-- The name of a helper is a name. -/
theorem isName_mapName (h : isName name.toList = true) : isName (mapName name).toList = true := by
  have hall : "__map".toList.all isNameChar = true := by decide
  rw [mapName, String.toList_append]
  exact isName_append h (List.all_eq_true.1 hall)

/-- A text that starts with a name and goes on without a blank does not start with a keyword
and a blank. -/
theorem ne_keyword_append {name keyword tail : List Char} {c : Char}
    (h : name? cs = some (name, rest)) (hrest : ∀ d ∈ rest.head?, isAsciiBlank d = false)
    (hk : isName keyword = true) (hc : isAsciiBlank c = true) : cs ≠ keyword ++ c :: tail := by
  rintro rfl
  have hchar : isNameChar c = false := by
    cases hn : isNameChar c with
    | false => rfl
    | true => rw [isAsciiBlank_of_isNameChar hn] at hc; cases hc
  rw [name?_append hk (by rintro d ⟨⟩; exact hchar)] at h
  have htail := (Prod.mk.inj (Option.some.inj h)).2
  rw [hrest c (by rw [← htail]; rfl)] at hc
  cases hc

/-- Such a text does not import a module. -/
theorem not_using_of_name? {name : List Char} (h : name? cs = some (name, rest))
    (hrest : ∀ d ∈ rest.head?, isAsciiBlank d = false) :
    dropPrefix? "using ".toList cs = none := by
  cases hd : dropPrefix? "using ".toList cs with
  | none => rfl
  | some tail =>
    have htext : cs = "using".toList ++ ' ' :: tail := by
      rw [eq_append_of_dropPrefix? hd]
      rfl
    exact absurd htext (ne_keyword_append h hrest (by decide) (by decide))

/-- Such a text is no definition in long form. -/
theorem longForm?_of_name? {name : List Char} (h : name? cs = some (name, rest))
    (hrest : ∀ d ∈ rest.head?, isAsciiBlank d = false) : longForm? cs = none := by
  unfold longForm?
  cases hd : dropPrefix? "function".toList cs with
  | none => rfl
  | some tail =>
    cases tail with
    | nil => rfl
    | cons c tail =>
      by_cases hc : isAsciiBlank c = true
      · have htext := eq_append_of_dropPrefix? hd
        exact absurd htext (ne_keyword_append h hrest (by decide) hc)
      · simp [hc]

/-- There are no outer blanks around a name. -/
theorem trim_name (h : isName cs = true) : trim cs = cs := by
  apply trim_of_ends
  · exact fun c hc ↦ isBlank_of_isNameChar (isNameChar_of_mem h (List.mem_of_mem_head? hc))
  · exact fun c hc ↦ isBlank_of_isNameChar (isNameChar_of_mem h (List.mem_of_mem_getLast? hc))

/-- A name is read as such. -/
theorem form_name (h : isName cs = true) : Form.of cs = .identifier := by
  have hname : name? cs = some (cs, []) := by
    have happend : name? (cs ++ []) = some (cs, []) := name?_append h (by simp)
    rwa [List.append_nil] at happend
  have hbatch : batchForm? cs = none := by
    unfold batchForm?
    rw [hname]
    rfl
  have hshort : shortForm? cs = none := by
    unfold shortForm? signature?
    rw [hname]
  simp only [Form.of, not_using_of_name? hname (by simp), longForm?_of_name? hname (by simp),
    hbatch, hshort, h, if_true]

/-- What is read as a name is one. -/
theorem isName_of_name? {name : List Char} (h : name? cs = some (name, rest)) :
    isName name = true := by
  cases cs with
  | nil => cases h
  | cons c tail =>
    simp only [name?] at h
    split at h
    · next hc =>
      obtain ⟨rfl, -⟩ := Prod.mk.inj (Option.some.inj h)
      exact isName_iff.2 ⟨c, _, rfl, hc, List.all_eq_true.1 List.all_takeWhile⟩
    · cases h

/-- A definition defines a name. -/
theorem isName_of_define {body : String} (h : Form.of cs = .define name body) :
    isName name.toList = true := by
  have hsignature : ∀ {cs name rest : List Char}, signature? cs = some (name, rest) →
      isName name = true := by
    intro cs name rest h
    unfold signature? at h
    split at h
    · next hn =>
      split at h
      · obtain ⟨rfl, -⟩ := Prod.mk.inj (Option.some.inj h)
        exact isName_of_name? hn
      · cases h
    · cases h
  have hlong : ∀ {name body : List Char}, longForm? cs = some (name, body) →
      isName name = true := by
    intro name body h
    unfold longForm? at h
    split at h
    · split at h
      · split at h
        · next hs =>
          obtain ⟨_, -, heq⟩ := Option.map_eq_some_iff.1 h
          obtain ⟨rfl, -⟩ := Prod.mk.inj heq
          exact hsignature hs
        · cases h
      · cases h
    · cases h
  have hshort : ∀ {name side : List Char}, shortForm? cs = some (name, side) →
      isName name = true := by
    intro name side h
    unfold shortForm? at h
    split at h
    · next hs =>
      split at h
      · dsimp only at h
        split at h
        · cases h
        · obtain ⟨rfl, -⟩ := Prod.mk.inj (Option.some.inj h)
          exact hsignature hs
      · cases h
    · cases h
  unfold Form.of at h
  split at h
  · cases h
  · split at h
    · next hf =>
      obtain ⟨rfl, -⟩ := Form.define.inj h
      rw [String.toList_ofList]
      exact hlong hf
    · split at h
      · cases h
      · split at h
        · next hf =>
          obtain ⟨rfl, -⟩ := Form.define.inj h
          rw [String.toList_ofList]
          exact hshort hf
        · split at h <;> cases h

/-! ### Wrapped statements -/

/-- A suffix that is there is taken away. -/
theorem dropSuffix?_append (cs suffix : List Char) :
    dropSuffix? suffix (cs ++ suffix) = some cs := by
  rw [dropSuffix?, List.reverse_append, dropPrefix?_append, Option.map_some, List.reverse_reverse]

/-- Wrapped statements as a list of characters. -/
theorem toList_wrap (name : String) (params : List String) (source : String) :
    (wrap name params source).toList =
      "function".toList ++ (' ' :: (name.toList ++ ('(' ::
        ((", ".toList.intercalate (params.map String.toList)) ++ (')' :: '\n' ::
          (indentChars bodyMargin.toList source.toList ++ "\nend".toList)))))) := by
  simp [wrap, indent, String.toList_append, String.toList_intercalate]

/-- The name and the indented statements are read back from wrapped statements. -/
theorem longForm?_wrap (hname : isName name.toList = true)
    (hparams : ∀ p ∈ params, ')' ∉ p.toList) (source : String) :
    longForm? (wrap name params source).toList =
      some (name.toList, indentChars bodyMargin.toList source.toList) := by
  have hclose : ∀ c ∈ ", ".toList.intercalate (params.map String.toList),
      decide (c ≠ ')') = true := by
    intro c hc
    rw [decide_eq_true_iff]
    rintro rfl
    rcases mem_intercalate hc with h | ⟨text, htext, h⟩
    · exact absurd h (by decide)
    · obtain ⟨p, hp, rfl⟩ := List.mem_map.1 htext
      exact hparams p hp h
  rw [toList_wrap, longForm?, dropPrefix?_append]
  simp only [show isAsciiBlank ' ' = true by decide, if_true, signature?,
    dropWhile_isAsciiBlank_append hname]
  rw [name?_append hname (by rintro c ⟨⟩; decide)]
  simp only [List.dropWhile_append_of_pos hclose]
  simp [dropSuffix?_append]

/-- Wrapped statements are a definition of the indented statements. -/
theorem form_wrap (hname : isName name.toList = true) (hparams : ∀ p ∈ params, ')' ∉ p.toList)
    (source : String) :
    Form.of (wrap name params source).toList = .define name (indent bodyMargin source) := by
  have husing : dropPrefix? "using ".toList (wrap name params source).toList = none := by
    rw [toList_wrap]
    rfl
  simp only [Form.of, husing, longForm?_wrap hname hparams, String.ofList_toList]
  rfl

/-- There are no outer blanks around wrapped statements. -/
theorem trim_wrap (name : String) (params : List String) (source : String) :
    trim (wrap name params source).toList = (wrap name params source).toList := by
  rw [toList_wrap]
  apply trim_of_ends
  · rintro c ⟨⟩
    decide
  · intro c hc
    simp only [← List.append_assoc, ← List.cons_append, List.getLast?_append] at hc
    obtain rfl : 'd' = c := by simpa using hc
    decide

/-! ### Helpers -/

/-- A helper as a list of characters. -/
theorem toList_buildMap (name : String) :
    (buildMap name).source.toList = (mapName name).toList ++
      ("(args_list) = [Base.invokelatest(".toList ++
        (name.toList ++ ", a...) for a in args_list]".toList)) := by
  simp [buildMap, String.toList_append]

/-- A helper starts with its name, and then comes a parenthesis. -/
theorem name?_buildMap (h : isName name.toList = true) :
    name? (buildMap name).source.toList = some ((mapName name).toList,
      "(args_list) = [Base.invokelatest(".toList ++
        (name.toList ++ ", a...) for a in args_list]".toList)) := by
  rw [toList_buildMap]
  exact name?_append (isName_mapName h) (by rintro c ⟨⟩; decide)

/-- The names of a helper and of the function that it applies are read back. -/
theorem batchForm?_buildMap (h : isName name.toList = true) :
    batchForm? (buildMap name).source.toList = some ((mapName name).toList, name.toList) := by
  rw [batchForm?, name?_buildMap h]
  simp only [dropPrefix?_append, Option.bind_some]
  rw [name?_append h (by rintro c ⟨⟩; decide)]
  simp

/-- A helper is read as the definition of a helper. -/
theorem form_buildMap (h : isName name.toList = true) :
    Form.of (buildMap name).source.toList = .defineBatch (mapName name) name := by
  have hparen : ∀ c ∈ ("(args_list) = [Base.invokelatest(".toList ++
      (name.toList ++ ", a...) for a in args_list]".toList)).head?, isAsciiBlank c = false := by
    rintro c ⟨⟩
    decide
  simp only [Form.of, not_using_of_name? (name?_buildMap h) hparen,
    longForm?_of_name? (name?_buildMap h) hparen, batchForm?_buildMap h, String.ofList_toList]

/-- There are no outer blanks around a helper. -/
theorem trim_buildMap (h : isName name.toList = true) :
    trim (buildMap name).source.toList = (buildMap name).source.toList := by
  have hmap := isName_mapName h
  obtain ⟨first, tail, hcs, hfirst, -⟩ := isName_iff.1 hmap
  apply trim_of_ends
  · intro c hc
    rw [toList_buildMap, hcs] at hc
    obtain rfl : first = c := by simpa using hc
    exact isBlank_of_isNameChar (isNameChar_of_isNameStart hfirst)
  · intro c hc
    rw [toList_buildMap] at hc
    simp only [← List.append_assoc, List.getLast?_append] at hc
    obtain rfl : ']' = c := by simpa using hc
    decide

end GuestBridge.Rehearsal
