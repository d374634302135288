import GuestBridge.Proofs.Definition.Recognition

/-!
# Building from what was built

A definition that was built is recognised again: as statements wrapped in a function, as the
definition that its author supplied, and as a helper. Building from it once more changes neither
its text nor its name.
-/

namespace GuestBridge.Definition

open Text

variable {name : String} {cs rest : List Char}

/-! ### Wrapped statements -/

/-- A name with nothing in it that the header of a definition would not read over: no blank, no
point, and no bracket that may follow a name. -/
def IsPlainName (cs : List Char) : Prop :=
  ∀ c ∈ cs, isBlank c = false ∧ c ≠ '.' ∧ c ≠ '(' ∧ c ≠ '{'

private theorem isAsciiBlank_of_isBlank {c : Char} (h : isBlank c = false) :
    isAsciiBlank c = false := by
  simp only [isBlank, isAsciiBlank, Bool.or_eq_false_iff, Bool.and_eq_false_iff,
    decide_eq_false_iff_not] at h ⊢
  omega

/-- There is no blank in front of a plain name with a parameter list. -/
theorem IsPlainName.dropWhile_isAsciiBlank (h : IsPlainName cs) (rest : List Char) :
    (cs ++ '(' :: rest).dropWhile isAsciiBlank = cs ++ '(' :: rest := by
  cases cs with
  | nil => rfl
  | cons c cs =>
    have hc := isAsciiBlank_of_isBlank (h c List.mem_cons_self).1
    rw [List.cons_append, List.dropWhile_cons_of_neg (by simp [hc])]

private theorem dotted_nil (cs : List Char) : dotted cs [] = cs := by
  simp [dotted]

/-- In front of a parameter list, what is read as a path is the name, or a part of it at most: a
plain name has no points. -/
theorem IsPlainName.path?_append (h : IsPlainName cs) (rest : List Char) :
    path? (cs ++ '(' :: rest) = none ∨
      ∃ part left, cs = part ++ left ∧
        path? (cs ++ '(' :: rest) = some (part, left ++ '(' :: rest) := by
  cases cs with
  | nil => exact .inl rfl
  | cons c cs =>
    by_cases hc : isNameStart c = true
    · have hpart : Rehearsal.isName (c :: cs.takeWhile isNameChar) = true :=
        Rehearsal.isName_iff.2 ⟨c, _, rfl, hc, List.all_eq_true.1 List.all_takeWhile⟩
      have hstop : ∀ d ∈ (cs.dropWhile isNameChar ++ '(' :: rest).head?,
          isNameChar d = false ∧ d ≠ '.' := by
        intro d hd
        have hnot := List.head?_dropWhile_not isNameChar cs
        cases hleft : cs.dropWhile isNameChar with
        | nil =>
          rw [hleft] at hd
          obtain rfl : '(' = d := by simpa using hd
          decide
        | cons e left =>
          rw [hleft] at hd hnot
          obtain rfl : e = d := by simpa using hd
          have hmem : e ∈ cs :=
            (List.dropWhile_suffix isNameChar).subset (hleft ▸ List.mem_cons_self)
          exact ⟨by simpa using hnot, (h e (List.mem_cons_of_mem _ hmem)).2.1⟩
      have hcs : c :: cs = (c :: cs.takeWhile isNameChar) ++ cs.dropWhile isNameChar := by
        rw [List.cons_append, List.takeWhile_append_dropWhile]
      have hpath : path? (dotted (c :: cs.takeWhile isNameChar) [] ++
          (cs.dropWhile isNameChar ++ '(' :: rest)) = some _ :=
        path?_dotted hpart (by simp) hstop
      rw [dotted_nil, ← List.append_assoc, ← hcs] at hpath
      exact .inr ⟨_, _, hcs, hpath⟩
    · refine .inl ?_
      rw [List.cons_append, path?, name?, if_neg hc]
      rfl

/-- Statements that are wrapped with a plain name are a definition in long form, whose header
reveals that name or none. -/
theorem longForm?_wrap (h : IsPlainName name.toList) (params : List String) (source : String) :
    longForm? (wrap name params source).toList = some (some name.toList) ∨
      longForm? (wrap name params source).toList = some none := by
  rw [Rehearsal.toList_wrap, longForm?, dropPrefix?_append]
  generalize ", ".toList.intercalate (params.map String.toList) ++ _ = rest
  simp only [show isAsciiBlank ' ' = true from rfl, if_true, h.dropWhile_isAsciiBlank]
  rcases h.path?_append rest with hpath | ⟨part, left, hname, hpath⟩
  · rw [hpath]
    exact .inr rfl
  · rw [hpath]
    have hleft : IsPlainName left := fun c hc ↦ h c (hname ▸ List.mem_append_right _ hc)
    simp only [hleft.dropWhile_isAsciiBlank]
    cases left with
    | nil =>
      rw [List.append_nil] at hname
      exact .inl (congrArg (some ∘ some) hname.symm)
    | cons c left =>
      have hc := hleft c List.mem_cons_self
      refine .inr ?_
      rw [List.cons_append]
      split
      next heq => exact absurd (List.cons.inj heq).1 hc.2.2.1
      next heq => exact absurd (List.cons.inj heq).1 hc.2.2.2
      next => rfl

/-- So wrapped statements are a complete definition, of the name that they were wrapped with if
their header reveals one. -/
theorem definedName?_wrap (h : IsPlainName name.toList) (params : List String) (source : String) :
    ∃ defined, definedName? (wrap name params source) = some defined ∧
      defined.getD name = name := by
  have hstart : codeStart (wrap name params source).toList = (wrap name params source).toList := by
    rw [Rehearsal.toList_wrap]
    exact codeStart_cons (by decide) (by decide) _
  rw [definedName?, hstart]
  rcases longForm?_wrap h params source with hlong | hlong
  · rw [hlong]
    exact ⟨some name, by simp, rfl⟩
  · rw [hlong]
    exact ⟨none, rfl, rfl⟩

/-! ### Helpers -/

/-- The parameter list of a helper is followed by the rest of a definition, whatever the helper
applies. -/
theorem isShortTail_helper (cs : List Char) :
    (closings ("args_list".toList ++ ')' :: ' ' :: '=' :: ' ' :: cs)).any isShortTail = true := by
  have hrest : isShortTail (" ".toList ++ '=' :: ' ' :: cs) = true := by
    rw [isShortTail_append (by decide)]
    rfl
  rw [closings_append (by simp), closings, List.any_cons]
  exact Bool.or_eq_true_iff.2 (.inl hrest)

/-- A helper is a definition in short form of its own name. -/
theorem definedName?_buildMap (h : Rehearsal.isName name.toList = true) :
    definedName? (buildMap name).source = some (some (mapName name)) := by
  have htext : (buildMap name).source = String.ofList (dotted (mapName name).toList [] ++
      '(' :: ("args_list".toList ++ ')' :: ' ' :: '=' :: ' ' ::
        ("[Base.invokelatest(".toList ++
          (name.toList ++ ", a...) for a in args_list]".toList)))) := by
    rw [← String.toList_inj, String.toList_ofList, dotted_nil, Rehearsal.toList_buildMap]
    rfl
  rw [htext, definedName?_dotted (Rehearsal.isName_mapName h) (by simp), isShortTail_helper,
    if_pos rfl, List.getLastD_nil, String.ofList_toList]

/-! ### Building again -/

/-- Building from what was built, whatever the parameters, gives the same text and the same name,
as a complete definition; and a helper is recognised as a definition of its own name. -/
theorem build_build (h : IsPlainName name.toList) (params others : List String)
    (source : String) :
    build (build name params source).name others (build name params source).source =
        ⟨(build name params source).name, (build name params source).source, true⟩ ∧
      (Rehearsal.isName name.toList = true →
        definedName? (buildMap name).source = some (some (buildMap name).name) ∧
          (buildMap name).name = mapName name) := by
  refine ⟨?_, fun hname ↦ ⟨definedName?_buildMap hname, rfl⟩⟩
  cases hsource : definedName? source with
  | some defined =>
    have hbuild (requested : String) (params : List String) :
        build requested params source = ⟨defined.getD requested, source, true⟩ := by
      rw [build, hsource]
    rw [hbuild, hbuild]
    cases defined <;> rfl
  | none =>
    obtain ⟨defined, hdefined, hsame⟩ := definedName?_wrap h params source
    have hbuild : build name params source = ⟨name, wrap name params source, false⟩ := by
      rw [build, hsource]
    rw [hbuild, build, hdefined]
    dsimp only
    rw [hsame]

/-- Statements that are wrapped with the name of a function that changes its argument. -/
theorem build_build_bang :
    IsPlainName "push!".toList ∧ Rehearsal.isName "push!".toList = true ∧
      build (build "push!" ["x"] "x + 1").name ["y"] (build "push!" ["x"] "x + 1").source =
        ⟨"push!", "function push!(x)\n    x + 1\nend", true⟩ ∧
      definedName? (buildMap "push!").source = some (some "push!__map") := by
  have hplain : IsPlainName "push!".toList := by
    intro c hc
    have hcases : c = 'p' ∨ c = 'u' ∨ c = 's' ∨ c = 'h' ∨ c = '!' := by simpa using hc
    rcases hcases with rfl | rfl | rfl | rfl | rfl <;> decide
  have hname : Rehearsal.isName "push!".toList = true := by decide
  have hbuild : build "push!" ["x"] "x + 1" =
      ⟨"push!", "function push!(x)\n    x + 1\nend", false⟩ := by
    decide +kernel
  obtain ⟨hagain, hhelper⟩ := build_build hplain ["x"] ["y"] "x + 1"
  refine ⟨hplain, hname, ?_, (hhelper hname).1⟩
  rw [hagain, hbuild]

end GuestBridge.Definition
