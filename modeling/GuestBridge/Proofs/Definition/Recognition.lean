import GuestBridge.Proofs.Definition.Comments
import GuestBridge.Proofs.Definition.ReadBack

/-!
# Recognising definitions in short form

A code that starts with a dotted path and a parenthesis is no definition in long form. It is one
in short form exactly if the rest of one stands behind some closing parenthesis of its line, and
then the last name of the path is what it defines.
-/

namespace GuestBridge.Definition

open Text

variable {first rest params front : List Char} {more : List (List Char)} {fuel : Nat}

/-! ### Dotted paths -/

/-- Names with points between them. -/
def dotted (first : List Char) (more : List (List Char)) : List Char :=
  first ++ more.flatMap ('.' :: ·)

/-- What cannot go on with a dotted path does not come first behind its names either. -/
theorem head?_dots (hrest : ∀ c ∈ rest.head?, isNameChar c = false) :
    ∀ c ∈ (more.flatMap ('.' :: ·) ++ rest).head?, isNameChar c = false := by
  intro c hc
  cases more with
  | nil => exact hrest c hc
  | cons next more =>
    obtain rfl : '.' = c := by simpa using hc
    decide

private theorem length_le_dots (more : List (List Char)) :
    more.length ≤ (more.flatMap ('.' :: ·)).length := by
  induction more with
  | nil => exact Nat.le_refl _
  | cons next more ih =>
    rw [List.flatMap_cons, List.length_append, List.length_cons, List.length_cons]
    omega

/-- Behind a name, the names of a path are read to its end. -/
theorem lastName_dots (hmore : ∀ n ∈ more, Rehearsal.isName n = true)
    (hrest : ∀ c ∈ rest.head?, isNameChar c = false ∧ c ≠ '.') (hfuel : more.length < fuel)
    (last : List Char) :
    lastName fuel last (more.flatMap ('.' :: ·) ++ rest) = (more.getLastD last, rest) := by
  induction more generalizing fuel last with
  | nil =>
    obtain ⟨fuel, rfl⟩ := Nat.exists_eq_succ_of_ne_zero (Nat.ne_of_gt (Nat.zero_lt_of_lt hfuel))
    cases rest with
    | nil => rfl
    | cons c rest =>
      obtain ⟨-, hpoint⟩ := hrest c rfl
      simp [lastName, hpoint]
  | cons next more ih =>
    obtain ⟨fuel, rfl⟩ := Nat.exists_eq_succ_of_ne_zero (Nat.ne_of_gt (Nat.zero_lt_of_lt hfuel))
    rw [List.forall_mem_cons] at hmore
    rw [List.length_cons] at hfuel
    have hname : name? (next ++ (more.flatMap ('.' :: ·) ++ rest)) =
        some (next, more.flatMap ('.' :: ·) ++ rest) :=
      Rehearsal.name?_append hmore.1 (head?_dots fun c hc ↦ (hrest c hc).1)
    rw [List.flatMap_cons, List.append_assoc, List.cons_append, lastName, hname]
    exact (ih hmore.2 (by omega) next).trans (by rw [List.getLastD_cons])

/-- A dotted path is read to its end. -/
theorem path?_dotted (hfirst : Rehearsal.isName first = true)
    (hmore : ∀ n ∈ more, Rehearsal.isName n = true)
    (hrest : ∀ c ∈ rest.head?, isNameChar c = false ∧ c ≠ '.') :
    path? (dotted first more ++ rest) = some (more.getLastD first, rest) := by
  have hfuel : more.length < (more.flatMap ('.' :: ·) ++ rest).length + 1 := by
    have hlength := length_le_dots more
    rw [List.length_append]
    omega
  rw [dotted, List.append_assoc, path?,
    Rehearsal.name?_append hfirst (head?_dots fun c hc ↦ (hrest c hc).1), Option.map_some]
  exact congrArg some (lastName_dots hmore hrest hfuel first)

/-! ### Lines with a parameter list -/

/-- Nothing closes inside a parameter list without parentheses. -/
theorem closings_append (h : ∀ c ∈ params, c ≠ '\n' ∧ c ≠ ')') (cs : List Char) :
    closings (params ++ cs) = closings cs := by
  induction params with
  | nil => rfl
  | cons c params ih =>
    rw [List.forall_mem_cons] at h
    simp [closings, h.1, ih h.2]

/-- Only what stands behind the parameter list counts if nothing else closes. -/
theorem closings_params (hparams : ∀ c ∈ params, c ≠ '\n' ∧ c ≠ ')')
    (hrest : ∀ c ∈ rest, c ≠ '\n' ∧ c ≠ ')') : closings (params ++ ')' :: rest) = [rest] := by
  have hnone : closings rest = [] := by
    simpa [closings] using closings_append hrest []
  rw [closings_append hparams, closings, hnone]

/-- The signature ends at the first equals sign. -/
theorem isShortTail_append (hfront : '=' ∉ front) (rest : List Char) :
    isShortTail (front ++ '=' :: rest) =
      (isSignatureEnd front && !rest.head?.any fun c ↦ c = '=' || c = '>') := by
  have hne : ∀ c ∈ front, decide (c ≠ '=') = true := by
    intro c hc
    exact decide_eq_true fun heq ↦ hfront (heq ▸ hc)
  have hdrop : (front ++ '=' :: rest).dropWhile (· ≠ '=') = '=' :: rest := by
    rw [List.dropWhile_append_of_pos hne, List.dropWhile_cons_of_neg (by simp)]
  have htake : (front ++ '=' :: rest).takeWhile (· ≠ '=') = front := by
    rw [List.takeWhile_append_of_pos hne, List.takeWhile_cons_of_neg (by simp), List.append_nil]
  rw [isShortTail, hdrop, htake]
  rfl

/-! ### Code that starts with a call -/

/-- A path that no blank follows is no keyword of a definition in long form. -/
theorem longForm?_dotted_append (hfirst : Rehearsal.isName first = true)
    (hrest : ∀ c ∈ rest.head?, isNameChar c = false ∧ isAsciiBlank c = false) :
    longForm? (dotted first more ++ rest) = none := by
  have hname : name? (dotted first more ++ rest) =
      some (first, more.flatMap ('.' :: ·) ++ rest) := by
    rw [dotted, List.append_assoc]
    exact Rehearsal.name?_append hfirst (head?_dots fun c hc ↦ (hrest c hc).1)
  have hblank : ∀ c ∈ (more.flatMap ('.' :: ·) ++ rest).head?, isAsciiBlank c = false := by
    intro c hc
    cases more with
    | nil => exact (hrest c hc).2
    | cons next more =>
      obtain rfl : '.' = c := by simpa using hc
      decide
  unfold longForm?
  split
  next c rest hkeyword =>
    split
    next hc =>
      have htext := eq_append_of_dropPrefix? hkeyword
      exact absurd htext (Rehearsal.ne_keyword_append hname hblank (by decide) hc)
    next => rfl
  next => rfl

/-- A path that a parenthesis follows is no keyword of a definition in long form. -/
theorem longForm?_dotted (hfirst : Rehearsal.isName first = true) (cs : List Char) :
    longForm? (dotted first more ++ '(' :: cs) = none := by
  apply longForm?_dotted_append hfirst
  intro c hc
  obtain rfl : '(' = c := by simpa using hc
  decide

/-- Code that starts with neither a comment nor a blank is not shortened. -/
theorem skipComments_cons {c : Char} (hhash : c ≠ '#') (hblank : isBlank c = false)
    (cs : List Char) : skipComments .between (c :: cs) = c :: cs := by
  unfold skipComments
  split
  next h => cases h
  next h =>
    cases h
    exact absurd rfl hhash
  next h =>
    cases h
    rw [if_neg hhash, hblank]
    rfl
  all_goals
    rename_i hstate _
    cases hstate

/-- No comment stands in front of a path. -/
theorem skipComments_dotted (hfirst : Rehearsal.isName first = true) (rest : List Char) :
    skipComments .between (dotted first more ++ rest) = dotted first more ++ rest := by
  obtain ⟨c, tail, rfl, hc, -⟩ := Rehearsal.isName_iff.1 hfirst
  have hchar := Rehearsal.isNameChar_of_isNameStart hc
  have hhash : c ≠ '#' := by
    rintro rfl
    exact absurd hchar (by decide)
  exact skipComments_cons hhash (Rehearsal.isBlank_of_isNameChar hchar) _

/-- What a code that starts with a path and a parenthesis defines. -/
theorem definedName?_dotted (hfirst : Rehearsal.isName first = true)
    (hmore : ∀ n ∈ more, Rehearsal.isName n = true) (cs : List Char) :
    definedName? (String.ofList (dotted first more ++ '(' :: cs)) =
      if (closings cs).any isShortTail then some (some (String.ofList (more.getLastD first)))
      else none := by
  have hparen : ∀ c ∈ ('(' :: cs).head?, isNameChar c = false ∧ c ≠ '.' := by
    intro c hc
    obtain rfl : '(' = c := by simpa using hc
    decide
  rw [definedName?, String.toList_ofList, codeStart_eq_skipComments, skipComments_dotted hfirst,
    longForm?_dotted hfirst, shortForm?, path?_dotted hfirst hmore hparen]
  simp only [openingEnd, Option.bind_some]
  split <;> rfl

end GuestBridge.Definition
