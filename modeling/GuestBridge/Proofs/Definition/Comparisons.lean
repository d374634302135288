import GuestBridge.Definition.Synthesis
import GuestBridge.Proofs.Definition.Recognition

/-!
# Comparisons with the value of a call

A code that compares the value of a call consists of statements, so it should be wrapped. It is,
unless the call has a result type or a condition and the operator ends with its equals sign: then
the operator's first character counts as part of the type or condition, and its equals sign as
that of a definition in short form.
-/

namespace GuestBridge.Definition

open Text

variable {first cs params : List Char} {more : List (List Char)}

/-! ### Codes that compare -/

/-- The operators of guest code that contain an equals sign and do not define anything. -/
inductive Comparison where
  | equal
  | pair
  | atMost
  | atLeast
  | unequal
  deriving DecidableEq, Repr

namespace Comparison

/-- How an operator is written. -/
def sign : Comparison → String
  | .equal => "=="
  | .pair => "=>"
  | .atMost => "<="
  | .atLeast => ">="
  | .unequal => "!="

/-- The operators that end with their only equals sign. -/
def endsPlain : Comparison → Bool
  | .equal | .pair => false
  | .atMost | .atLeast | .unequal => true

/-- What an operator has in front of its first equals sign. -/
def front : Comparison → List Char
  | .equal | .pair => []
  | .atMost => ['<']
  | .atLeast => ['>']
  | .unequal => ['!']

/-- What an operator has behind its first equals sign. -/
def back : Comparison → List Char
  | .equal => ['=']
  | .pair => ['>']
  | .atMost | .atLeast | .unequal => []

private theorem toList_sign (op : Comparison) : op.sign.toList = op.front ++ '=' :: op.back := by
  cases op <;> rfl

/-- An operator that ends with its only equals sign has one other character. -/
theorem exists_front {op : Comparison} (h : op.endsPlain = true) :
    ∃ c, op.front = [c] ∧ op.back = [] ∧ isAsciiBlank c = false ∧ c ≠ 'w' := by
  cases op with
  | equal | pair => cases h
  | atMost => exact ⟨'<', rfl, rfl, by decide, by decide⟩
  | atLeast => exact ⟨'>', rfl, rfl, by decide, by decide⟩
  | unequal => exact ⟨'!', rfl, rfl, by decide, by decide⟩

end Comparison

/-- What may stand between a call and an operator. -/
inductive Qualifier where
  | none
  /-- A result type behind two colons. -/
  | type (text : List Char)
  /-- A condition behind its keyword. -/
  | condition (text : List Char)
  deriving DecidableEq, Repr

/-- How a qualifier is written. -/
def Qualifier.text : Qualifier → List Char
  | .none => []
  | .type text => ':' :: ':' :: text
  | .condition text => [' ', 'w', 'h', 'e', 'r', 'e', ' '] ++ text

/-- A call of what a path names, compared with something else. -/
def comparison (first : List Char) (more : List (List Char)) (arguments : List Char)
    (q : Qualifier) (op : Comparison) (other : List Char) : String :=
  String.ofList (dotted first more ++ '(' :: (arguments ++ ')' ::
    (q.text ++ ' ' :: (op.sign.toList ++ ' ' :: other))))

/-- The operator's equals sign is taken for that of a definition. -/
def Qualifier.hidesOperator : Qualifier → Comparison → Bool
  | .none, _ => false
  | .type _, op | .condition _, op => op.endsPlain

/-- A text within a line that closes no parameter list and assigns nothing. -/
def Inconspicuous (cs : List Char) : Prop :=
  ∀ c ∈ cs, c ≠ '\n' ∧ c ≠ ')' ∧ c ≠ '='

instance : Decidable (Inconspicuous cs) :=
  List.decidableBAll _ cs

/-! ### Ends of signatures within a line -/

private theorem mem_of_mem_trimAscii {c : Char} (h : c ∈ trimAscii cs) : c ∈ cs := by
  have hback := (List.dropWhile_suffix isAsciiBlank).mem (List.mem_reverse.1 h)
  exact (List.dropWhile_suffix isAsciiBlank).mem (List.mem_reverse.1 hback)

/-- Trimming the end of a text adds no characters to it. -/
theorem mem_of_mem_trimAsciiEnd {c : Char} (h : c ∈ trimAsciiEnd cs) : c ∈ cs :=
  List.mem_reverse.1 ((List.dropWhile_suffix isAsciiBlank).mem (List.mem_reverse.1 h))

/-- Anything within a line is a result type. -/
theorem isTyped_of_notMem (hne : cs ≠ []) (h : '\n' ∉ cs) : isTyped cs = true := by
  unfold isTyped
  split
  · obtain ⟨c, cs, rfl⟩ := List.exists_cons_of_ne_nil hne
    rw [List.mem_cons, not_or] at h
    simp [Ne.symm h.1]
  · have hcore : '\n' ∉ trimAscii cs := fun hn ↦ h (mem_of_mem_trimAscii hn)
    simpa using hcore

/-- Anything within a line is a condition. -/
theorem isConditioned_of_notMem (h : '\n' ∉ cs) : isConditioned cs = true := by
  have hcore : '\n' ∉ trimAsciiEnd cs := fun hn ↦ h (mem_of_mem_trimAsciiEnd hn)
  simp [isConditioned, hcore]

/-- A signature may end with a result type. -/
theorem isSignatureEnd_type (hne : cs ≠ []) (h : '\n' ∉ cs) :
    isSignatureEnd (':' :: ':' :: cs) = true := by
  have hcore : (':' :: ':' :: cs).dropWhile isAsciiBlank = ':' :: ':' :: cs :=
    List.dropWhile_cons_of_neg (by decide)
  simp [isSignatureEnd, hcore, isTyped_of_notMem hne h]

/-- A signature may end with a condition. -/
theorem isSignatureEnd_condition (h : '\n' ∉ cs) :
    isSignatureEnd ([' ', 'w', 'h', 'e', 'r', 'e', ' '] ++ cs) = true := by
  have hcore : ([' ', 'w', 'h', 'e', 'r', 'e', ' '] ++ cs).dropWhile isAsciiBlank =
      "where".toList ++ ' ' :: cs := by
    have hblank : isAsciiBlank ' ' = true := by decide
    have hkey : isAsciiBlank 'w' = false := by decide
    simp [hblank, hkey]
  rw [isSignatureEnd, hcore]
  simp only [dropPrefix?_append, show isAsciiBlank ' ' = true by decide,
    isConditioned_of_notMem h, Bool.and_self, Bool.or_true]

/-- A visible character is no end of a signature. -/
theorem isSignatureEnd_single {c : Char} (hblank : isAsciiBlank c = false) (hkey : c ≠ 'w') :
    isSignatureEnd [' ', c] = false := by
  have hcore : [' ', c].dropWhile isAsciiBlank = [c] := by
    simp [show isAsciiBlank ' ' = true by decide, hblank]
  simp [isSignatureEnd, hcore, dropPrefix?, Ne.symm hkey]

/-- An operator is no end of a signature by itself, but it is taken for the end of a type or a
condition. -/
theorem isSignatureEnd_qualifier {q : Qualifier} {op : Comparison} (hq : '\n' ∉ q.text)
    (hop : op.endsPlain = true) :
    isSignatureEnd (q.text ++ ' ' :: op.front) = q.hidesOperator op := by
  have hfront : '\n' ∉ ' ' :: op.front := by cases op <;> decide
  cases q with
  | none =>
    obtain ⟨c, hfront, -, hblank, hkey⟩ := Comparison.exists_front hop
    rw [hfront]
    exact isSignatureEnd_single hblank hkey
  | type text =>
    have htext : '\n' ∉ text := fun h ↦ hq (by simp [Qualifier.text, h])
    rw [Qualifier.hidesOperator, hop]
    exact isSignatureEnd_type (by simp) (by simpa [htext] using hfront)
  | condition text =>
    have htext : '\n' ∉ text := fun h ↦ hq (List.mem_append_right _ h)
    rw [Qualifier.hidesOperator, hop, Qualifier.text, List.append_assoc]
    exact isSignatureEnd_condition (by simpa [htext] using hfront)

/-- What stands behind the call is the rest of a definition exactly if the operator hides. -/
theorem isShortTail_comparison {q : Qualifier} {op : Comparison} (hq : Inconspicuous q.text)
    (other : List Char) :
    isShortTail (q.text ++ ' ' :: op.front ++ '=' :: (op.back ++ ' ' :: other)) =
      q.hidesOperator op := by
  have hfront : '=' ∉ q.text ++ ' ' :: op.front := by
    intro h
    rcases List.mem_append.1 h with h | h
    · exact (hq _ h).2.2 rfl
    · cases op <;> exact absurd h (by decide)
  rw [isShortTail_append hfront]
  cases hop : op.endsPlain with
  | true =>
    obtain ⟨-, -, hback, -, -⟩ := Comparison.exists_front hop
    rw [isSignatureEnd_qualifier (fun h ↦ (hq _ h).1 rfl) hop, hback]
    simp
  | false =>
    have hides : q.hidesOperator op = false := by cases q <;> simp [Qualifier.hidesOperator, hop]
    rw [hides]
    cases op with
    | equal | pair => simp [Comparison.back]
    | atMost | atLeast | unequal => cases hop

/-! ### Comparisons are wrapped -/

variable {arguments other : List Char} {q : Qualifier}

/-- Nothing closes behind the parameter list of a comparison. -/
theorem notMem_comparison (hq : Inconspicuous q.text) (hother : Inconspicuous other)
    (op : Comparison) :
    ∀ c ∈ q.text ++ ' ' :: op.front ++ '=' :: (op.back ++ ' ' :: other), c ≠ '\n' ∧ c ≠ ')' := by
  have hsign : ∀ c ∈ ' ' :: op.front ++ '=' :: op.back ++ [' '], c ≠ '\n' ∧ c ≠ ')' := by
    cases op <;> simp [Comparison.front, Comparison.back]
  intro c hc
  have hparts : c ∈ q.text ++ (' ' :: op.front ++ '=' :: op.back ++ [' ']) ++ other := by
    simpa using hc
  rcases List.mem_append.1 hparts with hc | hc
  · rcases List.mem_append.1 hc with hc | hc
    · exact ⟨(hq c hc).1, (hq c hc).2.1⟩
    · exact hsign c hc
  · exact ⟨(hother c hc).1, (hother c hc).2.1⟩

/-- A comparison defines nothing unless its operator hides. -/
theorem definedName?_comparison (hfirst : Rehearsal.isName first = true)
    (hmore : ∀ n ∈ more, Rehearsal.isName n = true) (harguments : Inconspicuous arguments)
    (hq : Inconspicuous q.text) (hother : Inconspicuous other) (op : Comparison) :
    definedName? (comparison first more arguments q op other) =
      if q.hidesOperator op then some (some (String.ofList (more.getLastD first))) else none := by
  have hsplit : q.text ++ ' ' :: (op.sign.toList ++ ' ' :: other) =
      q.text ++ ' ' :: op.front ++ '=' :: (op.back ++ ' ' :: other) := by
    simp [Comparison.toList_sign]
  have hparams : ∀ c ∈ arguments, c ≠ '\n' ∧ c ≠ ')' :=
    fun c hc ↦ ⟨(harguments c hc).1, (harguments c hc).2.1⟩
  rw [comparison, definedName?_dotted hfirst hmore, hsplit,
    closings_params hparams (notMem_comparison hq hother op), List.any_cons, List.any_nil,
    Bool.or_false, isShortTail_comparison hq]

/-- A comparison with the value of a call is no definition and is wrapped as a statement, unless a
result type or a condition hides that its operator is no equals sign: then it passes for a
definition of what it calls. -/
theorem build_comparison (hfirst : Rehearsal.isName first = true)
    (hmore : ∀ n ∈ more, Rehearsal.isName n = true) (harguments : Inconspicuous arguments)
    (hq : Inconspicuous q.text) (hother : Inconspicuous other) (op : Comparison)
    (name : String) (params : List String) :
    isComplete (comparison first more arguments q op other) = q.hidesOperator op ∧
      build name params (comparison first more arguments q op other) =
        if q.hidesOperator op then
          ⟨String.ofList (more.getLastD first), comparison first more arguments q op other, true⟩
        else ⟨name, wrap name params (comparison first more arguments q op other), false⟩ := by
  have hdefined := definedName?_comparison hfirst hmore harguments hq hother op
  constructor
  · rw [isComplete, hdefined]
    cases q.hidesOperator op <;> rfl
  · rw [build, hdefined]
    cases q.hidesOperator op <;> rfl

/-- With a result type, only the operators that do not end with their equals sign are seen. -/
theorem build_comparison_typed :
    build "g" ["x"] "Base.f(x)::Int => 3" =
        ⟨"g", "function g(x)\n    Base.f(x)::Int => 3\nend", false⟩ ∧
      build "g" ["x"] "Base.f(x)::Int <= 3" = ⟨"f", "Base.f(x)::Int <= 3", true⟩ := by
  have hbuild (op : Comparison) :=
    @build_comparison "Base".toList ["f".toList] "x".toList "3".toList (.type "Int".toList)
      (by decide) (by decide) (by decide) (by decide) (by decide) op "g" ["x"]
  constructor
  · refine (hbuild .pair).2.trans ?_
    decide +kernel
  · refine (hbuild .atMost).2.trans ?_
    decide +kernel

/-- A call with a result type that is compared passes for a definition. -/
theorem isComplete_comparison_typed :
    comparison "f".toList [] "x".toList (.type "Int".toList) .atMost "3".toList =
        "f(x)::Int <= 3" ∧
      isComplete "f(x)::Int <= 3" = true ∧
      build "g" [] "f(x)::Int <= 3" = ⟨"f", "f(x)::Int <= 3", true⟩ := by
  decide +kernel

end GuestBridge.Definition
