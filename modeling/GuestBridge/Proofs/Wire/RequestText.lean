import GuestBridge.Proofs.Wire.LiteralScan
import GuestBridge.Wire.Request

/-!
# What the code of a request tells

The guest sees nothing of a request but its code. Calls, look-ups, conversions and new modules
are told apart by it: with the same code they ask for the same, up to what a literal leaves
out, the names of handles' types and what is in a number that is none.
-/

namespace GuestBridge

/-- Two values that differ at most in the owners and the types' names of handles, and in what
is in a number that is none. -/
def Value.Alike (v w : Value) : Prop :=
  v.shown (fun _ ↦ "") = w.shown fun _ ↦ ""

namespace Request

/-- The request is put in the guest's words by the bridge. -/
def IsComposed : Request → Prop
  | .eval _ => False
  | _ => True

/-- Two requests that ask for the same: the same operation on the same object, with the same
names and types, and with as many arguments which are alike. -/
def Alike : Request → Request → Prop
  | .call callee args, .call callee' args' =>
    callee.id = callee'.id ∧ List.Forall₂ Value.Alike args args'
  | .getAttr target name, .getAttr target' name' => target.id = target'.id ∧ name = name'
  | .convert type value, .convert type' value' => type = type' ∧ value.Alike value'
  | .newModule name, .newModule name' => name = name'
  | _, _ => False

end Request

namespace Wire

open Text LiteralReader

/-! ### Parts of requests -/

/-- Values with the same literal are alike. -/
theorem alike_of_literal_eq {v w : Value} (h : literal v = literal w) : v.Alike w := by
  have hcloses : Closes [] := by simp [Closes]
  have hv := value?_literal v hcloses (Nat.lt_succ_self _)
  have hw := value?_literal w hcloses (Nat.lt_succ_self _)
  rw [h, hw] at hv
  exact (Prod.ext_iff.1 (Option.some.inj hv)).1.symm

/-- Values that are shown alike one by one are alike one by one. -/
theorem forall₂_alike_of_shownAll {vs ws : List Value}
    (h : Value.shownAll (fun _ ↦ "") vs = Value.shownAll (fun _ ↦ "") ws) :
    List.Forall₂ Value.Alike vs ws := by
  induction vs generalizing ws with
  | nil =>
    cases ws with
    | nil => exact .nil
    | cons w ws => simp [Value.shownAll] at h
  | cons v vs ih =>
    cases ws with
    | nil => simp [Value.shownAll] at h
    | cons w ws =>
      rw [Value.shownAll, Value.shownAll, List.cons.injEq] at h
      exact .cons h.1 (ih h.2)

/-- Arguments are told from what closes a call. -/
theorem itemsText_append_ne {v : Value} {vs : List Value} :
    itemsText (v :: vs) ++ [')'] ≠ [')'] := by
  intro heq
  have hread := items?_literals (v :: vs) (List.cons_ne_nil v vs)
    (closes_cons (c := ')') (by simp) []) (by simp) (Nat.lt_succ_self _)
  exact ne_close_of_items? hread [] heq

/-- Arguments with the same text are alike. -/
theorem alike_of_itemsText_eq {vs ws : List Value} (h : itemsText vs = itemsText ws) :
    List.Forall₂ Value.Alike vs ws := by
  cases vs with
  | nil =>
    cases ws with
    | nil => exact .nil
    | cons w ws => exact absurd (congrArg (· ++ [')']) h).symm itemsText_append_ne
  | cons v vs =>
    cases ws with
    | nil => exact absurd (congrArg (· ++ [')']) h) itemsText_append_ne
    | cons w ws =>
      have hcloses : Closes [')'] := closes_cons (by simp) []
      have hv := items?_literals (v :: vs) (List.cons_ne_nil v vs) hcloses (by simp)
        (Nat.lt_succ_self _)
      have hw := items?_literals (w :: ws) (List.cons_ne_nil w ws) hcloses (by simp)
        (Nat.lt_succ_self _)
      rw [h, hw] at hv
      exact forall₂_alike_of_shownAll (Prod.ext_iff.1 (Option.some.inj hv)).1.symm

/-- Texts with the same literal are the same. -/
theorem textLiteral_inj {s t : String} (h : textLiteral s = textLiteral t) : s = t := by
  have hs : value? 1 ((textLiteral s).toList ++ []) = some (.str s, []) :=
    value?_textLiteral s []
  have ht : value? 1 ((textLiteral t).toList ++ []) = some (.str t, []) :=
    value?_textLiteral t []
  rw [h, ht] at hs
  simpa using hs.symm

/-- The id of a handle ends at the bracket that closes its look-up. -/
theorem id_eq_of_digits_append {m n : Nat} {cs ds : List Char}
    (h : Nat.toDigits 10 m ++ ')' :: cs = Nat.toDigits 10 n ++ ')' :: ds) : m = n ∧ cs = ds := by
  have hsplit : ∀ (n : Nat) (cs : List Char),
      (Nat.toDigits 10 n ++ ')' :: cs).takeWhile isAsciiDigit = Nat.toDigits 10 n ∧
        (Nat.toDigits 10 n ++ ')' :: cs).dropWhile isAsciiDigit = ')' :: cs := fun n cs ↦
    span_append (fun _ hc ↦ isAsciiDigit_of_mem_toDigits hc)
      (forall_head?_cons (p := fun c ↦ isAsciiDigit c = false) (by decide) cs)
  have hdigits : Nat.toDigits 10 m = Nat.toDigits 10 n := by
    rw [← (hsplit m cs).1, h, (hsplit n ds).1]
  have hrest : ')' :: cs = ')' :: ds := by
    rw [← (hsplit m cs).2, h, (hsplit n ds).2]
  have hread := natural?_toDigits m
  rw [hdigits, natural?_toDigits] at hread
  exact ⟨(Option.some.inj hread).symm, (List.cons.inj hrest).2⟩

/-- Two look-ups of handles, and what is behind them, are told apart. -/
theorem eq_of_handleRef_append {h h' : Handle} {cs ds : List Char}
    (heq : (handleRef h).toList ++ cs = (handleRef h').toList ++ ds) : h.id = h'.id ∧ cs = ds := by
  simp only [toList_handleRef, List.append_assoc, List.cons_append, List.nil_append,
    List.append_cancel_left_eq, List.cons.injEq, true_and] at heq
  exact id_eq_of_digits_append heq

/-- The comma in front of one literal is not in the literal of another text's end. -/
theorem eq_nil_of_append_literal {front : List Char} {v w : Value}
    (h : ',' :: ' ' :: (literal v).toList = front ++ ',' :: ' ' :: (literal w).toList) :
    front = [] := by
  match front with
  | [] => rfl
  | [c] => simp at h
  | c :: d :: front =>
    rw [List.cons_append, List.cons_append, List.cons.injEq, List.cons.injEq] at h
    exact absurd h.2.2 (literal_ne_append v w front)

/-- Two texts that end with a literal behind a comma are told apart, whatever commas, quotes and
brackets there are in front. -/
theorem eq_of_append_literal {front front' : List Char} {v w : Value}
    (h : front ++ ',' :: ' ' :: (literal v).toList =
      front' ++ ',' :: ' ' :: (literal w).toList) :
    front = front' ∧ literal v = literal w := by
  have hfront : front = front' := by
    rcases List.append_eq_append_iff.1 h with ⟨more, hmore, hrest⟩ | ⟨more, hmore, hrest⟩
    · rw [hmore, eq_nil_of_append_literal hrest, List.append_nil]
    · rw [hmore, eq_nil_of_append_literal hrest, List.append_nil]
  subst hfront
  have hliteral := List.append_cancel_left h
  simp only [List.cons.injEq, true_and] at hliteral
  exact ⟨rfl, String.toList_inj.1 hliteral⟩

/-! ### What a literal leaves out -/

/-- As many values are shown as there are. -/
theorem length_shownAll (name : String → String) (vs : List Value) :
    (Value.shownAll name vs).length = vs.length := by
  induction vs with
  | nil => rfl
  | cons v vs ih => rw [Value.shownAll, List.length_cons, List.length_cons, ih]

mutual

/-- The literal of a value is that of what the value shows. -/
theorem literal_shown (name : String → String) (v : Value) :
    literal (v.shown name) = literal v := by
  cases v with
  | float x =>
    by_cases hnan : x.isNaN
    · have hcanonical : Binary64.nan.isNaN := by decide
      simp [Value.shown, literal, floatLiteral, hnan, hcanonical]
    · simp [Value.shown, hnan]
  | array vs =>
    cases vs with
    | nil => rfl
    | cons v vs =>
      have hitems := literals_shownAll name (v :: vs)
      rw [Value.shown, Value.shownAll, literal, ← Value.shownAll, hitems, literal]
  | tuple vs =>
    have hlength := length_shownAll name vs
    rw [Value.shown, literal, literals_shownAll name vs, hlength, literal]
  | handle h => rfl
  | nothing => rfl
  | bool b => rfl
  | int n => rfl
  | str s => rfl

/-- The literals of values are those of what the values show. -/
theorem literals_shownAll (name : String → String) (vs : List Value) :
    literals (Value.shownAll name vs) = literals vs := by
  cases vs with
  | nil => rfl
  | cons v vs => rw [Value.shownAll, literals, literals, literal_shown name v,
      literals_shownAll name vs]

end

/-- Alike values have the same literal. -/
theorem literal_eq_of_alike {v w : Value} (h : v.Alike w) : literal v = literal w := by
  rw [← literal_shown (fun _ ↦ "") v, h, literal_shown]

/-- Lists of alike values have the same literals. -/
theorem literals_eq_of_alike {vs ws : List Value} (h : List.Forall₂ Value.Alike vs ws) :
    literals vs = literals ws := by
  induction h with
  | nil => rfl
  | cons hv _ ih => rw [literals, literals, literal_eq_of_alike hv, ih]

/-! ### Requests -/

/-- The code of a call, in its parts. -/
theorem toList_callText (callee : Handle) (args : List Value) :
    (callText callee args).toList =
      (handleRef callee).toList ++ '(' :: (itemsText args ++ [')']) := by
  simp [callText, itemsText]

/-- The code of a look-up, in its parts. -/
theorem toList_getAttrText (target : Handle) (name : String) :
    (getAttrText target name).toList =
      "getproperty(".toList ++ ((handleRef target).toList ++
        (", Symbol(".toList ++ ((textLiteral name).toList ++ "))".toList))) := by
  simp [getAttrText]

/-- The code of a conversion, in its parts. -/
theorem toList_convertText (type : String) (value : Value) :
    (convertText type value).toList =
      "convert(".toList ++ ((type.toList ++ ',' :: ' ' :: (literal value).toList) ++ [')']) := by
  simp [convertText]

/-- The code for a new module, in its parts. -/
theorem toList_newModuleText (name : String) :
    (newModuleText name).toList =
      "Module(Symbol(".toList ++ ((textLiteral name).toList ++ "))".toList) := by
  simp [newModuleText]

/-- Calls with the same code are calls of one object with alike arguments. -/
theorem alike_of_callText_eq {callee callee' : Handle} {args args' : List Value}
    (h : callText callee args = callText callee' args') :
    (Request.call callee args).Alike (.call callee' args') := by
  have htext := congrArg String.toList h
  rw [toList_callText, toList_callText] at htext
  obtain ⟨hid, hargs⟩ := eq_of_handleRef_append htext
  exact ⟨hid, alike_of_itemsText_eq (List.append_cancel_right (List.cons.inj hargs).2)⟩

/-- Look-ups with the same code are look-ups of one name in one object. -/
theorem alike_of_getAttrText_eq {target target' : Handle} {name name' : String}
    (h : getAttrText target name = getAttrText target' name') :
    (Request.getAttr target name).Alike (.getAttr target' name') := by
  have htext := congrArg String.toList h
  rw [toList_getAttrText, toList_getAttrText] at htext
  obtain ⟨hid, hname⟩ := eq_of_handleRef_append (List.append_cancel_left htext)
  have hliteral := List.append_cancel_right (List.append_cancel_left hname)
  exact ⟨hid, textLiteral_inj (String.toList_inj.1 hliteral)⟩

/-- Conversions with the same code are conversions of alike values to one type. -/
theorem alike_of_convertText_eq {type type' : String} {value value' : Value}
    (h : convertText type value = convertText type' value') :
    (Request.convert type value).Alike (.convert type' value') := by
  have htext := congrArg String.toList h
  rw [toList_convertText, toList_convertText] at htext
  obtain ⟨htype, hvalue⟩ :=
    eq_of_append_literal (List.append_cancel_right (List.append_cancel_left htext))
  exact ⟨String.toList_inj.1 htype, alike_of_literal_eq hvalue⟩

/-- New modules with the same code have one name. -/
theorem alike_of_newModuleText_eq {name name' : String}
    (h : newModuleText name = newModuleText name') :
    (Request.newModule name).Alike (.newModule name') := by
  have htext := congrArg String.toList h
  rw [toList_newModuleText, toList_newModuleText] at htext
  have hliteral := List.append_cancel_right (List.append_cancel_left htext)
  exact textLiteral_inj (String.toList_inj.1 hliteral)

/-- The code of every operation starts with its own character. -/
theorem head?_code {r : Request} (hr : r.IsComposed) :
    (code r).toList.head? =
      match r with
      | .call _ _ => some '_'
      | .getAttr _ _ => some 'g'
      | .convert _ _ => some 'c'
      | _ => some 'M' := by
  cases r with
  | eval text => cases hr
  | call callee args =>
    rw [code, toList_callText, toList_handleRef]
    rfl
  | getAttr target name =>
    rw [code, toList_getAttrText]
    rfl
  | convert type value =>
    rw [code, toList_convertText]
    rfl
  | newModule name =>
    rw [code, toList_newModuleText]
    rfl

/-- Requests that ask for the same have the same code. -/
theorem code_eq_of_alike {r r' : Request} (h : r.Alike r') : code r = code r' := by
  cases r <;> cases r' <;> try cases h
  case call.call hid hargs =>
    simp only [code, callText, handleRef, hid, literals_eq_of_alike hargs]
  case getAttr.getAttr hid hname => simp only [code, getAttrText, handleRef, hid, hname]
  case convert.convert htype hvalue =>
    simp only [code, convertText, htype, literal_eq_of_alike hvalue]
  case newModule.newModule => rfl

/-- Two composed requests have the same code exactly if they ask for the same, whatever their
names, types and arguments are. -/
theorem code_eq_iff {r r' : Request} (hr : r.IsComposed) (hr' : r'.IsComposed) :
    code r = code r' ↔ r.Alike r' := by
  refine ⟨fun h ↦ ?_, code_eq_of_alike⟩
  have hhead := head?_code hr
  rw [h, head?_code hr'] at hhead
  cases r <;> cases r' <;> try cases hr <;> try cases hr' <;> try cases hhead
  case call.call => exact alike_of_callText_eq h
  case getAttr.getAttr => exact alike_of_getAttrText_eq h
  case convert.convert => exact alike_of_convertText_eq h
  case newModule.newModule => exact alike_of_newModuleText_eq h

/-- What a type loses at its end is not made up for by a longer value. -/
theorem code_ne_of_split_type :
    (Request.convert "f((2, Int" (.int 1)).IsComposed ∧
      (Request.convert "f((2" (.tuple [.str ", ", .int 1])).IsComposed ∧
      code (.convert "f((2, Int" (.int 1)) ≠
        code (.convert "f((2" (.tuple [.str ", ", .int 1])) := by
  have hlong : (Request.convert "f((2, Int" (.int 1)).IsComposed := trivial
  have hshort : (Request.convert "f((2" (.tuple [.str ", ", .int 1])).IsComposed := trivial
  refine ⟨hlong, hshort, fun h ↦ ?_⟩
  obtain ⟨htype, -⟩ := (code_eq_iff hlong hshort).1 h
  exact absurd htype (by decide)

end Wire

end GuestBridge
