import GuestBridge.Proofs.Definition.Comparisons

/-!
# Which parameter list a definition in short form is recognised by

A definition in short form should be recognised by its own parameter list: the parenthesis that
closes the one behind its name is followed, on its line, by the rest of the signature and a plain
equals sign. What is looked for is any closing parenthesis of the line that is followed by such a
rest, and the rest may leave the line. Both are described here, and so is the difference: a call
with another definition or an assignment to a call behind it passes for a definition of what it
calls.
-/

namespace GuestBridge.Definition

open Text

variable {cs rest tail inside sig params last : List Char}

/-! ### Rests of signatures -/

/-- ASCII blanks only. -/
def IsBlanks (b : List Char) : Prop :=
  ∀ c ∈ b, isAsciiBlank c = true

/-- A condition behind its keyword, which may be absent: everything is on one line behind the
blank that follows the keyword. -/
def IsCondition (w : List Char) : Prop :=
  w = [] ∨ ∃ b c text, IsBlanks b ∧ isAsciiBlank c = true ∧ '\n' ∉ text ∧
    w = b ++ ("where".toList ++ c :: text)

/-- A result type behind its colons, which may be absent: everything is on one line behind the
blanks that follow the colons. -/
def IsResultType (t : List Char) : Prop :=
  t = [] ∨ ∃ b b' text, IsBlanks b ∧ IsBlanks b' ∧ text ≠ [] ∧ '\n' ∉ text ∧
    t = b ++ (':' :: ':' :: (b' ++ text))

/-- What may stand between a parameter list and the equals sign: a condition, a result type and
blanks, each of which may be absent. -/
def IsSignatureRest (sig : List Char) : Prop :=
  ∃ w t b, IsCondition w ∧ IsResultType t ∧ IsBlanks b ∧ sig = w ++ t ++ b

private theorem IsBlanks.nil : IsBlanks [] :=
  fun _ hc ↦ nomatch hc

private theorem isBlanks_append {as bs : List Char} :
    IsBlanks (as ++ bs) ↔ IsBlanks as ∧ IsBlanks bs :=
  List.forall_mem_append

private theorem isBlanks_takeWhile (cs : List Char) : IsBlanks (cs.takeWhile isAsciiBlank) :=
  List.all_eq_true.1 List.all_takeWhile

/-- The trailing blanks of a text. -/
theorem exists_trimAsciiEnd (cs : List Char) : ∃ b, IsBlanks b ∧ cs = trimAsciiEnd cs ++ b := by
  refine ⟨(cs.reverse.takeWhile isAsciiBlank).reverse, ?_, ?_⟩
  · exact fun c hc ↦ isBlanks_takeWhile _ c (List.mem_reverse.1 hc)
  · rw [trimAsciiEnd, ← List.reverse_append, List.takeWhile_append_dropWhile, List.reverse_reverse]

private theorem trimAsciiEnd_append {b : List Char} (hb : IsBlanks b) (cs : List Char) :
    trimAsciiEnd (cs ++ b) = trimAsciiEnd cs := by
  have hpos : ∀ c ∈ b.reverse, isAsciiBlank c = true := fun c hc ↦ hb c (List.mem_reverse.1 hc)
  rw [trimAsciiEnd, List.reverse_append, List.dropWhile_append_of_pos hpos, trimAsciiEnd]

/-- A text stays on one line but for trailing blanks. -/
theorem newline_notMem_trimAsciiEnd_iff :
    '\n' ∉ trimAsciiEnd cs ↔ ∃ text b, '\n' ∉ text ∧ IsBlanks b ∧ cs = text ++ b := by
  constructor
  · intro h
    obtain ⟨b, hb, hcs⟩ := exists_trimAsciiEnd cs
    exact ⟨_, b, h, hb, hcs⟩
  · rintro ⟨text, b, htext, hb, rfl⟩
    rw [trimAsciiEnd_append hb]
    exact fun hn ↦ htext (mem_of_mem_trimAsciiEnd hn)

private theorem trimAscii_eq (cs : List Char) :
    trimAscii cs = trimAsciiEnd (cs.dropWhile isAsciiBlank) :=
  rfl

/-- What the recogniser accepts behind the colons of a result type. -/
theorem isTyped_iff : isTyped cs = true ↔ ∃ b' text b, IsBlanks b' ∧ text ≠ [] ∧ '\n' ∉ text ∧
    IsBlanks b ∧ cs = b' ++ text ++ b := by
  unfold isTyped
  split
  next hall =>
    have hall := List.all_eq_true.1 hall
    rw [List.any_eq_true]
    constructor
    · rintro ⟨c, hc, hn⟩
      obtain ⟨b', b, rfl⟩ := List.append_of_mem hc
      have hb := isBlanks_append.1 hall
      refine ⟨b', [c], b, hb.1, by simp, ?_, fun d hd ↦ hb.2 d (List.mem_cons_of_mem _ hd),
        by simp⟩
      exact fun h ↦ of_decide_eq_true hn (List.mem_singleton.1 h).symm
    · rintro ⟨b', text, b, -, hne, hn, -, rfl⟩
      obtain ⟨c, text, rfl⟩ := List.exists_cons_of_ne_nil hne
      refine ⟨c, by simp, ?_⟩
      exact decide_eq_true fun h ↦ hn (h ▸ List.mem_cons_self)
  next hall =>
    have hiff : (!(trimAscii cs).contains '\n') = true ↔ '\n' ∉ trimAscii cs := by simp
    rw [hiff, trimAscii_eq, newline_notMem_trimAsciiEnd_iff]
    constructor
    · rintro ⟨text, b, hn, hb, hcs⟩
      refine ⟨cs.takeWhile isAsciiBlank, text, b, isBlanks_takeWhile cs, ?_, hn, hb, ?_⟩
      · rintro rfl
        refine hall (List.all_eq_true.2 ?_)
        rw [← List.takeWhile_append_dropWhile (p := isAsciiBlank) (l := cs), hcs]
        exact isBlanks_append.2 ⟨isBlanks_takeWhile cs, hb⟩
      · rw [List.append_assoc, ← hcs, List.takeWhile_append_dropWhile]
    · rintro ⟨b', text, b, hb', -, hn, hb, rfl⟩
      refine ⟨text.dropWhile isAsciiBlank, b,
        fun h ↦ hn ((List.dropWhile_suffix _).mem h), hb, ?_⟩
      have hvisible : ¬(text.dropWhile isAsciiBlank).isEmpty = true := by
        intro hempty
        refine hall (List.all_eq_true.2 (isBlanks_append.2 ⟨isBlanks_append.2 ⟨hb', ?_⟩, hb⟩))
        exact List.dropWhile_eq_nil_iff.1 (List.isEmpty_iff.1 hempty)
      rw [List.append_assoc, List.dropWhile_append_of_pos hb', List.dropWhile_append,
        if_neg hvisible]

/-- What the recogniser accepts when it looks for the colons of a result type. -/
theorem isConditioned_go_iff {passed : List Char} : isConditioned.go passed cs = true ↔
    ∃ text cs', cs = text ++ (':' :: ':' :: cs') ∧ '\n' ∉ trimAsciiEnd (passed.reverse ++ text) ∧
      isTyped cs' = true := by
  fun_induction isConditioned.go passed cs with
  | case1 passed cs ih =>
    simp only [Bool.or_eq_true, Bool.and_eq_true, ih]
    constructor
    · rintro (⟨hn, ht⟩ | ⟨text, cs', heq, hn, ht⟩)
      · exact ⟨[], cs, rfl, by simpa using hn, ht⟩
      · exact ⟨':' :: text, cs', by rw [List.cons_append, heq], by simpa using hn, ht⟩
    · rintro ⟨_ | ⟨c, text⟩, cs', heq, hn, ht⟩
      · simp only [List.nil_append, List.cons.injEq, true_and] at heq
        exact .inl ⟨by simpa using hn, heq ▸ ht⟩
      · rw [List.cons_append, List.cons.injEq] at heq
        obtain ⟨rfl, heq⟩ := heq
        exact .inr ⟨text, cs', heq, by simpa using hn, ht⟩
  | case2 passed c cs hcolons ih =>
    rw [ih]
    constructor
    · rintro ⟨text, cs', rfl, hn, ht⟩
      exact ⟨c :: text, cs', rfl, by simpa using hn, ht⟩
    · rintro ⟨_ | ⟨c', text⟩, cs', heq, hn, ht⟩
      · rw [List.nil_append, List.cons.injEq] at heq
        exact absurd heq.2 (hcolons _ heq.1)
      · rw [List.cons_append, List.cons.injEq] at heq
        obtain ⟨rfl, rfl⟩ := heq
        exact ⟨text, cs', rfl, by simpa using hn, ht⟩
  | case3 passed =>
    simp

/-- What the recogniser accepts behind the keyword of a condition and a blank. -/
theorem isConditioned_iff : isConditioned cs = true ↔
    ∃ text t b, '\n' ∉ text ∧ IsResultType t ∧ IsBlanks b ∧ cs = text ++ t ++ b := by
  have hiff : (!(trimAsciiEnd cs).contains '\n') = true ↔ '\n' ∉ trimAsciiEnd cs := by simp
  rw [isConditioned, Bool.or_eq_true, hiff, newline_notMem_trimAsciiEnd_iff,
    isConditioned_go_iff]
  constructor
  · rintro (⟨text, b, hn, hb, rfl⟩ | ⟨front, cs', rfl, hfront, htyped⟩)
    · exact ⟨text, [], b, hn, .inl rfl, hb, by rw [List.append_nil]⟩
    · obtain ⟨text, b, hn, hb, rfl⟩ := newline_notMem_trimAsciiEnd_iff.1 hfront
      obtain ⟨b', type, e, hb', hne, htype, he, rfl⟩ := isTyped_iff.1 htyped
      exact ⟨text, b ++ (':' :: ':' :: (b' ++ type)), e, hn,
        .inr ⟨b, b', type, hb, hb', hne, htype, rfl⟩, he, by simp⟩
  · rintro ⟨text, t, e, hn, rfl | ⟨b, b', type, hb, hb', hne, htype, rfl⟩, he, rfl⟩
    · exact .inl ⟨text, e, hn, he, by rw [List.append_nil]⟩
    · refine .inr ⟨text ++ b, b' ++ type ++ e, by simp, ?_, ?_⟩
      · exact newline_notMem_trimAsciiEnd_iff.2 ⟨text, b, hn, hb, rfl⟩
      · exact isTyped_iff.2 ⟨b', type, e, hb', hne, htype, he, rfl⟩

/-- The recogniser accepts exactly the rests of signatures. -/
theorem isSignatureEnd_iff : isSignatureEnd sig = true ↔ IsSignatureRest sig := by
  have hcolon : isAsciiBlank ':' = false := by decide
  have hkey : isAsciiBlank 'w' = false := by decide
  have hsplit := List.takeWhile_append_dropWhile (p := isAsciiBlank) (l := sig)
  rw [isSignatureEnd, Bool.or_eq_true, Bool.or_eq_true]
  constructor
  · rintro ((hempty | htyped) | hconditioned)
    · refine ⟨[], [], sig, .inl rfl, .inl rfl, ?_, rfl⟩
      exact List.dropWhile_eq_nil_iff.1 (List.isEmpty_iff.1 hempty)
    · split at htyped
      next rest hcore =>
        obtain ⟨b', type, e, hb', hne, htype, he, rfl⟩ := isTyped_iff.1 htyped
        rw [hcore] at hsplit
        exact ⟨[], _, e, .inl rfl,
          .inr ⟨_, b', type, isBlanks_takeWhile sig, hb', hne, htype, rfl⟩, he,
          by simpa using hsplit.symm⟩
      next => cases htyped
    · split at hconditioned
      next c rest hkeyword =>
        obtain ⟨hc, hrest⟩ := Bool.and_eq_true_iff.1 hconditioned
        obtain ⟨text, t, e, hn, ht, he, rfl⟩ := isConditioned_iff.1 hrest
        rw [eq_append_of_dropPrefix? hkeyword] at hsplit
        exact ⟨_, t, e, .inr ⟨_, c, text, isBlanks_takeWhile sig, hc, hn, rfl⟩, ht, he,
          by simpa using hsplit.symm⟩
      next => cases hconditioned
  · rintro ⟨w, t, e, rfl | ⟨b, c, text, hb, hc, hn, rfl⟩, ht, he, rfl⟩
    · rcases ht with rfl | ⟨b, b', type, hb, hb', hne, htype, rfl⟩
      · exact .inl (.inl (List.isEmpty_iff.2 (List.dropWhile_eq_nil_iff.2 he)))
      · have hcore : ([] ++ (b ++ (':' :: ':' :: (b' ++ type))) ++ e).dropWhile isAsciiBlank =
            ':' :: ':' :: (b' ++ type ++ e) := by
          rw [List.nil_append, List.append_assoc, List.dropWhile_append_of_pos hb]
          simp [hcolon]
        rw [hcore]
        exact .inl (.inr (isTyped_iff.2 ⟨b', type, e, hb', hne, htype, he, rfl⟩))
    · have hcore : (b ++ ("where".toList ++ c :: text) ++ t ++ e).dropWhile isAsciiBlank =
          "where".toList ++ (c :: (text ++ t ++ e)) := by
        rw [List.append_assoc, List.append_assoc, List.dropWhile_append_of_pos hb]
        simp [hkey]
      rw [hcore, dropPrefix?_append]
      exact .inr (Bool.and_eq_true_iff.2 ⟨hc, isConditioned_iff.2 ⟨text, t, e, hn, ht, he, rfl⟩⟩)

/-! ### Rests of definitions -/

/-- Behind the rest of a signature stands an equals sign that is not part of a longer operator. -/
def Assigns (sig tail : List Char) : Prop :=
  IsSignatureRest sig ∧ '=' ∉ sig ∧
    ∃ after, tail = sig ++ '=' :: after ∧ ∀ c ∈ after.head?, c ≠ '=' ∧ c ≠ '>'

private theorem isShortTail_iff : isShortTail tail = true ↔ ∃ sig, Assigns sig tail := by
  have hplain (after : List Char) : (!after.head?.any fun c ↦ c = '=' || c = '>') = true ↔
      ∀ c ∈ after.head?, c ≠ '=' ∧ c ≠ '>' := by
    cases after <;> simp
  constructor
  · intro h
    unfold isShortTail at h
    split at h
    next rest hrest =>
      obtain ⟨hsig, hop⟩ := Bool.and_eq_true_iff.1 h
      refine ⟨_, isSignatureEnd_iff.1 hsig, ?_, rest, ?_, (hplain rest).1 hop⟩
      · intro hmem
        simpa using List.all_eq_true.1 List.all_takeWhile '=' hmem
      · rw [← hrest, List.takeWhile_append_dropWhile]
    next => cases h
  · rintro ⟨sig, hsig, hne, after, rfl, hop⟩
    rw [isShortTail_append hne, Bool.and_eq_true]
    exact ⟨isSignatureEnd_iff.2 hsig, (hplain after).2 hop⟩

/-! ### Parameter lists -/

/-- Type parameters in braces on one line, which may be absent. -/
def IsTypeParams (ps : List Char) : Prop :=
  ps = [] ∨ ∃ text, '\n' ∉ text ∧ ps = '{' :: (text ++ ['}'])

/-- Behind a name, a parenthesis opens on its line that one of the line closes in front of `tail`,
which need not be the one that belongs to it. -/
def Encloses (rest tail : List Char) : Prop :=
  ∃ ps inside, IsTypeParams ps ∧ '\n' ∉ inside ∧ rest = ps ++ '(' :: (inside ++ ')' :: tail)

private theorem mem_closings_iff :
    tail ∈ closings cs ↔ ∃ inside, '\n' ∉ inside ∧ cs = inside ++ ')' :: tail := by
  fun_induction closings cs with
  | case1 cs ih =>
    rw [List.mem_cons, ih]
    constructor
    · rintro (rfl | ⟨inside, hn, rfl⟩)
      · exact ⟨[], by simp, rfl⟩
      · exact ⟨')' :: inside, by simpa using hn, rfl⟩
    · rintro ⟨_ | ⟨c, inside⟩, hn, heq⟩
      · exact .inl (List.cons.inj heq).2.symm
      · obtain ⟨rfl, rfl⟩ := List.cons.inj heq
        exact .inr ⟨inside, fun h ↦ hn (List.mem_cons_of_mem _ h), rfl⟩
  | case2 cs =>
    simp only [List.not_mem_nil, false_iff]
    rintro ⟨_ | ⟨c, inside⟩, hn, heq⟩
    · simp at heq
    · obtain ⟨rfl, -⟩ := List.cons.inj heq
      exact hn List.mem_cons_self
  | case3 c cs hparen hnewline ih =>
    rw [ih]
    constructor
    · rintro ⟨inside, hn, rfl⟩
      refine ⟨c :: inside, ?_, rfl⟩
      simpa [hn, eq_comm] using hnewline
    · rintro ⟨_ | ⟨d, inside⟩, hn, heq⟩
      · exact absurd (List.cons.inj heq).1 hparen
      · obtain ⟨rfl, rfl⟩ := List.cons.inj heq
        exact ⟨inside, fun h ↦ hn (List.mem_cons_of_mem _ h), rfl⟩
  | case4 => simp

/-- What stands behind the bracket that closes one opened before, with as many between them still
open, if it is on the line. -/
def closing? (left right : Char) : (depth : Nat) → List Char → Option (List Char)
  | _, [] => none
  | depth, c :: cs =>
    if c = '\n' then none
    else if c = right then
      match depth with
      | 0 => some cs
      | depth + 1 => closing? left right depth cs
    else if c = left then closing? left right (depth + 1) cs
    else closing? left right depth cs

/-- What stands behind the parameter list that belongs to the name in front, by counting. -/
def ownTail? : List Char → Option (List Char)
  | '(' :: cs => closing? '(' ')' 0 cs
  | '{' :: cs =>
    match closing? '{' '}' 0 cs with
    | some ('(' :: cs) => closing? '(' ')' 0 cs
    | _ => none
  | _ => none

private theorem closing?_spec {left right : Char} {depth : Nat}
    (h : closing? left right depth cs = some tail) :
    ∃ inside, '\n' ∉ inside ∧ cs = inside ++ right :: tail := by
  fun_induction closing? left right depth cs with
  | case1 => cases h
  | case2 => cases h
  | case3 cs hn =>
    obtain rfl := Option.some.inj h
    exact ⟨[], by simp, rfl⟩
  | case4 cs depth hn ih =>
    obtain ⟨inside, hinside, rfl⟩ := ih h
    exact ⟨right :: inside, by simpa [eq_comm] using ⟨hn, hinside⟩, rfl⟩
  | case5 depth cs hn hne ih =>
    obtain ⟨inside, hinside, rfl⟩ := ih h
    exact ⟨left :: inside, by simpa [eq_comm] using ⟨hn, hinside⟩, rfl⟩
  | case6 depth c cs hn hright hleft ih =>
    obtain ⟨inside, hinside, rfl⟩ := ih h
    exact ⟨c :: inside, by simpa [eq_comm] using ⟨hn, hinside⟩, rfl⟩

/-- The parenthesis that belongs to the name closes on the line. -/
theorem encloses_of_ownTail? (h : ownTail? rest = some tail) : Encloses rest tail := by
  unfold ownTail? at h
  split at h
  next cs =>
    obtain ⟨inside, hinside, rfl⟩ := closing?_spec h
    exact ⟨[], inside, .inl rfl, hinside, rfl⟩
  next cs =>
    split at h
    next cs' hbraces =>
      obtain ⟨text, htext, rfl⟩ := closing?_spec hbraces
      obtain ⟨inside, hinside, rfl⟩ := closing?_spec h
      exact ⟨_, inside, .inr ⟨text, htext, rfl⟩, hinside, by simp⟩
    next => cases h
  next => cases h

/-- The first closing brace of the line in front of a parenthesis. -/
theorem afterBraces_spec (h : openingEnd.afterBraces cs = some params) :
    ∃ text, '\n' ∉ text ∧ cs = text ++ ('}' :: '(' :: params) := by
  fun_induction openingEnd.afterBraces cs with
  | case1 cs =>
    obtain rfl := Option.some.inj h
    exact ⟨[], by simp, rfl⟩
  | case2 => cases h
  | case3 c cs hbrace hnewline ih =>
    obtain ⟨text, htext, rfl⟩ := ih h
    refine ⟨c :: text, ?_, rfl⟩
    simpa [htext, eq_comm] using hnewline
  | case4 => cases h

/-- What closes behind some closing brace of the line in front of a parenthesis also closes behind
the first such brace. -/
theorem afterBraces_append {text : List Char} (htext : '\n' ∉ text) (hinside : '\n' ∉ inside) :
    ∃ params, openingEnd.afterBraces (text ++ ('}' :: '(' :: (inside ++ ')' :: tail))) =
      some params ∧ tail ∈ closings params := by
  generalize hcs : text ++ ('}' :: '(' :: (inside ++ ')' :: tail)) = cs
  fun_induction openingEnd.afterBraces cs generalizing text with
  | case1 cs =>
    refine ⟨cs, rfl, mem_closings_iff.2 ?_⟩
    rcases text with _ | ⟨c, _ | ⟨d, text⟩⟩
    · simp only [List.nil_append, List.cons.injEq, true_and] at hcs
      exact ⟨inside, hinside, hcs.symm⟩
    · simp at hcs
    · simp only [List.cons_append, List.cons.injEq] at hcs
      obtain ⟨-, -, rfl⟩ := hcs
      exact ⟨text ++ ('}' :: '(' :: inside), by simp_all, by simp⟩
  | case2 cs =>
    rcases text with _ | ⟨c, text⟩
    · simp at hcs
    · simp_all
  | case3 c cs hbrace hnewline ih =>
    rcases text with _ | ⟨d, text⟩
    · simp only [List.nil_append, List.cons.injEq] at hcs
      exact (hbrace _ hcs.1.symm hcs.2.symm).elim
    · simp only [List.cons_append, List.cons.injEq] at hcs
      exact ih (fun h ↦ htext (List.mem_cons_of_mem _ h)) hcs.2
  | case4 => simp at hcs

/-- The recogniser looks behind all closing parentheses of the line that a parenthesis behind the
name is in front of. -/
theorem exists_closings_iff :
    (∃ params, openingEnd rest = some params ∧ tail ∈ closings params) ↔ Encloses rest tail := by
  constructor
  · rintro ⟨params, hparams, htail⟩
    obtain ⟨inside, hinside, rfl⟩ := mem_closings_iff.1 htail
    unfold openingEnd at hparams
    split at hparams
    next cs =>
      obtain rfl := Option.some.inj hparams
      exact ⟨[], inside, .inl rfl, hinside, rfl⟩
    next cs =>
      obtain ⟨text, htext, rfl⟩ := afterBraces_spec hparams
      exact ⟨_, inside, .inr ⟨text, htext, rfl⟩, hinside, by simp⟩
    next => cases hparams
  · rintro ⟨ps, inside, rfl | ⟨text, htext, rfl⟩, hinside, rfl⟩
    · exact ⟨_, rfl, mem_closings_iff.2 ⟨inside, hinside, rfl⟩⟩
    · have hbraces := @afterBraces_append tail inside text htext hinside
      simpa [openingEnd] using hbraces

/-! ### Code that starts with a call -/

/-- Behind a dotted path stands `rest`, which opens a parameter list or type parameters. -/
def Calls (cs last rest : List Char) : Prop :=
  ∃ first more, Rehearsal.isName first = true ∧ (∀ n ∈ more, Rehearsal.isName n = true) ∧
    cs = dotted first more ++ rest ∧ last = more.getLastD first ∧
    ∃ c, rest.head? = some c ∧ (c = '(' ∨ c = '{')

/-- The parameter list of the name is followed, on its line, by the rest of a definition. -/
def OwnList (rest : List Char) : Prop :=
  ∃ tail sig, ownTail? rest = some tail ∧ Assigns sig tail ∧ '\n' ∉ sig

/-- What follows some closing parenthesis of the line looks like the rest of a definition, but the
parenthesis does not belong to the name or the equals sign is on a later line. -/
def Overreach (rest : List Char) : Prop :=
  ∃ tail sig, Encloses rest tail ∧ Assigns sig tail ∧ (ownTail? rest ≠ some tail ∨ '\n' ∈ sig)

private theorem eq_append_of_name? {name : List Char} (h : name? cs = some (name, rest)) :
    cs = name ++ rest := by
  unfold name? at h
  split at h
  next c cs =>
    split at h
    · obtain ⟨rfl, rfl⟩ := Prod.mk.inj (Option.some.inj h)
      rw [List.cons_append, List.takeWhile_append_dropWhile]
    · cases h
  next => cases h

private theorem lastName_spec {fuel : Nat} {name : List Char}
    (h : lastName fuel name cs = (last, rest)) :
    ∃ more : List (List Char), (∀ n ∈ more, Rehearsal.isName n = true) ∧
      cs = more.flatMap ('.' :: ·) ++ rest ∧ last = more.getLastD name := by
  induction fuel generalizing name cs with
  | zero =>
    obtain ⟨rfl, rfl⟩ := Prod.mk.inj h
    exact ⟨[], by simp, rfl, rfl⟩
  | succ fuel ih =>
    have hstop (h : (name, cs) = (last, rest)) : ∃ more : List (List Char),
        (∀ n ∈ more, Rehearsal.isName n = true) ∧ cs = more.flatMap ('.' :: ·) ++ rest ∧
          last = more.getLastD name := by
      obtain ⟨rfl, rfl⟩ := Prod.mk.inj h
      exact ⟨[], by simp, rfl, rfl⟩
    unfold lastName at h
    split at h
    next cs =>
      split at h
      next next cs' hnext =>
        obtain ⟨more, hmore, rfl, rfl⟩ := ih h
        refine ⟨next :: more, ?_, ?_, by rw [List.getLastD_cons]⟩
        · exact List.forall_mem_cons.2 ⟨Rehearsal.isName_of_name? hnext, hmore⟩
        · rw [eq_append_of_name? hnext]
          simp
      next => exact hstop h
    next => exact hstop h

/-- What is read as a path in front of a parameter list is a dotted path. -/
theorem calls_iff : Calls cs last rest ↔
    path? cs = some (last, rest) ∧ ∃ c, rest.head? = some c ∧ (c = '(' ∨ c = '{') := by
  constructor
  · rintro ⟨first, more, hfirst, hmore, rfl, rfl, c, hc, hopens⟩
    refine ⟨path?_dotted hfirst hmore ?_, c, hc, hopens⟩
    intro d hd
    obtain rfl := Option.some.inj (hc.symm.trans hd)
    rcases hopens with rfl | rfl <;> decide
  · rintro ⟨h, hopens⟩
    obtain ⟨⟨first, cs'⟩, hfirst, hmore⟩ := Option.map_eq_some_iff.1 h
    obtain ⟨more, hnames, rfl, rfl⟩ := lastName_spec hmore
    refine ⟨first, more, Rehearsal.isName_of_name? hfirst, hnames, ?_, rfl, hopens⟩
    rw [eq_append_of_name? hfirst, dotted, List.append_assoc]

/-- A path that opens a parameter list is no keyword of a definition in long form. -/
theorem Calls.longForm?_eq (h : Calls cs last rest) : longForm? cs = none := by
  obtain ⟨first, more, hfirst, -, rfl, -, c, hc, hopens⟩ := h
  refine longForm?_dotted_append hfirst fun d hd ↦ ?_
  obtain rfl := Option.some.inj (hc.symm.trans hd)
  rcases hopens with rfl | rfl <;> decide

/-- What the parenthesis encloses and what is behind it either belong to the name or do not. -/
theorem ownList_or_overreach_iff : OwnList rest ∨ Overreach rest ↔
    ∃ tail sig, Encloses rest tail ∧ Assigns sig tail := by
  constructor
  · rintro (⟨tail, sig, hown, hsig, -⟩ | ⟨tail, sig, hencloses, hsig, -⟩)
    · exact ⟨tail, sig, encloses_of_ownTail? hown, hsig⟩
    · exact ⟨tail, sig, hencloses, hsig⟩
  · rintro ⟨tail, sig, hencloses, hsig⟩
    by_cases hown : ownTail? rest = some tail ∧ '\n' ∉ sig
    · exact .inl ⟨tail, sig, hown.1, hsig, hown.2⟩
    · rw [not_and_or, not_not] at hown
      exact .inr ⟨tail, sig, hencloses, hsig, hown⟩

/-- A code is read as a definition in short form if it starts with a call that the rest of a
definition seems to follow. -/
theorem shortForm?_eq_some_iff : shortForm? cs = some last ↔
    ∃ rest, Calls cs last rest ∧ (OwnList rest ∨ Overreach rest) := by
  have hopens {rest params : List Char} (h : openingEnd rest = some params) :
      ∃ c, rest.head? = some c ∧ (c = '(' ∨ c = '{') := by
    unfold openingEnd at h
    split at h
    · exact ⟨_, rfl, .inl rfl⟩
    · exact ⟨_, rfl, .inr rfl⟩
    · cases h
  have hclosings {rest : List Char} : (∃ params, openingEnd rest = some params ∧
      (closings params).any isShortTail = true) ↔ OwnList rest ∨ Overreach rest := by
    rw [ownList_or_overreach_iff]
    constructor
    · rintro ⟨params, hparams, hany⟩
      obtain ⟨tail, htail, hshort⟩ := List.any_eq_true.1 hany
      obtain ⟨sig, hsig⟩ := isShortTail_iff.1 hshort
      exact ⟨tail, sig, exists_closings_iff.1 ⟨params, hparams, htail⟩, hsig⟩
    · rintro ⟨tail, sig, hencloses, hsig⟩
      obtain ⟨params, hparams, htail⟩ := exists_closings_iff.2 hencloses
      exact ⟨params, hparams, List.any_eq_true.2 ⟨tail, htail, isShortTail_iff.2 ⟨sig, hsig⟩⟩⟩
  constructor
  · intro h
    obtain ⟨⟨last', rest⟩, hpath, h⟩ := Option.bind_eq_some_iff.1 h
    obtain ⟨params, hparams, h⟩ := Option.bind_eq_some_iff.1 h
    split at h
    next hany =>
      obtain rfl := Option.some.inj h
      exact ⟨rest, calls_iff.2 ⟨hpath, hopens hparams⟩, hclosings.1 ⟨params, hparams, hany⟩⟩
    next => cases h
  · rintro ⟨rest, hcalls, hrest⟩
    obtain ⟨params, hparams, hany⟩ := hclosings.2 hrest
    simp only [shortForm?, (calls_iff.1 hcalls).1, hparams, Option.bind_some, hany, if_true]

/-! ### Which codes pass as definitions in short form -/

/-- A code is passed through as a definition in short form: it is no definition in long form, and
whatever is asked for, it stays as it is and defines `name`. -/
def PassesAs (code name : String) : Prop :=
  longForm? (skipComments .between code.toList) = none ∧
    ∀ requested params, build requested params code = ⟨name, code, true⟩

/-- A code is wrapped as statements, whatever is asked for. -/
def IsWrapped (code : String) : Prop :=
  ∀ requested params,
    build requested params code = ⟨requested, wrap requested params code, false⟩

/-- Behind its leading comments, a code starts with a call of what ends with `name`; behind the
path stands `rest`. -/
def StartsWithCall (code name : String) (rest : List Char) : Prop :=
  Calls (skipComments .between code.toList) name.toList rest

private theorem passesAs_iff_shortForm? {code name : String} : PassesAs code name ↔
    longForm? (skipComments .between code.toList) = none ∧
      shortForm? (skipComments .between code.toList) = some name.toList := by
  refine and_congr_right fun hlong ↦ ?_
  constructor
  · intro hbuild
    have hempty := hbuild "" []
    cases hshort : shortForm? (skipComments .between code.toList) with
    | none => simp [build, definedName?, hlong, hshort] at hempty
    | some last =>
      have hname : String.ofList last = name := by
        simpa [build, definedName?, hlong, hshort] using hempty
      rw [← hname, String.toList_ofList]
  · intro hshort requested params
    simp [build, definedName?, hlong, hshort]

private theorem isWrapped_iff_shortForm? {code : String} : IsWrapped code ↔
    longForm? (skipComments .between code.toList) = none ∧
      shortForm? (skipComments .between code.toList) = none := by
  constructor
  · intro hwrapped
    have hempty := hwrapped "" []
    cases hlong : longForm? (skipComments .between code.toList) with
    | some last => simp [build, definedName?, hlong] at hempty
    | none =>
      cases hshort : shortForm? (skipComments .between code.toList) with
      | some last => simp [build, definedName?, hlong, hshort] at hempty
      | none => exact ⟨rfl, rfl⟩
  · rintro ⟨hlong, hshort⟩ requested params
    simp [build, definedName?, hlong, hshort]

/-- A code is passed through as a definition in short form exactly if it starts with a call whose
parameter list is followed by the rest of a definition or whose line overreaches: some other
closing parenthesis of the line is followed by what looks like the rest of a definition, or the
equals sign is on a later line. A code in neither form is wrapped. -/
theorem passesAs_iff (code name : String) :
    (PassesAs code name ↔
      ∃ rest, StartsWithCall code name rest ∧ (OwnList rest ∨ Overreach rest)) ∧
    (IsWrapped code ↔ longForm? (skipComments .between code.toList) = none ∧
      ∀ last rest, StartsWithCall code last rest → ¬OwnList rest ∧ ¬Overreach rest) := by
  constructor
  · rw [passesAs_iff_shortForm?, shortForm?_eq_some_iff]
    constructor
    · exact fun h ↦ h.2
    · rintro ⟨rest, hcalls, hrest⟩
      exact ⟨hcalls.longForm?_eq, rest, hcalls, hrest⟩
  · rw [isWrapped_iff_shortForm?]
    refine and_congr_right fun _ ↦ ?_
    constructor
    · intro hnone last rest hcalls
      rw [← not_or]
      intro hrest
      have hsome := shortForm?_eq_some_iff.2 ⟨rest, hcalls, hrest⟩
      rw [hnone] at hsome
      cases hsome
    · intro hcalls
      refine Option.eq_none_iff_forall_ne_some.2 fun last hsome ↦ ?_
      obtain ⟨rest, hlast, hrest⟩ := shortForm?_eq_some_iff.1 hsome
      rw [← String.toList_ofList (l := last)] at hlast
      exact not_or.2 (hcalls _ rest hlast) hrest

/-- The call statement in front of another definition passes for a definition of what it calls,
although nothing is assigned to the call. -/
theorem passesAs_call_statement :
    (∀ c ∈ "f(x); g(y) = 1".toList, c ≠ '"' ∧ c ≠ '\'' ∧ c ≠ '\x60' ∧ c ≠ '#') ∧
      PassesAs "f(x); g(y) = 1" "f" ∧ ¬IsWrapped "f(x); g(y) = 1" ∧
      ∀ name rest, StartsWithCall "f(x); g(y) = 1" name rest →
        ownTail? rest = some "; g(y) = 1".toList ∧ ¬OwnList rest := by
  have hpath : path? (skipComments .between "f(x); g(y) = 1".toList) =
      some ("f".toList, "(x); g(y) = 1".toList) := by decide +kernel
  have hpasses : PassesAs "f(x); g(y) = 1" "f" := by
    rw [passesAs_iff_shortForm?]
    decide +kernel
  refine ⟨by simp, hpasses, ?_, ?_⟩
  · intro hwrapped
    have hcomplete := (hpasses.2 "" []).symm.trans (hwrapped "" [])
    cases congrArg Definition.complete hcomplete
  · intro name rest hcalls
    obtain ⟨hread, -⟩ := calls_iff.1 hcalls
    obtain ⟨-, rfl⟩ := Prod.mk.inj (Option.some.inj (hpath.symm.trans hread))
    have hown : ownTail? "(x); g(y) = 1".toList = some "; g(y) = 1".toList := by
      decide +kernel
    refine ⟨hown, ?_⟩
    rintro ⟨tail, sig, htail, hsig, -⟩
    obtain rfl := Option.some.inj (hown.symm.trans htail)
    exact absurd (isShortTail_iff.2 ⟨sig, hsig⟩) (by decide +kernel)

end GuestBridge.Definition
