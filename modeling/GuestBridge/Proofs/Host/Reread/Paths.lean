import GuestBridge.Host.Grammar.Path
import GuestBridge.Proofs.Host.Reread.Basic

/-!
# Reading paths again

Generic arguments are written again with the lifetimes in front, each argument with what it was
read from. So every argument is read again between other ones, and the arrangement of what is
read then is the same.
-/

namespace GuestBridge.Host

set_option synthInstance.maxSize 1024

/-- A piece stands in front of the given punctuation. -/
def Edges.before (c : Char) : Edges :=
  fun xs ys ↦ (∃ joint xs', xs = .punct c joint :: xs') ∧ ∃ joint ys', ys = .punct c joint :: ys'

instance : (Edges.before ',').Even where
  left := by
    rintro _ _ ⟨⟨_, _, rfl⟩, _⟩
    exact .comma
  right := by
    rintro _ _ ⟨_, _, _, rfl⟩
    exact .comma
  where_ := by
    rintro _ _ ⟨_, _, _, rfl⟩
    rfl
  even := by
    rintro _ _ ⟨⟨_, _, rfl⟩, _, _, rfl⟩
    exact .inr ⟨_, _, _, _, _, rfl, rfl⟩

instance : (Edges.before '>').Even where
  left := by
    rintro _ _ ⟨⟨_, _, rfl⟩, _⟩
    exact .angle
  right := by
    rintro _ _ ⟨_, _, _, rfl⟩
    exact .angle
  where_ := by
    rintro _ _ ⟨_, _, _, rfl⟩
    rfl
  even := by
    rintro _ _ ⟨⟨_, _, rfl⟩, _, _, rfl⟩
    exact .inr ⟨_, _, _, _, _, rfl, rfl⟩

instance (comma : Bool) : (Edges.before (if comma then ',' else '>')).Even := by
  cases comma
  · exact inferInstanceAs (Edges.before '>').Even
  · exact inferInstanceAs (Edges.before ',').Even

namespace GenericArg

/-- The arguments that are lifetimes. -/
def lifetimes (args : List GenericArg) : List GenericArg :=
  args.filter (·.isLifetime)

/-- The arguments that are no lifetimes. -/
def others (args : List GenericArg) : List GenericArg :=
  args.filter (!·.isLifetime)

/-- An argument with a comma behind it. -/
def separate (arg : GenericArg) : GenericArg :=
  { arg with comma := true }

/-- The arguments in the order in which they are written again, with the commas behind them. -/
def settle (args : List GenericArg) : List GenericArg :=
  if (others args).isEmpty then lifetimes args
  else (lifetimes args).map separate ++ others args

/-- Only behind the last argument a comma can be missing. -/
def Punctuated : List GenericArg → Prop
  | [] => True
  | arg :: args => (arg.comma = false → args = []) ∧ Punctuated args

end GenericArg

namespace Grammar

open Reader

variable {E : Edges} {g g' : Grammar} {n m : Nat} {A p : Place}

section

variable [g.Productive] [Rereading g g' n]

/-! ### Generic arguments -/

instance [E.Even] [Under n m] : Rereads E m .typed .typed g.constArgument g'.constArgument := by
  refine .under (n := n) ?_
  unfold constArgument
  infer_instance

instance : Eager g.constArgument := by
  unfold constArgument
  infer_instance

instance [E.Even] [Under n m] :
    Rereads E m .typed .typed g.constraintBounds g'.constraintBounds := by
  refine .under (n := n) ?_
  unfold constraintBounds
  infer_instance

instance [E.Even] [Under n m] :
    Rereads E m .typed .typed g.genericArgument g'.genericArgument := by
  refine .under (n := n) ?_
  unfold genericArgument
  infer_instance

instance : Eager g.genericArgument := by
  unfold genericArgument
  infer_instance

end

end Grammar

namespace GenericArg

variable {arg : GenericArg} {args args' : List GenericArg}

/-- Once the lifetimes are separated from them, the other arguments are written as they stand. -/
theorem go_true (h : Punctuated args) : arrange.go true args = args.flatMap arrange.written := by
  induction args with
  | nil => rfl
  | cons arg args ih =>
    cases hcomma : arg.comma with
    | true => simp [arrange.go, hcomma, ih h.2]
    | false =>
      obtain rfl := h.1 hcomma
      simp [arrange.go]

private theorem go_false (hne : args ≠ []) (h : Punctuated args) :
    arrange.go false args = separator :: args.flatMap arrange.written := by
  obtain ⟨arg, args, rfl⟩ := List.exists_cons_of_ne_nil hne
  have hgo : arrange.go false (arg :: args) = separator :: arrange.go true (arg :: args) := by
    simp [arrange.go]
  rw [hgo, go_true h]

private theorem Punctuated.filter (h : Punctuated args) (f : GenericArg → Bool) :
    Punctuated (args.filter f) := by
  induction args with
  | nil => trivial
  | cons arg args ih =>
    rw [List.filter_cons]
    split
    · refine ⟨fun hcomma ↦ ?_, ih h.2⟩
      rw [h.1 hcomma]
      rfl
    · exact ih h.2

/-- Whether what comes behind the arguments is separated from them. -/
def separated (args : List GenericArg) : Bool :=
  match args.getLast? with
  | some arg => arg.comma
  | none => true

private theorem arrange_eq (args : List GenericArg) : arrange args =
    (lifetimes args).flatMap arrange.written ++
      arrange.go (separated (lifetimes args)) (others args) := rfl

private theorem flatMap_separate (h : Punctuated args) :
    (args.map separate).flatMap arrange.written =
      args.flatMap arrange.written ++ if separated args then [] else [separator] := by
  induction args with
  | nil => rfl
  | cons arg args ih =>
    cases args with
    | nil => cases hcomma : arg.comma <;> simp [separate, arrange.written, separated, hcomma]
    | cons next args =>
      have hcomma : arg.comma = true := by
        cases hcomma : arg.comma with
        | true => rfl
        | false => cases h.1 hcomma
      have hlast : separated (arg :: next :: args) = separated (next :: args) := by
        simp [separated]
      rw [List.map_cons, List.flatMap_cons, ih h.2, hlast, List.flatMap_cons, List.append_assoc]
      simp [separate, arrange.written, hcomma]

private theorem go_eq (hne : args ≠ []) (h : Punctuated args) (separated : Bool) :
    arrange.go separated args =
      (if separated then [] else [separator]) ++ args.flatMap arrange.written := by
  cases separated with
  | true => simp [go_true h]
  | false => simp [go_false hne h]

private theorem isLifetime_separate {args : List GenericArg} :
    ∀ arg ∈ (lifetimes args).map separate, arg.isLifetime = true := by
  intro arg harg
  obtain ⟨arg', harg', rfl⟩ := List.mem_map.1 harg
  exact (List.mem_filter.1 harg').2

private theorem lifetimes_settle (args : List GenericArg) : lifetimes (settle args) =
    if (others args).isEmpty then lifetimes args else (lifetimes args).map separate := by
  unfold settle
  split
  · simp [lifetimes]
  · have hothers : (others args).filter (·.isLifetime) = [] := by simp [others]
    have hlifetimes : ((lifetimes args).map separate).filter (·.isLifetime) =
        (lifetimes args).map separate :=
      List.filter_eq_self.2 isLifetime_separate
    rw [lifetimes, List.filter_append, hothers, hlifetimes, List.append_nil]

private theorem others_settle (args : List GenericArg) : others (settle args) = others args := by
  unfold settle
  split
  · next h =>
    rw [List.isEmpty_iff.1 h]
    simp [others, lifetimes]
  · have hlifetimes : ((lifetimes args).map separate).filter (!·.isLifetime) = [] :=
      List.filter_eq_nil_iff.2 fun arg harg ↦ by simp [isLifetime_separate arg harg]
    have hothers : (others args).filter (!·.isLifetime) = others args := by simp [others]
    rw [others, List.filter_append, hlifetimes, hothers, List.nil_append]

/-- Arguments are written as they stand once they are settled. -/
theorem arrange_eq_settle (h : Punctuated args) :
    arrange args = (settle args).flatMap arrange.written := by
  have hlifetimes : Punctuated (lifetimes args) := h.filter _
  have hothers : Punctuated (others args) := h.filter _
  rw [arrange_eq, settle]
  split
  · next hempty =>
    rw [List.isEmpty_iff.1 hempty]
    simp [arrange.go]
  · next hempty =>
    rw [go_eq (by simpa using hempty) hothers, List.flatMap_append, flatMap_separate hlifetimes,
      List.append_assoc]

private theorem arrange_settle (h : Punctuated args) : arrange (settle args) = arrange args := by
  have hlifetimes : Punctuated (lifetimes args) := h.filter _
  have hothers : Punctuated (others args) := h.filter _
  rw [arrange_eq (settle args), lifetimes_settle, others_settle, arrange_eq_settle h, settle]
  split
  · next hempty =>
    rw [List.isEmpty_iff.1 hempty]
    simp [arrange.go]
  · next hempty =>
    have hseparated : separated ((lifetimes args).map separate) = true := by
      simp only [separated, List.getLast?_map]
      cases (lifetimes args).getLast? <;> rfl
    rw [hseparated, go_true hothers, List.flatMap_append]

private theorem isEmpty_settle (args : List GenericArg) : (settle args).isEmpty = args.isEmpty := by
  unfold settle
  split
  · next h =>
    have hall : ∀ arg ∈ args, arg.isLifetime = true := by simpa [others] using h
    rw [lifetimes, List.filter_eq_self.2 hall]
  · next h =>
    have hothers : others args ≠ [] := by simpa using h
    have hargs : args ≠ [] := fun hargs ↦ hothers (by rw [hargs]; rfl)
    rw [Bool.eq_iff_iff, List.isEmpty_iff, List.isEmpty_iff]
    simp [hothers, hargs]

/-- An argument is read again by the second grammar, whatever comes behind it. -/
structure Stays (g' : Grammar) (n : Nat) (arg : GenericArg) (es es' : List Expr) : Prop where
  ne : arg.tokens ≠ []
  head : Token.sizeAll arg.tokens < n → Test.punct ">" arg.tokens = false
  run : Token.sizeAll arg.tokens < n → ∀ (joint : Bool) (ys ts : List Token),
    g'.genericArgument ⟨arg.tokens ++ .punct (if arg.comma then ',' else '>') joint :: ys, ts, es⟩ =
      some (arg.isLifetime, ⟨.punct (if arg.comma then ',' else '>') joint :: ys,
        arg.tokens.reverse ++ ts, es'⟩)
  /-- A lifetime holds no expression. -/
  idle : arg.isLifetime = true → es = es' ∧ ∃ text, arg.tokens = [.lifetime text]

/-- Arguments that are read again one behind the other. -/
inductive Stay (g' : Grammar) (n : Nat) : List GenericArg → List Expr → List Expr → Prop where
  | nil {es : List Expr} : Stay g' n [] es es
  | cons {arg : GenericArg} {args : List GenericArg} {es es' es'' : List Expr} :
    Stays g' n arg es es' → Stay g' n args es' es'' → Stay g' n (arg :: args) es es''

end GenericArg

namespace Grammar

open Reader

variable {g g' : Grammar} {n : Nat}

/-- An argument that is a lifetime is nothing else. -/
theorem genericArgument_eq_true {c c' : Cursor} (h : g.genericArgument c = some (true, c')) :
    ∃ text, c.rest = .lifetime text :: c'.rest ∧ c'.taken = .lifetime text :: c.taken ∧
      c'.embedded = c.embedded := by
  obtain ⟨found, c₁, hpeek, h⟩ := of_bind h
  cases hpeek
  cases hfound : Test.butNot Test.lifetime (Test.second (Test.punct "+")) c.rest with
  | true =>
    rw [hfound, if_pos rfl] at h
    obtain ⟨_, c₂, hlifetime, h⟩ := of_bind h
    cases h
    obtain ⟨_ | ⟨token, rest⟩, taken, embedded⟩ := c
    · cases hlifetime
    · cases token with
      | lifetime text =>
        cases hlifetime
        exact ⟨text, rfl, rfl, rfl⟩
      | _ => cases hlifetime
  | false =>
    have hdenies : Answers false (do
        if ← peek (Test.or Test.literal Test.brace) then
          g.constArgument
          return false
        let shape ← g.type true
        if shape = .name then
          if ← punct? "=" then
            if ← peek (Test.or Test.literal Test.brace) then
              g.constArgument
            else
              let _ ← g.type true
          else if ← punct? ":" then
            g.constraintBounds
        return false) := by
      dsimp only
      infer_instance
    rw [hfound] at h
    cases hdenies.eq h

private theorem genericArgument_lifetime (g : Grammar) {p : Char} (hp : p ≠ '+') (text : String)
    (joint : Bool) (ys ts : List Token) (es : List Expr) :
    g.genericArgument ⟨.lifetime text :: .punct p joint :: ys, ts, es⟩ =
      some (true, ⟨.punct p joint :: ys, .lifetime text :: ts, es⟩) := by
  have htest : Test.butNot Test.lifetime (Test.second (Test.punct "+"))
      (.lifetime text :: .punct p joint :: ys) = true := by
    simp [Test.butNot, Test.lifetime, Test.second, Test.punct, Test.punctChars, Ne.symm hp]
  simp only [genericArgument, bind_apply, peek_apply, htest, Option.bind_some]
  rfl

section

variable [g.Productive] [Rereading g g' n]

open GenericArg

/-- An argument in front of the given punctuation is read again in front of it. -/
theorem stays_before {c c' : Cursor} {isLifetime : Bool} {tokens : List Token} (comma : Bool)
    (h : capture g.genericArgument c = some ((isLifetime, tokens), c'))
    (hstart : Test.punct ">" c.rest = false)
    (hend : ∃ joint rest, c'.rest = .punct (if comma then ',' else '>') joint :: rest) :
    Stays g' n ⟨isLifetime, tokens, comma⟩ c.embedded c'.embedded := by
  obtain ⟨rest, taken, embedded⟩ := c
  simp only [capture] at h
  split at h
  next a rest' piece embedded' hr =>
    cases h
    have hlt := Eager.lt hr
    obtain ⟨piece', htaken, hnil, hpiece⟩ := (Rereads.as hr : RereadsAs
      (.before (if comma then ',' else '>')) n .typed .typed g'.genericArgument _ isLifetime _)
    obtain rfl : piece = piece' := by simpa using htaken
    have hne : piece ≠ [] := fun hpiece ↦ by
      have hlength := hnil.1 hpiece
      omega
    refine ⟨by simpa using hne, fun hsize ↦ ?_, fun hsize joint ys ts ↦ ?_, fun hlifetime ↦ ?_⟩
    · rw [Token.sizeAll_reverse] at hsize
      obtain ⟨halike, -⟩ := hpiece hsize (.punct (if comma then ',' else '>') false :: [])
        (.edge ⟨hend, _, _, rfl⟩)
      have hsame := Test.Firm.eq (t := Test.punct ">") halike
      obtain ⟨token, tokens, htokens⟩ := List.exists_cons_of_ne_nil (List.reverse_ne_nil_iff.2 hne)
      rw [hstart, htokens, List.cons_append] at hsame
      rw [htokens, hsame]
      exact Test.Local.cons token _ _
    · rw [Token.sizeAll_reverse] at hsize
      obtain ⟨-, hrun⟩ := hpiece hsize (.punct (if comma then ',' else '>') joint :: ys)
        (.edge ⟨hend, _, _, rfl⟩)
      simpa using hrun ts
    · subst hlifetime
      obtain ⟨text, -, htext, hembedded⟩ := genericArgument_eq_true hr
      obtain rfl : piece = [.lifetime text] := htext
      exact ⟨hembedded.symm, text, rfl⟩
  next => cases h

/-- The arguments that were read are read again one behind the other. -/
theorem genericArguments_stay {fuel : Nat} {c c' : Cursor} {args : List GenericArg}
    (h : g.genericArguments fuel c = some (args, c')) :
    Stay g' n args c.embedded c'.embedded ∧ Punctuated args ∧
      Test.punct ">" c'.rest = true := by
  induction fuel generalizing c args with
  | zero => cases h
  | succ fuel ih =>
    obtain ⟨closes, c₁, hpeek, h⟩ := of_bind h
    cases hpeek
    cases hcloses : Test.punct ">" c.rest with
    | true =>
      rw [hcloses] at h
      cases h
      exact ⟨.nil, trivial, hcloses⟩
    | false =>
      rw [hcloses] at h
      obtain ⟨⟨isLifetime, tokens⟩, c₂, hcapture, h⟩ := of_bind h
      obtain ⟨ends, c₃, hpeek, h⟩ := of_bind h
      cases hpeek
      cases hends : Test.punct ">" c₂.rest with
      | true =>
        rw [hends] at h
        cases h
        obtain ⟨front, ys, hfront, hrest⟩ := Marks.of_punctChars hends
        have hchars : ">".toList = ['>'] := by simp
        rw [hchars] at hfront
        cases hfront
        have hlast : Stays g' n ⟨isLifetime, tokens, false⟩ _ _ :=
          stays_before false hcapture hcloses ⟨_, ys, hrest⟩
        exact ⟨.cons hlast .nil, ⟨fun _ ↦ rfl, trivial⟩, hends⟩
      | false =>
        rw [hends] at h
        obtain ⟨_, c₃, hcomma, h⟩ := of_bind h
        obtain ⟨rest, c₄, hrest, h⟩ := of_bind h
        cases h
        obtain ⟨front, hfront, hc₂, -, hembedded⟩ := punct_eq_some hcomma
        have hchars : ",".toList = [','] := by simp
        rw [hchars] at hfront
        cases hfront
        obtain ⟨hstay, hpunctuated, hend⟩ := ih hrest
        have harg : Stays g' n ⟨isLifetime, tokens, true⟩ _ _ :=
          stays_before true hcapture hcloses ⟨_, _, hc₂⟩
        rw [hembedded] at hstay
        exact ⟨.cons harg hstay, ⟨nofun, hpunctuated⟩, hend⟩

end

end Grammar

namespace GenericArg

open Grammar Reader

variable {arg : GenericArg} {args args' : List GenericArg} {g' : Grammar} {n : Nat}
  {es es' es'' : List Expr}

private theorem Stay.append (h : Stay g' n args es es') (h' : Stay g' n args' es' es'') :
    Stay g' n (args ++ args') es es'' := by
  induction h with
  | nil => exact h'
  | cons head _ ih => exact .cons head (ih h')

private theorem Stay.idle (h : Stay g' n args es es') :
    ∀ arg ∈ args, arg.isLifetime = true → ∃ text, arg.tokens = [.lifetime text] := by
  induction h with
  | nil => nofun
  | @cons arg args es es' es'' head _ ih =>
    intro a ha hlifetime
    obtain rfl | ha := List.mem_cons.1 ha
    · exact (head.idle hlifetime).2
    · exact ih a ha hlifetime

/-- Lifetimes are read again wherever they stand. -/
theorem Stay.of_lifetimes (h : ∀ arg ∈ args, arg.isLifetime = true)
    (hidle : ∀ arg ∈ args, ∃ text, arg.tokens = [.lifetime text]) : Stay g' n args es es := by
  induction args with
  | nil => exact .nil
  | cons arg args ih =>
    refine .cons ?_ (ih (fun a ha ↦ h a (.tail _ ha)) fun a ha ↦ hidle a (.tail _ ha))
    have hlifetime := h arg (.head _)
    obtain ⟨text, htext⟩ := hidle arg (.head _)
    refine ⟨by simp [htext], fun _ ↦ ?_, fun _ joint ys ts ↦ ?_, fun _ ↦ ⟨rfl, text, htext⟩⟩
    · rw [htext]
      simp [Test.punct, Test.punctChars]
    · rw [htext, hlifetime]
      exact genericArgument_lifetime g' (by split <;> decide) text joint ys ts es

private theorem Stay.others (h : Stay g' n args es es') : Stay g' n (others args) es es' := by
  induction h with
  | nil => exact .nil
  | @cons arg args es es' es'' head _ ih =>
    rw [GenericArg.others, List.filter_cons]
    split
    · exact .cons head ih
    · next hlifetime =>
      obtain ⟨rfl, -⟩ := head.idle (by simpa using hlifetime)
      exact ih

/-- Settled arguments are read again one behind the other, too. -/
theorem Stay.settle (h : Stay g' n args es es') : Stay g' n (settle args) es es' := by
  have hidle {arg : GenericArg} (harg : arg ∈ lifetimes args) :
      ∃ text, arg.tokens = [.lifetime text] := by
    obtain ⟨hmem, hlifetime⟩ := List.mem_filter.1 harg
    exact h.idle arg hmem hlifetime
  rw [GenericArg.settle]
  split
  · next hempty =>
    have hothers := h.others
    rw [List.isEmpty_iff.1 hempty] at hothers
    cases hothers
    exact .of_lifetimes (fun arg harg ↦ (List.mem_filter.1 harg).2) fun arg harg ↦ hidle harg
  · refine Stay.append (.of_lifetimes isLifetime_separate fun arg harg ↦ ?_) h.others
    obtain ⟨arg', harg', rfl⟩ := List.mem_map.1 harg
    exact (hidle harg' :)

private theorem Punctuated.settle (h : Punctuated args) : Punctuated (settle args) := by
  rw [GenericArg.settle]
  split
  · exact h.filter _
  · have happend (l : List GenericArg) : Punctuated (l.map separate ++ GenericArg.others args) := by
      induction l with
      | nil => exact h.filter _
      | cons arg l ih => exact ⟨nofun, ih⟩
    exact happend _

private theorem length_le_sizeAll (h : Stay g' n args es es') :
    args.length ≤ Token.sizeAll (args.flatMap arrange.written) := by
  induction h with
  | nil => exact Nat.le_refl 0
  | @cons arg args es es' es'' head _ ih =>
    have htokens := Token.one_le_sizeAll head.ne
    rw [List.flatMap_cons, arrange.written, List.append_assoc, Token.sizeAll_append,
      Token.sizeAll_append, List.length_cons]
    omega

private theorem Stays.head_append (h : Stays g' n arg es es') (hsize : Token.sizeAll arg.tokens < n)
    (ys : List Token) : Test.punct ">" (arg.tokens ++ ys) = false := by
  have hhead := h.head hsize
  obtain ⟨t, ts, htokens⟩ := List.exists_cons_of_ne_nil h.ne
  rw [htokens] at hhead ⊢
  rw [← hhead]
  exact Test.Local.cons t _ _

/-- One argument is read again. -/
theorem Stays.capture (h : Stays g' n arg es es') (hsize : Token.sizeAll arg.tokens < n)
    (joint : Bool) (ys ts : List Token) :
    Reader.capture g'.genericArgument
      ⟨arg.tokens ++ .punct (if arg.comma then ',' else '>') joint :: ys, ts, es⟩ =
        some ((arg.isLifetime, arg.tokens),
          ⟨.punct (if arg.comma then ',' else '>') joint :: ys,
            arg.tokens.reverse ++ ts, es'⟩) := by
  simp [Reader.capture, h.run hsize]

/-- Arguments that are written as they stand are read again as they stand. -/
theorem Stay.run (h : Stay g' n args es es') (hargs : Punctuated args)
    (hsize : Token.sizeAll (args.flatMap arrange.written) < n) (joint : Bool)
    (ys ts : List Token) (fuel : Nat) (hfuel : args.length < fuel) :
    g'.genericArguments fuel
      ⟨args.flatMap arrange.written ++ .punct '>' joint :: ys, ts, es⟩ =
        some (args,
          ⟨.punct '>' joint :: ys, (args.flatMap arrange.written).reverse ++ ts, es'⟩) := by
  induction h generalizing fuel ts with
  | nil =>
    cases fuel with
    | zero => cases hfuel
    | succ fuel => simp [genericArguments, Reader.peek, Test.punct, Test.punctChars]
  | @cons arg args es es' es'' head tail ih =>
    cases fuel with
    | zero => cases hfuel
    | succ fuel =>
      obtain ⟨isLifetime, tokens, comma⟩ := arg
      rw [List.flatMap_cons, arrange.written] at hsize ⊢
      rw [Token.sizeAll_append, Token.sizeAll_append] at hsize
      have hcloses := head.head_append (by omega)
      have hcapture := head.capture (by omega)
      rw [genericArguments, bind_apply, peek_apply, Option.bind_some]
      cases comma with
      | false =>
        obtain rfl := hargs.1 rfl
        cases tail
        have hangle (ts : List Token) : Test.punct ">" (.punct '>' joint :: ts) = true := by
          simp [Test.punct, Test.punctChars]
        have hlast := hcapture joint ys ts
        simp only [Bool.false_eq_true, if_false] at hlast
        simp [hcloses, hlast, peek_apply, hangle]
      | true =>
        have hseparator (ys ts : List Token) (es : List Expr) :
            punct "," ⟨separator :: ys, ts, es⟩ = some ((), ⟨ys, separator :: ts, es⟩) :=
          punct_append (by simpa using .single : Marks ",".toList [separator]) ys ts es
        have hopen (ys : List Token) : Test.punct ">" (separator :: ys) = false := by
          simp [separator, Test.punct, Test.punctChars]
        have hrest := ih hargs.2 (by omega) (separator :: (tokens.reverse ++ ts)) fuel
          (Nat.lt_of_succ_lt_succ hfuel)
        have hfirst := hcapture false (args.flatMap arrange.written ++ .punct '>' joint :: ys) ts
        simp only [if_true] at hfirst
        rw [← separator] at hfirst
        simp [hcloses, hfirst, peek_apply, hopen, hseparator, hrest]

end GenericArg

namespace Grammar

open Reader GenericArg

variable {E : Edges} {g g' : Grammar} {n m : Nat} {A C p : Place}

instance : Eager g.angleArguments := by
  refine ⟨fun {c c'} a h ↦ ?_⟩
  have hinner : Eager (do
      let colons ← punct? "::"
      punct "<"
      let args ← bounded g.genericArguments
      punct ">"
      return (args.isEmpty,
        angleStart colons ++ GenericArg.arrange args ++ [.punct '>' false])) := inferInstance
  simp only [angleArguments, substituting] at h
  split at h
  next hr =>
    cases h
    exact (hinner.lt hr :)
  next => cases h

/-- Arguments that are written as they are arranged are read again. -/
theorem angleArguments_run {args : List GenericArg} {es es' : List Expr}
    (h : Stay g' n args es es') (hargs : Punctuated args)
    (hsize : Token.sizeAll (arrange args) < n) (colons : Bool) (ys ts : List Token) :
    g'.angleArguments
      ⟨angleStart colons ++ arrange args ++ [Token.punct '>' false] ++ ys, ts, es⟩ =
      some (args.isEmpty,
        ⟨ys, (angleStart colons ++ arrange args ++ [Token.punct '>' false]).reverse ++ ts,
          es'⟩) := by
  have hcolons (ys ts : List Token) : punct? "::" ⟨angleStart colons ++ ys, ts, es⟩ =
      some (colons, ⟨.punct '<' false :: ys,
        (if colons then [.punct ':' false, .punct ':' true] else []) ++ ts, es⟩) := by
    cases colons with
    | true =>
      have hmarks : Marks "::".toList [.punct ':' true, .punct ':' false] := by
        simpa using .cons .single
      exact (Decides.punct? "::").pos.2 ⟨(), punct_append hmarks (.punct '<' false :: ys) ts es⟩
    | false =>
      have htest : Test.punct "::" (.punct '<' false :: ys) = false := by
        simp [Test.punct, Test.punctChars]
      exact (Decides.punct? "::").neg.2 ⟨rfl, htest⟩
  have hopen (ys ts : List Token) (es : List Expr) :
      punct "<" ⟨.punct '<' false :: ys, ts, es⟩ = some ((), ⟨ys, .punct '<' false :: ts, es⟩) :=
    punct_append (by simpa using .single : Marks "<".toList [.punct '<' false]) ys ts es
  have hclose (ys ts : List Token) (es : List Expr) :
      punct ">" ⟨.punct '>' false :: ys, ts, es⟩ = some ((), ⟨ys, .punct '>' false :: ts, es⟩) :=
    punct_append (by simpa using .single : Marks ">".toList [.punct '>' false]) ys ts es
  have hread (ts : List Token) : bounded g'.genericArguments
      ⟨arrange args ++ .punct '>' false :: ys, ts, es⟩ =
        some (settle args, ⟨.punct '>' false :: ys, (arrange args).reverse ++ ts, es'⟩) := by
    rw [arrange_eq_settle hargs] at hsize ⊢
    rw [bounded_apply]
    refine h.settle.run hargs.settle hsize false ys ts _ ?_
    have hlength := length_le_sizeAll h.settle
    rw [Token.sizeAll_append]
    omega
  simp [angleArguments, substituting, hcolons, hopen, hread, hclose, isEmpty_settle,
    arrange_settle hargs]

section

variable [g.Productive] [Rereading g g' n]

/-- Arguments with their arrangement look alike up to their opening bracket. -/
theorem angleStart_alike {c c₁ c₂ : Cursor} {colons : Bool}
    (hcolons : punct? "::" c = some (colons, c₁)) (hopen : punct "<" c₁ = some ((), c₂))
    (ys : List Token) : c₁.embedded = c.embedded ∧
      Alike E .arguments c.rest (angleStart colons ++ ys) := by
  obtain ⟨front, hfront, hc₁, -⟩ := punct_eq_some hopen
  have hangle : "<".toList = ['<'] := by simp
  rw [hangle] at hfront
  cases hfront
  cases colons with
  | true =>
    obtain ⟨_, hpunct⟩ := (Decides.punct? "::").pos.1 hcolons
    obtain ⟨front, hfront, hc, -, hembedded⟩ := punct_eq_some hpunct
    have hdouble : "::".toList = [':', ':'] := by simp
    rw [hdouble] at hfront
    cases hfront with
    | cons hfront =>
      cases hfront
      rw [hc, hc₁]
      exact ⟨hembedded, .turbofish⟩
  | false =>
    obtain ⟨rfl, -⟩ := (Decides.punct? "::").neg.1 hcolons
    rw [hc₁]
    exact ⟨rfl, .angles⟩

instance [Under (n + 1) m] : Rereads E m .arguments C g.angleArguments g'.angleArguments := by
  refine .under (n := n + 1) ⟨fun {c c'} none h ↦ ?_⟩
  have hlt := Eager.lt h
  obtain ⟨rest, taken, embedded⟩ := c
  simp only [angleArguments, substituting] at h
  split at h
  next hinner =>
    cases h
    obtain ⟨colons, c₁, hcolons, hinner⟩ := of_bind hinner
    obtain ⟨_, c₂, hopen, hinner⟩ := of_bind hinner
    obtain ⟨args, c₃, hargs, hinner⟩ := of_bind hinner
    obtain ⟨_, c₄, hclose, hinner⟩ := of_bind hinner
    cases hinner
    rw [bounded_apply] at hargs
    obtain ⟨hstay, hpunctuated, -⟩ :
        Stay g' n args _ _ ∧ Punctuated args ∧ _ := genericArguments_stay hargs
    obtain ⟨-, -, -, -, hc₂⟩ := punct_eq_some hopen
    obtain ⟨-, -, -, -, hc₄⟩ := punct_eq_some hclose
    obtain ⟨hc₁, -⟩ := angleStart_alike (E := E) hcolons hopen []
    rw [hc₂, hc₁, ← hc₄] at hstay
    refine ⟨_, rfl, ?_, fun hsize ys _ ↦ ?_⟩
    · have hne := Nat.ne_of_lt hlt
      simpa using hne
    · obtain ⟨-, halike⟩ := angleStart_alike (E := E) hcolons hopen
        (arrange args ++ [Token.punct '>' false] ++ ys)
      rw [List.reverse_reverse]
      refine ⟨by simpa using halike, fun ts ↦
        angleArguments_run hstay hpunctuated ?_ colons ys ts⟩
      rw [Token.sizeAll_reverse, Token.sizeAll_append, Token.sizeAll_append] at hsize
      have hangle : 1 ≤ Token.sizeAll [Token.punct '>' false] :=
        Token.one_le_sizeAll (List.cons_ne_nil _ _)
      omega
  next => cases h

end

end Grammar

/-! ### Words of paths -/

/-- The place behind a word of a path, which may take parenthesised arguments in a type. -/
def Place.behindWord (inExpr free : Bool) : Place :=
  if !inExpr && free then .call else .typed

/-- The place in front of a path. -/
def Place.atPath (inExpr : Bool) : Place :=
  if inExpr then .plain else .typed

instance (inExpr : Bool) : (Place.atPath inExpr).Hard := by
  cases inExpr
  · exact inferInstanceAs (Place.Hard .typed)
  · exact inferInstanceAs (Place.Hard .plain)

private theorem Alike.of_behindWord {E : Edges} {xs ys : List Token} {inExpr free : Bool}
    (h : Alike E .typed xs ys) : Alike E (.behindWord inExpr free) xs ys := by
  unfold Place.behindWord
  split
  · exact h.of_typed nofun
  · exact h

/-- A word of a path with what follows it. -/
theorem Alike.of_word {E : Edges} {xs ys : List Token} {inExpr : Bool} {w : String}
    (h : Alike E (.behindWord inExpr true) xs ys) (hw : isPathWord w = true) :
    Alike E (.atPath inExpr) (.word w :: xs) (.word w :: ys) := by
  cases inExpr with
  | true => exact .same nofun h
  | false => exact .callee nofun hw h

/-- The test of a path for generic arguments behind a word. -/
def Test.opensArguments (inExpr : Bool) : Test :=
  fun ts ↦ !inExpr && Test.butNot (Test.punct "<") (Test.any [Test.punct "<=", Test.punct "<<="]) ts
    || Test.and (Test.punct "::") (Test.third (Test.punct "<")) ts

namespace Grammar

open Reader

variable {E : Edges} {g g' : Grammar} {n m : Nat} {A C p : Place} {w : String} {inExpr : Bool}

private theorem opensArguments_eq {xs ys : List Token} {p : Place} (h : Alike E p xs ys)
    [(Test.butNot (Test.punct "<") (Test.any [Test.punct "<=", Test.punct "<<="])).Firm E p]
    [(Test.and (Test.punct "::") (Test.third (Test.punct "<"))).Firm E p] :
    Test.opensArguments inExpr xs = Test.opensArguments inExpr ys := by
  have hdirect := Test.Firm.eq (t := Test.butNot (Test.punct "<") (Test.any [Test.punct "<=",
    Test.punct "<<="])) h
  have hcolons := Test.Firm.eq (t := Test.and (Test.punct "::") (Test.third (Test.punct "<"))) h
  simp only [Test.opensArguments, hdirect, hcolons]

private theorem opensArguments_of_arguments [E.Closing] {xs ys : List Token}
    (h : Alike E .arguments xs ys)
    (hxs : Test.opensArguments inExpr xs = true) : Test.opensArguments inExpr ys = true := by
  obtain ⟨_, _, _, rfl, rfl⟩ | ⟨_, _, _, _, rfl, rfl⟩ | h := h.arguments_cases
  · simp_all [Test.opensArguments, Test.butNot, Test.any, Test.and, Test.punct, Test.punctChars]
  · simp [Test.opensArguments, Test.and, Test.third, Test.punct, Test.punctChars]
  · rwa [opensArguments_eq h] at hxs

private theorem opensArguments_of_behindWord [E.Closing] {xs ys : List Token} {free : Bool}
    (h : Alike E (.behindWord inExpr free) xs ys) :
    Test.opensArguments inExpr xs = Test.opensArguments inExpr ys := by
  unfold Place.behindWord at h
  split at h <;> exact opensArguments_eq h

/-- A keyword in a path. -/
theorem pathSegment_keyword (hw : ["super", "self", "crate", "try"].contains w = true)
    (xs ts : List Token) (es : List Expr) : g.pathSegment inExpr ⟨.word w :: xs, ts, es⟩ =
      some ((w, false, true), ⟨xs, .word w :: ts, es⟩) := by
  simp only [pathSegment, bind_apply, peek_apply, Test.oneOf, hw, Option.bind_some]
  rfl

/-- A word of a path that may take generic arguments. -/
theorem pathSegment_word (hw : ["super", "self", "crate", "try"].contains w = false)
    (hword : isArgumentWord w = true) (xs ts : List Token) (es : List Expr) :
    g.pathSegment inExpr ⟨.word w :: xs, ts, es⟩ =
      (if Test.opensArguments inExpr xs then do
        let none ← g.angleArguments
        return (w, true, none)
      else return (w, false, true) : Reader (String × Bool × Bool)) ⟨xs, .word w :: ts, es⟩ := by
  have hpath : Test.oneOf ["super", "self", "crate", "try"] (.word w :: xs) = false := hw
  simp only [pathSegment, bind_apply, peek_apply, hpath, Option.bind_some]
  by_cases hself : w = "Self"
  · subst hself
    rfl
  · have hword : Test.keywords.contains w = false := by simpa [isArgumentWord, hself] using hword
    have hself : Test.word "Self" (.word w :: xs) = false := by simpa [Test.word] using hself
    have hident : ident ⟨.word w :: xs, ts, es⟩ = some (w, ⟨xs, .word w :: ts, es⟩) := by
      simp only [ident, bind_apply, require, Test.ident, hword]
      rfl
    simp [hself, hident, Test.opensArguments, peek_apply]

/-- A path has no other words. -/
theorem pathSegment_eq_some {c c' : Cursor} {s : String × Bool × Bool}
    (h : g.pathSegment inExpr c = some (s, c')) : ∃ w xs, c.rest = .word w :: xs ∧
      (["super", "self", "crate", "try"].contains w = true ∨
        ["super", "self", "crate", "try"].contains w = false ∧ isArgumentWord w = true) := by
  obtain ⟨_ | ⟨w | _ | _ | _ | _, xs⟩, ts, es⟩ := c
  case cons.word =>
    refine ⟨w, xs, rfl, ?_⟩
    cases hw : ["super", "self", "crate", "try"].contains w with
    | true => exact .inl rfl
    | false =>
      refine .inr ⟨rfl, ?_⟩
      have hpath : Test.oneOf ["super", "self", "crate", "try"] (.word w :: xs) = false := hw
      by_cases hself : w = "Self"
      · simp [isArgumentWord, hself]
      · cases hkeyword : Test.keywords.contains w with
        | false => simp only [isArgumentWord, hkeyword, Bool.not_false, Bool.or_true]
        | true =>
          have hself : Test.word "Self" (.word w :: xs) = false := by simpa [Test.word] using hself
          have hident : ident ⟨.word w :: xs, ts, es⟩ = none := by
            simp only [ident, bind_apply, require, Test.ident, hkeyword]
            rfl
          simp [pathSegment, bind_apply, peek_apply, hpath, hself, hident] at h
  all_goals cases h

instance : Eager (g.pathSegment inExpr) := by
  refine ⟨fun {c c'} s h ↦ ?_⟩
  obtain ⟨rest, ts, es⟩ := c
  obtain ⟨w, xs, rfl, hw | ⟨hw, hword⟩⟩ := pathSegment_eq_some h
  · rw [pathSegment_keyword hw] at h
    cases h
    exact Nat.lt_succ_self _
  · rw [pathSegment_word hw hword] at h
    exact Nat.lt_succ_of_le (length_le h)

/-- One word was read. -/
theorem rereadsAs_word {α : Type} {r' : Reader α} {a : α} {xs ts : List Token} {es : List Expr}
    (halike : ∀ ys, Alike E C xs ys → Alike E A (.word w :: xs) (.word w :: ys))
    (hrun : ∀ ys ts, Alike E C xs ys →
      r' ⟨.word w :: ys, ts, es⟩ = some (a, ⟨ys, .word w :: ts, es⟩)) :
    RereadsAs E n A C r' ⟨.word w :: xs, ts, es⟩ a ⟨xs, .word w :: ts, es⟩ :=
  ⟨[.word w], rfl, by simp, fun _ ys hys ↦ ⟨halike ys hys, fun ts ↦ hrun ys ts hys⟩⟩

section

variable [g.Productive] [Rereading g g' n]

/-- A word of a path with its arguments is read again. -/
theorem pathSegment_rereadsAs [E.Closing] {c c' : Cursor} {s : String × Bool × Bool}
    (h : g.pathSegment inExpr c = some (s, c')) :
    RereadsAs E (n + 1) (.atPath inExpr) (.behindWord inExpr s.2.2) (g'.pathSegment inExpr)
      c s c' := by
  obtain ⟨rest, ts, es⟩ := c
  obtain ⟨w, xs, rfl, hw | ⟨hw, hword⟩⟩ := pathSegment_eq_some h
  · have hpath : isPathWord w = true := by simp only [isPathWord, hw, Bool.or_true]
    rw [pathSegment_keyword hw] at h
    cases h
    exact rereadsAs_word (fun ys hys ↦ .of_word hys hpath)
      fun ys ts _ ↦ pathSegment_keyword hw ys ts es
  · rw [pathSegment_word hw hword] at h
    cases hopens : Test.opensArguments inExpr xs with
    | false =>
      rw [hopens] at h
      cases h
      refine rereadsAs_word (fun ys hys ↦ .of_word hys (by simp [isPathWord, hword]))
        fun ys ts hys ↦ ?_
      rw [pathSegment_word hw hword, ← opensArguments_of_behindWord hys, hopens]
      rfl
    | true =>
      rw [hopens, if_pos rfl] at h
      obtain ⟨free, c₁, hargs, h⟩ := of_bind h
      cases h
      have hangles : RereadsAs E (n + 1) .arguments (.behindWord inExpr free) g'.angleArguments
          _ free c' := Rereads.as hargs
      obtain ⟨piece, htaken, hnil, hpiece⟩ := hangles
      refine ⟨piece ++ [.word w], by simp [htaken], ?_, fun hsize ys hys ↦ ?_⟩
      · have hle := length_le hargs
        simp only [List.append_eq_nil_iff, List.cons_ne_nil, and_false, false_iff]
        exact Nat.ne_of_lt (Nat.lt_succ_of_le hle)
      · rw [Token.sizeAll_append] at hsize
        obtain ⟨halike, hrun⟩ := hpiece (by omega) ys hys
        rw [List.reverse_append]
        refine ⟨.word hword halike, fun ts ↦ ?_⟩
        have hagain := opensArguments_of_arguments halike hopens
        simp only [List.reverse_singleton, List.nil_append, List.cons_append]
        rw [pathSegment_word hw hword, hagain, if_pos rfl, bind_apply, hrun]
        simp

/-- Whether the last word of a path may take parenthesised arguments. -/
def lastFree (first : String × Bool × Bool) (more : List (String × Bool × Bool)) : Bool :=
  (more.getLast?.getD first).2.2

/-- More words of a path are read again, where the test for them fails again behind them. -/
theorem segments_rereadsAs [E.Closing] {t : Test} [t.Firm E .plain]
    (ht : ∀ {free xs ys}, Alike E (.behindWord inExpr free) xs ys → t xs = false → t ys = false)
    {c c' : Cursor} {more : List (String × Bool × Bool)}
    (h : repeatWhile t (do punct "::"; g.pathSegment inExpr) c = some (more, c'))
    (first : String × Bool × Bool) :
    RereadsAs E (n + 1) (.behindWord inExpr first.2.2) (.behindWord inExpr (lastFree first more))
      (repeatWhile t (do punct "::"; g'.pathSegment inExpr)) c more c' := by
  refine .bounded ?_
  rw [repeatWhile, bounded_apply] at h
  generalize Token.sizeAll c.rest + 1 = fuel at h
  induction fuel generalizing c c' more first with
  | zero => cases h
  | succ fuel ih =>
    intro m fuel' hm hfuel
    refine RereadsAs.of_succ (fun fuel' hfuel ↦ ?_) fuel' hfuel
    obtain ⟨found, c₁, hpeek, h⟩ := of_bind h
    cases hpeek
    cases hfound : t c.rest with
    | false =>
      rw [hfound] at h
      cases h
      refine .refl fun ys hys ts ↦ ?_
      rw [whileTest, bind_apply, peek_apply, ht hys hfound]
      rfl
    | true =>
      rw [hfound] at h
      obtain ⟨s, c₂, hs, h⟩ := of_bind h
      obtain ⟨more, c₃, hmore, h⟩ := of_bind h
      cases h
      obtain ⟨_, c₁, hcolons, hsegment⟩ := of_bind hs
      have hfirst : RereadsAs E m .plain (.behindWord inExpr s.2.2)
          (do punct "::"; g'.pathSegment inExpr) c s c₂ := by
        have hpunct : RereadsAs E m .plain .typed (punct "::") c () c₁ := Rereads.as hcolons
        have hword : RereadsAs E (n + 1) (.atPath inExpr) (.behindWord inExpr s.2.2)
          (g'.pathSegment inExpr) c₁ s c₂ := pathSegment_rereadsAs hsegment
        exact hpunct.bind ((hword.mono hm).of_start fun _ halike ↦ halike.typed)
          (length_le hsegment) (length_le hcolons) (Nat.le_refl _) (.inl (Nat.le_refl _))
      have hagain := ih s hmore (m - 1) fuel' (by omega) (by omega)
      have hlast : lastFree first (s :: more) = lastFree s more := by
        cases more with
        | nil => rfl
        | cons next more => simp [lastFree, List.getLast?_eq_some_getLast]
      have hall :=
        hfirst.bind (κ := fun a ↦ do
            let as ← whileTest t (do punct "::"; g'.pathSegment inExpr) fuel'
            return a :: as)
          (hagain.map (b := s :: more) fun hd ↦ by simp [hd]) (length_le hmore) (length_le hs)
          (Nat.le_refl _) (.inr ⟨Eager.lt hs, by omega⟩)
      rw [whileTest, hlast]
      refine (RereadsAs.peek (fun _ halike ↦ Test.Firm.eq halike) ?_).of_plain
      rw [hfound, if_pos rfl]
      exact hall

/-- Behind a word, no double colons are written again where none were read. -/
theorem colons_of_behindWord [E.Closing] {free : Bool} {xs ys : List Token}
    (h : Alike E (.behindWord inExpr free) xs ys) (hxs : Test.punct "::" xs = false) :
    Test.punct "::" ys = false := by
  unfold Place.behindWord at h
  split at h
  · obtain ⟨_, _, _, _, _, rfl, rfl⟩ | h := h.call_cases
    · simp [Test.punct, Test.punctChars] at hxs
    · rwa [← Test.Firm.eq (t := Test.punct "::") h]
  · rwa [← Test.Firm.eq (t := Test.punct "::") h]

private theorem more_of_behindWord [E.Closing] {free : Bool} {xs ys : List Token}
    (h : Alike E (.behindWord inExpr free) xs ys)
    (hxs : Test.butNot (Test.punct "::") (Test.third Test.paren) xs = false) :
    Test.butNot (Test.punct "::") (Test.third Test.paren) ys = false := by
  unfold Place.behindWord at h
  split at h <;>
    rwa [← Test.Firm.eq (t := Test.butNot (Test.punct "::") (Test.third Test.paren)) h]

/-- A path is read again. -/
theorem path_rereadsAs [E.Closing] {c c' : Cursor} {shape : PathShape}
    (h : g.path inExpr c = some (shape, c')) :
    RereadsAs E (n + 1) (.atPath inExpr) (.behindWord inExpr shape.free) (g'.path inExpr)
      c shape c' := by
  obtain ⟨rooted, c₁, hrooted, h⟩ := of_bind h
  obtain ⟨first, c₂, hfirst, h⟩ := of_bind h
  obtain ⟨more, c₃, hmore, h⟩ := of_bind h
  cases h
  have hstart : RereadsAs E (n + 1) (.atPath inExpr) (.atPath inExpr) (punct? "::")
      c rooted c₁ := Rereads.as hrooted
  have hword : RereadsAs E (n + 1) (.atPath inExpr) (.behindWord inExpr first.2.2)
      (g'.pathSegment inExpr) c₁ first c₂ := pathSegment_rereadsAs hfirst
  have hwords : RereadsAs E (n + 1) (.behindWord inExpr first.2.2)
      (.behindWord inExpr (lastFree first more)) (g'.morePathSegments inExpr) c₂ more c' :=
    segments_rereadsAs more_of_behindWord hmore first
  refine hstart.bind (κ := fun rooted ↦ do
      let first ← g'.pathSegment inExpr
      let more ← g'.morePathSegments inExpr
      return pathShape rooted false first more)
    (hword.bind (κ := fun first ↦ do
        let more ← g'.morePathSegments inExpr
        return pathShape rooted false first more)
      (hwords.map fun hd ↦ ?_) (length_le hmore) (length_le hfirst) (Nat.le_refl _)
      (.inl (Nat.le_refl _)))
    (Nat.le_trans (length_le hmore) (length_le hfirst)) (length_le hrooted) (Nat.le_refl _)
    (.inl (Nat.le_refl _))
  simp [hd]

/-- A path is read again in front of what takes no arguments, too. -/
instance [E.Closing] [Under (n + 1) m] :
    Rereads E m (.atPath inExpr) .typed (g.path inExpr) (g'.path inExpr) :=
  .under (n := n + 1)
    ⟨fun h ↦ (path_rereadsAs h).of_end fun _ _ halike ↦ halike.of_behindWord⟩

/-- What follows the type at the start of a path. -/
def qualifiedRest (g : Grammar) (inExpr : Bool) : Reader PathShape := do
  punct ">"
  punct "::"
  let first ← g.pathSegment inExpr
  let more ← repeatWhile (Test.punct "::") do
    punct "::"
    g.pathSegment inExpr
  return pathShape true true first more

private theorem qualifiedRest_rereadsAs [E.Closing] {c c' : Cursor} {shape : PathShape}
    (h : g.qualifiedRest inExpr c = some (shape, c')) :
    RereadsAs E (n + 1) A (.behindWord inExpr shape.free) (g'.qualifiedRest inExpr) c shape c' := by
  obtain ⟨_, c₁, hangle, h⟩ := of_bind h
  obtain ⟨_, c₂, hcolons, h⟩ := of_bind h
  obtain ⟨first, c₃, hfirst, h⟩ := of_bind h
  obtain ⟨more, c₄, hmore, h⟩ := of_bind h
  cases h
  have hclose : RereadsAs E (n + 1) A .typed (punct ">") c () c₁ := Rereads.as hangle
  have hdouble : RereadsAs E (n + 1) .typed .typed (punct "::") c₁ () c₂ := Rereads.as hcolons
  have hword : RereadsAs E (n + 1) .typed (.behindWord inExpr first.2.2) (g'.pathSegment inExpr)
      c₂ first c₃ :=
    (pathSegment_rereadsAs hfirst).of_start fun _ halike ↦ halike.typed
  have hwords : RereadsAs E (n + 1) (.behindWord inExpr first.2.2)
      (.behindWord inExpr (lastFree first more))
      (repeatWhile (Test.punct "::") (do punct "::"; g'.pathSegment inExpr)) c₃ more c' :=
    segments_rereadsAs colons_of_behindWord hmore first
  have hshape := hwords.map (s := do
      let more ← repeatWhile (Test.punct "::") (do punct "::"; g'.pathSegment inExpr)
      return pathShape true true first more) (b := pathShape true true first more)
    fun hd ↦ by simp [hd]
  have hsegments := hword.bind (n := n + 1) (κ := fun first ↦ do
      let more ← repeatWhile (Test.punct "::") (do punct "::"; g'.pathSegment inExpr)
      return pathShape true true first more) hshape (length_le hmore) (length_le hfirst)
    (Nat.le_refl _) (.inl (Nat.le_refl _))
  have hle := Nat.le_trans (length_le hmore) (length_le hfirst)
  exact hclose.bind (hdouble.bind hsegments hle (length_le hcolons) (Nat.le_refl _)
    (.inl (Nat.le_refl _))) (Nat.le_trans hle (length_le hcolons)) (length_le hangle)
    (Nat.le_refl _) (.inl (Nat.le_refl _))

/-- A path that may start with a type is read again. -/
theorem qualifiedPath_rereadsAs [E.Closing] {c c' : Cursor} {shape : PathShape}
    (h : g.qualifiedPath inExpr c = some (shape, c')) :
    RereadsAs E (n + 1) (.atPath inExpr) (.behindWord inExpr shape.free)
      (g'.qualifiedPath inExpr) c shape c' := by
  obtain ⟨qualified, c₁, hqualified, h⟩ := of_bind h
  cases qualified with
  | false =>
    have hstart : RereadsAs E (n + 1) (.atPath inExpr) (.atPath inExpr) (punct? "<")
        c false c₁ := Rereads.as hqualified
    exact hstart.bind (path_rereadsAs h) (length_le h) (length_le hqualified) (Nat.le_refl _)
      (.inl (Nat.le_refl _))
  | true =>
    have hstart : RereadsAs E (n + 1) (.atPath inExpr) .typed (punct? "<") c true c₁ :=
      Asks.pos hqualified
    obtain ⟨_, c₂, htype, h⟩ := of_bind h
    obtain ⟨cast, c₃, hcast, h⟩ := of_bind h
    have hself : RereadsAs E n .typed .typed (g'.type true) c₁ _ c₂ := Rereads.as htype
    have has : RereadsAs E n .typed .typed (word? "as") c₂ cast c₃ := Rereads.as hcast
    have hrest : RereadsAs E n .typed (.behindWord inExpr shape.free) (do
        if cast then let _ ← g'.path false
        g'.qualifiedRest inExpr) c₃ shape c' := by
      cases cast with
      | false => exact (qualifiedRest_rereadsAs h).mono (Nat.le_succ n)
      | true =>
        obtain ⟨_, c₄, hpath, h⟩ := of_bind h
        have htrait : RereadsAs E n .typed .typed (g'.path false) c₃ _ c₄ :=
          (Rereads.as hpath : RereadsAs E n (.atPath false) .typed (g'.path false) c₃ _ c₄)
        exact htrait.bind (qualifiedRest_rereadsAs h) (length_le h) (length_le hpath)
          (Nat.le_refl _) (.inl (Nat.le_succ n))
    have hle := length_le h
    refine hstart.bind (hself.bind (has.bind hrest hle (length_le hcast) (Nat.le_refl _)
      (.inl (Nat.le_refl _))) (Nat.le_trans hle (length_le hcast)) (length_le htype)
      (Nat.le_refl _) (.inl (Nat.le_refl _)))
      (Nat.le_trans hle (Nat.le_trans (length_le hcast) (length_le htype)))
      (length_le hqualified) (Nat.le_refl _) (.inr ⟨Shows.lt hqualified, Nat.le_refl _⟩)

/-! ### Parenthesised arguments -/

instance [E.Closing] [Under n m] (plus : Bool) :
    Rereads E m .typed .typed (g.resultType plus) (g'.resultType plus) := by
  refine .under (n := n) ?_
  unfold resultType
  infer_instance

instance [E.Closing] [Under (n + 1) m] :
    Rereads E m A .typed g.parenArguments g'.parenArguments := by
  refine .under (n := n + 1) ?_
  unfold parenArguments
  infer_instance

instance : Eager g.parenArguments := by
  unfold parenArguments
  infer_instance

end

private theorem paren_eq_true {ts : List Token} (h : Test.paren ts = true) :
    ∃ is xs, ts = .group .paren is :: xs := by
  rcases ts with _ | ⟨_ | _ | _ | _ | ⟨d, is⟩, xs⟩
  case cons.group =>
    obtain rfl : Delimiter.paren = d := by simpa [Test.paren, Test.group] using h
    exact ⟨is, xs, rfl⟩
  all_goals cases h

/-- Two colons in a row are two trees of which the first is joint. -/
theorem colons_eq_true {ts : List Token} (h : Test.punct "::" ts = true) :
    ∃ joint xs, ts = .punct ':' true :: .punct ':' joint :: xs := by
  obtain ⟨front, ys, hfront, rfl⟩ := Marks.of_punctChars h
  have hchars : "::".toList = [':', ':'] := by simp
  rw [hchars] at hfront
  cases hfront with
  | cons hfront =>
    cases hfront
    exact ⟨_, ys, rfl⟩

private theorem colons_paren_eq_true {ts : List Token}
    (h : Test.and (Test.punct "::") (Test.third Test.paren) ts = true) : ∃ joint is xs,
      ts = .punct ':' true :: .punct ':' joint :: .group .paren is :: xs := by
  obtain ⟨hcolons, hparen⟩ := Bool.and_eq_true_iff.1 h
  obtain ⟨joint, ys, rfl⟩ := colons_eq_true hcolons
  obtain ⟨is, xs, rfl⟩ := paren_eq_true hparen
  exact ⟨joint, is, xs, rfl⟩

/-- The shape of a path that has taken parenthesised arguments. -/
def called (shape : PathShape) : PathShape :=
  { shape with bare := false, single := false, free := false }

/-- Where parentheses come next, they are taken. -/
theorem parenArguments?_paren {shape : PathShape} (hfree : shape.free = true)
    (is xs ts : List Token) (es : List Expr) :
    g.parenArguments? shape ⟨.group .paren is :: xs, ts, es⟩ =
      (do g.parenArguments; return called shape) ⟨.group .paren is :: xs, ts, es⟩ := by
  have hcolons : Test.and (Test.punct "::") (Test.third Test.paren)
      (.group .paren is :: xs) = false := by
    simp [Test.and, Test.punct, Test.punctChars]
  have hparen : Test.paren (.group .paren is :: xs) = true := rfl
  simp only [parenArguments?, bind_apply, peek_apply, Option.bind_some, hcolons, hparen, hfree,
    Bool.or_true, Bool.and_true]
  rfl

/-- Double colons in front of parentheses are left out. -/
theorem parenArguments?_colons {shape : PathShape} (hfree : shape.free = true) (joint : Bool)
    (is xs ts : List Token) (es : List Expr) :
    g.parenArguments? shape
      ⟨.punct ':' true :: .punct ':' joint :: .group .paren is :: xs, ts, es⟩ =
        (do g.parenArguments; return called shape) ⟨.group .paren is :: xs, ts, es⟩ := by
  have hcolons : Test.and (Test.punct "::") (Test.third Test.paren)
      (.punct ':' true :: .punct ':' joint :: .group .paren is :: xs) = true := by
    simp [Test.and, Test.punct, Test.punctChars, Test.third, Test.paren, Test.group]
  have hmarks : Marks "::".toList [.punct ':' true, .punct ':' joint] := by
    simpa using .cons .single
  have hread : (substituting (do punct "::"; return ((), [])) : Reader Unit)
      ⟨.punct ':' true :: .punct ':' joint :: .group .paren is :: xs, ts, es⟩ =
        some ((), ⟨.group .paren is :: xs, ts, es⟩) := by
    have hpunct := punct_append hmarks (.group .paren is :: xs) [] es
    simp only [List.cons_append, List.nil_append] at hpunct
    simp [substituting, hpunct]
  simp only [parenArguments?, bind_apply, peek_apply, Option.bind_some, hcolons, hfree,
    Bool.true_or, Bool.and_true, ite_reader, if_true, hread]
  rfl

/-- Where no arguments come next, or none are allowed, none are taken. -/
theorem parenArguments?_none {shape : PathShape} {c : Cursor} (h : (shape.free &&
    (Test.and (Test.punct "::") (Test.third Test.paren) c.rest || Test.paren c.rest)) = false) :
    g.parenArguments? shape c = some (shape, c) := by
  simp only [parenArguments?, bind_apply, peek_apply, Option.bind_some, h]
  rfl

section

variable [g.Productive] [Rereading g g' n]

variable (g') in
/-- Parentheses that were read are read again. -/
theorem parenArguments?_rereadsAs_paren [E.Closing] {c' : Cursor} {shape : PathShape}
    (hfree : shape.free = true) {is xs ts : List Token} {es : List Expr}
    (h : g.parenArguments ⟨.group .paren is :: xs, ts, es⟩ = some ((), c')) :
    ∃ piece, c'.taken = piece ++ ts ∧ piece ≠ [] ∧ (Token.sizeAll piece < n + 1 →
      ∀ ys, Alike E .typed c'.rest ys → ∃ js zs, piece.reverse ++ ys = .group .paren js :: zs ∧
        Alike E .plain (.group .paren is :: xs) (piece.reverse ++ ys) ∧
        ∀ ts, g'.parenArguments? shape ⟨piece.reverse ++ ys, ts, es⟩ =
          some (called shape, ⟨ys, piece ++ ts, c'.embedded⟩)) := by
  have hlt := Eager.lt h
  obtain ⟨piece, htaken, hnil, hpiece⟩ :=
    (Rereads.as h : RereadsAs E (n + 1) .plain .typed g'.parenArguments _ () c')
  refine ⟨piece, htaken, fun hempty ↦ Nat.ne_of_lt hlt (hnil.1 hempty), fun hsize ys hys ↦ ?_⟩
  obtain ⟨halike, hrun⟩ := hpiece hsize ys hys
  have hparen : Test.paren (piece.reverse ++ ys) = true :=
    (Test.Firm.eq (t := Test.paren) halike).symm
  obtain ⟨js, zs, hzs⟩ := paren_eq_true hparen
  refine ⟨js, zs, hzs, halike, fun ts ↦ ?_⟩
  rw [hzs] at hrun ⊢
  rw [parenArguments?_paren hfree, bind_apply, hrun]
  rfl

/-- Parenthesised arguments behind a path are read again without double colons. -/
theorem parenArguments?_rereadsAs [E.Closing] {c c' : Cursor} {shape s : PathShape}
    (h : g.parenArguments? shape c = some (s, c')) :
    RereadsAs E (n + 1) (.behindWord false shape.free) .typed (g'.parenArguments? shape) c s
      c' := by
  cases htakes : (shape.free &&
    (Test.and (Test.punct "::") (Test.third Test.paren) c.rest || Test.paren c.rest)) with
  | false =>
    rw [parenArguments?_none htakes] at h
    cases h
    refine ⟨[], rfl, by simp, fun _ ys hys ↦ ⟨hys.of_behindWord, fun ts ↦ ?_⟩⟩
    rw [Test.Firm.eq (t := Test.and (Test.punct "::") (Test.third Test.paren)) hys,
      Test.Firm.eq (t := Test.paren) hys] at htakes
    exact parenArguments?_none htakes
  | true =>
    obtain ⟨hfree, htakes⟩ := Bool.and_eq_true_iff.1 htakes
    obtain ⟨rest, ts, es⟩ := c
    rcases Bool.or_eq_true_iff.1 htakes with hcolons | hparen
    · obtain ⟨joint, is, xs, rfl⟩ := colons_paren_eq_true hcolons
      rw [parenArguments?_colons hfree] at h
      obtain ⟨_, c₁, hargs, h⟩ := of_bind h
      cases h
      obtain ⟨piece, htaken, hne, hpiece⟩ :=
        parenArguments?_rereadsAs_paren (E := E) g' hfree hargs
      refine ⟨piece, htaken, ?_, fun hsize ys hys ↦ ?_⟩
      · simp only [hne, false_iff]
        exact Nat.ne_of_lt (Nat.lt_trans (Eager.lt hargs) (Nat.lt_add_of_pos_right Nat.two_pos))
      · obtain ⟨js, zs, hzs, -, hrun⟩ := hpiece hsize ys hys
        refine ⟨?_, hrun⟩
        rw [hzs, hfree]
        exact .parens
    · obtain ⟨is, xs, rfl⟩ := paren_eq_true hparen
      rw [parenArguments?_paren hfree] at h
      obtain ⟨_, c₁, hargs, h⟩ := of_bind h
      cases h
      obtain ⟨piece, htaken, hne, hpiece⟩ :=
        parenArguments?_rereadsAs_paren (E := E) g' hfree hargs
      refine ⟨piece, htaken, ?_, fun hsize ys hys ↦ ?_⟩
      · simp only [hne, false_iff]
        exact Nat.ne_of_lt (Eager.lt hargs)
      · obtain ⟨-, -, -, halike, hrun⟩ := hpiece hsize ys hys
        exact ⟨halike.of_plain _, hrun⟩

/-- The path of a type with its arguments is read again. -/
instance [E.Closing] [Under (n + 1) m] : Rereads E m .typed .typed g.typePath g'.typePath := by
  refine .under (n := n + 1) ⟨fun {c c'} s h ↦ ?_⟩
  obtain ⟨shape, c₁, hpath, h⟩ := of_bind h
  exact (qualifiedPath_rereadsAs hpath : RereadsAs E (n + 1) (.atPath false)
    (.behindWord false shape.free) (g'.qualifiedPath false) c shape c₁).bind
    (parenArguments?_rereadsAs h) (length_le h) (length_le hpath) (Nat.le_refl _)
    (.inl (Nat.le_refl _))

/-- The path of a bound with its arguments is read again. -/
theorem call_rereads [E.Closing] : Rereads E (n + 1) .typed .typed
    (g.path false >>= g.parenArguments?) (g'.path false >>= g'.parenArguments?) := by
  refine ⟨fun {c c'} s h ↦ ?_⟩
  obtain ⟨shape, c₁, hpath, h⟩ := of_bind h
  exact (path_rereadsAs hpath : RereadsAs E (n + 1) (.atPath false)
    (.behindWord false shape.free) (g'.path false) c shape c₁).bind
    (parenArguments?_rereadsAs h) (length_le h) (length_le hpath) (Nat.le_refl _)
    (.inl (Nat.le_refl _))

instance {β : Type} {κ κ' : PathShape → Reader β} [E.Closing] [Under (n + 1) m] {C : Place}
    [∀ s, Rereads E m .typed C (κ s) (κ' s)] : Rereads E m .typed C
      (g.path false >>= fun shape ↦ g.parenArguments? shape >>= κ)
      (g'.path false >>= fun shape ↦ g'.parenArguments? shape >>= κ') := by
  rw [← bind_assoc, ← bind_assoc]
  exact .lazily (B := .typed) (.under (n := n + 1) call_rereads) inferInstance

/-- The path of an expression is read again. -/
instance [E.Closing] [Under (n + 1) m] :
    Rereads E m A .typed (g.qualifiedPath true) (g'.qualifiedPath true) :=
  .under (n := n + 1) ⟨fun h ↦ (qualifiedPath_rereadsAs h).of_plain⟩

end

instance : Eager (g.path inExpr) := by
  unfold path
  infer_instance

instance [g.Productive] : Eager (g.qualifiedPath inExpr) := by
  unfold qualifiedPath
  infer_instance

instance [g.Productive] : Eager g.typePath := by
  unfold typePath
  infer_instance

end Grammar

end GuestBridge.Host
