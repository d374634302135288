import GuestBridge.Proofs.Host.Reread.Statements

/-!
# Reading items again

The rules for functions, the other items and imports read again what they have read.
-/

namespace GuestBridge.Host

set_option synthInstance.maxSize 100000000

namespace Grammar

open Reader

variable {g g' : Grammar} {n m : Nat} {A p : Place}

/-! ### Functions -/

section

variable [g.Productive] [hg : Rereading g g' n]

instance [Under (n + 1) m] : Rereads .sealed m .plain .typed g.receiver g'.receiver := by
  refine .under (n := n + 1) ?_
  unfold receiver
  infer_instance

end

instance : Eager g.receiver := by
  unfold receiver
  infer_instance

private theorem punct_eq_takeIf (s : String) [Test.Single s] :
    punct s = (do let _ ← takeIf (Test.punct s)) := by
  refine Reader.ext (funext fun c ↦ ?_)
  obtain ⟨p, hp⟩ := Test.Single.eq (s := s)
  have hlength : s.length = 1 := by rw [← String.length_toList, hp, List.length_singleton]
  obtain ⟨_ | ⟨t, xs⟩, ts, es⟩ := c
  · have hnil : Test.punct s [] = false := by rw [Test.punct, hp]; rfl
    simp [punct, require, takeIf, hnil]
  · cases ht : Test.punct s (t :: xs) <;> simp [punct, require, takeIf, ht, hlength, skip]

instance : Solid (Test.punct "&") where
  group _ _ _ := by simp [Test.punct, Test.punctChars]
  punct h := by
    have hchars : "&".toList = ['&'] := by simp
    rw [Test.punct, hchars] at h
    obtain rfl := of_decide_eq_true h
    decide

instance : Agrees (punct? "&") := by
  have hpunct : Agrees (punct "&") := by
    rw [punct_eq_takeIf]
    infer_instance
  exact (Decides.punct? "&").agrees

instance : Foresees .sealed .plain receiverAhead := by
  refine ⟨fun {xs ys} ts ts' es h ↦ ?_⟩
  have hself := Test.Firm.eq (t := Test.word "self") h
  unfold receiverAhead
  simp only [bind_apply, peek_apply, Option.bind_some, ← hself]
  cases hxs : Test.word "self" xs with
  | false =>
    have hagrees : Agrees (do
        if ← punct? "&" then
          let _ ← lifetime?
        let _ ← word? "mut"
        word "self") := inferInstance
    exact hagrees.foresees.eq ts ts' es h
  | true =>
    have hrest : ∃ xs' ys', xs = .word "self" :: xs' ∧ ys = .word "self" :: ys' ∧
        Alike .sealed .typed xs' ys' := by
      cases h with
      | edge he =>
        rw [he.1] at hxs
        cases hxs
      | @same _ _ t _ _ _ hrest =>
        cases t with
        | word w =>
          obtain rfl : w = "self" := of_decide_eq_true hxs
          exact ⟨_, _, rfl, rfl, hrest⟩
        | _ => cases hxs
      | group _ _ => cases hxs
      | @word _ _ w _ _ hw _ =>
        obtain rfl : w = "self" := of_decide_eq_true hxs
        exact absurd hw (by decide)
      | callee hp _ _ => exact absurd rfl hp
    obtain ⟨xs, ys, rfl, rfl, hrest⟩ := hrest
    have hdots := Test.Firm.eq (t := Test.or (Test.butNot (Test.punct "::") (Test.punct ":::"))
      (Test.and (Test.punct ":") (Test.second (Test.punct "...")))) hrest
    simp only [skip, takeIf, bind_apply, peek_apply, hdots, if_true, Option.bind_some, pure_apply]
    split <;> rfl

/-- Generic arguments follow directly, so no parenthesised ones do. -/
theorem Alike.of_angle {xs ys : List Token} (h : Alike .sealed .typed xs ys)
    (hxs : Test.second (Test.punct "<") xs = true) : Alike .sealed .plain xs ys := by
  cases h with
  | edge he => exact .edge he
  | same head hs => exact .same head hs
  | group hi hs => exact .group hi hs
  | word hw hs => exact .word hw hs
  | callee _ hw hs =>
    obtain ⟨_, _, _, _, _, rfl, rfl⟩ | hs := hs.call_cases
    · simp [Test.second, Test.punct, Test.punctChars] at hxs
    · exact .same nofun hs

section

variable [g.Productive] [hg : Rereading g g' n]

instance [Under n m] : Rereads .sealed m .typed .typed g.typeTrees g'.typeTrees := by
  refine .under (n := n) (.lazily (B := .typed) inferInstance ?_)
  rintro ⟨⟨_, trees⟩, _⟩
  infer_instance

/-- A parameter is read again. One without a name starts with generic arguments. -/
instance [Under n m] : Rereads .sealed m .plain .typed g.param g'.param := by
  refine .under (n := n) (.lazily (B := .plain) inferInstance fun received ↦ ?_)
  split
  · infer_instance
  have hnameless : Rereads .sealed n .typed .typed
      (do return some (Param.typed .wildcard (← g.typeTrees)))
      (do return some (Param.typed .wildcard (← g'.typeTrees))) := inferInstance
  have hnamed : Rereads .sealed n .plain .typed
      (do
        let shape ← g.pattern
        punct ":"
        if ← punct? "..." then
          return none
        return some (Param.typed shape (← g.typeTrees)))
      (do
        let shape ← g'.pattern
        punct ":"
        if ← punct? "..." then
          return none
        return some (Param.typed shape (← g'.typeTrees))) := inferInstance
  refine ⟨fun {c c'} p h ↦ ?_⟩
  obtain ⟨nameless, c₁, hpeek, h⟩ := of_bind h
  cases hpeek
  refine .peek (fun _ halike ↦ Test.Firm.eq halike) ?_
  cases htest : Test.and Test.ident (Test.second (Test.punct "<")) c.rest with
  | true =>
    rw [htest, ite_reader, if_pos rfl] at h
    have hangle := (Bool.and_eq_true_iff.1 htest).2
    exact (hnameless.as h).of_start fun _ halike ↦ Alike.of_angle halike hangle
  | false =>
    rw [htest] at h
    exact hnamed.as h

end

instance [g.Productive] : Eager g.typeTrees := by
  unfold typeTrees
  infer_instance

instance [g.Productive] : Eager g.param := by
  unfold param
  infer_instance

section

variable [g.Productive] [hg : Rereading g g' n]

private theorem params_rereads (first : Bool) : Rereads .sealed n .typed .typed
    (bounded (g.params first)) (bounded (g'.params first)) := by
  refine .loop g.params g'.params (fun _ _ _ _ _ ↦ ⟨fun h ↦ by cases h⟩)
    (fun m k hk hm _ fuel fuel' ih first ↦ ?_) first
  have hg := hg.mono hm
  refine .lazily (B := .typed) inferInstance fun ended ↦ ?_
  split
  · infer_instance
  refine .of_start (.lazily (B := .plain) inferInstance fun _ ↦ .asking (k := k) ?_ ?_)
  · simp only [if_true, pure_bind]
    infer_instance
  · refine .eagerly (B := .typed) (inferInstance : Rereads .sealed m .plain .typed g.param g'.param)
      fun declared ↦ ?_
    rcases declared with _ | _ | ⟨shape, type⟩
    · infer_instance
    · infer_instance
    · infer_instance

instance [p.Hard] [Under (n + 1) m] (foreign : Bool) :
    Rereads .sealed m p .typed (g.signature foreign) (g'.signature foreign) := by
  refine .under (n := n + 1) ?_
  have hparams : Rereads .sealed n .typed .typed (bounded (g.params true))
      (bounded (g'.params true)) := params_rereads true
  unfold signature
  infer_instance

end

instance (foreign : Bool) : Eager (g.signature foreign) := by
  unfold signature
  infer_instance

section

variable [g.Productive] [hg : Rereading g g' n]

instance [p.Hard] [Under (n + 1) m] (foreign : Bool) :
    Rereads .sealed m p .typed (g.method foreign) (g'.method foreign) := by
  refine .under (n := n + 1) ?_
  unfold method
  infer_instance

/-! ### Constants, types and variables -/

instance : Rereads .sealed n .typed .typed nameOrBlank nameOrBlank := by
  unfold nameOrBlank
  infer_instance

instance : Eager nameOrBlank := by
  unfold nameOrBlank
  infer_instance

instance [Under n m] : Rereads .sealed m .typed .typed g.constantRest g'.constantRest := by
  refine .under (n := n) ?_
  unfold constantRest
  infer_instance

private theorem boundsUntil_rereads (done : Test) [done.Firm .sealed .typed] (constant : Bool) :
    Rereads .sealed n .typed .typed (g.boundsUntil done constant)
      (g'.boundsUntil done constant) := by
  have hbounds : Rereads .sealed n .typed .typed
      (bounded (separatedBy "+" done (g.bound false constant)))
      (bounded (separatedBy "+" done (g'.bound false constant))) := .separatedBy "+"
  unfold boundsUntil
  infer_instance

instance (done : Test) [done.Firm .sealed .typed] (constant : Bool) [Under n m] :
    Rereads .sealed m .typed .typed (g.boundsUntil done constant) (g'.boundsUntil done constant) :=
  .under (n := n) (boundsUntil_rereads done constant)

instance [Under n m] (early late : Bool) :
    Rereads .sealed m .typed .typed (g.typeRest early late) (g'.typeRest early late) := by
  refine .under (n := n) ?_
  unfold typeRest
  infer_instance

instance [p.Hard] [Under (n + 1) m] :
    Rereads .sealed m p .typed g.staticRest g'.staticRest := by
  refine .under (n := n + 1) ?_
  unfold staticRest
  infer_instance

instance [p.Hard] (named : Bool) :
    Rereads .sealed n p .typed (invocationItem named) (invocationItem named) := by
  unfold invocationItem
  infer_instance

instance [p.Hard] : startsInvocation.Firm .sealed p := by
  unfold startsInvocation
  infer_instance

/-! ### Records -/

end

instance (fuel : Nat) : Eager (g.namedField fuel) := by
  cases fuel with
  | zero => exact inferInstanceAs (Eager failure)
  | succ fuel =>
    unfold namedField
    infer_instance

instance : Eager g.namedFields := by
  unfold namedFields
  infer_instance

instance : Eager g.unnamedFields := by
  unfold unnamedFields
  infer_instance

section

variable [g.Productive] [hg : Rereading g g' n]

instance [Under n m] : Rereads .sealed m .typed .typed g.namedFields g'.namedFields := by
  refine .under (n := n) ?_
  have hfields : Rereads .sealed n .typed .typed
      (bounded fun fuel ↦ group .brace (commaList (g.namedField fuel)))
      (bounded fun fuel ↦ group .brace (commaList (g'.namedField fuel))) := by
    refine .loop (fun (_ : Unit) fuel ↦ group .brace (commaList (g.namedField fuel)))
      (fun _ fuel ↦ group .brace (commaList (g'.namedField fuel))) (fun _ m fuel' hm _ ↦ ?_)
      (fun m k hk hm _ fuel fuel' ih _ ↦ ?_) ()
    · unfold namedField
      infer_instance
    · have hg := hg.mono hm
      have hagain := ih ()
      have hfield : Rereads .sealed m .typed .typed (g.namedField (fuel + 1))
          (g'.namedField (fuel' + 1)) := by
        unfold namedField
        infer_instance
      infer_instance
  unfold namedFields
  infer_instance

instance [Under n m] : Rereads .sealed m .typed .typed g.unnamedFields g'.unnamedFields := by
  refine .under (n := n) ?_
  unfold unnamedFields
  infer_instance

instance [Under n m] : Rereads .sealed m .typed .typed g.recordRest g'.recordRest := by
  refine .under (n := n) ?_
  unfold recordRest
  infer_instance

instance [Under n m] : Rereads .sealed m .typed .typed g.variant g'.variant := by
  refine .under (n := n) ?_
  unfold variant
  infer_instance

instance : Eager g.variant := by
  unfold variant
  infer_instance

/-! ### Groups of items -/

private theorem itemGroup_rereads {one one' : Reader Unit} [Eager one]
    (hone : Rereads .sealed n .plain .typed one one') :
    Rereads .sealed n .typed .typed (g.itemGroup one) (g'.itemGroup one') := by
  have hagain : Rereads .sealed n .typed .typed one one' := hone.of_start
  unfold itemGroup
  infer_instance

instance [Under n m] : Rereads .sealed m .plain .typed g.attributedItem g'.attributedItem := by
  refine .under (n := n) ?_
  unfold attributedItem
  infer_instance

instance : Eager g.attributedItem := by
  unfold attributedItem
  infer_instance

instance [Under n m] : Rereads .sealed m .plain .typed g.foreignItem g'.foreignItem := by
  refine .under (n := n) ?_
  unfold foreignItem
  infer_instance

instance [Under n m] : Rereads .sealed m .plain .typed g.traitItem g'.traitItem := by
  refine .under (n := n) ?_
  unfold traitItem
  infer_instance

instance [Under n m] : Rereads .sealed m .plain .typed g.implItem g'.implItem := by
  refine .under (n := n) ?_
  unfold implItem
  infer_instance

end

section

variable [g.Productive]

instance (foreign : Bool) : Eager (g.method foreign) := by
  unfold method
  infer_instance

instance (named : Bool) : Eager (invocationItem named) := by
  unfold invocationItem
  infer_instance

instance : Eager g.foreignItem := by
  unfold foreignItem
  infer_instance

instance : Eager g.traitItem := by
  unfold traitItem
  infer_instance

instance : Eager g.implItem := by
  unfold implItem
  infer_instance

end

section

variable [g.Productive] [hg : Rereading g g' n]

instance [Under n m] : Rereads .sealed m .typed .typed g.traitRest g'.traitRest := by
  refine .under (n := n) ?_
  have hitems : Rereads .sealed n .typed .typed (g.itemGroup g.traitItem)
      (g'.itemGroup g'.traitItem) := itemGroup_rereads inferInstance
  unfold traitRest
  infer_instance

instance [Under n m] : Rereads .sealed m .typed .typed g.traitOrAliasRest g'.traitOrAliasRest := by
  refine .under (n := n) ?_
  unfold traitOrAliasRest
  infer_instance

instance : opensGenerics.Firm .sealed .typed := by
  have hsecond : Test.any
      [Test.second (Test.or (Test.punct ">") (Test.or (Test.punct "#") (Test.word "const"))),
       Test.and (Test.second (Test.or Test.lifetime Test.ident))
        (Test.second (Test.second (Test.any [Test.punct ">", Test.punct ",",
          Test.butNot (Test.punct ":") (Test.punct "::"), Test.punct "="])))] =
      Test.second (Test.any
        [Test.or (Test.punct ">") (Test.or (Test.punct "#") (Test.word "const")),
         Test.and (Test.or Test.lifetime Test.ident)
          (Test.second (Test.any [Test.punct ">", Test.punct ",",
            Test.butNot (Test.punct ":") (Test.punct "::"), Test.punct "="]))]) := rfl
  rw [opensGenerics, Test.third_eq, hsecond]
  infer_instance

instance [p.Hard] [Under (n + 1) m] : Rereads .sealed m p .typed g.implRest g'.implRest := by
  refine .under (n := n + 1) ?_
  have hitems : Rereads .sealed n .typed .typed (g.itemGroup g.implItem)
      (g'.itemGroup g'.implItem) := itemGroup_rereads inferInstance
  unfold implRest
  infer_instance

/-! ### Imports and modules -/

instance [Under (n + 1) m] (rooted : Bool) :
    Rereads .sealed m A .typed (g.useGroup rooted) (g'.useGroup rooted) := by
  refine .under (n := n + 1) ?_
  unfold useGroup
  infer_instance

/-- The rule for use trees reads again what it has read. -/
theorem useTreeRule_rereads (rooted : Bool) :
    Rereads .sealed (n + 1) .plain .typed (g.useTreeRule rooted) (g'.useTreeRule rooted) := by
  unfold useTreeRule
  infer_instance

instance [Under n m] : Rereads .sealed m .typed .typed g.useRest g'.useRest := by
  refine .under (n := n) ?_
  unfold useRest
  infer_instance

instance [p.Hard] [Under (n + 1) m] :
    Rereads .sealed m p .typed g.foreignRest g'.foreignRest := by
  refine .under (n := n + 1) ?_
  have hitems : Rereads .sealed n .typed .typed (g.itemGroup g.foreignItem)
      (g'.itemGroup g'.foreignItem) := itemGroup_rereads inferInstance
  unfold foreignRest
  infer_instance

instance : Rereads .sealed n .typed .typed externCrateRest externCrateRest := by
  unfold externCrateRest
  infer_instance

instance [p.Hard] [Under (n + 1) m] : Rereads .sealed m p .typed g.modRest g'.modRest := by
  refine .under (n := n + 1) ?_
  have hitems : Rereads .sealed n .typed .typed (g.itemGroup g.attributedItem)
      (g'.itemGroup g'.attributedItem) := itemGroup_rereads inferInstance
  unfold modRest
  infer_instance

instance : Rereads .sealed n .typed .typed macroRest macroRest := by
  unfold macroRest
  infer_instance

/-- The rule for items reads again what it has read. -/
theorem itemRule_rereads : Rereads .sealed (n + 1) .plain .typed g.itemRule g'.itemRule := by
  unfold itemRule
  infer_instance

end

section

variable [g.Productive]

instance : Eager g.modRest := by
  unfold modRest
  infer_instance

instance : Eager g.foreignRest := by
  unfold foreignRest
  infer_instance

instance : Eager g.implRest := by
  unfold implRest
  infer_instance

instance : Eager g.staticRest := by
  unfold staticRest
  infer_instance

instance : Eager g.itemRule := by
  unfold itemRule
  infer_instance

instance (rooted : Bool) : Eager (g.useTreeRule rooted) := by
  unfold useTreeRule useGroup
  infer_instance

end

end Grammar

end GuestBridge.Host
