import GuestBridge.Host.Grammar.Pattern
import GuestBridge.Proofs.Host.Reread.Paths

/-!
# Reading types and patterns again

The rules for generic parameters, bounds, types and patterns read again what they have read.
-/

namespace GuestBridge.Host

set_option synthInstance.maxSize 8192

/-- A piece stands in front of a closing angle bracket, behind which everything looks alike. -/
def Edges.angled (E : Edges) : Edges :=
  fun xs ys ↦ ∃ joint xs' ys', xs = .punct '>' joint :: xs' ∧ ys = .punct '>' joint :: ys' ∧
    Alike E .typed xs' ys'

variable {E : Edges}

instance : E.angled.Even where
  left := by
    rintro _ _ ⟨_, _, _, rfl, _⟩
    exact .angle
  right := by
    rintro _ _ ⟨_, _, _, _, rfl, _⟩
    exact .angle
  where_ := by
    rintro _ _ ⟨_, _, _, _, rfl, _⟩
    rfl
  even := by
    rintro _ _ ⟨_, _, _, rfl, rfl, _⟩
    exact .inr ⟨_, _, _, _, _, rfl, rfl⟩

private theorem Alike.of_angled {p : Place} {xs ys : List Token} (h : Alike E.angled p xs ys) :
    Alike E p xs ys := by
  refine h.of_edges ?_
  rintro _ _ ⟨joint, xs, ys, rfl, rfl, h⟩
  exact .same nofun h

namespace Reader

/-- What stands in front of a closing angle bracket is read again in front of one. -/
theorem Rereads.enclosed {α β : Type} {n : Nat} {A C : Place} {r r' : Reader α}
    {κ κ' : α → Reader β} (hr : Rereads E.angled n A .typed r r')
    (hk : ∀ a, Rereads E n .typed C (κ a) (κ' a)) :
    Rereads E n A C (r >>= fun a ↦ punct ">" >>= fun _ ↦ κ a)
      (r' >>= fun a ↦ punct ">" >>= fun _ ↦ κ' a) := by
  refine ⟨fun {c c'} b h ↦ ?_⟩
  obtain ⟨a, c₁, hra, h⟩ := of_bind h
  obtain ⟨_, c₂, hangle, h⟩ := of_bind h
  obtain ⟨piece, htaken, hnil, hpiece⟩ := hr.as hra
  obtain ⟨piece', htaken', hnil', hpiece'⟩ := (hk a).as h
  obtain ⟨front, hfront, hrest, hfronted, hembedded⟩ := punct_eq_some hangle
  have hlength := length_le hra
  have hlength' := length_le h
  have hchars : ">".toList = ['>'] := by simp
  rw [hchars] at hfront
  cases hfront with
  | @single _ joint =>
    refine ⟨piece' ++ .punct '>' joint :: piece, ?_, ?_, fun hsize ys hys ↦ ?_⟩
    · rw [htaken', hfronted, htaken]
      simp
    · rw [hrest, List.length_append, List.length_singleton] at hlength
      simp only [List.append_eq_nil_iff, List.cons_ne_nil, and_false, false_iff]
      omega
    · rw [Token.sizeAll_append, Token.sizeAll] at hsize
      obtain ⟨halike', hrun'⟩ := hpiece' (by omega) ys hys
      obtain ⟨halike, hrun⟩ := hpiece (by omega) (.punct '>' joint :: (piece'.reverse ++ ys))
        (.edge ⟨joint, _, _, hrest, rfl, halike'⟩)
      have hmarks : Marks ">".toList [.punct '>' joint] := by simpa using .single
      have hpunct := punct_append hmarks (piece'.reverse ++ ys)
      simp only [List.reverse_append, List.reverse_cons, List.append_assoc, List.cons_append,
        List.nil_append] at hpunct ⊢
      refine ⟨halike.of_angled, fun ts ↦ ?_⟩
      rw [bind_apply, hrun, Option.bind_some, bind_apply, hpunct, Option.bind_some, ← hembedded,
        hrun']
      simp

private theorem Rereads.enclosed_last {α : Type} {n : Nat} {A : Place} {r r' : Reader α}
    (hr : Rereads E.angled n A .typed r r') :
    Rereads E n A .typed (r >>= fun _ ↦ punct ">") (r' >>= fun _ ↦ punct ">") := by
  have hpure : Rereads E n A .typed (r >>= fun _ ↦ punct ">" >>= fun _ ↦ pure ())
      (r' >>= fun _ ↦ punct ">" >>= fun _ ↦ pure ()) := hr.enclosed inferInstance
  simpa only [bind_pure_unit] using hpure

end Reader

namespace Grammar

open Reader

variable {g g' : Grammar} {n m : Nat} {A p : Place}

/-! ### Generic parameters -/

instance [E.Even] : Rereads E n A .typed lifetimeParam lifetimeParam := by
  unfold lifetimeParam
  infer_instance

instance : Eager lifetimeParam := by
  unfold lifetimeParam
  infer_instance

section

variable [g.Productive] [Rereading g g' n]

instance [E.Even] [p.Hard] [Under n m] : Rereads E m p .typed g.typeParam g'.typeParam := by
  refine .under (n := n) ?_
  unfold typeParam
  infer_instance

instance [E.Even] [p.Hard] [Under n m] : Rereads E m p .typed g.constParam g'.constParam := by
  refine .under (n := n) ?_
  unfold constParam
  infer_instance

end

instance : Eager g.typeParam := by
  unfold typeParam
  infer_instance

instance : Eager g.constParam := by
  unfold constParam
  infer_instance

section

variable [g.Productive] [Rereading g g' n]

instance [E.Even] [Under n m] :
    Rereads E m .typed .typed g.genericParam g'.genericParam := by
  refine .under (n := n) ?_
  unfold genericParam
  infer_instance

end

instance : Eager g.genericParam := by
  unfold genericParam
  infer_instance

section

variable [g.Productive] [Rereading g g' n]

instance [E.Even] [Under n m] :
    Rereads E m .typed .typed g.itemGenericParam g'.itemGenericParam := by
  refine .under (n := n) ?_
  unfold itemGenericParam
  infer_instance

end

instance : Eager g.itemGenericParam := by
  unfold itemGenericParam
  infer_instance

section

variable [g.Productive] [Rereading g g' n]

instance [E.Even] [Under (n + 1) m] : Rereads E m .typed .typed g.generics g'.generics := by
  refine .under (n := n + 1) ?_
  unfold generics
  infer_instance

instance [E.Closing] [p.Hard] [Under (n + 1) m] : Asks E m p g.binder? g'.binder? :=
  .under (n := n + 1) <| .followed (k := n) (.eagerly (k := n) (B := .typed) inferInstance fun _ ↦
    .enclosed inferInstance inferInstance) rfl rfl

end

instance : Shows g.binder? := .followed rfl

instance : Rereads E n A .typed (takeIf captures.captured) (takeIf captures.captured) := by
  unfold captures.captured
  infer_instance

instance [E.Closing] : Rereads E n A .typed captures captures :=
  .eagerly (k := n) (B := .typed) inferInstance fun _ ↦
    .eagerly (k := n) (B := .typed) inferInstance fun _ ↦
      .enclosed_last inferInstance

instance : Eager captures := by
  unfold captures
  infer_instance

/-! ### Bounds -/

instance [E.Closing] : Rereads E n .typed .typed traitBound.constMark traitBound.constMark := by
  unfold traitBound.constMark
  infer_instance

section

variable [g.Productive] [Rereading g g' n]

instance [E.Closing] [Under (n + 1) m] (constant : Bool) :
    Rereads E m .typed .typed (g.traitBound constant) (g'.traitBound constant) := by
  refine .under (n := n + 1) ?_
  unfold traitBound
  infer_instance

end

instance [g.Productive] (constant : Bool) : Eager (g.traitBound constant) := by
  unfold traitBound
  infer_instance

section

variable [g.Productive] [Rereading g g' n]

instance [E.Closing] [Under (n + 1) m] (capturing constant : Bool) : Rereads E m .typed .typed
    (g.boundRule capturing constant) (g'.boundRule capturing constant) := by
  refine .under (n := n + 1) ?_
  unfold boundRule
  infer_instance

end

instance [g.Productive] (capturing constant : Bool) : Eager (g.boundRule capturing constant) := by
  unfold boundRule
  infer_instance

/-- A word that starts no conditions looks the same on both sides. -/
theorem anyWord_eq [E.Closing] {xs ys : List Token} (h : Alike E .typed xs ys)
    (hxs : Test.word "where" xs = false) : Test.anyWord xs = Test.anyWord ys := by
  have hcloser {ts : List Token} (hts : Closer ts) (hwhere : Test.word "where" ts = false) :
      Test.anyWord ts = false := by
    cases hts with
    | where_ => cases hwhere
    | _ => rfl
  cases h with
  | edge he =>
    rw [hcloser (Edges.Closing.left he) hxs,
      hcloser (Edges.Closing.right he) (Edges.Closing.where_ he)]
  | same _ _ => exact Test.Local.cons _ _ _
  | group _ _ => rfl
  | word _ _ => rfl
  | callee _ _ _ => rfl

/-- Behind a plus sign, bounds go on alike, except in front of conditions. -/
theorem continuesBounds_eq [E.Closing] {xs ys : List Token} (constant : Bool)
    (h : Alike E .typed xs ys) (hxs : Test.word "where" xs = false) :
    continuesBounds constant xs = continuesBounds constant ys := by
  have hword := anyWord_eq h hxs
  have hother : Test.any ([Test.punct "::", Test.punct "?", Test.lifetime, Test.paren] ++
      if constant then [Test.bracket, Test.word "const"] else []) xs =
      Test.any ([Test.punct "::", Test.punct "?", Test.lifetime, Test.paren] ++
        if constant then [Test.bracket, Test.word "const"] else []) ys := by
    cases constant
    · exact Test.Firm.eq (t := Test.any [Test.punct "::", Test.punct "?", Test.lifetime,
        Test.paren]) h
    · exact Test.Firm.eq (t := Test.any [Test.punct "::", Test.punct "?", Test.lifetime,
        Test.paren, Test.bracket, Test.word "const"]) h
  simp only [continuesBounds, List.cons_append, Test.any_cons, Test.or] at hother ⊢
  rw [hword, hother]

private theorem where_of_continuesBounds {ts : List Token} {constant : Bool}
    (h : continuesBounds constant ts = false) : Test.word "where" ts = false := by
  rcases ts with _ | ⟨_ | _ | _ | _ | _, _⟩
  case cons.word => cases h
  all_goals rfl

/-- A reader accepts no conditions. -/
class Barred {α : Type} (r : Reader α) : Prop where
  eq {c : Cursor} : Test.word "where" c.rest = true → r c = none

instance {α β : Type} {r : Reader α} {κ : α → Reader β} [Barred r] : Barred (r >>= κ) :=
  ⟨fun h ↦ by rw [bind_apply, Barred.eq h]; rfl⟩

/-- More bounds behind a plus sign are read again. Conditions are no bounds. -/
instance (priority := high) {α : Type} [E.Closing] {constant : Bool} {r r' k k' : Reader α}
    [Barred r] [hr : Rereads E n .typed .typed r r'] [hk : Rereads E n .typed .typed k k'] :
    Rereads E n .typed .typed
      (do if ← peek (continuesBounds constant) then r else k)
      (do if ← peek (continuesBounds constant) then r' else k') := by
  refine ⟨fun {c c'} a h ↦ ?_⟩
  obtain ⟨goes, c₁, hpeek, h⟩ := of_bind h
  cases hpeek
  have hnot : Test.word "where" c.rest = false := by
    cases hgoes : continuesBounds constant c.rest with
    | false => exact where_of_continuesBounds hgoes
    | true =>
      rw [hgoes] at h
      cases hword : Test.word "where" c.rest with
      | false => rfl
      | true =>
        rw [if_pos rfl, Barred.eq hword] at h
        cases h
  refine .peek (fun ys hys ↦ continuesBounds_eq constant hys hnot) ?_
  cases hgoes : continuesBounds constant c.rest with
  | true =>
    rw [hgoes] at h
    exact hr.as h
  | false =>
    rw [hgoes] at h
    exact hk.as h

section

variable [g.Productive]

instance (plus capturing constant : Bool) (fuel : Nat) :
    Barred (g.boundSum plus capturing constant fuel) := by
  cases fuel with
  | zero => exact ⟨fun _ ↦ rfl⟩
  | succ fuel =>
    have hbound : Barred (g.bound capturing constant) := ⟨Productive.where_ capturing constant⟩
    unfold boundSum
    infer_instance

instance (plus capturing constant : Bool) :
    Barred (bounded (g.boundSum plus capturing constant)) :=
  ⟨fun h ↦ by rw [bounded_apply, Barred.eq h]⟩

/-- A sum of bounds is read again if its bounds are. -/
theorem boundSum_rereads [E.Closing] (plus capturing constant : Bool)
    (hbound : Rereads E m .typed .typed (g.bound capturing constant)
      (g'.bound capturing constant)) :
    Rereads E m .typed .typed (bounded (g.boundSum plus capturing constant))
      (bounded (g'.boundSum plus capturing constant)) := by
  refine .repetition (fun _ ↦ rfl) fun m' k hk hm _ fuel fuel' ih ↦ ?_
  have hbound := hbound.mono hm
  unfold boundSum
  refine .eagerly (k := k) hbound fun kind ↦ ?_
  have hpairs : Rereads E k .typed .typed (do
      let more ← g.boundSum plus capturing constant fuel
      return (kind :: more.1, more.2)) (do
      let more ← g'.boundSum plus capturing constant fuel'
      return (kind :: more.1, more.2)) := .lazily (B := .typed) ih inferInstance
  infer_instance

private theorem boundsWithTrait_rereads [E.Closing] (plus capturing constant : Bool)
    (hbound : Rereads E m .typed .typed (g.bound capturing constant)
      (g'.bound capturing constant)) :
    Rereads E m .typed .typed (g.boundsWithTrait plus capturing constant)
      (g'.boundsWithTrait plus capturing constant) := by
  refine .lazily (B := .typed) (boundSum_rereads plus capturing constant hbound) ?_
  rintro ⟨kinds, hanging⟩
  infer_instance

instance (plus capturing constant : Bool) (fuel : Nat) :
    Eager (g.boundSum plus capturing constant fuel) := by
  cases fuel with
  | zero => exact inferInstanceAs (Eager failure)
  | succ fuel =>
    unfold boundSum
    infer_instance

instance (plus capturing constant : Bool) :
    Eager (g.boundsWithTrait plus capturing constant) := by
  unfold boundsWithTrait
  infer_instance

end

section

variable [g.Productive] [Rereading g g' n]

instance [E.Closing] [Under n m] (plus capturing constant : Bool) : Rereads E m .typed .typed
    (bounded (g.boundSum plus capturing constant))
    (bounded (g'.boundSum plus capturing constant)) :=
  boundSum_rereads plus capturing constant inferInstance

instance [E.Closing] [Under n m] (plus capturing constant : Bool) : Rereads E m .typed .typed
    (g.boundsWithTrait plus capturing constant) (g'.boundsWithTrait plus capturing constant) :=
  boundsWithTrait_rereads plus capturing constant inferInstance

/-! ### Conditions -/

instance [E.Even] : endsCondition.Firm E .typed := by
  unfold endsCondition
  infer_instance

instance [E.Even] [Under n m] : Rereads E m .typed .typed g.condition g'.condition := by
  refine .under (n := n) ?_
  unfold condition
  infer_instance

end

instance [g.Productive] : Eager g.condition := by
  unfold condition
  infer_instance

section

variable [g.Productive] [hg : Rereading g g' n]

instance [E.Even] [Under n m] :
    Rereads E m .typed .typed (bounded g.conditions) (bounded g'.conditions) := by
  refine .under (n := n) (.repetition (fun _ ↦ rfl) fun m k hk hm _ fuel fuel' ih ↦ ?_)
  have hg := hg.mono hm
  unfold conditions
  infer_instance

instance [E.Even] [Under n m] : Rereads E m .typed .typed g.whereClause? g'.whereClause? := by
  refine .under (n := n) ?_
  unfold whereClause?
  infer_instance

/-! ### Types -/

instance [Under n m] : Rereads .sealed m .typed .typed g.parenthesised g'.parenthesised := by
  refine .under (n := n) ?_
  unfold parenthesised
  infer_instance

instance [E.Closing] [Under n m] :
    Rereads E m .typed .typed g.furtherBounds g'.furtherBounds := by
  refine .under (n := n) ?_
  unfold furtherBounds
  infer_instance

instance [E.Closing] [Under (n + 1) m] (plus : Bool) :
    Rereads E m A .typed (g.parenType plus) (g'.parenType plus) := by
  refine .under (n := n + 1) (.eagerly (B := .typed) inferInstance fun inner ↦ ?_)
  cases inner <;> infer_instance

instance [E.Closing] [Under (n + 1) m] (plus bound : Bool) :
    Rereads E m .typed .typed (g.pathType plus bound) (g'.pathType plus bound) := by
  refine .under (n := n + 1) ?_
  unfold pathType
  infer_instance

instance [Under n m] (first : Bool) : Rereads .sealed m .typed .typed
    (g.functionTypeArgument first) (g'.functionTypeArgument first) := by
  refine .under (n := n) ?_
  unfold functionTypeArgument
  infer_instance

end

instance [g.Productive] (first : Bool) : Eager (g.functionTypeArgument first) := by
  unfold functionTypeArgument
  infer_instance

/-- A colon in front of dots is not doubled. -/
instance :
    (Test.and (Test.punct ":") (Test.second (Test.punct "..."))).Firm .sealed .arguments where
  eq h := by
    obtain ⟨_, _, _, rfl, rfl⟩ | ⟨_, _, _, _, rfl, rfl⟩ | h := h.arguments_cases
    · simp [Test.and, Test.punct, Test.punctChars]
    · simp [Test.and, Test.second, Test.punct, Test.punctChars]
    · exact Test.Firm.eq h

instance : (Test.and (Test.punct ":") (Test.second (Test.punct "..."))).Firm .sealed .call where
  eq h := by
    obtain ⟨_, _, _, _, _, rfl, rfl⟩ | h := h.call_cases
    · simp [Test.and, Test.second, Test.punct, Test.punctChars]
    · exact Test.Firm.eq h

instance : functionTypeDots.Firm .sealed .typed := by
  rw [functionTypeDots, Test.third_eq, Test.and_second]
  infer_instance

section

variable [g.Productive] [hg : Rereading g g' n]

private theorem functionTypeArguments_rereads (first : Bool) : Rereads .sealed n .typed .typed
    (bounded (g.functionTypeArguments first)) (bounded (g'.functionTypeArguments first)) := by
  refine .loop g.functionTypeArguments g'.functionTypeArguments
    (fun _ _ _ _ _ ↦ ⟨fun h ↦ by cases h⟩) (fun m k hk hm _ fuel fuel' ih first ↦ ?_) first
  have hg := hg.mono hm
  unfold functionTypeArguments
  infer_instance

instance [E.Closing] [p.Hard] [Under (n + 1) m] :
    Rereads E m p .typed g.functionType g'.functionType := by
  refine .under (n := n + 1) ?_
  have hargs : Rereads .sealed n .typed .typed (bounded (g.functionTypeArguments true))
      (bounded (g'.functionTypeArguments true)) := functionTypeArguments_rereads true
  unfold functionType
  infer_instance

end

instance : Eager g.functionType := by
  unfold functionType
  infer_instance

instance [g.Productive] (plus bound : Bool) : Eager (g.pathType plus bound) := by
  unfold pathType
  infer_instance

instance (plus : Bool) : Eager (g.parenType plus) := by
  unfold parenType
  infer_instance

instance [E.Closing] [p.Hard] : startsPath.Firm E p := by
  unfold startsPath
  infer_instance

section

variable [g.Productive] [Rereading g g' n]

/-- Bounds without a keyword. -/
instance bareBounds_rereads [hr : Rereads E m .typed .typed (g.boundsWithTrait true false false)
    (g'.boundsWithTrait true false false)] : Rereads E m .typed .typed
      (do
        let (kinds, hanging) ← g.boundsWithTrait true false false
        return if kinds.length = 1 && !hanging then TypeShape.bound else .other)
      (do
        let (kinds, hanging) ← g'.boundsWithTrait true false false
        return if kinds.length = 1 && !hanging then TypeShape.bound else .other) := by
  refine .lazily (B := .typed) hr ?_
  rintro ⟨kinds, hanging⟩
  infer_instance

/-- A type is read again if its bounds are. -/
theorem typeRule_rereads [E.Closing] (plus : Bool)
    [∀ capturing constant, Rereads E (n + 1) .typed .typed (g.bound capturing constant)
      (g'.bound capturing constant)] :
    Rereads E (n + 1) .typed .typed (g.typeRule plus) (g'.typeRule plus) := by
  have hbounds : Rereads E (n + 1) .typed .typed (g.boundsWithTrait true false false)
      (g'.boundsWithTrait true false false) :=
    boundsWithTrait_rereads true false false inferInstance
  unfold typeRule
  infer_instance

end

instance [g.Productive] (plus : Bool) : Eager (g.typeRule plus) := by
  unfold typeRule
  infer_instance

/-! ### Patterns -/

instance [p.Hard] : Rereads .sealed n p .typed patternDots patternDots := by
  unfold patternDots
  infer_instance

instance : Eager patternDots := by
  unfold patternDots
  infer_instance

instance [p.Hard] : endsPatternRange.Firm .sealed p := by
  unfold endsPatternRange
  infer_instance

instance : Test.Local member.position :=
  ⟨fun a _ _ ↦ by cases a <;> rfl, fun _ _ _ _ _ ↦ rfl, fun _ _ _ _ _ ↦ rfl⟩
instance : Test.Signless member.position := ⟨fun _ _ ↦ rfl⟩

instance [p.Hard] : Rereads .sealed n p .typed member member := by
  unfold member
  infer_instance

instance : Eager member := by
  unfold member
  infer_instance

section

variable [g.Productive] [hg : Rereading g g' n]

instance [p.Hard] [Under (n + 1) m] :
    Rereads .sealed m p .typed g.patternBound g'.patternBound := by
  refine .under (n := n + 1) ?_
  unfold patternBound
  infer_instance

end

instance [g.Productive] : Eager g.patternBound := by
  unfold patternBound
  infer_instance

section

variable [g.Productive] [hg : Rereading g g' n]

instance [Under (n + 1) m] : Rereads .sealed m .typed .typed g.patternBound? g'.patternBound? := by
  refine .under (n := n + 1) ?_
  unfold patternBound?
  infer_instance

instance [p.Hard] [Under (n + 1) m] :
    Rereads .sealed m p .typed g.patternRange g'.patternRange := by
  refine .under (n := n + 1) ?_
  unfold patternRange
  infer_instance

instance [Under n m] :
    Rereads .sealed m .typed .typed g.patternAlternatives g'.patternAlternatives := by
  refine .under (n := n) ?_
  unfold patternAlternatives
  infer_instance

instance [Under n m] : Rereads .sealed m .typed .typed g.fieldPattern g'.fieldPattern := by
  refine .under (n := n) ?_
  unfold fieldPattern
  infer_instance

end

instance [g.Productive] : Eager g.patternAlternatives := by
  unfold patternAlternatives
  infer_instance

instance : Eager g.fieldPattern := by
  unfold fieldPattern
  infer_instance

section

variable [g.Productive] [hg : Rereading g g' n]

instance [Under n m] :
    Rereads .sealed m .typed .typed (bounded g.fieldPatterns) (bounded g'.fieldPatterns) := by
  refine .under (n := n) (.repetition (fun _ ↦ rfl) fun m k hk hm _ fuel fuel' ih ↦ ?_)
  have hg := hg.mono hm
  unfold fieldPatterns
  infer_instance

instance [p.Hard] [Under (n + 1) m] : Rereads .sealed m p .typed g.pathPattern g'.pathPattern := by
  refine .under (n := n + 1) ?_
  unfold pathPattern
  infer_instance

instance [p.Hard] [Under (n + 1) m] : Rereads .sealed m p .typed g.namePattern g'.namePattern := by
  refine .under (n := n + 1) ?_
  unfold namePattern
  infer_instance

instance [Under (n + 1) m] : Rereads .sealed m A .typed g.parenPattern g'.parenPattern := by
  refine .under (n := n + 1) ?_
  unfold parenPattern
  infer_instance

instance [Under (n + 1) m] : Rereads .sealed m A .typed g.slicePattern g'.slicePattern := by
  refine .under (n := n + 1) ?_
  unfold slicePattern
  infer_instance

instance [p.Hard] [Under (n + 1) m] :
    Rereads .sealed m p .typed g.constantPattern g'.constantPattern := by
  refine .under (n := n + 1) ?_
  unfold constantPattern
  infer_instance

instance [p.Hard] [Under (n + 1) m] :
    Rereads .sealed m p .typed g.restPattern g'.restPattern := by
  refine .under (n := n + 1) ?_
  unfold restPattern
  infer_instance

/-- The rule for patterns reads again what it has read. -/
theorem patternRule_rereads :
    Rereads .sealed (n + 1) .plain .typed g.patternRule g'.patternRule := by
  unfold patternRule
  infer_instance

end

instance [g.Productive] : Eager g.patternRule := by
  unfold patternRule pathPattern namePattern parenPattern slicePattern constantPattern restPattern
  infer_instance

end Grammar

end GuestBridge.Host
