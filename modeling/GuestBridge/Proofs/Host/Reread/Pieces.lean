import GuestBridge.Proofs.Host.Reread.Depth

/-!
# The pieces of a function

What a function item keeps as trees is read again where a function is written with it: the
attributes and the visibility in front of another signature, and a type in front of anything that
types end at.
-/

namespace GuestBridge.Host

namespace Reader

variable {α : Type} {r : Reader α} {c c' : Cursor} {a : α}

/-- A word that does not come next is not taken. -/
theorem word?_of_false {w : String} (h : Test.word w c.rest = false) :
    word? w c = some (false, c) := by
  simp [word?, peek, h]

/-- Punctuation that does not come next is not taken. -/
theorem punct?_of_false {s : String} (h : Test.punct s c.rest = false) :
    punct? s c = some (false, c) := by
  simp [punct?, peek, h]

private theorem capture_eq_some {piece : List Token} (h : capture r c = some ((a, piece), c')) :
    r ⟨c.rest, [], c.embedded⟩ = some (a, ⟨c'.rest, piece.reverse, c'.embedded⟩) ∧
      c'.taken = piece.reverse ++ c.taken := by
  simp only [capture] at h
  split at h
  next hr =>
    cases h
    exact ⟨by simpa using hr, by simp⟩
  next => cases h

private theorem collect_eq_some {found : List Expr} (h : collect r c = some ((a, found), c')) :
    r ⟨c.rest, c.taken, []⟩ = some (a, ⟨c'.rest, c'.taken, found.reverse⟩) ∧
      c'.embedded = c.embedded := by
  simp only [collect] at h
  split at h
  next hr =>
    cases h
    exact ⟨by simpa using hr, rfl⟩
  next => cases h

end Reader

/-- An attribute is a hash directly in front of a group in brackets. -/
def Attr.IsOuter (a : Attr) : Prop :=
  ∃ joint inside, a.tokens = [.punct '#' joint, .group .bracket inside]

namespace Grammar

open Reader

variable {g g' : Grammar} {d d' : Nat} {c c' : Cursor} {xs ys T : List Token}

/-! ### Types -/

/-- What comes first in a type. A lifetime is the first one of several bounds. -/
def startsType : Test :=
  Test.any [Test.word "for", Test.paren, Test.oneOf ["fn", "unsafe", "extern"], startsPath,
    Test.word "dyn", Test.bracket, Test.punct "*", Test.punct "&", Test.punct "!",
    Test.word "impl", Test.word "_", Test.and Test.lifetime (Test.second (Test.punct "+"))]

/-- A lifetime alone is no sum of bounds with a trait. -/
theorem boundsWithTrait_lifetime (d : Nat) (hlifetime : Test.lifetime c.rest = true)
    (hplus : Test.second (Test.punct "+") c.rest = false) :
    (ofDepth d).boundsWithTrait true false false c = none := by
  obtain ⟨_ | ⟨_ | _ | text | _ | _, rest⟩, ts, es⟩ := c
  case cons.lifetime =>
    rw [boundsWithTrait, bind_apply, bounded_apply]
    have hbound : (ofDepth d).bound false false ⟨.lifetime text :: rest, ts, es⟩ = none ∨
      (ofDepth d).bound false false ⟨.lifetime text :: rest, ts, es⟩ =
        some (.lifetime, ⟨rest, .lifetime text :: ts, es⟩) := by
      cases d with
      | zero => exact .inl rfl
      | succ d => exact .inr rfl
    have hend : askIf true (punct? "+") ⟨rest, .lifetime text :: ts, es⟩ =
      some (false, ⟨rest, .lifetime text :: ts, es⟩) := punct?_of_false hplus
    rcases hbound with hbound | hbound
    · simp [boundSum, hbound]
    · simp [boundSum, hbound, hend]
  all_goals cases hlifetime

/-- Whatever is read as a type starts like one. -/
theorem startsType_of_type {plus : Bool} {shape : TypeShape}
    (h : (ofDepth d).type plus c = some (shape, c')) : startsType c.rest = true := by
  rw [← Bool.not_eq_false]
  intro hstarts
  cases d with
  | zero => cases h
  | succ d =>
    simp only [startsType, Test.any, List.any_cons, List.any_nil, Bool.or_false,
      Bool.or_eq_false_iff, Test.and] at hstarts
    obtain ⟨hfor, hparen, hfn, hpath, hdyn, hbracket, hstar, hand, hbang, himpl, hblank,
      hlifetime⟩ := hstarts
    have h : typeRule (ofDepth d) plus c = some (shape, c') := h
    simp only [typeRule, binder?, bind_apply, word?_of_false hfor, Option.bind_some, pure_apply,
      peek_apply, hparen, hfn, hpath, word?_of_false hdyn, hbracket, punct?_of_false hstar,
      punct?_of_false hand, punct?_of_false hbang, word?_of_false himpl, word?_of_false hblank,
      ite_reader, Bool.false_eq_true, if_false] at h
    cases ht : Test.lifetime c.rest with
    | false => simp [require, ht] at h
    | true =>
      rw [ht, Bool.true_and] at hlifetime
      simp [require, ht, boundsWithTrait_lifetime d ht hlifetime] at h

/-- No type is a lifetime alone, a literal or a block, and none starts with dots. -/
theorem startsType_facts (h : startsType xs = true) :
    Test.butNot Test.lifetime (Test.second (Test.punct "+")) xs = false ∧
      Test.or Test.literal Test.brace xs = false ∧ Test.punct "..." xs = false := by
  rcases xs with _ | ⟨w | ⟨c, joint⟩ | text | text | ⟨e, is⟩, xs⟩
  · cases h
  · refine ⟨rfl, ?_, rfl⟩
    by_cases hw : w = "true" ∨ w = "false"
    · obtain rfl | rfl := hw <;> cases h
    · simpa [Test.or, Test.literal, Test.brace, Test.group] using hw
  · refine ⟨rfl, ?_, ?_⟩
    · by_cases hc : c = '-'
      · subst hc
        cases h
      · simp [Test.or, Test.literal, Test.brace, Test.group, hc]
    · by_cases hc : c = '.'
      · subst hc
        cases h
      · simp [Test.punct, Test.punctChars, Ne.symm hc]
  · refine ⟨?_, rfl, rfl⟩
    have hplus : (Test.second (Test.punct "+") (.lifetime text :: xs) || false) = true := h
    rw [Bool.or_false] at hplus
    simp [Test.butNot, Test.lifetime, hplus]
  · cases h
  · cases e with
    | brace => cases h
    | _ => exact ⟨rfl, rfl, rfl⟩

/-- Edges at which a type ends. No conditions follow where it is written again. -/
def ending : Edges :=
  fun xs ys ↦ Closer xs ∧ Closer ys ∧ Test.word "where" ys = false

instance : ending.Closing where
  left h := h.1
  right h := h.2.1
  where_ h := h.2.2

/-- A grammar reads trees as a type, wherever a type ends behind them, and leaves them as they
are. -/
def ReadsType (g : Grammar) (T : List Token) : Prop :=
  ∃ shape found, ∀ ys, Closer ys → Test.word "where" ys = false →
    startsType (T ++ ys) = true ∧
      ∀ ts, g.type true ⟨T ++ ys, ts, []⟩ = some (shape, ⟨ys, T.reverse ++ ts, found⟩)

/-- The trees of a type are those that were taken. -/
theorem typeTrees_eq_some (h : g.typeTrees c = some (T, c')) :
    c'.taken = T.reverse ++ c.taken ∧ c'.embedded = c.embedded ∧ ∃ shape found,
      g.type true ⟨c.rest, [], []⟩ = some (shape, ⟨c'.rest, T.reverse, found⟩) := by
  obtain ⟨⟨⟨shape, trees⟩, found⟩, c₁, hcollect, h⟩ := of_bind h
  cases h
  obtain ⟨hcapture, hembedded⟩ := collect_eq_some hcollect
  obtain ⟨htype, htaken⟩ := capture_eq_some hcapture
  exact ⟨htaken, hembedded, shape, _, htype⟩

/-- A type that was read is read again by a grammar that is deep enough. -/
theorem readsType_of_typeTrees (h : (ofDepth d).typeTrees c = some (T, c'))
    (hend : Closer c'.rest) (hd : 3 * (Token.sizeAll T + 1) ≤ d') : ReadsType (ofDepth d') T := by
  obtain ⟨-, -, shape, found, htype⟩ := typeTrees_eq_some h
  have hrereads : Rereads ending (Token.sizeAll T + 1) .typed .typed ((ofDepth d).type true)
      ((ofDepth d').type true) := (rereading_ofDepth d hd).type ending true
  obtain ⟨piece, htaken, -, hpiece⟩ := hrereads.as htype
  obtain rfl : T.reverse = piece := by simpa using htaken
  refine ⟨shape, found, fun ys hys hwhere ↦ ?_⟩
  have hsize : Token.sizeAll T.reverse < Token.sizeAll T + 1 := by
    rw [Token.sizeAll_reverse]
    exact Nat.lt_succ_self _
  obtain ⟨-, hrun⟩ := hpiece hsize ys (.edge ⟨hend, hys, hwhere⟩)
  rw [List.reverse_reverse] at hrun
  exact ⟨startsType_of_type (hrun []), hrun⟩

/-! ### Attributes and visibility -/

/-- What a signature starts with. -/
def opensSignature : Test :=
  Test.oneOf ["const", "async", "unsafe", "extern", "fn"]

private theorem opensSignature_cases (h : opensSignature xs = true) :
    ∃ w rest, xs = .word w :: rest ∧ w ∈ ["const", "async", "unsafe", "extern", "fn"] := by
  rcases xs with _ | ⟨w | _ | _ | _ | _, rest⟩
  case cons.word => exact ⟨w, rest, rfl, List.contains_iff_mem.1 h⟩
  all_goals cases h

/-- Edges at which a signature starts. -/
def opening : Edges :=
  fun xs ys ↦ opensSignature xs = true ∧ opensSignature ys = true

instance : Test.paren.Absent opening where
  left h := by
    obtain ⟨w, rest, rfl, -⟩ := opensSignature_cases h.1
    rfl
  right h := by
    obtain ⟨w, rest, rfl, -⟩ := opensSignature_cases h.2
    rfl

private theorem opensSignature_pub (h : opensSignature xs = true) : Test.word "pub" xs = false := by
  obtain ⟨w, rest, rfl, hw⟩ := opensSignature_cases h
  refine decide_eq_false ?_
  rintro rfl
  exact absurd hw (by decide)

instance : (Test.word "pub").Absent opening where
  left h := opensSignature_pub h.1
  right h := opensSignature_pub h.2

instance {p : Place} [p.Hard] : (Test.punct "#").Firm opening p where
  eq {us vs} halike := by
    refine Test.firm_punctChars _ (fun cs _ xs ys h ↦ ?_) halike
    obtain ⟨w, rest, rfl, -⟩ := opensSignature_cases h.1
    obtain ⟨w', rest', rfl, -⟩ := opensSignature_cases h.2
    rcases cs with _ | ⟨_, _ | _⟩ <;> rfl

/-- The attributes and the visibility in front of a function. -/
def front (g : Grammar) : Reader (List Attr × List Token) := do
  let outer ← g.outerAttributes
  let (_, visibility) ← capture visibility
  return (outer, visibility)

instance [g.Productive] {n : Nat} [Rereading g g' n] :
    Rereads opening (n + 1) .typed .typed g.front g'.front := by
  unfold front
  infer_instance

/-- An attribute that stands in front of what it describes is a hash directly in front of a group
in brackets. -/
theorem outerAttribute_eq_some {a : Attr} (h : g.outerAttribute c = some (a, c')) :
    c'.taken = a.tokens.reverse ++ c.taken ∧ a.inner = false ∧ a.IsOuter := by
  obtain ⟨⟨doc, tokens⟩, c₁, hcapture, h⟩ := of_bind h
  cases h
  obtain ⟨hrun, htaken⟩ := capture_eq_some hcapture
  obtain ⟨_, c₂, hhash, hgroup⟩ := of_bind hrun
  obtain ⟨mark, hmark, -, hmarked, -⟩ := punct_eq_some hhash
  obtain ⟨trees, inside, -, htokens, -⟩ := group_eq_some hgroup
  have hchars : "#".toList = ['#'] := by simp
  rw [hchars] at hmark
  cases hmark with
  | @single _ joint =>
    refine ⟨htaken, rfl, joint, inside.reverse, ?_⟩
    simpa [hmarked] using congrArg List.reverse htokens

/-- An attribute that stands inside has an exclamation mark behind the hash. -/
theorem innerAttribute_eq_some {a : Attr} (h : g.innerAttribute c = some (a, c')) :
    a.inner = true ∧ ¬a.IsOuter := by
  obtain ⟨⟨doc, tokens⟩, c₁, hcapture, h⟩ := of_bind h
  cases h
  obtain ⟨hrun, htaken⟩ := capture_eq_some hcapture
  obtain ⟨_, c₂, hhash, hrun⟩ := of_bind hrun
  obtain ⟨_, c₃, hbang, hgroup⟩ := of_bind hrun
  obtain ⟨mark, hmark, -, hmarked, -⟩ := punct_eq_some hhash
  obtain ⟨mark', hmark', -, hmarked', -⟩ := punct_eq_some hbang
  obtain ⟨trees, inside, -, htokens, -⟩ := group_eq_some hgroup
  have hhash : "#".toList = ['#'] := by simp
  have hbang : "!".toList = ['!'] := by simp
  rw [hhash] at hmark
  rw [hbang] at hmark'
  cases hmark with
  | @single _ joint =>
    cases hmark' with
    | @single _ joint' =>
      have hshape : tokens =
          [.punct '#' joint, .punct '!' joint', .group .bracket inside.reverse] := by
        simpa [hmarked, hmarked'] using congrArg List.reverse htokens
      refine ⟨rfl, ?_⟩
      rintro ⟨_, _, houter⟩
      rw [hshape] at houter
      cases houter

private theorem whileTest_outerAttribute {fuel : Nat} {outer : List Attr}
    (h : whileTest (Test.punct "#") g.outerAttribute fuel c = some (outer, c')) :
    c'.taken = (outer.flatMap (·.tokens)).reverse ++ c.taken ∧
      ∀ a ∈ outer, a.inner = false ∧ a.IsOuter := by
  induction fuel generalizing c outer with
  | zero => cases h
  | succ fuel ih =>
    obtain ⟨holds, _, hpeek, h⟩ := of_bind h
    cases hpeek
    rw [ite_reader] at h
    split at h
    next =>
      obtain ⟨a, c₁, ha, h⟩ := of_bind h
      obtain ⟨more, c₂, hmore, h⟩ := of_bind h
      cases h
      obtain ⟨htaken, houter⟩ := outerAttribute_eq_some ha
      obtain ⟨htaken', hall⟩ := ih hmore
      refine ⟨?_, List.forall_mem_cons.2 ⟨houter, hall⟩⟩
      rw [htaken', htaken, List.flatMap_cons, List.reverse_append, List.append_assoc]
    next =>
      cases h
      exact ⟨rfl, List.forall_mem_nil _⟩

/-- The attributes and the visibility are what was taken. -/
theorem front_eq_some {outer : List Attr} {vis : List Token}
    (h : g.front c = some ((outer, vis), c')) :
    c'.taken = (outer.flatMap (·.tokens) ++ vis).reverse ++ c.taken ∧
      ∀ a ∈ outer, a.inner = false ∧ a.IsOuter := by
  obtain ⟨attrs, c₁, houter, h⟩ := of_bind h
  obtain ⟨⟨there, trees⟩, c₂, hvis, h⟩ := of_bind h
  cases h
  have hloop : whileTest (Test.punct "#") g.outerAttribute (Token.sizeAll c.rest + 1) c =
      some (outer, c₁) := houter
  obtain ⟨htaken, hall⟩ := whileTest_outerAttribute hloop
  obtain ⟨-, htaken'⟩ := capture_eq_some hvis
  refine ⟨?_, hall⟩
  rw [htaken', htaken, List.reverse_append, List.append_assoc]

/-- The attributes and the visibility in front of a signature are read again in front of another
one. -/
theorem front_again {outer : List Attr} {vis : List Token}
    (h : (ofDepth d).front c = some ((outer, vis), c')) (hopen : opensSignature c'.rest = true)
    (hd : 3 * Token.sizeAll (outer.flatMap (·.tokens) ++ vis) ≤ d')
    (hys : opensSignature ys = true) (ts : List Token) :
    ∃ taken, (ofDepth d').front ⟨outer.flatMap (·.tokens) ++ vis ++ ys, ts, c.embedded⟩ =
      some ((outer, vis), ⟨ys, taken, c'.embedded⟩) := by
  have hrereading := rereading_ofDepth d hd
  have hrereads : Rereads opening (Token.sizeAll (outer.flatMap (·.tokens) ++ vis) + 1)
    .typed .typed (ofDepth d).front (ofDepth d').front := inferInstance
  obtain ⟨htaken, -⟩ := front_eq_some h
  obtain ⟨piece, hpiece, -, hagain⟩ := hrereads.as h
  obtain rfl := List.append_cancel_right (htaken.symm.trans hpiece)
  rw [Token.sizeAll_reverse] at hagain
  obtain ⟨-, hrun⟩ := hagain (Nat.lt_succ_self _) ys (.edge ⟨hopen, hys⟩)
  rw [List.reverse_reverse] at hrun
  exact ⟨_, hrun ts⟩

end Grammar

end GuestBridge.Host
