import GuestBridge.Proofs.Host.Reread.Alike

/-!
# Reading a piece again

A reader reads a piece again if, where it has read something, it reads the same from what it has
taken and answers the same, whatever comes behind it that looks alike. The combinators of readers
keep this property. The grammar is used to some depth; how deep it must be to read a piece again
depends on the number of trees of the piece, so the property is bounded by a size.
-/

namespace GuestBridge.Host

private theorem Token.one_le_size (t : Token) : 1 ≤ t.size := by
  cases t <;> simp [Token.size]

/-- The size of two lists of trees together is the sum of their sizes. -/
theorem Token.sizeAll_append (ts us : List Token) :
    Token.sizeAll (ts ++ us) = Token.sizeAll ts + Token.sizeAll us := by
  induction ts with
  | nil => simp [Token.sizeAll]
  | cons t ts ih => simp [Token.sizeAll, ih, Nat.add_assoc]

/-- Reversing a list of trees keeps its size. -/
theorem Token.sizeAll_reverse (ts : List Token) :
    Token.sizeAll ts.reverse = Token.sizeAll ts := by
  induction ts with
  | nil => rfl
  | cons t ts ih =>
    rw [List.reverse_cons, Token.sizeAll_append, ih]
    simp [Token.sizeAll, Nat.add_comm]

/-- Where there is a tree there is some size. -/
theorem Token.one_le_sizeAll {ts : List Token} (h : ts ≠ []) : 1 ≤ Token.sizeAll ts := by
  obtain ⟨t, ts, rfl⟩ := List.exists_cons_of_ne_nil h
  exact Nat.le_trans t.one_le_size (Nat.le_add_right _ _)

/-- There are no more trees than their size. -/
theorem Token.length_le_sizeAll (ts : List Token) : ts.length ≤ Token.sizeAll ts := by
  induction ts with
  | nil => exact Nat.zero_le _
  | cons t ts ih =>
    have hone := t.one_le_size
    simp only [List.length_cons, Token.sizeAll]
    omega

namespace Reader

variable {α β ι : Type} {E E' : Edges} {n m k : Nat} {p A B C : Place} {t : Test}

/-- What was read between two cursors is read again by `r'`: a piece was taken, nothing exactly if
nothing was read, and from a piece of less than the given size and alike trees behind it `r'`
gives the same answer and takes the same piece. -/
def RereadsAs (E : Edges) (n : Nat) (A C : Place) (r' : Reader α) (c : Cursor) (a : α)
    (c' : Cursor) : Prop :=
  ∃ piece, c'.taken = piece ++ c.taken ∧ (piece = [] ↔ c'.rest.length = c.rest.length) ∧
    (Token.sizeAll piece < n → ∀ ys, Alike E C c'.rest ys →
      Alike E A c.rest (piece.reverse ++ ys) ∧
      ∀ ts, r' ⟨piece.reverse ++ ys, ts, c.embedded⟩ =
        some (a, ⟨ys, piece ++ ts, c'.embedded⟩))

/-- What `r` reads, `r'` reads again. -/
class Rereads (E : Edges) (n : Nat) (A C : Place) (r r' : Reader α) : Prop where
  as {c c' : Cursor} {a : α} : r c = some (a, c') → RereadsAs E n A C r' c a c'

/-- A reader reads something whenever it answers. -/
class Eager (r : Reader α) : Prop where
  lt {c c' : Cursor} {a : α} : r c = some (a, c') → c'.rest.length < c.rest.length

/-- A reader has read something whenever its answer is positive. -/
class Shows (r : Reader Bool) : Prop where
  lt {c c' : Cursor} : r c = some (true, c') → c'.rest.length < c.rest.length

/-- A reader that decides a question: if the answer is positive, what it has read is read again,
and otherwise nothing is in the way of what comes next. -/
class Asks (E : Edges) (n : Nat) (p : Place) (r r' : Reader Bool) : Prop where
  pos {c c' : Cursor} : r c = some (true, c') → RereadsAs E n p .typed r' c true c'
  neg {c c' : Cursor} : r c = some (false, c') → RereadsAs E n p p r' c false c'

/-- The size that is left for what comes behind a piece that is not empty. -/
class Below (m : Nat) (k : outParam Nat) : Prop where
  le : k ≤ m
  le_succ : m ≤ k + 1

instance : Below (n + 1) n := ⟨Nat.le_succ n, Nat.le_refl _⟩
instance (priority := low) : Below n n := ⟨Nat.le_refl n, Nat.le_succ n⟩

/-- A size that is at most as large as another one. -/
class Under (n m : Nat) : Prop where
  le : m ≤ n

instance : Under n n := ⟨Nat.le_refl n⟩
instance : Under (n + 1) n := ⟨Nat.le_succ n⟩
instance (priority := low) [Below m k] : Under m k := ⟨Below.le⟩
instance (priority := low) [Below m k] : Under (m + 1) k := ⟨Nat.le_succ_of_le Below.le⟩

namespace RereadsAs

variable {r' : Reader α} {c c' c'' : Cursor} {a : α}

/-- What is read again up to a size is read again up to every smaller one. -/
theorem mono (h : RereadsAs E n A C r' c a c') (hm : m ≤ n) : RereadsAs E m A C r' c a c' := by
  obtain ⟨piece, htaken, hnil, hpiece⟩ := h
  exact ⟨piece, htaken, hnil, fun hsize ↦ hpiece (Nat.lt_of_lt_of_le hsize hm)⟩

/-- From no piece at all, anything can be read again. -/
theorem zero (h : RereadsAs E n A C r' c a c') (s : Reader β) (b : β) :
    RereadsAs E 0 A C s c b c' := by
  obtain ⟨piece, htaken, hnil, -⟩ := h
  exact ⟨piece, htaken, hnil, fun hsize ↦ absurd hsize (Nat.not_lt_zero _)⟩

/-- A reading repeated from a place is repeated from every place where as much looks alike. -/
theorem of_start (h : RereadsAs E n A C r' c a c')
    (hA : ∀ ys, Alike E A c.rest ys → Alike E B c.rest ys) : RereadsAs E n B C r' c a c' := by
  obtain ⟨piece, htaken, hnil, hpiece⟩ := h
  refine ⟨piece, htaken, hnil, fun hsize ys hys ↦ ?_⟩
  obtain ⟨halike, hrun⟩ := hpiece hsize ys hys
  exact ⟨hA _ halike, hrun⟩

/-- A reading repeated up to a place is repeated up to every place where no more looks alike. -/
theorem of_end (h : RereadsAs E n A C r' c a c')
    (hC : ∀ xs ys, Alike E B xs ys → Alike E C xs ys) : RereadsAs E n A B r' c a c' := by
  obtain ⟨piece, htaken, hnil, hpiece⟩ := h
  exact ⟨piece, htaken, hnil, fun hsize ys hys ↦ hpiece hsize ys (hC _ _ hys)⟩

/-- A reading that is repeated from the plain place is repeated from every place. -/
theorem of_plain (h : RereadsAs E n .plain C r' c a c') : RereadsAs E n A C r' c a c' :=
  h.of_start fun _ halike ↦ halike.of_plain A

/-- Another reader reads the same where it stands in front of what looks alike. -/
theorem transfer {s : Reader β} {b : β} (h : RereadsAs E n A C r' c a c')
    (hs : ∀ {d d' : Cursor}, Alike E A c.rest d.rest →
      (d'.rest.length = d.rest.length ↔ c'.rest.length = c.rest.length) →
      r' d = some (a, d') → s d = some (b, d')) : RereadsAs E n A C s c b c' := by
  obtain ⟨piece, htaken, hnil, hpiece⟩ := h
  refine ⟨piece, htaken, hnil, fun hsize ys hys ↦ ?_⟩
  obtain ⟨halike, hrun⟩ := hpiece hsize ys hys
  refine ⟨halike, fun ts ↦ hs halike ?_ (hrun ts)⟩
  rw [← hnil]
  simp

/-- Another reader reads the same. -/
theorem map {s : Reader β} {b : β} (h : RereadsAs E n A C r' c a c')
    (hs : ∀ {d d' : Cursor}, r' d = some (a, d') → s d = some (b, d')) :
    RereadsAs E n A C s c b c' :=
  h.transfer fun _ _ ↦ hs

/-- Nothing was read, and what comes next says so again. -/
theorem refl (hrun : ∀ ys, Alike E p c.rest ys → ∀ ts,
    r' ⟨ys, ts, c.embedded⟩ = some (a, ⟨ys, ts, c.embedded⟩)) : RereadsAs E n p p r' c a c :=
  ⟨[], rfl, by simp, fun _ ys hys ↦ ⟨hys, hrun ys hys⟩⟩

/-- One piece behind the other. -/
theorem bind {κ : α → Reader β} {b : β} {n₁ n₂ : Nat} (h : RereadsAs E n₁ A B r' c a c')
    (hk : RereadsAs E n₂ B C (κ a) c' b c'')
    (hrest : c''.rest.length ≤ c'.rest.length) (hrest' : c'.rest.length ≤ c.rest.length)
    (hn : n ≤ n₁) (hn₂ : n ≤ n₂ ∨ c'.rest.length < c.rest.length ∧ n ≤ n₂ + 1) :
    RereadsAs E n A C (r' >>= κ) c b c'' := by
  obtain ⟨piece, htaken, hnil, hpiece⟩ := h
  obtain ⟨piece', htaken', hnil', hpiece'⟩ := hk
  refine ⟨piece' ++ piece, by rw [htaken', htaken, List.append_assoc], ?_, ?_⟩
  · rw [List.append_eq_nil_iff, hnil, hnil']
    omega
  · intro hsize ys hys
    rw [Token.sizeAll_append] at hsize
    have hsize' : Token.sizeAll piece' < n₂ := by
      rcases hn₂ with hn₂ | ⟨hlt, hn₂⟩
      · omega
      · have hne : piece ≠ [] := fun hpiece ↦ by
          have hlength := hnil.1 hpiece
          omega
        have hone := Token.one_le_sizeAll hne
        omega
    obtain ⟨halike', hrun'⟩ := hpiece' hsize' ys hys
    obtain ⟨halike, hrun⟩ := hpiece (by omega) _ halike'
    rw [List.reverse_append, List.append_assoc]
    refine ⟨halike, fun ts ↦ ?_⟩
    rw [bind_apply, hrun, Option.bind_some, hrun', List.append_assoc]

end RereadsAs

variable {r r' : Reader α} {κ κ' : α → Reader β}

/-- A reader leaves no more trees than it finds. -/
theorem length_le {c c' : Cursor} {a : α} (h : r c = some (a, c')) :
    c'.rest.length ≤ c.rest.length :=
  (r.suffix h).length_le

namespace Rereads

/-- A reader that reads again up to a size does so up to every smaller one. -/
theorem mono (h : Rereads E n A C r r') (hm : m ≤ n) : Rereads E m A C r r' :=
  ⟨fun hr ↦ (h.as hr).mono hm⟩

/-- A reader that reads again up to a size does so up to every size under it. -/
theorem under [Under n m] (h : Rereads E n A C r r') : Rereads E m A C r r' :=
  h.mono Under.le

/-- Up to size zero there is nothing to read again. -/
theorem zero (h : Rereads E n A C r r') (s : Reader α) : Rereads E 0 A C r s :=
  ⟨fun hr ↦ (h.as hr).zero s _⟩

/-- A reader that reads again from the plain place does so from every place. -/
theorem of_start (h : Rereads E n .plain C r r') : Rereads E n A C r r' :=
  ⟨fun hr ↦ (h.as hr).of_plain⟩

/-- A reader that reads again from where a type may start does so from all but the plain place. -/
theorem of_typed (h : Rereads E n .typed C r r') (hA : A ≠ .plain) : Rereads E n A C r r' :=
  ⟨fun hr ↦ (h.as hr).of_start fun _ halike ↦ halike.of_typed hA⟩

/-- A reader that reads again up to where a type may start does so up to every hard place. -/
theorem of_end [p.Hard] (h : Rereads E n A .typed r r') : Rereads E n A p r r' :=
  ⟨fun hr ↦ (h.as hr).of_end fun _ _ halike ↦ halike.typed⟩

/-- What comes behind a piece that is not empty has one tree less. -/
theorem eagerly [Below m k] [Eager r] (hr : Rereads E m A B r r')
    (hk : ∀ a, Rereads E k B C (κ a) (κ' a)) : Rereads E m A C (r >>= κ) (r' >>= κ') := by
  refine ⟨fun {c c'} b h ↦ ?_⟩
  obtain ⟨a, c₁, hra, hka⟩ := of_bind h
  exact (hr.as hra).bind ((hk a).as hka) (length_le hka) (length_le hra) (Nat.le_refl _)
    (.inr ⟨Eager.lt hra, Below.le_succ⟩)

/-- Two readers in a row read again up to a size if both do. -/
theorem lazily (hr : Rereads E m A B r r') (hk : ∀ a, Rereads E m B C (κ a) (κ' a)) :
    Rereads E m A C (r >>= κ) (r' >>= κ') := by
  refine ⟨fun {c c'} b h ↦ ?_⟩
  obtain ⟨a, c₁, hra, hka⟩ := of_bind h
  exact (hr.as hra).bind ((hk a).as hka) (length_le hka) (length_le hra) (Nat.le_refl _)
    (.inl (Nat.le_refl _))

/-- What comes behind a positive answer has one tree less. -/
theorem asking {r r' : Reader Bool} {κ κ' : Bool → Reader β} [Below m k] [Shows r]
    [Asks E m p r r'] (hpos : Rereads E k .typed C (κ true) (κ' true))
    (hneg : Rereads E m p C (κ false) (κ' false)) : Rereads E m p C (r >>= κ) (r' >>= κ') := by
  refine ⟨fun {c c'} b h ↦ ?_⟩
  obtain ⟨a, c₁, hra, hka⟩ := of_bind h
  cases a with
  | false =>
    exact (Asks.neg hra : RereadsAs E m p p r' c false c₁).bind (hneg.as hka) (length_le hka)
      (length_le hra) (Nat.le_refl _) (.inl (Nat.le_refl _))
  | true =>
    exact (Asks.pos hra : RereadsAs E m p .typed r' c true c₁).bind (hpos.as hka)
      (length_le hka) (length_le hra) (Nat.le_refl _) (.inr ⟨Shows.lt hra, Below.le_succ⟩)

instance (a : α) : Rereads E n p p (pure a) (pure a) := by
  refine ⟨fun h ↦ ?_⟩
  cases h
  exact .refl fun _ _ _ ↦ rfl

instance : Rereads E n A C (failure : Reader α) r' :=
  ⟨fun h ↦ by cases h⟩

instance (q : Prop) [Decidable q] {s s' : Reader α} [Rereads E n A C r r'] [Rereads E n A C s s'] :
    Rereads E n A C (if q then r else s) (if q then r' else s') := by
  split <;> infer_instance

instance (priority := high) {r r' : Reader Bool} {κ κ' : Bool → Reader β} [Shows r]
    [Asks E m p r r'] [Below m k] [Rereads E k .typed C (κ true) (κ' true)]
    [Rereads E m p C (κ false) (κ' false)] : Rereads E m p C (r >>= κ) (r' >>= κ') :=
  asking inferInstance inferInstance

instance [Eager r] [Below m k] [Rereads E m A .typed r r']
    [∀ a, Rereads E k .typed C (κ a) (κ' a)] : Rereads E m A C (r >>= κ) (r' >>= κ') :=
  eagerly (B := .typed) inferInstance inferInstance

instance (priority := low) [Rereads E m p p r r'] [∀ a, Rereads E m p C (κ a) (κ' a)] :
    Rereads E m p C (r >>= κ) (r' >>= κ') :=
  lazily (B := p) inferInstance inferInstance

section

variable {γ δ : Type}

instance (priority := high) {r r' : Reader (α × γ)} {κ κ' : α × γ → Reader β} [Eager r]
    [Below m k] [Rereads E m A .typed r r']
    [h : ∀ a c, Rereads E k .typed C (κ (a, c)) (κ' (a, c))] :
    Rereads E m A C (r >>= κ) (r' >>= κ') :=
  eagerly (B := .typed) inferInstance fun x ↦ h x.1 x.2

instance (priority := mid) {r r' : Reader (α × γ)} {κ κ' : α × γ → Reader β}
    [Rereads E m p p r r'] [h : ∀ a c, Rereads E m p C (κ (a, c)) (κ' (a, c))] :
    Rereads E m p C (r >>= κ) (r' >>= κ') :=
  lazily (B := p) inferInstance fun x ↦ h x.1 x.2

end

instance (priority := high) {s s' : Reader α} [Rereads E n A C r r'] :
    Rereads E n A C (if true = true then r else s) (if true = true then r' else s') := by
  simpa using ‹Rereads E n A C r r'›

instance (priority := high) {s s' : Reader α} [Rereads E n A C s s'] :
    Rereads E n A C (if false = true then r else s) (if false = true then r' else s') := by
  simpa using ‹Rereads E n A C s s'›

instance (priority := high) {s s' : Reader α} [Rereads E n A C s s'] :
    Rereads E n A C (if (!true) = true then r else s) (if (!true) = true then r' else s') := by
  simpa using ‹Rereads E n A C s s'›

instance (priority := high) {s s' : Reader α} [Rereads E n A C r r'] :
    Rereads E n A C (if (!false) = true then r else s) (if (!false) = true then r' else s') := by
  simpa using ‹Rereads E n A C r r'›

instance (priority := high) (b : Bool) {s s' : Reader α} [Rereads E n A C s s'] :
    Rereads E n A C (if (b && false) = true then r else s)
      (if (b && false) = true then r' else s') := by
  simpa using ‹Rereads E n A C s s'›

end Rereads

namespace Eager

instance [Eager r] : Eager (r >>= κ) := by
  refine ⟨fun h ↦ ?_⟩
  obtain ⟨a, c₁, hr, hk⟩ := of_bind h
  exact Nat.lt_of_le_of_lt (length_le hk) (lt hr)

instance (priority := low) [∀ a, Eager (κ a)] : Eager (r >>= κ) := by
  refine ⟨fun h ↦ ?_⟩
  obtain ⟨a, c₁, hr, hk⟩ := of_bind h
  exact Nat.lt_of_lt_of_le (lt hk) (length_le hr)

instance {r : Reader Bool} {κ : Bool → Reader β} [Shows r] [Eager (κ false)] :
    Eager (r >>= κ) := by
  refine ⟨fun h ↦ ?_⟩
  obtain ⟨a, c₁, hr, hk⟩ := of_bind h
  cases a with
  | false => exact Nat.lt_of_lt_of_le (lt hk) (length_le hr)
  | true => exact Nat.lt_of_le_of_lt (length_le hk) (Shows.lt hr)

instance (q : Prop) [Decidable q] {s : Reader α} [Eager r] [Eager s] :
    Eager (if q then r else s) := by
  split <;> infer_instance

instance (priority := high) {s : Reader α} [Eager s] :
    Eager (if false = true then r else s) := by
  simpa using ‹Eager s›

instance (priority := high) {s : Reader α} [Eager r] :
    Eager (if (!false) = true then r else s) := by
  simpa using ‹Eager r›

instance : Eager (failure : Reader α) := ⟨fun h ↦ by cases h⟩

end Eager

/-! ### Looking ahead -/

/-- Looking at what comes next gives the test's answer and stays where it is. -/
theorem peek_apply (t : Test) (c : Cursor) : peek t c = some (t c.rest, c) := (rfl)

instance [t.Firm E p] : Rereads E n p p (peek t) (peek t) := by
  refine ⟨fun h ↦ ?_⟩
  cases h
  refine .refl fun ys hys ts ↦ ?_
  rw [peek_apply, Test.Firm.eq (t := t) hys]

/-- What is found ahead is found again. -/
theorem RereadsAs.peek {κ' : Bool → Reader β} {c c' : Cursor} {b : β}
    (ht : ∀ ys, Alike E A c.rest ys → t c.rest = t ys)
    (h : RereadsAs E n A C (κ' (t c.rest)) c b c') : RereadsAs E n A C (peek t >>= κ') c b c' :=
  h.transfer fun halike _ hd ↦ by
    rw [bind_apply, peek_apply, Option.bind_some, ← ht _ halike]
    exact hd

instance [t.Firm E p] : Rereads E n p p (require t) (require t) := by
  refine ⟨fun {c c'} a h ↦ ?_⟩
  obtain ⟨ht, h⟩ := Option.ite_none_right_eq_some.1 h
  cases h
  refine .refl fun ys hys ts ↦ ?_
  rw [Test.Firm.eq (t := t) hys] at ht
  simp [require, ht]

/-! ### Single trees -/

instance [t.Local] [t.Sighted E] : Rereads E n A .typed (takeIf t) (takeIf t) := by
  refine ⟨fun {c c'} a h ↦ ?_⟩
  obtain ⟨_ | ⟨token, rest⟩, taken, embedded⟩ := c
  · cases h
  · obtain ⟨ht, h⟩ := Option.ite_none_right_eq_some.1 h
    cases h
    refine ⟨[a], rfl, by simp, fun _ ys hys ↦ ⟨.same ?_ hys, fun ts ↦ ?_⟩⟩
    · rintro joint rfl
      exact Test.Sighted.head ht hys
    · rw [Test.Local.cons (t := t) a rest ys] at ht
      simp [takeIf, ht]

instance : Eager (takeIf t) := by
  refine ⟨fun {c c'} a h ↦ ?_⟩
  obtain ⟨_ | ⟨token, rest⟩, taken, embedded⟩ := c
  · cases h
  · obtain ⟨-, h⟩ := Option.ite_none_right_eq_some.1 h
    cases h
    exact Nat.lt_succ_self _

instance (w : String) : Rereads E n A .typed (word w) (word w) := by
  unfold word
  infer_instance

instance (w : String) : Eager (word w) := by
  unfold word
  infer_instance

instance : Rereads E n A .typed anyWord anyWord :=
  .eagerly (B := .typed) inferInstance fun token ↦ by cases token <;> infer_instance

instance : Eager anyWord := by
  unfold anyWord
  infer_instance

instance [Test.ident.Firm E p] : Rereads E n p .typed ident ident :=
  .lazily (B := p) inferInstance inferInstance

instance : Eager ident := by
  unfold ident
  infer_instance

instance : Rereads E n A .typed lifetime lifetime := by
  unfold lifetime
  infer_instance

instance : Eager lifetime := by
  unfold lifetime
  infer_instance

instance [E.Even] (i : Nat) : Rereads E n A .typed (skip (i + 1)) (skip (i + 1)) := by
  induction i generalizing A n with
  | zero =>
    exact .eagerly (B := .typed) inferInstance fun _ ↦
      (inferInstance : Rereads E n .typed .typed (pure ()) (pure ()))
  | succ i ih => exact .eagerly (B := .typed) inferInstance fun _ ↦ ih

instance (i : Nat) : Eager (skip (i + 1)) := by
  unfold skip
  infer_instance

instance : Rereads E n A .typed anyGroup anyGroup := by
  unfold anyGroup
  infer_instance

instance : Eager anyGroup := by
  unfold anyGroup
  infer_instance

instance (d : Delimiter) : Rereads E n A .typed (wholeGroup d) (wholeGroup d) := by
  unfold wholeGroup
  infer_instance

instance (d : Delimiter) : Eager (wholeGroup d) := by
  unfold wholeGroup
  infer_instance

/-! ### Groups -/

/-- What reading a group reads. -/
theorem group_eq_some {d : Delimiter} {c c' : Cursor} {a : α}
    (h : group d r c = some (a, c')) : ∃ trees inside,
      c.rest = .group d trees :: c'.rest ∧ c'.taken = .group d inside.reverse :: c.taken ∧
      r ⟨trees, [], c.embedded⟩ = some (a, ⟨[], inside, c'.embedded⟩) := by
  obtain ⟨_ | ⟨_ | _ | _ | _ | ⟨d', trees⟩, rest⟩, taken, embedded⟩ := c
  case cons.group =>
    obtain ⟨rfl, hinner⟩ := Option.ite_none_right_eq_some.1 h
    split at hinner
    next hr =>
      cases hinner
      exact ⟨trees, _, rfl, rfl, hr⟩
    next => cases hinner
  all_goals cases h

/-- A group is read by reading all that is inside. -/
theorem group_apply {d : Delimiter} {trees inside rest taken : List Token} {es es' : List Expr}
    {a : α} (h : r ⟨trees, [], es⟩ = some (a, ⟨[], inside, es'⟩)) :
    group d r ⟨.group d trees :: rest, taken, es⟩ =
      some (a, ⟨rest, .group d inside.reverse :: taken, es'⟩) := by
  simp [group, h]

instance (d : Delimiter) : Eager (group d r) := by
  refine ⟨fun h ↦ ?_⟩
  obtain ⟨trees, inside, hrest, -, -⟩ := group_eq_some h
  rw [hrest]
  exact Nat.lt_succ_self _

instance (priority := high) rereads_group (d : Delimiter) [Rereads .sealed n .typed .typed r r'] :
    Rereads E (n + 1) A .typed (group d r) (group d r') := by
  refine ⟨fun {c c'} a h ↦ ?_⟩
  obtain ⟨trees, inside, hrest, htaken, hr⟩ := group_eq_some h
  obtain ⟨piece, hinside, -, hpiece⟩ :=
    (Rereads.as hr : RereadsAs .sealed n .typed .typed r' _ a _)
  obtain rfl : inside = piece := by simpa using hinside
  refine ⟨[.group d inside.reverse], htaken, by simp [hrest], fun hsize ys hys ↦ ?_⟩
  simp only [Token.sizeAll, Token.size, Token.sizeAll_reverse] at hsize
  obtain ⟨halike, hrun⟩ := hpiece (by omega) [] (.edge ⟨rfl, rfl⟩)
  rw [List.append_nil] at halike hrun
  rw [hrest]
  exact ⟨.group halike hys, fun ts ↦ group_apply (by simpa using hrun [])⟩

instance rereads_group_same (d : Delimiter) [Rereads .sealed n .typed .typed r r'] :
    Rereads E n A .typed (group d r) (group d r') :=
  (rereads_group d : Rereads E (n + 1) A .typed (group d r) (group d r')).mono (Nat.le_succ n)

/-! ### Punctuation -/

/-- The given characters, without a gap between them. -/
inductive Marks : List Char → List Token → Prop where
  | nil : Marks [] []
  | single {c : Char} {joint : Bool} : Marks [c] [.punct c joint]
  | cons {c c' : Char} {cs : List Char} {ts : List Token} :
    Marks (c' :: cs) ts → Marks (c :: c' :: cs) (.punct c true :: ts)

namespace Marks

variable {cs : List Char} {front xs ys : List Token}

private theorem length_eq (h : Marks cs front) : front.length = cs.length := by
  induction h with
  | nil | single => rfl
  | cons _ ih => simp [ih]

private theorem punctChars_append (h : Marks cs front) (xs : List Token) :
    Test.punctChars cs (front ++ xs) = true := by
  induction h with
  | nil => rfl
  | single => simp [Test.punctChars]
  | cons _ ih => simpa [Test.punctChars] using ih

/-- What passes a test for some characters begins with them, without a gap. -/
theorem of_punctChars (h : Test.punctChars cs xs = true) :
    ∃ front ys, Marks cs front ∧ xs = front ++ ys := by
  induction cs generalizing xs with
  | nil => exact ⟨[], xs, .nil, rfl⟩
  | cons c cs ih =>
    match cs, xs, h with
    | [], .punct d joint :: xs, h =>
      obtain rfl : c = d := by simpa [Test.punctChars] using h
      exact ⟨[.punct c joint], xs, .single, rfl⟩
    | c' :: cs, .punct d joint :: xs, h =>
      simp only [Test.punctChars, Bool.and_eq_true, decide_eq_true_eq] at h
      obtain ⟨⟨rfl, rfl⟩, h⟩ := h
      obtain ⟨front, ys, hfront, rfl⟩ := ih h
      exact ⟨_, ys, .cons hfront, rfl⟩

/-- The characters look alike in front of what looks alike. -/
theorem alike (h : Marks cs front) (hne : cs ≠ []) (hxs : Alike E .typed xs ys)
    (hhead : cs.getLast? = some '-' → SameHead xs ys) :
    Alike E .plain (front ++ xs) (front ++ ys) := by
  induction h with
  | nil => exact absurd rfl hne
  | @single c joint =>
    refine .same (fun joint' hsign ↦ hhead ?_) hxs
    cases hsign
    rfl
  | @cons c c' cs ts hts ih =>
    refine .same (fun _ _ d ↦ ?_) ((ih (by simp) (by simpa using hhead)).of_plain _)
    cases hts with
    | single => rfl
    | cons _ => rfl

end Marks

private theorem skip_apply {front : List Token} {k : Nat} (h : front.length = k)
    (ys ts : List Token)
    (es : List Expr) :
    skip k ⟨front ++ ys, ts, es⟩ = some ((), ⟨ys, front.reverse ++ ts, es⟩) := by
  induction front generalizing k ts with
  | nil =>
    subst h
    rfl
  | cons a front ih =>
    subst h
    rw [List.length_cons, skip, bind_apply]
    simp [takeIf, ih rfl]

/-- What reading punctuation reads. -/
theorem punct_eq_some {s : String} {c c' : Cursor} {u : Unit} (h : punct s c = some (u, c')) :
    ∃ front, Marks s.toList front ∧ c.rest = front ++ c'.rest ∧
      c'.taken = front.reverse ++ c.taken ∧ c'.embedded = c.embedded := by
  obtain ⟨rest, taken, embedded⟩ := c
  obtain ⟨_, c₁, hrequire, hskip⟩ := of_bind h
  obtain ⟨htest, hc⟩ := Option.ite_none_right_eq_some.1 hrequire
  cases hc
  obtain ⟨front, ys, hfront, rfl⟩ := Marks.of_punctChars htest
  rw [skip_apply (by rw [hfront.length_eq, String.length_toList])] at hskip
  cases hskip
  exact ⟨front, hfront, rfl, rfl, rfl⟩

/-- Characters without a gap are read as punctuation, whatever follows them. -/
theorem punct_append {s : String} {front : List Token} (h : Marks s.toList front)
    (ys ts : List Token) (es : List Expr) :
    punct s ⟨front ++ ys, ts, es⟩ = some ((), ⟨ys, front.reverse ++ ts, es⟩) := by
  have htest : Test.punct s (front ++ ys) = true := h.punctChars_append ys
  rw [punct, bind_apply, require]
  simp only [htest, if_true, Option.bind_some]
  exact skip_apply (by rw [h.length_eq, String.length_toList]) ys ts es

/-- A text that is not empty. -/
class Written (s : String) : Prop where
  ne : s.toList ≠ []

private theorem lt_of_marks {s : String} [Written s] {front : List Token} {c c' : Cursor}
    (hfront : Marks s.toList front) (hrest : c.rest = front ++ c'.rest) :
    c'.rest.length < c.rest.length := by
  have hlength := hfront.length_eq
  have hpos := List.length_pos_iff.2 (Written.ne (s := s))
  rw [hrest, List.length_append]
  omega

instance (s : String) [Written s] : Eager (punct s) := by
  refine ⟨fun h ↦ ?_⟩
  obtain ⟨front, hfront, hrest, -, -⟩ := punct_eq_some h
  exact lt_of_marks hfront hrest

instance (s : String) [Written s] [Test.Landed E s] :
    Rereads E n A .typed (punct s) (punct s) := by
  refine ⟨fun {c c'} _ h ↦ ?_⟩
  have hlt := Eager.lt h
  obtain ⟨front, hfront, hrest, htaken, hembedded⟩ := punct_eq_some h
  refine ⟨front.reverse, htaken, ?_, fun _ ys hys ↦ ?_⟩
  · rw [List.reverse_eq_nil_iff, ← List.length_eq_zero_iff]
    rw [hrest, List.length_append] at hlt ⊢
    omega
  · have halike := hfront.alike Written.ne hys fun hsign ↦ Test.Landed.head hsign hys
    rw [List.reverse_reverse, hrest, hembedded]
    exact ⟨halike.of_plain A, fun ts ↦ punct_append hfront ys ts _⟩

/-! ### Marks of the grammar -/

instance : Written "::" := ⟨by simp⟩
instance : Written "<" := ⟨by simp⟩
instance : Written ">" := ⟨by simp⟩
instance : Written "," := ⟨by simp⟩
instance : Written "->" := ⟨by simp⟩
instance : Written "+" := ⟨by simp⟩
instance : Written "?" := ⟨by simp⟩
instance : Written "=" := ⟨by simp⟩
instance : Written ":" := ⟨by simp⟩
instance : Written ";" := ⟨by simp⟩
instance : Written "#" := ⟨by simp⟩
instance : Written "!" := ⟨by simp⟩
instance : Written "*" := ⟨by simp⟩
instance : Written "&" := ⟨by simp⟩
instance : Written "@" := ⟨by simp⟩
instance : Written "|" := ⟨by simp⟩
instance : Written "..=" := ⟨by simp⟩
instance : Written "..." := ⟨by simp⟩
instance : Written ".." := ⟨by simp⟩
instance : Written "." := ⟨by simp⟩
instance : Written "=>" := ⟨by simp⟩
instance : Written "-" := ⟨by simp⟩
instance : Written "||" := ⟨by simp⟩
instance : Written "|=" := ⟨by simp⟩

instance : Test.Closed "::" := ⟨by simp⟩
instance : Test.Closed "<" := ⟨by simp⟩
instance : Test.Closed ">" := ⟨by simp⟩
instance : Test.Closed "," := ⟨by simp⟩
instance : Test.Closed "->" := ⟨by simp⟩
instance : Test.Closed "+" := ⟨by simp⟩
instance : Test.Closed "?" := ⟨by simp⟩
instance : Test.Closed "=" := ⟨by simp⟩
instance : Test.Closed ":" := ⟨by simp⟩
instance : Test.Closed ";" := ⟨by simp⟩
instance : Test.Closed "#" := ⟨by simp⟩
instance : Test.Closed "!" := ⟨by simp⟩
instance : Test.Closed "*" := ⟨by simp⟩
instance : Test.Closed "&" := ⟨by simp⟩

instance : Test.Clear "::" := ⟨by simp⟩
instance : Test.Clear "<" := ⟨by simp⟩
instance : Test.Clear "+" := ⟨by simp⟩
instance : Test.Clear "?" := ⟨by simp⟩
instance : Test.Clear "=" := ⟨by simp⟩
instance : Test.Clear ":" := ⟨by simp⟩
instance : Test.Clear ";" := ⟨by simp⟩
instance : Test.Clear "#" := ⟨by simp⟩
instance : Test.Clear "!" := ⟨by simp⟩
instance : Test.Clear "!=" := ⟨by simp⟩
instance : Test.Clear "*" := ⟨by simp⟩
instance : Test.Clear "&" := ⟨by simp⟩
instance : Test.Clear "<=" := ⟨by simp⟩
instance : Test.Clear "<<=" := ⟨by simp⟩
instance : Test.Clear "..." := ⟨by simp⟩
instance : Test.Clear ".." := ⟨by simp⟩
instance : Test.Clear "." := ⟨by simp⟩

instance : Test.Single ">" := ⟨by simp⟩
instance : Test.Single "," := ⟨by simp⟩
instance : Test.Single "+" := ⟨by simp⟩
instance : Test.Single "?" := ⟨by simp⟩
instance : Test.Single "=" := ⟨by simp⟩
instance : Test.Single ":" := ⟨by simp⟩
instance : Test.Single ";" := ⟨by simp⟩
instance : Test.Single "#" := ⟨by simp⟩
instance : Test.Single "!" := ⟨by simp⟩
instance : Test.Single "*" := ⟨by simp⟩
instance : Test.Single "&" := ⟨by simp⟩
instance : Test.Single "<" := ⟨by simp⟩
instance : Test.Single "|" := ⟨by simp⟩
instance : Test.Single "-" := ⟨by simp⟩

instance : Test.Aside ">" := ⟨by simp⟩
instance : Test.Aside "," := ⟨by simp⟩
instance : Test.Aside "+" := ⟨by simp⟩
instance : Test.Aside "?" := ⟨by simp⟩
instance : Test.Aside "=" := ⟨by simp⟩
instance : Test.Aside "!" := ⟨by simp⟩
instance : Test.Aside "!=" := ⟨by simp⟩
instance : Test.Aside "*" := ⟨by simp⟩
instance : Test.Aside "&" := ⟨by simp⟩
instance : Test.Aside "." := ⟨by simp⟩
instance : Test.Aside ".." := ⟨by simp⟩
instance : Test.Aside "..." := ⟨by simp⟩
instance : Test.Aside "#" := ⟨by simp⟩
instance : Test.Aside ";" := ⟨by simp⟩
instance : Test.Aside "->" := ⟨by simp⟩
instance : Test.Aside "(" := ⟨by simp⟩
instance : Test.Aside "|" := ⟨by simp⟩

instance : Test.Apart "<" := ⟨by simp⟩
instance : Test.Apart "<=" := ⟨by simp⟩
instance : Test.Apart "<<=" := ⟨by simp⟩

instance (s : String) [Written s] : Test.Unworded (Test.punct s) :=
  Test.unworded_punct Written.ne

/-! ### Questions -/

/-- A question is decided by a test; if the answer is positive, `q` was read. -/
structure Decides (t : Test) (q : Reader β) (r : Reader Bool) : Prop where
  pos {c c' : Cursor} : r c = some (true, c') ↔ ∃ b, q c = some (b, c')
  neg {c c' : Cursor} : r c = some (false, c') ↔ c = c' ∧ t c.rest = false

namespace Decides

variable {q q' : Reader β} {r r' : Reader Bool}

private theorem shows (h : Decides t q r) [Eager q] : Shows r := by
  refine ⟨fun hr ↦ ?_⟩
  obtain ⟨b, hq⟩ := h.pos.1 hr
  exact Eager.lt hq

private theorem asks (h : Decides t q r) (h' : Decides t q' r') [t.Firm E p]
    [Rereads E n p .typed q q'] : Asks E n p r r' where
  pos hr := by
    obtain ⟨b, hq⟩ := h.pos.1 hr
    exact (Rereads.as hq : RereadsAs E n p .typed q' _ b _).map fun hq' ↦ h'.pos.2 ⟨b, hq'⟩
  neg hr := by
    obtain ⟨rfl, ht⟩ := h.neg.1 hr
    refine .refl fun ys hys ts ↦ h'.neg.2 ⟨rfl, ?_⟩
    rw [← ht, Test.Firm.eq (t := t) hys]

/-- The test for a word decides the question for it. -/
theorem word? (w : String) : Decides (Test.word w) (word w) (Reader.word? w) where
  pos := by
    rintro ⟨_ | ⟨token, rest⟩, taken, embedded⟩ c'
    · simp [Reader.word?, Reader.word, peek, takeIf, Test.word]
    · cases h : Test.word w (token :: rest) <;>
        simp [Reader.word?, Reader.word, peek, takeIf, skip, h]
  neg := by
    rintro ⟨_ | ⟨token, rest⟩, taken, embedded⟩ c'
    · simp [Reader.word?, peek, Test.word]
    · cases h : Test.word w (token :: rest) <;>
        simp [Reader.word?, peek, takeIf, skip, h]

/-- The test for a lifetime decides the question for it. -/
theorem lifetime? : Decides Test.lifetime lifetime Reader.lifetime? where
  pos := by
    rintro ⟨_ | ⟨token, rest⟩, taken, embedded⟩ c'
    · simp [Reader.lifetime?, Reader.lifetime, peek, takeIf, Test.lifetime]
    · cases h : Test.lifetime (token :: rest) <;>
        simp [Reader.lifetime?, Reader.lifetime, peek, takeIf, h]
  neg := by
    rintro ⟨_ | ⟨token, rest⟩, taken, embedded⟩ c'
    · simp [Reader.lifetime?, peek, Test.lifetime]
    · cases h : Test.lifetime (token :: rest) <;>
        simp [Reader.lifetime?, Reader.lifetime, peek, takeIf, h]

/-- The test for punctuation decides the question for it. -/
theorem punct? (s : String) : Decides (Test.punct s) (punct s) (Reader.punct? s) where
  pos {c c'} := by
    cases h : Test.punct s c.rest <;>
      simp [Reader.punct?, Reader.punct, peek, require, h, Option.bind_eq_some_iff]
  neg {c c'} := by
    cases h : Test.punct s c.rest <;> simp [Reader.punct?, peek, h, Option.bind_eq_some_iff]

end Decides

instance (w : String) : Shows (word? w) := (Decides.word? w).shows
instance : Shows lifetime? := Decides.lifetime?.shows
instance (s : String) [Written s] : Shows (punct? s) := (Decides.punct? s).shows

instance (w : String) [(Test.word w).Firm E p] : Asks E n p (word? w) (word? w) :=
  (Decides.word? w).asks (Decides.word? w)

instance [Test.lifetime.Firm E p] : Asks E n p lifetime? lifetime? :=
  Decides.lifetime?.asks Decides.lifetime?

instance (s : String) [Written s] [Test.Landed E s] [(Test.punct s).Firm E p] :
    Asks E n p (punct? s) (punct? s) :=
  (Decides.punct? s).asks (Decides.punct? s)

/-- Where a question is not allowed, nothing is read. -/
instance (allowed : Bool) {question : Reader Bool} [h : Shows question] :
    Shows (askIf allowed question) := by
  cases allowed with
  | true => exact h
  | false => exact ⟨fun hrun ↦ by cases hrun⟩

instance (allowed : Bool) {question question' : Reader Bool} [h : Asks E n p question question'] :
    Asks E n p (askIf allowed question) (askIf allowed question') := by
  cases allowed with
  | true => exact h
  | false =>
    exact { pos := fun hrun ↦ by cases hrun
            neg := fun hrun ↦ by cases hrun; exact .refl fun _ _ _ ↦ rfl }

/-- A reader gives no other answer. -/
class Answers (a : α) (r : Reader α) : Prop where
  eq {c c' : Cursor} {a' : α} : r c = some (a', c') → a' = a

instance (a : α) : Answers a (pure a) := ⟨fun h ↦ by cases h; rfl⟩

instance {b : β} [∀ a, Answers b (κ a)] : Answers b (r >>= κ) := by
  refine ⟨fun h ↦ ?_⟩
  obtain ⟨a, c₁, -, hk⟩ := of_bind h
  exact Answers.eq hk

instance (q : Prop) [Decidable q] {a : α} {r s : Reader α} [Answers a r] [Answers a s] :
    Answers a (if q then r else s) := by
  split <;> infer_instance

instance {a : α} {r s : Reader α} [Answers a r] : Answers a (if true = true then r else s) := by
  simpa using ‹Answers a r›

/-- A positive answer may be followed by more. -/
theorem Asks.followed {r r' : Reader Bool} {κ κ' : Bool → Reader Bool} [Shows r] [Asks E m p r r']
    [Below m k] (hpos : Rereads E k .typed .typed (κ true) (κ' true))
    [Answers true (κ true)] (hfalse : κ false = pure false) (hfalse' : κ' false = pure false) :
    Asks E m p (r >>= κ) (r' >>= κ') where
  pos h := by
    obtain ⟨a, c₁, hr, hk⟩ := of_bind h
    cases a with
    | false =>
      rw [hfalse] at hk
      cases hk
    | true =>
      exact (Asks.pos hr : RereadsAs E m p .typed r' _ true c₁).bind (hpos.as hk)
        (length_le hk) (length_le hr) (Nat.le_refl _) (.inr ⟨Shows.lt hr, Below.le_succ⟩)
  neg h := by
    obtain ⟨a, c₁, hr, hk⟩ := of_bind h
    cases a with
    | false =>
      rw [hfalse] at hk
      cases hk
      exact (Asks.neg hr : RereadsAs E m p p r' _ false _).map fun hr' ↦ by simp [hr', hfalse']
    | true => cases (Answers.eq hk : false = true)

/-- A question that is asked again up to a size is asked again up to every size under it. -/
theorem Asks.under [Under n m] {r r' : Reader Bool} (h : Asks E n p r r') : Asks E m p r r' where
  pos hr := (h.pos hr).mono Under.le
  neg hr := (h.neg hr).mono Under.le

/-- A question with something behind it shows its answer if nothing follows a no. -/
theorem Shows.followed {r : Reader Bool} {κ : Bool → Reader Bool} [Shows r]
    (hfalse : κ false = pure false) : Shows (r >>= κ) := by
  refine ⟨fun h ↦ ?_⟩
  obtain ⟨a, c₁, hr, hk⟩ := of_bind h
  cases a with
  | false =>
    rw [hfalse] at hk
    cases hk
  | true => exact Nat.lt_of_le_of_lt (length_le hk) (Shows.lt hr)

/-- A question may be asked without a need to know the answer. -/
instance (priority := low) [p.Hard] {r r' : Reader Bool} [Asks E n p r r'] :
    Rereads E n p p r r' := by
  refine ⟨fun {c c'} a h ↦ ?_⟩
  cases a with
  | false => exact Asks.neg h
  | true =>
    exact (Asks.pos h : RereadsAs E n p .typed r' c true c').of_end fun _ _ halike ↦ halike.typed

/-- What is ahead looks the same to a reader. -/
class Foresees (E : Edges) (p : Place) (r : Reader α) : Prop where
  eq {xs ys : List Token} (ts ts' : List Token) (es : List Expr) : Alike E p xs ys →
    (r ⟨xs, ts, es⟩).map Prod.fst = (r ⟨ys, ts', es⟩).map Prod.fst

instance [Foresees E p r] : Rereads E n p p (lookahead r) (lookahead r) := by
  refine ⟨fun {c c'} a h ↦ ?_⟩
  cases h
  refine .refl fun ys hys ts ↦ ?_
  simp only [lookahead, Foresees.eq (r := r) c.taken ts c.embedded hys]

/-- Whether a reader succeeds is what a test says. -/
theorem Foresees.of_test {r : Reader Unit} (t : Test) [t.Firm E p]
    (hr : ∀ c, (r c).isSome = t c.rest) : Foresees E p r := by
  refine ⟨fun {xs ys} ts ts' es h ↦ ?_⟩
  have hisSome : (r ⟨xs, ts, es⟩).isSome = (r ⟨ys, ts', es⟩).isSome := by
    rw [hr, hr]
    exact Test.Firm.eq h
  cases hxs : r ⟨xs, ts, es⟩ <;> cases hys : r ⟨ys, ts', es⟩ <;> simp_all

/-! ### Pieces -/

instance [Rereads E n A C r r'] : Rereads E n A C (capture r) (capture r') := by
  refine ⟨fun {c c'} a h ↦ ?_⟩
  obtain ⟨rest, taken, embedded⟩ := c
  simp only [capture] at h
  split at h
  next a rest' piece embedded' hr =>
    cases h
    obtain ⟨piece', htaken, hnil, hpiece⟩ := (Rereads.as hr : RereadsAs E n A C r' _ a _)
    obtain rfl : piece = piece' := by simpa using htaken
    refine ⟨piece, rfl, hnil, fun hsize ys hys ↦ ?_⟩
    obtain ⟨halike, hrun⟩ := hpiece hsize ys hys
    refine ⟨halike, fun ts ↦ ?_⟩
    have hr' := hrun []
    rw [List.append_nil] at hr'
    simp only [capture, hr']
  next => cases h

instance [Eager r] : Eager (capture r) := by
  refine ⟨fun {c c'} a h ↦ ?_⟩
  simp only [capture] at h
  split at h
  next hr =>
    cases h
    exact (Eager.lt hr :)
  next => cases h

instance [Rereads E n A C r r'] : Rereads E n A C (collect r) (collect r') := by
  refine ⟨fun {c c'} a h ↦ ?_⟩
  obtain ⟨rest, taken, embedded⟩ := c
  simp only [collect] at h
  split at h
  next a rest' taken' found hr =>
    cases h
    obtain ⟨piece, htaken, hnil, hpiece⟩ := (Rereads.as hr : RereadsAs E n A C r' _ a _)
    refine ⟨piece, htaken, hnil, fun hsize ys hys ↦ ?_⟩
    obtain ⟨halike, hrun⟩ := hpiece hsize ys hys
    exact ⟨halike, fun ts ↦ by simp only [collect, hrun]⟩
  next => cases h

instance [Eager r] : Eager (collect r) := by
  refine ⟨fun {c c'} a h ↦ ?_⟩
  simp only [collect] at h
  split at h
  next hr =>
    cases h
    exact (Eager.lt hr :)
  next => cases h

instance (e : Expr) : Rereads E n p p (embed e) (embed e) := by
  refine ⟨fun h ↦ ?_⟩
  cases h
  exact ⟨[], rfl, by simp, fun _ ys hys ↦ ⟨hys, fun _ ↦ rfl⟩⟩

/-! ### Repetitions -/

/-- A repetition with fuel for what is left has as much fuel as that is large, and one more. -/
theorem bounded_apply (rep : Nat → Reader α) (c : Cursor) :
    bounded rep c = rep (Token.sizeAll c.rest + 1) c := (rfl)

instance {rep : Nat → Reader α} [∀ fuel, Eager (rep fuel)] : Eager (bounded rep) :=
  ⟨fun h ↦ Eager.lt (r := rep _) h⟩

/-- A repetition is read again with fuel for the piece that it has read. -/
theorem RereadsAs.bounded {rep' : Nat → Reader α} {c c' : Cursor} {a : α}
    (h : ∀ m fuel', m ≤ n → m ≤ fuel' → RereadsAs E m A C (rep' fuel') c a c') :
    RereadsAs E n A C (Reader.bounded rep') c a c' := by
  obtain ⟨piece, htaken, hnil, -⟩ := h 0 0 (Nat.zero_le _) (Nat.le_refl _)
  refine ⟨piece, htaken, hnil, fun hsize ys hys ↦ ?_⟩
  obtain ⟨piece', htaken', -, hpiece⟩ := h (Token.sizeAll piece + 1)
    (Token.sizeAll (piece.reverse ++ ys) + 1) hsize
    (by rw [Token.sizeAll_append, Token.sizeAll_reverse]; omega)
  obtain rfl : piece = piece' := List.append_cancel_right (htaken.symm.trans htaken')
  exact hpiece (Nat.lt_succ_self _) ys hys

/-- To read nothing again, no fuel is needed. -/
theorem RereadsAs.of_succ {rep' : Nat → Reader α} {c c' : Cursor} {a : α}
    (h : ∀ fuel', m ≤ fuel' + 1 → RereadsAs E m A C (rep' (fuel' + 1)) c a c') (fuel' : Nat)
    (hm : m ≤ fuel') : RereadsAs E m A C (rep' fuel') c a c' := by
  cases fuel' with
  | zero =>
    obtain rfl : m = 0 := Nat.le_zero.1 hm
    exact (h 0 (Nat.zero_le _)).zero _ _
  | succ fuel' => exact h fuel' hm

private theorem Rereads.bounded {rep rep' : Nat → Reader α}
    (h : ∀ fuel m fuel', m ≤ n → m ≤ fuel' → Rereads E m A C (rep fuel) (rep' fuel')) :
    Rereads E n A C (Reader.bounded rep) (Reader.bounded rep') :=
  ⟨fun hr ↦ .bounded fun m fuel' hm hfuel ↦ (h _ m fuel' hm hfuel).as hr⟩

/-- A loop is read again if each of its rounds is. -/
theorem Rereads.loop (rep rep' : ι → Nat → Reader α)
    (hbase : ∀ i m fuel', m ≤ n → m ≤ fuel' → Rereads E m A C (rep i 0) (rep' i fuel'))
    (hstep : ∀ m k, Below m k → m ≤ n → k ≤ n - 1 → ∀ fuel fuel',
      (∀ i, Rereads E k A C (rep i fuel) (rep' i fuel')) →
        ∀ i, Rereads E m A C (rep i (fuel + 1)) (rep' i (fuel' + 1))) (i : ι) :
    Rereads E n A C (Reader.bounded (rep i)) (Reader.bounded (rep' i)) := by
  refine .bounded fun fuel ↦ ?_
  induction fuel generalizing i with
  | zero => exact hbase i
  | succ fuel ih =>
    intro m fuel' hm hfuel
    refine ⟨fun {c c'} a hr ↦ ?_⟩
    have hsucc (fuel' : Nat) (hfuel : m ≤ fuel' + 1) :
        RereadsAs E m A C (rep' i (fuel' + 1)) c a c' :=
      (hstep m (m - 1) ⟨Nat.sub_le m 1, by omega⟩ hm (by omega) fuel fuel'
        (fun i ↦ ih i (m - 1) fuel' (by omega) (by omega)) i).as hr
    exact RereadsAs.of_succ hsucc fuel' hfuel

/-- A single loop that can be read only with fuel. -/
theorem Rereads.repetition {rep rep' : Nat → Reader α} (hbase : ∀ c, rep 0 c = none)
    (hstep : ∀ m k, Below m k → m ≤ n → k ≤ n - 1 → ∀ fuel fuel',
      Rereads E k A C (rep fuel) (rep' fuel') →
        Rereads E m A C (rep (fuel + 1)) (rep' (fuel' + 1))) :
    Rereads E n A C (Reader.bounded rep) (Reader.bounded rep') :=
  .loop (fun _ : Unit ↦ rep) (fun _ ↦ rep') (fun _ _ _ _ _ ↦ ⟨fun h ↦ by rw [hbase] at h; cases h⟩)
    (fun m k hk hm hk' fuel fuel' ih _ ↦ hstep m k hk hm hk' fuel fuel' (ih ())) ()

instance [p.Hard] [t.Firm E p] [Eager r] [hr : Rereads E n p .typed r r'] :
    Rereads E n p p (repeatWhile t r) (repeatWhile t r') := by
  refine .repetition (fun _ ↦ rfl) fun m k hk hm _ fuel fuel' ih ↦ ?_
  have hm := hr.mono hm
  have hagain : Rereads E k .typed p (whileTest t r fuel) (whileTest t r' fuel') :=
    ⟨fun h ↦ (ih.as h).of_start fun _ halike ↦ halike.typed⟩
  unfold whileTest
  refine .lazily (B := p) inferInstance fun goes ↦ ?_
  cases goes with
  | true => exact .eagerly (B := .typed) inferInstance fun _ ↦ .lazily (B := p) hagain inferInstance
  | false => infer_instance

instance [p.Hard] [t.Firm E p] [Eager r] [Rereads E n p .typed r r'] :
    Rereads E n p p (repeatUntil t r) (repeatUntil t r') := by
  unfold repeatUntil
  infer_instance

section

variable {done : Test} [Eager r] [hr : Rereads E n .typed .typed r r']

/-- A list with separators reads again if the reader of its elements does. -/
theorem Rereads.separatedBy (sep : String) [Written sep] [Test.Landed E sep]
    [done.Firm E .typed] :
    Rereads E n .typed .typed (Reader.bounded (separatedBy sep done r))
      (Reader.bounded (Reader.separatedBy sep done r')) := by
  refine .repetition (fun _ ↦ rfl) fun m k hk hm _ fuel fuel' ih ↦ ?_
  have hm := hr.mono hm
  unfold Reader.separatedBy
  infer_instance

instance [done.Firm E .typed] : Rereads E n .typed .typed (commas done r) (commas done r') :=
  .separatedBy ","

instance [Test.atEnd.Firm E .typed] : Rereads E n .typed .typed (commaList r) (commaList r') := by
  unfold commaList
  infer_instance

instance [done.Firm E .typed] [(Test.punct "+").Firm E .typed] :
    Rereads E n .typed .typed (plusList done r) (plusList done r') := by
  refine .repetition (fun _ ↦ rfl) fun m k hk hm _ fuel fuel' ih ↦ ?_
  have hm := hr.mono hm
  unfold summands
  infer_instance

end

end Reader

end GuestBridge.Host
