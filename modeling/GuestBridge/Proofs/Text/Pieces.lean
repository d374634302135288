import GuestBridge.Text.Blank

/-!
# Pieces that were joined

A text without a cut is one piece, and a text is cut behind the first piece wherever the rest
is cut. So pieces that are joined come apart again, and the words of a line are the words it
was made of.
-/

namespace GuestBridge.Text

variable {cut : Char → Bool} {piece : List Char}

/-- A text without a character is not cut at this character. -/
theorem not_cut_of_notMem {x : Char} (h : x ∉ piece) : ∀ c ∈ piece, decide (c = x) = false := by
  intro c hc
  exact decide_eq_false fun hcx ↦ h (hcx ▸ hc)

/-- A text with no character at which it is cut is one piece. -/
theorem pieces_of_not_cut (h : ∀ c ∈ piece, cut c = false) : pieces cut piece = [piece] := by
  induction piece with
  | nil => rfl
  | cons c piece ih =>
    rw [List.forall_mem_cons] at h
    simp [pieces, h.1, ih h.2]

/-- The first piece ends at the first cut. -/
theorem pieces_append (h : ∀ c ∈ piece, cut c = false) {x : Char} (hx : cut x = true)
    (cs : List Char) : pieces cut (piece ++ x :: cs) = piece :: pieces cut cs := by
  induction piece with
  | nil => simp [pieces, hx]
  | cons c piece ih =>
    rw [List.forall_mem_cons] at h
    simp [pieces, h.1, ih h.2]

/-- A character of joined texts is in one of them or in the separator. -/
theorem mem_intercalate {sep : List Char} {texts : List (List Char)} {c : Char}
    (h : c ∈ sep.intercalate texts) : c ∈ sep ∨ ∃ text ∈ texts, c ∈ text := by
  induction texts with
  | nil => simp at h
  | cons text texts ih =>
    cases texts with
    | nil => exact .inr ⟨text, by simp, by simpa using h⟩
    | cons next texts =>
      rw [List.intercalate_cons_cons, List.mem_append, List.mem_append] at h
      rcases h with (h | h) | h
      · exact .inr ⟨text, by simp, h⟩
      · exact .inl h
      · rcases ih h with h | ⟨other, hother, h⟩
        · exact .inl h
        · exact .inr ⟨other, List.mem_cons_of_mem _ hother, h⟩

/-- Pieces that are joined at a cut are the pieces of the text. -/
theorem pieces_intercalate {x : Char} (hx : cut x = true) {ps : List (List Char)} (hne : ps ≠ [])
    (h : ∀ piece ∈ ps, ∀ c ∈ piece, cut c = false) : pieces cut ([x].intercalate ps) = ps := by
  induction ps with
  | nil => exact absurd rfl hne
  | cons piece ps ih =>
    rw [List.forall_mem_cons] at h
    cases ps with
    | nil => simpa using pieces_of_not_cut h.1
    | cons next ps =>
      rw [List.intercalate_cons_cons, List.append_assoc, List.singleton_append,
        pieces_append h.1 hx, ih (by simp) h.2]

/-- Texts are joined with a separator between neighbours. -/
theorem joinWith_eq_intercalate (sep : List Char) (texts : List (List Char)) :
    joinWith sep texts = sep.intercalate texts := by
  induction texts with
  | nil => rfl
  | cons text texts ih =>
    cases texts with
    | nil => simp [joinWith]
    | cons next texts => rw [joinWith, ih, List.intercalate_cons_cons]; exact List.cons_ne_nil _ _

/-- The words of a line are those that it was made of. -/
theorem words_intercalate {ws : List (List Char)} (hne : ws ≠ [])
    (h : ∀ w ∈ ws, w ≠ [] ∧ ∀ c ∈ w, isBlank c = false) : words ([' '].intercalate ws) = ws := by
  have hwords : ∀ w ∈ ws, decide (w ≠ []) = true := fun w hw ↦ decide_eq_true (h w hw).1
  rw [words, pieces_intercalate (by decide) hne fun w hw ↦ (h w hw).2, List.filter_eq_self.2 hwords]

end GuestBridge.Text
