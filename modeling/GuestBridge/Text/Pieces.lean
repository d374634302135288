/-!
# Pieces of a text

A text is cut into pieces at the characters of a class, and pieces are joined with a
separator.
-/

namespace GuestBridge.Text

/-- The pieces of a text between the characters that `cut` accepts. There is always at least
one piece, and pieces may be empty. -/
def pieces (cut : Char → Bool) : List Char → List (List Char)
  | [] => [[]]
  | c :: cs =>
    if cut c then [] :: pieces cut cs
    else match pieces cut cs with
      | [] => [[c]]
      | piece :: rest => (c :: piece) :: rest

/-- Join pieces with a separator between neighbours. -/
def joinWith (sep : List Char) : List (List Char) → List Char
  | [] => []
  | [piece] => piece
  | piece :: rest => piece ++ sep ++ joinWith sep rest

/-- There is always a piece. -/
theorem pieces_ne_nil (cut : Char → Bool) (cs : List Char) : pieces cut cs ≠ [] := by
  cases cs with
  | nil => simp [pieces]
  | cons c cs =>
    simp only [pieces]
    split
    · simp
    · split <;> simp

/-- No piece has a character in it at which the text is cut. -/
theorem not_cut_of_mem_pieces {cut : Char → Bool} {cs piece : List Char}
    (h : piece ∈ pieces cut cs) : ∀ c ∈ piece, cut c = false := by
  induction cs generalizing piece with
  | nil =>
    have hp : piece = [] := by simpa [pieces] using h
    simp [hp]
  | cons c cs ih =>
    simp only [pieces] at h
    split at h
    · rcases List.mem_cons.1 h with rfl | h
      · simp
      · exact ih h
    · next hc =>
      split at h
      next hn => exact absurd hn (pieces_ne_nil cut cs)
      next first rest hp =>
        rcases List.mem_cons.1 h with rfl | h
        · intro d hd
          rcases List.mem_cons.1 hd with rfl | hd
          · simpa using hc
          · exact ih (hp ▸ List.mem_cons_self) d hd
        · exact ih (hp ▸ List.mem_cons_of_mem first h)

/-- Joined by the one character at which a text is cut, its pieces are the text again. -/
theorem joinWith_pieces (x : Char) (cs : List Char) : joinWith [x] (pieces (· = x) cs) = cs := by
  induction cs with
  | nil => rfl
  | cons c cs ih =>
    simp only [pieces]
    split
    · next h =>
      have hc : c = x := by simpa using h
      cases hp : pieces (· = x) cs with
      | nil => exact absurd hp (pieces_ne_nil _ cs)
      | cons first rest =>
        rw [hp] at ih
        simp [joinWith, ih, hc]
    · split
      next hn => exact absurd hn (pieces_ne_nil _ cs)
      next first rest hp =>
        rw [hp] at ih
        cases rest with
        | nil => simpa [joinWith] using ih
        | cons second rest => simpa [joinWith] using ih

end GuestBridge.Text
