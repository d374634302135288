import GuestBridge.Host.Extraction
import GuestBridge.Proofs.Text.Dedenting

/-!
# Where a function's text stands

A host function is taken up from the dedented text, and its guest code is given in settled form.
So neither depends on how far the text is indented, and settling once is enough.
-/

namespace GuestBridge.Host

open Text

variable {pre : String}

private theorem dedent_indent (hblank : isBlankLine pre.toList = true) (hline : '\n' ∉ pre.toList)
    (text : String) : dedent (indent pre text) = dedent text := by
  rw [dedent, indent, String.toList_ofList, dedentChars_indentChars_eq hblank hline, dedent]

private theorem dedent_dedent (text : String) : dedent (dedent text) = dedent text := by
  simp only [dedent, String.toList_ofList, dedentChars_dedentChars]

/-- The text behind the margin is all that counts for a host function. -/
theorem HostFunction.parse_of_dedent_eq {text text' : String} (h : dedent text = dedent text') :
    HostFunction.parse text = HostFunction.parse text' := by
  rw [HostFunction.parse, HostFunction.parse, h]

private theorem settle_settle (text : String) : settle (settle text) = settle text := by
  simp only [settle, String.toList_ofList, (isSettled_settleChars _).settleChars_eq]

private theorem dedent_settle (text : String) : dedent (settle text) = settle text := by
  simp only [dedent, settle, String.toList_ofList, (isSettled_settleChars _).dedentChars_eq]

/-- Where a function's text stands does not matter. Indented with any blanks, it is dedented to
the same text and taken up as the same function, or fails to be in the same way; dedenting twice is
dedenting once; and a settled text is neither dedented nor settled any further. -/
theorem parse_indent (text code : String) (hblank : isBlankLine pre.toList = true)
    (hline : '\n' ∉ pre.toList) :
    dedent (indent pre text) = dedent text ∧ dedent (dedent text) = dedent text ∧
      HostFunction.parse (indent pre text) = HostFunction.parse text ∧
      settle (settle code) = settle code ∧ dedent (settle code) = settle code :=
  ⟨dedent_indent hblank hline text, dedent_dedent text,
    HostFunction.parse_of_dedent_eq (dedent_indent hblank hline text), settle_settle code,
    dedent_settle code⟩

/-- A tab and a no-break space in front of a function whose lines start with different blanks. -/
theorem parse_indent_tab :
    let pre := "\t\u00a0"
    let text := "  fn f(x: i64) \x7b\r\n\n\t\"x\"\n  \x7d"
    isBlankLine pre.toList = true ∧ '\n' ∉ pre.toList ∧
      dedent (indent pre text) = dedent text ∧ dedent (dedent text) = dedent text ∧
      HostFunction.parse (indent pre text) = HostFunction.parse text ∧
      settle (settle text) = settle text ∧ dedent (settle text) = settle text :=
  ⟨by decide, by decide, parse_indent _ _ (by decide) (by decide)⟩

end GuestBridge.Host
