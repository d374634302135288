import GuestBridge.Proofs.Number.Whole
import GuestBridge.Rehearsal.Interpreter

/-!
# Conversion to integers

A rehearsal converts floating-point numbers to integers of 64 bits. A whole number within their
range becomes the integer that it is, and what is no whole number is refused. A whole number out
of range is not refused: it becomes the least or the greatest integer.
-/

namespace GuestBridge

/-! ### The nearest integer -/

namespace Binary64

variable {x : Binary64} {n : Int}

/-- An integer within range is its own nearest one. -/
theorem toInt64_of_value? {n : Int64} (h : x.value? = some (n.toInt : ℚ)) : x.toInt64 = n := by
  have hlow : Int64.minValue.toInt ≤ n.toInt := n.minValue_le_toInt
  have hhigh : n.toInt ≤ Int64.maxValue.toInt := n.toInt_le
  rw [toInt64, truncate_of_value? h, min_eq_right hhigh, max_eq_right hlow, Int64.ofInt_toInt]

/-- The greatest integer is the nearest one to whatever is greater. -/
theorem toInt64_of_greater (h : x.value? = some (n : ℚ)) (hn : Int64.maxValue.toInt < n) :
    x.toInt64 = .maxValue := by
  rw [toInt64, truncate_of_value? h, min_eq_left hn.le]
  decide

/-- The least integer is the nearest one to whatever is less. -/
theorem toInt64_of_less (h : x.value? = some (n : ℚ)) (hn : n < Int64.minValue.toInt) :
    x.toInt64 = .minValue := by
  have hle : Int64.minValue.toInt ≤ Int64.maxValue.toInt := by decide
  rw [toInt64, truncate_of_value? h, min_eq_right (hn.le.trans hle), max_eq_left hn.le]
  decide

end Binary64

namespace Rehearsal

open Binary64

/-! ### What a number is converted to -/

variable {x : Binary64}

/-- What a number is converted to is handed out as it is. -/
theorem answer_convert_int64 (x : Binary64) (w : Scene) :
    (interpreter.answer (.convert "Int64" (.float x)) w).1 =
      if x.isIntegral then .ok (.int x.toInt64)
      else raise "InexactError" s!"Int64({x.text .plain})" := by
  simp only [interpreter, Scene.answer, Scene.respond, Scene.convert, Scene.converted]
  cases x.isIntegral <;> rfl

/-- A whole number is converted to the nearest integer. -/
theorem answer_convert_whole {n : Int} (h : x.value? = some (n : ℚ)) (w : Scene) :
    (interpreter.answer (.convert "Int64" (.float x)) w).1 = .ok (.int x.toInt64) := by
  rw [answer_convert_int64, if_pos (isIntegral_of_value? h)]

/-- A conversion to integers of 64 bits, for every number: one that is such an integer becomes
it, any other whole number becomes the end of the range that it lies beyond, and all others,
infinities among them, are refused. -/
theorem convert_int64 (x : Binary64) (w : Scene) :
    let result := (interpreter.answer (.convert "Int64" (.float x)) w).1
    (∀ n : Int64, x.value? = some (n.toInt : ℚ) → result = .ok (.int n)) ∧
      (∀ n : Int, x.value? = some (n : ℚ) →
        (Int64.maxValue.toInt < n → result = .ok (.int .maxValue)) ∧
        (n < Int64.minValue.toInt → result = .ok (.int .minValue))) ∧
      ((∀ n : Int, x.value? ≠ some (n : ℚ)) →
        result = .error (.raised "InexactError" s!"Int64({x.text .plain})")) := by
  refine ⟨fun n h ↦ ?_, fun n h ↦ ⟨fun hn ↦ ?_, fun hn ↦ ?_⟩, fun h ↦ ?_⟩
  · rw [answer_convert_whole h, toInt64_of_value? h]
  · rw [answer_convert_whole h, toInt64_of_greater h hn]
  · rw [answer_convert_whole h, toInt64_of_less h hn]
  · have hpart : ¬ x.isIntegral := fun hwhole ↦ h _ (value?_of_isIntegral hwhole)
    rw [answer_convert_int64, if_neg hpart]
    rfl

/-- The least power of two out of range is converted to the greatest integer, which it is not. -/
theorem convert_int64_saturates :
    let x : Binary64 := ⟨0x43E0000000000000⟩
    (interpreter.answer (.convert "Int64" (.float x)) default).1 = .ok (.int .maxValue) ∧
      ∀ n : Int64, x.value? ≠ some (n.toInt : ℚ) := by
  intro x
  have hvalue : x.value? = some ((0x8000000000000000 : Int) : ℚ) := by
    have hfinite : x.isFinite = true := by decide
    have hnegative : x.negative = false := by decide
    have hsignificand : x.significand = 0x10000000000000 := by decide
    have hexponent : x.exponent = 11 := by decide
    rw [value?, hfinite, hnegative, hsignificand, hexponent]
    norm_num
  refine ⟨?_, fun n hn ↦ ?_⟩
  · rw [answer_convert_whole hvalue, toInt64_of_greater hvalue (by decide)]
  · have heq : (0x8000000000000000 : Int) = n.toInt := by
      exact_mod_cast Option.some.inj (hvalue.symm.trans hn)
    have hle : n.toInt ≤ Int64.maxValue.toInt := n.toInt_le
    rw [← heq] at hle
    exact absurd hle (by decide)

end Rehearsal

end GuestBridge
