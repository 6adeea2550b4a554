import Choicebook.Proofs.Condition.Asking
import Choicebook.Proofs.Text.Blank

/-!
# The two readings of a text

A text can stand on both sides of a condition: it is the expected text, or a variable holds it. Both
are read as the value type of the condition wants, by two functions that were given different rules
for blanks. The main theorem, `VariableCondition.readings_agree`, says where the two readings of one
text are the same value. For numbers they always are. For truth values they are, except for a text
that is not empty and holds only blanks: it is false where it is expected and true in a variable.

The reason in each case is that a text is trimmed before anything else is done with it, and that
trimming again changes nothing (`Text.trim_trim`). Only the last rule for truth values, by which a
text that is no known word is true unless it is empty, looks at a variable's text as it is.
-/

namespace Choicebook

namespace Value

theorem numberOfText_trim (s : String) : numberOfText (Text.trim s) = numberOfText s := by
  rw [numberOfText, Text.trim_trim, numberOfText]

theorem wordTruth?_trim (s : String) : wordTruth? (Text.trim s) = wordTruth? s := by
  rw [wordTruth?, Text.trim_trim, wordTruth?]

/-- Nothing but blanks is no word. -/
theorem wordTruth?_of_blank {s : String} (h : Text.trim s = "") : wordTruth? s = none := by
  rw [wordTruth?, h]
  decide

/-- Of the texts of nothing but blanks, the empty one is false. -/
theorem toTruth_of_blank {s : String} (h : Text.trim s = "") :
    (Value.text s).toTruth = !s.isEmpty := by
  rw [toTruth, wordTruth?_of_blank h, Option.getD_none]

/-- The truth value of a text does not depend on the blanks around it, unless there is nothing
else. -/
theorem toTruth_trim_iff {s : String} :
    (Value.text (Text.trim s)).toTruth = (Value.text s).toTruth ↔ s = "" ∨ Text.trim s ≠ "" := by
  by_cases hblank : Text.trim s = ""
  · rw [toTruth_of_blank hblank, hblank, toTruth_of_blank Text.trim_empty,
      or_iff_left (not_not_intro rfl), ← String.isEmpty_iff]
    cases s.isEmpty with
    | true => decide
    | false => decide
  · have hne : s ≠ "" := by
      rintro rfl
      exact hblank Text.trim_empty
    have hfilled : (Text.trim s).isEmpty = s.isEmpty := by
      rw [Bool.eq_iff_iff, String.isEmpty_iff, String.isEmpty_iff]
      exact iff_of_false hblank hne
    rw [toTruth, toTruth, wordTruth?_trim, hfilled]
    exact iff_of_true rfl (.inr hblank)

theorem normalized_boolean (v : Value) : v.normalized .boolean = .ok (.bool v.toTruth) := rfl

end Value

/-- An expected truth value is that of the trimmed text. -/
theorem ValueType.expecting_boolean (s : String) :
    ValueType.boolean.expecting s = .bool (Value.text (Text.trim s)).toTruth := by
  rw [expecting, Value.toTruth]

namespace VariableCondition

variable {c : VariableCondition} {s : String} {t : Test}

/-- **The two readings.** An expected text and the same text in a variable are read without a fault.
As numbers they are the same. As truth values they are the same exactly if the text is empty or has
something in it that is not blank; otherwise the expected text is false and the variable is true. -/
theorem readings_agree (hs : c.expected = some s) (ht : t.needsExpected = true) :
    ∃ e v, (c.asking t).expectedValue? = .ok (some e) ∧
      (Value.text s).normalized c.valueType = .ok v ∧
      (c.valueType = .number → e = v) ∧
      (c.valueType = .boolean → (e = v ↔ s = "" ∨ Text.trim s ≠ "")) ∧
      (c.valueType = .boolean → s ≠ "" → Text.trim s = "" → e = .bool false ∧ v = .bool true) := by
  obtain ⟨v, hv⟩ := Value.exists_normalized (Value.isReadable_text c.valueType s)
  refine ⟨c.valueType.expecting s, v, expectedValue?_of_expected hs ht, hv, ?_, ?_, ?_⟩
  · intro hnumber
    rw [hnumber] at hv ⊢
    cases hv
    exact congrArg Value.float (Value.numberOfText_trim s)
  · intro hboolean
    rw [hboolean] at hv
    cases hv
    rw [hboolean, ValueType.expecting_boolean, Value.bool.injEq]
    exact Value.toTruth_trim_iff
  · intro hboolean hne hblank
    rw [hboolean] at hv
    cases hv
    have hfilled : s.isEmpty = false := Bool.eq_false_iff.mpr (mt String.isEmpty_iff.mp hne)
    rw [hboolean, ValueType.expecting_boolean, hblank, Value.toTruth_of_blank hblank, hfilled]
    exact ⟨congrArg Value.bool (Value.toTruth_of_blank Text.trim_empty), rfl⟩

/-- A word between blanks, in capitals and small letters, is read in the same way on both sides. -/
theorem readings_agree_word :
    let c : VariableCondition := ⟨"v", .known .equals, .boolean, some "\u2003oFF "⟩
    ∃ e v, c.expectedValue? = .ok (some e) ∧ (Value.text "\u2003oFF ").normalized .boolean = .ok v ∧
      e = v := by
  intro c
  obtain ⟨e, v, he, hv, -, hagree, -⟩ :=
    readings_agree (c := c) (s := "\u2003oFF ") (t := .equals) rfl rfl
  exact ⟨e, v, he, hv, (hagree rfl).mpr (.inr (by decide +kernel))⟩

/-- A single blank is false where it is expected, and true in a variable. -/
theorem readings_differ_blank :
    let c : VariableCondition := ⟨"v", .known .equals, .boolean, some " "⟩
    c.expectedValue? = .ok (some (.bool false)) ∧
      (Value.text " ").normalized .boolean = .ok (.bool true) := by
  intro c
  have hexpected : c.expectedValue? = .ok (some (ValueType.boolean.expecting " ")) :=
    c.expectedValue?_asking (t := .equals) rfl
  have hblank : Text.trim " " = "" := by decide +kernel
  rw [hexpected, Value.normalized_boolean, ValueType.expecting_boolean, hblank,
    Value.toTruth_of_blank Text.trim_empty, Value.toTruth_of_blank hblank]
  exact ⟨rfl, rfl⟩

end VariableCondition

end Choicebook
