import Choicebook.Proofs.Condition.Closed

/-!
# Expected texts that are not numbers

The expected text of a number condition may be no number at all. It is then read as the double that
is not a number, which is neither equal to anything nor less nor greater. The main theorem,
`VariableCondition.holds_of_misreads`, says which tests can still hold.

The tests for equality and for the order cannot. The test for what a variable contains cannot hold
of a number or of a list, since no item is the same as what is not a number. A text is different:
the double is written as a text again, and its name, "nan", is looked for. So a text can contain
what is not a number, and so can anything else that is searched as a text.
-/

namespace Choicebook

namespace VariableCondition

variable {c : VariableCondition} {vars : Entries} {v : Value} {t : Test}

/-- A condition compares a variable as a number, and the expected text is not blank and not a
number. -/
structure Misreads (c : VariableCondition) (vars : Entries) (v : Value) : Prop
    extends c.Asks vars v where
  typed : c.valueType = .number
  expected : ∃ s, c.expected = some s ∧ Text.trim s ≠ "" ∧ Number.readDouble (Text.trim s) = none

theorem Misreads.exists_expecting (h : c.Misreads vars v) :
    ∃ s, c.expected = some s ∧ c.valueType.expecting s = .float .nan := by
  obtain ⟨s, hs, hfilled, hread⟩ := h.expected
  refine ⟨s, hs, ?_⟩
  have hnan : Value.numberOfText s = .nan := by
    rw [Value.numberOfText_eq, Text.amount?, if_neg hfilled, hread]
    rfl
  rw [h.typed, ValueType.expecting, Value.numberOfText_trim, hnan]

end VariableCondition

namespace Value

/-- Nothing is the same as what is not a number. -/
theorem same_nan (v : Value) : v.same (.float .nan) = false := by
  cases v with
  | bool b => exact same_of_number (x := .int _) rfl
  | int n => exact same_of_number (x := .int n) rfl
  | float x =>
    rw [same_of_number (x := .float x) rfl]
    cases x <;> rfl
  | _ => simp [same]

theorem strictlySame_nan (v : Value) : v.strictlySame (.float .nan) = false := by
  cases v with
  | bool b => rfl
  | _ => exact same_nan _

/-- Whether a value is searched as a text for a number that it might contain. Null is not, nor are
numbers, truth values and what is made of items. -/
def isSearched : Value → Bool
  | .null | .bool _ | .int _ | .float _ | .list _ | .tuple _ | .set _ => false
  | _ => true

end Value

namespace VariableCondition

variable {c : VariableCondition} {vars : Entries} {v : Value} {t : Test}

/-! ### What contains what is not a number -/

/-- A number contains what it is. -/
theorem containing_of_number (c : VariableCondition) (hv : v.number?.isSome = true) (y : Double) :
    c.containing v (.float y) = .ok (.plain (v.same (.float y))) := by
  cases v with
  | bool b | int n | float x => rfl
  | _ => cases hv

/-- What is neither null nor a number nor made of items is searched as a text. -/
theorem containing_nan_of_isSearched (c : VariableCondition) (hv : v.isSearched = true) :
    c.containing v (.float .nan) =
      (fun text => .plain (Text.contains text "nan")) <$> v.comparedText := by
  cases v with
  | null | bool b | int n | float x | list items | tuple items | set items => cases hv
  | _ => rfl

/-- No item is what is not a number. -/
theorem containing_nan_of_items (c : VariableCondition) {items : List Value}
    (hv : v.items? = some items) {r : Verdict} (hr : c.containing v (.float .nan) = .ok r) :
    r.holds = false := by
  rw [c.containing_of_items hv Value.noConfusion] at hr
  cases hany : anyItem c.valueType (.float .nan) items with
  | error f =>
    rw [hany] at hr
    cases hr
  | ok b =>
    rw [hany] at hr
    cases hr
    refine Bool.eq_false_iff.mpr fun hb => ?_
    obtain ⟨x, -, w, -, hsame⟩ := (anyItem_iff _ _ _).1.mp (hany.trans (congrArg Except.ok hb))
    cases (Value.same_nan w).symm.trans hsame

/-- Only what is searched as a text can contain what is not a number: it may hold its name. -/
theorem containing_nan_iff (c : VariableCondition) (v : Value) :
    (∃ r, c.containing v (.float .nan) = .ok r ∧ r.holds = true) ↔
      v.isSearched = true ∧ ∃ text, v.comparedText = .ok text ∧
        Text.contains text "nan" = true := by
  cases hv : v.isSearched with
  | true =>
    rw [c.containing_nan_of_isSearched hv, eq_self_iff_true, true_and]
    cases v.comparedText with
    | error f => exact iff_of_false (fun ⟨r, hr, _⟩ => nomatch hr) fun ⟨text, h, _⟩ => nomatch h
    | ok text =>
      constructor
      · rintro ⟨r, hr, hholds⟩
        cases hr
        exact ⟨text, rfl, hholds⟩
      · rintro ⟨text', htext, hnan⟩
        cases htext
        exact ⟨_, rfl, hnan⟩
  | false =>
    refine iff_of_false ?_ fun h => nomatch h.1
    rintro ⟨r, hr, hholds⟩
    have hnot : r.holds = false := by
      cases v with
      | null =>
        cases hr
        rfl
      | bool b | int n | float x =>
        rw [c.containing_of_number rfl, Value.same_nan] at hr
        cases hr
        rfl
      | list items | tuple items | set items => exact c.containing_nan_of_items rfl hr
      | _ => cases hv
    cases hnot.symm.trans hholds

/-! ### The verdicts -/

/-- Nothing compares with an expected text that is not a number. -/
theorem Misreads.not_holds_of_isNumeric (h : c.Misreads vars v) (ht : t.isNumeric = true) :
    ¬c.Holds vars t := by
  obtain ⟨s, hs, hnan⟩ := h.exists_expecting
  have hdouble : (c.valueType.expecting s).toDouble = .ok .nan := by rw [hnan]; rfl
  rintro ⟨r, hr, hholds⟩
  obtain ⟨w, hw⟩ := h.exists_normalized_of_comparing hs (.inr (.inr ht)) hr
  cases hx : w.toDouble with
  | error e => cases (h.evaluate_numeric_of_error hs hw hx ht).symm.trans hr
  | ok x =>
    have hnothing : x.compare? .nan = none := by cases x <;> rfl
    rw [h.evaluate_numeric hs hw hx hdouble ht, hnothing] at hr
    cases hr
    cases hholds

/-- **An expected text that is not a number.** For a number condition with such a text, the tests
for equality and for the order do not hold. The variable contains what is expected exactly if it is
searched as a text and has "nan" in it. -/
theorem holds_of_misreads (h : c.Misreads vars v) :
    (∀ t ∈ [Test.equals, .less, .lessOrEqual, .greater, .greaterOrEqual], ¬c.Holds vars t) ∧
    (c.Holds vars .contains ↔ v.isSearched = true ∧ ∃ text, v.comparedText = .ok text ∧
      Text.contains text "nan" = true) := by
  obtain ⟨s, hs, hnan⟩ := h.exists_expecting
  have hequals : ¬c.Holds vars .equals := by
    rintro ⟨r, hr, hholds⟩
    obtain ⟨w, hw⟩ := h.exists_normalized_of_comparing hs (.inl rfl) hr
    have hplain := h.evaluate_equals hs hw
    rw [hnan, Value.strictlySame_nan] at hplain
    cases (holds_iff_of_plain hplain).mp ⟨r, hr, hholds⟩
  have hcontains := h.evaluate_contains hs
  rw [hnan] at hcontains
  refine ⟨fun t ht => ?_, by rw [Holds, hcontains, containing_nan_iff]⟩
  cases t with
  | equals => exact hequals
  | less | lessOrEqual | greater | greaterOrEqual => exact h.not_holds_of_isNumeric rfl
  | _ => simp at ht

/-- The text "12" passes no test of a number condition that expects the text "many". -/
theorem holds_of_misreads_text :
    let c : VariableCondition := ⟨"v", .known .equals, .number, some " many"⟩
    let vars : Entries := [(.text "v", .text "12")]
    (∀ t ∈ [Test.equals, .less, .lessOrEqual, .greater, .greaterOrEqual], ¬c.Holds vars t) ∧
      ¬c.Holds vars .contains := by
  intro c vars
  have hmisreads : c.Misreads vars (.text "12") := {
    toAsks := asks_single (by decide +kernel) (by decide) _
    typed := rfl
    expected := ⟨" many", rfl, by decide +kernel, by decide +kernel⟩ }
  obtain ⟨htests, hcontains⟩ := holds_of_misreads hmisreads
  have hno : Text.contains "12" "nan" = false := by decide +kernel
  refine ⟨htests, fun hholds => ?_⟩
  obtain ⟨-, text, htext, hname⟩ := hcontains.mp hholds
  cases htext
  cases hno.symm.trans hname

/-- The text "banana" contains what is not a number. -/
theorem contains_banana :
    let c : VariableCondition := ⟨"v", .known .contains, .number, some "abc"⟩
    let vars : Entries := [(.text "v", .text "banana")]
    Text.trim "abc" ≠ "" ∧ Number.readDouble (Text.trim "abc") = none ∧ c.Holds vars .contains := by
  intro c vars
  have hfilled : Text.trim "abc" ≠ "" := by decide +kernel
  have hread : Number.readDouble (Text.trim "abc") = none := by decide +kernel
  have hmisreads : c.Misreads vars (.text "banana") := {
    toAsks := asks_single (by decide +kernel) (by decide) _
    typed := rfl
    expected := ⟨"abc", rfl, hfilled, hread⟩ }
  obtain ⟨s, hs, hnan⟩ := hmisreads.exists_expecting
  have hcontains := hmisreads.evaluate_contains hs
  rw [hnan] at hcontains
  refine ⟨hfilled, hread, ?_⟩
  rw [Holds, hcontains, containing_nan_iff]
  exact ⟨rfl, "banana", rfl, by decide +kernel⟩

end VariableCondition

end Choicebook
