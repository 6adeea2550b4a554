import Choicebook.Proofs.Condition.Order
import Choicebook.Proofs.Condition.Readings
import Choicebook.Proofs.Number.Limit

/-!
# Tests for the order fail closed

A condition that asks for the order of two numbers needs a number on each side. `Value.amount?` and
`ValueType.amount?` say which values of a variable and which expected texts stand for a number,
under each value type.

The main theorem, `VariableCondition.fails_closed`, is about the four tests for the order. Where one
side has no number, the condition does not hold, and there is a warning; where both have one, the
numbers are compared. There are two exceptions. An integer is made a double before it is compared,
and one that is too large for a double (`Double.limit`) is a fault. A value that is read as a text
on the way is written first, and one with an integer that is too long for that is a fault, too. The
expected text does not matter then, not even if it is no number.
-/

namespace Choicebook

/-! ### Numbers that values stand for -/

/-- The number that a truth value counts as. -/
def Double.ofTruth (b : Bool) : Double := .ofInt (if b then 1 else 0)

/-- The number that a text stands for. Nothing but blanks is zero. A text that is not a number
stands for none, nor does the name of what is not a number. -/
def Text.amount? (s : String) : Option Double :=
  if trim s = "" then some (.zero false)
  else (Number.readDouble (trim s)).filter fun x => !x.isNan

/-- The number that the value of a variable stands for under a value type. An integer stands for the
double that is nearest to it. What cannot be written stands for none. -/
def Value.amount? (type : ValueType) (v : Value) : Option Double :=
  match type with
  | .boolean => some (.ofTruth v.toTruth)
  | .number => match v with
    | .null => some (.zero false)
    | .bool b => some (.ofTruth b)
    | .int n => some (.ofInt n)
    | .float x => if x.isNan then none else some x
    | v => v.written.toOption.bind Text.amount?
  | _ => v.comparedText.toOption.bind Text.amount?

/-- The number that an expected text stands for under a value type. -/
def ValueType.amount? (type : ValueType) (s : String) : Option Double :=
  match type with
  | .boolean => some (.ofTruth (Value.text (Text.trim s)).toTruth)
  | _ => Text.amount? s

namespace Double

theorem isNan_ofInt (n : Int) : (ofInt n).isNan = false := by
  rcases ofRatio_cases (decide (n < 0)) n.natAbs 1 with h | ⟨m, e, h⟩
  · rw [ofInt, h]
    rfl
  · rw [ofInt, h]
    rfl

theorem isNan_ofTruth (b : Bool) : (ofTruth b).isNan = false := isNan_ofInt _

/-- An integer within the limit is made the double that is nearest to it. -/
theorem ofInt?_of_lt_limit {n : Int} (h : n.natAbs < limit) : ofInt? n = some (ofInt n) := by
  have hfits := mt ofInt?_eq_none_iff.mp (Nat.not_le.mpr h)
  rw [ofInt?] at hfits ⊢
  split at hfits
  · next s m e heq => rw [heq]
  · exact absurd rfl hfits

end Double

theorem Text.isNan_of_amount? {s : String} {x : Double} (h : amount? s = some x) :
    x.isNan = false := by
  rw [amount?] at h
  split at h
  · cases h
    rfl
  · obtain ⟨-, hx⟩ := Option.filter_eq_some_iff.mp h
    exact Bool.not_eq_true' _ |>.mp hx

namespace Value

/-- What is not a number takes the place of a missing number. -/
theorem numberOfText_eq (s : String) : numberOfText s = (Text.amount? s).getD .nan := by
  rw [numberOfText, Text.amount?]
  by_cases hblank : Text.trim s = ""
  · rw [if_pos hblank, if_pos (String.isEmpty_iff.mpr hblank), Option.getD_some]
  · rw [if_neg hblank, if_neg (mt String.isEmpty_iff.mp hblank)]
    cases Number.readDouble (Text.trim s) with
    | none => rfl
    | some x => cases x <;> rfl

theorem isNan_of_amount? {type : ValueType} {v : Value} {x : Double}
    (h : v.amount? type = some x) : x.isNan = false := by
  cases type with
  | boolean =>
    cases h
    exact Double.isNan_ofTruth _
  | number =>
    cases v with
    | null =>
      cases h
      rfl
    | bool b =>
      cases h
      exact Double.isNan_ofTruth b
    | int n =>
      cases h
      exact Double.isNan_ofInt n
    | float y =>
      rw [amount?] at h
      split at h
      · cases h
      · next hnumber =>
        cases h
        exact Bool.eq_false_iff.mpr hnumber
    | _ =>
      simp only [amount?] at h
      obtain ⟨s, -, hs⟩ := Option.bind_eq_some_iff.mp h
      exact Text.isNan_of_amount? hs
  | text | other =>
    simp only [amount?] at h
    obtain ⟨s, -, hs⟩ := Option.bind_eq_some_iff.mp h
    exact Text.isNan_of_amount? hs

/-- A value that is brought to a type and then made a double becomes the number that it stands for.
Only an integer beyond the limit does not. -/
theorem toDouble_of_normalized {type : ValueType} {v w : Value} (hw : v.normalized type = .ok w)
    (hfits : type = .number → ∀ n, v = .int n → n.natAbs < Double.limit) :
    w.toDouble = .ok ((v.amount? type).getD .nan) := by
  cases type with
  | boolean =>
    cases hw
    rfl
  | number =>
    cases v with
    | null | bool b =>
      cases hw
      rfl
    | int n =>
      cases hw
      rw [toDouble, Double.ofInt?_of_lt_limit (hfits rfl n rfl)]
      rfl
    | float x =>
      cases hw
      cases x <;> rfl
    | _ =>
      have hwritten := written_of_isWritable (isReadable_of_normalized hw)
      obtain ⟨n, ⟨⟩, -⟩ | ⟨x, hx, rfl⟩ := eq_of_normalized_number hw
      simp only [toDouble, hwritten] at hx
      obtain rfl := Except.ok.inj hx
      simp only [amount?, hwritten, Except.toOption, Option.bind_some, toDouble, numberOfText_eq]
  | text | other =>
    obtain ⟨s, hs, rfl⟩ := eq_of_normalized_text hw
    have hread : (Value.text s).toDouble = .ok (numberOfText s) := rfl
    simp only [hread, numberOfText_eq, amount?, hs, Except.toOption, Option.bind_some]

theorem toDouble_bool (b : Bool) : (Value.bool b).toDouble = .ok (.ofTruth b) := rfl

end Value

namespace ValueType

theorem amount?_boolean (s : String) :
    boolean.amount? s = some (.ofTruth (Value.text (Text.trim s)).toTruth) := rfl

/-- An expected text becomes the number that it stands for, too. -/
theorem toDouble_expecting (type : ValueType) (s : String) :
    (type.expecting s).toDouble = .ok ((type.amount? s).getD .nan) := by
  cases type with
  | number =>
    rw [expecting, Value.numberOfText_trim, Value.numberOfText_eq]
    rfl
  | boolean => rw [expecting_boolean, Value.toDouble_bool, amount?_boolean, Option.getD_some]
  | text | other =>
    have hread : (Value.text (Text.trim s)).toDouble = .ok (Value.numberOfText (Text.trim s)) := rfl
    refine hread.trans ?_
    rw [Value.numberOfText_trim, Value.numberOfText_eq]
    rfl

theorem isNan_of_amount? {type : ValueType} {s : String} {x : Double}
    (h : type.amount? s = some x) : x.isNan = false := by
  cases type with
  | boolean =>
    rw [amount?_boolean] at h
    obtain rfl := Option.some.inj h
    exact Double.isNan_ofTruth _
  | number | text | other =>
    have hread : Text.amount? s = some x := h
    exact Text.isNan_of_amount? hread

end ValueType

namespace VariableCondition

variable {c : VariableCondition} {vars : Entries} {v : Value} {t : Test}

/-! ### Tests for the order -/

/-- The number on the side of the variable. -/
def left? (c : VariableCondition) (vars : Entries) : Option Double :=
  (c.actual? vars).bind (·.amount? c.valueType)

/-- The number on the side of the expected text. -/
def right? (c : VariableCondition) : Option Double :=
  c.expected.bind c.valueType.amount?

/-- A variable is to be compared as a number, and is an integer beyond the limit. -/
structure Overflows (c : VariableCondition) (vars : Entries) : Prop where
  typed : c.valueType = .number
  expected : c.expected ≠ none
  large : ∃ n, c.actual? vars = some (.int n) ∧ Double.limit ≤ n.natAbs

/-- A variable is to be compared, and its value cannot be brought to the type of the condition. -/
structure Overruns (c : VariableCondition) (vars : Entries) : Prop where
  expected : c.expected ≠ none
  long : ∃ v, c.actual? vars = some v ∧ v.isReadable c.valueType = false

/-- Beyond the limit, the expected text does not matter. -/
theorem Overflows.evaluate_asking (h : c.Overflows vars) (ht : t.isNumeric = true) :
    (c.asking t).evaluate vars = .error (.misuse .tooLarge) := by
  obtain ⟨n, hn, hlimit⟩ := h.large
  obtain ⟨s, hs⟩ := Option.ne_none_iff_exists'.mp h.expected
  have hw : (Value.int n).normalized c.valueType = .ok (.int n) := by
    rw [h.typed]
    rfl
  have hlarge : (Value.int n).toDouble = .error (.misuse .tooLarge) := by
    rw [Value.toDouble, Double.ofInt?_eq_none_iff.mpr hlimit]
  exact (actual?_eq_some_iff.mp hn).evaluate_numeric_of_error hs hw hlarge ht

/-- Nor does it matter if the value of the variable is too long. -/
theorem Overruns.evaluate_asking (h : c.Overruns vars) (ht : t.isNumeric = true) :
    (c.asking t).evaluate vars = .error (.misuse .badValue) := by
  obtain ⟨v, hv, hlong⟩ := h.long
  obtain ⟨s, hs⟩ := Option.ne_none_iff_exists'.mp h.expected
  rw [(actual?_eq_some_iff.mp hv).evaluate_comparing hs (.inr (.inr ht))]
  simp only [comparing, Value.normalized_of_not_isReadable hlong, bind, Except.bind]

/-- Otherwise both sides are made doubles. -/
theorem Asks.evaluate_within (h : c.Asks vars v) {s : String} (hs : c.expected = some s)
    (hfits : ¬c.Overflows vars) (hshort : ¬c.Overruns vars) (ht : t.isNumeric = true) :
    (c.asking t).evaluate vars = .ok
      (match ((v.amount? c.valueType).getD .nan).compare? ((c.valueType.amount? s).getD .nan) with
      | some o => .plain (t.accepts o)
      | none => .refused
        "Conditional command numeric comparison failed: non-numeric value encountered.") := by
  have hreadable : v.isReadable c.valueType = true := by
    by_contra hnot
    exact hshort ⟨hs ▸ Option.some_ne_none s, v, actual?_eq_some_iff.mpr h,
      Bool.eq_false_iff.mpr hnot⟩
  obtain ⟨w, hw⟩ := Value.exists_normalized hreadable
  have hx : w.toDouble = .ok ((v.amount? c.valueType).getD .nan) := by
    refine Value.toDouble_of_normalized hw fun htyped n hn => Nat.lt_of_not_le fun hlimit => ?_
    subst hn
    exact hfits ⟨htyped, hs ▸ Option.some_ne_none s, n, actual?_eq_some_iff.mpr h, hlimit⟩
  exact h.evaluate_numeric hs hw hx (c.valueType.toDouble_expecting s) ht

/-- What is not a number compares with nothing, on either side. -/
theorem compare?_getD_eq_none {x? y? : Option Double} (h : x? = none ∨ y? = none) :
    (x?.getD .nan).compare? (y?.getD .nan) = none := by
  rcases h with rfl | rfl
  · rfl
  · cases x?.getD .nan <;> rfl

/-- **Tests for the order fail closed.** Whatever the variables are, a test for the order has a
verdict, unless the variable is an integer beyond the limit or its value is too long to be written.
If one side has no number, the condition does not hold, and there is a warning; if both have one,
the verdict says how the two compare. -/
theorem fails_closed (c : VariableCondition) (vars : Entries) (ht : t.isNumeric = true) :
    (c.Overflows vars → (c.asking t).evaluate vars = .error (.misuse .tooLarge)) ∧
    (c.Overruns vars → (c.asking t).evaluate vars = .error (.misuse .badValue)) ∧
    (¬c.Overflows vars → ¬c.Overruns vars → ∃ r, (c.asking t).evaluate vars = .ok r ∧
      (c.left? vars = none ∨ c.right? = none → ∃ warning, r = .refused warning) ∧
      ∀ x y, c.left? vars = some x → c.right? = some y →
        ∃ o, x.compare? y = some o ∧ r = .plain (t.accepts o)) := by
  refine ⟨fun h => h.evaluate_asking ht, fun h => h.evaluate_asking ht, fun hfits hshort => ?_⟩
  cases hactual : c.actual? vars with
  | none =>
    obtain ⟨warning, hr⟩ := evaluate_of_actual?_eq_none (c := c.asking t) hactual
    have hleft : c.left? vars = none := by rw [left?, hactual, Option.bind_none]
    exact ⟨_, hr, fun _ => ⟨warning, rfl⟩, fun x y hx => nomatch hleft.symm.trans hx⟩
  | some v =>
    have hasks := actual?_eq_some_iff.mp hactual
    have hleft : c.left? vars = v.amount? c.valueType := by rw [left?, hactual, Option.bind_some]
    cases hs : c.expected with
    | none =>
      obtain ⟨warning, hr⟩ := hasks.evaluate_of_unexpected hs (Test.needsExpected_of_isNumeric ht)
      have hright : c.right? = none := by rw [right?, hs, Option.bind_none]
      exact ⟨_, hr, fun _ => ⟨warning, rfl⟩, fun x y _ hy => nomatch hright.symm.trans hy⟩
    | some s =>
      have hright : c.right? = c.valueType.amount? s := by rw [right?, hs, Option.bind_some]
      refine ⟨_, hasks.evaluate_within hs hfits hshort ht, fun hmissing => ?_, fun x y hx hy => ?_⟩
      · rw [hleft, hright] at hmissing
        rw [compare?_getD_eq_none hmissing]
        exact ⟨_, rfl⟩
      · rw [hleft] at hx
        rw [hright] at hy
        obtain ⟨o, ho⟩ := Double.exists_compare? (Value.isNan_of_amount? hx)
          (ValueType.isNan_of_amount? hy)
        refine ⟨o, ho, ?_⟩
        rw [hx, hy, Option.getD_some, Option.getD_some, ho]

/-- A text that is no number is not less than any, and there is a warning. -/
theorem fails_closed_text :
    let c : VariableCondition := ⟨"v", .known .less, .number, some "5"⟩
    let vars : Entries := [(.text "v", .text "many")]
    ∃ warning, c.evaluate vars = .ok (.refused warning) := by
  intro c vars
  have hactual : c.actual? vars = some (.text "many") :=
    actual?_eq_some_iff.mpr (asks_single (by decide +kernel) (by decide) _)
  have hfits : ¬c.Overflows vars := by
    rintro ⟨-, -, n, hn, -⟩
    cases hactual.symm.trans hn
  have hshort : ¬c.Overruns vars := by
    rintro ⟨-, v, hv, hlong⟩
    cases hactual.symm.trans hv
    cases hlong
  have hleft : c.left? vars = none := by
    rw [left?, hactual, Option.bind_some]
    decide +kernel
  obtain ⟨r, hr, hmissing, -⟩ := (fails_closed c vars (t := .less) rfl).2.2 hfits hshort
  obtain ⟨warning, rfl⟩ := hmissing (.inl hleft)
  exact ⟨warning, hr⟩

/-- An integer that is too large is a fault, and not a warning about the expected text. -/
theorem evaluate_too_large :
    let c : VariableCondition := ⟨"v", .known .less, .number, some "abc"⟩
    let vars : Entries := [(.text "v", .int (10 ^ 400))]
    c.evaluate vars = .error (.misuse .tooLarge) := by
  intro c vars
  have hactual : c.actual? vars = some (.int (10 ^ 400)) :=
    actual?_eq_some_iff.mpr (asks_single (by decide +kernel) (by decide) _)
  have hover : c.Overflows vars := ⟨rfl, Option.some_ne_none _, _, hactual, by decide +kernel⟩
  exact hover.evaluate_asking (t := .less) rfl

end VariableCondition

end Choicebook
