import Choicebook.Proofs.Condition.Asking
import Choicebook.Proofs.Number.Rounding
import Choicebook.Proofs.Value.Names

/-!
# Conditions that compare numbers

A condition of the type number can ask of a variable whether it is less than the expected number,
equal to it, or greater, and whether it is at most or at least this number. The variable is an
integer or a text.

The tests for less and greater make a double of the variable. The test for equality does not: it
compares an integer as it is. The main theorem, `VariableCondition.passes_ordered`, says what the
five tests have to do with each other. They agree, except for an integer that is not the expected
number but is rounded to it (`Value.Blurs`); such an integer has more than 53 bits.
-/

namespace Choicebook

namespace Value

/-- An integer that is not the number `y`, although it is rounded to it. -/
def Blurs (v : Value) (y : Double) : Prop :=
  ∃ n, v = .int n ∧ (Double.ofInt n).numEq y = true ∧ y.eqInt n = false

/-- What is blurred has more than 53 bits. -/
theorem Blurs.lt_natAbs {v : Value} {y : Double} (hb : v.Blurs y) :
    ∃ n, v = .int n ∧ 2 ^ 53 < n.natAbs := by
  obtain ⟨n, rfl, heq, hne⟩ := hb
  refine ⟨n, rfl, Nat.lt_of_not_le fun hshort => ?_⟩
  obtain ⟨w, hw, hy⟩ := Double.numEq_iff.mp heq
  cases (Double.worth?_ofInt_of_natAbs_le hshort).symm.trans hw
  rw [Double.eqInt_iff.mpr hy] at hne
  cases hne

theorem strictlySame_int_float (n : Int) (y : Double) :
    (Value.int n).strictlySame (.float y) = y.eqInt n :=
  same_of_number (x := .int n) rfl

theorem strictlySame_float (x y : Double) :
    (Value.float x).strictlySame (.float y) = x.numEq y :=
  same_of_number (x := .float x) rfl

/-- An integer is made the double that it is rounded to. -/
theorem ofInt_of_toDouble {n : Int} {x : Double} (h : (Value.int n).toDouble = .ok x) :
    Double.ofInt n = x := by
  rw [toDouble, Double.ofInt?] at h
  split at h
  · next hx =>
    split at hx
    · next hfinite =>
      cases hx
      cases h
      exact hfinite
    · cases hx
  · cases h

end Value

/-- Two numbers compare. -/
theorem Double.exists_compare? {x y : Double} (hx : x.isNan = false) (hy : y.isNan = false) :
    ∃ o, x.compare? y = some o := by
  cases x with
  | nan => cases hx
  | infinite s =>
    cases y with
    | nan => cases hy
    | infinite t => exact ⟨_, rfl⟩
    | finite t n f => exact ⟨_, rfl⟩
  | finite s m e =>
    cases y with
    | nan => cases hy
    | infinite t => exact ⟨_, rfl⟩
    | finite t n f => exact ⟨_, rfl⟩

namespace VariableCondition

/-- A condition compares a variable, which is an integer or a text, as a number with an expected
number. Neither of the two is not a number, and the integer is not too large. -/
structure Compares (c : VariableCondition) (vars : Entries) (v : Value) (x y : Double) : Prop where
  named : Text.trim c.subject ≠ ""
  stored : vars.field? (Text.trim c.subject) = some v
  plain : (∃ n, v = .int n) ∨ ∃ s, v = .text s
  typed : c.valueType = .number
  expected : ∃ s, c.expected = some s ∧ y = Value.numberOfText (Text.trim s)
  number : v.toDouble = .ok x
  left : x.isNan = false
  right : y.isNan = false

variable {c : VariableCondition} {vars : Entries} {v : Value} {x y : Double}

/-! ### The verdicts -/

theorem Compares.asks (h : c.Compares vars v x y) : c.Asks vars v := ⟨h.named, h.stored⟩

theorem Compares.exists_expecting (h : c.Compares vars v x y) :
    ∃ s, c.expected = some s ∧ c.valueType.expecting s = .float y := by
  obtain ⟨s, hs, hy⟩ := h.expected
  exact ⟨s, hs, by rw [h.typed, hy]; rfl⟩

/-- The value of the variable as a number: an integer stays what it is, and a text is read. -/
theorem Compares.normalized (h : c.Compares vars v x y) :
    ∃ w, v.normalized .number = .ok w ∧ w.toDouble = .ok x ∧
      ((∃ n, v = .int n ∧ w = .int n) ∨ (∃ s, v = .text s) ∧ w = .float x) := by
  have hnumber := h.number
  obtain ⟨n, rfl⟩ | ⟨s, rfl⟩ := h.plain
  · exact ⟨.int n, rfl, hnumber, .inl ⟨n, rfl, rfl⟩⟩
  · refine ⟨.float x, ?_, rfl, .inr ⟨⟨s, rfl⟩, rfl⟩⟩
    have hread : (Value.text s).normalized .number =
        (fun x => .float x) <$> (Value.text s).toDouble := rfl
    rw [hread, hnumber]
    rfl

/-- The test for equality compares the value of the variable as it is, unless it is a text. -/
theorem Compares.evaluate_equals (h : c.Compares vars v x y) {w : Value}
    (hw : v.normalized .number = .ok w) :
    (c.asking .equals).evaluate vars = .ok (.plain (w.strictlySame (.float y))) := by
  obtain ⟨s, hs, hy⟩ := h.exists_expecting
  rw [← h.typed] at hw
  rw [h.asks.evaluate_equals hs hw, hy]

/-- The tests for the order compare the doubles. -/
theorem Compares.evaluate_numeric (h : c.Compares vars v x y) {o : Ordering}
    (ho : x.compare? y = some o) {t : Test} (ht : t.isNumeric = true) :
    (c.asking t).evaluate vars = .ok (.plain (t.accepts o)) := by
  obtain ⟨w, hw, hx, -⟩ := h.normalized
  obtain ⟨s, hs, hy⟩ := h.exists_expecting
  have hdouble : (c.valueType.expecting s).toDouble = .ok y := by rw [hy]; rfl
  rw [← h.typed] at hw
  rw [h.asks.evaluate_numeric hs hw hx hdouble ht, ho]

/-! ### Equality and the order -/

theorem Compares.isCanonical (h : c.Compares vars v x y) : y.IsCanonical := by
  obtain ⟨s, -, hy⟩ := h.expected
  rw [hy]
  exact Value.isCanonical_numberOfText (Text.trim s)

/-- The variable is equal to the expected number if the doubles are, unless it is blurred. -/
theorem Compares.passes_equals_iff (h : c.Compares vars v x y) :
    c.Passes vars .equals ↔ x.compare? y = some .eq ∧ ¬v.Blurs y := by
  obtain ⟨w, hw, hx, hvalue⟩ := h.normalized
  rw [passes_iff_of_plain (h.evaluate_equals hw)]
  obtain ⟨n, rfl, rfl⟩ | ⟨⟨s, rfl⟩, rfl⟩ := hvalue
  · obtain rfl : Double.ofInt n = x := Value.ofInt_of_toDouble hx
    rw [Value.strictlySame_int_float]
    constructor
    · intro heq
      -- the integer is a double, so it is not rounded
      have hworth := Double.worth?_ofInt_of_eqInt h.isCanonical heq
      refine ⟨of_decide_eq_true (Double.numEq_iff.mpr ⟨_, hworth, Double.eqInt_iff.mp heq⟩), ?_⟩
      rintro ⟨m, hm, -, hne⟩
      cases hm
      rw [heq] at hne
      cases hne
    · rintro ⟨heq, hblurs⟩
      by_contra hne
      exact hblurs ⟨n, rfl, decide_eq_true heq, Bool.eq_false_iff.mpr hne⟩
  · rw [Value.strictlySame_float, Double.numEq, decide_eq_true_iff]
    refine (and_iff_left ?_).symm
    rintro ⟨n, ⟨⟩, -⟩

/-- The variable passes a test for the order if the comparison of the doubles does. -/
theorem Compares.passes_iff (h : c.Compares vars v x y) {o : Ordering}
    (ho : x.compare? y = some o) {t : Test} (ht : t.isNumeric = true) :
    c.Passes vars t ↔ t.accepts o = true :=
  passes_iff_of_plain (h.evaluate_numeric ho ht)

/-- What is blurred is rounded to the expected number. -/
theorem Compares.eq_of_blurs (h : c.Compares vars v x y) (hb : v.Blurs y) :
    x.compare? y = some .eq := by
  obtain ⟨n, rfl, heq, -⟩ := hb
  obtain rfl : Double.ofInt n = x := Value.ofInt_of_toDouble h.number
  exact of_decide_eq_true heq

/-- **The order of number conditions.** Each of the five tests has a verdict. No two of the tests
for less, for equality and for greater hold. The variable is at most the expected number exactly if
it is not greater, and at least this number exactly if it is not less. One of the first three tests
holds, and the other two are less or equal and greater or equal, as long as the variable is not an
integer that is blurred; and for such an integer, none of this is so. It has more than 53 bits. -/
theorem passes_ordered (h : c.Compares vars v x y) :
    (∀ t ∈ [Test.less, .equals, .greater, .lessOrEqual, .greaterOrEqual],
      ∃ b, (c.asking t).evaluate vars = .ok (.plain b)) ∧
    (c.Passes vars .less → ¬c.Passes vars .equals ∧ ¬c.Passes vars .greater) ∧
    (c.Passes vars .equals → ¬c.Passes vars .greater) ∧
    (c.Passes vars .lessOrEqual ↔ ¬c.Passes vars .greater) ∧
    (c.Passes vars .greaterOrEqual ↔ ¬c.Passes vars .less) ∧
    (c.Passes vars .less ∨ c.Passes vars .equals ∨ c.Passes vars .greater ↔ ¬v.Blurs y) ∧
    ((c.Passes vars .lessOrEqual ↔ c.Passes vars .less ∨ c.Passes vars .equals) ↔ ¬v.Blurs y) ∧
    ((c.Passes vars .greaterOrEqual ↔ c.Passes vars .greater ∨ c.Passes vars .equals) ↔
      ¬v.Blurs y) ∧
    (v.Blurs y → ∃ n, v = .int n ∧ 2 ^ 53 < n.natAbs) := by
  obtain ⟨o, ho⟩ := Double.exists_compare? h.left h.right
  have hverdicts : ∀ t ∈ [Test.less, .equals, .greater, .lessOrEqual, .greaterOrEqual],
      ∃ b, (c.asking t).evaluate vars = .ok (.plain b) := by
    intro t ht
    cases t with
    | equals =>
      obtain ⟨w, hw, -⟩ := h.normalized
      exact ⟨_, h.evaluate_equals hw⟩
    | less | lessOrEqual | greater | greaterOrEqual =>
      exact ⟨_, h.evaluate_numeric ho (by rfl)⟩
    | _ => simp at ht
  refine ⟨hverdicts, ?_⟩
  rw [h.passes_equals_iff, h.passes_iff ho (t := .less) rfl, h.passes_iff ho (t := .greater) rfl,
    h.passes_iff ho (t := .lessOrEqual) rfl, h.passes_iff ho (t := .greaterOrEqual) rfl, ho]
  -- only what is rounded to the expected number can be blurred
  have hclear : o ≠ .eq → ¬v.Blurs y := fun hne hb =>
    hne (Option.some.inj (ho.symm.trans (h.eq_of_blurs hb)))
  cases o with
  | lt => simp [Test.accepts, hclear]
  | gt => simp [Test.accepts, hclear]
  | eq =>
    simpa [Test.accepts] using Value.Blurs.lt_natAbs (v := v) (y := y)

/-- An integer that is short enough is less, equal or greater. -/
theorem passes_ordered_three :
    let c : VariableCondition := ⟨"n", .known .less, .number, some " 2.5 "⟩
    let vars : Entries := [(.text "n", .int 3)]
    (c.Passes vars .less ∨ c.Passes vars .equals ∨ c.Passes vars .greater) ∧
      (c.Passes vars .lessOrEqual ↔ c.Passes vars .less ∨ c.Passes vars .equals) ∧
      (c.Passes vars .greaterOrEqual ↔ c.Passes vars .greater ∨ c.Passes vars .equals) := by
  intro c vars
  have hx : Double.ofInt? 3 = some (.finite false 6755399441055744 (-51)) := by decide +kernel
  have hy : .finite false 5629499534213120 (-51) = Value.numberOfText (Text.trim " 2.5 ") := by
    decide +kernel
  have hcompares : c.Compares vars (.int 3) (.finite false 6755399441055744 (-51))
      (.finite false 5629499534213120 (-51)) := {
    named := by decide +kernel
    stored := (Entries.field?_insert [] "n" _ _).trans (if_pos (by decide +kernel))
    plain := .inl ⟨3, rfl⟩
    typed := rfl
    expected := ⟨_, rfl, hy⟩
    number := by rw [Value.toDouble, hx]
    left := rfl
    right := rfl }
  obtain ⟨-, -, -, -, -, hone, hatMost, hatLeast, hlong⟩ := passes_ordered hcompares
  have hclear : ¬(Value.int 3).Blurs (.finite false 5629499534213120 (-51)) := by
    intro hb
    obtain ⟨n, hn, hbits⟩ := hlong hb
    cases hn
    exact absurd hbits (by decide)
  exact ⟨hone.mpr hclear, hatMost.mpr hclear, hatLeast.mpr hclear⟩

/-- An integer that is rounded to the expected number is at most and at least this number, and still
it is not less, not equal and not greater. -/
theorem passes_blurred :
    let c : VariableCondition := ⟨"n", .known .equals, .number, some "9007199254740992"⟩
    let vars : Entries := [(.text "n", .int 9007199254740993)]
    ¬c.Passes vars .less ∧ ¬c.Passes vars .equals ∧ ¬c.Passes vars .greater ∧
      c.Passes vars .lessOrEqual ∧ c.Passes vars .greaterOrEqual := by
  intro c vars
  let y : Double := .finite false 4503599627370496 1
  have hx : Double.ofInt? 9007199254740993 = some y := by decide +kernel
  have hy : y = Value.numberOfText (Text.trim "9007199254740992") := by decide +kernel
  have hcompares : c.Compares vars (.int 9007199254740993) y y := {
    named := by decide +kernel
    stored := (Entries.field?_insert [] "n" _ _).trans (if_pos (by decide +kernel))
    plain := .inl ⟨_, rfl⟩
    typed := rfl
    expected := ⟨_, rfl, hy⟩
    number := by rw [Value.toDouble, hx]
    left := rfl
    right := rfl }
  have heq : y.compare? y = some .eq := by decide
  have hblurs : (Value.int 9007199254740993).Blurs y :=
    ⟨_, rfl, by decide +kernel, by decide +kernel⟩
  rw [hcompares.passes_equals_iff, hcompares.passes_iff heq (t := .less) rfl,
    hcompares.passes_iff heq (t := .greater) rfl, hcompares.passes_iff heq (t := .lessOrEqual) rfl,
    hcompares.passes_iff heq (t := .greaterOrEqual) rfl]
  exact ⟨by decide, fun h => h.2 hblurs, by decide, by decide, by decide⟩

end VariableCondition

end Choicebook
