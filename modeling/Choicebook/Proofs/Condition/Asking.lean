import Choicebook.Condition.Evaluate
import Choicebook.Proofs.Value.Names

/-!
# Asking about a variable

A condition on a variable has a verdict for each test that it could ask. If the variable is there
(`VariableCondition.Asks`), the verdict is about its value alone. If the test compares with an
expected text, this text is read once (`ValueType.expecting`), and the value is compared with what
was read. For that it is brought to the value type, and this fails for a value that has to be
written as a text on the way and has a number in it that is too long (`Value.isReadable`).

The lemmas here only follow `VariableCondition.evaluate` down to the two values that meet. What
comes of it is the subject of the modules that import this one.
-/

namespace Choicebook

/-- What an expected text is read as. -/
def ValueType.expecting (type : ValueType) (s : String) : Value :=
  match type with
  | .number => .float (Value.numberOfText (Text.trim s))
  | .boolean => .bool ((Value.wordTruth? (Text.trim s)).getD (!(Text.trim s).isEmpty))
  | _ => .text (Text.trim s)

theorem Test.needsExpected_of_isNumeric {t : Test} (ht : t.isNumeric = true) :
    t.needsExpected = true := by
  cases t with
  | isTruthy | isFalsy => cases ht
  | _ => rfl

/-- The items of a value that holds several values. -/
def Value.items? : Value → Option (List Value)
  | .list items | .tuple items | .set items => some items
  | _ => none

namespace Value

/-- Whether a value can be brought to a type. It is written as a text for that, unless it is to be
a truth value or is a number already. -/
def isReadable (type : ValueType) (v : Value) : Bool :=
  match type, v with
  | .boolean, _ => true
  | .number, .int _ => true
  | _, v => v.isWritable

variable {v : Value}

theorem isReadable_text (type : ValueType) (s : String) :
    (Value.text s).isReadable type = true := by
  cases type with
  | _ => rfl

private theorem map_eq_ok_iff {α β : Type} {f : α → β} {r : Except Fault α} {y : β} :
    f <$> r = .ok y ↔ ∃ x, r = .ok x ∧ f x = y := by
  cases r with
  | error e => exact iff_of_false nofun nofun
  | ok x =>
    rw [show f <$> (Except.ok x : Except Fault α) = .ok (f x) from rfl]
    simp only [Except.ok.injEq, exists_eq_left']

theorem exists_comparedText (h : v.isWritable = true) : ∃ s, v.comparedText = .ok s := by
  cases v with
  | null | bool b => exact ⟨_, rfl⟩
  | float x =>
    rw [comparedText]
    split
    · exact ⟨_, rfl⟩
    · exact ⟨_, rfl⟩
  | _ => exact ⟨_, written_of_isWritable h⟩

theorem comparedText_of_not_isWritable (h : v.isWritable = false) :
    v.comparedText = .error (.misuse .badValue) := by
  cases v with
  | null | bool b | float x => cases h
  | _ => exact written_of_not_isWritable h

theorem exists_toDouble (h : v.isWritable = true) (hint : ∀ n, v ≠ .int n) :
    ∃ x, v.toDouble = .ok x := by
  cases v with
  | int n => exact absurd rfl (hint n)
  | null | bool b | float x => exact ⟨_, rfl⟩
  | _ => exact ⟨_, congrArg (numberOfText <$> ·) (written_of_isWritable h)⟩

/-- A value that is readable can be brought to the type. -/
theorem exists_normalized {type : ValueType} (h : v.isReadable type = true) :
    ∃ w, v.normalized type = .ok w := by
  cases type with
  | boolean => exact ⟨_, rfl⟩
  | number =>
    cases v with
    | int n | float x => exact ⟨_, rfl⟩
    | _ =>
      obtain ⟨x, hx⟩ := exists_toDouble h nofun
      exact ⟨.float x, congrArg ((fun x => Value.float x) <$> ·) hx⟩
  | text | other =>
    obtain ⟨s, hs⟩ := exists_comparedText h
    exact ⟨.text s, congrArg (Value.text <$> ·) hs⟩

/-- A value that is not readable is a fault. -/
theorem normalized_of_not_isReadable {type : ValueType} (h : v.isReadable type = false) :
    v.normalized type = .error (.misuse .badValue) := by
  cases type with
  | boolean => cases h
  | number =>
    cases v with
    | null | bool b | int n | float x => cases h
    | _ =>
      exact congrArg (fun r => (fun x => Value.float x) <$> numberOfText <$> r)
        (written_of_not_isWritable h)
  | text | other => exact congrArg (Value.text <$> ·) (comparedText_of_not_isWritable h)

/-- A value as a number is itself, if it is a number, or else a double. -/
theorem eq_of_normalized_number {w : Value} (h : v.normalized .number = .ok w) :
    (∃ n, v = .int n ∧ w = .int n) ∨ ∃ x, v.toDouble = .ok x ∧ w = .float x := by
  cases v with
  | int n =>
    cases h
    exact .inl ⟨n, rfl, rfl⟩
  | float x =>
    cases h
    exact .inr ⟨x, rfl, rfl⟩
  | _ =>
    obtain ⟨x, hx, rfl⟩ := map_eq_ok_iff.mp h
    exact .inr ⟨x, hx, rfl⟩

/-- A value that is not to be a number or a truth value becomes a text. -/
theorem eq_of_normalized_text {w : Value} (h : Value.text <$> v.comparedText = .ok w) :
    ∃ s, v.comparedText = .ok s ∧ w = .text s := by
  obtain ⟨s, hs, rfl⟩ := map_eq_ok_iff.mp h
  exact ⟨s, hs, rfl⟩

theorem isReadable_of_normalized {type : ValueType} {w : Value} (h : v.normalized type = .ok w) :
    v.isReadable type = true := by
  by_contra hnot
  cases h.symm.trans (normalized_of_not_isReadable (Bool.eq_false_iff.mpr hnot))

end Value

namespace VariableCondition

/-- The same condition with another test. -/
def asking (c : VariableCondition) (t : Test) : VariableCondition :=
  { c with operator := .known t }

/-- The condition holds with a test, and there is nothing to warn about. -/
def Passes (c : VariableCondition) (vars : Entries) (t : Test) : Prop :=
  (c.asking t).evaluate vars = .ok (.plain true)

/-- The condition holds with a test, whatever there is to warn about. -/
def Holds (c : VariableCondition) (vars : Entries) (t : Test) : Prop :=
  ∃ r, (c.asking t).evaluate vars = .ok r ∧ r.holds = true

/-- The value of the variable that the condition is about, if there is a variable of this name. -/
def actual? (c : VariableCondition) (vars : Entries) : Option Value :=
  if Text.trim c.subject = "" then none else vars.field? (Text.trim c.subject)

/-- The variable that the condition is about is there and has the value `v`. -/
structure Asks (c : VariableCondition) (vars : Entries) (v : Value) : Prop where
  named : Text.trim c.subject ≠ ""
  stored : vars.field? (Text.trim c.subject) = some v

variable {c : VariableCondition} {vars : Entries} {v : Value} {s : String} {t : Test}

theorem actual?_eq_some_iff : c.actual? vars = some v ↔ c.Asks vars v := by
  rw [actual?]
  split
  · next hblank => exact iff_of_false nofun fun h => h.named hblank
  · next hnamed => exact ⟨fun h => ⟨hnamed, h⟩, fun h => h.stored⟩

/-- If there is only one variable, a condition with its name asks about it. -/
theorem asks_single {name : String} (hname : Text.trim c.subject = name) (hne : name ≠ "")
    (v : Value) : c.Asks [(.text name, v)] v where
  named := hname.symm ▸ hne
  stored := by
    rw [hname]
    exact (Entries.field?_insert [] name v name).trans (if_pos rfl)

/-! ### The parts of a verdict -/

/-- A verdict without a warning holds if it says so. -/
theorem holds_iff_of_plain {b : Bool} (h : (c.asking t).evaluate vars = .ok (.plain b)) :
    c.Holds vars t ↔ b = true := by
  constructor
  · rintro ⟨r, hr, hholds⟩
    obtain rfl : Verdict.plain b = r := Except.ok.inj (h.symm.trans hr)
    exact hholds
  · intro hb
    exact ⟨_, h, hb⟩

theorem passes_iff_of_plain {b : Bool} (h : (c.asking t).evaluate vars = .ok (.plain b)) :
    c.Passes vars t ↔ b = true := by
  rw [Passes, h, Except.ok.injEq, Verdict.plain, Verdict.plain, Verdict.mk.injEq, eq_self_iff_true,
    and_true]

theorem expectedValue?_asking (c : VariableCondition) (ht : t.needsExpected = true) :
    (c.asking t).expectedValue? = .ok (c.expected.map c.valueType.expecting) := by
  have hneeded : (c.asking t).operator.needsExpected = .ok true := congrArg Except.ok ht
  rw [expectedValue?, hneeded]
  rfl

theorem expectedValue?_of_expected (hs : c.expected = some s) (ht : t.needsExpected = true) :
    (c.asking t).expectedValue? = .ok (some (c.valueType.expecting s)) := by
  rw [expectedValue?_asking c ht, hs, Option.map_some]

/-- The verdict on a variable that is there is the verdict on its value. -/
theorem Asks.evaluate_asking (h : c.Asks vars v) (t : Test) :
    (c.asking t).evaluate vars = (c.asking t).testing t v := by
  have hnamed : (Text.trim (c.asking t).subject).isEmpty = false := by
    rw [← Bool.not_eq_true, String.isEmpty_iff]
    exact h.named
  have hstored : vars.field? (Text.trim (c.asking t).subject) = some v := h.stored
  have hoperator : (c.asking t).operator = .known t := rfl
  simp only [evaluate, hnamed, hstored, hoperator, Bool.false_eq_true, if_false]

/-- Without the variable, the condition does not hold. -/
theorem evaluate_of_actual?_eq_none (h : c.actual? vars = none) :
    ∃ warning, c.evaluate vars = .ok (.refused warning) := by
  rw [actual?] at h
  rw [evaluate]
  split at h
  · next hblank =>
    rw [hblank]
    exact ⟨_, rfl⟩
  · next hnamed =>
    rw [if_neg (mt String.isEmpty_iff.mp hnamed), h]
    exact ⟨_, rfl⟩

/-- Without an expected text, nor does a condition that wants one. -/
theorem Asks.evaluate_of_unexpected (h : c.Asks vars v) (hs : c.expected = none)
    (ht : t.needsExpected = true) :
    ∃ warning, (c.asking t).evaluate vars = .ok (.refused warning) := by
  have hexpected : (c.asking t).expectedValue? = .ok none := by
    rw [expectedValue?_asking c ht, hs, Option.map_none]
  rw [h.evaluate_asking]
  cases t with
  | isTruthy | isFalsy => cases ht
  | _ =>
    simp only [testing, hexpected, bind, Except.bind]
    exact ⟨_, rfl⟩

theorem Asks.evaluate_contains (h : c.Asks vars v) (hs : c.expected = some s) :
    (c.asking .contains).evaluate vars = c.containing v (c.valueType.expecting s) := by
  rw [h.evaluate_asking]
  simp only [testing, expectedValue?_of_expected hs (t := .contains) rfl, bind, Except.bind]
  rfl

theorem Asks.evaluate_notContains (h : c.Asks vars v) (hs : c.expected = some s) :
    (c.asking .notContains).evaluate vars =
      (c.containing v (c.valueType.expecting s)).map fun r => { r with holds := !r.holds } := by
  rw [h.evaluate_asking]
  simp only [testing, expectedValue?_of_expected hs (t := .notContains) rfl, bind, Except.bind]
  rfl

/-- All tests but these two compare the value with the expected one. -/
theorem Asks.evaluate_comparing (h : c.Asks vars v) (hs : c.expected = some s)
    (ht : t = .equals ∨ t = .notEquals ∨ t.isNumeric = true) :
    (c.asking t).evaluate vars = c.comparing t v (c.valueType.expecting s) := by
  have hexpected : t.needsExpected = true →
      (c.asking t).expectedValue? = .ok (some (c.valueType.expecting s)) :=
    expectedValue?_of_expected hs
  rw [h.evaluate_asking]
  cases t with
  | contains | notContains | isTruthy | isFalsy => simp [Test.isNumeric] at ht
  | _ =>
    simp only [testing, hexpected rfl, bind, Except.bind]
    rfl

/-! ### Values that are compared -/

variable {w : Value} {x y : Double}

/-- If there is a verdict, the value has been brought to the type. -/
theorem Asks.exists_normalized_of_comparing (h : c.Asks vars v) (hs : c.expected = some s)
    (ht : t = .equals ∨ t = .notEquals ∨ t.isNumeric = true) {r : Verdict}
    (hr : (c.asking t).evaluate vars = .ok r) : ∃ w, v.normalized c.valueType = .ok w := by
  rw [h.evaluate_comparing hs ht] at hr
  cases hw : v.normalized c.valueType with
  | error f =>
    simp only [comparing, hw, bind, Except.bind] at hr
    cases hr
  | ok w => exact ⟨w, rfl⟩

/-- The test for equality tells truth values and numbers apart. -/
theorem Asks.evaluate_equals (h : c.Asks vars v) (hs : c.expected = some s)
    (hw : v.normalized c.valueType = .ok w) :
    (c.asking .equals).evaluate vars =
      .ok (.plain (w.strictlySame (c.valueType.expecting s))) := by
  rw [h.evaluate_comparing hs (.inl rfl)]
  simp only [comparing, hw, bind, Except.bind]

theorem Asks.evaluate_notEquals (h : c.Asks vars v) (hs : c.expected = some s)
    (hw : v.normalized c.valueType = .ok w) :
    (c.asking .notEquals).evaluate vars =
      .ok (.plain (!w.strictlySame (c.valueType.expecting s))) := by
  rw [h.evaluate_comparing hs (.inr (.inl rfl))]
  simp only [comparing, hw, bind, Except.bind]

/-- The tests for the order compare doubles, if they compare. -/
theorem Asks.evaluate_numeric (h : c.Asks vars v) (hs : c.expected = some s)
    (hw : v.normalized c.valueType = .ok w) (hx : w.toDouble = .ok x)
    (hy : (c.valueType.expecting s).toDouble = .ok y) (ht : t.isNumeric = true) :
    (c.asking t).evaluate vars = .ok (match x.compare? y with
      | some o => .plain (t.accepts o)
      | none => .refused
        "Conditional command numeric comparison failed: non-numeric value encountered.") := by
  rw [h.evaluate_comparing hs (.inr (.inr ht))]
  cases t with
  | less | lessOrEqual | greater | greaterOrEqual =>
    simp only [comparing, hw, hx, hy, bind, Except.bind]
    cases x.compare? y with
    | none => rfl
    | some o => rfl
  | _ => cases ht

theorem Asks.evaluate_numeric_of_error (h : c.Asks vars v) (hs : c.expected = some s)
    (hw : v.normalized c.valueType = .ok w) {e : Fault} (hx : w.toDouble = .error e)
    (ht : t.isNumeric = true) : (c.asking t).evaluate vars = .error e := by
  rw [h.evaluate_comparing hs (.inr (.inr ht))]
  cases t with
  | less | lessOrEqual | greater | greaterOrEqual =>
    simp only [comparing, hw, hx, bind, Except.bind]
  | _ => cases ht

/-! ### Items -/

/-- Among the items, `x` is the first one that is the expected value, and the items before it are
readable. -/
structure Hits (type : ValueType) (e : Value) (items : List Value) (x : Value) : Prop where
  splits : ∃ before after, items = before ++ x :: after ∧
    ∀ y ∈ before, ∃ w, y.normalized type = .ok w ∧ w.same e = false
  same : ∃ w, x.normalized type = .ok w ∧ w.same e = true

theorem Hits.cons {type : ValueType} {e x y w : Value} {items : List Value}
    (hw : y.normalized type = .ok w) (hne : w.same e = false) (h : Hits type e items x) :
    Hits type e (y :: items) x := by
  obtain ⟨before, after, rfl, hbefore⟩ := h.splits
  exact ⟨⟨y :: before, after, rfl, List.forall_mem_cons.mpr ⟨⟨w, hw, hne⟩, hbefore⟩⟩, h.same⟩

/-- The search for an item ends at the first one that is the expected value. It comes to its end
without such an item if all of them are readable and none is the expected value. -/
theorem anyItem_iff (type : ValueType) (e : Value) (items : List Value) :
    (anyItem type e items = .ok true ↔ ∃ x, Hits type e items x) ∧
    (anyItem type e items = .ok false ↔
      ∀ x ∈ items, ∃ w, x.normalized type = .ok w ∧ w.same e = false) := by
  induction items with
  | nil =>
    refine ⟨iff_of_false nofun ?_, iff_of_true rfl (List.forall_mem_nil _)⟩
    rintro ⟨x, ⟨before, after, hsplit, -⟩, -⟩
    cases before <;> cases hsplit
  | cons y items ih =>
    cases hy : y.normalized type with
    | error f =>
      -- the first item ends the search, and neither side can hold
      have hfails : anyItem type e (y :: items) = .error f := by
        simp only [anyItem, hy, bind, Except.bind]
      rw [hfails]
      refine ⟨iff_of_false nofun ?_, iff_of_false nofun fun h => ?_⟩
      · rintro ⟨x, ⟨before, after, hsplit, hbefore⟩, w, hw, -⟩
        cases before with
        | nil =>
          cases hsplit
          cases hy.symm.trans hw
        | cons z before =>
          cases hsplit
          obtain ⟨w, hw, -⟩ := hbefore y List.mem_cons_self
          cases hy.symm.trans hw
      · obtain ⟨w, hw, -⟩ := h y List.mem_cons_self
        cases hy.symm.trans hw
    | ok w =>
      have hstep : anyItem type e (y :: items) =
          if w.same e then .ok true else anyItem type e items := by
        simp only [anyItem, hy, bind, Except.bind]
      rw [hstep]
      cases hsame : w.same e with
      | true =>
        refine ⟨iff_of_true rfl ⟨y, ⟨[], items, rfl, List.forall_mem_nil _⟩, w, hy, hsame⟩,
          iff_of_false nofun fun h => ?_⟩
        obtain ⟨w', hw', hne⟩ := h y List.mem_cons_self
        obtain rfl := Except.ok.inj (hy.symm.trans hw')
        cases hsame.symm.trans hne
      | false =>
        -- a hit in the rest is one here, since the first item is passed over
        rw [if_neg Bool.false_ne_true, ih.1, ih.2, List.forall_mem_cons]
        refine ⟨⟨fun ⟨x, hx⟩ => ⟨x, hx.cons hy hsame⟩, ?_⟩, (and_iff_right ⟨w, hy, hsame⟩).symm⟩
        rintro ⟨x, ⟨before, after, hsplit, hbefore⟩, hx⟩
        cases before with
        | nil =>
          cases hsplit
          obtain ⟨w', hw', hsame'⟩ := hx
          obtain rfl := Except.ok.inj (hy.symm.trans hw')
          cases hsame.symm.trans hsame'
        | cons z before =>
          cases hsplit
          exact ⟨x, ⟨before, after, rfl, fun z hz => hbefore z (List.mem_cons_of_mem _ hz)⟩, hx⟩

/-- There is a first hit if something readable is the expected value and stands behind nothing but
readable items. -/
theorem exists_hits_iff {type : ValueType} {e : Value} {items : List Value} :
    (∃ x, Hits type e items x) ↔ ∃ before x after, items = before ++ x :: after ∧
      (∀ y ∈ before, y.isReadable type = true) ∧
      ∃ w, x.normalized type = .ok w ∧ w.same e = true := by
  constructor
  · rintro ⟨x, ⟨before, after, hsplit, hbefore⟩, hsame⟩
    refine ⟨before, x, after, hsplit, fun y hy => ?_, hsame⟩
    obtain ⟨w, hw, -⟩ := hbefore y hy
    exact Value.isReadable_of_normalized hw
  · rintro ⟨before, x, after, rfl, hreadable, hsame⟩
    induction before with
    | nil => exact ⟨x, ⟨[], after, rfl, List.forall_mem_nil _⟩, hsame⟩
    | cons y before ih =>
      obtain ⟨w, hw⟩ := Value.exists_normalized (hreadable y List.mem_cons_self)
      cases heq : w.same e with
      | true => exact ⟨y, ⟨[], before ++ x :: after, rfl, List.forall_mem_nil _⟩, w, hw, heq⟩
      | false =>
        obtain ⟨z, hz⟩ := ih fun y hy => hreadable y (List.mem_cons_of_mem _ hy)
        exact ⟨z, hz.cons hw heq⟩

/-- Several values are searched item by item, unless nothing is expected. -/
theorem containing_of_items (c : VariableCondition) {items : List Value}
    (hv : v.items? = some items) {e : Value} (he : e ≠ .text "") :
    c.containing v e = Verdict.plain <$> anyItem c.valueType e items := by
  cases v with
  | list _ | tuple _ | set _ =>
    cases hv
    rw [containing]
    exact he
  | _ => cases hv

end VariableCondition

end Choicebook
