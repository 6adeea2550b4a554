import Choicebook.Proofs.Condition.Asking

/-!
# Membership

A variable can hold several values at once, as a list, a tuple or a set, and a condition can ask
whether one of them is the expected value. By the main theorem,
`VariableCondition.contains_iff_equals`, this is the same as asking about each of the values alone:
the variable contains the expected value if it would be equal to it with some item in its place, and
it does not contain the expected value if with every item it would not be equal.

The items are searched from the first one on, and one that cannot be brought to the type of the
condition is a fault. So an item counts only behind readable ones (`contains_behind_long`).

The two tests compare in different ways. The search for an item takes truth values for the numbers
0 and 1; the test for equality does not. What makes them agree is that the items and the expected
text have been brought to one type before (`Value.strictlySame_of_normalized`).
-/

namespace Choicebook

namespace Value

private theorem strictlySame_bool (a b : Bool) :
    (Value.bool a).strictlySame (.bool b) = (Value.bool a).same (.bool b) := by
  rw [same_of_number (v := .bool a) rfl]
  cases a <;> cases b <;> decide

/-- Within one type, truth values do not meet numbers, so the two equalities are one. -/
theorem strictlySame_of_normalized {type : ValueType} {v w : Value}
    (hw : v.normalized type = .ok w) (s : String) :
    w.strictlySame (type.expecting s) = w.same (type.expecting s) := by
  cases type with
  | boolean =>
    cases hw
    exact strictlySame_bool _ _
  | number =>
    obtain ⟨n, -, rfl⟩ | ⟨x, -, rfl⟩ := eq_of_normalized_number hw
    · rfl
    · rfl
  | text | other =>
    obtain ⟨t, -, rfl⟩ := eq_of_normalized_text hw
    rfl

end Value

theorem ValueType.expecting_ne_empty (type : ValueType) {s : String} (hs : Text.trim s ≠ "") :
    type.expecting s ≠ .text "" := by
  cases type with
  | number | boolean => exact Value.noConfusion
  | text | other => exact fun h => hs (Value.text.inj h)

namespace VariableCondition

variable {c : VariableCondition} {vars : Entries} {v x : Value} {items : List Value} {s : String}

/-- The same variables, with `x` as the value of the one that the condition is about. -/
def holding (c : VariableCondition) (vars : Entries) (x : Value) : Entries :=
  vars.insert (.text (Text.trim c.subject)) x

theorem Asks.asks_holding (h : c.Asks vars v) (x : Value) : c.Asks (c.holding vars x) x :=
  ⟨h.named, (Entries.field?_insert vars _ x _).trans (if_pos rfl)⟩

/-! ### Equality of one value -/

theorem Asks.evaluate_of_normalized_error (h : c.Asks vars x) (hs : c.expected = some s) {f : Fault}
    (hf : x.normalized c.valueType = .error f) {t : Test} (ht : t = .equals ∨ t = .notEquals) :
    (c.asking t).evaluate vars = .error f := by
  rw [h.evaluate_comparing hs (ht.imp_right .inl)]
  simp only [comparing, hf, bind, Except.bind]

theorem not_holds_of_error {t : Test} {f : Fault} (h : (c.asking t).evaluate vars = .error f) :
    ¬c.Holds vars t := by
  rintro ⟨r, hr, -⟩
  cases h.symm.trans hr

theorem Asks.holds_equals_iff (h : c.Asks vars x) (hs : c.expected = some s) :
    c.Holds vars .equals ↔
      ∃ w, x.normalized c.valueType = .ok w ∧ w.same (c.valueType.expecting s) = true := by
  cases hw : x.normalized c.valueType with
  | error f =>
    exact iff_of_false (not_holds_of_error (h.evaluate_of_normalized_error hs hw (.inl rfl)))
      fun ⟨w, hok, _⟩ => nomatch hok
  | ok w =>
    rw [holds_iff_of_plain (h.evaluate_equals hs hw), Value.strictlySame_of_normalized hw]
    simp only [Except.ok.injEq, exists_eq_left']

theorem Asks.holds_notEquals_iff (h : c.Asks vars x) (hs : c.expected = some s) :
    c.Holds vars .notEquals ↔
      ∃ w, x.normalized c.valueType = .ok w ∧ w.same (c.valueType.expecting s) = false := by
  cases hw : x.normalized c.valueType with
  | error f =>
    exact iff_of_false (not_holds_of_error (h.evaluate_of_normalized_error hs hw (.inr rfl)))
      fun ⟨w, hok, _⟩ => nomatch hok
  | ok w =>
    rw [holds_iff_of_plain (h.evaluate_notEquals hs hw), Value.strictlySame_of_normalized hw,
      Bool.not_eq_true']
    simp only [Except.ok.injEq, exists_eq_left']

/-! ### Membership -/

/-- A search that ends with an answer gives a verdict without a warning. -/
theorem Asks.holds_contains_iff (h : c.Asks vars v) (hv : v.items? = some items)
    (hs : c.expected = some s) (hfilled : Text.trim s ≠ "") :
    (c.Holds vars .contains ↔ anyItem c.valueType (c.valueType.expecting s) items = .ok true) ∧
    (c.Holds vars .notContains ↔
      anyItem c.valueType (c.valueType.expecting s) items = .ok false) := by
  have hsearch := c.containing_of_items hv (c.valueType.expecting_ne_empty hfilled)
  have hcontains := h.evaluate_contains hs
  have hnotContains := h.evaluate_notContains hs
  rw [hsearch] at hcontains hnotContains
  cases hany : anyItem c.valueType (c.valueType.expecting s) items with
  | error f =>
    rw [hany] at hcontains hnotContains
    exact ⟨iff_of_false (not_holds_of_error hcontains) nofun,
      iff_of_false (not_holds_of_error hnotContains) nofun⟩
  | ok b =>
    rw [hany] at hcontains hnotContains
    rw [holds_iff_of_plain hcontains, holds_iff_of_plain (b := !b) hnotContains,
      Bool.not_eq_true', Except.ok.injEq, Except.ok.injEq]
    exact ⟨Iff.rfl, Iff.rfl⟩

/-- **Membership and equality.** A variable with several values contains the expected value exactly
if, for some item behind nothing but readable items, it would be equal to the expected value with
this item as its value. If all items are readable, this is so for some item at all. The variable
does not contain the expected value exactly if with every item as its value it would not be
equal. -/
theorem contains_iff_equals (h : c.Asks vars v) (hv : v.items? = some items)
    (hs : c.expected = some s) (hfilled : Text.trim s ≠ "") :
    (c.Holds vars .contains ↔ ∃ before x after, items = before ++ x :: after ∧
      (∀ y ∈ before, y.isReadable c.valueType = true) ∧ c.Holds (c.holding vars x) .equals) ∧
    ((∀ x ∈ items, x.isReadable c.valueType = true) →
      (c.Holds vars .contains ↔ ∃ x ∈ items, c.Holds (c.holding vars x) .equals)) ∧
    (c.Holds vars .notContains ↔ ∀ x ∈ items, c.Holds (c.holding vars x) .notEquals) := by
  obtain ⟨hcontains, hnotContains⟩ := h.holds_contains_iff hv hs hfilled
  have hequals : ∀ x, c.Holds (c.holding vars x) .equals ↔
      ∃ w, x.normalized c.valueType = .ok w ∧ w.same (c.valueType.expecting s) = true :=
    fun x => (h.asks_holding x).holds_equals_iff hs
  have hfirst : c.Holds vars .contains ↔ ∃ before x after, items = before ++ x :: after ∧
      (∀ y ∈ before, y.isReadable c.valueType = true) ∧ c.Holds (c.holding vars x) .equals := by
    simp only [hcontains, (anyItem_iff _ _ _).1, exists_hits_iff, hequals]
  refine ⟨hfirst, fun hreadable => hfirst.trans ⟨?_, ?_⟩, ?_⟩
  · rintro ⟨before, x, after, rfl, -, hholds⟩
    exact ⟨x, by simp, hholds⟩
  · rintro ⟨x, hx, hholds⟩
    obtain ⟨before, after, rfl⟩ := List.append_of_mem hx
    exact ⟨before, x, after, rfl, fun y hy => hreadable y (List.mem_append_left _ hy), hholds⟩
  · rw [hnotContains, (anyItem_iff _ _ _).2]
    exact forall₂_congr fun x _ => ((h.asks_holding x).holds_notEquals_iff hs).symm

/-- A tuple contains a text because one of its items is this text. -/
theorem contains_iff_equals_tuple :
    let c : VariableCondition := ⟨"tags", .known .contains, .text, some " b"⟩
    let vars : Entries := [(.text "tags", .tuple [.null, .int 7, .text "b"])]
    c.Holds vars .contains ∧ ¬c.Holds vars .notContains := by
  intro c vars
  have hasks : c.Asks vars (.tuple [.null, .int 7, .text "b"]) :=
    asks_single (by decide +kernel) (by decide) _
  obtain ⟨-, hagree, hnot⟩ := contains_iff_equals hasks rfl rfl (by decide +kernel)
  have hread : c.valueType.expecting " b" = .text "b" := congrArg Value.text (by decide +kernel)
  have hitem : ∃ w, (Value.text "b").normalized c.valueType = .ok w ∧
      w.same (c.valueType.expecting " b") = true :=
    ⟨.text "b", rfl, hread ▸ Value.same_text_iff.mpr rfl⟩
  refine ⟨(hagree (by decide +kernel)).mpr
    ⟨.text "b", by simp, ((hasks.asks_holding _).holds_equals_iff rfl).mpr hitem⟩, fun hnone => ?_⟩
  obtain ⟨w, hw, hne⟩ :=
    ((hasks.asks_holding _).holds_notEquals_iff rfl).mp (hnot.mp hnone (.text "b") (by simp))
  obtain ⟨w', hw', hsame⟩ := hitem
  obtain rfl := Except.ok.inj (hw.symm.trans hw')
  cases hne.symm.trans hsame

/-- An integer that is too long to be written keeps the search from the text behind it. -/
theorem contains_behind_long :
    let c : VariableCondition := ⟨"v", .known .contains, .text, some "5"⟩
    let vars : Entries := [(.text "v", .list [.int (10 ^ 4300), .text "5"])]
    ¬c.Holds vars .contains ∧ c.Holds (c.holding vars (.text "5")) .equals := by
  intro c vars
  have hasks : c.Asks vars (.list [.int (10 ^ 4300), .text "5"]) :=
    asks_single (by decide +kernel) (by decide) _
  have hread : c.valueType.expecting "5" = .text "5" := congrArg Value.text (by decide +kernel)
  refine ⟨?_, ((hasks.asks_holding _).holds_equals_iff rfl).mpr
    ⟨.text "5", rfl, hread ▸ Value.same_text_iff.mpr rfl⟩⟩
  have hlong : (Value.int (10 ^ 4300)).isReadable c.valueType = false := by decide +kernel
  have hfails : anyItem c.valueType (c.valueType.expecting "5")
      [.int (10 ^ 4300), .text "5"] = .error (.misuse .badValue) := by
    simp only [anyItem, Value.normalized_of_not_isReadable hlong, bind, Except.bind]
  rw [(hasks.holds_contains_iff rfl rfl (by decide +kernel)).1, hfails]
  rintro ⟨⟩

end VariableCondition

end Choicebook
