import Choicebook.Script.Export
import Mathlib.Data.List.Basic

/-!
# Numerals

A text of digits is not always a number. There are digits without place value, and a number may not
have too many of them. What is left is a numeral (`Text.IsNumeral`): at least one decimal digit, of
whatever script, nothing else, and not too much of it.

`Value.position?` asks two questions about a name, whether it is all digits and which number it is.
The main statements say where the two agree: a numeral is the position that it writes, a name that
is not all digits is no position, and a name that is all digits without being a numeral is a fault
(`Value.position?_of_isMisleading`).
-/

namespace Choicebook

namespace Text

/-- A number written in decimal digits, without a sign or anything around it. -/
structure IsNumeral (s : String) : Prop where
  nonempty : s ≠ ""
  decimal : ∀ c ∈ s.toList, (digitValue c).isSome = true
  short : s.length ≤ Number.digitLimit

instance (s : String) : Decidable (IsNumeral s) :=
  decidable_of_iff
    (s ≠ "" ∧ (s.toList.all fun c => (digitValue c).isSome) = true ∧ s.length ≤ Number.digitLimit)
    ⟨fun ⟨hne, hall, hshort⟩ => ⟨hne, List.all_eq_true.mp hall, hshort⟩,
      fun h => ⟨h.nonempty, List.all_eq_true.mpr h.decimal, h.short⟩⟩

/-- The number that a numeral writes. -/
def numeralValue (s : String) : Nat := Number.ofDigits (s.toList.filterMap digitValue)

/-- All characters are digits, and yet the text is not a number. -/
def IsMisleading (s : String) : Prop := allDigits s = true ∧ ¬IsNumeral s

theorem allDigits_iff {s : String} :
    allDigits s = true ↔ s ≠ "" ∧ ∀ c ∈ s.toList, isDigitLike c = true := by
  rw [allDigits, Bool.and_eq_true, Bool.not_eq_true', List.isEmpty_eq_false_iff, List.all_eq_true,
    Ne, String.toList_eq_nil_iff]

theorem isDigitLike_of_decimal {c : Char} (h : (digitValue c).isSome = true) :
    isDigitLike c = true := by
  rw [isDigitLike, h, Bool.true_or]

theorem IsNumeral.allDigits {s : String} (h : IsNumeral s) : allDigits s = true :=
  allDigits_iff.mpr ⟨h.nonempty, fun c hc => isDigitLike_of_decimal (h.decimal c hc)⟩

/-- A text is a numeral, or it is misleading, or it is not all digits. -/
theorem isNumeral_or_isMisleading (s : String) :
    IsNumeral s ∨ IsMisleading s ∨ Text.allDigits s = false := by
  by_cases hnumeral : IsNumeral s
  · exact .inl hnumeral
  · cases hall : Text.allDigits s with
    | true => exact .inr (.inl ⟨hall, hnumeral⟩)
    | false => exact .inr (.inr rfl)

/-! ### Numbers that are written -/

theorem digitValue_of_isDigit {c : Char} (h : c.isDigit = true) :
    digitValue c = some (c.toNat - 48) := by
  have hbounds : 48 ≤ c.toNat ∧ c.toNat ≤ 57 := by
    simpa [Char.isDigit, UInt32.le_iff_toNat_le] using h
  have hascii : c.toNat < 128 := by omega
  rw [digitValue, if_pos hascii, if_pos hbounds]

private theorem isDigit_of_mem_toString {n : Nat} {c : Char} (h : c ∈ (toString n).toList) :
    c.isDigit = true := by
  rw [Nat.toString_eq_ofList_toDigits, String.toList_ofList] at h
  exact Nat.isDigit_of_mem_toDigits (by decide) (by decide) h

/-- A number in decimal is a numeral, unless it is too long. -/
theorem isNumeral_toString {n : Nat} (h : (toString n).length ≤ Number.digitLimit) :
    IsNumeral (toString n) where
  nonempty := by
    rw [Nat.toString_eq_ofList_toDigits, Ne, ← String.toList_eq_nil_iff, String.toList_ofList]
    exact Nat.toDigits_ne_nil
  decimal := fun c hc => by
    rw [digitValue_of_isDigit (isDigit_of_mem_toString hc)]
    rfl
  short := h

/-- A number in decimal is the numeral of that number. -/
theorem numeralValue_toString (n : Nat) : numeralValue (toString n) = n := by
  have hvalues : (toString n).toList.filterMap digitValue =
      (toString n).toList.map (·.toNat - 48) := by
    rw [← List.filterMap_eq_map]
    exact List.filterMap_congr fun c hc => digitValue_of_isDigit (isDigit_of_mem_toString hc)
  rw [numeralValue, hvalues, Nat.toString_eq_ofList_toDigits, String.toList_ofList, Number.ofDigits,
    List.foldl_map]
  exact Nat.ofDigitChars_toDigits (by decide) (by decide)

/-! ### What is not among the digits -/

/-- The ranges that all digits are in. -/
private def digitRanges : List (Nat × Nat) :=
  (48, 57) :: zeroDigits.map (fun z => (z, z + 9)) ++ otherDigits

/-- The ranges that all blanks are in. -/
private def blankRanges : List (Nat × Nat) :=
  [(9, 13), (28, 32), (0x85, 0x85), (0xA0, 0xA0), (0x1680, 0x1680), (0x2000, 0x200A),
   (0x2028, 0x2029), (0x202F, 0x202F), (0x205F, 0x205F), (0x3000, 0x3000)]

private theorem exists_digitRange {c : Char} (h : isDigitLike c = true) :
    ∃ r ∈ digitRanges, r.1 ≤ c.toNat ∧ c.toNat ≤ r.2 := by
  rw [isDigitLike, Bool.or_eq_true] at h
  rcases h with h | h
  · rw [digitValue] at h
    split at h
    · split at h
      · next hbounds => exact ⟨(48, 57), List.mem_cons_self, hbounds⟩
      · cases h
    · rw [Option.isSome_map, List.find?_isSome] at h
      obtain ⟨z, hz, hbounds⟩ := h
      simp only [Bool.and_eq_true, decide_eq_true_eq] at hbounds
      exact ⟨(z, z + 9), List.mem_append_left _ (List.mem_cons_of_mem _ (List.mem_map_of_mem hz)),
        hbounds⟩
  · obtain ⟨r, hr, hbounds⟩ := List.any_eq_true.mp h
    simp only [Bool.and_eq_true, decide_eq_true_eq] at hbounds
    exact ⟨r, List.mem_append_right _ hr, hbounds⟩

private theorem exists_blankRange {c : Char} (h : isBlank c = true) :
    ∃ r ∈ blankRanges, r.1 ≤ c.toNat ∧ c.toNat ≤ r.2 := by
  simp only [isBlank, Bool.or_eq_true, Bool.and_eq_true, decide_eq_true_eq, beq_iff_eq] at h
  simp only [blankRanges, List.mem_cons, List.not_mem_nil, or_false, exists_eq_or_imp,
    exists_eq_left]
  omega

private theorem ranges_disjoint :
    ∀ r ∈ digitRanges, ∀ b ∈ blankRanges, r.2 < b.1 ∨ b.2 < r.1 := by
  decide

/-- No digit is a blank. -/
theorem isBlank_of_isDigitLike {c : Char} (h : isDigitLike c = true) : isBlank c = false := by
  by_contra hblank
  obtain ⟨r, hr, hlow, hhigh⟩ := exists_digitRange h
  obtain ⟨b, hb, hfrom, hto⟩ := exists_blankRange (Bool.not_eq_false _ ▸ hblank)
  have hapart := ranges_disjoint r hr b hb
  omega

end Text

/-! ### Reading digits -/

namespace Number

open Text (digitValue isDigitLike allDigits IsNumeral IsMisleading numeralValue)

/-- There is nothing around digits to be taken away. -/
theorem unpadded_of_allDigits {s : String} (h : allDigits s = true) : unpadded s = s.toList := by
  have hpadding : ∀ cs : List Char, (∀ c ∈ cs, isDigitLike c = true) →
      cs.dropWhile isPadding = cs := by
    intro cs hcs
    cases cs with
    | nil => rfl
    | cons c cs =>
      have hc : isPadding c = false := by
        rw [isPadding, Text.isBlank_of_isDigitLike (hcs c List.mem_cons_self), Bool.false_and]
      rw [List.dropWhile_cons_of_neg (by rw [hc]; exact Bool.false_ne_true)]
  have hall := (Text.allDigits_iff.mp h).2
  rw [unpadded, hpadding _ hall, hpadding _ fun c hc => hall c (List.mem_reverse.mp hc),
    List.reverse_reverse]

theorem readSign_of_allDigits {s : String} (h : allDigits s = true) :
    readSign s.toList = (false, s.toList) := by
  have hall := (Text.allDigits_iff.mp h).2
  rw [readSign.eq_def]
  split
  · next heq => exact absurd (hall '-' (heq ▸ List.mem_cons_self)) (by decide)
  · next heq => exact absurd (hall '+' (heq ▸ List.mem_cons_self)) (by decide)
  · rfl

/-- Digits with a place value are read to the end. -/
theorem readDigits_of_decimal {cs : List Char} (hne : cs ≠ [])
    (h : ∀ c ∈ cs, (digitValue c).isSome = true) :
    readDigits cs = some (cs.filterMap digitValue, []) := by
  induction cs with
  | nil => exact absurd rfl hne
  | cons c cs ih =>
    obtain ⟨hc, hcs⟩ := List.forall_mem_cons.mp h
    obtain ⟨v, hv⟩ := Option.isSome_iff_exists.mp hc
    cases cs with
    | nil => simp [readDigits, hv]
    | cons d rest =>
      have hd : d ≠ '_' := by
        rintro rfl
        exact absurd (hcs _ List.mem_cons_self) (by decide)
      rw [readDigits, hv, ih (List.cons_ne_nil _ _) hcs, List.filterMap_cons_some hv]
      simp only [if_neg hd]

/-- Where no underscores could stand between them, characters that are read to the end are digits
with a place value. -/
theorem decimal_of_readDigits {cs : List Char} {ds : List Nat} (h : readDigits cs = some (ds, []))
    (hunderscore : '_' ∉ cs) : ∀ c ∈ cs, (digitValue c).isSome = true := by
  induction cs generalizing ds with
  | nil => exact List.forall_mem_nil _
  | cons c cs ih =>
    have hcs : '_' ∉ cs := fun hc => hunderscore (List.mem_cons_of_mem _ hc)
    cases cs with
    | nil =>
      obtain ⟨v, hv, -⟩ := Option.map_eq_some_iff.mp h
      exact List.forall_mem_singleton.mpr (hv ▸ rfl)
    | cons d rest =>
      have hd : d ≠ '_' := fun hd => hcs (hd ▸ List.mem_cons_self)
      rw [readDigits] at h
      simp only [if_neg hd] at h
      cases hv : digitValue c with
      | none => simp [hv] at h
      | some v =>
        cases hrest : readDigits (d :: rest) with
        | none => simp [hv, hrest] at h
        | some p =>
          obtain ⟨es, tail⟩ := p
          simp only [hv, hrest, Option.some.injEq, Prod.mk.injEq] at h
          obtain rfl := h.2
          exact List.forall_mem_cons.mpr ⟨hv ▸ rfl, ih hrest hcs⟩

/-- Each digit with a place value gives one number. -/
private theorem length_values {s : String} (h : ∀ c ∈ s.toList, (digitValue c).isSome = true) :
    (s.toList.filterMap digitValue).length = s.length := by
  rw [List.filterMap_length_eq_length.mpr h, String.length_toList]

/-- A numeral is read as the number that it writes. -/
theorem readInt_of_isNumeral {s : String} (h : IsNumeral s) :
    readInt s = some (numeralValue s : Int) := by
  have hread := readDigits_of_decimal (mt String.toList_eq_nil_iff.mp h.nonempty) h.decimal
  have hshort : (s.toList.filterMap digitValue).length ≤ digitLimit := by
    rw [length_values h.decimal]
    exact h.short
  rw [readInt, unpadded_of_allDigits h.allDigits, readSign_of_allDigits h.allDigits]
  simp only [hread, if_pos hshort]
  rfl

/-- What looks like a number and is none is not read as one. -/
theorem readInt_of_isMisleading {s : String} (h : IsMisleading s) : readInt s = none := by
  obtain ⟨hdigits, hnumeral⟩ := h
  obtain ⟨hne, hall⟩ := Text.allDigits_iff.mp hdigits
  have hunderscore : '_' ∉ s.toList := fun hc => absurd (hall _ hc) (by decide)
  rw [readInt, unpadded_of_allDigits hdigits, readSign_of_allDigits hdigits]
  dsimp only
  split
  · next ds hread =>
    have hdecimal := decimal_of_readDigits hread hunderscore
    rw [readDigits_of_decimal (mt String.toList_eq_nil_iff.mp hne) hdecimal] at hread
    obtain rfl := congrArg Prod.fst (Option.some.inj hread)
    exact if_neg fun hshort => hnumeral ⟨hne, hdecimal, length_values hdecimal ▸ hshort⟩
  · rfl

end Number

/-! ### Positions -/

namespace Value

open Text (IsNumeral IsMisleading numeralValue)

/-- A numeral is the position that it writes. -/
theorem position?_of_isNumeral {key : String} (h : IsNumeral key) :
    position? key = .ok (some (numeralValue key)) := by
  rw [position?, if_pos h.allDigits, Number.readInt_of_isNumeral h]
  rfl

/-- What looks like a number and is none is a fault. -/
theorem position?_of_isMisleading {key : String} (h : IsMisleading key) :
    position? key = .error (.misuse .badValue) := by
  rw [position?, if_pos h.1, Number.readInt_of_isMisleading h]

/-- Anything else is not a position. -/
theorem position?_of_not_allDigits {key : String} (h : Text.allDigits key = false) :
    position? key = .ok none := by
  rw [position?, h]
  rfl

end Value

end Choicebook
