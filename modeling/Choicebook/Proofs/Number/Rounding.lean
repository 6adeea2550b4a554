import Choicebook.Condition.Evaluate
import Choicebook.Proofs.Value.Sameness
import Mathlib.Tactic.FieldSimp
import Mathlib.Tactic.Linarith
import Mathlib.Tactic.Positivity

/-!
# Rounding to doubles

`Double.ofRatio` is arithmetic on natural numbers. Here it is put in terms of the rational number
that is rounded: `Double.binaryLog` is the place of its first binary digit, and the mantissa is the
number divided by a power of two, rounded to an integer.

Two things follow. A double that comes from rounding is in canonical form
(`Double.isCanonical_ofRatio`). A number that is a mantissa of at most 53 bits times a power of two
in the range of the exponents is not changed (`Double.worth?_ofRatio`); so an integer that some
double is keeps its value as a double (`Double.worth?_ofInt_of_eqInt`), and so does every integer up
to `2 ^ 53`.
-/

namespace Choicebook

namespace Double

/-! ### Powers of two -/

theorem scale_pos (k : Int) : 0 < scale 2 k := Nat.pow_pos (by decide)

/-- A quotient of two naturals is compared with a multiple of a power of two without leaving the
naturals. -/
theorem cast_mul_scale (num : Nat) {den : Nat} (hden : 0 < den) (e : Int) :
    ((num * scale 2 (-e) : Nat) : ℚ) = num / den / 2 ^ e * ((den * scale 2 e : Nat) : ℚ) := by
  have hscale := scale_mul_zpow e 0
  rw [sub_zero, zero_sub, zpow_zero, mul_one] at hscale
  have hden' : (den : ℚ) ≠ 0 := Nat.cast_ne_zero.mpr hden.ne'
  have hpow : (2 : ℚ) ^ e ≠ 0 := zpow_ne_zero e two_ne_zero
  push_cast
  rw [hscale]
  field_simp

/-- `a * 2 ^ e ≤ num / den`, in naturals. -/
theorem mul_zpow_le_iff {num den : Nat} (hden : 0 < den) (a : Nat) (e : Int) :
    (a : ℚ) * 2 ^ e ≤ num / den ↔ a * (den * scale 2 e) ≤ num * scale 2 (-e) := by
  have hunit : (0 : ℚ) < ((den * scale 2 e : Nat) : ℚ) :=
    Nat.cast_pos.mpr (Nat.mul_pos hden (scale_pos e))
  have hpow : (0 : ℚ) < 2 ^ e := zpow_pos two_pos e
  rw [← Nat.cast_le (α := ℚ), cast_mul_scale num hden, Nat.cast_mul a,
    mul_le_mul_iff_left₀ hunit, le_div_iff₀ hpow]

theorem powerLe_iff {num den : Nat} (hden : 0 < den) (k : Int) :
    powerLe num den k = true ↔ (2 : ℚ) ^ k ≤ num / den := by
  have h : ((1 : Nat) : ℚ) * 2 ^ k ≤ num / den ↔ 1 * (den * scale 2 k) ≤ num * scale 2 (-k) :=
    mul_zpow_le_iff hden 1 k
  rw [Nat.cast_one, one_mul, one_mul] at h
  rw [powerLe, decide_eq_true_iff, h]

/-! ### The first binary digit -/

/-- The quotient is at least the power of two that its logarithm says, and less than the next. -/
theorem binaryLog_spec {num den : Nat} (hnum : 0 < num) (hden : 0 < den) :
    (2 : ℚ) ^ binaryLog num den ≤ num / den ∧ (num / den : ℚ) < 2 ^ (binaryLog num den + 1) := by
  have htwo : (2 : ℚ) ≠ 0 := two_ne_zero
  have hden' : (0 : ℚ) < den := Nat.cast_pos.mpr hden
  have hlow : (2 : ℚ) ^ ((num.log2 : Int) - den.log2 - 1) ≤ num / den := by
    have hn : (2 : ℚ) ^ num.log2 ≤ num := by exact_mod_cast Nat.log2_self_le hnum.ne'
    have hd : (den : ℚ) ≤ 2 ^ (den.log2 + 1) := by exact_mod_cast Nat.lt_log2_self.le
    have hsplit : ((num.log2 : Int) - den.log2 - 1) = num.log2 - ((den.log2 + 1 : Nat) : Int) := by
      omega
    rw [hsplit, zpow_sub₀ htwo, zpow_natCast, zpow_natCast]
    exact div_le_div₀ (Nat.cast_nonneg _) hn hden' hd
  have hhigh : (num / den : ℚ) < 2 ^ ((num.log2 : Int) - den.log2 + 1) := by
    have hn : (num : ℚ) < 2 ^ (num.log2 + 1) := by exact_mod_cast Nat.lt_log2_self
    have hd : (2 : ℚ) ^ den.log2 ≤ den := by exact_mod_cast Nat.log2_self_le hden.ne'
    have hsplit : ((num.log2 : Int) - den.log2 + 1) = ((num.log2 + 1 : Nat) : Int) - den.log2 := by
      omega
    rw [hsplit, zpow_sub₀ htwo, zpow_natCast, zpow_natCast]
    exact div_lt_div₀ hn hd (by positivity) (by positivity)
  rw [binaryLog]
  split
  · next h => exact ⟨(powerLe_iff hden _).mp h, hhigh⟩
  · next h =>
    refine ⟨hlow, ?_⟩
    rw [sub_add_cancel]
    exact lt_of_not_ge (mt (powerLe_iff hden _).mpr h)

/-! ### Rounding to an integer -/

theorem roundDiv_mul (a : Nat) {den : Nat} (hden : 0 < den) : roundDiv (a * den) den = a := by
  rw [roundDiv, Nat.mul_div_cancel a hden, Nat.mul_mod_left]
  exact if_pos hden

theorem le_roundDiv {a num den : Nat} (hden : 0 < den) (h : a * den ≤ num) :
    a ≤ roundDiv num den := by
  have hquotient : a ≤ num / den := (Nat.le_div_iff_mul_le hden).mpr h
  rw [roundDiv]
  repeat' split
  all_goals omega

theorem roundDiv_le {a num den : Nat} (hden : 0 < den) (h : num < a * den) :
    roundDiv num den ≤ a := by
  have hquotient : num / den < a := (Nat.div_lt_iff_lt_mul hden).mpr h
  rw [roundDiv]
  repeat' split
  all_goals omega

section

variable {num den a : Nat} {e : Int}

/-- A multiple of the unit is not rounded. -/
theorem scaledRound_eq (hden : 0 < den) (h : (num / den : ℚ) = a * 2 ^ e) :
    scaledRound num den e = a := by
  have hunit := Nat.mul_pos hden (scale_pos e)
  have hpow : (2 : ℚ) ^ e ≠ 0 := zpow_ne_zero e two_ne_zero
  have hexact : num * scale 2 (-e) = a * (den * scale 2 e) := by
    have hcast := cast_mul_scale num hden e
    rw [h, mul_div_cancel_right₀ _ hpow] at hcast
    exact_mod_cast hcast
  rw [scaledRound, hexact, roundDiv_mul a hunit]

theorem le_scaledRound (hden : 0 < den) (h : (a : ℚ) * 2 ^ e ≤ num / den) :
    a ≤ scaledRound num den e :=
  le_roundDiv (Nat.mul_pos hden (scale_pos e)) ((mul_zpow_le_iff hden a e).mp h)

theorem scaledRound_le (hden : 0 < den) (h : (num / den : ℚ) < a * 2 ^ e) :
    scaledRound num den e ≤ a :=
  roundDiv_le (Nat.mul_pos hden (scale_pos e))
    (Nat.lt_of_not_le (mt (mul_zpow_le_iff hden a e).mpr (not_le_of_gt h)))

end

/-! ### Canonical form -/

/-- The mantissa and the exponent of a finite double. -/
structure Canonical (m : Nat) (e : Int) : Prop where
  mantissa_lt : m < 2 ^ 53
  least : minExponent ≤ e
  greatest : e ≤ maxExponent
  normal : 2 ^ 52 ≤ m ∨ e = minExponent

/-- A double that is in canonical form, if it is finite. -/
inductive IsCanonical : Double → Prop where
  | finite {s : Bool} {m : Nat} {e : Int} (h : Canonical m e) : IsCanonical (.finite s m e)
  | infinite {s : Bool} : IsCanonical (.infinite s)
  | nan : IsCanonical .nan

theorem isCanonical_zero (s : Bool) : (zero s).IsCanonical :=
  .finite ⟨by decide, by decide, by decide, .inr rfl⟩

/-- The exponent that a quotient is rounded with. -/
def roundingExponent (num den : Nat) : Int := max (binaryLog num den - 52) minExponent

theorem ofRatio_of_pos (s : Bool) {num den : Nat} (hnum : 0 < num) :
    ofRatio s num den =
      if scaledRound num den (roundingExponent num den) = 2 ^ 53 then
        if maxExponent < roundingExponent num den + 1 then .infinite s
        else .finite s (2 ^ 52) (roundingExponent num den + 1)
      else
        if maxExponent < roundingExponent num den then .infinite s
        else .finite s (scaledRound num den (roundingExponent num den))
          (roundingExponent num den) := by
  have hfull : scale 2 53 = 2 ^ 53 := rfl
  have hhalf : scale 2 52 = 2 ^ 52 := rfl
  simp only [ofRatio, if_neg hnum.ne', hfull, hhalf, roundingExponent]
  by_cases hcarry : scaledRound num den (max (binaryLog num den - 52) minExponent) = 2 ^ 53
  · simp only [if_pos hcarry]
    exact (if_pos hcarry).symm
  · simp only [if_neg hcarry]
    exact (if_neg hcarry).symm

/-- The quotient has at most 53 binary digits in front of the last one that is kept. -/
theorem lt_roundingExponent {num den : Nat} (hnum : 0 < num) (hden : 0 < den) :
    (num / den : ℚ) < (2 ^ 53 : Nat) * 2 ^ roundingExponent num den := by
  have hexponent : binaryLog num den + 1 ≤ 53 + roundingExponent num den := by
    have := le_max_left (binaryLog num den - 52) minExponent
    rw [roundingExponent]
    omega
  refine (binaryLog_spec hnum hden).2.trans_le ?_
  rw [Nat.cast_pow, Nat.cast_ofNat, ← zpow_natCast, ← zpow_add₀ two_ne_zero]
  exact zpow_le_zpow_right₀ one_le_two hexponent

/-- What comes from rounding is in canonical form. -/
theorem isCanonical_ofRatio (s : Bool) (num : Nat) {den : Nat} (hden : 0 < den) :
    (ofRatio s num den).IsCanonical := by
  rcases Nat.eq_zero_or_pos num with rfl | hnum
  · exact isCanonical_zero s
  have hleast : minExponent ≤ roundingExponent num den := le_max_right _ _
  have hmost := scaledRound_le hden (lt_roundingExponent hnum hden)
  rw [ofRatio_of_pos s hnum]
  split
  · split
    · exact .infinite
    · next hbound =>
      exact .finite ⟨by decide, by omega, Int.not_lt.mp hbound, .inl le_rfl⟩
  · next hcarry =>
    split
    · exact .infinite
    · next hbound =>
      refine .finite ⟨lt_of_le_of_ne hmost hcarry, hleast, Int.not_lt.mp hbound, ?_⟩
      rcases max_choice (binaryLog num den - 52) minExponent with hlog | hleast
      · refine .inl (le_scaledRound hden ?_)
        rw [roundingExponent, hlog, Nat.cast_pow, Nat.cast_ofNat, ← zpow_natCast,
          ← zpow_add₀ two_ne_zero]
        have hsum : ((52 : Nat) : Int) + (binaryLog num den - 52) = binaryLog num den := by omega
        rw [hsum]
        exact (binaryLog_spec hnum hden).1
      · exact .inr hleast

theorem worth?_finite (s : Bool) (m : Nat) (e : Int) :
    (Double.finite s m e).worth? = some (.inl (if s then -((m : ℚ) * 2 ^ e) else m * 2 ^ e)) := by
  cases s with
  | true => simp [worth?, signed]
  | false => simp [worth?, signed]

/-- A mantissa of at most 53 bits reaches down to the exponent that a number is rounded with. -/
private theorem roundingExponent_le {num den m : Nat} {e : Int} (hnum : 0 < num) (hden : 0 < den)
    (hm : m < 2 ^ 53) (hleast : minExponent ≤ e) (h : (num / den : ℚ) = m * 2 ^ e) :
    roundingExponent num den ≤ e := by
  refine max_le ?_ hleast
  have hbelow : (2 : ℚ) ^ binaryLog num den < 2 ^ (53 + e) := by
    calc (2 : ℚ) ^ binaryLog num den ≤ num / den := (binaryLog_spec hnum hden).1
      _ = m * 2 ^ e := h
      _ < (2 ^ 53 : Nat) * 2 ^ e := by
        have hm' : (m : ℚ) < (2 ^ 53 : Nat) := Nat.cast_lt.mpr hm
        have hpow : (0 : ℚ) < 2 ^ e := zpow_pos two_pos e
        exact mul_lt_mul_of_pos_right hm' hpow
      _ = 2 ^ (53 + e) := by
        rw [Nat.cast_pow, Nat.cast_ofNat, ← zpow_natCast, ← zpow_add₀ two_ne_zero]
        rfl
  have hexponents := (zpow_lt_zpow_iff_right₀ one_lt_two).mp hbelow
  omega

/-- **Numbers that are not changed by rounding.** A quotient that is a mantissa of at most 53 bits
times a power of two in the range of the exponents is the double that it is rounded to. -/
theorem worth?_ofRatio (s : Bool) {num den m : Nat} {e : Int} (hden : 0 < den) (hm : m < 2 ^ 53)
    (hleast : minExponent ≤ e) (hgreatest : e ≤ maxExponent) (h : (num / den : ℚ) = m * 2 ^ e) :
    (ofRatio s num den).worth? =
      some (.inl (if s then -(num / den : ℚ) else num / den)) := by
  rcases Nat.eq_zero_or_pos num with rfl | hnum
  · have hzero : ofRatio s 0 den = .finite s 0 minExponent := if_pos rfl
    rw [hzero, worth?_finite, Nat.cast_zero, zero_mul, zero_div]
  have hexponent := roundingExponent_le hnum hden hm hleast h
  -- the mantissa over the exponent that is used
  obtain ⟨k, hk⟩ : ∃ k : Nat, e = roundingExponent num den + k :=
    ⟨(e - roundingExponent num den).toNat, by omega⟩
  have hvalue : (num / den : ℚ) = (m * 2 ^ k : Nat) * 2 ^ roundingExponent num den := by
    rw [h, hk, zpow_add₀ two_ne_zero, zpow_natCast]
    push_cast
    ring
  have hround := scaledRound_eq hden hvalue
  have hsmall : m * 2 ^ k < 2 ^ 53 := by
    have hlt := lt_roundingExponent hnum hden
    rw [hvalue] at hlt
    have hpow : (0 : ℚ) < 2 ^ roundingExponent num den := zpow_pos two_pos _
    exact Nat.cast_lt.mp (lt_of_mul_lt_mul_right hlt hpow.le)
  rw [ofRatio_of_pos s hnum, hround, if_neg hsmall.ne, if_neg (by omega), worth?_finite, hvalue]

/-! ### Integers as doubles -/

/-- An integer that is a mantissa of at most 53 bits times a power of two keeps its value. -/
theorem worth?_ofInt {n : Int} {m : Nat} {e : Int} (hm : m < 2 ^ 53) (hleast : minExponent ≤ e)
    (hgreatest : e ≤ maxExponent) (h : (n.natAbs : ℚ) = m * 2 ^ e) :
    (ofInt n).worth? = some (.inl (n : ℚ)) := by
  have hone : ((n.natAbs : ℚ) / (1 : Nat)) = m * 2 ^ e := by rw [Nat.cast_one, div_one, h]
  rw [ofInt, worth?_ofRatio _ Nat.one_pos hm hleast hgreatest hone, Nat.cast_one, div_one]
  have hsigned : (if decide (n < 0) = true then -(n.natAbs : ℚ) else n.natAbs) = n := by
    rw [Nat.cast_natAbs, Int.cast_abs]
    split
    · next hneg =>
      have hneg' : (n : ℚ) < 0 := Int.cast_lt_zero.mpr (of_decide_eq_true hneg)
      rw [abs_of_neg hneg', neg_neg]
    · next hpos =>
      have hpos' : (0 : ℚ) ≤ n := by exact_mod_cast Int.not_lt.mp (mt decide_eq_true hpos)
      exact abs_of_nonneg hpos'
  rw [hsigned]

/-- An integer that is the value of a double keeps its value. -/
theorem worth?_ofInt_of_eqInt {y : Double} (hy : y.IsCanonical) {n : Int} (h : y.eqInt n = true) :
    (ofInt n).worth? = some (.inl (n : ℚ)) := by
  have hworth := eqInt_iff.mp h
  cases y with
  | nan => cases hworth
  | infinite s => cases hworth
  | finite s m e =>
    obtain ⟨hy⟩ := hy
    have hpow : (0 : ℚ) < 2 ^ e := zpow_pos two_pos e
    have hnonneg : (0 : ℚ) ≤ m * 2 ^ e := mul_nonneg (Nat.cast_nonneg m) hpow.le
    refine worth?_ofInt hy.mantissa_lt hy.least hy.greatest ?_
    rw [worth?_finite, Option.some.injEq, Sum.inl.injEq] at hworth
    rw [Nat.cast_natAbs, Int.cast_abs, ← hworth]
    cases s with
    | true => rw [if_pos rfl, abs_neg, abs_of_nonneg hnonneg]
    | false => rw [if_neg Bool.false_ne_true, abs_of_nonneg hnonneg]

/-- Up to `2 ^ 53`, every integer keeps its value. -/
theorem worth?_ofInt_of_natAbs_le {n : Int} (h : n.natAbs ≤ 2 ^ 53) :
    (ofInt n).worth? = some (.inl (n : ℚ)) := by
  rcases Nat.lt_or_eq_of_le h with hlt | heq
  · exact worth?_ofInt (m := n.natAbs) (e := 0) hlt (by decide) (by decide)
      (by rw [zpow_zero, mul_one])
  · refine worth?_ofInt (m := 2 ^ 52) (e := 1) (by decide) (by decide) (by decide) ?_
    rw [heq]
    norm_num

/-! ### Doubles that are read -/

theorem isCanonical_ofDecimal (s : Bool) (digits : Nat) (exponent : Int) :
    (ofDecimal s digits exponent).IsCanonical := by
  rw [ofDecimal]
  split
  · exact isCanonical_zero s
  · dsimp only
    split
    · exact .infinite
    · split
      · exact isCanonical_zero s
      · exact isCanonical_ofRatio s _ (Nat.pow_pos (by decide))

end Double

open Double (IsCanonical)

theorem Number.isCanonical_readUnsigned {negative : Bool} {cs : List Char} {x : Double}
    (h : readUnsigned negative cs = some x) : x.IsCanonical := by
  rw [readUnsigned] at h
  dsimp only at h
  -- with or without digits behind a point
  split at h
  all_goals
    split at h
    · cases h
    · obtain ⟨exponent, -, rfl⟩ := Option.map_eq_some_iff.mp h
      exact Double.isCanonical_ofDecimal _ _ _

theorem Number.isCanonical_readDouble {s : String} {x : Double} (h : readDouble s = some x) :
    x.IsCanonical := by
  rw [readDouble] at h
  dsimp only at h
  split at h
  · cases h
    exact .infinite
  · split at h
    · cases h
      exact .nan
    · exact isCanonical_readUnsigned h

/-- The number of a text is in canonical form. -/
theorem Value.isCanonical_numberOfText (s : String) : (numberOfText s).IsCanonical := by
  rw [numberOfText]
  split
  · exact Double.isCanonical_zero false
  · cases hread : Number.readDouble (Text.trim s) with
    | none => exact .nan
    | some x => exact Number.isCanonical_readDouble hread

end Choicebook
