import Choicebook.Proofs.Number.Rounding

/-!
# Numbers that are too large

`Double.limit` lies half way between the greatest double and the power of two that follows it. A
number that is not less is rounded to an infinity, since a tie goes to the even mantissa and the
greatest double has an odd one; a smaller number is rounded to a finite double
(`Double.ofRatio_eq_infinite_iff`). So an integer that is not less has no double
(`Double.ofInt?_eq_none_iff`).

The exponent that a number is rounded with decides all cases but one. With the greatest exponent, it
depends on whether the mantissa is rounded up to 54 bits.
-/

namespace Choicebook

namespace Double

/-- The number half way between the greatest double and the power of two that follows it. What is
not less than this is rounded to an infinity. -/
def limit : Nat := 2 ^ 1024 - 2 ^ 970

theorem limit_eq : limit = (2 ^ 54 - 1) * 2 ^ 970 := by
  have hbits : 1024 = 54 + 970 := rfl
  rw [limit, hbits, pow_add, Nat.sub_mul, one_mul]

theorem limit_pos : 0 < limit := by
  rw [limit_eq]
  exact Nat.mul_pos (by decide) (pow_pos two_pos 970)

theorem cast_limit : (limit : ℚ) = (2 ^ 54 - 1 : Nat) * 2 ^ (970 : Int) := by
  have hexponent : (970 : Int) = (970 : Nat) := rfl
  rw [limit_eq, Nat.cast_mul, Nat.cast_pow 2 970, Nat.cast_ofNat, hexponent, zpow_natCast]

/-- Below `2 ^ 53`, a number is rounded to `2 ^ 53` from half a unit on. -/
theorem roundDiv_eq_full_iff {num den : Nat} (hden : 0 < den) (h : num < 2 ^ 53 * den) :
    roundDiv num den = 2 ^ 53 ↔ (2 ^ 54 - 1) * den ≤ 2 * num := by
  have hsum : den * (num / den) + num % den = num := Nat.div_add_mod num den
  have hrest : num % den < den := Nat.mod_lt num hden
  have hquotient : num / den < 2 ^ 53 := (Nat.div_lt_iff_lt_mul hden).mpr h
  rw [roundDiv]
  generalize num / den = q at *
  generalize num % den = r at *
  rcases Nat.lt_or_ge q (2 ^ 53 - 1) with hlow | hhigh
  · -- two units below, so nothing is rounded up to it
    have hunits : den * q ≤ den * (2 ^ 53 - 2) := Nat.mul_le_mul_left den (by omega)
    refine iff_of_false ?_ (by omega)
    repeat' split
    all_goals omega
  · obtain rfl : q = 2 ^ 53 - 1 := by omega
    repeat' split
    all_goals omega

theorem scale_succ {e : Int} (h : 0 ≤ e) : scale 2 (e + 1) = 2 * scale 2 e := by
  have hexponent : (e + 1).toNat = e.toNat + 1 := Int.toNat_add h (by decide)
  rw [scale, hexponent, Nat.pow_eq, pow_succ', scale, Nat.pow_eq]

section

variable {num den : Nat}

/-- Above the exponents of doubles, a number is beyond the limit. -/
theorem limit_le_of_maxExponent_lt (hnum : 0 < num) (hden : 0 < den)
    (h : maxExponent < roundingExponent num den) : (limit : ℚ) ≤ num / den := by
  have hlog : (1024 : Int) ≤ binaryLog num den := by
    have hmax : maxExponent = 971 := rfl
    have hmin : minExponent = -1074 := rfl
    rw [roundingExponent] at h
    omega
  calc (limit : ℚ) ≤ (2 ^ 1024 : Nat) := Nat.cast_le.mpr (Nat.sub_le _ _)
    _ = (2 : ℚ) ^ (1024 : Int) := by rw [Nat.cast_pow, Nat.cast_ofNat, ← zpow_natCast]; rfl
    _ ≤ 2 ^ binaryLog num den := zpow_le_zpow_right₀ one_le_two hlog
    _ ≤ num / den := (binaryLog_spec hnum hden).1

/-- Below the greatest exponent of doubles, a number is within the limit. -/
theorem lt_limit_of_lt_maxExponent (hnum : 0 < num) (hden : 0 < den)
    (h : roundingExponent num den < maxExponent) : (num / den : ℚ) < limit := by
  have hpow : (0 : ℚ) < 2 ^ (970 : Int) := zpow_pos two_pos _
  have hexponent : roundingExponent num den ≤ 970 := Int.lt_add_one_iff.mp h
  calc (num / den : ℚ) < (2 ^ 53 : Nat) * 2 ^ roundingExponent num den :=
        lt_roundingExponent hnum hden
    _ ≤ (2 ^ 53 : Nat) * 2 ^ (970 : Int) :=
        mul_le_mul_of_nonneg_left (zpow_le_zpow_right₀ one_le_two hexponent) (Nat.cast_nonneg _)
    _ ≤ (2 ^ 54 - 1 : Nat) * 2 ^ (970 : Int) :=
        mul_le_mul_of_nonneg_right (Nat.cast_le.mpr (by decide)) hpow.le
    _ = limit := cast_limit.symm

/-- With the greatest exponent, it depends on the mantissa. -/
theorem scaledRound_eq_full_iff (hnum : 0 < num) (hden : 0 < den)
    (h : roundingExponent num den = maxExponent) :
    scaledRound num den (roundingExponent num den) = 2 ^ 53 ↔ (limit : ℚ) ≤ num / den := by
  have hbelow := mt (mul_zpow_le_iff hden (2 ^ 53) maxExponent).mpr
    (not_le_of_gt (h ▸ lt_roundingExponent hnum hden))
  have hunit : scale 2 maxExponent = 2 * scale 2 970 := scale_succ (e := 970) (by decide)
  have hone : scale 2 (-maxExponent) = scale 2 (-970) := rfl
  have hunits := Nat.mul_pos hden (scale_pos maxExponent)
  rw [h, scaledRound, roundDiv_eq_full_iff hunits (Nat.lt_of_not_le hbelow), cast_limit,
    mul_zpow_le_iff hden, hone, hunit, Nat.mul_left_comm den, Nat.mul_left_comm _ 2]
  exact Nat.mul_le_mul_left_iff two_pos

/-- **Numbers that are too large.** A number is rounded to an infinity from the limit on. -/
theorem ofRatio_eq_infinite_iff (s : Bool) (hnum : 0 < num) (hden : 0 < den) :
    ofRatio s num den = .infinite s ↔ (limit : ℚ) ≤ num / den := by
  rw [ofRatio_of_pos s hnum]
  rcases lt_trichotomy (roundingExponent num den) maxExponent with hlt | heq | hgt
  · refine iff_of_false ?_ (not_le_of_gt (lt_limit_of_lt_maxExponent hnum hden hlt))
    split
    · rw [if_neg (by omega)]
      exact Double.noConfusion
    · rw [if_neg (by omega)]
      exact Double.noConfusion
  · rw [← scaledRound_eq_full_iff hnum hden heq]
    split
    · next hfull => exact iff_of_true (if_pos (by omega)) hfull
    · next hfull =>
      rw [if_neg (by omega)]
      exact iff_of_false Double.noConfusion hfull
  · have hcarry : maxExponent < roundingExponent num den + 1 := hgt.trans (lt_add_one _)
    rw [if_pos hgt, if_pos hcarry, ite_self]
    exact iff_of_true rfl (limit_le_of_maxExponent_lt hnum hden hgt)

end

/-- Rounding gives a finite number or an infinity. -/
theorem ofRatio_cases (s : Bool) (num den : Nat) :
    ofRatio s num den = .infinite s ∨ ∃ m e, ofRatio s num den = .finite s m e := by
  rcases Nat.eq_zero_or_pos num with rfl | hnum
  · exact .inr ⟨0, minExponent, rfl⟩
  · rw [ofRatio_of_pos s hnum]
    split
    all_goals
      split
      · exact .inl rfl
      · exact .inr ⟨_, _, rfl⟩

/-- An integer is too large for a double from the limit on. -/
theorem ofInt?_eq_none_iff {n : Int} : ofInt? n = none ↔ limit ≤ n.natAbs := by
  rcases Nat.eq_zero_or_pos n.natAbs with hzero | hpos
  · obtain rfl : n = 0 := Int.natAbs_eq_zero.mp hzero
    exact iff_of_false (Option.some_ne_none (zero false)) (Nat.not_le.mpr limit_pos)
  · have hone : ((n.natAbs : ℚ) / (1 : Nat)) = n.natAbs := by rw [Nat.cast_one, div_one]
    have hlimit := ofRatio_eq_infinite_iff (decide (n < 0)) hpos Nat.one_pos
    rw [hone, Nat.cast_le] at hlimit
    rw [← hlimit, ofInt?, ofInt]
    rcases ofRatio_cases (decide (n < 0)) n.natAbs 1 with hround | ⟨m, e, hround⟩
    · exact iff_of_true (by rw [hround]) hround
    · rw [hround]
      exact iff_of_false (Option.some_ne_none _) Double.noConfusion

end Double

end Choicebook
