import Choicebook.Value.Equality
import Mathlib.Algebra.Order.Field.Rat
import Mathlib.Algebra.Order.GroupWithZero.Basic
import Mathlib.Data.Rat.Cast.Order
import Mathlib.Tactic.Ring
import Mathlib.Tactic.LinearCombination

/-!
# Sameness of keys

`Value.same` is symmetric and transitive on the values that can be keys. It is not reflexive: not a
number is not the same as itself, and neither is a function or a library.

Numbers are the part with content. A truth value, an integer and a double are compared through the
number that they stand for, so all comparisons are comparisons of exact rationals
(`Number.same_iff`); the sign of an infinity stands for itself. The rest follows the structure of a
key, which is a scalar or a tuple of keys.
-/

namespace Choicebook

/-! ### Numbers -/

namespace Double

/-- The two factors that bring `2 ^ e` and `2 ^ f` to one unit. -/
theorem scale_mul_zpow (e f : Int) :
    (scale 2 (e - f) : ℚ) * 2 ^ f = (scale 2 (f - e) : ℚ) * 2 ^ e := by
  have key : ∀ m n : Int, n ≤ m →
      (scale 2 (m - n) : ℚ) * 2 ^ n = (scale 2 (n - m) : ℚ) * 2 ^ m := by
    intro m n h
    obtain ⟨k, rfl⟩ : ∃ k : ℕ, m = n + k := ⟨(m - n).toNat, by omega⟩
    have hu : (n + (k : Int) - n).toNat = k := by omega
    have hd : (n - (n + (k : Int))).toNat = 0 := by omega
    simp only [scale, hu, hd, Nat.pow_eq, Nat.cast_pow, Nat.cast_ofNat, pow_zero, Nat.cast_one,
      one_mul, zpow_add₀ (two_ne_zero : (2 : ℚ) ≠ 0), zpow_natCast]
    ring
  rcases le_total f e with h | h
  · exact key e f h
  · exact (key f e h).symm

/-- Comparing scaled integers compares the rationals that they are. -/
theorem compareScaled_eq_iff (a e b f : Int) :
    compareScaled a e b f = .eq ↔ (a : ℚ) * 2 ^ e = b * 2 ^ f := by
  rw [compareScaled, compare_eq_iff_eq]
  -- one of the two scales is 1, but the proof need not know which
  have hs := scale_mul_zpow e f
  have hf : (2 : ℚ) ^ f ≠ 0 := zpow_ne_zero f two_ne_zero
  have hu : (scale 2 (f - e) : ℚ) ≠ 0 := by
    rw [scale, Nat.pow_eq]
    exact_mod_cast pow_ne_zero _ two_ne_zero
  have hcast : a * (scale 2 (e - f) : Int) = b * (scale 2 (f - e) : Int) ↔
      (a : ℚ) * scale 2 (e - f) = b * scale 2 (f - e) := by
    exact_mod_cast Iff.rfl
  rw [hcast]
  constructor
  · intro h
    apply mul_left_cancel₀ hu
    linear_combination (2 : ℚ) ^ f * h - (a : ℚ) * hs
  · intro h
    apply mul_right_cancel₀ hf
    linear_combination (scale 2 (f - e) : ℚ) * h + (a : ℚ) * hs

/-- The exact number that a double is, or the sign of an infinity. -/
def worth? : Double → Option (ℚ ⊕ Bool)
  | .finite s m e => some (.inl ((signed s m : ℚ) * 2 ^ e))
  | .infinite s => some (.inr s)
  | .nan => none

theorem numEq_iff {x y : Double} :
    x.numEq y = true ↔ ∃ w, x.worth? = some w ∧ y.worth? = some w := by
  rw [numEq, decide_eq_true_iff]
  cases x with
  | nan => simp [compare?, worth?]
  | infinite s =>
    cases y with
    | nan => simp [compare?, worth?]
    | infinite t => cases s <;> cases t <;> simp [compare?, worth?]
    | finite t n f => cases s <;> simp [compare?, worth?]
  | finite s m e =>
    cases y with
    | nan => simp [compare?, worth?]
    | infinite t => cases t <;> simp [compare?, worth?]
    | finite t n f =>
      simp only [compare?, worth?, Option.some.injEq, exists_eq_left', Sum.inl.injEq]
      rw [compareScaled_eq_iff, eq_comm]

theorem eqInt_iff {x : Double} {n : Int} : x.eqInt n = true ↔ x.worth? = some (.inl (n : ℚ)) := by
  rw [eqInt, decide_eq_true_iff]
  cases x with
  | nan => simp [compareInt?, worth?]
  | infinite s => cases s <;> simp [compareInt?, worth?]
  | finite s m e =>
    simp only [compareInt?, worth?, Option.some.injEq, Sum.inl.injEq]
    rw [compareScaled_eq_iff, zpow_zero, mul_one]

end Double

namespace Number

/-- The exact number, or the sign of an infinity. -/
def worth? : Number → Option (ℚ ⊕ Bool)
  | .int n => some (.inl n)
  | .float x => x.worth?

/-- Numbers of either sort are the same if they are exactly the same rational or infinity. -/
theorem same_iff {x y : Number} :
    x.same y = true ↔ ∃ w, x.worth? = some w ∧ y.worth? = some w := by
  cases x with
  | int m =>
    cases y with
    | int n => simp [same, worth?, eq_comm]
    | float y => simp [same, worth?, Double.eqInt_iff]
  | float x =>
    cases y with
    | int n => simp [same, worth?, Double.eqInt_iff]
    | float y => exact Double.numEq_iff

theorem same_symm {x y : Number} (h : x.same y = true) : y.same x = true := by
  obtain ⟨w, hx, hy⟩ := same_iff.mp h
  exact same_iff.mpr ⟨w, hy, hx⟩

theorem same_trans {x y z : Number} (h : x.same y = true) (g : y.same z = true) :
    x.same z = true := by
  obtain ⟨w, hx, hy⟩ := same_iff.mp h
  obtain ⟨w', hy', hz⟩ := same_iff.mp g
  have hw : w = w' := Option.some_injective _ (hy.symm.trans hy')
  exact same_iff.mpr ⟨w, hx, hw ▸ hz⟩

end Number

/-! ### Keys -/

namespace Value

/-- A value that counts as a number is compared as that number. -/
theorem same_of_number {v w : Value} {x : Number} (h : v.number? = some x) :
    v.same w = w.number?.any x.same := by
  cases v <;> simp only [number?, Option.some.injEq, reduceCtorEq] at h <;> subst h <;>
    simp only [same]

/-- What is the same as a number counts as a number that is the same. -/
theorem number_of_same {v w : Value} {x : Number} (hx : v.number? = some x)
    (h : v.same w = true) : ∃ y, w.number? = some y ∧ x.same y = true := by
  rw [same_of_number hx, Option.any_eq_true] at h
  exact h

/-- Sameness as numbers, from both sides. -/
private theorem same_symm_of_number {v w : Value} {x : Number} (hx : v.number? = some x)
    (h : v.same w = true) : w.same v = true := by
  obtain ⟨y, hy, hxy⟩ := number_of_same hx h
  rw [same_of_number hy, hx]
  exact Number.same_symm hxy

private theorem same_trans_of_number {u v w : Value} {x : Number} (hx : u.number? = some x)
    (h : u.same v = true) (g : v.same w = true) : u.same w = true := by
  obtain ⟨y, hy, hxy⟩ := number_of_same hx h
  obtain ⟨z, hz, hyz⟩ := number_of_same hy g
  rw [same_of_number hx, hz]
  exact Number.same_trans hxy hyz

mutual

/-- Sameness with a key is symmetric. -/
theorem same_symm : ∀ {v w : Value}, v.canBeKey = true → v.same w = true → w.same v = true
  | .bool b, _, _, h => same_symm_of_number (v := .bool b) rfl h
  | .int n, _, _, h => same_symm_of_number (v := .int n) rfl h
  | .float x, _, _, h => same_symm_of_number (v := .float x) rfl h
  | .tuple xs, w, hk, h => by
    cases w <;> simp only [same, Bool.false_eq_true] at h ⊢
    exact sameItems_symm (by simpa [canBeKey] using hk) h
  | .null, w, _, h | .text _, w, _, h | .bytes _, w, _, h | .date _, w, _, h | .time _, w, _, h
  | .dateTime _, w, _, h | .kind _, w, _, h => by
    cases w <;> simp_all [same]
  | .library _, w, _, h | .function .., w, _, h => by simp [same] at h
  | .list _, _, hk, _ | .set _, _, hk, _ | .map _, _, hk, _ | .object _, _, hk, _ => by
    simp [canBeKey] at hk

/-- Sameness item by item with keys is symmetric. -/
theorem sameItems_symm : ∀ {xs ys : List Value}, canBeKeys xs = true → sameItems xs ys = true →
    sameItems ys xs = true
  | [], [], _, _ => by simp [sameItems]
  | [], _ :: _, _, h | _ :: _, [], _, h => by simp [sameItems] at h
  | x :: xs, y :: ys, hk, h => by
    simp only [canBeKeys, sameItems, Bool.and_eq_true] at hk h ⊢
    exact ⟨same_symm hk.1 h.1, sameItems_symm hk.2 h.2⟩

end

mutual

/-- Sameness is transitive from a key on. -/
theorem same_trans : ∀ {u v w : Value}, u.canBeKey = true → u.same v = true → v.same w = true →
    u.same w = true
  | .bool b, _, _, _, h, g => same_trans_of_number (u := .bool b) rfl h g
  | .int n, _, _, _, h, g => same_trans_of_number (u := .int n) rfl h g
  | .float x, _, _, _, h, g => same_trans_of_number (u := .float x) rfl h g
  | .tuple xs, v, w, hk, h, g => by
    cases v <;> simp only [same, Bool.false_eq_true] at h
    cases w <;> simp only [same, Bool.false_eq_true] at g ⊢
    exact sameItems_trans (by simpa [canBeKey] using hk) h g
  | .null, v, w, _, h, g | .text _, v, w, _, h, g | .bytes _, v, w, _, h, g
  | .date _, v, w, _, h, g | .time _, v, w, _, h, g | .dateTime _, v, w, _, h, g
  | .kind _, v, w, _, h, g => by
    cases v <;> simp_all [same]
  | .library _, v, w, _, h, _ | .function .., v, w, _, h, _ => by simp [same] at h
  | .list _, _, _, hk, _, _ | .set _, _, _, hk, _, _ | .map _, _, _, hk, _, _
  | .object _, _, _, hk, _, _ => by
    simp [canBeKey] at hk

/-- Sameness item by item is transitive from keys on. -/
theorem sameItems_trans : ∀ {xs ys zs : List Value}, canBeKeys xs = true →
    sameItems xs ys = true → sameItems ys zs = true → sameItems xs zs = true
  | [], [], [], _, _, _ => by simp [sameItems]
  | [], _ :: _, _, _, h, _ | _ :: _, [], _, _, h, _ => by simp [sameItems] at h
  | _, [], _ :: _, _, _, g | _, _ :: _, [], _, _, g => by simp [sameItems] at g
  | x :: xs, y :: ys, z :: zs, hk, h, g => by
    simp only [canBeKeys, sameItems, Bool.and_eq_true] at hk h g ⊢
    exact ⟨same_trans hk.1 h.1 g.1, sameItems_trans hk.2 h.2 g.2⟩

end

mutual

/-- What is the same as a key is a key. -/
theorem canBeKey_of_same : ∀ {v w : Value}, v.same w = true → w.canBeKey = true →
    v.canBeKey = true
  | .tuple xs, w, h, hk => by
    cases w <;> simp only [same, Bool.false_eq_true] at h
    simp only [canBeKey] at hk ⊢
    exact canBeKeys_of_sameItems h hk
  | .list _, w, h, hk | .set _, w, h, hk | .map _, w, h, hk | .object _, w, h, hk => by
    cases w <;> simp_all [same, canBeKey]
  | .null, _, _, _ | .bool _, _, _, _ | .int _, _, _, _ | .float _, _, _, _ | .text _, _, _, _
  | .bytes _, _, _, _ | .date _, _, _, _ | .time _, _, _, _ | .dateTime _, _, _, _
  | .kind _, _, _, _ | .library _, _, _, _ | .function .., _, _, _ => by simp [canBeKey]

/-- What is the same as a list of keys, item by item, is a list of keys. -/
theorem canBeKeys_of_sameItems : ∀ {xs ys : List Value}, sameItems xs ys = true →
    canBeKeys ys = true → canBeKeys xs = true
  | [], _, _, _ => rfl
  | _ :: _, [], h, _ => by simp [sameItems] at h
  | x :: xs, y :: ys, h, hk => by
    simp only [canBeKeys, sameItems, Bool.and_eq_true] at hk h ⊢
    exact ⟨canBeKey_of_same h.1 hk.1, canBeKeys_of_sameItems h.2 hk.2⟩

end

/-- What a key is the same as is a key. -/
theorem canBeKey_of_same_right {v w : Value} (h : v.same w = true) (hk : v.canBeKey = true) :
    w.canBeKey = true :=
  canBeKey_of_same (same_symm hk h) hk

/-- Two keys that are the same are the same as the same values. -/
theorem same_left_congr {u v : Value} (huv : u.same v = true) (hv : v.canBeKey = true)
    (k : Value) : u.same k = v.same k := by
  have hu := canBeKey_of_same huv hv
  rw [Bool.eq_iff_iff]
  constructor
  · intro h
    exact same_trans hv (same_symm hu huv) h
  · intro h
    exact same_trans hu huv h

/-- The same values are the same as either of two keys that are the same. -/
theorem same_right_congr {u v : Value} (huv : u.same v = true) (hv : v.canBeKey = true)
    (k : Value) : k.same u = k.same v := by
  have hu := canBeKey_of_same huv hv
  rw [Bool.eq_iff_iff]
  constructor
  · intro h
    exact same_trans (canBeKey_of_same h hu) h huv
  · intro h
    exact same_trans (canBeKey_of_same h hv) h (same_symm hu huv)

end Value

end Choicebook
