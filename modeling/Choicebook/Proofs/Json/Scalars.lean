import Mathlib.Data.Nat.Digits.Defs
import Choicebook.Json.Reader
import Choicebook.Json.Writer
import Choicebook.Proofs.Value.Text

/-!
# JSON texts and numbers

What `Json.writeText` writes is read back by `Json.readText`, one step for each character of the
text, however it is written. Whole numbers that are not too long are read back too, as long as what
follows them cannot be taken for more of the number (`Json.Ends`).
-/

namespace Choicebook.Json

variable {rest : List Char}

/-! ### Texts -/

private theorem hex4?_hexPadded : ∀ n < 32, hex4? (Text.hexPadded 4 n) = some (n, []) := by
  decide +kernel

private theorem hex4?_append {cs : List Char} {n : Nat} (h : hex4? cs = some (n, []))
    (rest : List Char) : hex4? (cs ++ rest) = some (n, rest) := by
  match cs with
  | a :: b :: c :: d :: more =>
    simp only [hex4?, List.cons_append, bind, Option.bind_eq_some_iff, Option.some.injEq,
      Prod.mk.injEq] at h ⊢
    obtain ⟨x, hx, y, hy, z, hz, w, hw, hn, rfl⟩ := h
    exact ⟨x, hx, y, hy, z, hz, w, hw, hn, rfl⟩
  | [] => cases h
  | [_] => cases h
  | [_, _] => cases h
  | [_, _, _] => cases h

/-- A control character is read back from its number. -/
private theorem numbered?_control {c : Char} (hc : c.toNat < 32) (rest : List Char) :
    numbered? (Text.hexPadded 4 c.toNat ++ rest) = some (c, rest) := by
  have hhigh : isHighHalf c.toNat = false := by
    rw [isHighHalf, decide_eq_false (by omega), Bool.false_and]
  have hlow : isLowHalf c.toNat = false := by
    rw [isLowHalf, decide_eq_false (by omega), Bool.false_and]
  have hchar : charOf c.toNat = c := by
    rw [charOf, hhigh, hlow]
    exact Char.ofNat_toNat c
  rw [numbered?, hex4?_append (hex4?_hexPadded c.toNat hc)]
  dsimp only
  split
  · rw [hhigh, hchar]
    rfl
  · rw [hchar]

/-- However a character is written, it is read back in one step. -/
theorem readText_writeChar (c : Char) (fuel : Nat) (acc cs : List Char) :
    readText (fuel + 1) acc (writeChar c ++ cs) = readText fuel (c :: acc) cs := by
  unfold writeChar
  split
  · next h =>
    rcases h with rfl | rfl
    · simp [readText, escaped?]
    · simp [readText, escaped?]
  · next hquote =>
    rw [not_or] at hquote
    split
    · next h => simp [h, readText, escaped?]
    split
    · next h => simp [h, readText, escaped?]
    split
    · next h => simp [h, readText, escaped?]
    split
    · next h => simp [h, readText, escaped?]
    split
    · next h => simp [h, readText, escaped?]
    split
    · next h => simp [readText, numbered?_control h]
    · next h => simp [readText, hquote, h]

/-- A text is read back up to its closing quote. -/
theorem readText_writeText (s rest : List Char) {fuel : Nat} (hfuel : s.length < fuel)
    (acc : List Char) : readText fuel acc (s.flatMap writeChar ++ '"' :: rest) =
      some (String.ofList (acc.reverse ++ s), rest) := by
  induction s generalizing fuel acc with
  | nil =>
    obtain ⟨fuel, rfl⟩ := Nat.exists_eq_succ_of_ne_zero (Nat.ne_of_gt hfuel)
    simp [readText]
  | cons c s ih =>
    obtain ⟨fuel, rfl⟩ := Nat.exists_eq_succ_of_ne_zero (Nat.ne_of_gt (Nat.zero_lt_of_lt hfuel))
    rw [List.flatMap_cons, List.append_assoc, readText_writeChar,
      ih (Nat.lt_of_succ_lt_succ hfuel), List.reverse_cons, List.append_assoc]
    rfl

theorem length_le_length_flatMap (s : List Char) : s.length ≤ (s.flatMap writeChar).length := by
  have hpos (c : Char) : 0 < (writeChar c).length := by
    unfold writeChar
    repeat' split
    all_goals simp
  induction s with
  | nil => exact Nat.le_refl _
  | cons c s ih =>
    have hc := hpos c
    rw [List.flatMap_cons, List.length_append, List.length_cons]
    omega

/-! ### Whole numbers -/

/-- What follows cannot be taken for more of a number. -/
def Ends (rest : List Char) : Prop :=
  ∀ c ∈ rest.head?, c.isDigit = false ∧ c ≠ '.' ∧ c ≠ 'e' ∧ c ≠ 'E'

/-- A number that is written in decimal has no zeros in front. -/
private theorem head?_toDigits_ne (n : Nat) (hn : n ≠ 0) :
    (Nat.toDigits 10 n).head? ≠ some '0' := by
  induction n using Nat.strongRecOn with
  | _ n ih =>
    rw [Nat.toDigits_eq_if (by decide)]
    split
    · next h =>
      have hdigit : ∀ n < 10, n ≠ 0 → n.digitChar ≠ '0' := by decide
      simpa using hdigit n h hn
    · next h =>
      have hfront := ih (n / 10) (by omega) (by omega)
      rw [List.head?_append_of_ne_nil _ Nat.toDigits_ne_nil]
      exact hfront

private theorem natOf_toDigits (n : Nat) : natOf (Nat.toDigits 10 n) = n := by
  rw [natOf, Number.ofDigits, List.foldl_map]
  exact Nat.ofDigitChars_toDigits (by decide) (by decide)

private theorem isDigit_of_mem {n : Nat} {c : Char} (h : c ∈ Nat.toDigits 10 n) :
    c.isDigit = true :=
  Nat.isDigit_of_mem_toDigits (by decide) (by decide) h

theorem Ends.takeWhile (h : Ends rest) : rest.takeWhile Char.isDigit = [] := by
  cases rest with
  | nil => rfl
  | cons c rest => rw [List.takeWhile_cons_of_neg (by simp [(h c rfl).1])]

theorem Ends.dropWhile (h : Ends rest) : rest.dropWhile Char.isDigit = rest := by
  cases rest with
  | nil => rfl
  | cons c rest => rw [List.dropWhile_cons_of_neg (by simp [(h c rfl).1])]

theorem Ends.readFraction (h : Ends rest) : readFraction rest = ([], rest) := by
  unfold Json.readFraction
  split
  · exact absurd rfl (h '.' rfl).2.1
  · rfl

theorem Ends.readExponent (h : Ends rest) : readExponent rest = (none, rest) := by
  unfold Json.readExponent
  split
  · next c rest => rw [if_neg (by simp [h c rfl])]
  · rfl

/-- The digits of a number are all that is taken for the number. -/
private theorem whole_toDigits (n : Nat) (hrest : Ends rest) {c : Char} {tail : List Char}
    (hcons : Nat.toDigits 10 n ++ rest = c :: tail) :
    (if c = '0' then (['0'], tail) else digitRun (c :: tail)) = (Nat.toDigits 10 n, rest) := by
  split
  · next hc =>
    subst hc
    -- after a zero the reader takes no more digits, so the number has to be zero
    have hn : n = 0 := by
      by_contra hn
      have hhead : (Nat.toDigits 10 n ++ rest).head? = (Nat.toDigits 10 n).head? :=
        List.head?_append_of_ne_nil _ Nat.toDigits_ne_nil
      rw [hcons, List.head?_cons] at hhead
      exact head?_toDigits_ne n hn hhead.symm
    subst hn
    have hzero : Nat.toDigits 10 0 = ['0'] := rfl
    rw [hzero, List.singleton_append] at hcons
    rw [hzero, (List.cons.inj hcons).2]
  · rw [← hcons, digitRun, List.takeWhile_append_of_pos fun _ => isDigit_of_mem,
      List.dropWhile_append_of_pos fun _ => isDigit_of_mem, hrest.takeWhile, hrest.dropWhile,
      List.append_nil]

/-- The first character of a number is a digit. -/
private theorem exists_digit (n : Nat) (rest : List Char) :
    ∃ c cs, Nat.toDigits 10 n ++ rest = c :: cs ∧ c.isDigit = true := by
  obtain ⟨c, ds, hds⟩ := List.exists_cons_of_ne_nil (Nat.toDigits_ne_nil (n := n) (b := 10))
  refine ⟨c, ds ++ rest, ?_, isDigit_of_mem (hds ▸ List.mem_cons_self)⟩
  rw [hds, List.cons_append]

/-- A number below a power of ten has no more digits than the power has zeros. -/
private theorem length_toDigits_le {n d : Nat} (hd : 0 < d) (h : n < Nat.pow 10 d) :
    (Nat.toDigits 10 n).length ≤ d :=
  Nat.toDigits_length 10 n d hd h

/-- Digits are read as a whole number, if there are not too many and nothing more of a number
follows. -/
theorem readNumber_toDigits (negative : Bool) {n : Nat} (h : n < Nat.pow 10 Number.digitLimit)
    (hrest : Ends rest) : readNumber negative (Nat.toDigits 10 n ++ rest) =
      .ok (.int (if negative then -(n : Int) else n), rest) := by
  obtain ⟨c, cs, hcons, hdigit⟩ := exists_digit n rest
  rw [hcons, readNumber, hdigit]
  simp [whole_toDigits n hrest hcons, hrest.readFraction, hrest.readExponent, natOf_toDigits,
    Nat.not_lt.mpr (length_toDigits_le (by decide : 0 < Number.digitLimit) h)]

/-- None of the names that stand for a value starts like a number. -/
private theorem findSome?_names {c : Char} (hc : c.isDigit = true) (cs : List Char) :
    (names.findSome? fun e => (afterName? e.1 (c :: cs)).map fun rest => (e.2, rest)) = none ∧
      (names.findSome? fun e => (afterName? e.1 ('-' :: c :: cs)).map fun rest => (e.2, rest)) =
        none := by
  have hne (d : Char) (hd : d.isDigit = false) : d ≠ c := by
    rintro rfl
    exact Bool.false_ne_true (hd.symm.trans hc)
  have hn := hne 'n' rfl
  have ht := hne 't' rfl
  have hf := hne 'f' rfl
  have hnan := hne 'N' rfl
  have hinfinity := hne 'I' rfl
  have hminus := hne '-' rfl
  constructor
  · simp [names, afterName?, hn, ht, hf, hnan, hinfinity, hminus]
  · simp [names, afterName?, hinfinity]

theorem readScalar_int {n : Int} (h : Number.isWritable n = true) (hrest : Ends rest) :
    readScalar ((toString n).toList ++ rest) = .ok (.int n, rest) := by
  have hlimit : n.natAbs < Nat.pow 10 Number.digitLimit := of_decide_eq_true h
  cases n with
  | ofNat n =>
    have htext : (toString (Int.ofNat n)).toList = Nat.toDigits 10 n := by
      change (Nat.repr n).toList = _
      rw [Nat.toList_repr]
    have hread := readNumber_toDigits false (n := n) hlimit hrest
    obtain ⟨c, cs, hcons, hc⟩ := exists_digit n rest
    rw [htext]
    rw [hcons] at hread ⊢
    rw [readScalar, (findSome?_names hc cs).1]
    · exact hread
    · rintro rest ⟨⟩
      cases hc
  | negSucc n =>
    have htext : (toString (Int.negSucc n)).toList = '-' :: Nat.toDigits 10 (n + 1) := by
      change ("-" ++ Nat.repr (n + 1)).toList = _
      rw [String.toList_append, Nat.toList_repr]
      rfl
    have hread := readNumber_toDigits true (n := n + 1) hlimit hrest
    obtain ⟨c, cs, hcons, hc⟩ := exists_digit (n + 1) rest
    rw [htext, List.cons_append]
    rw [hcons] at hread ⊢
    rw [readScalar, (findSome?_names hc cs).2]
    exact hread

end Choicebook.Json
