import Choicebook.Value.Text
import Mathlib.Data.List.Basic

/-!
# Texts of keys

Storing a mapping turns its keys into texts. Four texts have a meaning at the head of what is
stored, and no value that is not a text itself is written as one of them
(`Value.display_not_head`): numbers and dates start with a digit or a sign, and everything else
starts in a way of its own.
-/

namespace Choicebook

/-! ### What starts like a number -/

/-- A digit or a minus sign stands in front. -/
def Text.LeadsNumber (cs : List Char) : Prop :=
  ∃ c rest, cs = c :: rest ∧ (c.isDigit = true ∨ c = '-')

namespace Text.LeadsNumber

theorem append {cs : List Char} (h : LeadsNumber cs) (ds : List Char) : LeadsNumber (cs ++ ds) := by
  obtain ⟨c, rest, rfl, hc⟩ := h
  exact ⟨c, rest ++ ds, rfl, hc⟩

private theorem minus (cs : List Char) : LeadsNumber ('-' :: cs) := ⟨'-', cs, rfl, .inr rfl⟩

private theorem zero (cs : List Char) : LeadsNumber ('0' :: cs) := ⟨'0', cs, rfl, .inl rfl⟩

theorem toDigits (n : Nat) : LeadsNumber (Nat.toDigits 10 n) := by
  obtain ⟨c, rest, hds⟩ := List.exists_cons_of_ne_nil (Nat.toDigits_ne_nil (n := n) (b := 10))
  have hc : c ∈ Nat.toDigits 10 n := hds ▸ List.mem_cons_self
  exact ⟨c, rest, hds, .inl (Nat.isDigit_of_mem_toDigits (by decide) (by decide) hc)⟩

theorem int (n : Int) : LeadsNumber (toString n).toList := by
  cases n with
  | ofNat n =>
    change LeadsNumber (Nat.repr n).toList
    rw [Nat.toList_repr]
    exact toDigits n
  | negSucc n =>
    change LeadsNumber ("-" ++ Nat.repr (n + 1)).toList
    rw [String.toList_append]
    exact minus _

theorem padded (width n : Nat) : LeadsNumber (Calendar.padded width n).toList := by
  rw [Calendar.padded]
  simp only [String.toList_ofList]
  cases width - (Nat.toDigits 10 n).length with
  | zero => exact toDigits n
  | succ k => exact zero _

end Text.LeadsNumber

namespace Double

open Text (LeadsNumber)

/-- Without the zeros at the end there are still digits, and nothing else. -/
private theorem dropZeros_digits {ds : List Char} (h : ∀ c ∈ ds, c.isDigit = true) :
    dropZeros ds ≠ [] ∧ ∀ c ∈ dropZeros ds, c.isDigit = true := by
  rw [dropZeros]
  split
  · exact ⟨by simp, by simp⟩
  · next hne =>
    refine ⟨hne, fun c hc => h c ?_⟩
    rw [List.mem_reverse] at hc
    exact List.mem_reverse.mp (List.dropWhile_subset _ hc)

/-- Wherever the point goes, a digit stays in front. -/
private theorem layOut_leads (f : Notation) {ds : List Char} (hne : ds ≠ [])
    (h : ∀ c ∈ ds, c.isDigit = true) (point : Int) : LeadsNumber (layOut f ds point) := by
  obtain ⟨c, rest, rfl⟩ := List.exists_cons_of_ne_nil hne
  have hc : c.isDigit = true := h c List.mem_cons_self
  rw [layOut]
  split
  · split
    · exact ⟨'0', _, rfl, .inl rfl⟩
    · split
      · exact ⟨c, _, rfl, .inl hc⟩
      · obtain ⟨k, hk⟩ : ∃ k, point.toNat = k + 1 := ⟨point.toNat - 1, by omega⟩
        rw [hk]
        exact ⟨c, _, rfl, .inl hc⟩
  · exact ⟨c, _, rfl, .inl hc⟩

theorem render_leads (s : Bool) (m : Nat) (e : Int) :
    LeadsNumber ((Double.finite s m e).render .plain).toList := by
  have hbody : LeadsNumber (if m = 0 then
        (if Notation.plain.keepsPoint then ['0', '.', '0'] else ['0'])
      else layOut .plain (dropZeros (Nat.toDigits 10 (shortest m e).digits))
        ((Nat.toDigits 10 (shortest m e).digits).length + (shortest m e).exponent)) := by
    split
    · exact ⟨'0', _, rfl, .inl rfl⟩
    · have hall : ∀ c ∈ Nat.toDigits 10 (shortest m e).digits, c.isDigit = true :=
        fun _ hc => Nat.isDigit_of_mem_toDigits (by decide) (by decide) hc
      obtain ⟨hne, hdigits⟩ := dropZeros_digits hall
      exact layOut_leads _ hne hdigits _
  rw [render]
  simp only [String.toList_ofList]
  split
  · exact ⟨'-', _, rfl, .inr rfl⟩
  · exact hbody

end Double

/-! ### Names at the head -/

namespace Value

/-- The names that the head of a stored choice or command has. -/
def headNames : List String := ["id", "name", "type", "command"]

private theorem ne_of_leads {s : String} (h : Text.LeadsNumber s.toList) {n : String}
    (hn : n ∈ headNames) : s ≠ n := by
  rintro rfl
  obtain ⟨c, rest, hs, hc⟩ := h
  simp only [headNames, List.mem_cons, List.not_mem_nil, or_false] at hn
  rcases hn with rfl | rfl | rfl | rfl <;> simp at hs <;> obtain ⟨rfl, -⟩ := hs <;> simp at hc

/-- A text that begins as none of the names does. -/
private theorem ne_of_prefix (p : List Char) (hp : ∀ n ∈ headNames, ¬p <+: n.toList) {s : String}
    (hs : p <+: s.toList) {n : String} (hn : n ∈ headNames) : s ≠ n := by
  rintro rfl
  exact hp _ hn hs

/-- What is not a text is not written as one of the names. -/
theorem display_not_head {k : Value} (hk : ∀ s, k ≠ .text s) {n : String}
    (hn : n ∈ headNames) : k.display ≠ n := by
  have hbool : ∀ b : Bool, ∀ n ∈ headNames, (Value.bool b).display ≠ n := by decide
  cases k with
  | text s => exact absurd rfl (hk s)
  | int i => exact ne_of_leads (.int i) hn
  | float x =>
    cases x with
    | finite s m e => exact ne_of_leads (Double.render_leads s m e) hn
    | infinite s => revert n; cases s <;> decide
    | nan => revert n; decide
  | null => revert n; decide
  | bool b => exact hbool b n hn
  | date d =>
    refine ne_of_leads ?_ hn
    rw [display, Date.iso]
    simp only [String.toList_append, List.append_assoc]
    exact (Text.LeadsNumber.padded 4 d.year).append _
  | time t =>
    refine ne_of_leads ?_ hn
    rw [display, ClockTime.iso]
    simp only [String.toList_append, List.append_assoc]
    exact (Text.LeadsNumber.padded 2 t.hour).append _
  | dateTime d =>
    refine ne_of_leads ?_ hn
    rw [display, DateTime.iso, Date.iso]
    simp only [String.toList_append, List.append_assoc]
    exact (Text.LeadsNumber.padded 4 d.date.year).append _
  | bytes bs =>
    refine ne_of_prefix ['b'] (by decide) ?_ hn
    simp [display, quoted, Text.quotedBytes]
  | list xs =>
    refine ne_of_prefix ['['] (by decide) ?_ hn
    simp [display, quoted, String.toList_append]
  | tuple xs =>
    refine ne_of_prefix ['('] (by decide) ?_ hn
    rcases xs with _ | ⟨x, _ | ⟨y, ys⟩⟩ <;> simp [display, quoted, String.toList_append]
  | set xs =>
    cases xs with
    | nil => revert n; decide
    | cons x xs =>
      refine ne_of_prefix ['\x7b'] (by decide) ?_ hn
      simp [display, quoted, String.toList_append]
  | map es =>
    refine ne_of_prefix ['\x7b'] (by decide) ?_ hn
    simp [display, quoted, String.toList_append]
  | object ms =>
    -- `namespace(…)` begins like `name`, so one letter more has to differ
    refine ne_of_prefix "names".toList (by decide) ?_ hn
    simp [display, quoted, String.toList_append]
  | library ms => revert n; simp only [display, quoted]; decide
  | kind name =>
    refine ne_of_prefix ['<'] (by decide) ?_ hn
    simp [display, quoted, String.toList_append]
  | function label _ _ =>
    refine ne_of_prefix ['<'] (by decide) ?_ hn
    simp [display, quoted, String.toList_append]

end Value

end Choicebook
