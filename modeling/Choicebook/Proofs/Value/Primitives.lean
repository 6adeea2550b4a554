import Choicebook.Proofs.Value.Text
import Choicebook.Script.Export

/-!
# Two texts of a primitive

A primitive is made a text of as the export of a script (`Value.primitiveText`) and as the result of
a macro (`Value.resultText`). The only ones that differ are floats of whole numbers: the first text
is that of the integer, and the second one has a point or an exponent in it, which no integer has
(`Value.primitiveText_eq_resultText_iff`).
-/

namespace Choicebook

namespace Double

/-- Wherever the point goes, there is one in the text, or there is an exponent. -/
private theorem layOut_marked (ds : List Char) (point : Int) :
    ∃ c ∈ layOut .plain ds point, c = '.' ∨ c = 'e' := by
  rw [layOut]
  split
  · refine ⟨'.', ?_, .inl rfl⟩
    split
    · exact List.mem_cons_of_mem _ List.mem_cons_self
    · split
      · exact List.mem_append_right _ List.mem_cons_self
      · exact List.mem_append_right _ List.mem_cons_self
  · exact ⟨'e', List.mem_append_right _ List.mem_cons_self, .inr rfl⟩

theorem render_marked (s : Bool) (m : Nat) (e : Int) :
    ∃ c ∈ ((Double.finite s m e).render .plain).toList, c = '.' ∨ c = 'e' := by
  have hbody : ∃ c ∈ (if m = 0 then
        (if Notation.plain.keepsPoint then ['0', '.', '0'] else ['0'])
      else layOut .plain (dropZeros (Nat.toDigits 10 (shortest m e).digits))
        ((Nat.toDigits 10 (shortest m e).digits).length + (shortest m e).exponent)),
      c = '.' ∨ c = 'e' := by
    split
    · exact ⟨'.', List.mem_cons_of_mem _ List.mem_cons_self, .inl rfl⟩
    · exact layOut_marked _ _
  rw [render]
  simp only [String.toList_ofList]
  split
  · obtain ⟨c, hc, hmark⟩ := hbody
    exact ⟨c, List.mem_cons_of_mem _ hc, hmark⟩
  · exact hbody

end Double

/-- In the text of an integer there are digits, and the sign. -/
theorem toString_int_unmarked (n : Int) :
    ∀ c ∈ (toString n).toList, c.isDigit = true ∨ c = '-' := by
  have hdigits : ∀ m : Nat, ∀ c ∈ (Nat.repr m).toList, c.isDigit = true := by
    intro m c hc
    rw [Nat.toList_repr] at hc
    exact Nat.isDigit_of_mem_toDigits (by decide) (by decide) hc
  intro c hc
  cases n with
  | ofNat n => exact .inl (hdigits n c hc)
  | negSucc n =>
    change c ∈ ("-" ++ Nat.repr (n + 1)).toList at hc
    rw [String.toList_append, List.mem_append] at hc
    rcases hc with hsign | hdigit
    · exact .inr (List.mem_singleton.mp hsign)
    · exact .inl (hdigits (n + 1) c hdigit)

namespace Value

variable {v : Value}

theorem display_float_ne (s : Bool) (m : Nat) (e n : Int) :
    toString n ≠ (Value.float (.finite s m e)).display := by
  intro h
  obtain ⟨c, hc, hmark⟩ := Double.render_marked s m e
  have hrender : (Value.float (.finite s m e)).display = (Double.finite s m e).render .plain := rfl
  rw [← hrender, ← h] at hc
  rcases toString_int_unmarked n c hc with hdigit | rfl
  · rcases hmark with rfl | rfl
    · cases hdigit
    · cases hdigit
  · rcases hmark with hmark | hmark
    · cases hmark
    · cases hmark

/-- The two texts of a primitive are the same unless it is a float of a whole number. -/
theorem primitiveText_eq_resultText_iff (hv : v.isPrimitive = true) :
    v.primitiveText = v.resultText ↔ ∀ x, v = .float x → x.toInt? = none := by
  cases v with
  | text s => exact iff_of_true rfl fun x hx => by cases hx
  | int n => exact iff_of_true rfl fun x hx => by cases hx
  | bool b => exact iff_of_true rfl fun x hx => by cases hx
  | float x =>
    rw [primitiveText, comparedText]
    cases hwhole : x.toInt? with
    | none => exact iff_of_true rfl fun y hy => by rwa [← Value.float.inj hy]
    | some n =>
      refine iff_of_false ?_ fun h => ?_
      · cases x with
        | finite s m e => exact fun heq => display_float_ne s m e n (Except.ok.inj heq)
        | infinite s => cases hwhole
        | nan => cases hwhole
      · cases hwhole.symm.trans (h x rfl)
  | _ => cases hv

end Value

end Choicebook
