import Choicebook.Proofs.Value.Sameness
import Mathlib.Data.List.Basic
import Mathlib.Data.List.Pairwise

/-!
# Mappings as finite maps

What `Entries.insert` and `Entries.update` do to the value of a key, and what keeps the keys of a
mapping apart. Where they are apart, the values do not depend on the order of the entries
(`Entries.Distinct.get?_perm`).

Two mappings are compared through `Entries.get?` at the values that can be keys. The order of the
entries does not matter for that, nor does it matter which of several equal keys an entry was added
under.
-/

namespace Choicebook

namespace Entries

/-! ### Mappings without repeated keys -/

/-- No key of a mapping is the same as a later one. -/
def Distinct (m : Entries) : Prop :=
  m.Pairwise fun a b => a.1.same b.1 = false

instance (m : Entries) : Decidable m.Distinct :=
  inferInstanceAs (Decidable (m.Pairwise fun a b => a.1.same b.1 = false))

theorem distinct_nil : Distinct [] := List.Pairwise.nil

/-- The entries of a mapping after an insertion have the keys of before or the new one. -/
private theorem key_of_mem_insert {k v : Value} {m : Entries} {e : Value × Value}
    (h : e ∈ insert k v m) : e.1 = k ∨ ∃ e' ∈ m, e'.1 = e.1 := by
  induction m with
  | nil =>
    rw [insert, List.mem_singleton] at h
    exact .inl (congrArg Prod.fst h)
  | cons a m ih =>
    rw [insert] at h
    split at h
    · rcases List.mem_cons.mp h with rfl | h
      · exact .inr ⟨a, List.mem_cons_self, rfl⟩
      · exact .inr ⟨e, List.mem_cons_of_mem _ h, rfl⟩
    · rcases List.mem_cons.mp h with rfl | h
      · exact .inr ⟨a, List.mem_cons_self, rfl⟩
      · rcases ih h with h | ⟨e', he', hk⟩
        · exact .inl h
        · exact .inr ⟨e', List.mem_cons_of_mem _ he', hk⟩

theorem Distinct.insert {m : Entries} (hm : m.Distinct) (k v : Value) :
    Distinct (Entries.insert k v m) := by
  induction hm with
  | nil => exact List.pairwise_singleton _ _
  | @cons a m ha hm ih =>
    rw [Entries.insert]
    split
    · exact hm.cons ha
    · next hk =>
      refine ih.cons fun e he => ?_
      rcases key_of_mem_insert he with rfl | ⟨e', he', hke⟩
      · simpa using hk
      · exact hke ▸ ha e' he'

theorem Distinct.update {m : Entries} (hm : m.Distinct) (extra : Entries) :
    (m.update extra).Distinct := by
  induction extra generalizing m with
  | nil => exact hm
  | cons e extra ih => exact ih (hm.insert e.1 e.2)

theorem Distinct.erase {m : Entries} (hm : m.Distinct) (k : Value) : (m.erase k).Distinct :=
  hm.filter _

/-! ### The value of a key -/

theorem get?_nil (k : Value) : get? [] k = none := rfl

theorem get?_cons (e : Value × Value) (m : Entries) (k : Value) :
    get? (e :: m) k = if e.1.same k then some e.2 else m.get? k := by
  rw [get?, List.find?_cons]
  split <;> simp_all [get?]

/-- Insertion sets the value of the key and no other. -/
theorem get?_insert (m : Entries) {k : Value} (v : Value) {j : Value} (hj : j.canBeKey = true) :
    get? (insert k v m) j = if k.same j then some v else m.get? j := by
  induction m with
  | nil => simp only [insert, get?_cons, get?_nil]
  | cons a m ih =>
    rw [insert]
    split
    · next hak =>
      -- the entry keeps its old key, which is the same as the new one
      rw [get?_cons, get?_cons]
      by_cases hkj : k.same j = true
      · have hk := Value.canBeKey_of_same hkj hj
        simp only [Value.same_left_congr hak hk j, if_pos hkj]
      · -- were the old key the same as `j`, then `j` would be the same as the new one
        have haj : ¬a.1.same j = true := fun haj =>
          hkj (Value.same_trans (Value.canBeKey_of_same_right hak (Value.canBeKey_of_same haj hj))
            (Value.same_symm (Value.canBeKey_of_same haj hj) hak) haj)
        simp only [if_neg haj, if_neg hkj]
    · next hak =>
      rw [get?_cons, get?_cons, ih]
      by_cases hkj : k.same j = true
      · have hk := Value.canBeKey_of_same hkj hj
        have haj : ¬a.1.same j = true := fun haj =>
          hak (Value.same_trans (Value.canBeKey_of_same haj hj) haj (Value.same_symm hk hkj))
        simp only [if_neg haj, if_pos hkj]
      · simp only [if_neg hkj]

/-- Keys that are the same have the same value. -/
theorem get?_congr (m : Entries) {j k : Value} (hjk : j.same k = true) (hk : k.canBeKey = true) :
    m.get? j = m.get? k := by
  simp only [get?, Value.same_right_congr hjk hk]

/-- A key has no value in a mapping whose keys are apart from one that is the same. -/
theorem get?_eq_none_of_apart {m : Entries} {j k : Value} (hm : ∀ e ∈ m, j.same e.1 = false)
    (hjk : j.same k = true) (hk : k.canBeKey = true) : m.get? k = none := by
  have hnone : ∀ e ∈ m, ¬e.1.same k = true := by
    intro e he hek
    have hback := Value.same_symm (Value.canBeKey_of_same hek hk) hek
    have hsame := Value.same_trans (Value.canBeKey_of_same hjk hk) hjk hback
    exact Bool.false_ne_true ((hm e he).symm.trans hsame)
  rw [get?, List.find?_eq_none.mpr hnone]
  rfl

/-- In a mapping without repeated keys, a key has the value of the entry whose key is the same. -/
theorem Distinct.get?_eq_some_iff {m : Entries} (hm : m.Distinct) {k v : Value}
    (hk : k.canBeKey = true) : m.get? k = some v ↔ ∃ e ∈ m, e.1.same k = true ∧ e.2 = v := by
  induction hm with
  | nil => simp [get?_nil]
  | @cons a m ha _ ih =>
    rw [get?_cons, List.exists_mem_cons_iff]
    split
    · next hak =>
      have hrest : ¬∃ e ∈ m, e.1.same k = true ∧ e.2 = v := by
        rw [← ih, get?_eq_none_of_apart ha hak hk]
        exact (Option.some_ne_none v).symm
      rw [or_iff_left hrest, Option.some.injEq, and_iff_right hak]
    · next hak => rw [ih, or_iff_right fun h => hak h.1]

/-- The order of the entries does not matter. -/
theorem Distinct.get?_perm {m n : Entries} (hm : m.Distinct) (hn : n.Distinct) (h : m.Perm n)
    {k : Value} (hk : k.canBeKey = true) : m.get? k = n.get? k := by
  refine Option.ext fun v => ?_
  rw [hm.get?_eq_some_iff hk, hn.get?_eq_some_iff hk]
  exact exists_congr fun e => and_congr_left' h.mem_iff

/-- After an update with distinct keys, a key has the value of the update, or else the one that it
had before. -/
theorem get?_update (m : Entries) {extra : Entries} (hd : extra.Distinct) {k : Value}
    (hk : k.canBeKey = true) : (m.update extra).get? k = (extra.get? k).or (m.get? k) := by
  induction hd generalizing m with
  | nil => rw [get?_nil, Option.none_or]; rfl
  | @cons e extra he hd ih =>
    have hstep : m.update (e :: extra) = Entries.update (insert e.1 e.2 m) extra := rfl
    rw [hstep, ih, get?_insert m e.2 hk, get?_cons]
    split
    · next hek =>
      -- the update sets `k` once only, so nothing after that overwrites the value
      rw [get?_eq_none_of_apart he hek hk, Option.none_or, Option.some_or]
    · rfl

/-- An update keeps the keys that it does not set, whatever keys it sets. -/
theorem get?_of_get?_update_eq_none {m extra : Entries} {k : Value} (hk : k.canBeKey = true)
    (h : (m.update extra).get? k = none) : extra.get? k = none ∧ m.get? k = none := by
  induction extra generalizing m with
  | nil => exact ⟨rfl, h⟩
  | cons e extra ih =>
    have hstep : m.update (e :: extra) = Entries.update (insert e.1 e.2 m) extra := rfl
    obtain ⟨hextra, hm⟩ := ih (hstep ▸ h)
    rw [get?_insert m e.2 hk] at hm
    rw [get?_cons]
    split at hm
    · cases hm
    · next hek => exact ⟨by rw [if_neg hek]; exact hextra, hm⟩

end Entries

end Choicebook
