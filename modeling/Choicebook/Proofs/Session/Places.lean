import Choicebook.Session.Basic

/-!
# Where choices stand

A choice of a document is identified by its place, the positions that lead to it through the lists
of choices. `Placed.Stands` says so without a search: the first position is one in the list of the
document, and each further one is a position in the list of the choice before it.

`Placed.list?_eq_some_iff` is what the search for the list around a choice is worth. It finds a list
exactly if something stands there, and then the list in which it stands, however many choices of
the document are alike. Everything that is looked up in a document stands at its place
(`Placed.stands_of_mem_all`).
-/

namespace Choicebook

namespace Placed

/-- From a list of choices, a place leads to a choice in the list `siblings`. -/
inductive Stands : (choices : List Choice) → (place : List Nat) → (siblings : List Choice) →
    Choice → Prop
  | here {cs : List Choice} {i : Nat} {c : Choice} : cs[i]? = some c → Stands cs [i] cs c
  | inside {cs inner siblings : List Choice} {i : Nat} {h : ChoiceHead} {collapsed : Bool}
    {place : List Nat} {c : Choice} : cs[i]? = some (.multi h inner collapsed) →
    Stands inner place siblings c → Stands cs (i :: place) siblings c

theorem Stands.mem {cs siblings : List Choice} {place : List Nat} {c : Choice}
    (h : Stands cs place siblings c) : c ∈ siblings := by
  induction h with
  | here hc => exact List.mem_of_getElem? hc
  | inside _ _ ih => exact ih

theorem Stands.ne_nil {cs siblings : List Choice} {place : List Nat} {c : Choice}
    (h : Stands cs place siblings c) : place ≠ [] := by
  cases h with
  | here => exact List.cons_ne_nil _ _
  | inside => exact List.cons_ne_nil _ _

/-- A place is that of one choice, in one list. -/
theorem Stands.unique {cs siblings siblings' : List Choice} {place : List Nat} {c c' : Choice}
    (h : Stands cs place siblings c) (h' : Stands cs place siblings' c') :
    siblings = siblings' ∧ c = c' := by
  induction h with
  | here hc =>
    cases h' with
    | here hc' => exact ⟨rfl, Option.some.inj (hc.symm.trans hc')⟩
    | inside _ hin => exact absurd rfl hin.ne_nil
  | inside hc hin ih =>
    cases h' with
    | here => exact absurd rfl hin.ne_nil
    | inside hc' hin' =>
      cases hc.symm.trans hc'
      exact ih hin'

/-! ### Choices without choices of their own -/

theorem under_leaf {c : Choice} (hc : ∀ h cs collapsed, c ≠ .multi h cs collapsed)
    (place : List Nat) : under place c = [⟨c, some place⟩] := by
  rw [under]
  exact hc

theorem listUnder?_leaf {c : Choice} (hc : ∀ h cs collapsed, c ≠ .multi h cs collapsed)
    (wanted place : List Nat) (siblings : List Choice) :
    listUnder? wanted place siblings c = if place = wanted then some siblings else none := by
  rw [listUnder?]
  exact hc

/-- A choice either has choices of its own or is all that stands at its place. -/
theorem leaf_or_multi (c : Choice) :
    (∀ h cs collapsed, c ≠ .multi h cs collapsed) ∨ ∃ h cs collapsed, c = .multi h cs collapsed := by
  cases c with
  | multi h cs collapsed => exact .inr ⟨h, cs, collapsed, rfl⟩
  | _ => exact .inl (by rintro _ _ _ ⟨⟩)

/-- A list from a position on, taken apart. -/
private theorem drop_eq_cons {siblings cs : List Choice} {position : Nat} {c : Choice}
    (h : siblings.drop position = c :: cs) :
    siblings[position]? = some c ∧ siblings.drop (position + 1) = cs := by
  constructor
  · rw [← List.head?_drop, h, List.head?_cons]
  · rw [← List.drop_drop, h, List.drop_succ_cons, List.drop_zero]

/-! ### What is looked up -/

mutual

private theorem stands_of_mem_under {siblings : List Choice} {place : List Nat} {i : Nat}
    {c : Choice} (hc : siblings[i]? = some c) {p : Placed} (hp : p ∈ under (place ++ [i]) c) :
    ∃ rest l, p.place = some (place ++ rest) ∧ Stands siblings rest l p.choice := by
  cases c with
  | multi h cs collapsed =>
    rw [under, List.mem_cons] at hp
    rcases hp with rfl | hp
    · exact ⟨[i], siblings, rfl, .here hc⟩
    · obtain ⟨rest, l, hplace, hstands⟩ := stands_of_mem_allUnder cs 0 cs List.drop_zero hp
      exact ⟨i :: rest, l, by rw [hplace, List.append_assoc, List.singleton_append],
        .inside hc hstands⟩
  | _ =>
    rw [under_leaf (by rintro _ _ _ ⟨⟩), List.mem_singleton] at hp
    subst hp
    exact ⟨[i], siblings, rfl, .here hc⟩

private theorem stands_of_mem_allUnder {place : List Nat} (siblings : List Choice) (position : Nat)
    (cs : List Choice) (hcs : siblings.drop position = cs) {p : Placed}
    (hp : p ∈ allUnder place position cs) :
    ∃ rest l, p.place = some (place ++ rest) ∧ Stands siblings rest l p.choice := by
  cases cs with
  | nil => cases hp
  | cons c cs =>
    obtain ⟨hc, hdrop⟩ := drop_eq_cons hcs
    rw [allUnder, List.mem_append] at hp
    rcases hp with hp | hp
    · exact stands_of_mem_under hc hp
    · exact stands_of_mem_allUnder siblings (position + 1) cs hdrop hp

end

/-- Every choice of a document stands at its place. -/
theorem stands_of_mem_all {d : Document} {p : Placed} (hp : p ∈ all d) :
    ∃ place l, p.place = some place ∧ Stands d.choices place l p.choice :=
  stands_of_mem_allUnder d.choices 0 d.choices List.drop_zero hp

/-! ### The list around a choice -/

mutual

private theorem stands_of_listUnder? {wanted place : List Nat} {siblings l : List Choice} {i : Nat}
    {c : Choice} (hc : siblings[i]? = some c)
    (h : listUnder? wanted (place ++ [i]) siblings c = some l) :
    ∃ rest x, wanted = place ++ i :: rest ∧ Stands siblings (i :: rest) l x := by
  cases c with
  | multi head cs collapsed =>
    rw [listUnder?] at h
    split at h
    · next heq =>
      cases h
      exact ⟨[], _, heq.symm, .here hc⟩
    · obtain ⟨rest, x, heq, hstands⟩ := stands_of_listIn? cs 0 cs List.drop_zero h
      exact ⟨rest, x, by rw [heq, List.append_assoc, List.singleton_append], .inside hc hstands⟩
  | _ =>
    rw [listUnder?_leaf (by rintro _ _ _ ⟨⟩)] at h
    split at h
    · next heq =>
      cases h
      exact ⟨[], _, heq.symm, .here hc⟩
    · cases h

private theorem stands_of_listIn? {wanted place : List Nat} {l : List Choice}
    (siblings : List Choice) (position : Nat) (cs : List Choice)
    (hcs : siblings.drop position = cs) (h : listIn? wanted place siblings position cs = some l) :
    ∃ rest x, wanted = place ++ rest ∧ Stands siblings rest l x := by
  cases cs with
  | nil => cases h
  | cons c cs =>
    obtain ⟨hc, hdrop⟩ := drop_eq_cons hcs
    rw [listIn?] at h
    split at h
    · next found hfound =>
      cases h
      obtain ⟨rest, x, heq, hstands⟩ := stands_of_listUnder? hc hfound
      exact ⟨position :: rest, x, heq, hstands⟩
    · exact stands_of_listIn? siblings (position + 1) cs hdrop h

end

/-- Whatever comes before the position that a place begins with is passed over. -/
private theorem listIn?_drop {place rest : List Nat} {siblings : List Choice} {i : Nat} {c : Choice}
    (hc : siblings[i]? = some c) (n : Nat) {position : Nat} (hi : position + n = i) :
    listIn? (place ++ i :: rest) place siblings position (siblings.drop position) =
      listIn? (place ++ i :: rest) place siblings i (siblings.drop i) := by
  induction n generalizing position with
  | zero => rw [← hi, Nat.add_zero]
  | succ n ih =>
    have hlt : position < siblings.length := by
      have := (List.getElem?_eq_some_iff.mp hc).1
      omega
    have hother : listUnder? (place ++ i :: rest) (place ++ [position]) siblings
        siblings[position] = none := by
      refine Option.eq_none_iff_forall_ne_some.mpr fun l hfound => ?_
      obtain ⟨rest', x, heq, -⟩ := stands_of_listUnder? (List.getElem?_eq_getElem hlt) hfound
      have := (List.cons.inj (List.append_cancel_left heq)).1
      omega
    rw [List.drop_eq_getElem_cons hlt, listIn?, hother]
    exact ih (by omega)

/-- The choice at the first position of a place is reached, and the search ends in it. -/
private theorem listIn?_of_listUnder? {cs l : List Choice} {i : Nat} {x : Choice}
    {place rest : List Nat} (hx : cs[i]? = some x)
    (h : listUnder? (place ++ i :: rest) (place ++ [i]) cs x = some l) :
    listIn? (place ++ i :: rest) place cs 0 cs = some l := by
  obtain ⟨hlt, rfl⟩ := List.getElem?_eq_some_iff.mp hx
  have hskip : listIn? (place ++ i :: rest) place cs 0 (cs.drop 0) =
      listIn? (place ++ i :: rest) place cs i (cs.drop i) := listIn?_drop hx i (Nat.zero_add i)
  rw [List.drop_zero] at hskip
  rw [hskip, List.drop_eq_getElem_cons hlt, listIn?, h]

private theorem listIn?_of_stands {siblings l : List Choice} {rest : List Nat} {c : Choice}
    (h : Stands siblings rest l c) (place : List Nat) :
    listIn? (place ++ rest) place siblings 0 siblings = some l := by
  induction h generalizing place with
  | @here cs i c hc =>
    refine listIn?_of_listUnder? hc ?_
    rcases leaf_or_multi c with hleaf | ⟨h, inner, collapsed, rfl⟩
    · rw [listUnder?_leaf hleaf, if_pos rfl]
    · rw [listUnder?, if_pos rfl]
  | @inside cs inner _ i h collapsed rest c hc hin ih =>
    refine listIn?_of_listUnder? hc ?_
    have hlater := ih (place ++ [i])
    rw [List.append_assoc, List.singleton_append] at hlater
    have hne : place ++ [i] ≠ place ++ i :: rest := fun heq =>
      hin.ne_nil (List.cons.inj (List.append_cancel_left heq)).2.symm
    rw [listUnder?, if_neg hne, hlater]

/-- **The list around a choice** is the one in which it stands in the document, and there is one
exactly if something stands at its place. -/
theorem list?_eq_some_iff {d : Document} {p : Placed} {l : List Choice} :
    list? d p = some l ↔ ∃ place c, p.place = some place ∧ Stands d.choices place l c := by
  constructor
  · intro h
    obtain ⟨place, hplace, hfound⟩ := Option.bind_eq_some_iff.mp h
    obtain ⟨rest, c, rfl, hstands⟩ := stands_of_listIn? d.choices 0 d.choices List.drop_zero hfound
    exact ⟨_, c, hplace, hstands⟩
  · rintro ⟨place, c, hplace, hstands⟩
    rw [list?, hplace, Option.bind_some]
    exact listIn?_of_stands hstands []

end Placed

end Choicebook
