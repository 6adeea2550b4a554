import Choicebook.Proofs.Choice.Macros

/-!
# Choices moved into a new menu

Choices that stand side by side can be moved into a new menu that takes their place
(`Choice.Grouped`). The flat list of choices then has the new menu in it, and each menu around it
has other choices, but nothing else changes: neither what is in the list nor its order. So whatever
is looked for by the head of a choice is found as before, unless it is the new menu
(`Choice.Grouped.find?_flattenAll`), and the macros of a document are listed as before
(`Document.allMacros_grouped`).
-/

namespace Choicebook

namespace Choice

variable {head : ChoiceHead} {collapsed : Bool} {cs cs' : List Choice}

/-- In a list or, at any depth, in a menu of it, a run of choices is moved into a new menu. -/
inductive Grouped (head : ChoiceHead) (collapsed : Bool) : List Choice → List Choice → Prop
  | here (before run after : List Choice) :
      Grouped head collapsed (before ++ run ++ after) (before ++ multi head run collapsed :: after)
  | inside (before after : List Choice) (h : ChoiceHead) (isCollapsed : Bool)
      {inner inner' : List Choice} (hinner : Grouped head collapsed inner inner') :
      Grouped head collapsed (before ++ multi h inner isCollapsed :: after)
        (before ++ multi h inner' isCollapsed :: after)

/-- The same choice, or the same menu but for a run of choices that has been moved into a new menu
in it. -/
inductive Regrouped (head : ChoiceHead) (collapsed : Bool) : Choice → Choice → Prop
  | same (c : Choice) : Regrouped head collapsed c c
  | menu (h : ChoiceHead) (isCollapsed : Bool) {inner inner' : List Choice}
      (hinner : Grouped head collapsed inner inner') :
      Regrouped head collapsed (multi h inner isCollapsed) (multi h inner' isCollapsed)

/-! ### The flat list -/

theorem flattenAll_append (cs more : List Choice) :
    flattenAll (cs ++ more) = flattenAll cs ++ flattenAll more := by
  rw [flattenAll_eq, flattenAll_eq, flattenAll_eq, List.flatMap_append]

theorem flattenAll_multi_cons (h : ChoiceHead) (inner : List Choice) (isCollapsed : Bool)
    (after : List Choice) : flattenAll (multi h inner isCollapsed :: after) =
      multi h inner isCollapsed :: (flattenAll inner ++ flattenAll after) := by
  rw [flattenAll, flatten, List.cons_append]

/-- What menus have no part in is the same, in the same order. -/
theorem Grouped.filterMap_flattenAll (hgrouped : Grouped head collapsed cs cs') {β : Type}
    {f : Choice → Option β} (hf : ∀ h inner b, f (multi h inner b) = none) :
    (flattenAll cs').filterMap f = (flattenAll cs).filterMap f := by
  induction hgrouped with
  | here before run after =>
    simp only [flattenAll_append, flattenAll_multi_cons, List.filterMap_append,
      List.filterMap_cons_none (hf _ _ _), List.append_assoc]
  | inside before after h isCollapsed _ ih =>
    simp only [flattenAll_append, flattenAll_multi_cons, List.filterMap_append,
      List.filterMap_cons_none (hf _ _ _), ih]

private theorem rel_same (x : Option Choice) : Option.Rel (Regrouped head collapsed) x x := by
  cases x with
  | none => exact .none
  | some c => exact .some (.same c)

/-- What is looked for by its head, and is not the new menu, is found as before. -/
theorem Grouped.find?_flattenAll (hgrouped : Grouped head collapsed cs cs')
    (p : ChoiceHead → Bool) (hnew : p head = false) :
    Option.Rel (Regrouped head collapsed) ((flattenAll cs).find? fun c => p c.head)
      ((flattenAll cs').find? fun c => p c.head) := by
  induction hgrouped with
  | here before run after =>
    have hmenu : p (multi head run collapsed).head = false := hnew
    simp only [flattenAll_append, flattenAll_multi_cons, List.find?_append, List.find?_cons, hmenu,
      Option.or_assoc]
    exact rel_same _
  | inside before after h isCollapsed hinner ih =>
    simp only [flattenAll_append, flattenAll_multi_cons, List.find?_append, List.find?_cons]
    refine rel_or (rel_same _) ?_
    cases hp : p h with
    | true =>
      -- the menu around the change is found itself
      simp only [Choice.head, hp]
      exact .some (.menu h isCollapsed hinner)
    | false =>
      simp only [Choice.head, hp]
      exact rel_or ih (rel_same _)

end Choice

/-- The list of macros is as before. -/
theorem Document.allMacros_grouped {d : Document} {head : ChoiceHead} {collapsed : Bool}
    {cs : List Choice} (h : Choice.Grouped head collapsed d.choices cs) :
    { d with choices := cs }.allMacros = d.allMacros := by
  rw [allMacros, allMacros, h.filterMap_flattenAll fun _ _ _ => rfl]

end Choicebook
