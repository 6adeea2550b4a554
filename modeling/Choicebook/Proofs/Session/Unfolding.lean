import Choicebook.Proofs.Session.Places
import Choicebook.Session.Interpreter
import Mathlib.Data.List.Forall2
import Mathlib.Data.Option.Basic

/-!
# Commands in the place of others

A command that runs a macro of its own can be unfolded: the commands of that macro take its place.
`Command.Unfolds` and the relations beside it say of two commands, choices or documents that they
are the same except that one command is unfolded in the second, at some of the places where it
stands in the first.

Whatever a session finds in a document by an id, and wherever a selection in a menu leads, the other
document and the other menu have something for it that is the same up to unfolding.
-/

namespace Choicebook

/-- The commands of the macro that a command runs, if it has a macro of its own. -/
def Command.unfolded? : Command → Option (List Command)
  | .nested _ (some (.ofMacro _ (some body))) => some body.commands
  | _ => none

theorem Command.exists_of_unfolded? {c : Command} {body : List Command}
    (h : c.unfolded? = some body) :
    ∃ head inner m, c = .nested head (some (.ofMacro inner (some m))) ∧ m.commands = body := by
  rw [unfolded?.eq_def] at h
  split at h
  · exact ⟨_, _, _, rfl, Option.some.inj h⟩
  · cases h

mutual

/-- Two commands that are the same except that inside of them `c` is replaced by `body` at some
places. -/
inductive Command.Unfolds (c : Command) (body : List Command) : Command → Command → Prop where
  | same (x : Command) : Command.Unfolds c body x x
  | nested (h : CommandHead) {x y : Choice} (hxy : Choice.Unfolds c body x y) :
    Command.Unfolds c body (.nested h (some x)) (.nested h (some y))
  | conditional (h : CommandHead) (condition : Condition)
    {thens thens' elses elses' : List Command} (ht : Command.UnfoldsAll c body thens thens')
    (he : Command.UnfoldsAll c body elses elses') :
    Command.Unfolds c body (.conditional h condition thens elses)
      (.conditional h condition thens' elses')

/-- The same for lists of commands, where `c` may itself be among the commands. -/
inductive Command.UnfoldsAll (c : Command) (body : List Command) :
    List Command → List Command → Prop where
  | nil : Command.UnfoldsAll c body [] []
  | cons {x y : Command} {xs ys : List Command} (h : Command.Unfolds c body x y)
    (hs : Command.UnfoldsAll c body xs ys) : Command.UnfoldsAll c body (x :: xs) (y :: ys)
  | unfold {xs ys : List Command} (hs : Command.UnfoldsAll c body xs ys) :
    Command.UnfoldsAll c body (c :: xs) (body ++ ys)

/-- The same for choices. -/
inductive Choice.Unfolds (c : Command) (body : List Command) : Choice → Choice → Prop where
  | same (x : Choice) : Choice.Unfolds c body x x
  | ofMacro (h : ChoiceHead) (id name : Value) (runOnStartup : Bool) {xs ys : List Command}
    (hs : Command.UnfoldsAll c body xs ys) :
    Choice.Unfolds c body (.ofMacro h (some (.mk id name xs runOnStartup)))
      (.ofMacro h (some (.mk id name ys runOnStartup)))
  | multi (h : ChoiceHead) (collapsed : Bool) {xs ys : List Choice}
    (hs : Choice.UnfoldsAll c body xs ys) :
    Choice.Unfolds c body (.multi h xs collapsed) (.multi h ys collapsed)

/-- The same for lists of choices. -/
inductive Choice.UnfoldsAll (c : Command) (body : List Command) :
    List Choice → List Choice → Prop where
  | nil : Choice.UnfoldsAll c body [] []
  | cons {x y : Choice} {xs ys : List Choice} (h : Choice.Unfolds c body x y)
    (hs : Choice.UnfoldsAll c body xs ys) : Choice.UnfoldsAll c body (x :: xs) (y :: ys)

end

variable {c : Command} {body : List Command}

theorem Command.UnfoldsAll.refl (xs : List Command) : UnfoldsAll c body xs xs := by
  induction xs with
  | nil => exact .nil
  | cons x xs ih => exact .cons (.same x) ih

/-- If the command has any commands of its own, nothing gets lost. -/
theorem Command.UnfoldsAll.ne_nil {xs ys : List Command} (h : UnfoldsAll c body xs ys)
    (hbody : body ≠ []) (hxs : xs ≠ []) : ys ≠ [] := by
  cases h with
  | nil => exact hxs
  | cons => exact List.cons_ne_nil _ _
  | unfold => exact List.append_ne_nil_of_left_ne_nil hbody _

/-! ### Choices -/

namespace Choice

theorem UnfoldsAll.refl (xs : List Choice) : UnfoldsAll c body xs xs := by
  induction xs with
  | nil => exact .nil
  | cons x xs ih => exact .cons (.same x) ih

theorem Unfolds.head_eq {x y : Choice} (h : Unfolds c body x y) : y.head = x.head := by
  cases h <;> rfl

theorem Unfolds.name_eq {x y : Choice} (h : Unfolds c body x y) : y.name = x.name :=
  congrArg ChoiceHead.name h.head_eq

theorem Unfolds.kind_eq {x y : Choice} (h : Unfolds c body x y) : y.kind = x.kind := by
  cases h <;> rfl

theorem UnfoldsAll.names_eq {xs ys : List Choice} (h : UnfoldsAll c body xs ys) :
    ys.map name = xs.map name := by
  induction xs generalizing ys with
  | nil =>
    cases h
    rfl
  | cons x xs ih =>
    cases h with
    | cons hx hs => rw [List.map_cons, List.map_cons, hx.name_eq, ih hs]

theorem UnfoldsAll.getElem? {xs ys : List Choice} (h : UnfoldsAll c body xs ys) (i : Nat) :
    Option.Rel (Unfolds c body) xs[i]? ys[i]? := by
  induction xs generalizing ys i with
  | nil =>
    cases h
    exact .none
  | cons x xs ih =>
    cases h with
    | cons hx hs =>
      cases i with
      | zero => exact .some hx
      | succ i =>
        rw [List.getElem?_cons_succ, List.getElem?_cons_succ]
        exact ih hs i

end Choice

/-! ### Documents -/

/-- Two documents whose choices are the same up to unfolding. -/
def Document.Unfolds (c : Command) (body : List Command) (d d' : Document) : Prop :=
  Choice.UnfoldsAll c body d.choices d'.choices

/-- The same for choices that stand at the same place. -/
structure Placed.Unfolds (c : Command) (body : List Command) (p q : Placed) : Prop where
  choice : Choice.Unfolds c body p.choice q.choice
  place : q.place = p.place

namespace Placed

/-- A choice on its own. -/
theorem Unfolds.alone {x y : Choice} (h : Choice.Unfolds c body x y) :
    Unfolds c body ⟨x, none⟩ ⟨y, none⟩ :=
  ⟨h, rfl⟩

mutual

private theorem under_unfolds (place : List Nat) : ∀ x y : Choice, Choice.Unfolds c body x y →
      List.Forall₂ (Unfolds c body) (under place x) (under place y)
  | .multi h xs collapsed, y, hxy => by
    have hall : ∀ ys, Choice.UnfoldsAll c body xs ys →
        List.Forall₂ (Unfolds c body) (under place (.multi h xs collapsed))
          (under place (.multi h ys collapsed)) := by
      intro ys hys
      rw [under, under]
      exact .cons ⟨.multi h collapsed hys, rfl⟩ (allUnder_unfolds place 0 xs ys hys)
    cases hxy with
    | same => exact hall xs (.refl xs)
    | multi _ _ hys => exact hall _ hys
  | .template h payload, _, .same _ => by
    rw [under_leaf (by rintro _ _ _ ⟨⟩)]
    exact .cons ⟨.same _, rfl⟩ .nil
  | .capture h payload, _, .same _ => by
    rw [under_leaf (by rintro _ _ _ ⟨⟩)]
    exact .cons ⟨.same _, rfl⟩ .nil
  | .ofMacro h b, y, hxy => by
    have hy : ∀ h' xs collapsed, y ≠ .multi h' xs collapsed := by
      rintro h' xs collapsed rfl
      cases hxy
    rw [under_leaf (by rintro _ _ _ ⟨⟩), under_leaf hy]
    exact .cons ⟨hxy, rfl⟩ .nil

private theorem allUnder_unfolds (place : List Nat) (position : Nat) :
    ∀ xs ys : List Choice, Choice.UnfoldsAll c body xs ys →
      List.Forall₂ (Unfolds c body) (allUnder place position xs) (allUnder place position ys)
  | [], _, .nil => by
    rw [allUnder]
    exact .nil
  | x :: xs, _, .cons hx hxs => by
    rw [allUnder, allUnder]
    exact List.rel_append (under_unfolds _ x _ hx) (allUnder_unfolds place _ xs _ hxs)

end

/-! Unfolding moves no choice, so the list around a choice is found in both. -/

private theorem listUnder?_unfolds_leaf (wanted place : List Nat) {siblings siblings' : List Choice}
    (hs : Choice.UnfoldsAll c body siblings siblings') {x y : Choice}
    (hx : ∀ h xs collapsed, x ≠ .multi h xs collapsed)
    (hy : ∀ h xs collapsed, y ≠ .multi h xs collapsed) :
    Option.Rel (Choice.UnfoldsAll c body) (listUnder? wanted place siblings x)
      (listUnder? wanted place siblings' y) := by
  rw [listUnder?_leaf hx, listUnder?_leaf hy]
  split
  · exact .some hs
  · exact .none

mutual

private theorem listUnder?_unfolds (wanted place : List Nat) {siblings siblings' : List Choice}
    (hs : Choice.UnfoldsAll c body siblings siblings') :
    ∀ x y : Choice, Choice.Unfolds c body x y →
      Option.Rel (Choice.UnfoldsAll c body) (listUnder? wanted place siblings x)
        (listUnder? wanted place siblings' y)
  | .multi h xs collapsed, y, hxy => by
    have hall : ∀ ys, Choice.UnfoldsAll c body xs ys →
        Option.Rel (Choice.UnfoldsAll c body)
          (listUnder? wanted place siblings (.multi h xs collapsed))
          (listUnder? wanted place siblings' (.multi h ys collapsed)) := by
      intro ys hys
      rw [listUnder?, listUnder?]
      split
      · exact .some hs
      · exact listIn?_unfolds wanted place hys 0 xs ys hys
    cases hxy with
    | same => exact hall xs (.refl xs)
    | multi _ _ hys => exact hall _ hys
  | .template h payload, _, .same _ =>
    listUnder?_unfolds_leaf wanted place hs (by rintro _ _ _ ⟨⟩) (by rintro _ _ _ ⟨⟩)
  | .capture h payload, _, .same _ =>
    listUnder?_unfolds_leaf wanted place hs (by rintro _ _ _ ⟨⟩) (by rintro _ _ _ ⟨⟩)
  | .ofMacro h b, y, hxy => by
    refine listUnder?_unfolds_leaf wanted place hs (by rintro _ _ _ ⟨⟩) ?_
    rintro h' xs collapsed rfl
    cases hxy

private theorem listIn?_unfolds (wanted place : List Nat) {siblings siblings' : List Choice}
    (hs : Choice.UnfoldsAll c body siblings siblings') (position : Nat) :
    ∀ xs ys : List Choice, Choice.UnfoldsAll c body xs ys →
      Option.Rel (Choice.UnfoldsAll c body) (listIn? wanted place siblings position xs)
        (listIn? wanted place siblings' position ys)
  | [], _, .nil => by
    rw [listIn?, listIn?]
    exact .none
  | x :: xs, y :: _, .cons hx hxs => by
    have hunder := listUnder?_unfolds wanted (place ++ [position]) hs x y hx
    rw [listIn?, listIn?]
    generalize listUnder? wanted (place ++ [position]) siblings x = found at hunder ⊢
    generalize listUnder? wanted (place ++ [position]) siblings' y = found' at hunder ⊢
    cases hunder with
    | none => exact listIn?_unfolds wanted place hs (position + 1) xs _ hxs
    | some h => exact .some h

end

/-- What is found by something that does not change is found in both. -/
private theorem find?_unfolds {found : Placed → Bool}
    (hfound : ∀ p q, Unfolds c body p q → found p = found q) {ps qs : List Placed}
    (h : List.Forall₂ (Unfolds c body) ps qs) :
    Option.Rel (Unfolds c body) (ps.find? found) (qs.find? found) := by
  induction h with
  | nil => exact .none
  | @cons p q _ _ hpq _ ih =>
    rw [List.find?_cons, List.find?_cons, ← hfound p q hpq]
    split
    · exact .some hpq
    · exact ih

/-- A choice that is looked up by its id. -/
theorem withId?_unfolds {d d' : Document} (h : d.Unfolds c body d') (id : Value) :
    Option.Rel (Unfolds c body) (withId? d id) (withId? d' id) := by
  refine find?_unfolds (fun p q hpq => ?_) (allUnder_unfolds [] 0 _ _ h)
  rw [Choice.id, Choice.id, hpq.choice.head_eq]

/-- The list around a choice, as the menu around its own. -/
theorem list?_unfolds {d d' : Document} (h : d.Unfolds c body d') {p q : Placed}
    (hpq : Unfolds c body p q) :
    List.Forall₂ (Choice.UnfoldsAll c body) (list? d p).toList (list? d' q).toList := by
  have hlist : Option.Rel (Choice.UnfoldsAll c body) (list? d p) (list? d' q) := by
    rw [list?, list?, hpq.place]
    cases p.place with
    | none => exact .none
    | some place => exact listIn?_unfolds place [] h 0 _ _ h
  generalize list? d p = found at hlist ⊢
  generalize list? d' q = found' at hlist ⊢
  cases hlist with
  | none => exact .nil
  | some hs => exact .cons hs .nil

end Placed

/-- The other choice that a command runs. -/
theorem Running.target?_unfolds {d d' : Document} (h : d.Unfolds c body d') {x y : Command}
    (hxy : Command.Unfolds c body x y) :
    Option.Rel (Placed.Unfolds c body) (target? d x) (target? d' y) := by
  cases hxy with
  | same =>
    cases x with
    | choice _ choiceId => exact Placed.withId?_unfolds h _
    | nested _ inner =>
      cases inner with
      | none => exact .none
      | some x => exact .some (Placed.Unfolds.alone (.same x))
    | _ => exact .none
  | nested _ hxy => exact .some (Placed.Unfolds.alone hxy)
  | conditional => exact .none

/-! ### Menus -/

namespace Menu

/-- Two open menus that are the same up to unfolding. -/
structure Unfolds (c : Command) (body : List Command) (m n : Menu) : Prop where
  choices : Choice.UnfoldsAll c body m.choices n.choices
  outer : List.Forall₂ (Choice.UnfoldsAll c body) m.outer n.outer
  placeholder : n.placeholder = m.placeholder

/-- Two selections that lead to the same up to unfolding. -/
inductive Step.Unfolds (c : Command) (body : List Command) : Step → Step → Prop where
  | cancelled : Step.Unfolds c body .cancelled .cancelled
  | open {m n : Menu} (h : Menu.Unfolds c body m n) : Step.Unfolds c body (.open m) (.open n)
  | run {x y : Choice} (h : Choice.Unfolds c body x y) : Step.Unfolds c body (.run x) (.run y)

theorem Unfolds.labels_eq {m n : Menu} (h : Unfolds c body m n) : n.labels = m.labels := by
  have hempty : n.outer.isEmpty = m.outer.isEmpty := by
    have houter := h.outer
    generalize m.outer = xs at houter ⊢
    generalize n.outer = ys at houter ⊢
    cases houter <;> rfl
  rw [labels, labels, h.choices.names_eq, hempty]

/-- The same selection leads to the same. -/
theorem Unfolds.select {m n : Menu} (h : Unfolds c body m n) (position : Option Nat) :
    Step.Unfolds c body (m.select position) (n.select position) := by
  cases position with
  | none => exact .cancelled
  | some i =>
    have hi := h.choices.getElem? i
    rw [Menu.select.eq_def, Menu.select.eq_def]
    dsimp only
    generalize m.choices[i]? = x at hi ⊢
    generalize n.choices[i]? = y at hi ⊢
    cases hi with
    | none =>
      have houter := h.outer
      generalize m.outer = xs at houter ⊢
      generalize n.outer = ys at houter ⊢
      cases houter with
      | nil => exact .cancelled
      | cons ho hs => exact .open ⟨ho, hs, rfl⟩
    | @some x y hxy =>
      have hopen : ∀ {head : ChoiceHead} {xs ys : List Choice},
          Choice.UnfoldsAll c body xs ys →
          Unfolds c body ⟨xs, m.choices :: m.outer, head.name⟩
            ⟨ys, n.choices :: n.outer, head.name⟩ := fun hs =>
        ⟨hs, .cons h.choices h.outer, rfl⟩
      cases hxy with
      | same =>
        cases x with
        | multi => exact .open (hopen (.refl _))
        | _ => exact .run (.same _)
      | ofMacro _ _ _ _ hs => exact .run (.ofMacro _ _ _ _ hs)
      | multi _ _ hs => exact .open (hopen hs)

end Menu

end Choicebook
