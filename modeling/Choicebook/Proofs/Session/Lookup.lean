import Choicebook.Proofs.Choice.Grouping
import Choicebook.Proofs.Session.Act
import Choicebook.Session.Entry

/-!
# Looking up macros and choices

A macro choice is looked up by its name, in the order of the document: first as it is written, then
without regard to capitals, and then there must not be two (`SingleMacro.Answers`). Blanks around a
name never matter.

Where a choice stands makes no difference to that, nor to looking up a choice by its id or its whole
name. So choices can be put into a new menu without anything being found differently
(`SingleMacro.find_answers`), except that a menu that is found has the new menu in it if that is
where it went.
-/

namespace Choicebook

variable {σ : Type}

/-! ### One of several -/

section

variable {α : Type} {p : α → Prop} {x : α} {xs : List α}

/-- The first of some things that has a property. -/
def IsFirst (p : α → Prop) (x : α) (xs : List α) : Prop :=
  ∃ before after, xs = before ++ x :: after ∧ p x ∧ ∀ y ∈ before, ¬p y

/-- The only one of some things that has a property. -/
def IsOnly (p : α → Prop) (x : α) (xs : List α) : Prop :=
  ∃ before after, xs = before ++ x :: after ∧ p x ∧ ∀ y ∈ before ++ after, ¬p y

/-- At least two of some things have a property. -/
def Several (p : α → Prop) (xs : List α) : Prop :=
  ∃ x y before between after, xs = before ++ x :: (between ++ y :: after) ∧ p x ∧ p y

variable {b : α → Bool} (h : ∀ x ∈ xs, b x = true ↔ p x)

include h

theorem find?_eq_some_iff_isFirst : xs.find? b = some x ↔ IsFirst p x xs := by
  rw [List.find?_eq_some_iff_append]
  constructor
  · rintro ⟨hx, before, after, rfl, hbefore⟩
    refine ⟨before, after, rfl, (h x (by simp)).mp hx, fun y hy hpy => ?_⟩
    have hy' := (h y (by simp [hy])).mpr hpy
    simpa [hy'] using hbefore y hy
  · rintro ⟨before, after, rfl, hx, hbefore⟩
    refine ⟨(h x (by simp)).mpr hx, before, after, rfl, fun y hy => ?_⟩
    have hy' := mt (h y (by simp [hy])).mp (hbefore y hy)
    simpa using hy'

theorem find?_eq_none_iff_forall : xs.find? b = none ↔ ∀ y ∈ xs, ¬p y := by
  rw [List.find?_eq_none]
  exact forall₂_congr fun y hy => not_congr (h y hy)

theorem filter_eq_nil_iff_forall : xs.filter b = [] ↔ ∀ y ∈ xs, ¬p y := by
  rw [List.filter_eq_nil_iff]
  exact forall₂_congr fun y hy => not_congr (h y hy)

theorem filter_eq_singleton_iff_isOnly : xs.filter b = [x] ↔ IsOnly p x xs := by
  rw [List.filter_eq_cons_iff]
  constructor
  · rintro ⟨before, after, rfl, hbefore, hx, hafter⟩
    refine ⟨before, after, rfl, (h x (by simp)).mp hx, fun y hy hpy => ?_⟩
    rcases List.mem_append.mp hy with hy | hy
    · exact hbefore y hy ((h y (by simp [hy])).mpr hpy)
    · exact List.filter_eq_nil_iff.mp hafter y hy ((h y (by simp [hy])).mpr hpy)
  · rintro ⟨before, after, rfl, hx, hrest⟩
    refine ⟨before, after, rfl, fun y hy hby => ?_, (h x (by simp)).mpr hx, ?_⟩
    · exact hrest y (List.mem_append_left _ hy) ((h y (by simp [hy])).mp hby)
    · refine List.filter_eq_nil_iff.mpr fun y hy hby => ?_
      exact hrest y (List.mem_append_right _ hy) ((h y (by simp [hy])).mp hby)

theorem exists_filter_eq_iff_several :
    (∃ x y more, xs.filter b = x :: y :: more) ↔ Several p xs := by
  constructor
  · rintro ⟨x, y, more, hfilter⟩
    obtain ⟨before, rest, rfl, -, hx, hrest⟩ := List.filter_eq_cons_iff.mp hfilter
    obtain ⟨between, after, rfl, -, hy, -⟩ := List.filter_eq_cons_iff.mp hrest
    exact ⟨x, y, before, between, after, rfl, (h x (by simp)).mp hx, (h y (by simp)).mp hy⟩
  · rintro ⟨x, y, before, between, after, rfl, hx, hy⟩
    have hlength : 2 ≤ (before ++ x :: (between ++ y :: after)).countP b := by
      simp only [List.countP_append, List.countP_cons, (h x (by simp)).mpr hx,
        (h y (by simp)).mpr hy]
      simp only [if_true]
      omega
    rw [List.countP_eq_length_filter] at hlength
    match hfilter : (before ++ x :: (between ++ y :: after)).filter b with
    | [] => simp [hfilter] at hlength
    | [_] => simp [hfilter] at hlength
    | u :: v :: more => exact ⟨u, v, more, rfl⟩

end

/-! ### By the name of a macro -/

namespace SingleMacro

variable {f : String → String} {wanted name reference : String} {c : Choice} {cs : List Choice}

/-- The name of the choice is the wanted one, as far as `f` tells, but for blanks around the two. -/
def NamedUpTo (f : String → String) (wanted : String) (c : Choice) : Prop :=
  ∃ n, c.name = .text n ∧ f (Text.trim n) = f (Text.trim wanted)

/-- The choice has the name, but for blanks around the two. -/
abbrev Named : String → Choice → Prop := NamedUpTo id

/-- The choice has the name, but for capitals and for blanks around the two. -/
abbrev NamedAlike : String → Choice → Prop := NamedUpTo Text.lower

/-- What a look-up by name among some macro choices has to give: the first one with the name, or
else the only one with the name but for capitals; a failure if there are two of these, and another
one if there are none. -/
structure Answers (macros : List Choice) (name reference : String) (result : Except Fault Choice) :
    Prop where
  found (c : Choice) : result = .ok c ↔ IsFirst (Named name) c macros ∨
    (∀ x ∈ macros, ¬Named name x) ∧ IsOnly (NamedAlike name) c macros
  ambiguous : result = .error (.ambiguousReference reference) ↔
    (∀ x ∈ macros, ¬Named name x) ∧ Several (NamedAlike name) macros
  unknown : result = .error (.unknownReference reference) ↔ ∀ x ∈ macros, ¬NamedAlike name x

/-- Whether the name of a choice is the wanted one, as far as `f` tells. -/
def isNamed (f : String → String) (wanted : String) (c : Choice) : Bool :=
  match bareName c.name with
  | .ok n => f n = f (Text.trim wanted)
  | .error _ => false

theorem isNamed_iff (h : ∃ n, c.name = .text n) :
    isNamed f wanted c = true ↔ NamedUpTo f wanted c := by
  obtain ⟨n, hn⟩ := h
  simp [isNamed, NamedUpTo, hn, bareName]

theorem NamedUpTo.alike (h : Named wanted c) : NamedAlike wanted c := by
  obtain ⟨n, hn, heq⟩ := h
  exact ⟨n, hn, congrArg Text.lower heq⟩

/-- The first choice with the name, if all names are texts. -/
theorem exactly?_eq (h : ∀ c ∈ cs, ∃ n, c.name = .text n) :
    exactly? (Text.trim wanted) cs = .ok (cs.find? (isNamed id wanted)) := by
  induction cs with
  | nil => rfl
  | cons c cs ih =>
    obtain ⟨⟨n, hn⟩, hcs⟩ := List.forall_mem_cons.mp h
    have hname : bareName c.name = .ok (Text.trim n) := by rw [hn, bareName]
    have hnamed : isNamed id wanted c = decide (Text.trim n = Text.trim wanted) := by
      rw [isNamed, hname]
      rfl
    rw [exactly?, hname, List.find?_cons, hnamed]
    change (if Text.trim n = Text.trim wanted then _ else _) = _
    by_cases heq : Text.trim n = Text.trim wanted
    · rw [if_pos heq, decide_eq_true heq]
    · rw [if_neg heq, decide_eq_false heq, ih hcs]

/-- What a look-up does with the first choice with the name and those with the name but for
capitals. -/
def answer (reference : String) : Option Choice → List Choice → Act σ Choice
  | some c, _ => pure c
  | none, [c] => pure c
  | none, [] => do
    Act.logFailure ("macro '" ++ reference ++ "' does not exist.")
    Act.fail (.unknownReference reference)
  | none, _ => do
    Act.logFailure ("Ambiguous macro reference '" ++ reference
      ++ "'. Multiple choices match when ignoring case.")
    Act.fail (.ambiguousReference reference)

/-- The result of a look-up tells what was found, and how. -/
theorem answer_iff (reference : String) {exact : Option Choice} {alike : List Choice}
    (h : alike = [] → exact = none) (s : Session σ) :
    (∀ c, ((answer reference exact alike).runOn s).1 = .ok c ↔
      exact = some c ∨ exact = none ∧ alike = [c]) ∧
    (((answer reference exact alike).runOn s).1 = .error (.ambiguousReference reference) ↔
      exact = none ∧ ∃ x y more, alike = x :: y :: more) ∧
    (((answer reference exact alike).runOn s).1 = .error (.unknownReference reference) ↔
      alike = []) := by
  match exact, alike with
  | some c, [] => exact absurd (h rfl) (Option.some_ne_none c)
  | some _, _ :: _ => simp [answer]
  | none, [_] => simp [answer]
  | none, [] => simp [answer, Act.logFailure, Act.runOn_bind]
  | none, _ :: _ :: _ => simp [answer, Act.logFailure, Act.runOn_bind]

/-- A look-up does the same in another document. -/
theorem runOn_answer_document {exact : Option Choice} {alike : List Choice} (s : Session σ)
    (d : Document) : (answer reference exact alike).runOn { s with document := d } =
      (((answer reference exact alike).runOn s).1,
        { ((answer reference exact alike).runOn s).2 with document := d }) := by
  match exact, alike with
  | some _, _ => rfl
  | none, [_] => rfl
  | none, [] => rfl
  | none, _ :: _ :: _ => rfl

variable {s : Session σ} {macros : List Choice}

theorem runOn_find_eq
    (hmacros : (Choice.flattenAll s.document.choices).filter Choice.isMacro = macros)
    (h : ∀ c ∈ macros, ∃ n, c.name = .text n) :
    (find name reference : Act σ Choice).runOn s =
      (answer reference (macros.find? (isNamed id name))
        (macros.filter (isNamed Text.lower name))).runOn s := by
  rw [find, Act.runOn_get_bind]
  simp only [hmacros, exactly?_eq h, Act.expect, pure_bind]
  cases macros.find? (isNamed id name) with
  | some c => rfl
  | none =>
    dsimp only
    match macros.filter (isNamed Text.lower name) with
    | [] => rfl
    | [_] => rfl
    | _ :: _ :: _ => rfl

theorem runOn_find_answers
    (hmacros : (Choice.flattenAll s.document.choices).filter Choice.isMacro = macros)
    (h : ∀ c ∈ macros, ∃ n, c.name = .text n) :
    Answers macros name reference ((find name reference : Act σ Choice).runOn s).1 := by
  have hexact : ∀ c ∈ macros, isNamed id name c = true ↔ Named name c := fun c hc =>
    isNamed_iff (h c hc)
  have halike : ∀ c ∈ macros, isNamed Text.lower name c = true ↔ NamedAlike name c := fun c hc =>
    isNamed_iff (h c hc)
  have hnone : macros.filter (isNamed Text.lower name) = [] →
      macros.find? (isNamed id name) = none := fun hnil =>
    (find?_eq_none_iff_forall hexact).mpr fun c hc hnamed =>
      (filter_eq_nil_iff_forall halike).mp hnil c hc hnamed.alike
  obtain ⟨hfound, hambiguous, hunknown⟩ := answer_iff reference hnone s
  rw [find?_eq_none_iff_forall hexact, exists_filter_eq_iff_several halike] at hambiguous
  rw [filter_eq_nil_iff_forall halike] at hunknown
  rw [runOn_find_eq hmacros h]
  refine ⟨fun c => ?_, hambiguous, hunknown⟩
  rw [hfound, find?_eq_some_iff_isFirst hexact, find?_eq_none_iff_forall hexact,
    filter_eq_singleton_iff_isOnly halike]

end SingleMacro

/-! ### By id and by whole name -/

namespace Placed

mutual

private theorem map_choice_under (place : List Nat) :
    ∀ c : Choice, (under place c).map choice = Choice.flatten c
  | .multi h cs collapsed => by
    rw [under, Choice.flatten, List.map_cons, map_choice_allUnder place 0 cs]
  | .template .. => rfl
  | .capture .. => rfl
  | .ofMacro .. => rfl

theorem map_choice_allUnder (place : List Nat) (position : Nat) :
    ∀ cs : List Choice, (allUnder place position cs).map choice = Choice.flattenAll cs
  | [] => rfl
  | c :: cs => by
    rw [allUnder, Choice.flattenAll, List.map_append, map_choice_under _ c,
      map_choice_allUnder place _ cs]

end

/-- The choice that is found is the first one in the flat list. -/
theorem map_choice_find? (p : Choice → Bool) (d : Document) :
    ((all d).find? fun q => p q.choice).map choice = (Choice.flattenAll d.choices).find? p := by
  rw [← map_choice_allUnder [] 0 d.choices, List.find?_map]
  rfl

end Placed

/-! ### Wherever choices stand -/

namespace Document

/-- The same document, but for a run of choices that has been moved into a new menu. -/
def Grouped (head : ChoiceHead) (collapsed : Bool) (d d' : Document) : Prop :=
  ∃ cs, Choice.Grouped head collapsed d.choices cs ∧ d' = { d with choices := cs }

/-- What is found in two documents, of which one has a new menu, is the same or a menu that now has
the new one in it. The new menu itself is not looked for. -/
structure FoundAlike (head : ChoiceHead) (collapsed : Bool) (d d' : Document) : Prop where
  byId (i : Value) (hnew : head.id.same i = false) :
    Option.Rel (Choice.Regrouped head collapsed) ((Placed.withId? d i).map Placed.choice)
      ((Placed.withId? d' i).map Placed.choice)
  byName (n : Value) (hnew : head.name.same n = false) :
    Option.Rel (Choice.Regrouped head collapsed) ((Placed.withName? d n).map Placed.choice)
      ((Placed.withName? d' n).map Placed.choice)
  allMacros : d'.allMacros = d.allMacros

variable {head : ChoiceHead} {collapsed : Bool} {d d' : Document}

theorem Grouped.foundAlike (h : d.Grouped head collapsed d') : d.FoundAlike head collapsed d' := by
  obtain ⟨cs, hcs, rfl⟩ := h
  refine ⟨fun i hnew => ?_, fun n hnew => ?_, allMacros_grouped hcs⟩
  · rw [Placed.withId?, Placed.withId?, Placed.map_choice_find? fun c => c.id.same i,
      Placed.map_choice_find? fun c => c.id.same i]
    exact hcs.find?_flattenAll (fun h => h.id.same i) hnew
  · rw [Placed.withName?, Placed.withName?, Placed.map_choice_find? fun c => c.name.same n,
      Placed.map_choice_find? fun c => c.name.same n]
    exact hcs.find?_flattenAll (fun h => h.name.same n) hnew

end Document

namespace SingleMacro

variable {s : Session σ}

/-- The macro choices of a document, in the order of the tree. -/
def candidates (d : Document) : List Choice :=
  (Choice.flattenAll d.choices).filter Choice.isMacro

theorem name_of_mem_candidates {d : Document}
    (h : ∀ head body, Choice.Within (.ofMacro head body) d.choices → ∃ n, head.name = .text n) :
    ∀ c ∈ candidates d, ∃ n, c.name = .text n := by
  intro c hc
  obtain ⟨hc, hmacro⟩ := List.mem_filter.mp hc
  cases c with
  | ofMacro head body => exact h head body (Choice.mem_flattenAll_iff.mp hc)
  | _ => cases hmacro

theorem candidates_grouped {head : ChoiceHead} {collapsed : Bool} {d d' : Document}
    (h : d.Grouped head collapsed d') : candidates d' = candidates d := by
  obtain ⟨cs, hcs, rfl⟩ := h
  rw [candidates, candidates, ← List.filterMap_eq_filter]
  exact hcs.filterMap_flattenAll fun _ _ _ => rfl

/-- **A macro is found by its name, wherever it stands.** Let the macro choices of a document have
texts for names. Looking one of them up gives what it has to. If choices that stand side by side,
anywhere in the tree, are moved into a new menu, the look-up does the same; a choice with another id
or name than the new menu is found as before, and the macros of the document are listed as
before. -/
theorem find_answers (name reference : String)
    (hnames : ∀ head body, Choice.Within (.ofMacro head body) s.document.choices →
      ∃ n, head.name = .text n) :
    Answers (candidates s.document) name reference
        ((find name reference : Act σ Choice).runOn s).1 ∧
      ∀ head collapsed d, s.document.Grouped head collapsed d →
        (find name reference : Act σ Choice).runOn { s with document := d } =
          (((find name reference : Act σ Choice).runOn s).1,
            { ((find name reference : Act σ Choice).runOn s).2 with document := d }) ∧
        s.document.FoundAlike head collapsed d := by
  have htexts := name_of_mem_candidates hnames
  refine ⟨runOn_find_answers rfl htexts, fun head collapsed d hgrouped => ?_⟩
  refine ⟨?_, hgrouped.foundAlike⟩
  -- a look-up only sees the macro choices, and these are the same
  have hsame : candidates d = candidates s.document := candidates_grouped hgrouped
  rw [runOn_find_eq (s := { s with document := d }) hsame htexts,
    runOn_find_eq (s := s) rfl htexts, runOn_answer_document]
  rfl

/-- A macro choice with an id and a name. -/
def titled (i name : String) : Choice := .ofMacro ⟨.text name, .text i, false⟩ none

/-- Two macros in a menu, whose names differ in capitals and blanks, and one after the menu. -/
def filed : Document :=
  ⟨[.multi ⟨.text "notes", .text "n", false⟩ [titled "a" " Daily", titled "b" "daily "] false,
    titled "c" "Weekly"], [], []⟩

/-- The two have a menu of their own in the menu. -/
def refiled : Document :=
  ⟨[.multi ⟨.text "notes", .text "n", false⟩
      [.multi ⟨.text "journal", .text "j", false⟩
        [titled "a" " Daily", titled "b" "daily "] true] false,
    titled "c" "Weekly"], [], []⟩

private theorem namedUpTo_titled {f : String → String} {wanted i name : String} :
    NamedUpTo f wanted (titled i name) ↔ f (Text.trim name) = f (Text.trim wanted) := by
  simp [NamedUpTo, titled, Choice.name, Choice.head]

private theorem none_titled {f : String → String} {wanted : String} (titles : List (String × String))
    (h : ∀ t ∈ titles, f (Text.trim t.2) ≠ f (Text.trim wanted)) :
    ∀ c ∈ titles.map fun t => titled t.1 t.2, ¬NamedUpTo f wanted c :=
  List.forall_mem_map.mpr fun t ht => mt namedUpTo_titled.mp (h t ht)

theorem find_answers_refiled :
    let found (name : String) : Except Fault Choice :=
      ((find name name : Act Unit Choice).runOn (.start .preset refiled .start ())).1
    found "daily" = .ok (titled "b" "daily ") ∧
      found "DAILY" = .error (.ambiguousReference "DAILY") ∧
      found "weekly" = .ok (titled "c" "Weekly") ∧
      found "monthly" = .error (.unknownReference "monthly") := by
  have hnames : ∀ head body, Choice.Within (.ofMacro head body) filed.choices →
      ∃ n, head.name = .text n := by
    intro head body h
    have hmem : Choice.ofMacro head body ∈ Choice.flattenAll filed.choices :=
      Choice.mem_flattenAll_iff.mpr h
    simp only [filed, titled, Choice.flattenAll, Choice.flatten, List.cons_append,
      List.nil_append, List.mem_cons, reduceCtorEq, Choice.ofMacro.injEq, List.not_mem_nil,
      or_false, false_or] at hmem
    rcases hmem with ⟨rfl, -⟩ | ⟨rfl, -⟩ | ⟨rfl, -⟩
    · exact ⟨_, rfl⟩
    · exact ⟨_, rfl⟩
    · exact ⟨_, rfl⟩
  have hgrouped : filed.Grouped ⟨.text "journal", .text "j", false⟩ true refiled :=
    ⟨refiled.choices, .inside [] [titled "c" "Weekly"] _ _
      (.here [] [titled "a" " Daily", titled "b" "daily "] []), rfl⟩
  -- what is found does not depend on the new menu, so it is answered for the document as it was
  have hfound (name : String) :
      Answers [titled "a" " Daily", titled "b" "daily ", titled "c" "Weekly"] name name
        ((find name name : Act Unit Choice).runOn (.start .preset refiled .start ())).1 := by
    obtain ⟨hanswers, hmoved⟩ :=
      find_answers (s := .start .preset filed .start ()) name name hnames
    have hsame := (hmoved _ _ _ hgrouped).1
    exact hsame ▸ hanswers
  refine ⟨?_, ?_, ?_, ?_⟩
  · refine ((hfound "daily").found _).mpr (.inl ⟨[titled "a" " Daily"], [titled "c" "Weekly"],
      rfl, namedUpTo_titled.mpr (by decide +kernel), ?_⟩)
    exact none_titled [("a", " Daily")] (by decide +kernel)
  · refine (hfound "DAILY").ambiguous.mpr ⟨?_, titled "a" " Daily", titled "b" "daily ", [], [],
      [titled "c" "Weekly"], rfl, ?_, ?_⟩
    · exact none_titled [("a", " Daily"), ("b", "daily "), ("c", "Weekly")] (by decide +kernel)
    · exact namedUpTo_titled.mpr (by decide +kernel)
    · exact namedUpTo_titled.mpr (by decide +kernel)
  · refine ((hfound "weekly").found _).mpr (.inr ⟨?_, [titled "a" " Daily", titled "b" "daily "],
      [], rfl, namedUpTo_titled.mpr (by decide +kernel), ?_⟩)
    · exact none_titled [("a", " Daily"), ("b", "daily "), ("c", "Weekly")] (by decide +kernel)
    · exact none_titled [("a", " Daily"), ("b", "daily ")] (by decide +kernel)
  · refine (hfound "monthly").unknown.mpr ?_
    exact none_titled [("a", " Daily"), ("b", "daily "), ("c", "Weekly")] (by decide +kernel)

end SingleMacro

end Choicebook
