import Choicebook.Session.Interpreter

/-!
# What is inside of an export

The engine gets from the export of a script to the functions in it by asking for members, and for
members of those. `Value.Leads` is about all that can be reached so. A property of the functions of
an export is a property of all functions that it leads to, and then of each member, too.

A script is `Value.Solitary` if no function of its export runs another choice.
-/

namespace Choicebook

namespace Value

/-- A value is another one or is inside of it, where members can be asked for. -/
inductive Leads (v : Value) : Value → Prop where
  | self : Leads v v
  | member {w u key : Value} (h : Leads v w) (hu : w.memberOf? key = .ok (some u)) : Leads v u

theorem Leads.trans {v w u : Value} (h : v.Leads w) (g : w.Leads u) : v.Leads u := by
  induction g with
  | self => exact h
  | member _ hu ih => exact ih.member hu

/-- A value without members leads to itself only. -/
theorem Leads.eq_of_memberless {v w : Value} (hv : ∀ key u, v.memberOf? key ≠ .ok (some u))
    (h : v.Leads w) : w = v := by
  induction h with
  | self => rfl
  | member _ hu ih =>
    subst ih
    exact absurd hu (hv _ _)

theorem memberOf?_function (label : String) (arity : Arity) (steps : List Step) (key u : Value) :
    (function label arity steps).memberOf? key ≠ .ok (some u) := by
  cases key <;> nofun

/-- A member that is smaller is a member. -/
theorem memberOf?_of_smaller {v : Value} {name : String} {m : v.Smaller}
    (h : v.smallerMember? name = .ok (some m)) : v.memberOf? (.text name) = .ok (some m.1) := by
  rw [smallerMember?] at h
  split at h
  · next w hw =>
    cases h
    exact hw
  · cases h
  · cases h

end Value

namespace Value

/-- Names lead from a value to one inside of it, each to a member of the value before. -/
inductive Names : Value → List String → Value → Prop where
  | nil {v : Value} : Names v [] v
  | cons {v u w : Value} {name : String} {path : List String}
    (hu : v.member? name = .ok (some u)) (h : Names u path w) : Names v (name :: path) w

theorem Names.leads {v w : Value} {path : List String} (h : Names v path w) : v.Leads w := by
  induction h with
  | nil => exact .self
  | @cons v u w name path hu _ ih =>
    have hmember : v.memberOf? (.text name) = .ok (some u) := hu
    exact (Leads.self.member hmember).trans ih

/-- Names are followed by any function that finds the members of values. -/
theorem foldlM_eq_ok_iff {find : Value → String → Except Fault Value}
    (hfind : ∀ v name u, find v name = .ok u ↔ v.member? name = .ok (some u)) {path : List String}
    {v w : Value} : path.foldlM find v = .ok w ↔ Names v path w := by
  induction path generalizing v with
  | nil =>
    constructor
    · rintro ⟨⟩
      exact .nil
    · rintro ⟨⟩
      rfl
  | cons name path ih =>
    rw [List.foldlM_cons]
    constructor
    · intro h
      cases hu : find v name with
      | error f =>
        rw [hu] at h
        cases h
      | ok u =>
        rw [hu] at h
        exact .cons ((hfind v name u).mp hu) (ih.mp h)
    · rintro (_ | ⟨hu, h⟩)
      rw [(hfind _ _ _).mpr hu]
      exact ih.mpr h

private theorem bind_eq_ok_iff {x : Except Fault Value} {g : Value → Except Fault Value}
    {w : Value} : (x >>= g) = .ok w ↔ ∃ m, x = .ok m ∧ g m = .ok w := by
  constructor
  · intro h
    cases x with
    | error f => cases h
    | ok m => exact ⟨m, rfl, h⟩
  · rintro ⟨m, rfl, h⟩
    exact h

/-- Following names that lead to a value other than null finds it. -/
theorem follow_eq_ok_iff {owner : String} {path : List String} {v w : Value} :
    v.follow owner path = .ok w ↔ Names v path w ∧ (w = .null → path = []) := by
  rw [follow, bind_eq_ok_iff]
  refine (exists_congr fun m => and_congr_left' (foldlM_eq_ok_iff ?_)).trans ?_
  · intro v name u
    cases v.member? name with
    | error f =>
      constructor
      · rintro ⟨⟩
      · rintro ⟨⟩
    | ok m =>
      cases m with
      | none =>
        constructor
        · rintro ⟨⟩
        · rintro ⟨⟩
      | some m =>
        constructor
        · rintro ⟨⟩
          rfl
        · rintro ⟨⟩
          rfl
  · -- a null at the end of a path is refused, as if the name were missing
    constructor
    · rintro ⟨m, hnames, hend⟩
      split at hend
      · cases hend
      · next hother =>
        cases hend
        refine ⟨hnames, fun hnull => ?_⟩
        rcases List.eq_nil_or_concat path with hnil | ⟨init, last, hlast⟩
        · exact hnil
        · exact absurd (by rw [hlast, List.concat_eq_append, List.getLast?_concat])
            (hother last hnull)
    · rintro ⟨hnames, hpath⟩
      refine ⟨w, hnames, ?_⟩
      split
      · next last hlast =>
        rw [hpath rfl] at hlast
        cases hlast
      · rfl

theorem leads_of_follow {owner : String} {path : List String} {v w : Value}
    (h : v.follow owner path = .ok w) : v.Leads w :=
  (follow_eq_ok_iff.mp h).1.leads

end Value

/-! ### Scripts that run no other choice -/

mutual

/-- The step does not run another choice. -/
def Step.isSolitary : Step → Bool
  | .runChoice _ _ => false
  | .attempt steps _ => areSolitary steps
  | _ => true

/-- None of the steps runs another choice. -/
def Step.areSolitary : List Step → Bool
  | [] => true
  | s :: rest => isSolitary s && areSolitary rest

end

namespace Value

/-- No function of an export runs another choice. -/
def Solitary (v : Value) : Prop :=
  ∀ label arity steps, v.Leads (.function label arity steps) → Step.areSolitary steps = true

theorem Solitary.of_leads {v w : Value} (h : v.Solitary) (hw : v.Leads w) : w.Solitary :=
  fun label arity steps hf => h label arity steps (hw.trans hf)

theorem Solitary.member {v w key : Value} (h : v.Solitary)
    (hw : v.memberOf? key = .ok (some w)) : w.Solitary :=
  h.of_leads (Leads.self.member hw)

theorem solitary_function {label : String} {arity : Arity} {steps : List Step}
    (h : Step.areSolitary steps = true) : (function label arity steps).Solitary := by
  intro label' arity' steps' hf
  cases hf.eq_of_memberless (memberOf?_function label arity steps)
  exact h

end Value

end Choicebook
