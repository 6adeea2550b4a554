import Mathlib
import Choicebook.Proofs.Session.Cancellation
import Choicebook.Proofs.Session.Runs
import Choicebook.Session.Entry

/-!
# What a script finds after another choice

A script can hand variables to another choice and run it. Afterwards no cancellation is pending, and
the shared variables are empty, so that nothing of the choice is left over for the commands that
come later. `Call.runStep_leaves` says when this is so: if the choice returns, also if it returns
with a cancellation. A choice that fails takes the step with it before the shared variables are
cleared, and a script that carries on from there finds them as the choice has left them. A choice
that is refused for its depth has not even begun, and leaves just what was handed to it.

The rehearsal at the end is a script that hands a variable to a choice that fails, carries on, and
still finds the variable among the shared ones.
-/

namespace Choicebook

variable {σ : Type}

/-! ### After the choice -/

/-- How a step of a script ends that runs another choice, given how the choice ends. -/
structure Call.Leaves {α : Type} (target : Except Fault Unit × Session σ)
    (run : Except Fault (Option α) × Session σ) : Prop where
  /-- Nothing is pending, however the choice ends. -/
  pending : run.2.pending = none
  frame : run.2.frame = target.2.frame
  /-- A choice that returns leaves nothing shared, and the step fails if it was cancelled. -/
  returned : target.1 = .ok () → run.2.shared = [] ∧
    run.1 = match target.2.pending with
      | none => .ok none
      | some reason => .error (.cancelled reason)
  /-- A choice that fails, other than by a cancellation, leaves the shared variables as they are,
  and the step fails with it. -/
  failed : ∀ f, target.1 = .error f → f.isCancelled = false ∧
    run.2.shared = target.2.shared ∧ run.1 = .error f

variable {host : Host σ} {s : Session σ}

namespace Call

/-- The variables that a value hands over: none if it counts as false. -/
def handed (vars : Value) : Except Fault Entries :=
  if vars.isTruthy then vars.toEntries else .ok []

theorem runOn_handOver {vars : Value} {es : Entries} (h : handed vars = .ok es) :
    (handOver vars).runOn s = (.ok (), { s with shared := s.shared.update es }) := by
  rw [handed] at h
  rw [handOver]
  split at h
  · next htruthy => rw [if_pos htruthy, h]; rfl
  · next hfalsy =>
    cases h
    rw [if_neg hfalsy]
    rfl

/-- The step is the choice and what comes after it, once the variables have been handed over. -/
theorem runOn_runStep_runChoice {execute : Placed → Act σ Unit} {c : Call}
    (hc : (c.hasParameters && c.inSession) = true) {name : String} {vars : Value} {p : Placed}
    (hfound : Placed.withName? s.document (.text name) = some p) {es : Entries}
    (hvars : handed vars = .ok es) :
    (c.runStep host execute (.runChoice name vars)).runOn s =
      (do
        enter execute p
        return (none : Option Value)).runOn { s with shared := s.shared.update es } := by
  have hneed : (need (c.hasParameters && c.inSession)).runOn s = (.ok (), s) := by
    rw [hc]
    rfl
  have hrun : (Call.runChoice execute name vars).runOn s =
      (enter execute p).runOn { s with shared := s.shared.update es } := by
    rw [Call.runChoice, Act.runOn_get_bind, hfound]
    exact Act.runOn_bind_ok (runOn_handOver hvars) _
  rw [runStep, Act.runOn_bind_ok hneed, Act.runOn_bind, Act.runOn_bind, hrun]

/-- What is shared is cleared after the choice, unless that fails. -/
theorem enter_leaves {execute : Placed → Act σ Unit} {p : Placed}
    (h : Session.Ends s.depth (s.remember .lent) ((execute p).runOn (s.remember .lent))) :
    Leaves ((execute p).runOn (s.remember .lent)) ((do
      enter execute p
      return (none : Option Value)).runOn s) := by
  cases hrun : (execute p).runOn (s.remember .lent) with
  | mk result t =>
    rw [hrun] at h
    cases result with
    | error f =>
      obtain ⟨hf, hp⟩ := h.fault f rfl
      rw [Act.runOn_bind_error (runOn_enter_error hrun)]
      refine ⟨hp, rfl, by rintro ⟨⟩, ?_⟩
      rintro _ ⟨⟩
      exact ⟨hf, rfl, rfl⟩
    | ok _ =>
      cases hp : t.pending with
      | none =>
        rw [Act.runOn_bind_ok (runOn_enter_ok hrun hp)]
        exact ⟨hp, rfl, fun _ => ⟨rfl, by rw [hp]; rfl⟩, by rintro _ ⟨⟩⟩
      | some reason =>
        rw [Act.runOn_bind_error (runOn_enter_cancelled hrun hp)]
        exact ⟨rfl, rfl, fun _ => ⟨rfl, by rw [hp]⟩, by rintro _ ⟨⟩⟩

end Call

/-- At the nesting limit a choice fails, and leaves the variables as they are. -/
theorem Choice.executeAt_refused (levels : Nat) (p : Placed)
    (hlimit : s.config.maxDepth ≤ s.depth) :
    ((executeAt host levels p).runOn s).1 =
        .error (.tooDeep p.choice.name.display s.config.maxDepth) ∧
      ((executeAt host levels p).runOn s).2.shared = s.shared := by
  cases levels with
  | zero => exact ⟨rfl, rfl⟩
  | succ levels =>
    rw [executeAt, runOn_executeOnce_refused hlimit]
    exact ⟨rfl, rfl⟩

/-! ### A variable that is left over -/

namespace Rehearsal

/-- A macro whose only command fails, by name `bad`. -/
def bad : Choice :=
  .ofMacro ⟨.text "bad", .text "bad", false⟩
    (some (.mk (.text "bad") (.text "bad") [.host ⟨.text "boom", .text "boom"⟩ "boom"] false))

/-- A macro with one command, the script `try`. -/
def trying : Placed :=
  ⟨.ofMacro ⟨.text "trying", .text "trying", false⟩
    (some (.mk (.text "trying") (.text "trying")
      [.script ⟨.text "try", .text "try"⟩ "try" [] 0] false)), none⟩

/-- A session that has just begun, with a host that fails at `boom`. The script `try` hands `leak`
to the choice `bad`, carries on when that fails, and records what is shared then. -/
def leaky : Session Rehearsal :=
  let vars : Value := .map [(.text "leak", .bool true)]
  let steps : List Step := [.attempt [.runChoice "bad" vars] "caught", .recordShared]
  .start .preset ⟨[trying.choice, bad], [], []⟩ .start
    ⟨[("try", .function "try" .one steps)], [], ["boom"], [], false, none, false⟩

end Rehearsal

/-- **When a choice that a script runs leaves nothing behind.** Let a script run a choice by a name
that can be found, on whatever level, and hand the variables `es` to it. However the choice ends, no
cancellation is pending afterwards. If the choice returns, cancelled or not, the shared variables
are empty. If it fails, they are what the choice has left; if it is refused at the nesting limit,
they are those of before together with the ones that were handed over. -/
theorem Call.runStep_leaves (hd : host.Discreet) (levels : Nat) (c : Call)
    (hc : (c.hasParameters && c.inSession) = true) (name : String) (p : Placed)
    (hfound : Placed.withName? s.document (.text name) = some p) (vars : Value) (es : Entries)
    (hvars : handed vars = .ok es)
    (hs : host.SteadyFor (Choice.executeAt · levels p)
      ({ s with shared := s.shared.update es }.remember .lent))
    (hp : s.pending = none) :
    let given := { s with shared := s.shared.update es }.remember .lent
    let target := (Choice.executeAt host levels p).runOn given
    let run := (c.runStep host (Choice.executeAt host levels) (.runChoice name vars)).runOn s
    Leaves target run ∧
      (s.config.maxDepth ≤ s.depth →
        run.1 = .error (.tooDeep p.choice.name.display s.config.maxDepth) ∧
        run.2.shared = s.shared.update es) := by
  intro given target run
  have hends := Choice.executeAt_ends (s := given) hd.steadied host.steadied_steady levels p hp
  rw [show (Choice.executeAt host.steadied levels p).runOn given = target from hs] at hends
  have hleaves := enter_leaves (s := { s with shared := s.shared.update es }) hends
  have hrun : run = _ := runOn_runStep_runChoice hc hfound hvars
  rw [hrun]
  refine ⟨hleaves, fun hlimit => ?_⟩
  obtain ⟨hfault, hshared⟩ : target.1 = _ ∧ target.2.shared = _ :=
    Choice.executeAt_refused levels p hlimit
  obtain ⟨-, hkept, hfails⟩ := hleaves.failed _ hfault
  exact ⟨hfails, hkept.trans hshared⟩

/-- The step of the script `try` in a session that runs it. -/
theorem Call.runStep_leaves_leaky :
    let vars : Value := .map [(.text "leak", .bool true)]
    let execute := Choice.executeAt Rehearsal.host 2
    let target := (execute ⟨Rehearsal.bad, some [1]⟩).runOn
      ({ Rehearsal.leaky with shared := [(.text "leak", .bool true)] }.remember .lent)
    let run := (Call.runStep Rehearsal.host execute ⟨1, true, true, none⟩
      (.runChoice "bad" vars)).runOn Rehearsal.leaky
    Leaves target run :=
  (runStep_leaves Rehearsal.host_discreet 2 ⟨1, true, true, none⟩ rfl "bad"
    ⟨Rehearsal.bad, some [1]⟩ (by cbv) (.map [(.text "leak", .bool true)])
    [(.text "leak", .bool true)] (by cbv) (Rehearsal.host_steady.steadyFor _ _) rfl).1

/-- A variable that was handed to a choice that failed is still shared when the script goes on, and
reaches the end of the run. -/
theorem Runner.run_leaky :
    let run := (Runner.run Rehearsal.host (some Rehearsal.trying) []).runOn Rehearsal.leaky
    run.2.events = #[.load "try", .command "boom", .shared [(.text "leak", .bool true)]] ∧
    run.2.shared = [(.text "leak", .bool true),
      (.text "caught", .text "RuntimeError: command failed: boom")] := by
  constructor
  · cbv
  · cbv

end Choicebook
