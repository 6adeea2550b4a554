import Choicebook.Proofs.Session.Branch
import Choicebook.Proofs.Session.Confinement
import Choicebook.Proofs.Session.Lockstep
import Choicebook.Proofs.Session.Remains

/-!
# What a condition sees of a script

Between a script and the condition after it the variables are copied twice: from the frame to the
shared variables at the end of the script's command, and back before the condition is looked at.
Copying sets variables and takes none away. So what the script has set arrives, and what it has not
set but was shared before is there again, even if the script has deleted it
(`Running.verdict_after_script`).

The condition asks for one variable. Unless that one was shared before and has no value when the
script ends, the verdict is the one on what the script has left. The rehearsal at the end is the
exception: a script deletes a variable, and the condition still finds it.
-/

namespace Choicebook

variable {σ : Type}

/-- Goes by a verdict, if there is one. A warning is logged. -/
def Verdict.heed (verdict : Except Fault Verdict) : Act σ Bool := do
  let v ← Act.expect verdict
  match v.warning with
  | some w => Act.logWarning w
  | none => pure ()
  return v.holds

theorem Condition.holds_onVariable (host : Host σ) (execute : Placed → Act σ Unit)
    (c : VariableCondition) : Condition.holds host execute (.onVariable c) =
      get >>= fun s => Verdict.heed (c.evaluate s.frame) := rfl

namespace Running

/-- The rest of a run from a verdict on: the branch, the end of the conditional and the commands
after it. -/
def decided (r : Running σ) (c : Command) (verdict : Except Fault Verdict)
    (thens elses rest : List Command) (output : Option Value) : Act σ (Option Value) := do
  let holds ← Verdict.heed verdict
  let new ← r.runCommands (if holds then thens else elses) none
  Act.pushFrame
  Act.remember (.finished r.name c none)
  r.runCommands rest (new.orElse fun _ => output)

variable {r : Running σ} {s t : Session σ}

/-- A conditional gives its verdict on its view, and the rest follows from that. -/
theorem runOn_runCommands_conditional (head : CommandHead) (c : VariableCondition)
    (thens elses rest : List Command) (output : Option Value) :
    let conditional := Command.conditional head (.onVariable c) thens elses
    let u := { s.remember (.started r.name conditional) with frame := s.frame.update s.shared }
    (r.runCommands (conditional :: rest) output).runOn s =
      (r.decided conditional (c.evaluate u.frame) thens elses rest output).runOn u := by
  intro conditional u
  rw [runCommands, Act.runOn_get_bind]
  dsimp only [conditional, target?]
  rw [step, bind_assoc, Act.runOn_remember_bind, runCommand, Condition.holds_onVariable, decided]
  have hbranch : ∀ holds : Bool,
      (if holds then r.runCommands thens none else r.runCommands elses none) =
        r.runCommands (if holds then thens else elses) none := fun holds => by
    cases holds <;> rfl
  have hpull : (Act.pullFrame : Act σ Unit).runOn (s.remember (.started r.name conditional)) =
      (.ok (), u) := rfl
  simp only [bind_assoc, pure_bind, hbranch, Option.map_none]
  rw [Act.runOn_bind_ok hpull, Act.runOn_get_bind]

/-- A name that a script has left without a value is worth what was shared before. -/
private theorem field?_pulled {frame shared : Entries} (hframe : frame.Distinct)
    (hshared : shared.Distinct) (name : String) :
    Entries.field? (frame.update (shared.update frame)) name =
      (shared.update frame).field? name := by
  rw [Entries.field?_update _ (hshared.update frame), Entries.field?_update _ hframe]
  cases frame.field? name with
  | none => rw [Option.none_or, Option.or_none]
  | some v => rfl

section

variable {host : Host σ} {name : Value} {path : String} {settings : Entries}
  {result : Except Fault (Option Value)}

theorem neat_after_script (hn : host.Neat) (hs : s.Neat)
    (hrun : (runScript ⟨host, Choice.execute host, name⟩ path settings).runOn s = (result, t)) :
    t.Neat := by
  have d : Comparison host (Choice.execute host) (Choice.execute host) fun {α} (a _ : Act σ α) =>
      a.Neat := (Act.neat_uniform hn).comparison (Choice.execute_neat hn)
  have hneat := d.runScript name path settings s hs
  rwa [hrun] at hneat

/-- A script shares nothing itself. -/
theorem shared_after_script (hh : host.Reserved fun _ => True)
    (hrun : (runScript ⟨host, Choice.execute host, name⟩ path settings).runOn s = (result, t))
    (hcalls : ¬s.Invokes t) : t.shared = s.shared := by
  have hinvokes : ∀ p, Act.Invokes (Choice.execute host p) := fun p s => by
    rw [Choice.execute, Act.runOn_get_bind]
    exact Choice.invokes_executeAt hh.toDiscreet _ p s
  have hconfined := (Act.confined_scripting hh hinvokes).runScript (Act.confined_loads hh path)
    name settings s
  rw [hrun] at hconfined
  exact (hconfined.resolve_right hcalls).shared

end

variable {host : Host σ}

/-- **A condition sees what the script before it has set.** Let a script be run by a command that a
conditional on a variable follows, and let it end without a fault and without having run another
choice. The branch is then the one that the condition selects on the variables that the script has
left, and on those that were shared before where the script has left none. If the script has not
deleted the variable that is asked for, or if that was not shared, this is the verdict on what the
script has left. -/
theorem verdict_after_script (hh : host.Reserved fun _ => True) (hn : host.Neat) (name : Value)
    (hs : s.Neat) {head : CommandHead} {path : String} {settings : Entries} {slot : Nat}
    {result : Option Value}
    (hrun : (runScript ⟨host, Choice.execute host, name⟩ path settings).runOn
      (s.remember (.started name (.script head path settings slot))) = (.ok result, t))
    (hcalls : ¬(s.remember (.started name (.script head path settings slot))).Invokes t)
    (head' : CommandHead) (c : VariableCondition) (thens elses rest : List Command)
    (output : Option Value) :
    let r : Running σ := ⟨host, Choice.execute host, name⟩
    let conditional := Command.conditional head' (.onVariable c) thens elses
    let vars := s.shared.update t.frame
    (∀ k, k.canBeKey = true → vars.get? k = (t.frame.get? k).or (s.shared.get? k)) ∧
    ((t.frame.field? (Text.trim c.subject) = none →
        s.shared.field? (Text.trim c.subject) = none) →
      c.evaluate vars = c.evaluate t.frame) ∧
    ∃ u : Session σ, (∀ key, u.frame.field? key = vars.field? key) ∧ u.shared = vars ∧
      (r.runCommands (.script head path settings slot :: conditional :: rest) output).runOn s =
        (r.decided conditional (c.evaluate vars) thens elses rest
          (result.orElse fun _ => output)).runOn u := by
  intro r conditional vars
  have hbegan : (s.remember (.started name (.script head path settings slot))).Neat :=
    ⟨hs.frame, hs.shared⟩
  have ht : t.Neat := neat_after_script hn hbegan hrun
  have hshared := shared_after_script hh hrun hcalls
  rw [Session.remember_shared] at hshared
  have hget : ∀ k, k.canBeKey = true → vars.get? k = (t.frame.get? k).or (s.shared.get? k) :=
    fun k hk => Entries.get?_update _ ht.frame hk
  refine ⟨hget, fun hkept => ?_, ?_⟩
  · rw [VariableCondition.evaluate, VariableCondition.evaluate]
    have hsubject : vars.field? (Text.trim c.subject) = t.frame.field? (Text.trim c.subject) := by
      rw [Entries.field?_update _ ht.frame]
      cases hframe : t.frame.field? (Text.trim c.subject) with
      | none => rw [hkept hframe, Option.none_or]
      | some v => rw [Option.some_or]
    rw [hsubject]
  · -- the condition reads the frame after the pull that follows the script
    have hscript : (r.runCommand (.script head path settings slot) none).runOn
        (s.remember (.started name (.script head path settings slot))) = (.ok result, t) := by
      rw [runCommand]
      exact hrun
    have hvars : t.shared.update t.frame = vars := by rw [hshared]
    have hpulled : ∀ key, (t.frame.update (t.shared.update t.frame)).field? key =
        vars.field? key := by
      rw [hvars]
      exact field?_pulled ht.frame hs.shared
    let closed := r.closed (.script head path settings slot) none t
    refine ⟨{ closed.remember (.started name conditional) with
      frame := closed.frame.update closed.shared }, hpulled, hvars, ?_⟩
    rw [runOn_runCommands_cons hscript, ← c.evaluate_congr hpulled]
    exact runOn_runCommands_conditional head' c thens elses rest _

end Running

/-! ### A script that changes a variable -/

namespace Rehearsal

/-- A condition on `x`: it has to count as true. -/
def recalled : VariableCondition := ⟨"x", .known .isTruthy, .boolean, none⟩

/-- A command with a script. -/
def changing : Command := .script ⟨.text "change", .text "change"⟩ "change" [] 0

/-- What is asked of the host if the condition holds. -/
def kept : List Command := [.host ⟨.text "kept", .text "kept"⟩ "kept"]

/-- What is asked of the host if it does not. -/
def gone : List Command := [.host ⟨.text "gone", .text "gone"⟩ "gone"]

/-- The conditional after the script. -/
def asking : Command :=
  .conditional ⟨.text "recall", .text "recall"⟩ (.onVariable recalled) kept gone

/-- A session that has just begun, with that script. -/
def beforeRecall (steps : List Step) : Session Rehearsal :=
  .start .preset .empty .start
    ⟨[("change", .function "change" .one steps)], [], [], [], false, none, false⟩

end Rehearsal

namespace Running

open Rehearsal (recalled changing asking kept gone beforeRecall)

/-- Without a call in the trail, nothing has been called. -/
private theorem not_invokes {s t : Session σ} (h : ∀ m ∈ t.trail, m.mark.isCall = false) :
    ¬s.Invokes t := by
  rintro ⟨later, m, added, ht, hm, -⟩
  have hmem : m ∈ t.trail := by
    rw [ht]
    exact List.mem_append_right _ List.mem_cons_self
  exact Bool.false_ne_true ((h m hmem).symm.trans hm)

/-- A script that overwrites the variable with an empty text. -/
theorem verdict_after_script_overwritten :
    let r : Running Rehearsal := ⟨Rehearsal.host, Choice.execute Rehearsal.host, .text "recall"⟩
    let old : Entries := [(.text "x", .text "old")]
    let left : Entries := [(.text "x", .text "")]
    let s := { beforeRecall [.assign "x" (.literal (.text ""))] with frame := old, shared := old }
    recalled.evaluate left = .ok (.plain false) ∧
    ∃ u, (r.runCommands [changing, asking] none).runOn s =
      (r.decided asking (recalled.evaluate left) kept gone [] (some .null)).runOn u := by
  intro r old left s
  have hs : s.Neat := ⟨List.pairwise_singleton _ _, List.pairwise_singleton _ _⟩
  let began := s.remember (.started r.name changing)
  let t := ((r.runScript "change" []).runOn began).2
  have hresult : ((r.runScript "change" []).runOn began).1 = .ok (some .null) := by
    dsimp only [r, old, s, began]
    cbv
  have hleft : t.frame = left := by
    dsimp only [r, old, left, s, began, t]
    cbv
  have hcalls : ¬began.Invokes t := by
    refine not_invokes fun m hm => ?_
    have hall : (t.trail.all fun m => !m.mark.isCall) = true := by
      dsimp only [r, old, s, began, t]
      cbv
    simpa using List.all_eq_true.mp hall m hm
  obtain ⟨-, hkept, u, -, -, hruns⟩ := verdict_after_script (t := t)
    (Rehearsal.host_reserved []).anywhere Rehearsal.host_neat r.name hs (Prod.ext hresult rfl)
    hcalls ⟨.text "recall", .text "recall"⟩ recalled kept gone [] none
  have hset : t.frame.field? (Text.trim recalled.subject) = some (.text "") := by
    rw [hleft]
    cbv
  rw [hkept fun hnone => absurd (hset.symm.trans hnone) (Option.some_ne_none _), hleft] at hruns
  exact ⟨by cbv, u, hruns⟩

end Running

/-- If the script deletes the variable instead, nothing is left for the condition, and it still
holds: what was shared before is back. -/
theorem Runner.run_discarded :
    let p : Placed := ⟨.ofMacro ⟨.text "recall", .text "recall", false⟩ (some
      (.mk (.text "recall") (.text "recall") [Rehearsal.changing, Rehearsal.asking] false)), none⟩
    let run := (Runner.run Rehearsal.host (some p) [(.text "x", .text "old")]).runOn
      (Rehearsal.beforeRecall [.discard "x"])
    (run.2.trail.filter fun m => m.mark.isFinish).getLast?.map Moment.frame = some [] ∧
    (Rehearsal.recalled.evaluate []).toOption.map Verdict.holds = some false ∧
    run.2.events = #[.load "change", .command "kept"] := by
  refine ⟨?_, ?_, ?_⟩
  · cbv
  · cbv
  · cbv

end Choicebook
