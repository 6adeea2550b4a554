import Choicebook.Proofs.Session.Exports
import Choicebook.Proofs.Session.Host
import Choicebook.Proofs.Value.Names

/-!
# Scripts in lockstep

Two macros can run the same script on variables that are the same by name and differ in their order.
As long as the script asks for variables by name, it does the same in both. `Lockstep` is what a
relation between acts needs for that, and `Lockstep.runScript` and `Lockstep.scriptHolds` go through
the steps of a script, the exports that lead to it and the conditions that ask one.

Three of the steps are left out: one that deletes a variable, one that runs another choice, and one
that lists the names in the order in which they are stored. A script without those is
`Value.Gentle`, whatever is called of what it exports.
-/

namespace Choicebook

variable {σ : Type}

/-! ### Gentle scripts -/

mutual

/-- The step neither deletes a variable nor runs another choice, and does not see the order of the
variables. -/
def Step.isGentle : Step → Bool
  | .discard _ => false
  | .runChoice _ _ => false
  | .listNames _ => false
  | .attempt steps _ => areGentle steps
  | _ => true

/-- All of the steps are gentle. -/
def Step.areGentle : List Step → Bool
  | [] => true
  | s :: rest => isGentle s && areGentle rest

end

namespace Value

/-- All functions of an export are gentle. -/
def Gentle (v : Value) : Prop :=
  ∀ label arity steps, v.Leads (.function label arity steps) → Step.areGentle steps = true

theorem Gentle.member {v w key : Value} (h : v.Gentle) (hw : v.memberOf? key = .ok (some w)) :
    w.Gentle :=
  fun label arity steps hf => h label arity steps ((Leads.self.member hw).trans hf)

theorem gentle_function {label : String} {arity : Arity} {steps : List Step}
    (h : Step.areGentle steps = true) : (function label arity steps).Gentle := by
  intro label' arity' steps' hf
  cases hf.eq_of_memberless (memberOf?_function label arity steps)
  exact h

end Value

/-! ### Variables that are asked for by name -/

/-- Whether a condition holds depends on the values of names only. -/
theorem VariableCondition.evaluate_congr (c : VariableCondition) {m n : Entries}
    (h : ∀ name, m.field? name = n.field? name) : c.evaluate m = c.evaluate n := by
  rw [evaluate, evaluate]
  simp only [h]

/-- Sorted, the names of two such mappings are the same list. -/
theorem Entries.Alike.sortedKeys {m n : Entries} (h : m.Alike n) :
    Call.sortedKeys m = Call.sortedKeys n := by
  have hsorted : ∀ l : List String, (l.mergeSort fun a b => decide (a ≤ b)).Pairwise (· ≤ ·) := by
    intro l
    have htrans : ∀ a b c : String, decide (a ≤ b) → decide (b ≤ c) → decide (a ≤ c) :=
      fun a b c hab hbc => decide_eq_true
        (String.le_trans (of_decide_eq_true hab) (of_decide_eq_true hbc))
    have htotal : ∀ a b : String, (decide (a ≤ b) || decide (b ≤ a)) = true := fun a b => by
      simpa using String.le_total a b
    exact (List.pairwise_mergeSort htrans htotal l).imp of_decide_eq_true
  have hsort : (m.filterMap (·.1.asText?)).mergeSort (fun a b => decide (a ≤ b)) =
      (n.filterMap (·.1.asText?)).mergeSort fun a b => decide (a ≤ b) := by
    refine List.Perm.eq_of_pairwise (fun _ _ _ _ => String.le_antisymm) (hsorted _) (hsorted _) ?_
    exact (List.mergeSort_perm _ _).trans (h.names_perm.trans (List.mergeSort_perm _ _).symm)
  rw [Call.sortedKeys, Call.sortedKeys, if_pos h.left.length_names, if_pos h.right.length_names,
    hsort]

/-! ### Acts that two runs do at the same time -/

/-- A relation between acts, up to a relation of the faults in which they end. Two acts that look at
the variables are related if they are for any two frames that are alike. The scripts at some paths
are known to be gentle. -/
structure Lockstep (host : Host σ) (gentle : String → Prop)
    (R : (Fault → Fault → Prop) → ∀ {α : Type}, Act σ α → Act σ α → Prop) : Prop where
  pure : ∀ {E : Fault → Fault → Prop} {α : Type} (x : α), R E (pure x : Act σ α) (pure x)
  bind : ∀ {E : Fault → Fault → Prop} {α β : Type} {a b : Act σ α} {f g : α → Act σ β}, R E a b →
    (∀ x, R E (f x) (g x)) → R E (a >>= f) (b >>= g)
  read : ∀ {E : Fault → Fault → Prop} {β : Type} {f g : Session σ → Act σ β},
    (∀ s t, s.frame.Alike t.frame → s.shared.Alike t.shared → R E (f s) (g t)) →
    R E (get >>= f) (get >>= g)
  fail : ∀ {E : Fault → Fault → Prop} {α : Type} {f g : Fault}, E f g →
    R E (Act.fail f : Act σ α) (Act.fail g)
  note : ∀ {E : Fault → Fault → Prop} (e e' : Event),
    R E (Act.note e : Act σ Unit) (Act.note e')
  ask : ∀ {E : Fault → Fault → Prop} [Std.Refl E] {α : Type} (e : Event) {a : Act σ α},
    host.Serves a → R E (Act.ask e a) (Act.ask e a)
  /-- What comes next may rely on the script to be gentle. -/
  load : ∀ {E : Fault → Fault → Prop} [Std.Refl E] {β : Type} {path : String}
    {f g : Value → Act σ β}, gentle path → (∀ v : Value, v.Gentle → R E (f v) (g v)) →
    R E (Act.ask (.load path) (host.loadScript path) >>= f)
      (Act.ask (.load path) (host.loadScript path) >>= g)
  insert : ∀ {E : Fault → Fault → Prop} (name : String) (v : Value),
    R E (Act.changeFrame (·.insert (.text name) v) : Act σ Unit)
      (Act.changeFrame (·.insert (.text name) v))
  /-- A script writes down the fault that it carries on from. -/
  rescue : ∀ {E : Fault → Fault → Prop} [Std.Refl E] {α : Type} {a b : Act σ α}
    {c d : Fault → Act σ α}, R Eq a b → (∀ f, R E (c f) (d f)) → R E (Act.rescue a c) (Act.rescue b d)

namespace Lockstep

variable {host : Host σ} {gentle : String → Prop}
  {R : (Fault → Fault → Prop) → ∀ {α : Type}, Act σ α → Act σ α → Prop}
  {E : Fault → Fault → Prop} {α β : Type}

theorem map (l : Lockstep host gentle R) (f : α → β) {a b : Act σ α} (h : R E a b) :
    R E (f <$> a) (f <$> b) := by
  rw [map_eq_pure_bind, map_eq_pure_bind]
  exact l.bind h fun x => l.pure (f x)

variable [Std.Refl E]

theorem refuse (l : Lockstep host gentle R) (f : Fault) : R E (Act.fail f : Act σ α) (Act.fail f) :=
  l.fail (Std.Refl.refl f)

theorem expect (l : Lockstep host gentle R) (x : Except Fault α) :
    R E (Act.expect x : Act σ α) (Act.expect x) := by
  cases x with
  | ok x => exact l.pure x
  | error f => exact l.refuse f

/-! ### Steps -/

theorem need (l : Lockstep host gentle R) (present : Bool) :
    R E (Call.need present : Act σ Unit) (Call.need present) := by
  rw [Call.need]
  split
  · exact l.pure ()
  · exact l.refuse _

theorem operand (l : Lockstep host gentle R) (c : Call) (x : Operand) :
    R E (c.operand x : Act σ Value) (c.operand x) := by
  cases x with
  | literal v => exact l.pure v
  | named name =>
    refine l.bind (l.need _) fun _ => l.read fun s t hframe _ => ?_
    rw [hframe.field?]
    exact l.pure _
  | setting key =>
    rw [Call.operand]
    split
    · exact l.refuse _
    · split
      · exact l.pure _
      · exact l.refuse _
  | argumentCount => exact l.pure _

theorem assign (l : Lockstep host gentle R) (c : Call) (name : String) (v : Value) :
    R E (c.assign name v : Act σ Unit) (c.assign name v) :=
  l.bind (l.need _) fun _ => l.insert name v

theorem inspected (l : Lockstep host gentle R) (c : Call) (key : String) :
    R E (c.inspected host key) (c.inspected host key) := by
  rw [Call.inspected.eq_def]
  split
  · exact l.refuse _
  · split
    · exact l.pure _
    · exact l.pure _
    · refine l.read fun s t hframe _ => ?_
      rw [hframe.sortedKeys]
      exact l.expect _
    · exact l.pure _
    · exact l.refuse _

theorem pick (l : Lockstep host gentle R) (labels items : List Value)
    (placeholder : Option String) :
    R E (Call.pick host labels items placeholder) (Call.pick host labels items placeholder) := by
  rw [Call.pick]
  refine l.bind (l.ask _ (.suggest _ _ _)) fun chosen => ?_
  split
  · exact l.refuse _
  · exact l.refuse _
  · exact l.pure _

theorem askUser (l : Lockstep host gentle R) (header : String) (preset : Option String) :
    R E (Call.ask host header preset) (Call.ask host header preset) := by
  rw [Call.ask]
  refine l.bind (l.ask _ (.prompt _ _)) fun answer => ?_
  split
  · exact l.refuse _
  · exact l.refuse _
  · exact l.pure _

/-- A step that asks for a value and puts it into a variable. -/
private theorem assignResult (l : Lockstep host gentle R) (c : Call) (present : Bool)
    {a b : Act σ Value} (h : R E a b) (into : String) :
    R E (do Call.need present; let v ← a; c.assign into v; return (none : Option Value))
      (do Call.need present; let v ← b; c.assign into v; return (none : Option Value)) :=
  l.bind (l.need present) fun _ => l.bind h fun v => l.bind (l.assign c into v) fun _ => l.pure _

/-- A step that lets the user select by labels that have to be written first. -/
private theorem assignPicked (l : Lockstep host gentle R) (c : Call) (present : Bool)
    (labels : Except Fault (List Value)) (items : List Value) (placeholder : Option String)
    (into : String) :
    let picked : Act σ (Option Value) := do
      Call.need present
      let shown ← Act.expect labels
      let v ← Call.pick host shown items placeholder
      c.assign into v
      return none
    R E picked picked :=
  l.bind (l.need present) fun _ => l.bind (l.expect labels) fun shown =>
    l.bind (l.pick shown items placeholder) fun v => l.bind (l.assign c into v) fun _ => l.pure _

variable {execute other : Placed → Act σ Unit}

mutual

/-- Every step of a gentle script. -/
theorem runStep (l : Lockstep host gentle R) (c : Call) {E : Fault → Fault → Prop} [Std.Refl E] :
    ∀ s : Step, s.isGentle = true → R E (c.runStep host execute s) (c.runStep host other s)
  | .assign name x, _ => by
    rw [Call.runStep, Call.runStep]
    exact l.bind (l.operand c x) fun v => l.bind (l.assign c name v) fun _ => l.pure _
  | .discard _, h => by cases h
  | .record label, _ => by
    rw [Call.runStep, Call.runStep]
    exact l.read fun s t _ _ => l.bind (l.note _ _) fun _ => l.pure _
  | .recordShared, _ => by
    rw [Call.runStep, Call.runStep]
    exact l.read fun s t _ _ => l.bind (l.note _ _) fun _ => l.pure _
  | .abort reason, _ => by
    rw [Call.runStep, Call.runStep]
    exact l.bind (l.need _) fun _ => l.refuse _
  | .fail kind message, _ => by
    rw [Call.runStep, Call.runStep]
    exact l.refuse _
  | .inspect key into, _ => by
    rw [Call.runStep, Call.runStep]
    exact l.bind (l.inspected c key) fun v => l.bind (l.assign c into v) fun _ => l.pure _
  | .listNames _, h => by cases h
  | .runChoice _ _, h => by cases h
  | .pick labels items placeholder into, _ => by
    rw [Call.runStep, Call.runStep]
    exact l.assignPicked c _ _ items placeholder into
  | .pickCapitals items placeholder into, _ => by
    rw [Call.runStep, Call.runStep]
    exact l.assignPicked c _ _ items placeholder into
  | .pickByPosition items placeholder into, _ => by
    rw [Call.runStep, Call.runStep]
    exact l.assignResult c _ (l.pick _ _ _) into
  | .ask header preset into, _ => by
    rw [Call.runStep, Call.runStep]
    exact l.assignResult c _ (l.askUser _ _) into
  | .attempt steps into, h => by
    rw [Call.runStep, Call.runStep]
    exact l.rescue (runSteps l c steps h) fun f => l.bind (l.assign c into _) fun _ => l.pure _
  | .finish x, _ => by
    rw [Call.runStep, Call.runStep]
    exact l.map _ (l.operand c x)

/-- Every gentle script. -/
theorem runSteps (l : Lockstep host gentle R) (c : Call) {E : Fault → Fault → Prop} [Std.Refl E] :
    ∀ steps : List Step, Step.areGentle steps = true →
      R E (c.runSteps host execute steps) (c.runSteps host other steps)
  | [], _ => by
    rw [Call.runSteps, Call.runSteps]
    exact l.pure _
  | s :: rest, h => by
    have hgentle : s.isGentle = true ∧ Step.areGentle rest = true := Bool.and_eq_true_iff.mp h
    rw [Call.runSteps, Call.runSteps]
    refine l.bind (runStep l c s hgentle.1) fun r => ?_
    split
    · exact l.pure _
    · exact runSteps l c rest hgentle.2

end

/-! ### Exports -/

theorem call (l : Lockstep host gentle R) (args : Arguments) {v : Value} (h : v.Gentle) :
    R E (v.call host execute args) (v.call host other args) := by
  rw [Value.call.eq_def, Value.call.eq_def]
  split
  · next label arity steps =>
    split
    · exact l.refuse _
    · exact l.map _ (l.runSteps _ steps (h label arity steps .self))
  · split
    · exact l.pure _
    · exact l.refuse _
  · exact l.refuse _

theorem callWithSettings (l : Lockstep host gentle R) (inSession : Bool) (settings : Option Entries)
    {v : Value} (h : v.Gentle) :
    R E (v.callWithSettings host execute inSession settings)
      (v.callWithSettings host other inSession settings) := by
  rw [Value.callWithSettings.eq_def, Value.callWithSettings.eq_def]
  split
  · split
    · exact l.call _ h
    · exact l.call _ h
  · exact l.call _ h

/-- Selecting a member of an export, on behalf of any two choices, and going on with it. -/
theorem select (l : Lockstep host gentle R) (hempty : ∀ o o', E (.emptyExport o) (.emptyExport o'))
    (inSession : Bool) (owner owner' : Value) (settings : Option Entries) {v : Value}
    (h : v.Gentle) {f g : v.Smaller → Act σ β}
    (hf : ∀ m : v.Smaller, m.1.Gentle → R E (f m) (g m)) :
    R E (Dispatcher.select ⟨host, execute, inSession, owner, settings⟩ v >>= f)
      (Dispatcher.select ⟨host, other, inSession, owner', settings⟩ v >>= g) := by
  simp only [Dispatcher.select]
  rw [bind_assoc, bind_assoc]
  refine l.bind (l.expect _) fun names => ?_
  split
  · rw [Act.fail_bind, Act.fail_bind]
    exact l.fail (hempty _ _)
  · rw [bind_assoc, bind_assoc]
    refine l.bind (l.ask _ (.suggest _ _ _)) fun chosen => ?_
    split
    · rw [Act.fail_bind, Act.fail_bind]
      exact l.refuse _
    · next name _ =>
      cases hm : v.smallerMember? name with
      | error e =>
        simp only [Act.expect, Act.fail_bind]
        exact l.refuse _
      | ok m =>
        simp only [Act.expect, pure_bind]
        cases m with
        | none =>
          rw [Act.fail_bind, Act.fail_bind]
          exact l.refuse _
        | some m =>
          simp only [pure_bind]
          exact hf m (h.member (Value.memberOf?_of_smaller hm))

/-- Dispatching the export of a gentle script, however deep it is nested. -/
theorem dispatch (l : Lockstep host gentle R)
    (hempty : ∀ o o', E (.emptyExport o) (.emptyExport o'))
    (inSession : Bool) (owner owner' : Value) (settings : Option Entries) {v : Value}
    (h : v.Gentle) :
    R E (Dispatcher.run ⟨host, execute, inSession, owner, settings⟩ v)
      (Dispatcher.run ⟨host, other, inSession, owner', settings⟩ v) := by
  have hselect : R E
      (Dispatcher.select ⟨host, execute, inSession, owner, settings⟩ v >>= fun m =>
        Dispatcher.run ⟨host, execute, inSession, owner, settings⟩ m.1)
      (Dispatcher.select ⟨host, other, inSession, owner', settings⟩ v >>= fun m =>
        Dispatcher.run ⟨host, other, inSession, owner', settings⟩ m.1) :=
    l.select hempty inSession owner owner' settings h fun m hm =>
      dispatch l hempty inSession owner owner' settings hm
  rw [Dispatcher.run, Dispatcher.run]
  split
  · exact l.map _ (l.callWithSettings _ _ h)
  · exact l.bind (l.expect _) fun _ => l.pure _
  · cases hentry : v.member? "entry" with
    | error e =>
      simp only [Act.expect, Act.fail_bind]
      exact l.refuse _
    | ok m =>
      simp only [Act.expect, pure_bind]
      cases settings with
      | none => exact hselect
      | some given =>
        cases m with
        | none => exact hselect
        | some entry =>
          have hmember : v.memberOf? (.text "entry") = .ok (some entry) := hentry
          exact l.map _ (l.callWithSettings _ _ (h.member hmember))
  · exact hselect
  · exact l.bind (l.note _ _) fun _ => l.pure _
termination_by sizeOf v
decreasing_by exact m.2

theorem runScript (l : Lockstep host gentle R)
    (hempty : ∀ o o', E (.emptyExport o) (.emptyExport o'))
    (name name' : Value) {path : String} (hpath : gentle path) (settings : Entries) :
    R E (Running.runScript ⟨host, execute, name⟩ path settings)
      (Running.runScript ⟨host, other, name'⟩ path settings) := by
  rw [Running.runScript, Running.runScript]
  refine l.load hpath fun exported h => ?_
  split
  · exact l.bind (l.note _ _) fun _ => l.pure _
  · exact l.dispatch hempty _ _ _ _ h

/-! ### Conditions -/

theorem targetHolds (l : Lockstep host gentle R) (path : String) (member : Value)
    {target : Option Value} (h : ∀ v ∈ target, v.Gentle) :
    R E (Choicebook.targetHolds host execute path member target)
      (Choicebook.targetHolds host other path member target) := by
  cases target with
  | none => exact l.bind (l.note _ _) fun _ => l.pure _
  | some v =>
    rw [Choicebook.targetHolds, Choicebook.targetHolds]
    split
    · exact l.bind (l.call _ (h v rfl)) fun r => l.pure _
    · exact l.pure _

theorem scriptHolds (l : Lockstep host gentle R) {path : String} (hpath : gentle path)
    (member : Value) :
    R E (Choicebook.scriptHolds host execute path member)
      (Choicebook.scriptHolds host other path member) := by
  rw [Choicebook.scriptHolds, Choicebook.scriptHolds]
  refine l.load hpath fun exported h => ?_
  split
  · exact l.bind (l.note _ _) fun _ => l.pure _
  · split
    · cases hm : exported.memberOf? member with
      | error e =>
        simp only [Act.expect, Act.fail_bind]
        exact l.refuse _
      | ok m =>
        simp only [Act.expect, pure_bind]
        refine l.targetHolds _ _ fun v hv => ?_
        cases hv
        exact h.member hm
    · simp only [Act.expect, pure_bind]
      exact l.targetHolds _ _ (by rintro v ⟨⟩; exact h)

/-- A condition on a variable. A condition that asks a script is `scriptHolds`. -/
theorem variableHolds (l : Lockstep host gentle R) (c : VariableCondition) :
    R E (Condition.holds host execute (.onVariable c))
      (Condition.holds host other (.onVariable c)) := by
  refine l.read fun s t hframe _ => ?_
  rw [c.evaluate_congr hframe.field?]
  refine l.bind (l.expect _) fun verdict => ?_
  dsimp only
  split
  · exact l.bind (l.note _ _) fun _ => l.pure _
  · exact l.pure _

end Lockstep

end Choicebook
