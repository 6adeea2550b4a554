import Choicebook.Proofs.Session.Exports
import Choicebook.Proofs.Session.Host
import Choicebook.Proofs.Session.Misuses

/-!
# Comparing acts

Two acts can be compared in many ways: by what they do from the same state, by what they do from
states that differ in something, or not at all, so that only the first one counts. A relation that
the plain means of a session are in with themselves, and that composition keeps, is `Act.Plain`. It
is `Act.Regular` if it does not mind changes of the shared variables; inside of macros it has to be
an `Act.Congruence`, too. Some relations change with the depth of the session or with the state of
its host. `Act.Compatible` says that a relation does not.

`Comparison.runBody` is what congruences are for. It compares a macro with itself where the choices
inside of it are run by different means, and goes through every kind of step, of export and of
command once. What is left for a particular relation are the few acts where a session does something
of its own: asking the host, running another choice from a script, and the beginning and the end of
a command.

The way through a macro is in two parts, which can be used on their own. `Scripting` goes through
the steps and the exports, and may leave out scripts that run other choices. `Commanding` goes
through the commands, given those that ask a script.
-/

namespace Choicebook

variable {σ : Type}

/-- A relation between acts that composition keeps, and that the means of a session are in with
themselves that change no variables. -/
structure Act.Plain (R : ∀ {α : Type}, Act σ α → Act σ α → Prop) : Prop where
  pure : ∀ {α : Type} (x : α), R (pure x : Act σ α) (pure x)
  bind : ∀ {α β : Type} {a b : Act σ α} {f g : α → Act σ β}, R a b → (∀ x, R (f x) (g x)) →
    R (a >>= f) (b >>= g)
  /-- What comes next may depend on the state, as far as macros look at it. -/
  read : ∀ {β : Type} {f g : Session σ → Act σ β},
    (∀ s t, Session.Akin s t → f s = f t ∧ g s = g t) → (∀ s, R (f s) (g s)) →
    R (get >>= f) (get >>= g)
  /-- Nothing but a pause goes on for ever. -/
  fail : ∀ {α : Type} {f : Fault}, f ≠ .endless → R (Act.fail f : Act σ α) (Act.fail f)
  note : ∀ e : Event, R (Act.note e : Act σ Unit) (Act.note e)

/-- A plain relation that the means of a session are in with themselves that are used inside of
macros and outside. -/
structure Act.Regular (R : ∀ {α : Type}, Act σ α → Act σ α → Prop) : Prop
    extends Act.Plain R where
  updateShared : ∀ extra : Entries,
    R (Act.updateShared extra : Act σ Unit) (Act.updateShared extra)

/-- A regular relation that does not mind if the depth and the host are looked at, too. -/
structure Act.Compatible (R : ∀ {α : Type}, Act σ α → Act σ α → Prop) : Prop
    extends Act.Regular R where
  look : ∀ {β : Type} {f g : Session σ → Act σ β},
    (∀ s t, Session.Agree s t → f s = f t ∧ g s = g t) → (∀ s, R (f s) (g s)) →
    R (get >>= f) (get >>= g)
  read := fun h => look fun s t hst => h s t hst.akin

/-- A plain relation that does not mind changes of the variables of the running macro. -/
structure Act.Framed (R : ∀ {α : Type}, Act σ α → Act σ α → Prop) : Prop
    extends Act.Plain R where
  changeFrame : ∀ {g : Entries → Entries}, (∀ m : Entries, m.Distinct → (g m).Distinct) →
    R (Act.changeFrame g : Act σ Unit) (Act.changeFrame g)

/-- A regular relation that the means of scripts and commands are in with themselves, too. -/
structure Act.Congruence (R : ∀ {α : Type}, Act σ α → Act σ α → Prop) : Prop
    extends Act.Regular R, Act.Framed R where
  rescue : ∀ {α : Type} {a b : Act σ α} {c d : Fault → Act σ α}, R a b → (∀ f, R (c f) (d f)) →
    R (Act.rescue a c) (Act.rescue b d)

/-- A relation that holds for the steps of scripts, between running choices by `execute` and running
them by `other`. If the scripts are all solitary, these do not matter. -/
structure Scripting (host : Host σ) (execute other : Placed → Act σ Unit) (solitary : Prop)
    (R : ∀ {α : Type}, Act σ α → Act σ α → Prop) : Prop extends Act.Framed R where
  rescue : ∀ {α : Type} {a b : Act σ α} {c d : Fault → Act σ α}, R a b → (∀ f, R (c f) (d f)) →
    R (Act.rescue a c) (Act.rescue b d)
  ask : ∀ {α : Type} (e : Event) {a : Act σ α}, host.Serves a → e.isNotice = false →
    R (Act.ask e a) (Act.ask e a)
  callChoice : ¬solitary → ∀ (name : String) (vars : Value),
    R (Call.runChoice execute name vars) (Call.runChoice other name vars)

/-- Whether a command asks a script before it does anything else. -/
def Command.asksScript : Command → Bool
  | .script .. => true
  | .conditional _ (.byScript ..) _ _ => true
  | _ => false

/-- A relation that holds for commands. The commands that ask a script are compared as a whole. A
command with a target is one that looks for another choice, and only enters it. -/
structure Commanding (host : Host σ) (execute other : Placed → Act σ Unit)
    (R : ∀ {α : Type}, Act σ α → Act σ α → Prop) : Prop extends Act.Framed R where
  ask : ∀ {α : Type} (e : Event) {a : Act σ α}, host.Serves a → e.isNotice = false →
    R (Act.ask e a) (Act.ask e a)
  script : ∀ (name : Value) (h : CommandHead) (path : String) (settings : Entries) (slot : Nat),
    R (Running.step ⟨host, execute, name⟩ (.script h path settings slot) none
        (Running.runScript ⟨host, execute, name⟩ path settings))
      (Running.step ⟨host, other, name⟩ (.script h path settings slot) none
        (Running.runScript ⟨host, other, name⟩ path settings))
  scripted : ∀ (name : Value) (h : CommandHead) (path : String) (member : Value)
    (thens elses : List Command) {f g : Bool → Act σ (Option Value)},
    (∀ holds, R (f holds) (g holds)) →
    R (Running.step ⟨host, execute, name⟩ (.conditional h (.byScript path member) thens elses) none
        (Act.pullFrame >>= fun _ => scriptHolds host execute path member >>= f))
      (Running.step ⟨host, other, name⟩ (.conditional h (.byScript path member) thens elses) none
        (Act.pullFrame >>= fun _ => scriptHolds host other path member >>= g))
  step : ∀ {α : Type} (name : Value) (c : Command) {a b : Act σ α}, c.asksScript = false → R a b →
    R (Running.step ⟨host, execute, name⟩ c none a) (Running.step ⟨host, other, name⟩ c none b)
  wait : ∀ (name : Value) (h : CommandHead) (time : Double),
    R (Running.step ⟨host, execute, name⟩ (.wait h time) none (do
        Running.pause ⟨host, execute, name⟩ (Running.seconds time)
        return (none : Option Value)))
      (Running.step ⟨host, other, name⟩ (.wait h time) none (do
        Running.pause ⟨host, other, name⟩ (Running.seconds time)
        return (none : Option Value)))
  enter : ∀ (name : Value) (d : Document) (c : Command) (p : Placed),
    Running.target? d c = some p →
    R (Running.step ⟨host, execute, name⟩ c (some p) (do
        Running.enter ⟨host, execute, name⟩ p
        return (none : Option Value)))
      (Running.step ⟨host, other, name⟩ c (some p) (do
        Running.enter ⟨host, other, name⟩ p
        return (none : Option Value)))

/-- A congruence that also holds where a macro leaves its own affairs, between running choices by
`execute` and running them by `other`: when it asks the host, when a script runs a choice, and at
the two ends of a command. A command with a target only enters it. -/
structure Comparison (host : Host σ) (execute other : Placed → Act σ Unit)
    (R : ∀ {α : Type}, Act σ α → Act σ α → Prop) : Prop extends Act.Congruence R where
  ask : ∀ {α : Type} (e : Event) {a : Act σ α}, host.Offers a → e.isNotice = false →
    R (Act.ask e a) (Act.ask e a)
  enterChoice : ∀ p : Placed, R (Call.enter execute p) (Call.enter other p)
  step : ∀ {α : Type} (name : Value) (c : Command) {a b : Act σ α}, R a b →
    R (Running.step ⟨host, execute, name⟩ c none a) (Running.step ⟨host, other, name⟩ c none b)
  wait : ∀ (name : Value) (h : CommandHead) (time : Double),
    R (Running.step ⟨host, execute, name⟩ (.wait h time) none (do
        Running.pause ⟨host, execute, name⟩ (Running.seconds time)
        return (none : Option Value)))
      (Running.step ⟨host, other, name⟩ (.wait h time) none (do
        Running.pause ⟨host, other, name⟩ (Running.seconds time)
        return (none : Option Value)))
  enter : ∀ (name : Value) (c : Command) (p : Placed),
    R (Running.step ⟨host, execute, name⟩ c (some p) (do
        Running.enter ⟨host, execute, name⟩ p
        return (none : Option Value)))
      (Running.step ⟨host, other, name⟩ c (some p) (do
        Running.enter ⟨host, other, name⟩ p
        return (none : Option Value)))

namespace Act.Plain

variable {R : ∀ {α : Type}, Act σ α → Act σ α → Prop} {α β : Type}

theorem map (l : Plain R) (f : α → β) {a b : Act σ α} (h : R a b) :
    R (f <$> a) (f <$> b) := by
  rw [map_eq_pure_bind, map_eq_pure_bind]
  exact l.bind h fun x => l.pure (f x)

theorem expect (l : Plain R) {x : Except Fault α} (hx : Misuses x) :
    R (Act.expect x : Act σ α) (Act.expect x) := by
  cases x with
  | ok x => exact l.pure x
  | error f => exact l.fail (hx.ne_endless_of_eq rfl)

/-- A pause is noted and, unless it ends, fails. -/
theorem pause (l : Plain R) (hendless : R (Act.fail .endless : Act σ Unit) (Act.fail .endless))
    {r q : Running σ} (hhost : r.host = q.host) (duration : Double) :
    R (r.pause duration) (q.pause duration) := by
  rw [Running.pause, Running.pause, hhost]
  refine l.bind (l.note _) fun _ => ?_
  split
  · exact hendless
  · exact l.pure ()

/-! ### Menus -/

variable {host : Host σ} (hsuggest : ∀ (labels : List Value) (count : Nat) (placeholder : Value),
  R (Act.ask (.suggest labels placeholder) (host.suggest labels count placeholder))
    (Act.ask (.suggest labels placeholder) (host.suggest labels count placeholder)))

include hsuggest

/-- One selection in a menu, by whatever means the menus are shown that open then. -/
theorem offer (l : Plain R) {browse other : Menu → Act σ (Option Choice)}
    (hbrowse : ∀ m, R (browse m) (other m)) (m : Menu) :
    R (m.offer host browse) (m.offer host other) := by
  rw [Menu.offer, Menu.offer]
  refine l.bind (hsuggest _ _ _) fun position => ?_
  split
  · exact l.pure _
  · exact l.pure _
  · exact hbrowse _

/-- Going through menus is asking the host, as often as there are menus. -/
theorem navigate (l : Plain R) (fuel : Nat) (m : Menu) :
    R (m.navigate host fuel) (m.navigate host fuel) := by
  induction fuel generalizing m with
  | zero => exact l.pure _
  | succ fuel ih => exact l.offer hsuggest ih m

end Act.Plain

/-- How often the user can be asked depends on the host. -/
theorem Act.Compatible.browse {R : ∀ {α : Type}, Act σ α → Act σ α → Prop} {host : Host σ}
    (hsuggest : ∀ (labels : List Value) (count : Nat) (placeholder : Value),
      R (Act.ask (.suggest labels placeholder) (host.suggest labels count placeholder))
        (Act.ask (.suggest labels placeholder) (host.suggest labels count placeholder)))
    (l : Compatible R) (m : Menu) : R (m.browse host) (m.browse host) :=
  l.look (fun _ _ h => by simp only [h.host, and_self]) fun _ => l.navigate hsuggest _ m

namespace Act.Framed

variable {R : ∀ {α : Type}, Act σ α → Act σ α → Prop} {α β : Type}

theorem updateFrame (l : Framed R) (extra : Entries) :
    R (Act.updateFrame extra : Act σ Unit) (Act.updateFrame extra) :=
  l.changeFrame fun _ hm => hm.update extra

theorem pullFrame (l : Framed R) : R (Act.pullFrame : Act σ Unit) Act.pullFrame :=
  l.read (fun _ _ h => by simp only [h.shared, and_self]) fun s => l.updateFrame s.shared

/-- What a command does may come between its two ends. -/
theorem step (l : Framed R) (r q : Running σ) (hname : r.name = q.name) (c : Command)
    (target : Option Placed) {a b : Act σ α}
    (hstarted : R (Act.remember (.started r.name c) : Act σ Unit)
      (Act.remember (.started r.name c)))
    (hpush : R (Act.pushFrame : Act σ Unit) Act.pushFrame)
    (hfinished : R (Act.remember (.finished r.name c (target.map Placed.choice)) : Act σ Unit)
      (Act.remember (.finished r.name c (target.map Placed.choice))))
    (h : R a b) : R (r.step c target a) (q.step c target b) := by
  rw [Running.step, Running.step, ← hname]
  exact l.bind hstarted fun _ => l.bind h fun x => l.bind hpush fun _ => l.bind hfinished fun _ =>
    l.pure x

/-! ### Means of scripts -/

theorem need (l : Framed R) (present : Bool) :
    R (Call.need present : Act σ Unit) (Call.need present) := by
  rw [Call.need]
  split
  · exact l.pure ()
  · exact l.fail nofun

theorem operand (l : Framed R) (c : Call) (x : Operand) :
    R (c.operand x : Act σ Value) (c.operand x) := by
  cases x with
  | literal v => exact l.pure v
  | named name =>
    exact l.bind (l.need _) fun _ =>
      l.read (fun _ _ h => by simp only [h.frame, and_self]) fun s => l.pure _
  | setting key =>
    rw [Call.operand]
    split
    · exact l.fail nofun
    · split
      · exact l.pure _
      · exact l.fail nofun
  | argumentCount => exact l.pure _

theorem assign (l : Framed R) (c : Call) (name : String) (v : Value) :
    R (c.assign name v : Act σ Unit) (c.assign name v) :=
  l.bind (l.need _) fun _ => l.changeFrame fun _ hm => hm.insert _ _

theorem inspected (l : Framed R) (host : Host σ) (c : Call) (key : String) :
    R (c.inspected host key) (c.inspected host key) := by
  rw [Call.inspected.eq_def]
  split
  · exact l.fail nofun
  · split
    · exact l.pure _
    · exact l.pure _
    · exact l.read (fun _ _ h => by simp only [h.frame, and_self]) fun s =>
        l.expect (Call.misuses_sortedKeys _)
    · exact l.pure _
    · exact l.fail nofun

end Act.Framed

namespace Scripting

variable {R : ∀ {α : Type}, Act σ α → Act σ α → Prop} {host : Host σ}
  {execute other : Placed → Act σ Unit} {solitary : Prop}

/-! ### Scripts -/

theorem pick (d : Scripting host execute other solitary R) (labels items : List Value)
    (placeholder : Option String) :
    R (Call.pick host labels items placeholder) (Call.pick host labels items placeholder) := by
  rw [Call.pick]
  refine d.bind (d.ask _ (.suggest _ _ _) rfl) fun chosen => ?_
  split
  · exact d.fail nofun
  · exact d.fail nofun
  · exact d.pure _

theorem askUser (d : Scripting host execute other solitary R) (header : String)
    (preset : Option String) :
    R (Call.ask host header preset) (Call.ask host header preset) := by
  rw [Call.ask]
  refine d.bind (d.ask _ (.prompt _ _) rfl) fun answer => ?_
  split
  · exact d.fail nofun
  · exact d.fail nofun
  · exact d.pure _

/-- A step that asks for a value and puts it into a variable. -/
private theorem assignResult (d : Scripting host execute other solitary R) (c : Call)
    (present : Bool) {a b : Act σ Value} (h : R a b) (into : String) :
    R (do Call.need present; let v ← a; c.assign into v; return (none : Option Value))
      (do Call.need present; let v ← b; c.assign into v; return (none : Option Value)) :=
  d.bind (d.need present) fun _ => d.bind h fun v => d.bind (d.assign c into v) fun _ => d.pure _

/-- A step that lets the user select by labels that have to be written first. -/
private theorem assignPicked (d : Scripting host execute other solitary R) (c : Call)
    (present : Bool) {labels : Except Fault (List Value)} (h : Misuses labels) (items : List Value)
    (placeholder : Option String) (into : String) :
    let picked : Act σ (Option Value) := do
      Call.need present
      let shown ← Act.expect labels
      let v ← Call.pick host shown items placeholder
      c.assign into v
      return none
    R picked picked :=
  d.bind (d.need present) fun _ => d.bind (d.expect h) fun shown =>
    d.bind (d.pick shown items placeholder) fun v => d.bind (d.assign c into v) fun _ => d.pure _

mutual

/-- Every step of a script. -/
theorem runStep (d : Scripting host execute other solitary R) (c : Call) :
    ∀ s : Step, (solitary → s.isSolitary = true) →
      R (c.runStep host execute s) (c.runStep host other s)
  | .assign name x, _ => by
    rw [Call.runStep, Call.runStep]
    exact d.bind (d.operand c x) fun v => d.bind (d.assign c name v) fun _ => d.pure _
  | .discard name, _ => by
    rw [Call.runStep, Call.runStep]
    exact d.bind (d.need _) fun _ => d.bind (d.changeFrame fun _ hm => hm.erase _) fun _ =>
      d.pure _
  | .record label, _ => by
    rw [Call.runStep, Call.runStep]
    exact d.read (fun _ _ h => by simp only [h.frame, and_self]) fun s =>
      d.bind (d.note _) fun _ => d.pure _
  | .recordShared, _ => by
    rw [Call.runStep, Call.runStep]
    exact d.read (fun _ _ h => by simp only [h.shared, and_self]) fun s =>
      d.bind (d.note _) fun _ => d.pure _
  | .abort reason, _ => by
    rw [Call.runStep, Call.runStep]
    exact d.bind (d.need _) fun _ => d.fail nofun
  | .fail kind message, _ => by
    rw [Call.runStep, Call.runStep]
    exact d.fail (Fault.ofRaise_ne_endless kind message)
  | .inspect key into, _ => by
    rw [Call.runStep, Call.runStep]
    exact d.bind (d.inspected host c key) fun v => d.bind (d.assign c into v) fun _ => d.pure _
  | .listNames into, _ => by
    rw [Call.runStep, Call.runStep]
    exact d.bind (d.need _) fun _ => d.read (fun _ _ h => by simp only [h.frame, and_self]) fun s =>
      d.bind (d.assign c into _) fun _ => d.pure _
  | .runChoice name vars, h => by
    have hchoice : ¬solitary := fun hsolitary => Bool.false_ne_true (h hsolitary)
    rw [Call.runStep, Call.runStep]
    exact d.bind (d.need _) fun _ => d.bind (d.callChoice hchoice name vars) fun _ => d.pure _
  | .pick labels items placeholder into, _ => by
    rw [Call.runStep, Call.runStep]
    exact d.assignPicked c _ (.mapM (fun l => l.misuses_written.map _) _) items placeholder into
  | .pickCapitals items placeholder into, _ => by
    rw [Call.runStep, Call.runStep]
    exact d.assignPicked c _ (.mapM (fun i => (i.misuses_written.map _).map _) _) items placeholder
      into
  | .pickByPosition items placeholder into, _ => by
    rw [Call.runStep, Call.runStep]
    exact d.assignResult c _ (d.pick _ _ _) into
  | .ask header preset into, _ => by
    rw [Call.runStep, Call.runStep]
    exact d.assignResult c _ (d.askUser _ _) into
  | .attempt steps into, h => by
    rw [Call.runStep, Call.runStep]
    exact d.rescue (runSteps d c steps h) fun f => d.bind (d.assign c into _) fun _ => d.pure _
  | .finish x, _ => by
    rw [Call.runStep, Call.runStep]
    exact d.map _ (d.operand c x)

/-- Every script. -/
theorem runSteps (d : Scripting host execute other solitary R) (c : Call) :
    ∀ steps : List Step, (solitary → Step.areSolitary steps = true) →
      R (c.runSteps host execute steps) (c.runSteps host other steps)
  | [], _ => by
    rw [Call.runSteps, Call.runSteps]
    exact d.pure _
  | s :: rest, h => by
    have hboth : solitary → s.isSolitary = true ∧ Step.areSolitary rest = true := fun hsolitary =>
      Bool.and_eq_true_iff.mp (h hsolitary)
    rw [Call.runSteps, Call.runSteps]
    refine d.bind (runStep d c s fun hsolitary => (hboth hsolitary).1) fun r => ?_
    split
    · exact d.pure _
    · exact runSteps d c rest fun hsolitary => (hboth hsolitary).2

end

/-! ### Exports -/

theorem call (d : Scripting host execute other solitary R) (args : Arguments) {v : Value}
    (h : solitary → v.Solitary) : R (v.call host execute args) (v.call host other args) := by
  rw [Value.call.eq_def, Value.call.eq_def]
  split
  · next label arity steps =>
    split
    · exact d.fail nofun
    · exact d.map _ (d.runSteps _ _ fun hsolitary => h hsolitary label arity steps .self)
  · split
    · exact d.pure _
    · exact d.fail nofun
  · exact d.fail nofun

theorem callWithSettings (d : Scripting host execute other solitary R) (inSession : Bool)
    (settings : Option Entries) {v : Value} (h : solitary → v.Solitary) :
    R (v.callWithSettings host execute inSession settings)
      (v.callWithSettings host other inSession settings) := by
  rw [Value.callWithSettings.eq_def, Value.callWithSettings.eq_def]
  split
  · split
    · exact d.call _ h
    · exact d.call _ h
  · exact d.call _ h

/-- Selecting a member of an export and going on with it. -/
theorem select (d : Scripting host execute other solitary R) (inSession : Bool) (owner : Value)
    (settings : Option Entries) {v : Value} (h : solitary → v.Solitary) {β : Type}
    {f g : v.Smaller → Act σ β}
    (hf : ∀ m : v.Smaller, (solitary → m.1.Solitary) → R (f m) (g m)) :
    R (Dispatcher.select ⟨host, execute, inSession, owner, settings⟩ v >>= f)
      (Dispatcher.select ⟨host, other, inSession, owner, settings⟩ v >>= g) := by
  simp only [Dispatcher.select]
  rw [bind_assoc, bind_assoc]
  refine d.bind (d.expect v.misuses_offeredNames) fun names => ?_
  split
  · rw [Act.fail_bind, Act.fail_bind]
    exact d.fail nofun
  · rw [bind_assoc, bind_assoc]
    refine d.bind (d.ask _ (.suggest _ _ _) rfl) fun chosen => ?_
    split
    · rw [Act.fail_bind, Act.fail_bind]
      exact d.fail nofun
    · next name _ =>
      cases hm : v.smallerMember? name with
      | error e =>
        simp only [Act.expect, Act.fail_bind]
        exact d.fail ((v.misuses_smallerMember? _).ne_endless_of_eq hm)
      | ok m =>
        simp only [Act.expect, pure_bind]
        cases m with
        | none =>
          rw [Act.fail_bind, Act.fail_bind]
          exact d.fail nofun
        | some m =>
          simp only [pure_bind]
          exact hf m fun hsolitary => (h hsolitary).member (Value.memberOf?_of_smaller hm)

/-- Dispatching the export of a script, however deep it is nested. -/
theorem dispatch (d : Scripting host execute other solitary R) (inSession : Bool) (owner : Value)
    (settings : Option Entries) {v : Value} (h : solitary → v.Solitary) :
    R (Dispatcher.run ⟨host, execute, inSession, owner, settings⟩ v)
      (Dispatcher.run ⟨host, other, inSession, owner, settings⟩ v) := by
  -- choosing a member and dispatching it is one act in two of the branches
  have hselect : R
      (Dispatcher.select ⟨host, execute, inSession, owner, settings⟩ v >>= fun m =>
        Dispatcher.run ⟨host, execute, inSession, owner, settings⟩ m.1)
      (Dispatcher.select ⟨host, other, inSession, owner, settings⟩ v >>= fun m =>
        Dispatcher.run ⟨host, other, inSession, owner, settings⟩ m.1) :=
    d.select inSession owner settings h fun m hm => dispatch d inSession owner settings hm
  rw [Dispatcher.run, Dispatcher.run]
  split
  · exact d.map _ (d.callWithSettings _ _ h)
  · exact d.bind (d.expect (Value.misuses_comparedText _)) fun _ => d.pure _
  · cases hentry : v.member? "entry" with
    | error e =>
      simp only [Act.expect, Act.fail_bind]
      exact d.fail ((v.misuses_member? _).ne_endless_of_eq hentry)
    | ok m =>
      simp only [Act.expect, pure_bind]
      cases settings with
      | none => exact hselect
      | some given =>
        cases m with
        | none => exact hselect
        | some entry =>
          have hmember : v.memberOf? (.text "entry") = .ok (some entry) := hentry
          exact d.map _ (d.callWithSettings _ _ fun hsolitary => (h hsolitary).member hmember)
  · exact hselect
  · exact d.bind (d.note _) fun _ => d.pure _
termination_by sizeOf v
decreasing_by exact m.2

/-- What comes after loading a script may rely on it to be solitary, if they all are. -/
structure Loads (host : Host σ) (solitary : Prop) (R : ∀ {α : Type}, Act σ α → Act σ α → Prop)
    (path : String) : Prop where
  bind : ∀ {β : Type} {f g : Value → Act σ β}, (∀ v, (solitary → v.Solitary) → R (f v) (g v)) →
    R (Act.ask (.load path) (host.loadScript path) >>= f)
      (Act.ask (.load path) (host.loadScript path) >>= g)

variable {path : String} (hload : Loads host solitary R path)

include hload

theorem runScript (d : Scripting host execute other solitary R) (name : Value)
    (settings : Entries) :
    R (Running.runScript ⟨host, execute, name⟩ path settings)
      (Running.runScript ⟨host, other, name⟩ path settings) := by
  rw [Running.runScript, Running.runScript]
  refine hload.bind fun exported h => ?_
  split
  · exact d.bind (d.note _) fun _ => d.pure _
  · exact d.dispatch _ _ _ h

omit hload in
theorem targetHolds (d : Scripting host execute other solitary R) (member : Value)
    {target : Option Value} (h : ∀ v ∈ target, solitary → v.Solitary) :
    R (Choicebook.targetHolds host execute path member target)
      (Choicebook.targetHolds host other path member target) := by
  cases target with
  | none => exact d.bind (d.note _) fun _ => d.pure _
  | some v =>
    rw [Choicebook.targetHolds, Choicebook.targetHolds]
    split
    · exact d.bind (d.call _ (h v rfl)) fun r => d.pure _
    · exact d.pure _

theorem scriptHolds (d : Scripting host execute other solitary R) (member : Value) :
    R (Choicebook.scriptHolds host execute path member)
      (Choicebook.scriptHolds host other path member) := by
  rw [Choicebook.scriptHolds, Choicebook.scriptHolds]
  refine hload.bind fun exported h => ?_
  split
  · exact d.bind (d.note _) fun _ => d.pure _
  · split
    · cases hm : exported.memberOf? member with
      | error e =>
        simp only [Act.expect, Act.fail_bind]
        exact d.fail ((exported.misuses_memberOf? _).ne_endless_of_eq hm)
      | ok m =>
        simp only [Act.expect, pure_bind]
        refine d.targetHolds _ fun v hv hsolitary => ?_
        cases hv
        exact (h hsolitary).member hm
    · simp only [Act.expect, pure_bind]
      exact d.targetHolds _ (by rintro v ⟨⟩; exact h)

end Scripting

namespace Commanding

variable {R : ∀ {α : Type}, Act σ α → Act σ α → Prop} {host : Host σ}
  {execute other : Placed → Act σ Unit}

theorem variableHolds (d : Commanding host execute other R) (c : VariableCondition) :
    R (Condition.holds host execute (.onVariable c))
      (Condition.holds host other (.onVariable c)) := by
  refine d.read (fun _ _ h => by simp only [h.frame, and_self]) fun s =>
    d.bind (d.expect (c.misuses_evaluate _)) fun verdict => ?_
  dsimp only
  split
  · exact d.bind (d.note _) fun _ => d.pure _
  · exact d.pure _

/-! ### Commands -/

mutual

/-- Every command without a target. -/
theorem stepCommand (d : Commanding host execute other R) (name : Value) :
    ∀ c : Command,
      R (Running.step ⟨host, execute, name⟩ c none
          (Running.runCommand ⟨host, execute, name⟩ c none))
        (Running.step ⟨host, other, name⟩ c none (Running.runCommand ⟨host, other, name⟩ c none))
  | .host _ commandId => by
    rw [Running.runCommand, Running.runCommand]
    exact d.step name _ rfl (d.bind (d.ask _ (.runCommand commandId) rfl) fun _ => d.pure _)
  | .script _ path settings _ => by
    rw [Running.runCommand, Running.runCommand]
    exact d.script name _ path settings _
  | .choice _ _ => by
    rw [Running.runCommand, Running.runCommand]
    exact d.step name _ rfl (d.bind (d.note _) fun _ => d.pure _)
  | .nested _ _ => by
    rw [Running.runCommand, Running.runCommand]
    exact d.step name _ rfl (d.bind (d.note _) fun _ => d.pure _)
  | .wait _ time => by
    rw [Running.runCommand, Running.runCommand]
    exact d.wait name _ time
  | .editor _ action => by
    rw [Running.runCommand, Running.runCommand]
    exact d.step name _ rfl (d.bind (d.ask _ (.edit action) rfl) fun _ => d.pure _)
  | .conditional _ c thens elses => by
    rw [Running.runCommand, Running.runCommand]
    have hbranch : ∀ holds : Bool,
        R (if holds then Running.runCommands ⟨host, execute, name⟩ thens none
            else Running.runCommands ⟨host, execute, name⟩ elses none)
          (if holds then Running.runCommands ⟨host, other, name⟩ thens none
            else Running.runCommands ⟨host, other, name⟩ elses none) := by
      intro holds
      split
      · exact runCommands d name thens none
      · exact runCommands d name elses none
    cases c with
    | byScript path member => exact d.scripted name _ path member thens elses hbranch
    | onVariable c =>
      exact d.step name _ rfl (d.bind d.pullFrame fun _ => d.bind (d.variableHolds c) hbranch)
  | .assistant h payload => by
    rw [Running.runCommand, Running.runCommand]
    -- an assistant that is not there assigns nothing
    refine d.step name _ rfl (d.read (fun _ _ h => by simp only [h.frame, and_self]) fun s =>
      d.bind (d.ask _ (.runAssistant _ _ _) rfl) fun assigned => ?_)
    dsimp only
    split
    · exact d.bind (d.updateFrame _) fun _ => d.pure _
    · exact d.pure _
  | .openFile _ path inNewTab direction => by
    rw [Running.runCommand, Running.runCommand]
    exact d.step name _ rfl (d.bind (d.ask _ (.openFile _ _ _) rfl) fun _ => d.pure _)

/-- Every list of commands. -/
theorem runCommands (d : Commanding host execute other R) (name : Value) :
    ∀ (cs : List Command) (output : Option Value),
      R (Running.runCommands ⟨host, execute, name⟩ cs output)
        (Running.runCommands ⟨host, other, name⟩ cs output)
  | [], _ => by
    rw [Running.runCommands, Running.runCommands]
    exact d.pure _
  | c :: cs, output => by
    rw [Running.runCommands, Running.runCommands]
    refine d.read (fun _ _ h => by simp only [h.document, and_self]) fun s =>
      d.bind ?_ fun new => runCommands d name cs _
    -- the target is looked up before the command begins
    cases ht : Running.target? s.document c with
    | none => exact stepCommand d name c
    | some p =>
      -- only two kinds of commands have a target, and those do nothing but enter it
      cases c with
      | choice _ _ =>
        rw [Running.runCommand, Running.runCommand]
        exact d.enter name s.document _ p ht
      | nested _ _ =>
        rw [Running.runCommand, Running.runCommand]
        exact d.enter name s.document _ p ht
      | _ => cases ht

end

/-- Every macro. -/
theorem runBody (d : Commanding host execute other R) (name : Value) (body : Option Macro) :
    R (Running.runBody ⟨host, execute, name⟩ body) (Running.runBody ⟨host, other, name⟩ body) := by
  rw [Running.runBody, Running.runBody]
  split
  · exact d.bind (d.note _) fun _ => d.pure _
  · exact d.map _ (d.runCommands name _ none)

end Commanding

namespace Comparison

variable {R : ∀ {α : Type}, Act σ α → Act σ α → Prop} {host : Host σ}
  {execute other : Placed → Act σ Unit}

theorem handOver (d : Comparison host execute other R) (vars : Value) :
    R (Call.handOver vars : Act σ Unit) (Call.handOver vars) := by
  rw [Call.handOver]
  split
  · exact d.bind (d.expect vars.misuses_toEntries) fun extra => d.updateShared extra
  · exact d.pure ()

/-- A choice that a script runs by name. -/
theorem callChoice (d : Comparison host execute other R) (name : String) (vars : Value) :
    R (Call.runChoice execute name vars) (Call.runChoice other name vars) := by
  refine d.read (fun _ _ h => by simp only [h.document, and_self]) fun s => ?_
  split
  · exact d.bind (d.note _) fun _ => d.fail (by rintro ⟨⟩)
  · exact d.bind (d.handOver vars) fun _ => d.enterChoice _

theorem scripting (d : Comparison host execute other R) :
    Scripting host execute other False R where
  toFramed := d.toFramed
  rescue := d.rescue
  ask e _ ha := d.ask e ha.offers
  callChoice _ := d.callChoice

private theorem loads (d : Comparison host execute other R) (path : String) :
    Scripting.Loads host False R path where
  bind h := d.bind (d.ask _ (.loadScript path) rfl) fun v => h v nofun

theorem commanding (d : Comparison host execute other R) : Commanding host execute other R where
  toFramed := d.toFramed
  ask e _ ha := d.ask e ha.offers
  script name _ path settings _ :=
    d.step name _ (d.scripting.runScript (d.loads path) name settings)
  scripted name _ path member _ _ _ _ h := d.step name _ (d.bind d.pullFrame fun _ =>
    d.bind (d.scripting.scriptHolds (d.loads path) member) h)
  step name c _ _ _ h := d.step name c h
  wait := d.wait
  enter name _ c p _ := d.enter name c p

/-- The script of a command. -/
theorem runScript (d : Comparison host execute other R) (name : Value) (path : String)
    (settings : Entries) :
    R (Running.runScript ⟨host, execute, name⟩ path settings)
      (Running.runScript ⟨host, other, name⟩ path settings) :=
  d.scripting.runScript (d.loads path) name settings

theorem call (d : Comparison host execute other R) (args : Arguments) (v : Value) :
    R (v.call host execute args) (v.call host other args) :=
  d.scripting.call args nofun

theorem callWithSettings (d : Comparison host execute other R) (inSession : Bool)
    (settings : Option Entries) (v : Value) :
    R (v.callWithSettings host execute inSession settings)
      (v.callWithSettings host other inSession settings) :=
  d.scripting.callWithSettings inSession settings nofun

theorem dispatch (d : Comparison host execute other R) (inSession : Bool) (owner : Value)
    (settings : Option Entries) (v : Value) :
    R (Dispatcher.run ⟨host, execute, inSession, owner, settings⟩ v)
      (Dispatcher.run ⟨host, other, inSession, owner, settings⟩ v) :=
  d.scripting.dispatch inSession owner settings nofun

theorem targetHolds (d : Comparison host execute other R) (path : String) (member : Value)
    (target : Option Value) :
    R (Choicebook.targetHolds host execute path member target)
      (Choicebook.targetHolds host other path member target) :=
  d.scripting.targetHolds member fun _ _ => nofun

theorem runCommands (d : Comparison host execute other R) (name : Value) (cs : List Command)
    (output : Option Value) :
    R (Running.runCommands ⟨host, execute, name⟩ cs output)
      (Running.runCommands ⟨host, other, name⟩ cs output) :=
  d.commanding.runCommands name cs output

/-- Every macro. -/
theorem runBody (d : Comparison host execute other R) (name : Value) (body : Option Macro) :
    R (Running.runBody ⟨host, execute, name⟩ body) (Running.runBody ⟨host, other, name⟩ body) :=
  d.commanding.runBody name body

end Comparison

end Choicebook
