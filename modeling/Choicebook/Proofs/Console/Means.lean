import Choicebook.Console.Host
import Choicebook.Proofs.Session.Host
import Choicebook.Proofs.Session.Misuses

/-!
# What a console does with

Everything that a console does for a session is put together from few means. So a property of acts
that these have, and that composition keeps, is a property of everything that the console offers
(`Console.Law.offers`), whatever renders its templates.

Most of it is looking around: it leaves the files as they are and logs nothing. What is only that
needs less (`Console.Means`).

Functions that stand in templates, and commands that are scripts, are called without the parameters
of a macro, so nearly all that a step of theirs can do is to fail (`Act.Bare`).
-/

namespace Choicebook

/-- Whether an event is a line of the log. -/
def Event.isLogged : Event → Bool
  | .warning _ | .failure _ => true
  | _ => false

/-! ### Scripts without parameters -/

/-- A property of acts that the means of a script without parameters have, and that composition
keeps. -/
structure Act.Bare {σ : Type} (L : ∀ {α : Type}, Act σ α → Prop) : Prop where
  pure : ∀ {α : Type} (x : α), L (pure x : Act σ α)
  bind : ∀ {α β : Type} {a : Act σ α} {f : α → Act σ β}, L a → (∀ x, L (f x)) → L (a >>= f)
  read : ∀ {β : Type} {f : Session σ → Act σ β}, (∀ s t, Session.Agree s t → f s = f t) →
    (∀ s, L (f s)) → L (get >>= f)
  fail : ∀ {α : Type} {f : Fault}, f ≠ .endless → L (Act.fail f : Act σ α)
  note : ∀ {e : Event}, e.isLogged = false → e.isPause = false → L (Act.note e : Act σ Unit)
  rescue : ∀ {α : Type} {a : Act σ α} {carryOn : Fault → Act σ α}, L a → (∀ f, L (carryOn f)) →
    L (Act.rescue a carryOn)

namespace Act.Bare

variable {σ : Type} {L : ∀ {α : Type}, Act σ α → Prop} {host : Host σ}
  {execute : Placed → Act σ Unit} {c : Call}

theorem map (l : Bare L) {α β : Type} (f : α → β) {a : Act σ α} (ha : L a) : L (f <$> a) := by
  rw [map_eq_pure_bind]
  exact l.bind ha fun x => l.pure (f x)

/-- Where something is missing, what comes next is not reached. -/
theorem need_bind (l : Bare L) {β : Type} {present : Bool} (h : present = false)
    (f : Unit → Act σ β) : L (Call.need present >>= f) := by
  subst h
  exact l.fail (f := .misuse .noAttribute) nofun

theorem operand (l : Bare L) (h : c.hasParameters = false) (x : Operand) :
    L (c.operand (σ := σ) x) := by
  cases x with
  | literal v => exact l.pure v
  | named name => exact l.need_bind h _
  | setting key =>
    rw [Call.operand]
    split
    · exact l.fail (by rintro ⟨⟩)
    · split
      · exact l.pure _
      · exact l.fail (by rintro ⟨⟩)
  | argumentCount => exact l.pure _

theorem assign (l : Bare L) (h : c.hasParameters = false) (name : String) (v : Value) :
    L (c.assign (σ := σ) name v) :=
  l.need_bind h _

mutual

/-- A step that is not a failure computes, or records something. -/
theorem runStep (l : Bare L) (h : c.hasParameters = false) :
    ∀ s : Step, L (c.runStep host execute s)
  | .assign name x => by
    rw [Call.runStep]
    exact l.bind (l.operand h x) fun v => l.bind (l.assign h name v) fun _ => l.pure _
  | .discard name => by
    rw [Call.runStep]
    exact l.need_bind h _
  | .record label => by
    rw [Call.runStep]
    refine l.read (fun s t hst => by rw [hst.frame]) fun _ => ?_
    exact l.bind (l.note rfl rfl) fun _ => l.pure _
  | .recordShared => by
    rw [Call.runStep]
    refine l.read (fun s t hst => by rw [hst.shared]) fun _ => ?_
    exact l.bind (l.note rfl rfl) fun _ => l.pure _
  | .abort reason => by
    rw [Call.runStep]
    exact l.need_bind h _
  | .fail kind message => by
    rw [Call.runStep]
    exact l.fail (Fault.ofRaise_ne_endless kind message)
  | .inspect key into => by
    rw [Call.runStep, Call.inspected.eq_def, h]
    exact l.bind (l.fail nofun) fun v => l.bind (l.assign h into v) fun _ => l.pure _
  | .listNames into => by
    rw [Call.runStep]
    exact l.need_bind h _
  | .runChoice name vars => by
    rw [Call.runStep]
    exact l.need_bind (by rw [h]; rfl) _
  | .pick labels items placeholder into => by
    rw [Call.runStep]
    exact l.need_bind (by rw [h]; rfl) _
  | .pickCapitals items placeholder into => by
    rw [Call.runStep]
    exact l.need_bind (by rw [h]; rfl) _
  | .pickByPosition items placeholder into => by
    rw [Call.runStep]
    exact l.need_bind (by rw [h]; rfl) _
  | .ask header preset into => by
    rw [Call.runStep]
    exact l.need_bind (by rw [h]; rfl) _
  | .attempt steps into => by
    rw [Call.runStep]
    exact l.rescue (l.runSteps h steps) fun f => l.bind (l.assign h into _) fun _ => l.pure _
  | .finish x => by
    rw [Call.runStep]
    exact l.map _ (l.operand h x)

theorem runSteps (l : Bare L) (h : c.hasParameters = false) :
    ∀ steps : List Step, L (c.runSteps host execute steps)
  | [] => by
    rw [Call.runSteps]
    exact l.pure _
  | s :: rest => by
    rw [Call.runSteps]
    refine l.bind (l.runStep h s) fun r => ?_
    split
    · exact l.pure _
    · exact l.runSteps h rest

end

/-- Something that is called without arguments, or that is no function. -/
theorem call (l : Bare L) {args : Arguments} {v : Value}
    (h : ∀ label arity steps, v = .function label arity steps → args = .none) :
    L (v.call host execute args) := by
  rw [Value.call.eq_def]
  split
  · obtain rfl := h _ _ _ rfl
    split
    · exact l.fail nofun
    · exact l.map _ (l.runSteps rfl _)
  · split
    · exact l.pure _
    · exact l.fail nofun
  · exact l.fail nofun

/-- A relation between the states before and after an act, if a failure keeps to it. -/
theorem of_relation {R : Session σ → Session σ → Prop} (refl : ∀ s, R s s)
    (trans : ∀ {s t u}, R s t → R t u → R s u) (remember : ∀ s m, R s (s.remember m))
    (note : ∀ s {e : Event}, e.isLogged = false → e.isPause = false → R s (s.note e)) :
    Bare fun {α} (a : Act σ α) => ∀ s, R s (a.runOn s).2 where
  pure _ := refl
  bind ha hf := fun s => runOn_bind_keeps (P := R s) (ha s) fun x t ht => trans ht (hf x t)
  read _ hf := fun s => hf s s
  fail _ := fun s => remember s _
  note h hp := fun s => note s h hp
  rescue := by
    intro α a carryOn ha hc s
    have hrun := ha s
    rw [runOn_rescue]
    generalize a.runOn s = run at hrun ⊢
    obtain ⟨f | x, t⟩ := run
    · rw [proceed_error]
      split
      · exact hrun
      · exact trans (trans hrun (remember t _)) (hc f _)
    · exact hrun

end Act.Bare

namespace Console

/-! ### Means -/

/-- A property of acts that looking around in a console has, and that composition keeps. -/
structure Means (L : ∀ {α : Type}, Act Console α → Prop) : Prop where
  pure : ∀ {α : Type} (x : α), L (pure x : Act Console α)
  bind : ∀ {α β : Type} {a : Act Console α} {f : α → Act Console β}, L a → (∀ x, L (f x)) →
    L (a >>= f)
  read : ∀ {β : Type} {f : Session Console → Act Console β},
    (∀ s t, Session.Agree s t → f s = f t) → (∀ s, L (f s)) → L (get >>= f)
  throw : ∀ {α : Type} {f : Fault}, f ≠ .endless → L (throw f : Act Console α)
  note : ∀ {e : Event}, e.isLogged = false → e.isPause = false → L (Act.note e)
  /-- What is not about files or lines. -/
  change : ∀ {f : Console → Console}, (∀ c, (f c).tree = c.tree) → (∀ c, (f c).lines = c.lines) →
    L (change f)
  nextLine : L nextLine
  callInTemplate : ∀ (v : Value) (source : Option String), L (callInTemplate v source)

/-- The same for all means of a console. -/
structure Law (L : ∀ {α : Type}, Act Console α → Prop) : Prop extends Means L where
  log : ∀ {e : Event}, e.isLogged = true → e.isPause = false → L (Act.note e)
  setTree : ∀ tree : Files.Tree, L (Console.change fun c => { c with tree := tree })
  script : ∀ f : Value, L (Act.aside (f.call bare (fun _ => return ()) .none))

/-- A function that stands in a template is called aside. -/
theorem bare_callInTemplate {K L : ∀ {α : Type}, Act Console α → Prop} (b : Act.Bare K)
    (throw : ∀ {α : Type} {f : Fault}, f ≠ .endless → K (throw f : Act Console α))
    (aside : ∀ {α : Type} {a : Act Console α}, K a → L (Act.aside a))
    (v : Value) (source : Option String) : L (callInTemplate v source) := by
  refine aside ?_
  split
  · split
    · exact throw nofun
    · exact b.map _ (b.runSteps rfl _)
  · next hv => exact b.call fun label arity steps heq => (hv label arity steps heq).elim

/-- A command that is a script is called aside. -/
theorem bare_script {K L : ∀ {α : Type}, Act Console α → Prop} (b : Act.Bare K)
    (aside : ∀ {α : Type} {a : Act Console α}, K a → L (Act.aside a)) (f : Value) :
    L (Act.aside (f.call bare (fun _ => return ()) .none)) :=
  aside (b.call fun _ _ _ _ => rfl)

theorem misuses_chosen? (labels : List Value) (count : Nat) (answer : String) :
    Misuses (chosen? labels count answer) := by
  refine (Value.misuses_position? answer).bind fun number => ?_
  split
  · exact .ok _
  · split
    · exact .ok _
    · exact .ite _ (.ok _) (.misuse _)

theorem misuses_firstOf (v : Value) : Misuses (firstOf v) := by
  rw [firstOf.eq_def]
  split
  · exact .ok _
  · exact .ok _
  · exact .ok _
  · exact .ok _
  · split
    · exact .ok _
    · exact .misuse _
  · exact .misuse _

theorem misuses_namedFolder? (folder : Value) : Misuses (namedFolder? folder) := by
  rw [namedFolder?.eq_def]
  split
  · exact .ok _
  · split
    · exact .ok _
    · exact .misuse _

theorem misuses_folderOf? (payload : Entries) : Misuses (folderOf? payload) := by
  rw [folderOf?]
  split
  · exact .ite _ ((misuses_firstOf _).bind misuses_namedFolder?) (misuses_namedFolder? .null)
  · exact misuses_namedFolder? _

namespace Means

/-- A relation between the states before and after an act, if a line may be taken. -/
theorem of_relation {R : Session Console → Session Console → Prop} (refl : ∀ s, R s s)
    (trans : ∀ {s t u}, R s t → R t u → R s u)
    (note : ∀ s {e : Event}, e.isLogged = false → e.isPause = false → R s (s.note e))
    (change : ∀ (s : Session Console) {f : Console → Console}, (∀ c, (f c).tree = c.tree) →
      (∀ c, (f c).lines = c.lines) → R s { s with host := f s.host })
    (taken : ∀ {s : Session Console} {line : Option String} {rest : List (Option String)},
      s.host.lines = line :: rest → R s { s with host := { s.host with lines := rest } })
    (callInTemplate : ∀ v source s, R s ((Console.callInTemplate v source).runOn s).2) :
    Means fun {α} (a : Act Console α) => ∀ s, R s (a.runOn s).2 where
  pure _ := refl
  bind ha hf := fun s => Act.runOn_bind_keeps (P := R s) (ha s) fun x t ht => trans ht (hf x t)
  read _ hf := fun s => hf s s
  throw _ := refl
  note h hp := fun s => note s h hp
  change htree hlines := fun s => change s htree hlines
  nextLine := by
    intro s
    rw [Console.nextLine, Act.runOn_get_bind]
    split
    · exact change s (f := fun c => { c with isStarved := true }) (fun _ => rfl) fun _ => rfl
    · next line rest hlines => exact taken hlines
  callInTemplate := callInTemplate

variable {L : ∀ {α : Type}, Act Console α → Prop} {r : Renderer}

theorem lift (l : Means L) {α : Type} {x : Except Fault α} (hx : Misuses x) : L (Act.lift x) := by
  cases x with
  | ok x => exact l.pure x
  | error f => exact l.throw (hx.ne_endless_of_eq rfl)

/-! ### Lines -/

theorem print (l : Means L) (text : String) : L (print text) :=
  l.change (fun _ => rfl) fun _ => rfl

theorem printError (l : Means L) (text : String) : L (printError text) :=
  l.change (fun _ => rfl) fun _ => rfl

theorem readLine (l : Means L) (header : String) : L (readLine header) := by
  refine l.read (fun s t h => by rw [h.host]) fun s => ?_
  dsimp only
  split
  · exact l.bind (l.print _) fun _ => l.nextLine
  · exact l.bind (l.note rfl rfl) fun _ => l.nextLine

theorem prompt (l : Means L) (header : String) (preset : Option String) :
    L (prompt header preset) := by
  refine l.bind (l.readLine _) fun answer => ?_
  split
  · exact l.pure _
  · exact l.pure _

theorem require (l : Means L) (header : String) : L (require header) := by
  refine l.bind (l.readLine _) fun answer => ?_
  split
  · exact l.pure _
  · exact l.throw nofun

theorem onAnswer (l : Means L) (labels : List Value) (count : Nat)
    {askAgain : Act Console (Option Nat)} (h : L askAgain) (line : Option String) :
    L (onAnswer labels count askAgain line) := by
  rw [Console.onAnswer]
  split
  · exact l.pure _
  · refine l.bind (l.lift (misuses_chosen? labels count _)) fun chosen => ?_
    split
    · exact l.pure _
    · exact l.bind (l.print _) fun _ => h

theorem askUntilChosen (l : Means L) (labels : List Value) (count fuel : Nat) :
    L (askUntilChosen labels count fuel) := by
  induction fuel with
  | zero => exact l.pure _
  | succ fuel ih => exact l.bind (l.readLine _) fun line => l.onAnswer labels count ih line

theorem forIn (l : Means L) {α : Type} {f : α → PUnit → Act Console (ForInStep PUnit)}
    (h : ∀ x, L (f x ⟨⟩)) (xs : List α) : L (forIn xs PUnit.unit f) := by
  induction xs with
  | nil => exact l.pure _
  | cons x xs ih =>
    rw [List.forIn_cons]
    refine l.bind (h x) fun next => ?_
    cases next with
    | done => exact l.pure _
    | yield => exact ih

theorem showItems (l : Means L) (labels : List Value) (placeholder : Value) :
    L (showItems labels placeholder) := by
  have hlist := l.forIn (f := fun (item : Value × Nat) _ => do
    printLine ("  " ++ toString (item.2 + 1) ++ ". " ++ item.1.display)
    return ForInStep.yield PUnit.unit) (fun _ => l.bind (l.print _) fun _ => l.pure _)
    labels.zipIdx
  rw [Console.showItems]
  dsimp only
  split
  · exact l.bind (l.print _) fun _ => l.bind hlist fun _ => l.pure _
  · exact l.bind hlist fun _ => l.pure _

theorem suggest (l : Means L) (labels : List Value) (count : Nat) (placeholder : Value) :
    L (suggest labels count placeholder) :=
  l.bind (l.showItems labels placeholder) fun _ =>
    l.read (fun s t h => by rw [h.host]) fun _ => l.askUntilChosen _ _ _

/-! ### Files -/

theorem visit (l : Means L) (p : Files.Path) : L (visit p) :=
  l.bind (l.change (fun _ => rfl) fun _ => rfl) fun _ =>
    l.read (fun s t h => by rw [h.host]) fun _ => l.pure _

theorem isFile (l : Means L) (p : Files.Path) : L (isFile p) :=
  l.bind (l.visit p) fun _ => l.pure _

theorem holds (l : Means L) (p : Files.Path) : L (holds p) :=
  l.bind (l.visit p) fun _ => l.pure _

theorem readText (l : Means L) (p : Files.Path) : L (readText p) :=
  l.bind (l.visit p) fun tree => l.lift (tree.misuses_readText p)

theorem readRaw (l : Means L) (p : Files.Path) : L (readRaw p) :=
  l.bind (l.visit p) fun tree => l.lift (tree.misuses_readRaw p)

theorem atHome (l : Means L) (p : Files.Path) : L (atHome p) := by
  rw [Console.atHome]
  split
  · exact l.pure _
  · exact l.read (fun s t h => by rw [h.host]) fun _ => l.pure _

theorem resolve (l : Means L) (text : String) : L (resolve text) := by
  refine l.bind (l.atHome _) fun p => ?_
  split
  · exact l.read (fun s t h => by rw [h.host]) fun _ => l.pure _
  · exact l.throw nofun

theorem openPath (l : Means L) (path : String) : L (openPath path) :=
  l.bind (l.change (fun _ => rfl) fun _ => rfl) fun _ => l.print _

/-! ### Templates -/

theorem inclusion (l : Means L) (name : String) : L (inclusion name) := by
  refine l.bind (l.holds _) fun found => ?_
  split
  · refine l.bind (l.readRaw _) fun v => ?_
    split
    · split
      · exact l.pure _
      · exact l.throw (by rintro ⟨⟩)
    · exact l.pure _
  · exact l.pure _

/-- Whatever renders templates in a console has the property. -/
theorem renderShared (l : Means L) (template : String) (extra : Entries) :
    L (renderShared r template extra) := by
  refine l.read (fun s t h => by rw [h.shared]) fun _ => ?_
  refine l.read (fun s t h => by rw [h.host]) fun _ => ?_
  exact r.lawful ⟨l.pure, l.bind, l.throw, l.callInTemplate, l.inclusion⟩ _ _

theorem givenName (l : Means L) (payload : Entries) : L (givenName r payload) := by
  rw [Console.givenName]
  split
  · exact l.renderShared _ _
  · exact l.throw nofun
  · exact l.require _

theorem newFileName (l : Means L) (payload : Entries) : L (newFileName r payload) :=
  l.bind (l.givenName payload) fun _ => l.pure _

theorem newFilePath (l : Means L) (payload : Entries) : L (newFilePath r payload) := by
  refine l.bind (l.newFileName payload) fun name =>
    l.bind (l.lift (misuses_folderOf? payload)) fun folder => ?_
  split
  · exact l.resolve _
  · exact l.resolve _

/-! ### Captures -/

theorem textOf (l : Means L) (target : Files.Path) : L (textOf target) := by
  refine l.bind (l.holds target) fun found => ?_
  split
  · exact l.readText target
  · exact l.pure _

theorem capturedText (l : Means L) (head : ChoiceHead) (payload : Entries) :
    L (capturedText r head payload) := by
  rw [Console.capturedText]
  split
  · split
    · exact l.bind (l.require _) fun _ => l.renderShared _ _
    · exact l.renderShared _ _
  · exact l.throw nofun
  · exact l.throw nofun
  · exact l.require _

end Means

namespace Law

variable {L : ∀ {α : Type}, Act Console α → Prop} {r : Renderer}

theorem logWarning (l : Law L) (text : String) : L (Act.logWarning text : Act Console Unit) :=
  l.log rfl rfl

theorem logFailure (l : Law L) (text : String) : L (Act.logFailure text : Act Console Unit) :=
  l.log rfl rfl

theorem makeDirectory (l : Law L) (p : Files.Path) : L (makeDirectory p) :=
  l.bind (l.visit p) fun tree => l.bind (l.lift (tree.misuses_withDirectory _)) fun made =>
    l.setTree made

theorem writeText (l : Law L) (p : Files.Path) (text : String) : L (writeText p text) :=
  l.bind (l.visit p) fun tree => l.bind (l.lift (tree.misuses_writeText _ _)) fun written =>
    l.setTree written

theorem createFrom (l : Law L) (source target : Files.Path) (owner : String) (payload : Entries) :
    L (createFrom r source target owner payload) := by
  refine l.bind (l.holds target) fun found => ?_
  split
  · exact l.logWarning _
  · refine l.bind (l.readText source) fun template => l.bind (l.renderShared _ _) fun body =>
      l.bind (l.makeDirectory target) fun _ => l.bind (l.writeText target body) fun _ => ?_
    split
    · exact l.openPath _
    · exact l.pure _

theorem templateOf? (l : Law L) (owner : String) (payload : Entries) :
    L (templateOf? owner payload) := by
  rw [Console.templateOf?]
  split
  · exact l.bind (l.logFailure _) fun _ => l.pure _
  · split
    · refine l.bind (l.resolve _) fun source => l.bind (l.isFile source) fun found => ?_
      split
      · exact l.pure _
      · exact l.bind (l.logFailure _) fun _ => l.pure _
    · exact l.throw nofun

theorem runTemplate (l : Law L) (head : ChoiceHead) (payload : Entries) :
    L (runTemplate r head payload) := by
  refine l.bind (l.templateOf? _ payload) fun source => ?_
  split
  · exact l.pure _
  · exact l.bind (l.newFilePath payload) fun target => l.createFrom _ target _ payload

theorem captureTarget? (l : Law L) (owner : String) (payload : Entries) :
    L (captureTarget? r owner payload) := by
  rw [Console.captureTarget?]
  split
  · exact l.bind (l.logFailure _) fun _ => l.pure _
  · exact l.bind (l.lift (Value.misuses_written _)) fun place =>
      l.bind (l.renderShared place _) fun path => l.bind (l.resolve path) fun _ => l.pure _

theorem addTo (l : Law L) (target : Files.Path) (toFront : Bool) (text : String) :
    L (addTo target toFront text) :=
  l.bind (l.makeDirectory target) fun _ => l.bind (l.textOf target) fun _ => l.writeText target _

theorem runCapture (l : Law L) (head : ChoiceHead) (payload : Entries) :
    L (runCapture r head payload) := by
  refine l.bind (l.captureTarget? _ payload) fun target => ?_
  split
  · exact l.pure _
  · exact l.bind (l.capturedText head payload) fun text => l.addTo _ _ text

/-! ### The host -/

theorem edit (l : Law L) (action : EditorAction) : L (edit action) := by
  refine l.read (fun s t h => by rw [h.host]) fun s => ?_
  refine l.bind (l.change (fun _ => rfl) fun _ => rfl) fun _ => ?_
  split
  · exact l.logWarning _
  · exact l.pure _

theorem runCommand (l : Law L) (id : String) : L (runCommand id) := by
  refine l.read (fun s t h => by rw [h.host]) fun s => ?_
  dsimp only
  split
  · exact l.throw nofun
  · exact l.print _
  · exact l.print _
  · exact l.change (fun _ => rfl) fun _ => rfl
  · exact l.bind (l.script _) fun _ => l.pure _

theorem scriptPath (l : Law L) (path : String) : L (scriptPath path) := by
  rw [Console.scriptPath]
  split
  · exact l.bind (l.atHome _) fun _ => l.pure _
  · exact l.read (fun s t h => by rw [h.host]) fun _ => l.pure _

theorem loadScript (l : Law L) (path : String) : L (loadScript path) := by
  refine l.bind (l.scriptPath path) fun p => l.bind (l.visit p) fun tree => ?_
  split
  · exact l.bind (l.logFailure _) fun _ => l.pure _
  · split
    · split
      · exact l.throw (Fault.ofRaise_ne_endless _ _)
      · exact l.pure _
    · exact l.bind (l.logFailure _) fun _ => l.pure _

/-- Everything that a console offers has the property. -/
theorem offers (l : Law L) {skipsPauses : Bool} {α : Type} {a : Act Console α}
    (h : (host r skipsPauses).Offers a) : L a := by
  cases h with
  | runCommand id => exact l.runCommand id
  | suggest labels count placeholder => exact l.suggest labels count placeholder
  | edit action => exact l.edit action
  | runTemplate head payload => exact l.runTemplate head payload
  | runCapture head payload => exact l.runCapture head payload
  | loadScript path => exact l.loadScript path
  | prompt header preset => exact l.prompt header preset
  | runAssistant name payload vars => exact l.throw nofun
  | openFile path inNewTab direction => exact l.openPath path
  | notify text => exact l.printError text

end Law

end Console

end Choicebook
