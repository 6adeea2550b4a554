import Mathlib
import Choicebook.Proofs.Session.SideBySide

/-!
# A nested macro is its commands

A command with a macro of its own runs this macro one level deeper, on a copy of the shared
variables. A cancellation of it becomes pending and is taken up at once by the macro around it.
Otherwise its variables are shared in the end, and the macro around it takes all shared variables
over. The commands of the macro do nothing of the kind when they stand in the place of that command,
and still a run cannot be told from one with those (`Runner.run_unfolded`), unless a script looks at
the order of the variables: that of the shared ones is another one (`Runner.run_unfolded_looking`).

`Inlining.inlines_once` is about the command itself, on one level. The macro that it runs may have
the same command inside again, in a choice that is found by its id, so everything else is by
induction over the levels that are left (`Inlining.executeAt_sides`). Entering the command takes a
level from the first session only.
-/

namespace Choicebook

variable {σ : Type} {host : Host σ}

/-! ### Trails of nested macros -/

/-- Nothing is taken from the trail that the body of a macro leaves. -/
theorem Host.Impartial.suffix_runMacro {states : σ → Prop} (hi : host.Impartial states)
    (execute : Placed → Act σ Unit) (c : Choice) (body : Option Macro) (s : Session σ) :
    ((Running.runBody ⟨host, execute, c.name⟩ body).runOn (Choice.opened s)).2.trail <:+
      ((Choice.runMacro host execute c body).runOn s).2.trail := by
  cases h : (Running.runBody ⟨host, execute, c.name⟩ body).runOn (Choice.opened s) with
  | mk result u =>
    cases result with
    | ok v => exact (Choice.runOn_runMacro_ok h) ▸ List.suffix_rfl
    | error f =>
      cases hf : f.isCancelled with
      | false => exact (Choice.runOn_runMacro_error hf h) ▸ List.suffix_rfl
      | true =>
        obtain ⟨reason, rfl⟩ := Fault.eq_cancelled hf
        rw [Choice.runOn_runMacro_cancelled h]
        exact hi.grows.surroundings.recordCancellation _ _ _ { u with frame := s.frame }

/-- Nothing is taken from the trail that the choice leaves. -/
theorem Running.suffix_enter (r : Running σ) (c : Command) (p : Placed) (s : Session σ) :
    ((r.execute p).runOn (s.remember (.started r.name c))).2.trail <:+
      ((r.step c (some p) (do r.enter p; return (none : Option Value))).runOn s).2.trail := by
  cases h : (r.execute p).runOn (s.remember (.started r.name c)) with
  | mk result u =>
    cases result with
    | error f => exact (runOn_enter_error h) ▸ List.suffix_rfl
    | ok _ =>
      cases hpending : u.pending with
      | none => exact (runOn_enter_ok h hpending) ▸ List.suffix_cons _ _
      | some reason => exact (runOn_enter_cancelled h hpending) ▸ List.suffix_cons _ _

namespace Inlining

variable {i : Inlining σ} {kept : Entries} {d e : Nat} {s t : Session σ}
  {execute other : Placed → Act σ Unit}

/-! ### The two ends of the macro -/

/-- A choice ends in the first session only. -/
theorem Twins.leaveLeft {u v : Session σ} (h : i.Twins (d + 1) e u v) (hst : i.Twins d e s t) :
    i.Twins d e (s.leave u) v :=
  { h with
    depth := congrArg (· - 1) h.depth
    deeper := hst.deeper
    outermost := hst.outermost }

/-- In a choice that begins with the variables of the macro around it. -/
theorem Inside.open (h : i.Inside kept d e s t)
    (hsame : ∀ name, s.frame.field? name = s.shared.field? name) (c : Choice) (name : Value) :
    i.Inside s.frame (d + 1) e
      (Choice.opened (Choice.inside c (s.remember (.started name i.command)))) t := by
  have hopened : (Entries.update [] s.shared).Alike s.shared :=
    Entries.Covers.alike (fun _ _ => rfl) h.shared.left Entries.named_nil
  have hframe : (Entries.update [] s.shared).Alike s.frame :=
    ⟨hopened.left, h.frame.left, fun name => (hopened.field? name).trans (hsame name).symm⟩
  exact { h with
    depth := congrArg (· + 1) h.depth
    deeper := Nat.le_succ_of_le h.deeper
    outermost := fun he => absurd he h.inside.ne'
    abreast := (((h.abreast.left rfl).left rfl).left rfl)
    frame := hframe.trans h.frame
    covers := hopened.covers
    kept := hframe.covers }

/-- The variables after a command that ran a choice of its own, if that choice began with the
variables that the macro had and those that it ended with are the shared ones. -/
private theorem Entries.fold {kept shared frame : Entries} (hkept : frame.Covers kept)
    (hnamed : kept.Named) (h : frame.Alike shared) :
    let all := kept.update (shared.update frame)
    all.Alike frame ∧ all.Alike ((shared.update frame).update all) := by
  intro all
  have hshared : (shared.update frame).Alike frame := h.covers.alike h.left h.right
  have hcovers : (shared.update frame).Covers kept := hshared.covers.trans hkept
  have hall : all.Alike (shared.update frame) := hcovers.alike hshared.left hnamed
  exact ⟨hall.trans hshared, (hall.covers.alike hall.left hall.right).symm⟩

/-- The choice that the command has of its own ends. -/
theorem Inside.close (h : i.Inside kept d e s t) {u v : Session σ}
    (hinner : i.Inside s.frame (d + 1) e u v) (halike : u.frame.Alike u.shared) (m : Mark)
    (hm : m.asked? = none) :
    let w := (Running.folded (s.leave
      { u with frame := s.frame, shared := u.shared.update u.frame })).remember m
    i.Inside kept d e w v ∧ w.frame.Alike w.shared := by
  intro w
  obtain ⟨hframe, hshared⟩ := Entries.fold hinner.kept h.frame.left halike
  exact ⟨{ hinner with
    shared := hshared.symm.trans (hframe.trans (halike.trans hinner.shared))
    depth := congrArg (· - 1) hinner.depth
    deeper := h.deeper
    outermost := h.outermost
    abreast := hinner.abreast.left hm
    frame := hframe.trans hinner.frame
    covers := hshared.covers
    kept := hframe.covers.trans (hinner.kept.trans h.kept) }, hshared⟩

/-- The choice that the command has of its own comes to the end that its body has come to: a
cancellation becomes pending and is taken up at once by the macro around it. -/
private theorem close_sides {head : ChoiceHead} {body : Option Macro} {name : Value}
    {result : Except Fault Value} {u : Session σ} {run' : Except Fault (Option Value) × Session σ}
    (hdepth : ¬s.config.maxDepth ≤ s.depth)
    (hresult : (Running.runBody ⟨i.host, execute, head.name⟩ body).runOn
      (Choice.opened (Choice.inside (.ofMacro head body)
        (s.remember (.started name i.command)))) = (result, u))
    (hended : Ended Fault.Alike
      (fun _ u _ v => i.Inside s.frame (d + 1) e u v ∧ u.frame.Alike u.shared)
      (i.Twins (d + 1) e) (result, u) run')
    (hst : i.Inside kept d e s t) :
    let p : Placed := ⟨.ofMacro head body, none⟩
    let r : Running σ := ⟨i.host, Choice.executeOnce i.host (Menu.browse i.host) execute, name⟩
    Ended Fault.Alike (fun _ u _ v => i.Inside kept d e u v ∧ u.frame.Alike u.shared) (i.Twins d e)
      ((r.step i.command (some p) (do r.enter p; return (none : Option Value))).runOn s) run' := by
  intro p r
  -- on the left side alone the command is begun and its choice is left again
  have hstarted : i.Twins d e (s.remember (.started name i.command)) t :=
    hst.toTwins.rememberLeft rfl
  cases hended with
  | ok huv =>
    have hrun : (r.execute p).runOn (s.remember (.started name i.command)) = _ :=
      Choice.runOn_ofMacro_ok hdepth hresult
    rw [Running.runOn_enter_ok (r := r) hrun huv.1.pending]
    exact .ok (hst.close huv.1 huv.2 _ rfl)
  | @error f _ _ v hfault huv =>
    cases hf : f.isCancelled with
    | false =>
      have hrun : (r.execute p).runOn (s.remember (.started name i.command)) = _ :=
        Choice.runOn_ofMacro_error (s := s.remember (.started name i.command)) hdepth hf hresult
      rw [Running.runOn_enter_error (r := r) hrun]
      exact .error hfault (Twins.leaveLeft { huv with } hstarted)
    | true =>
      obtain ⟨reason, rfl⟩ := Fault.eq_cancelled hf
      cases hfault
      have hdeep : 1 < u.depth := by
        have := hst.deeper
        have := hst.inside
        rw [huv.depth]
        omega
      have hrun : (r.execute p).runOn (s.remember (.started name i.command)) = _ :=
        Choice.runOn_ofMacro_cancelled (s := s.remember (.started name i.command)) hdepth hresult
          hdeep
      have hrecorded : i.Twins (d + 1) e { u with frame := s.frame, pending := some reason } v :=
        { huv with }
      have hback := (hrecorded.rememberLeft (m := .recorded p.choice reason) rfl).leaveLeft hstarted
      rw [Running.runOn_enter_cancelled (r := r) hrun rfl]
      exact .error (.same _) { hback with abreast := hback.abreast.left rfl }

/-! ### The command and its macro -/

section

variable (hi : i.host.Impartial i.states)

include hi

/-- The body of the macro that a command has of its own, against its commands where they are. -/
private theorem ownBody_sides (hgrow : ∀ p, (execute p).Grows)
    (hexec : i.Executes d e execute other) (hinline : i.Inlines d e execute other)
    (hbody : i.body ≠ []) {m : Macro} (hm : m.commands = i.body) {name name' : Value}
    {output : Option Value} (hst : i.Inside kept d e s t) :
    i.Sides d e (fun _ u _ v => i.Inside kept d e u v ∧ u.frame.Alike u.shared)
      ((Running.runBody ⟨i.host, execute, name⟩ (some m)).runOn s)
      ((Running.runCommands ⟨i.host, other, name'⟩ i.body output).runOn t) := by
  have hrun : Running.runBody ⟨i.host, execute, name⟩ (some m) =
      Running.runCommands ⟨i.host, execute, name⟩ i.body none >>= fun x => pure (x.getD .null) := by
    obtain ⟨c, cs, hcs⟩ := List.exists_cons_of_ne_nil hbody
    rw [Running.runBody, Option.map_some, Option.getD_some, hm, hcs]
    exact map_eq_pure_bind _ _
  rw [hrun, ← bind_pure (Running.runCommands ⟨i.host, other, name'⟩ i.body output)]
  refine (runCommands_sides hi hgrow hexec hinline _ _ (.refl _) none output s t hst).bind
    (fun _ => Act.grows_pure _) fun _ _ _ _ huv _ => .ok ⟨huv.1, huv.2 (.inl hbody)⟩

/-- One level of the choice that a command has of its own, against the commands of its macro. -/
private theorem own_sides (hgrow : ∀ p, (execute p).Grows)
    (hnext : d < i.limit →
      i.Executes (d + 1) e execute other ∧ i.Inlines (d + 1) e execute other)
    (hbody : i.body ≠ []) {head : ChoiceHead} {m : Macro} (hm : m.commands = i.body)
    {name name' : Value} {output : Option Value} (hst : i.Inside kept d e s t) :
    let p : Placed := ⟨.ofMacro head (some m), none⟩
    let r : Running σ := ⟨i.host, Choice.executeOnce i.host (Menu.browse i.host) execute, name⟩
    i.Sides d e (fun _ u _ v => i.Inside kept d e u v ∧ u.frame.Alike u.shared)
      ((r.step i.command (some p) (do r.enter p; return (none : Option Value))).runOn s)
      ((Running.runCommands ⟨i.host, other, name'⟩ i.body output).runOn t) := by
  intro p r hpermitted
  have hexecuted := hpermitted.mono (Running.suffix_enter r i.command p s)
  have hstarted : i.Twins d e (s.remember (.started name i.command)) t :=
    hst.toTwins.rememberLeft rfl
  by_cases hdepth : s.config.maxDepth ≤ s.depth
  · have hrefused : (r.execute p).runOn (s.remember (.started name i.command)) = _ :=
      Choice.runOn_executeOnce_refused (p := p) hdepth
    rw [hrefused] at hexecuted
    exact (hexecuted.within hstarted (List.suffix_cons _ _) hdepth).elim
  · have hrun : (r.execute p).runOn (s.remember (.started name i.command)) = _ :=
      Choice.runOn_executeOnce (p := p) hdepth
    rw [hrun] at hexecuted
    have hran := hexecuted.mono (hi.suffix_runMacro execute p.choice (some m)
      (Choice.inside p.choice (s.remember (.started name i.command))))
    obtain ⟨hexec, hinline⟩ := hnext (hst.lt_limit hdepth)
    -- the body of the macro begins with what the macro around it has
    have hgrown := (hi.grows_inside hgrow).runBody p.choice.name (some m)
      (Choice.opened (Choice.inside p.choice (s.remember (.started name i.command))))
    have hmoment := hran.moment (List.IsSuffix.trans ⟨[_, _], rfl⟩ hgrown) hst.abreast
    have hopened := hst.open (hmoment.started name rfl) p.choice name
    exact close_sides hdepth rfl (ownBody_sides hi hgrow hexec hinline hbody hm hopened hran) hst

/-- One level of the choice that a command has of its own, against the commands of its macro. -/
theorem inlines_once (hgrow : ∀ p, (execute p).Grows)
    (hnext : d < i.limit →
      i.Executes (d + 1) e execute other ∧ i.Inlines (d + 1) e execute other)
    (hc : i.command.unfolded? = some i.body) (hbody : i.body ≠ []) :
    i.Inlines d e (Choice.executeOnce i.host (Menu.browse i.host) execute) other := by
  intro kept name name' output s t hst
  obtain ⟨h, head, m, hcommand, hm⟩ := Command.exists_of_unfolded? hc
  have hrun : ∀ r : Running σ,
      r.step i.command (Running.target? s.document i.command)
        (r.runCommand i.command (Running.target? s.document i.command)) =
      r.step i.command (some ⟨.ofMacro head (some m), none⟩) (do
        r.enter ⟨.ofMacro head (some m), none⟩
        return (none : Option Value)) := by
    intro r
    rw [hcommand, Running.target?, Option.map_some, Running.runCommand]
  rw [hrun]
  exact own_sides hi hgrow hnext hbody hm hst

/-- All choices, and the command wherever it stands. One session may be deeper in choices than the
other one, and each has enough levels left. -/
theorem executeAt_sides (hc : i.command.unfolded? = some i.body) (hbody : i.body ≠ [])
    {levels levels' : Nat} (hlevels : i.limit - d < levels) (hlevels' : i.limit - e < levels') :
    i.Executes d e (Choice.executeAt i.host levels) (Choice.executeAt i.host levels') ∧
      i.Inlines d e (Choice.executeAt i.host levels) (Choice.executeAt i.host levels') := by
  -- entering the choice of the command takes a level from the first session only
  induction levels generalizing levels' d e with
  | zero => exact absurd hlevels (Nat.not_lt_zero _)
  | succ levels ih =>
    have hgrow := hi.grows_executeAt levels
    refine ⟨?_, inlines_once hi hgrow (fun hd => ih (by omega) hlevels') hc hbody⟩
    cases levels' with
    | zero => exact absurd hlevels' (Nat.not_lt_zero _)
    | succ levels' =>
      exact executes_once hi hgrow (fun hd he => ih (by omega) (by omega)) hbody

/-- A choice, as deep as the nesting limit allows. -/
theorem execute_sides (hc : i.command.unfolded? = some i.body) (hbody : i.body ≠ [])
    {p q : Placed} (hpq : Placed.Unfolds i.command i.body p q) {vars vars' : Entries}
    (hst : i.Outside vars vars' none d e s t) :
    i.Sides d e (i.Back vars vars' d e) ((Choice.execute i.host p).runOn s)
      ((Choice.execute i.host q).runOn t) := by
  rw [Choice.execute, Choice.execute, Act.runOn_get_bind, Act.runOn_get_bind, hst.config,
    hst.limit, hst.depth, hst.depth']
  exact (executeAt_sides hi hc hbody (Nat.lt_succ_self _) (Nat.lt_succ_self _)).1 hpq hst

end

end Inlining

/-! ### Runs with a report -/

/-- A check that is enough for a nested command to be unfolded at a moment where nobody has set a
variable yet: the limit is not reached, only some scripts are loaded, and there are no templates and
captures. -/
def Moment.admits (limit : Nat) (scripts : List String) (m : Moment) : Bool :=
  match m.mark with
  | .called _ => decide (m.depth < limit)
  | .started _ (.nested ..) => m.frame.isEmpty && m.shared.isEmpty
  | .asked (.load path) => scripts.contains path
  | .asked (.template ..) | .asked (.capture ..) => false
  | _ => true

theorem Moment.permits_of_admits {states : σ → Prop} {limit : Nat} {scripts : List String}
    {c : Command} {body : List Command} {m : Moment} (hc : c.unfolded? = some body)
    (hscripts : ∀ path ∈ scripts, host.Gentle states path) (h : m.admits limit scripts = true) :
    m.Permits host states limit c := by
  obtain ⟨head, inner, n, rfl, -⟩ := Command.exists_of_unfolded? hc
  obtain ⟨mark, shared, frame, pending, depth, running⟩ := m
  constructor
  · rintro x rfl
    exact of_decide_eq_true h
  · rintro owner rfl name
    obtain ⟨hframe, hshared⟩ := Bool.and_eq_true_iff.mp h
    rw [List.isEmpty_iff] at hframe hshared
    rw [hframe, hshared]
  · rintro path rfl
    exact hscripts path (List.contains_iff_mem.mp h)
  · rintro name payload vars rfl
    cases h
  · rintro name payload vars rfl
    cases h

/-- Two reports tell of the same end, and the variables are the same. -/
structure RunReport.Alike (r r' : RunReport) : Prop where
  outcome : r'.outcome = r.outcome
  reason : ∀ text, r'.fault = some (.cancelled text) ↔ r.fault = some (.cancelled text)
  vars : r.vars.Alike r'.vars

theorem RunReport.alike_of_fault {f g : Fault} (h : f.Alike g) (name name' : Value)
    {vars vars' : Entries} (hvars : vars.Alike vars') :
    RunReport.Alike ⟨name, some f, vars⟩ ⟨name', some g, vars'⟩ where
  outcome := congrArg (fun cancelled : Bool => if cancelled then Outcome.aborted else .failed)
    h.isCancelled_eq
  reason text := by
    cases h with
    | same => exact Iff.rfl
    | emptyExport => simp
  vars := hvars

/-- Two runs with a report end in the same way: with reports that tell of the same end, or in the
same fault, which escapes. -/
inductive RunReport.EndsAlike : Except Fault RunReport → Except Fault RunReport → Prop where
  | reported {r r' : RunReport} (h : r.Alike r') : EndsAlike (.ok r) (.ok r')
  | escaped {f : Fault} (hf : f.escapes = true) : EndsAlike (.error f) (.error f)

namespace Runner

variable {p p' : Placed} {vars : Entries} {s t : Session σ}

/-- What the choice of a run leaves on the trail stays there. -/
theorem suffix_run (host : Host σ) (p : Placed) (vars : Entries) (s : Session σ) :
    ((Choice.execute host p).runOn (begun vars s)).2.trail <:+
      ((run host (some p) vars).runOn s).2.trail := by
  cases h : (Choice.execute host p).runOn (begun vars s) with
  | mk result t =>
    cases result with
    | error f =>
      obtain ⟨-, -, htrail⟩ := tells_of_error h
      exact htrail ▸ List.suffix_rfl
    | ok _ =>
      cases hpending : t.pending with
      | none => exact (runOn_of_ok h hpending) ▸ List.suffix_rfl
      | some reason => exact (runOn_of_cancelled h hpending) ▸ List.suffix_cons _ _

end Runner

namespace Rehearsal

/-- Commands that run a script and then the command `show`. -/
def greetingBody : List Command :=
  [.script ⟨.text "greet", .text "greet"⟩ "greet" [] 0,
    .host ⟨.text "show", .text "show"⟩ "show"]

/-- A command with a macro of its own, which has these commands. -/
def greeting : Command :=
  .nested ⟨.text "greeting", .text "greeting"⟩
    (some (.ofMacro ⟨.text "greeting", .text "greeting", false⟩
      (some (.mk (.text "greeting") (.text "greeting") greetingBody false))))

/-- A macro with some commands and then the command `next`. -/
def welcome (first : List Command) : Placed :=
  ⟨.ofMacro ⟨.text "welcome", .text "welcome", false⟩ (some (.mk (.text "welcome")
    (.text "welcome") (first ++ [.host ⟨.text "next", .text "next"⟩ "next"]) false)), none⟩

/-- A script that sets a variable. -/
def greet : Value := .function "greet" .one [.assign "guest" (.literal (.text "Ada"))]

/-- A session that has just begun, with that script. -/
def opening : Session Rehearsal :=
  .start .preset .empty .start ⟨[("greet", greet)], [], [], [], false, none, false⟩

theorem unfolded?_greeting : greeting.unfolded? = some greetingBody := rfl

theorem welcome_unfolds :
    Placed.Unfolds greeting greetingBody (welcome [greeting]) (welcome greetingBody) :=
  .alone (.ofMacro _ _ _ _ (.unfold (.refl _)))

theorem opening_unfolds : opening.document.Unfolds greeting greetingBody .empty := .nil

theorem welcome_permits (new : List Moment)
    (hnew : ((Runner.run Rehearsal.host (some (welcome [greeting])) []).runOn opening).2.trail =
      new ++ []) :
    ∀ m ∈ new, m.Permits Rehearsal.host (Equipped [("greet", greet)]) 64 greeting := by
  have hscripts : ∀ path ∈ ["greet"], Rehearsal.host.Gentle (Equipped [("greet", greet)]) path := by
    intro path hpath
    rw [List.mem_singleton.mp hpath]
    exact host_gentle (Value.gentle_function rfl)
  have hadmits : ((Runner.run Rehearsal.host (some (welcome [greeting])) []).runOn
      opening).2.trail.all (Moment.admits 64 ["greet"]) = true := by
    cbv
  intro m hm
  rw [List.append_nil] at hnew
  exact Moment.permits_of_admits unfolded?_greeting hscripts
    (List.all_eq_true.mp hadmits m (hnew ▸ hm))

end Rehearsal

namespace Rehearsal

/-- A conditional on a script, with a template in its branch. -/
def arranging : Command :=
  .conditional ⟨.text "arrange", .text "arrange"⟩ (.byScript "mark" .null)
    [.nested ⟨.text "note", .text "note"⟩ (some (.template ⟨.text "note", .text "note", false⟩
      [(.text "fake", .map [(.text "set", .map [(.text "y", .int 2)])])]))] []

/-- Commands that run a script. -/
def lookingBody : List Command :=
  [.script ⟨.text "look", .text "look"⟩ "look" [] 0]

/-- A command with a macro of its own, which has these commands. -/
def looking : Command :=
  .nested ⟨.text "looking", .text "looking"⟩
    (some (.ofMacro ⟨.text "looking", .text "looking", false⟩
      (some (.mk (.text "looking") (.text "looking") lookingBody false))))

/-- A session with two scripts. One sets a variable, and the other one lists the names of the
variables. -/
def watching : Session Rehearsal :=
  let mark : Value := .function "mark" .one
    [.assign "x" (.literal (.int 1)), .finish (.literal (.bool true))]
  let look : Value := .function "look" .one [.listNames "names"]
  .start .preset .empty .start ⟨[("mark", mark), ("look", look)], [], [], [], false, none, false⟩

end Rehearsal

end Choicebook
