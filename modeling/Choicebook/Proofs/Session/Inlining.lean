import Choicebook.Proofs.Session.Twins

/-!
# Commands side by side

A macro runs in one session, and in the other one the same macro with a command unfolded. They end
in the same way (`Inlining.runCommands_sides`), given two things about the choices that they run:
the same choice ends in the same way in both sessions (`Inlining.Executes`), and the command ends
like the commands that take its place (`Inlining.Inlines`).

Only the trail shows whether the command can be unfolded at every moment of a run. So the runs are
compared on the condition that the trail has no moment in the end that speaks against it
(`Inlining.Sides`). What is on the trail once stays there (`Act.Grows`), and so a part of a run
meets the condition if the whole does.
-/

namespace Choicebook

variable {σ : Type}

/-! ### What stays on the trail -/

theorem Act.runOn_pullFrame (s : Session σ) :
    (Act.pullFrame : Act σ Unit).runOn s =
      (.ok (), { s with frame := s.frame.update s.shared }) := rfl

theorem Host.Impartial.grows {host : Host σ} {states : σ → Prop} (hi : host.Impartial states) :
    Uniform host fun {α} (a _ : Act σ α) => a.Grows :=
  Act.grows_uniform fun ha s => (hi.untouched ha s).trail

theorem Host.Impartial.grows_executeAt {host : Host σ} {states : σ → Prop}
    (hi : host.Impartial states) (levels : Nat) (p : Placed) :
    (Choice.executeAt host levels p).Grows :=
  Choice.grows_executeAt (fun ha s => (hi.untouched ha s).trail) levels p

/-- Nor do macros, if the choices that they run do not. -/
theorem Host.Impartial.grows_inside {host : Host σ} {states : σ → Prop}
    (hi : host.Impartial states) {execute : Placed → Act σ Unit}
    (hgrow : ∀ p, (execute p).Grows) :
    Comparison host execute execute fun {α} (a _ : Act σ α) => a.Grows :=
  hi.grows.comparison hgrow

/-- What the host was asked for first is on the trail in the end. -/
theorem Host.Impartial.asked {host : Host σ} {states : σ → Prop} (hi : host.Impartial states)
    {α β : Type} (event : Event) {a : Act σ α} (ha : host.Offers a) {f : α → Act σ β}
    (hgrow : ∀ x, (f x).Grows) (s : Session σ) :
    s.moment (.asked event) :: s.trail <:+ ((Act.ask event a >>= f).runOn s).2.trail := by
  refine Act.runOn_bind_keeps (P := fun t => s.moment (.asked event) :: s.trail <:+ t.trail) ?_
    fun x t ht => ht.trans (hgrow x t)
  have hkept := (hi.untouched ha (s.remember (.asked event))).trail
  rw [Session.remember_trail] at hkept
  rw [Act.runOn_ask]
  generalize a.runOn (s.remember (.asked event)) = run at hkept ⊢
  obtain ⟨fault | x, u⟩ := run
  · exact hkept ▸ List.suffix_cons _ _
  · exact hkept ▸ List.suffix_rfl

/-- Commands after others run from where those have ended, with the output of those. -/
theorem Running.runCommands_append (r : Running σ) (cs cs' : List Command)
    (output : Option Value) :
    r.runCommands (cs ++ cs') output = r.runCommands cs output >>= r.runCommands cs' := by
  induction cs generalizing output with
  | nil => rw [List.nil_append, runCommands, pure_bind]
  | cons c cs ih =>
    rw [List.cons_append, runCommands, runCommands, bind_assoc]
    simp only [bind_assoc, ih]

namespace Inlining

variable {i : Inlining σ} {kept : Entries} {d e : Nat} {s t : Session σ} {α β : Type}

/-! ### Runs while the command can be unfolded -/

/-- Two runs end in the same way, unless the command could not be unfolded at some moment of the
first one. -/
def Sides (i : Inlining σ) (d e : Nat) (ok : α → Session σ → β → Session σ → Prop)
    (run : Except Fault α × Session σ) (run' : Except Fault β × Session σ) : Prop :=
  i.Permitted run.2.trail → Ended Fault.Alike ok (i.Twins d e) run run'

variable {ok : α → Session σ → β → Session σ → Prop}

theorem Sides.bind {γ δ : Type} {ok' : γ → Session σ → δ → Session σ → Prop} {a : Act σ α}
    {b : Act σ β} {f : α → Act σ γ} {g : β → Act σ δ} (hgrow : ∀ x, (f x).Grows)
    (h : i.Sides d e ok (a.runOn s) (b.runOn t))
    (hf : ∀ x u y v, ok x u y v → i.Sides d e ok' ((f x).runOn u) ((g y).runOn v)) :
    i.Sides d e ok' ((a >>= f).runOn s) ((b >>= g).runOn t) := by
  rw [Act.runOn_bind, Act.runOn_bind]
  generalize a.runOn s = run at h ⊢
  generalize b.runOn t = run' at h ⊢
  obtain ⟨fault | x, u⟩ := run
  · intro hpermitted
    cases h hpermitted with
    | error hfault huv => exact .error hfault huv
  · intro hpermitted
    cases h (hpermitted.mono (hgrow x u)) with
    | ok hxy => exact hf _ _ _ _ hxy hpermitted

theorem Sides.mono {ok' : α → Session σ → β → Session σ → Prop}
    {run : Except Fault α × Session σ} {run' : Except Fault β × Session σ}
    (h : i.Sides d e ok run run') (hok : ∀ x u y v, ok x u y v → ok' x u y v) :
    i.Sides d e ok' run run' := by
  intro hpermitted
  cases h hpermitted with
  | ok hxy => exact .ok (hok _ _ _ _ hxy)
  | error hfault huv => exact .error hfault huv

theorem Alongside.sides {a b : Act σ α} (h : i.Alongside kept d e Fault.Alike a b)
    (hst : i.Inside kept d e s t) :
    i.Sides d e (fun x u y v => x = y ∧ i.Inside kept d e u v) (a.runOn s) (b.runOn t) := by
  intro _
  have hrun := h s t hst
  generalize a.runOn s = run at hrun ⊢
  generalize b.runOn t = run' at hrun ⊢
  cases hrun with
  | ok hxy => exact .ok hxy
  | error hfault huv => exact .error hfault huv.toTwins

/-! ### Commands -/

/-- After a command, the variables of the macro are the shared ones. -/
theorem Inside.push (h : i.Inside kept d e s t) :
    i.Inside kept d e { s with shared := s.shared.update s.frame }
        { t with shared := t.shared.update t.frame } ∧
      s.frame.Alike (s.shared.update s.frame) := by
  have hpush := (h.covers.alike h.frame.left h.shared.left).symm
  exact ⟨{ h with
    shared := h.shared.update h.frame
    covers := hpush.covers }, hpush⟩

/-- Before a command that looks at the shared variables, and after one that ran a choice, the
variables of the macro become those. -/
theorem Outside.pull {vars vars' : Entries}
    (h : i.Outside vars vars' none d e s t) (hvars : vars.Alike vars') (hkept : vars.Covers kept)
    (he : 0 < e) :
    i.Inside kept d e { s with frame := s.frame.update s.shared }
      { t with frame := t.frame.update t.shared } := by
  have hframe : s.frame.Alike t.frame := by rw [h.frame, h.frame']; exact hvars
  exact { h with
    frame := hframe.update h.shared
    covers := .of_update _ _
    kept := by rw [h.frame]; exact hkept.update _
    inside := he }

theorem Alongside.inside {a b : Act σ α} (h : i.Alongside kept d e Fault.Alike a b)
    (hst : i.Inside kept d e s t) :
    i.Sides d e (fun _ u _ v => i.Inside kept d e u v) (a.runOn s) (b.runOn t) :=
  (h.sides hst).mono fun _ _ _ _ => And.right

/-- The other choices that two macros run end in the same way. -/
def Executes (i : Inlining σ) (d e : Nat) (execute other : Placed → Act σ Unit) : Prop :=
  ∀ {p q : Placed} {vars vars' : Entries} {s t : Session σ},
    Placed.Unfolds i.command i.body p q → i.Outside vars vars' none d e s t →
    i.Sides d e (fun _ u _ v => ∃ signal, i.Outside vars vars' signal d e u v)
      ((execute p).runOn s) ((other q).runOn t)

/-- The command ends in the same way as those do that take its place. -/
def Inlines (i : Inlining σ) (d e : Nat) (execute other : Placed → Act σ Unit) : Prop :=
  ∀ {kept : Entries} {name name' : Value} {output : Option Value} {s t : Session σ},
    i.Inside kept d e s t →
    i.Sides d e (fun _ u _ v => i.Inside kept d e u v ∧ u.frame.Alike u.shared)
      ((Running.step ⟨i.host, execute, name⟩ i.command (Running.target? s.document i.command)
        (Running.runCommand ⟨i.host, execute, name⟩ i.command
          (Running.target? s.document i.command))).runOn s)
      ((Running.runCommands ⟨i.host, other, name'⟩ i.body output).runOn t)

theorem Inside.outside (h : i.Inside kept d e s t) : i.Outside s.frame t.frame none d e s t :=
  { h with
    frame := rfl
    frame' := rfl }

variable {execute other : Placed → Act σ Unit} {name name' : Value}

section

variable (hi : i.host.Impartial i.states)

include hi

/-- Running another choice from inside of a macro. -/
theorem enter_sides (hexec : i.Executes d e execute other) {p q : Placed}
    (hpq : Placed.Unfolds i.command i.body p q) (hst : i.Inside kept d e s t) :
    i.Sides d e (fun _ u _ v => i.Inside kept d e u v)
      ((Running.enter ⟨i.host, execute, name⟩ p).runOn s)
      ((Running.enter ⟨i.host, other, name'⟩ q).runOn t) := by
  have hafter : ∀ _ : Unit, (do Act.raisePending; Act.pullFrame : Act σ Unit).Grows := fun _ =>
    Act.Grows.bind hi.grows.signals.raisePending fun _ => hi.grows.congruence.pullFrame
  refine (hexec hpq hst.outside).bind hafter fun _ u _ v huv _ => ?_
  obtain ⟨signal, huv⟩ := huv
  cases signal with
  | none =>
    rw [Act.runOn_bind_ok (Act.runOn_raisePending_none huv.pending),
      Act.runOn_bind_ok (Act.runOn_raisePending_none huv.pending')]
    exact .ok (huv.pull hst.frame hst.kept hst.inside)
  | some reason =>
    have htaken : i.Twins d e { u with pending := none } { v with pending := none } :=
      { huv with }
    rw [Act.runOn_bind_error (Act.runOn_raisePending_some huv.pending),
      Act.runOn_bind_error (Act.runOn_raisePending_some huv.pending')]
    exact .error (.same _) (htaken.remember rfl rfl)

/-- A command that runs another choice. -/
private theorem entered_sides (hexec : i.Executes d e execute other) {p q : Placed}
    (hpq : Placed.Unfolds i.command i.body p q) (hst : i.Inside kept d e s t) :
    i.Sides d e (fun _ u _ v => i.Inside kept d e u v)
      ((do Running.enter ⟨i.host, execute, name⟩ p; return (none : Option Value)).runOn s)
      ((do Running.enter ⟨i.host, other, name'⟩ q; return (none : Option Value)).runOn t) :=
  (enter_sides hi hexec hpq hst).bind (fun _ => Act.grows_pure _) fun _ _ _ _ huv _ => .ok huv

/-- The two ends of a command. -/
theorem step_sides {x y : Command} {target target' : Option Placed} {a : Act σ α} {b : Act σ β}
    (h : ∀ s t, i.Inside kept d e s t →
      i.Sides d e (fun _ u _ v => i.Inside kept d e u v) (a.runOn s) (b.runOn t))
    (hst : i.Inside kept d e s t) :
    i.Sides d e (fun _ u _ v => i.Inside kept d e u v ∧ u.frame.Alike u.shared)
      ((Running.step ⟨i.host, execute, name⟩ x target a).runOn s)
      ((Running.step ⟨i.host, other, name'⟩ y target' b).runOn t) := by
  rw [Running.step, Running.step, Act.runOn_remember_bind, Act.runOn_remember_bind]
  refine (h _ _ (hst.remember rfl rfl)).bind (fun z => ?_) fun _ u _ v huv _ => ?_
  · exact Act.Grows.bind hi.grows.pushFrame fun _ =>
      (Act.grows_remember _).bind fun _ => Act.grows_pure z
  · obtain ⟨hinside, halike⟩ := huv.push
    exact .ok ⟨hinside.remember rfl rfl, halike⟩

/-- An assistant, which may be given the variables in another order. -/
private theorem assistant_sides (h : CommandHead) (payload : Entries)
    (hst : i.Inside kept d e s t) :
    i.Sides d e (fun _ u _ v => i.Inside kept d e u v)
      ((do
        let vars := (← get).frame
        let assigned ← Act.ask (.assistant h.name payload vars)
          (i.host.runAssistant h.name payload vars)
        match assigned with
        | .map es => Act.updateFrame es
        | _ => pure ()
        return (none : Option Value) : Act σ (Option Value)).runOn s)
      ((do
        let vars := (← get).frame
        let assigned ← Act.ask (.assistant h.name payload vars)
          (i.host.runAssistant h.name payload vars)
        match assigned with
        | .map es => Act.updateFrame es
        | _ => pure ()
        return (none : Option Value) : Act σ (Option Value)).runOn t) := by
  have hasked := alongside_ask (E := Fault.Alike) hi (.assistant h.name payload hst.frame)
    (.assistant h.name payload hst.frame) (.runAssistant _ _ _) (.runAssistant _ _ _) s t hst
  rw [Act.runOn_get_bind, Act.runOn_get_bind, Act.runOn_bind, Act.runOn_bind]
  cases hrun : (Act.ask (.assistant h.name payload s.frame)
      (i.host.runAssistant h.name payload s.frame)).runOn s with
  | mk r u =>
    rw [hrun] at hasked
    generalize (Act.ask (.assistant h.name payload t.frame)
      (i.host.runAssistant h.name payload t.frame)).runOn t = run at hasked ⊢
    intro _
    cases hasked with
    | error hfault huv => exact .error hfault huv.toTwins
    | @ok x _ _ _ hok =>
      obtain ⟨rfl, huv⟩ := hok
      -- what is assigned has names, since the host is impartial
      cases x with
      | map es =>
        have hes := hi.assigned h.name payload s.frame es
          (s.remember (.asked (.assistant h.name payload s.frame))) u hst.states
          (Act.runOn_of_runOn_ask hrun)
        exact .ok (huv.changeFrame (huv.frame.update_texts hes)
          ((Entries.Covers.refl _).update es))
      | _ => exact .ok huv

/-- A script command. -/
private theorem script_sides (hgrow : ∀ p, (execute p).Grows) (path : String) (settings : Entries)
    (hst : i.Inside kept d e s t) :
    i.Sides d e (fun _ u _ v => i.Inside kept d e u v)
      ((Running.runScript ⟨i.host, execute, name⟩ path settings).runOn s)
      ((Running.runScript ⟨i.host, other, name'⟩ path settings).runOn t) := by
  intro hpermitted
  have hasked : s.moment (.asked (.load path)) :: s.trail <:+
      ((Running.runScript ⟨i.host, execute, name⟩ path settings).runOn s).2.trail := by
    have c := hi.grows_inside hgrow
    rw [Running.runScript]
    refine hi.asked _ (.loadScript path) (fun exported => ?_) s
    split
    · exact Act.Grows.bind (c.note _) fun _ => Act.grows_pure _
    · exact c.dispatch _ _ _ _
  have hgentle := (hpermitted.moment hasked hst.abreast).loaded path rfl
  exact ((lockstep hi kept d e).runScript .emptyExport name name' hgentle settings).inside hst
    hpermitted

/-- The condition of a command, which may ask a script. -/
private theorem holds_sides (hgrow : ∀ p, (execute p).Grows) (c : Condition)
    (hst : i.Inside kept d e s t) :
    i.Sides d e (fun x u y v => x = y ∧ i.Inside kept d e u v)
      ((c.holds i.host execute).runOn s) ((c.holds i.host other).runOn t) := by
  cases c with
  | onVariable c => exact ((lockstep hi kept d e).variableHolds c).sides hst
  | byScript path member =>
    intro hpermitted
    have hasked : s.moment (.asked (.load path)) :: s.trail <:+
        ((scriptHolds i.host execute path member).runOn s).2.trail := by
      have c := hi.grows_inside hgrow
      rw [scriptHolds]
      refine hi.asked _ (.loadScript path) (fun exported => ?_) s
      split
      · exact Act.Grows.bind (c.note _) fun _ => Act.grows_pure _
      · exact Act.Grows.bind
          (c.expect (.ite _ (exported.misuses_memberOf? member) (.ok _))) fun target =>
          c.targetHolds _ _ target
    have hgentle := (hpermitted.moment hasked hst.abreast).loaded path rfl
    exact ((lockstep hi kept d e).scriptHolds hgentle member).sides hst hpermitted

/-- A conditional command whose branches end in the same way. -/
private theorem conditional_sides (hgrow : ∀ p, (execute p).Grows) {h : CommandHead}
    (c : Condition) {thens thens' elses elses' : List Command} {target target' : Option Placed}
    (hthens : ∀ s t, i.Inside kept d e s t →
      i.Sides d e (fun _ u _ v => i.Inside kept d e u v)
        ((Running.runCommands ⟨i.host, execute, name⟩ thens none).runOn s)
        ((Running.runCommands ⟨i.host, other, name'⟩ thens' none).runOn t))
    (helses : ∀ s t, i.Inside kept d e s t →
      i.Sides d e (fun _ u _ v => i.Inside kept d e u v)
        ((Running.runCommands ⟨i.host, execute, name⟩ elses none).runOn s)
        ((Running.runCommands ⟨i.host, other, name'⟩ elses' none).runOn t))
    (hst : i.Inside kept d e s t) :
    i.Sides d e (fun _ u _ v => i.Inside kept d e u v)
      ((Running.runCommand ⟨i.host, execute, name⟩ (.conditional h c thens elses) target).runOn s)
      ((Running.runCommand ⟨i.host, other, name'⟩
        (.conditional h c thens' elses') target').runOn t) := by
  have hpulled := hst.outside.pull hst.frame hst.kept hst.inside
  rw [Running.runCommand, Running.runCommand, Act.runOn_bind_ok (Act.runOn_pullFrame s),
    Act.runOn_bind_ok (Act.runOn_pullFrame t)]
  refine (holds_sides hi hgrow c hpulled).bind (fun holds => ?_) fun holds u _ v huv => ?_
  · split
    · exact (hi.grows_inside hgrow).runCommands name thens none
    · exact (hi.grows_inside hgrow).runCommands name elses none
  · obtain ⟨rfl, huv⟩ := huv
    split
    · exact hthens u v huv
    · exact helses u v huv

mutual

/-- Every command. Two commands with a target enter it, and all others go the same way in both
sessions. -/
theorem runCommand_sides (hgrow : ∀ p, (execute p).Grows) (hexec : i.Executes d e execute other)
    (hinline : i.Inlines d e execute other) :
    ∀ x y : Command, Command.Unfolds i.command i.body x y → ∀ {target target' : Option Placed},
      Option.Rel (Placed.Unfolds i.command i.body) target target' → ∀ s t,
      i.Inside kept d e s t → i.Sides d e (fun _ u _ v => i.Inside kept d e u v)
        ((Running.runCommand ⟨i.host, execute, name⟩ x target).runOn s)
        ((Running.runCommand ⟨i.host, other, name'⟩ y target').runOn t)
  | .host _ commandId, _, .same _, _, _, _, s, t, hst => by
    have l := lockstep hi kept d e
    rw [Running.runCommand, Running.runCommand]
    exact (l.bind (l.ask _ (.runCommand commandId)) fun _ => l.pure _).inside hst
  | .script _ path settings _, _, .same _, _, _, _, s, t, hst => by
    rw [Running.runCommand, Running.runCommand]
    exact script_sides hi hgrow path settings hst
  | .choice _ _, _, .same _, _, _, htarget, s, t, hst => by
    have l := lockstep hi kept d e
    cases htarget with
    | none =>
      rw [Running.runCommand, Running.runCommand]
      exact (l.bind (l.note _ _) fun _ => l.pure _).inside hst
    | some hpq =>
      rw [Running.runCommand, Running.runCommand]
      exact entered_sides hi hexec hpq hst
  | .nested h x, y, hxy, _, _, htarget, s, t, hst => by
    have l := lockstep hi kept d e
    obtain ⟨z, rfl⟩ : ∃ z, y = .nested h z := by cases hxy <;> exact ⟨_, rfl⟩
    cases htarget with
    | none =>
      rw [Running.runCommand, Running.runCommand]
      exact (l.bind (l.note _ _) fun _ => l.pure _).inside hst
    | some hpq =>
      rw [Running.runCommand, Running.runCommand]
      exact entered_sides hi hexec hpq hst
  | .wait _ time, _, .same _, _, _, _, s, t, hst => by
    have l := lockstep hi kept d e
    rw [Running.runCommand, Running.runCommand]
    refine (l.bind (l.bind (l.note _ _) fun _ => ?_) fun _ => l.pure _).inside hst
    split
    · exact l.fail (.same _)
    · exact l.pure _
  | .editor _ action, _, .same _, _, _, _, s, t, hst => by
    have l := lockstep hi kept d e
    rw [Running.runCommand, Running.runCommand]
    exact (l.bind (l.ask _ (.edit action)) fun _ => l.pure _).inside hst
  | .conditional h c thens elses, y, hxy, _, _, _, s, t, hst => by
    -- a branch may be empty, so nothing is known of the frame behind it
    have hbranch : ∀ {cs cs' : List Command} {u v : Session σ}, i.Sides d e (fun _ u' _ v' =>
          i.Inside kept d e u' v' ∧ (cs ≠ [] ∨ u.frame.Alike u.shared → u'.frame.Alike u'.shared))
          ((Running.runCommands ⟨i.host, execute, name⟩ cs none).runOn u)
          ((Running.runCommands ⟨i.host, other, name'⟩ cs' none).runOn v) →
        i.Sides d e (fun _ u' _ v' => i.Inside kept d e u' v')
          ((Running.runCommands ⟨i.host, execute, name⟩ cs none).runOn u)
          ((Running.runCommands ⟨i.host, other, name'⟩ cs' none).runOn v) := fun h =>
      h.mono fun _ _ _ _ => And.left
    cases hxy with
    | same =>
      exact conditional_sides hi hgrow c
        (fun u v huv => hbranch
          (runCommands_sides hgrow hexec hinline thens _ (.refl _) none none u v huv))
        (fun u v huv => hbranch
          (runCommands_sides hgrow hexec hinline elses _ (.refl _) none none u v huv)) hst
    | conditional _ _ ht he =>
      exact conditional_sides hi hgrow c
        (fun u v huv => hbranch
          (runCommands_sides hgrow hexec hinline thens _ ht none none u v huv))
        (fun u v huv => hbranch
          (runCommands_sides hgrow hexec hinline elses _ he none none u v huv)) hst
  | .assistant h payload, _, .same _, _, _, _, s, t, hst => by
    rw [Running.runCommand, Running.runCommand]
    exact assistant_sides hi h payload hst
  | .openFile _ path inNewTab direction, _, .same _, _, _, _, s, t, hst => by
    have l := lockstep hi kept d e
    rw [Running.runCommand, Running.runCommand]
    exact (l.bind (l.ask _ (.openFile path inNewTab direction)) fun _ => l.pure _).inside hst

theorem runCommands_sides (hgrow : ∀ p, (execute p).Grows) (hexec : i.Executes d e execute other)
    (hinline : i.Inlines d e execute other) :
    ∀ xs ys : List Command, Command.UnfoldsAll i.command i.body xs ys →
      ∀ (output output' : Option Value) (s t : Session σ), i.Inside kept d e s t →
      i.Sides d e (fun _ u _ v => i.Inside kept d e u v ∧
          (xs ≠ [] ∨ s.frame.Alike s.shared → u.frame.Alike u.shared))
        ((Running.runCommands ⟨i.host, execute, name⟩ xs output).runOn s)
        ((Running.runCommands ⟨i.host, other, name'⟩ ys output').runOn t)
  | [], _, .nil, output, output', s, t, hst => by
    rw [Running.runCommands, Running.runCommands]
    exact fun _ => .ok ⟨hst, fun h => h.resolve_left fun hne => hne rfl⟩
  | x :: xs, ys, hxs, output, output', s, t, hst => by
    have hgrowing : ∀ new : Option Value,
        (Running.runCommands ⟨i.host, execute, name⟩ xs (new.orElse fun _ => output)).Grows :=
      fun _ => (hi.grows_inside hgrow).runCommands name xs _
    -- the two sessions go on with the same kind of command, or with what one of them has unfolded
    cases hxs with
    | cons hx hs =>
      rw [Running.runCommands, Running.runCommands, Act.runOn_get_bind, Act.runOn_get_bind]
      have htarget := Running.target?_unfolds hst.document hx
      refine (step_sides hi (runCommand_sides hgrow hexec hinline x _ hx htarget) hst).bind
        hgrowing fun _ u _ v huv => ?_
      refine (runCommands_sides hgrow hexec hinline xs _ hs _ _ u v huv.1).mono ?_
      exact fun _ _ _ _ h => ⟨h.1, fun _ => h.2 (.inr huv.2)⟩
    | unfold hs =>
      rw [Running.runCommands, Running.runCommands_append, Act.runOn_get_bind]
      refine (hinline hst).bind hgrowing fun _ u _ v huv => ?_
      refine (runCommands_sides hgrow hexec hinline xs _ hs _ _ u v huv.1).mono ?_
      exact fun _ _ _ _ h => ⟨h.1, fun _ => h.2 (.inr huv.2)⟩

end

end

end Inlining

end Choicebook
