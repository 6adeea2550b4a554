import Choicebook.Proofs.Session.Law
import Choicebook.Proofs.Session.Runs
import Choicebook.Proofs.Session.Uniform

/-!
# Clean ends

Whatever an act inside of a macro does, it leaves nothing pending, whether or not it fails
(`Act.Clears`). A choice is different in one point: if it returns, a cancellation may be pending,
which is for whoever has run the choice. If it fails, nothing is pending either (`Act.Yields`). All
this takes of a host is that it leaves the bookkeeping of the session alone, and that it can tell the
user something without failing. Selections may well fail.

The session is back on the depth where it was in any case (`Act.Resurfaces`), whatever fails. So a
macro that fails leaves no traces but in its variables, in the records and in the host.
-/

namespace Choicebook

variable {σ : Type}

/-- Telling the user something does not fail. -/
def Host.Tells (h : Host σ) : Prop :=
  ∀ text s, ∃ t, (h.notify text).runOn s = (.ok (), t)

namespace Act

/-- The act leaves nothing pending, whether or not it fails. -/
def Clears {α : Type} (a : Act σ α) : Prop :=
  ∀ s : Session σ, s.pending = none → (a.runOn s).2.pending = none

/-- The act leaves nothing pending if it fails. If it returns, something may be pending. -/
def Yields (a : Act σ Unit) : Prop :=
  ∀ s : Session σ, s.pending = none →
    ∀ f, (a.runOn s).1 = .error f → (a.runOn s).2.pending = none

section

variable {α β : Type}

theorem Clears.bind {a : Act σ α} {f : α → Act σ β} (ha : Clears a) (hf : ∀ x, Clears (f x)) :
    Clears (a >>= f) := fun s hs =>
  runOn_bind_keeps (P := fun t => t.pending = none) (ha s hs) hf

theorem Clears.yields {a : Act σ Unit} (ha : Clears a) : Yields a := fun s hs _ _ => ha s hs

theorem Yields.of_bind {a : Act σ α} {f : α → Act σ Unit} (ha : Clears a)
    (hf : ∀ x, Yields (f x)) : Yields (a >>= f) := by
  intro s hs g
  have hcleared := ha s hs
  rw [runOn_bind]
  generalize a.runOn s = run at hcleared ⊢
  obtain ⟨e | x, t⟩ := run
  · exact fun _ => hcleared
  · exact hf x t hcleared g

/-- How an act ends is not looked at. -/
theorem Clears.settle {a : Act σ α} (ha : Clears a) : Clears (Act.settle a) := ha

theorem Clears.inFrame {a : Act σ α} (ha : Clears a) (vars : Entries) :
    Clears (Act.inFrame vars a) := by
  intro s hs
  rw [runOn_inFrame_snd]
  exact ha { s with frame := Entries.update [] vars } hs

theorem clears_modify {g : Session σ → Session σ} (hp : ∀ s, (g s).pending = s.pending) :
    Clears (modify g : Act σ Unit) :=
  fun s hs => (hp s).trans hs

theorem clears_remember (m : Mark) : Clears (remember m : Act σ Unit) :=
  clears_modify fun _ => rfl

theorem clears_throw (f : Fault) : Clears (throw f : Act σ α) := fun _ hs => hs

end

theorem clears_law : Law (σ := σ) fun {α} => Clears (α := α) where
  pure _ := fun _ hs => hs
  bind := Clears.bind
  get := fun _ hs => hs
  fail f := (clears_remember _).bind fun _ => clears_throw f
  note _ := clears_modify fun _ => rfl
  changeFrame _ := clears_modify fun _ => rfl
  updateShared _ := clears_modify fun _ => rfl
  rescue := by
    intro α a carryOn ha hc s hs
    have hcleared := ha s hs
    rw [runOn_rescue]
    generalize a.runOn s = run at hcleared ⊢
    obtain ⟨f | x, t⟩ := run
    · rw [proceed_error]
      split
      · exact hcleared
      · exact hc f (t.remember (.caught f)) hcleared
    · exact hcleared

theorem Clears.attempt {a : Act σ α} (ha : Clears a) : Clears (Act.attempt a) := by
  rw [attempt_eq]
  refine ha.settle.bind fun r => ?_
  cases r with
  | ok x => exact clears_law.pure _
  | error f =>
    dsimp only
    split
    · exact clears_throw f
    · exact clears_law.pure _

variable {host : Host σ}

theorem clears_ask (hd : host.Discreet) {α : Type} (e : Event) {a : Act σ α}
    (ha : host.Offers a) : Clears (ask e a) := by
  have hoffered : Clears a := fun s hs => (hd.pending ha s).trans hs
  rw [ask_eq]
  refine (clears_remember _).bind fun _ => hoffered.settle.bind fun r => ?_
  cases r with
  | ok x => exact clears_law.pure x
  | error f => exact clears_law.fail f

/-- The end of a cancelled choice does not fail, since the user can be told. -/
theorem recordCancellation_yields (ht : host.Tells) (c : Choice) (preset reason : String) :
    Yields (recordCancellation host c preset reason) := by
  intro s _ f hf
  rcases runOn_recordCancellation_cases host c preset reason s with hrun | ⟨-, text, hrun⟩
  · rw [hrun] at hf
    cases hf
  · obtain ⟨t, hnotify⟩ := ht text
      (({ s with pending := some reason }.remember (.recorded c reason)).remember
        (.asked (.notify text)))
    rw [hrun, runOn_ask, hnotify] at hf
    cases hf

end Act

open Act (Clears Yields)

/-! ### Acts inside of a macro -/

namespace Act

/-- The act leaves nothing pending, whatever was pending before. -/
def Takes {α : Type} (a : Act σ α) : Prop :=
  ∀ s : Session σ, (a.runOn s).2.pending = none

theorem Takes.bind {α β : Type} {a : Act σ α} {f : α → Act σ β} (ha : Takes a)
    (hf : ∀ x, Clears (f x)) : Takes (a >>= f) := fun s =>
  runOn_bind_keeps (P := fun t => t.pending = none) (ha s) hf

theorem takes_takePending : Takes (takePending : Act σ (Option String)) := by
  intro s
  cases hs : s.pending with
  | none =>
    rw [runOn_takePending_none hs]
    exact hs
  | some reason =>
    rw [runOn_takePending_some hs]
    rfl

theorem takes_raisePending : Takes (raisePending : Act σ Unit) :=
  takes_takePending.bind fun r => by
    cases r with
    | none => exact clears_law.pure ()
    | some reason => exact clears_throw _

/-- What has run a choice takes up what is pending, and goes on from there. -/
theorem Yields.bind {α : Type} {a : Act σ Unit} {f : Unit → Act σ α} (ha : Yields a)
    (hf : ∀ x, Takes (f x)) : Clears (a >>= f) := by
  intro s hs
  have hfault := ha s hs
  rw [runOn_bind]
  generalize a.runOn s = run at hfault ⊢
  obtain ⟨e | x, t⟩ := run
  · exact hfault e rfl
  · exact hf x t

end Act

variable {host : Host σ} {execute : Placed → Act σ Unit}

private theorem step_clears {α : Type} (name : Value) (c : Command) (target : Option Placed)
    {a : Act σ α} (ha : Clears a) : Clears (Running.step ⟨host, execute, name⟩ c target a) :=
  Act.clears_law.congruence.step (b := a) ⟨host, execute, name⟩ ⟨host, execute, name⟩ rfl c target
    (Act.clears_remember _) (Act.clears_modify fun _ => rfl) (Act.clears_remember _) ha

/-- Everything inside of a macro leaves nothing pending, given how the choices end that it runs. -/
theorem Discipline.clears (hd : host.Discreet) (hexec : ∀ p, Yields (execute p)) :
    Discipline host execute fun {α} => Clears (α := α) where
  toLaw := Act.clears_law
  ask e _ ha _ := Act.clears_ask hd e ha
  enterChoice p := by
    refine (Act.clears_remember _).bind fun _ => (hexec p).bind fun _ =>
      Act.takes_takePending.bind fun r => ?_
    have hclear : Clears (modify fun s => { s with shared := [] } : Act σ Unit) :=
      Act.clears_modify fun _ => rfl
    refine hclear.bind fun _ => (Act.clears_remember _).bind fun _ => ?_
    cases r with
    | none => exact Act.clears_law.pure _
    | some reason => exact Act.clears_throw _
  step name c _ ha := step_clears name c none ha
  enter name c p := by
    refine step_clears name c (some p) (Clears.bind ?_ fun _ => Act.clears_law.pure _)
    exact (hexec p).bind fun _ =>
      Act.takes_raisePending.bind fun _ => Act.clears_law.congruence.pullFrame

/-! ### Choices -/

namespace Choice

theorem delegate_yields (ht : host.Tells) (c : Choice) {a : Act σ Unit} (ha : Clears a) :
    Yields (delegate host c a) := by
  refine Yields.of_bind ha.attempt fun r => ?_
  split
  · exact (Act.clears_law.pure ()).yields
  · exact Act.recordCancellation_yields ht _ _ _
  · exact (Act.clears_throw _).yields

theorem runMacro_yields (hd : host.Discreet) (ht : host.Tells)
    (hexec : ∀ p, Yields (execute p)) (c : Choice) (body : Option Macro) :
    Yields (runMacro host execute c body) := by
  have hbody := (Discipline.clears hd hexec).comparison.runBody c.name body
  refine Yields.of_bind Act.clears_law.get fun s => ?_
  refine Yields.of_bind (hbody.inFrame s.shared).attempt fun r => ?_
  split
  · exact (Act.clears_law.updateShared _).yields
  · exact Act.recordCancellation_yields ht _ _ _
  · exact (Act.clears_throw _).yields

theorem runMenu_yields (hd : host.Discreet) (ht : host.Tells) (hexec : ∀ p, Yields (execute p))
    (p : Placed) (choices : List Choice) :
    Yields (runMenu host (Menu.browse host) execute p choices) := by
  have hbrowse : ∀ m : Menu, Clears (m.browse host) := fun m =>
    Act.clears_law.compatible.browse
      (fun _ _ _ => Act.clears_ask hd _ (.suggest _ _ _)) m
  rw [runMenu]
  split
  · exact (Act.clears_law.note _).yields
  · refine Yields.of_bind Act.clears_law.get fun s => Yields.of_bind (hbrowse _) fun r => ?_
    split
    · exact hexec _
    · exact Act.recordCancellation_yields ht _ _ _

theorem yields_deeper (c : Choice) {a : Act σ Unit} (ha : Yields a) :
    Yields (Act.deeper c a) := by
  intro s hs
  rw [Act.runOn_deeper]
  exact ha (s.enter c) hs

/-- **A choice that fails leaves nothing pending**, however many levels are left. -/
theorem executeAt_yields (hd : host.Discreet) (ht : host.Tells) (levels : Nat) (p : Placed) :
    Yields (executeAt host levels p) := by
  have hrefuse : ∀ p : Placed, Clears (refuse p : Act σ Unit) := fun p =>
    Act.clears_law.get.bind fun _ => Act.clears_law.fail _
  induction levels generalizing p with
  | zero => exact (hrefuse p).yields
  | succ levels ih =>
    have hperform : Yields (perform host (Menu.browse host) (executeAt host levels) p) := by
      rw [perform]
      split
      · exact delegate_yields ht _ (Act.clears_law.get.bind fun _ =>
          Act.clears_ask hd _ (.runTemplate _ _))
      · exact delegate_yields ht _ (Act.clears_law.get.bind fun _ =>
          Act.clears_ask hd _ (.runCapture _ _))
      · exact runMacro_yields hd ht ih _ _
      · exact runMenu_yields hd ht ih p _
    rw [executeAt, executeOnce]
    refine Yields.of_bind (Act.clears_remember _) fun _ => ?_
    refine Yields.of_bind Act.clears_law.get fun s => ?_
    split
    · exact (hrefuse p).yields
    · exact yields_deeper _ (Yields.of_bind (Act.clears_remember _) fun _ => hperform)

theorem execute_yields (hd : host.Discreet) (ht : host.Tells) (p : Placed) :
    Yields (Choice.execute host p) :=
  Yields.of_bind Act.clears_law.get fun _ => executeAt_yields hd ht _ p

end Choice

/-! ### The depth -/

/-- The act leaves the session on the depth where it was, whether or not it fails. -/
def Act.Resurfaces {α : Type} (a : Act σ α) : Prop :=
  ∀ s : Session σ, (a.runOn s).2.depth = s.depth

theorem Act.resurfaces_uniform (hd : host.Discreet) :
    Uniform host fun {α} (a _ : Act σ α) => a.Resurfaces where
  pure _ := fun _ => rfl
  bind ha hf := fun s => runOn_bind_keeps (P := fun t => t.depth = s.depth) (ha s)
    fun x t ht => (hf x t).trans ht
  look _ h := fun s => h s s
  throw _ := fun _ => rfl
  settle h := h
  inFrame vars _ _ h := fun s => by
    rw [runOn_inFrame_snd]
    exact h { s with frame := Entries.update [] vars }
  edit hg := fun _ => by cases hg <;> rfl
  remember _ := fun _ => rfl
  offers := hd.depth

theorem Choice.execute_resurfaces (hd : host.Discreet) (p : Placed) :
    (Choice.execute host p).Resurfaces :=
  (Act.resurfaces_uniform hd).execute (fun _ _ => rfl) (fun c _ ha s => by
    rw [Act.runOn_deeper]
    exact congrArg (· - 1) (ha (s.enter c))) p

end Choicebook
