import Choicebook.Proofs.Session.Runs
import Choicebook.Proofs.Session.Uniform

/-!
# Runs that stay where they are

A run ends in `Fault.endless` if it never comes back from where it is. Only a pause can be such a
place: one of infinite time, on a host that does not skip its pauses (`Choice.pauses_execute`). The
fault escapes from everything that deals with failures, so such a pause is the last thing in the
trail.
-/

namespace Choicebook

variable {σ : Type}

/-- A command begins that waits for ever. -/
def Mark.WaitsForever (m : Mark) : Prop :=
  ∃ owner head time, m = .started owner (.wait head time) ∧
    Running.seconds time = .infinite false

/-- The last thing that has happened is that a command waits for ever. -/
def Session.Waiting (s : Session σ) : Prop :=
  ∃ last began earlier, s.trail = last :: began :: earlier ∧ last.mark = .failed .endless ∧
    began.mark.WaitsForever

namespace Act

variable {host : Host σ} {execute : Placed → Act σ Unit} {α β : Type}

/-- If the act never comes back, it waits for ever, on a host on which that is possible. -/
def Pauses (host : Host σ) (a : Act σ α) : Prop :=
  ∀ s : Session σ, (a.runOn s).1 = .error .endless →
    host.skipsPauses = false ∧ (a.runOn s).2.Waiting

theorem pauses_of_ne {a : Act σ α} (h : ∀ s, (a.runOn s).1 ≠ .error .endless) : Pauses host a :=
  fun s hs => absurd hs (h s)

theorem pauses_pure (x : α) : Pauses host (pure x : Act σ α) := pauses_of_ne nofun

theorem pauses_modify (g : Session σ → Session σ) : Pauses host (modify g : Act σ Unit) :=
  pauses_of_ne nofun

theorem pauses_throw {f : Fault} (hf : f ≠ .endless) : Pauses host (throw f : Act σ α) :=
  pauses_of_ne fun _ h => hf (Except.error.inj h)

theorem pauses_fail {f : Fault} (hf : f ≠ .endless) : Pauses host (fail f : Act σ α) :=
  pauses_of_ne fun _ h => hf (Except.error.inj h)

theorem Pauses.bind {a : Act σ α} {f : α → Act σ β} (ha : Pauses host a)
    (hf : ∀ x, Pauses host (f x)) : Pauses host (a >>= f) := by
  intro s
  have hrun := ha s
  rw [runOn_bind]
  generalize a.runOn s = run at hrun ⊢
  obtain ⟨e | x, t⟩ := run
  · exact fun h => hrun (congrArg Except.error (Except.error.inj h))
  · exact hf x t

/-- What comes next may depend on the state. -/
theorem Pauses.read {f : Session σ → Act σ β} (hf : ∀ s, Pauses host (f s)) :
    Pauses host (get >>= f) := fun s => hf s s

theorem Pauses.rescue {a : Act σ α} {carryOn : Fault → Act σ α} (ha : Pauses host a)
    (hc : ∀ f, Pauses host (carryOn f)) : Pauses host (Act.rescue a carryOn) := by
  intro s
  have hrun := ha s
  rw [runOn_rescue]
  generalize a.runOn s = run at hrun ⊢
  obtain ⟨f | x, t⟩ := run
  · rw [proceed_error]
    split
    · exact hrun
    · exact hc f _
  · nofun

theorem pauses_ask (hp : host.Prompt) (e : Event) {a : Act σ α} (ha : host.Offers a) :
    Pauses host (ask e a) := by
  refine pauses_of_ne fun s => ?_
  have hends := hp ha (s.remember (.asked e))
  rw [runOn_ask]
  generalize a.runOn (s.remember (.asked e)) = run at hends ⊢
  obtain ⟨f | x, t⟩ := run
  · exact fun h => hends (congrArg Except.error (Except.error.inj h))
  · nofun

theorem pauses_congruence : Congruence (σ := σ) fun {α} (a _ : Act σ α) => Pauses host a where
  pure := pauses_pure
  bind := Pauses.bind
  read _ h := .read h
  fail := pauses_fail
  note _ := pauses_modify _
  updateShared _ := pauses_modify _
  changeFrame _ := pauses_modify _
  rescue := Pauses.rescue

theorem pauses_compatible : Compatible (σ := σ) fun {α} (a _ : Act σ α) => Pauses host a where
  toRegular := pauses_congruence.toRegular
  look _ h := .read h

theorem pauses_takePending : Pauses host (takePending : Act σ (Option String)) := by
  intro s
  cases h : s.pending with
  | none => rw [runOn_takePending_none h]; nofun
  | some reason => rw [runOn_takePending_some h]; nofun

theorem pauses_raisePending : Pauses host (raisePending : Act σ Unit) := by
  refine pauses_takePending.bind fun r => ?_
  cases r with
  | none => exact pauses_pure ()
  | some reason => exact pauses_throw nofun

theorem pauses_recordCancellation (hp : host.Prompt) (c : Choice) (preset reason : String) :
    Pauses host (recordCancellation host c preset reason) := by
  refine (pauses_modify _).bind fun _ => (pauses_modify _).bind fun _ => .read fun s => ?_
  split
  · exact pauses_pure ()
  · dsimp only
    split
    · exact pauses_ask hp _ (.notify _)
    · exact pauses_pure ()

/-- What a command does may come between its two ends. -/
theorem Pauses.step {r : Running σ} {a : Act σ α} (ha : Pauses host a) (c : Command)
    (target : Option Placed) : Pauses host (r.step c target a) :=
  pauses_congruence.step r r rfl c target (pauses_modify _) (pauses_modify _) (pauses_modify _)
    (b := a) ha

end Act

namespace Running

variable {host : Host σ} {execute : Placed → Act σ Unit}

/-- A command that waits stays there only if it waits for ever. -/
theorem pauses_wait (name : Value) (head : CommandHead) (time : Double) :
    Act.Pauses host (step ⟨host, execute, name⟩ (.wait head time) none (do
      pause ⟨host, execute, name⟩ (seconds time)
      return (none : Option Value))) := by
  intro s
  rw [step, Act.runOn_remember_bind, pause]
  by_cases hendless : seconds time = .infinite false ∧ !host.skipsPauses
  · rw [if_pos hendless]
    intro _
    exact ⟨Bool.not_eq_true' _ |>.mp hendless.2, _, _, s.trail, rfl, rfl,
      name, head, time, rfl, hendless.1⟩
  · rw [if_neg hendless]
    rintro ⟨⟩

/-- A macro stays where it is only if it waits for ever, given that of the choices it runs. -/
theorem pauses_comparison (hp : host.Prompt) (hexec : ∀ p, Act.Pauses host (execute p)) :
    Comparison host execute execute fun {α} (a _ : Act σ α) => Act.Pauses host a where
  toCongruence := Act.pauses_congruence
  ask e _ ha _ := Act.pauses_ask hp e ha
  enterChoice p := by
    refine (Act.pauses_modify _).bind fun _ => (hexec p).bind fun _ =>
      Act.pauses_takePending.bind fun pending => (Act.pauses_modify _).bind fun _ =>
        (Act.pauses_modify _).bind fun _ => ?_
    split
    · exact Act.pauses_throw nofun
    · exact Act.pauses_pure ()
  step _ c _ _ h := h.step c none
  wait name head time := pauses_wait name head time
  enter _ c p := (((hexec p).bind fun _ => Act.pauses_raisePending.bind fun _ =>
    Act.pauses_congruence.pullFrame).bind fun _ => Act.pauses_pure none).step c (some p)

end Running

namespace Choice

variable {host : Host σ}

/-- What a choice does, given that of the choices that it runs. -/
theorem pauses_perform (hp : host.Prompt) {execute : Placed → Act σ Unit}
    (hexec : ∀ p, Act.Pauses host (execute p)) (p : Placed) :
    Act.Pauses host (perform host (Menu.browse host) execute p) := by
  have hbrowse : ∀ m : Menu, Act.Pauses host (m.browse host) :=
    Act.pauses_compatible.browse fun _ _ _ => Act.pauses_ask hp _ (.suggest _ _ _)
  have hdelegate : ∀ (c : Choice) {a : Act σ Unit}, Act.Pauses host a →
      Act.Pauses host (delegate host c a) := by
    intro c a ha s
    have hrun := ha s
    rw [runOn_delegate]
    generalize a.runOn s = run at hrun ⊢
    obtain ⟨f | x, t⟩ := run
    · cases f with
      | cancelled reason => exact Act.pauses_recordCancellation hp _ _ _ t
      | _ => exact hrun
    · rintro ⟨⟩
  rw [perform]
  split
  · exact hdelegate _ fun s => Act.pauses_ask hp _ (.runTemplate _ _) s
  · exact hdelegate _ fun s => Act.pauses_ask hp _ (.runCapture _ _) s
  · next head body _ =>
    intro s
    have hbody : Act.Pauses host (Running.runBody ⟨host, execute, p.choice.name⟩ body) :=
      (Running.pauses_comparison hp hexec).runBody p.choice.name body
    have hwaits := hbody (opened s)
    cases hrun : (Running.runBody ⟨host, execute, p.choice.name⟩ body).runOn (opened s) with
    | mk r u =>
      rw [hrun] at hwaits
      -- a cancellation is recorded, and only what is asked for then could go on for ever
      cases r with
      | ok v =>
        rw [runOn_runMacro_ok hrun]
        rintro ⟨⟩
      | error f =>
        cases f with
        | cancelled reason =>
          rw [runOn_runMacro_cancelled hrun]
          exact Act.pauses_recordCancellation hp _ _ _ _
        | _ =>
          rw [runOn_runMacro_error rfl hrun]
          exact fun h => hwaits (congrArg Except.error (Except.error.inj h))
  · rw [runMenu]
    split
    · exact Act.pauses_modify _
    · refine .read fun _ => (hbrowse _).bind fun r => ?_
      split
      · exact hexec _
      · exact Act.pauses_recordCancellation hp _ _ _

theorem pauses_executeAt (hp : host.Prompt) (levels : Nat) (p : Placed) :
    Act.Pauses host (executeAt host levels p) := by
  induction levels generalizing p with
  | zero => exact .read fun _ => Act.pauses_fail nofun
  | succ levels ih =>
    refine (Act.pauses_modify _).bind fun _ => .read fun s => ?_
    split
    · exact .read fun _ => Act.pauses_fail nofun
    · have hremember : Act.Pauses host (modify (·.remember (.entered p.choice))) :=
        Act.pauses_modify _
      have hperform := hremember.bind fun _ => pauses_perform hp ih p
      exact fun t => hperform (t.enter p.choice)

/-- A choice never comes back only if a command in it waits for ever. -/
theorem pauses_execute (hp : host.Prompt) (p : Placed) : Act.Pauses host (execute host p) :=
  .read fun _ => pauses_executeAt hp _ p

end Choice

end Choicebook
