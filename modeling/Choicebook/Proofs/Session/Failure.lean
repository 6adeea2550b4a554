import Mathlib
import Choicebook.Proofs.Session.Law
import Choicebook.Proofs.Session.Rehearsal
import Choicebook.Proofs.Session.Runs
import Choicebook.Session.Entry

/-!
# What follows a failure

A failure changes its form on the way out. It travels as a fault through commands and scripts; if it
is a cancellation, each choice turns it into a pending one and each macro around the choice back
into a fault. `Unwound` says of a stretch of the trail that it has a first failure and that after it
no command begins and the host is asked for nothing, or for a notice only.

The law `Act.Unwinds` is what holds at every place inside of a macro, unless a script catches
something: a run that fails is unwound from the very fault it fails with. It holds from depth 1 on,
where there are no notices; `Choice.Finishes` adds what the outermost choice does.
-/

namespace Choicebook

variable {σ : Type}

/-! ### Failures on the trail -/

namespace Mark

/-- The fault of a mark that stands for a failure. A cancellation that becomes pending is one. -/
def fault? : Mark → Option Fault
  | .failed f => some f
  | .recorded _ reason => some (.cancelled reason)
  | _ => none

/-- What the host is asked for. -/
def asked? : Mark → Option Event
  | .asked e => some e
  | _ => none

/-- Whether a command begins. -/
def isStart : Mark → Bool
  | .started .. => true
  | _ => false

/-- Whether a script carries on after a failure. -/
def isCatch : Mark → Bool
  | .caught _ => true
  | _ => false

end Mark

/-- What the host is asked for in a stretch of a trail, the latest first. -/
def requests (new : List Moment) : List Event :=
  new.filterMap (·.mark.asked?)

/-- Nothing fails. -/
def Clean (new : List Moment) : Prop :=
  ∀ m ∈ new, m.mark.fault? = none

/-- A script catches a failure. -/
def Catches (new : List Moment) : Prop :=
  ∃ m ∈ new, m.mark.isCatch = true

/-- The last thing is a notice that fails. -/
def Untold (g : Fault) (new : List Moment) : Prop :=
  ∃ m n before text, new = m :: n :: before ∧ m.mark = .failed g ∧ n.mark = .asked (.notify text)

theorem Untold.unique {f g : Fault} {new : List Moment} (h : Untold f new) (h' : Untold g new) :
    f = g := by
  obtain ⟨m, n, before, text, rfl, hm, -⟩ := h
  obtain ⟨m', n', before', text', hnew, hm', -⟩ := h'
  rw [(List.cons.inj hnew).1, hm'] at hm
  exact (Mark.failed.inj hm).symm

/-- The first failure is `f`. After it no command begins, and `asks` is what the host is
asked for. -/
def Unwound (f : Fault) (asks : List Event) (new : List Moment) : Prop :=
  ∃ after m before, new = after ++ m :: before ∧ Clean before ∧ m.mark.fault? = some f ∧
    (∀ n ∈ after, n.mark.isStart = false) ∧ after.filterMap (·.mark.asked?) = asks

theorem Clean.append {new new' : List Moment} (h : Clean new) (h' : Clean new') :
    Clean (new' ++ new) := by
  intro m hm
  rcases List.mem_append.mp hm with hm | hm
  · exact h' m hm
  · exact h m hm

theorem Catches.append_left {new : List Moment} (h : Catches new) (new' : List Moment) :
    Catches (new' ++ new) := by
  obtain ⟨m, hm, hc⟩ := h
  exact ⟨m, List.mem_append_right _ hm, hc⟩

theorem Catches.append_right {new' : List Moment} (h : Catches new') (new : List Moment) :
    Catches (new' ++ new) := by
  obtain ⟨m, hm, hc⟩ := h
  exact ⟨m, List.mem_append_left _ hm, hc⟩

namespace Unwound

variable {f : Fault} {asks : List Event} {new : List Moment}

/-- The first failure may come after a stretch where nothing fails. -/
theorem after_clean {new' : List Moment} (h : Unwound f asks new') (hc : Clean new) :
    Unwound f asks (new' ++ new) := by
  obtain ⟨after, m, before, rfl, hb, hm⟩ := h
  exact ⟨after, m, before ++ new, by simp, hc.append hb, hm⟩

/-- A failure after nothing failed. -/
theorem first {m : Moment} (hm : m.mark.fault? = some f) (hc : Clean new) :
    Unwound f [] (m :: new) :=
  ⟨[], m, new, rfl, hc, hm, List.forall_mem_nil _, rfl⟩

/-- Another moment after the failure at which no command begins. -/
theorem cons {m : Moment} (h : Unwound f asks new) (hs : m.mark.isStart = false) :
    Unwound f (m.mark.asked?.toList ++ asks) (m :: new) := by
  obtain ⟨after, n, before, rfl, hb, hn, hstart, hasks⟩ := h
  refine ⟨m :: after, n, before, rfl, hb, hn, List.forall_mem_cons.mpr ⟨hs, hstart⟩, ?_⟩
  rw [List.filterMap_cons, hasks]
  cases m.mark.asked? <;> rfl

/-- If nobody is told anything after the first failure, it is the first failure that comes last. -/
theorem eq_of_untold {g : Fault} (h : Unwound f [] new) (hg : Untold g new) : f = g := by
  obtain ⟨after, m, before, rfl, -, hm, -, hasks⟩ := h
  obtain ⟨last, notice, earlier, text, hnew, hlast, hnotice⟩ := hg
  cases after with
  | nil =>
    obtain ⟨rfl, -⟩ := List.cons.inj hnew
    rw [hlast] at hm
    exact (Option.some.inj hm).symm
  | cons n after =>
    obtain ⟨rfl, hrest⟩ := List.cons.inj hnew
    cases after with
    | nil =>
      obtain ⟨rfl, -⟩ := List.cons.inj hrest
      rw [hnotice] at hm
      cases hm
    | cons n' after =>
      obtain ⟨rfl, -⟩ := List.cons.inj hrest
      rw [List.filterMap_cons, List.filterMap_cons, hlast, hnotice] at hasks
      cases hasks

/-- A cancellation that is recorded after nothing else failed, or because of itself. -/
theorem recorded {m : Moment} {c : Choice} {reason : String} (hm : m.mark = .recorded c reason)
    (h : Clean new ∨ Unwound (.cancelled reason) [] new) :
    Unwound (.cancelled reason) [] (m :: new) := by
  rcases h with h | h
  · exact first (by rw [hm]; rfl) h
  · have hcons := h.cons (m := m) (by rw [hm]; rfl)
    rw [hm] at hcons
    exact hcons

end Unwound

/-! ### Acts inside of a macro -/

/-- What a run inside of a macro leaves: nothing pending and, unless a script catches something, a
trail that tells whether it failed. -/
structure Session.Steps {α : Type} (s : Session σ) (run : Except Fault α × Session σ) : Prop where
  pending : run.2.pending = none
  depth : run.2.depth = s.depth
  trail : ∃ new, run.2.trail = new ++ s.trail ∧ (Catches new ∨
    (∀ x, run.1 = .ok x → Clean new) ∧ ∀ f, run.1 = .error f → Unwound f [] new)

/-- An act inside of a macro that stops at its first failure. -/
def Act.Unwinds {α : Type} (a : Act σ α) : Prop :=
  ∀ s : Session σ, s.pending = none → 1 ≤ s.depth → Session.Steps s (a.runOn s)

namespace Session.Steps

variable {α β : Type} {s t : Session σ} {x : α} {run : Except Fault β × Session σ}

/-- A run without a failure that leaves the trail alone. -/
theorem of_eq (hp : t.pending = none) (hd : t.depth = s.depth) (ht : t.trail = s.trail) :
    Steps s (.ok x, t) :=
  ⟨hp, hd, [], ht, .inr ⟨fun _ _ => List.forall_mem_nil _, nofun⟩⟩

theorem trans (h : Steps s (.ok x, t)) (g : Steps t run) : Steps s run := by
  obtain ⟨-, hd, new, ht, hnew⟩ := h
  obtain ⟨gp, gd, new', gt, gnew⟩ := g
  refine ⟨gp, gd.trans hd, new' ++ new, by rw [gt, ht, List.append_assoc], ?_⟩
  rcases hnew with hc | ⟨hclean, -⟩
  · exact .inl (hc.append_left _)
  · rcases gnew with hc | ⟨gclean, gunwound⟩
    · exact .inl (hc.append_right _)
    · have hclean := hclean x rfl
      refine .inr ⟨fun y hy => hclean.append (gclean y hy), fun f hf => ?_⟩
      exact (gunwound f hf).after_clean hclean

/-- A moment that is no failure. -/
theorem remember (hp : s.pending = none) {m : Mark} (hm : m.fault? = none) :
    Steps s ((.ok x : Except Fault α), s.remember m) :=
  ⟨hp, rfl, [s.moment m], rfl, .inr ⟨fun _ _ => List.forall_mem_singleton.mpr hm, nofun⟩⟩

/-- A failure of its own. -/
theorem fail (hp : s.pending = none) (f : Fault) :
    Steps s ((.error f : Except Fault α), s.remember (.failed f)) := by
  refine ⟨hp, rfl, [s.moment (.failed f)], rfl, .inr ⟨nofun, ?_⟩⟩
  rintro _ ⟨⟩
  exact .first rfl (List.forall_mem_nil _)

/-- However a choice has ended that a script runs, the shared variables can be cleared. -/
theorem afterwards {result : Except Fault α} (h : Steps s (result, t)) :
    Steps s (result, Call.afterwards t) := by
  obtain ⟨hp, hd, new, ht, hnew⟩ := h
  refine ⟨hp, hd, { t with shared := [] }.moment .cleared :: new, ?_, ?_⟩
  · rw [Call.afterwards, Session.remember_trail, ht]
    rfl
  · rcases hnew with hc | ⟨hclean, hunwound⟩
    · exact .inl (hc.append_left [_])
    · exact .inr ⟨fun x hx => List.forall_mem_cons.mpr ⟨rfl, hclean x hx⟩,
        fun g hg => (hunwound g hg).cons rfl⟩

end Session.Steps

namespace Act

open Session (Steps)

theorem Unwinds.bind {α β : Type} {a : Act σ α} {f : α → Act σ β} (ha : Unwinds a)
    (hf : ∀ x, Unwinds (f x)) : Unwinds (a >>= f) := by
  intro s hp hd
  have hs := ha s hp hd
  rw [runOn_bind]
  generalize a.runOn s = run at hs ⊢
  obtain ⟨e | x, t⟩ := run
  · obtain ⟨gp, gd, new, gt, hnew⟩ := hs
    refine ⟨gp, gd, new, gt, hnew.imp_right fun ⟨_, h⟩ => ⟨nofun, ?_⟩⟩
    rintro _ ⟨⟩
    exact h e rfl
  · exact hs.trans (hf x t hs.pending (hs.depth ▸ hd))

/-- A change of variables, or of the record of events. -/
theorem unwinds_modify {g : Session σ → Session σ} (hp : ∀ s, (g s).pending = s.pending)
    (hd : ∀ s, (g s).depth = s.depth) (ht : ∀ s, (g s).trail = s.trail) :
    Unwinds (modify g : Act σ Unit) :=
  fun s h _ => .of_eq ((hp s).trans h) (hd s) (ht s)

theorem unwinds_remember {m : Mark} (hm : m.fault? = none) :
    Unwinds (Act.remember m : Act σ Unit) :=
  fun _ hp _ => .remember hp hm

/-- The means of a session stop at a failure. -/
theorem unwinds_law : Law (σ := σ) fun {α} => Unwinds (α := α) where
  pure _ := fun _ hp _ => .of_eq hp rfl rfl
  bind := Unwinds.bind
  get := fun _ hp _ => .of_eq hp rfl rfl
  fail f := fun _ hp _ => .fail hp f
  note _ := unwinds_modify (fun _ => rfl) (fun _ => rfl) fun _ => rfl
  changeFrame _ := unwinds_modify (fun _ => rfl) (fun _ => rfl) fun _ => rfl
  updateShared _ := unwinds_modify (fun _ => rfl) (fun _ => rfl) fun _ => rfl
  rescue := by
    intro α a carryOn ha hc s hp hd
    have hs := ha s hp hd
    rw [runOn_rescue]
    generalize a.runOn s = run at hs ⊢
    obtain ⟨f | x, t⟩ := run
    · rw [proceed_error]
      split
      · exact hs
      · -- from the catch on nothing is promised but where the trail goes on
        obtain ⟨gp, gd, new, gt, -⟩ := hs
        obtain ⟨kp, kd, new', kt, -⟩ := hc f (t.remember (.caught f)) gp (gd ▸ hd)
        refine ⟨kp, kd.trans gd, new' ++ t.moment (.caught f) :: new, ?_, .inl ?_⟩
        · rw [kt, Session.remember_trail, gt, List.append_assoc]
          rfl
        · exact ⟨_, List.mem_append_right _ List.mem_cons_self, rfl⟩
    · exact hs

/-- Asking a discreet host. -/
theorem unwinds_ask {h : Host σ} (hd : h.Discreet) {α : Type} (e : Event) {a : Act σ α}
    (ha : h.Offers a) : Unwinds (ask e a) := by
  intro s hp _
  have hpending := hd.pending ha (s.remember (.asked e))
  have hdepth := hd.depth ha (s.remember (.asked e))
  have htrail := hd.trail ha (s.remember (.asked e))
  rw [runOn_ask]
  generalize a.runOn (s.remember (.asked e)) = run at hpending hdepth htrail ⊢
  have hask : Steps s ((.ok () : Except Fault Unit), run.2) :=
    (Steps.remember (x := ()) (m := .asked e) hp rfl).trans
      (.of_eq (hpending.trans hp) hdepth htrail)
  obtain ⟨f | x, t⟩ := run
  · exact hask.trans (.fail hask.pending f)
  · exact hask.trans (.of_eq hask.pending rfl rfl)

end Act

/-! ### Acts that run a choice -/

namespace Choice

/-- How a choice ends that was run at a depth, with what it leaves pending and its trail. -/
inductive Ending (outer : Nat) : Except Fault Unit → Option String → List Moment → Prop where
  | caught {r : Except Fault Unit} {pending : Option String} {new : List Moment}
    (h : Catches new) : Ending outer r pending new
  | clean {new : List Moment} (h : Clean new) : Ending outer (.ok ()) none new
  /-- A cancellation; only the outermost choice tells the user. -/
  | cancelled {reason : String} {asks : List Event} {new : List Moment}
    (h : Unwound (.cancelled reason) asks new)
    (ha : asks = [] ∨ outer = 0 ∧ ∃ text, asks = [.notify text]) :
    Ending outer (.ok ()) (some reason) new
  | failed {f : Fault} {pending : Option String} {new : List Moment} (h : Unwound f [] new) :
    Ending outer (.error f) pending new
  /-- A cancellation, and then a failure to tell the user. -/
  | untold {f g : Fault} {text : String} {pending : Option String} {new : List Moment}
    (ho : outer = 0) (h : Unwound f [.notify text] new) (hg : Untold g new) :
    Ending outer (.error g) pending new

/-- The run of a choice, from a state where nothing is pending. -/
structure Finishes (outer : Nat) (s : Session σ)
    (run : Except Fault Unit × Session σ) : Prop where
  /-- Only a failing notice can leave a cancellation pending. -/
  fault : 1 ≤ outer → ∀ f, run.1 = .error f → run.2.pending = none
  depth : run.2.depth = s.depth
  trail : ∃ new, run.2.trail = new ++ s.trail ∧ Ending outer run.1 run.2.pending new

/-- The ending of what follows a stretch without a failure. -/
theorem Ending.after_clean {outer : Nat} {r : Except Fault Unit} {pending : Option String}
    {new new' : List Moment} (h : Ending outer r pending new') (hc : Clean new) :
    Ending outer r pending (new' ++ new) := by
  cases h with
  | caught h => exact .caught (h.append_right _)
  | clean h => exact .clean (hc.append h)
  | cancelled h ha => exact .cancelled (h.after_clean hc) ha
  | failed h => exact .failed (h.after_clean hc)
  | untold ho h hg =>
    obtain ⟨m, n, before, text, rfl, hm, hn⟩ := hg
    exact .untold ho (h.after_clean hc) ⟨m, n, before ++ new, text, rfl, hm, hn⟩

open Session (Steps)

namespace Finishes

variable {outer : Nat} {α : Type} {s t : Session σ} {run : Except Fault Unit × Session σ}

theorem of_steps {run : Except Fault Unit × Session σ} (h : Steps s run) :
    Finishes outer s run := by
  obtain ⟨hp, hd, new, ht, hnew⟩ := h
  refine ⟨fun _ _ _ => hp, hd, new, ht, ?_⟩
  rw [hp]
  obtain ⟨f | x, t⟩ := run
  · rcases hnew with hc | ⟨-, hu⟩
    · exact .caught hc
    · exact .failed (hu f rfl)
  · rcases hnew with hc | ⟨hclean, -⟩
    · exact .caught hc
    · exact .clean (hclean x rfl)

/-- What a choice does may begin with an act that does not fail. -/
theorem after {x : α} (h : Steps s (.ok x, t)) (g : Finishes outer t run) :
    Finishes outer s run := by
  obtain ⟨-, hd, new, ht, hnew⟩ := h
  obtain ⟨gf, gd, new', gt, gv⟩ := g
  refine ⟨gf, gd.trans hd, new' ++ new, by rw [gt, ht, List.append_assoc], ?_⟩
  -- if the first part catches something, nothing is promised about the rest
  rcases hnew with hc | ⟨hclean, -⟩
  · exact .caught (hc.append_left _)
  · exact gv.after_clean (hclean x rfl)

/-- A choice that runs inside of another one has nothing to tell the user. -/
theorem mono {inner : Nat} (h : Finishes inner s run) (hi : 1 ≤ inner) :
    Finishes outer s run := by
  obtain ⟨hf, hd, new, ht, hv⟩ := h
  refine ⟨fun _ => hf hi, hd, new, ht, ?_⟩
  generalize run.1 = r at hv
  generalize run.2.pending = pending at hv
  cases hv with
  | caught h => exact .caught h
  | clean h => exact .clean h
  | cancelled h ha => exact .cancelled h (.inl (ha.resolve_right fun h0 => by omega))
  | failed h => exact .failed h
  | untold ho => omega

theorem deeper {c : Choice} {r : Except Fault Unit} (h : Finishes outer (s.enter c) (r, t)) :
    Finishes outer s (r, s.leave t) := by
  obtain ⟨hf, hd, trail⟩ := h
  exact ⟨hf, congrArg (· - 1) hd, trail⟩

end Finishes

end Choice

open Session (Steps)
open Choice (Ending Finishes)

variable {host : Host σ} {outer : Nat} {s : Session σ}

/-- The end of a cancelled choice: nothing failed before the record but that cancellation. -/
theorem Act.recordCancellation_finishes (hd : host.Discreet) (c : Choice) (preset reason : String)
    {t : Session σ} {new : List Moment} (ht : t.trail = new ++ s.trail) (hdepth : t.depth = s.depth)
    (ho : s.depth = outer + 1)
    (hnew : Catches new ∨ Clean new ∨ Unwound (.cancelled reason) [] new) :
    Finishes outer s ((Act.recordCancellation host c preset reason).runOn t) := by
  -- the record is itself a failure, or comes after the one that it repeats
  let u := { t with pending := some reason }.remember (.recorded c reason)
  obtain ⟨new', hu, hnew'⟩ : ∃ new', u.trail = new' ++ s.trail ∧
      (Catches new' ∨ Unwound (.cancelled reason) [] new') := by
    refine ⟨{ t with pending := some reason }.moment (.recorded c reason) :: new, ?_, ?_⟩
    · rw [Session.remember_trail, ht]
      rfl
    · rcases hnew with hc | h
      · exact .inl (hc.append_left [_])
      · exact .inr (.recorded rfl h)
  have huntold : Finishes outer s (.ok (), u) := by
    refine ⟨nofun, hdepth, new', hu, ?_⟩
    rcases hnew' with hc | h
    · exact .caught hc
    · exact .cancelled h (.inl rfl)
  rcases Act.runOn_recordCancellation_cases host c preset reason t with hrun | ⟨hdeep, text, hrun⟩
  · rw [hrun]
    exact huntold
  · -- only the outermost choice gets here, so a notice that fails cannot reach another macro
    have houter : outer = 0 := by omega
    let v := u.remember (.asked (.notify text))
    have hvdepth := hd.depth (.notify text) v
    have hvtrail := hd.trail (.notify text) v
    have hvpending := hd.pending (.notify text) v
    have hv : v.trail = (u.moment (.asked (.notify text)) :: new') ++ s.trail := by
      rw [Session.remember_trail, hu]
      rfl
    rw [hv] at hvtrail
    rw [hrun, Act.runOn_ask]
    cases hnotify : (host.notify text).runOn v with
    | mk r w =>
      rw [hnotify] at hvdepth hvtrail hvpending
      cases r with
      | ok x =>
        rw [Act.proceed_ok]
        refine ⟨nofun, hvdepth.trans hdepth, _, hvtrail, ?_⟩
        rw [hvpending]
        rcases hnew' with hc | h
        · exact .caught (hc.append_left [_])
        · exact .cancelled (h.cons rfl) (.inr ⟨houter, text, rfl⟩)
      | error g =>
        rw [Act.proceed_error]
        refine ⟨fun h => by omega, hvdepth.trans hdepth,
          w.moment (.failed g) :: u.moment (.asked (.notify text)) :: new', ?_, ?_⟩
        · rw [Session.remember_trail, hvtrail]
          rfl
        · rcases hnew' with hc | h
          · exact .caught (hc.append_left [_, _])
          · exact .untold houter ((h.cons rfl).cons rfl) ⟨_, _, _, text, rfl, rfl, rfl⟩

/-- A run inside of a choice that was cut off by a cancellation, and then its record. -/
private theorem finishes_of_cancelled {α : Type} (hd : host.Discreet) (c : Choice)
    (preset reason : String) {t : Session σ}
    (h : Steps s ((.error (.cancelled reason) : Except Fault α), t)) (ho : s.depth = outer + 1) :
    Finishes outer s ((Act.recordCancellation host c preset reason).runOn t) := by
  obtain ⟨-, hdepth, new, ht, hnew⟩ := h
  exact Act.recordCancellation_finishes hd c preset reason ht hdepth ho
    (hnew.imp_right fun ⟨_, hu⟩ => .inr (hu _ rfl))

/-- What a run leaves does not depend on the frame, nor does a fault on its type. -/
private theorem Session.Steps.error {α β : Type} {t : Session σ} {f : Fault}
    (h : Steps s ((.error f : Except Fault α), t)) : Steps s ((.error f : Except Fault β), t) := by
  obtain ⟨hp, hd, new, ht, hnew⟩ := h
  refine ⟨hp, hd, new, ht, hnew.imp_right fun ⟨_, hu⟩ => ⟨nofun, ?_⟩⟩
  rintro _ ⟨⟩
  exact hu f rfl

namespace Choice

/-- A template or a capture. -/
theorem delegate_finishes (hd : host.Discreet) (c : Choice) {act : Act σ Unit}
    (ha : act.Unwinds) (hp : s.pending = none) (ho : s.depth = outer + 1) :
    Finishes outer s ((delegate host c act).runOn s) := by
  have hrun := ha s hp (by omega)
  rw [runOn_delegate]
  generalize act.runOn s = run at hrun ⊢
  obtain ⟨f | x, t⟩ := run
  · cases f with
    | cancelled reason => exact finishes_of_cancelled hd c _ reason hrun ho
    | _ => exact .of_steps hrun
  · exact .of_steps hrun

/-- A macro: what cut its commands off becomes the cancellation of the choice, or its fault. -/
theorem runMacro_finishes (hd : host.Discreet) {execute : Placed → Act σ Unit} (c : Choice)
    {body : Option Macro} (hbody : (Running.runBody ⟨host, execute, c.name⟩ body).Unwinds)
    (hp : s.pending = none) (ho : s.depth = outer + 1) :
    Finishes outer s ((runMacro host execute c body).runOn s) := by
  -- inside of the macro the depth is at least 1, where no choice tells the user
  have hrun := hbody { s with frame := Entries.update [] s.shared } hp
    (show 1 ≤ s.depth by omega)
  rw [runOn_runMacro, Act.runOn_inFrame]
  generalize (Running.runBody ⟨host, execute, c.name⟩ body).runOn
    { s with frame := Entries.update [] s.shared } = run at hrun ⊢
  obtain ⟨f | x, t⟩ := run
  · have hframe : Steps s ((.error f : Except Fault Value), { t with frame := s.frame }) :=
      ⟨hrun.pending, hrun.depth, hrun.trail⟩
    cases f with
    | cancelled reason => exact finishes_of_cancelled hd c _ reason hframe ho
    | _ => exact .of_steps hframe.error
  · have hframe : Steps s (.ok x, { t with frame := s.frame }) :=
      ⟨hrun.pending, hrun.depth, hrun.trail⟩
    exact .of_steps (hframe.trans (.of_eq hrun.pending rfl rfl))

end Choice

/-- A menu, given how the choice ends that the user selects. -/
theorem Choice.runMenu_finishes (hd : host.Discreet) {execute : Placed → Act σ Unit}
    (hexec : ∀ (p : Placed) (s : Session σ), s.pending = none →
      Finishes s.depth s ((execute p).runOn s))
    (p : Placed) (choices : List Choice) (hp : s.pending = none) (ho : s.depth = outer + 1) :
    Finishes outer s ((runMenu host (Menu.browse host) execute p choices).runOn s) := by
  by_cases hempty : choices.isEmpty
  · rw [runMenu, if_pos hempty]
    exact .of_steps (.of_eq hp rfl rfl)
  · have hrun := Act.unwinds_law.compatible.browse
      (fun _ _ _ => Act.unwinds_ask hd _ (.suggest _ _ _))
      ⟨choices, (Placed.list? s.document p).toList, p.choice.name⟩ s hp (by omega)
    rw [runOn_runMenu hempty, Act.runOn_bind]
    generalize Act.runOn _ s = run at hrun ⊢
    obtain ⟨f | r, t⟩ := run
    · exact .of_steps hrun.error
    · cases r with
      | none =>
        obtain ⟨-, hdepth, new, ht, hnew⟩ := hrun
        exact Act.recordCancellation_finishes hd _ _ _ ht hdepth ho
          (hnew.imp_right fun hclean => .inl (hclean.1 _ rfl))
      | some c =>
        have hdepth : t.depth = s.depth := hrun.depth
        exact .after hrun ((hexec ⟨c, none⟩ t hrun.pending).mono (by omega))

/-! ### Choices inside of macros -/

/-- A command whose body stops at its first failure. -/
private theorem Running.step_unwinds {α : Type} (r : Running σ) (c : Command)
    (target : Option Placed) {body : Act σ α} (hbody : body.Unwinds) :
    (r.step c target body).Unwinds :=
  Act.unwinds_law.congruence.step (b := body) r r rfl c target (Act.unwinds_remember rfl)
    (Act.unwinds_modify (fun _ => rfl) (fun _ => rfl) fun _ => rfl) (Act.unwinds_remember rfl) hbody

namespace Choice.Finishes

/-- A choice that fails, inside of a macro. -/
theorem error {f : Fault} {t : Session σ} (h : Finishes outer s (.error f, t))
    (ho : 1 ≤ outer) {α : Type} : Steps s ((.error f : Except Fault α), t) := by
  obtain ⟨hf, hd, new, ht, hv⟩ := h
  refine ⟨hf ho f rfl, hd, new, ht, ?_⟩
  cases hv with
  | caught h => exact .inl h
  | failed h =>
    refine .inr ⟨nofun, ?_⟩
    rintro _ ⟨⟩
    exact h
  | untold h0 => omega

/-- A choice after which nothing is pending. -/
theorem settled {t : Session σ} (h : Finishes outer s (.ok (), t))
    (hp : t.pending = none) : Steps s ((.ok () : Except Fault Unit), t) := by
  obtain ⟨-, hd, new, ht, hv⟩ := h
  refine ⟨hp, hd, new, ht, ?_⟩
  have hv : Ending outer (.ok ()) none new := hp ▸ hv
  cases hv with
  | caught h => exact .inl h
  | clean h => exact .inr ⟨fun _ _ => h, nofun⟩

/-- A choice that was cancelled, once the cancellation is taken up and raised again. -/
theorem consumed {t : Session σ} {reason : String} (h : Finishes outer s (.ok (), t))
    (hp : t.pending = some reason) (ho : 1 ≤ outer) {α : Type} :
    Steps s ((.error (.cancelled reason) : Except Fault α),
      { t with pending := none }.remember (.consumed reason)) := by
  obtain ⟨-, hd, new, ht, hv⟩ := h
  let m := { t with pending := none }.moment (.consumed reason)
  refine ⟨rfl, hd, m :: new, ?_, ?_⟩
  · rw [Session.remember_trail, ht]
    rfl
  · have hv : Ending outer (.ok ()) (some reason) new := hp ▸ hv
    cases hv with
    | caught h => exact .inl (h.append_left [_])
    | cancelled h ha =>
      obtain rfl := ha.resolve_right fun h0 => by omega
      refine .inr ⟨nofun, ?_⟩
      rintro _ ⟨⟩
      exact h.cons (m := m) rfl

end Choice.Finishes

section

variable {execute : Placed → Act σ Unit}
  (hexec : ∀ (p : Placed) (s : Session σ), s.pending = none →
    Finishes s.depth s ((execute p).runOn s))

include hexec

/-- A choice that a script runs. -/
theorem Call.enter_unwinds (p : Placed) : (Call.enter execute p).Unwinds := by
  intro s hp ho
  have hlent : Steps s ((.ok () : Except Fault Unit), s.remember .lent) := .remember hp rfl
  have hrun := hexec p (s.remember .lent) hp
  cases h : (execute p).runOn (s.remember .lent) with
  | mk result t =>
    rw [h] at hrun
    cases result with
    | error f =>
      rw [runOn_enter_error h]
      exact hlent.trans (hrun.error ho)
    | ok _ =>
      cases ht : t.pending with
      | none =>
        rw [runOn_enter_ok h ht]
        exact hlent.trans (hrun.settled ht).afterwards
      | some reason =>
        rw [runOn_enter_cancelled h ht]
        exact hlent.trans (hrun.consumed ht ho).afterwards

/-- A choice that a command runs. -/
theorem Running.enter_unwinds (name : Value) (p : Placed) :
    (Running.enter ⟨host, execute, name⟩ p).Unwinds := by
  intro s hp ho
  have hrun := hexec p s hp
  rw [Running.enter, Act.runOn_bind]
  generalize (execute p).runOn s = run at hrun ⊢
  obtain ⟨f | _, t⟩ := run
  · exact hrun.error ho
  · rw [Act.proceed_ok]
    cases ht : t.pending with
    | none =>
      rw [Act.runOn_bind_ok (Act.runOn_raisePending_none ht)]
      exact (hrun.settled ht).trans (Act.unwinds_law.congruence.pullFrame t ht (hrun.depth ▸ ho))
    | some reason =>
      rw [Act.runOn_bind_error (Act.runOn_raisePending_some ht)]
      exact hrun.consumed ht ho

/-- Everything inside of a macro stops at its first failure, given how the choices end that it
runs. -/
theorem Discipline.unwinds (hd : host.Discreet) :
    Discipline host execute fun {α} => Act.Unwinds (α := α) where
  toLaw := Act.unwinds_law
  ask e _ ha _ := Act.unwinds_ask hd e ha
  enterChoice := Call.enter_unwinds hexec
  step _ c _ ha := Running.step_unwinds _ c none ha
  enter name c p := Running.step_unwinds _ c (some p)
    ((Running.enter_unwinds hexec name p).bind fun _ => Act.unwinds_law.pure _)

end

/-! ### All choices -/

/-- A choice at the nesting limit. -/
private theorem Choice.refuse_steps (p : Placed) (hp : s.pending = none) :
    Steps s ((refuse p).runOn s) :=
  .fail hp _

/-- How every choice ends, however many levels are left. -/
theorem Choice.executeAt_finishes (hd : host.Discreet) (levels : Nat) (p : Placed)
    (hp : s.pending = none) : Finishes s.depth s ((executeAt host levels p).runOn s) := by
  -- as for cancellations, the induction hypothesis is what the discipline of a macro needs
  induction levels generalizing p s with
  | zero => exact .of_steps (refuse_steps p hp)
  | succ levels ih =>
    have hcalled : Steps s (.ok (), s.remember (.called p.choice)) := .remember hp rfl
    rw [executeAt, executeOnce, Act.runOn_remember_bind, Act.runOn_get_bind]
    refine .after hcalled ?_
    split
    · exact .of_steps (refuse_steps p hp)
    · rw [Act.runOn_deeper]
      refine .deeper (c := p.choice) ?_
      let inner := (s.remember (.called p.choice)).enter p.choice
      have hentered : Steps inner (.ok (), inner.remember (.entered p.choice)) :=
        .remember (s := inner) (m := .entered p.choice) hp rfl
      rw [Act.runOn_remember_bind]
      refine .after hentered ?_
      rw [perform]
      split
      · exact delegate_finishes hd _ (Act.unwinds_law.get.bind fun _ =>
          Act.unwinds_ask hd _ (.runTemplate _ _)) hp rfl
      · exact delegate_finishes hd _ (Act.unwinds_law.get.bind fun _ =>
          Act.unwinds_ask hd _ (.runCapture _ _)) hp rfl
      · exact runMacro_finishes hd _
          ((Discipline.unwinds (fun p s hp => ih p hp) hd).comparison.runBody _ _) hp rfl
      · exact runMenu_finishes hd (fun p s hp => ih p hp) p _ hp rfl

theorem Choice.execute_finishes (hd : host.Discreet) (p : Placed) (hp : s.pending = none) :
    Finishes s.depth s ((execute host p).runOn s) := by
  rw [execute, Act.runOn_get_bind]
  exact executeAt_finishes hd _ p hp

/-! ### Runs with a report -/

/-- How a run with a report ends that has failed: the report has that very fault, a cancellation as
an abortion and anything else as an error. A fault that escapes leaves no report. -/
def RunReport.Tells (f : Fault) (result : Except Fault RunReport) : Prop :=
  if f.escapes then result = .error f
  else ∃ r, result = .ok r ∧ r.fault = some f ∧
    r.outcome = if f.isCancelled then .aborted else .failed

theorem RunReport.tells_of_escape {f : Fault} (h : f.escapes = true) :
    RunReport.Tells f (.error f) := by
  rw [RunReport.Tells, if_pos h]

theorem RunReport.tells_reported {f : Fault} (h : f.escapes = false) (name : Value)
    (vars : Entries) : RunReport.Tells f (.ok ⟨name, some f, vars⟩) := by
  rw [RunReport.Tells, if_neg (by rw [h]; exact Bool.false_ne_true)]
  exact ⟨_, rfl, rfl, rfl⟩

namespace Runner

/-- The state in which a run begins. -/
def begun (vars : Entries) (s : Session σ) : Session σ :=
  { s with shared := Entries.update [] vars, pending := none }

variable {p : Placed} {vars : Entries} {s t : Session σ}

/-- A choice that fails is reported with its fault, and errors go to the log. -/
theorem runOn_of_error_logged {f : Fault}
    (h : (Choice.execute host p).runOn (begun vars s) = (.error f, t)) (he : f.escapes = false) :
    ∃ text, (run host (some p) vars).runOn s = (.ok ⟨p.choice.name, some f, t.shared⟩,
      if !f.isCancelled then t.note (.failure text) else t) := by
  refine ⟨"choice '" ++ p.choice.name.display ++ "' failed: " ++ f.logged, ?_⟩
  rw [run, Act.runOn_modify_bind]
  dsimp only
  rw [Act.runOn_attempt_bind, ← begun, h, Act.proceed_error, he, if_neg Bool.false_ne_true]
  dsimp only
  split <;> rfl

/-- The log is not the trail. -/
theorem runOn_of_error {f : Fault}
    (h : (Choice.execute host p).runOn (begun vars s) = (.error f, t)) (he : f.escapes = false) :
    ∃ u, (run host (some p) vars).runOn s = (.ok ⟨p.choice.name, some f, t.shared⟩, u) ∧
      u.trail = t.trail := by
  obtain ⟨text, hrun⟩ := runOn_of_error_logged h he
  refine ⟨_, hrun, ?_⟩
  split <;> rfl

/-- A fault that escapes from the choice escapes from the run. -/
theorem runOn_of_escape {f : Fault}
    (h : (Choice.execute host p).runOn (begun vars s) = (.error f, t)) (he : f.escapes = true) :
    (run host (some p) vars).runOn s = (.error f, t) := by
  rw [run, Act.runOn_modify_bind]
  dsimp only
  rw [Act.runOn_attempt_bind, ← begun, h, Act.proceed_error, he]
  rfl

/-- A choice that fails ends the run, in one way or the other. What is shared then stays so. -/
theorem tells_of_error {f : Fault}
    (h : (Choice.execute host p).runOn (begun vars s) = (.error f, t)) :
    RunReport.Tells f ((run host (some p) vars).runOn s).1 ∧
      ((run host (some p) vars).runOn s).2.shared = t.shared ∧
      ((run host (some p) vars).runOn s).2.trail = t.trail := by
  cases he : f.escapes with
  | true =>
    rw [runOn_of_escape h he]
    exact ⟨RunReport.tells_of_escape he, rfl, rfl⟩
  | false =>
    obtain ⟨text, hrun⟩ := runOn_of_error_logged h he
    rw [hrun]
    refine ⟨RunReport.tells_reported he _ _, ?_⟩
    dsimp only
    split <;> exact ⟨rfl, rfl⟩

/-- A choice that returns without a cancellation is reported as a success. -/
theorem runOn_of_ok (h : (Choice.execute host p).runOn (begun vars s) = (.ok (), t))
    (hp : t.pending = none) :
    (run host (some p) vars).runOn s = (.ok ⟨p.choice.name, none, t.shared⟩, t) := by
  rw [run, Act.runOn_modify_bind]
  dsimp only
  rw [Act.runOn_attempt_bind, ← begun, h, Act.proceed_ok]
  dsimp only
  rw [Act.runOn_bind_ok (Act.runOn_takePending_none hp)]
  rfl

/-- A cancellation that a choice leaves pending is taken up and reported. -/
theorem runOn_of_cancelled {reason : String}
    (h : (Choice.execute host p).runOn (begun vars s) = (.ok (), t))
    (hp : t.pending = some reason) :
    (run host (some p) vars).runOn s =
      (.ok ⟨p.choice.name, some (.cancelled reason), t.shared⟩,
        { t with pending := none }.remember (.consumed reason)) := by
  rw [run, Act.runOn_modify_bind]
  dsimp only
  rw [Act.runOn_attempt_bind, ← begun, h, Act.proceed_ok]
  dsimp only
  rw [Act.runOn_bind_ok (Act.runOn_takePending_some hp)]
  rfl

end Runner

namespace Rehearsal

/-- A macro whose only command is a script. -/
def leaving : Placed :=
  ⟨.ofMacro ⟨.text "leaving", .text "leaving", false⟩ (some (.mk (.text "leaving")
    (.text "leaving") [.script ⟨.text "leave", .text "leave"⟩ "leave" [] 0] false)), none⟩

/-- A session in which that script ends the program. -/
def exiting : Session Rehearsal :=
  let leave : Value := .function "leave" .one [.fail "SystemExit" "bye"]
  { fresh with host := { fresh.host with scripts := [("leave", leave)] } }

/-- A rehearsal that cannot tell the user anything. -/
def muted : Host Rehearsal :=
  { Rehearsal.host with notify := fun _ => throw (.raised "OSError" "no bell") }

end Rehearsal

end Choicebook
