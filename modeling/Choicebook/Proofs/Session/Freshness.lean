import Choicebook.Proofs.Session.Depth
import Choicebook.Proofs.Session.Variables

/-!
# Runs with a report are fresh

A session outlasts its runs, and whatever was done with it before can leave something behind: shared
variables, a pending cancellation, a counter of levels. `Runner.run` begins by setting the first
two, and nothing else of what is left makes a difference. The counter is back at 0 after everything
that can be done with a session (`Session.Idle.after`), and the records are never looked at
(`Act.Oblivious`).

So a run is the same as in a session that has just begun, with the records put after those of before
(`Runner.run_fresh`).
-/

namespace Choicebook

variable {σ : Type} {host : Host σ}

/-! ### Acts that do not look at the records -/

namespace Act.Oblivious

variable {α : Type} {a : Act σ α}

theorem inFrame (h : Oblivious a) (vars : Entries) : Oblivious (Act.inFrame vars a) := by
  intro s past
  let inner := { s with frame := Entries.update [] vars }
  rw [runOn_inFrame, runOn_inFrame]
  change proceed (a.runOn (inner.following past)) _ _ = _
  rw [h inner past]
  generalize a.runOn inner = run
  obtain ⟨e | x, t⟩ := run <;> rfl

theorem deeper (h : Oblivious a) (c : Choice) : Oblivious (Act.deeper c a) := by
  intro s past
  rw [runOn_deeper, runOn_deeper]
  change ((a.runOn ((s.enter c).following past)).1,
    (s.following past).leave (a.runOn ((s.enter c).following past)).2) = _
  rw [h (s.enter c) past]
  rfl

theorem remember (m : Mark) : Oblivious (Act.remember m : Act σ Unit) :=
  .modify fun _ _ => rfl

/-- Nothing that a session does looks at the records. -/
theorem uniform (ho : host.Oblivious) : Uniform host fun {α} (a _ : Act σ α) => Oblivious a where
  pure := .pure
  bind := Oblivious.bind
  look h hf := .read (fun s t hst => (h s t hst).1) hf
  throw := .throw
  settle h := fun s past => by rw [runOn_settle, runOn_settle, h s past]
  inFrame vars _ _ h := h.inFrame vars
  edit hg := by
    cases hg with
    | note e => exact .note e
    | _ => exact .modify fun _ _ => rfl
  remember _ := .remember _
  offers := ho

end Act.Oblivious

open Act (Oblivious)

theorem Choice.execute_oblivious (ho : host.Oblivious) (p : Placed) : Oblivious (execute host p) :=
  (Oblivious.uniform ho).execute .remember (fun c _ h => h.deeper c) p

theorem Runner.run_oblivious (ho : host.Oblivious) (choice : Option Placed) (vars : Entries) :
    Oblivious (Runner.run host choice vars) :=
  have u := Oblivious.uniform ho
  u.surroundings.report (fun vars => u.edit (.renew vars)) (Choice.execute_oblivious ho) choice vars

/-! ### What can be done with a session -/

/-- Something that is done with a session, by itself or by what surrounds it. -/
inductive Activity (σ : Type) where
  /-- A choice is run for a report. -/
  | report (choice : Option Placed) (vars : Entries)
  /-- A choice is run without one. -/
  | execute (p : Placed)
  /-- A macro, or a member of what its script exports, is run by a reference. -/
  | reference (reference : String)
  /-- The macros that are marked for the start are run. -/
  | startup (isolate : Bool)
  /-- A cancellation is made pending. -/
  | cancel (reason : String)
  /-- The shared variables are set. -/
  | share (vars : Entries)
  /-- The choices or the state of the host change. -/
  | change (document : Document) (h : σ)

namespace Activity

/-- The state that is left, whether or not something fails. -/
def effect (host : Host σ) (s : Session σ) : Activity σ → Session σ
  | report p vars => ((Runner.run host p vars).runOn s).2
  | execute p => ((Choice.execute host p).runOn s).2
  | reference r => ((SingleMacro.run host r).runOn s).2
  | startup isolate => ((Startup.run host isolate).runOn s).2
  | cancel reason => { s with pending := some reason }
  | share vars => { s with shared := vars }
  | change document h => { s with document := document, host := h }

end Activity

/-- The state after everything that has been done, the first thing first. -/
def Session.after (host : Host σ) (s : Session σ) (history : List (Activity σ)) : Session σ :=
  history.foldl (Activity.effect host) s

/-- Nothing is running. -/
structure Session.Idle (config : Config) (s : Session σ) : Prop where
  config : s.config = config
  depth : s.depth = 0
  running : s.running = []
  frame : s.frame = []

theorem Session.idle_start (config : Config) (document : Document) (reading : Reading) (h : σ) :
    (start config document reading h).Idle config :=
  ⟨rfl, rfl, rfl, rfl⟩

namespace Session.Idle

variable {config : Config} {s : Session σ}

theorem level (h : s.Idle config) : s.Level :=
  ⟨by rw [h.depth, h.running]; rfl, by rw [h.depth]; exact Nat.zero_le _⟩

theorem runOn {α : Type} {a : Act σ α} (h : s.Idle config) (hg : ∀ levels, a.Guards levels)
    (hf : a.Aligns (· = [])) : (a.runOn s).2.Idle config := by
  obtain ⟨hc, hd, hr, -⟩ := hg _ s h.level (Nat.lt_succ_self _)
  exact ⟨hc.trans h.config, hd.trans h.depth, hr.trans h.running, (hf s h.frame).frame⟩

variable (ha : host.Aloof) (ht : host.Tidy) (hk : host.Keeps (· = []))

include ha ht hk

theorem effect (h : s.Idle config) (a : Activity σ) : (a.effect host s).Idle config := by
  cases a with
  | report p vars => exact h.runOn (Runner.run_guards ha · _ _) (Runner.run_aligns ht hk _ _)
  | execute p => exact h.runOn (Choice.execute_guards ha · _) (Choice.execute_aligns ht hk _)
  | reference r => exact h.runOn (SingleMacro.run_guards ha · _) (SingleMacro.run_aligns ht hk _)
  | startup isolate => exact h.runOn (Startup.run_guards ha · _) (Startup.run_aligns ht hk _)
  | cancel reason => exact ⟨h.config, h.depth, h.running, h.frame⟩
  | share vars => exact ⟨h.config, h.depth, h.running, h.frame⟩
  | change document host => exact ⟨h.config, h.depth, h.running, h.frame⟩

/-- Whatever is done with a session, nothing is running afterwards. -/
theorem after (h : s.Idle config) (history : List (Activity σ)) :
    (s.after host history).Idle config := by
  induction history generalizing s with
  | nil => exact h
  | cons a history ih => exact ih (h.effect ha ht hk a)

end Session.Idle

/-! ### Fresh runs -/

/-- A rehearsal leaves the frame alone. -/
theorem Rehearsal.host_keeps (P : Entries → Prop) : Rehearsal.host.Keeps P :=
  ⟨fun h s hs => (undisturbed_of_offers h.offers s).frame ▸ hs⟩

/-- Where nothing is running, a run begins as in a session that has just begun. -/
private theorem Session.Idle.renew {config : Config} {s : Session σ} (h : s.Idle config)
    (reading : Reading) (vars : Entries) :
    { s with shared := Entries.update [] vars, pending := none } =
      { (start config s.document reading s.host).following s with
        shared := Entries.update [] vars, pending := none } := by
  obtain ⟨c, document, shared, frame, pending, depth, running, reading', events, trail, host⟩ := s
  obtain ⟨rfl, rfl, rfl, rfl⟩ := h
  simp only [start, following, Array.append_empty, List.nil_append]

/-- **A run with a report is the same in every session.** Whatever was done with the session before,
the report, what is asked of the host, and the state that the host is left in are those of the same
run in a session that has just begun, with the same configuration, choices and state of the host.
The records of the run are put after those of before. -/
theorem Runner.run_fresh (ha : host.Aloof) (ht : host.Tidy) (hk : host.Keeps (· = []))
    (ho : host.Oblivious) (config : Config) (document : Document) (reading reading' : Reading)
    (h : σ) (history : List (Activity σ)) (choice : Option Placed) (vars : Entries) :
    let s := (Session.start config document reading h).after host history
    let fresh := Session.start config s.document reading' s.host
    (run host choice vars).runOn s = (((run host choice vars).runOn fresh).1,
      ((run host choice vars).runOn fresh).2.following s) := by
  intro s fresh
  have hs : s.Idle config := (Session.idle_start config document reading h).after ha ht hk history
  calc (run host choice vars).runOn s
      = (run host choice vars).runOn (fresh.following s) := by
        rw [run.eq_def, Act.runOn_modify_bind, Act.runOn_modify_bind, hs.renew reading' vars]
    _ = _ := run_oblivious ho choice vars fresh s

/-- The run of a rehearsal after a run that was interrupted, a stray cancellation and variables that
were left behind. -/
theorem Runner.run_fresh_interrupted :
    let s := Rehearsal.fresh.after Rehearsal.host [.report (some Rehearsal.interrupted) [],
      .cancel "stray", .share [(.text "left", .null)]]
    let fresh := Session.start .preset s.document .start s.host
    let run := run Rehearsal.host (some Rehearsal.interrupted) []
    run.runOn s = ((run.runOn fresh).1, (run.runOn fresh).2.following s) :=
  run_fresh Rehearsal.host_aloof Rehearsal.host_tidy (Rehearsal.host_keeps _)
    Rehearsal.host_oblivious .preset .empty .start .start _
    [.report (some Rehearsal.interrupted) [], .cancel "stray", .share [(.text "left", .null)]]
    (some Rehearsal.interrupted) []

end Choicebook
