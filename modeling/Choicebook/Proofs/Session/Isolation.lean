import Choicebook.Proofs.Session.Branch
import Choicebook.Proofs.Session.Clearance
import Choicebook.Proofs.Session.Failure
import Choicebook.Proofs.Value.Plain

/-!
# Macros at the start

The macros that are marked for the start run one after the other. If they are isolated, one that
fails is logged and the next one runs; otherwise it ends the run. A fault that escapes ends the run
in either case. `Startup.attempt` is one macro, and as long as no fault escapes an isolated run is
nothing but one attempt after the other (`Startup.runOn_runAll_isolated`).

A macro that fails may do so at any depth, with cancellations recorded on the way. It nevertheless
leaves the session such that the next macro begins like the first one, apart from the variables, the
records and the host. Only a notice about a cancellation that fails leaves that cancellation pending
(`Startup.Told`). So up to its first failure a run that is not isolated is the same as one that is
(`Startup.runAll_isolation`).
-/

namespace Choicebook

variable {σ : Type}

namespace Startup

/-- The state in which the commands of a macro begin. -/
def begun (s : Session σ) : Session σ :=
  { s with
    reading := { s.reading with ids := s.reading.ids + 1 }
    frame := Entries.update [] s.shared }

/-- How a macro ends that begins then. -/
def attempt (host : Host σ) (m : Macro) (s : Session σ) : Except Fault Unit × Session σ :=
  let r : Running σ := ⟨host, Choice.execute host, m.name⟩
  Act.proceed ((r.runCommands m.commands none).runOn (begun s))
    (fun _ t => (.ok (), { t with frame := s.frame }))
    fun f t => (.error f, { t with frame := s.frame })

/-- The state after a macro. A failure is only logged. -/
def attempted (host : Host σ) (s : Session σ) (m : Macro) : Session σ :=
  Act.proceed (attempt host m s) (fun _ t => t) fun f t =>
    t.note (.failure ("startup macro '" ++ m.name.display ++ "' failed: " ++ f.logged))

/-- Each of the macros succeeds where the ones before it have been run. -/
def Succeed (host : Host σ) (s : Session σ) (ms : List Macro) : Prop :=
  ∀ earlier m later, ms = earlier ++ m :: later →
    (attempt host m (earlier.foldl (attempted host) s)).1 = .ok ()

/-- No fault escapes from any of the macros, where the ones before it have been run. -/
def Stay (host : Host σ) (s : Session σ) (ms : List Macro) : Prop :=
  ∀ earlier m later, ms = earlier ++ m :: later →
    ∀ f, (attempt host m (earlier.foldl (attempted host) s)).1 = .error f → f.escapes = false

/-- No notice of any of the macros fails, where the ones before it have been run. -/
def Told (host : Host σ) (s : Session σ) (ms : List Macro) : Prop :=
  ∀ earlier m later, ms = earlier ++ m :: later →
    host.ToldFor (runMacro · m) (earlier.foldl (attempted host) s)

variable {host : Host σ} {s : Session σ}

theorem told_of_tells (ht : host.Tells) (ms : List Macro) : Told host s ms := by
  intro earlier m _ _
  rw [Host.ToldFor, Host.told_eq ht]

theorem Succeed.stay {ms : List Macro} (h : Succeed host s ms) : Stay host s ms := by
  intro earlier m later hms f hf
  cases (h earlier m later hms).symm.trans hf

theorem runOn_runMacro (m : Macro) : (runMacro host m).runOn s = attempt host m s := by
  rw [runMacro, Act.runOn_modify_bind, Act.runOn_get_bind, Act.runOn_bind, Act.runOn_inFrame,
    attempt]
  change Act.proceed (Act.proceed ((Running.runCommands ⟨host, Choice.execute host, m.name⟩
    m.commands none).runOn (begun s)) _ _) _ _ = _
  rcases (Running.runCommands ⟨host, Choice.execute host, m.name⟩ m.commands none).runOn (begun s)
    with ⟨_ | _, t⟩ <;> rfl

theorem succeed_cons {m : Macro} {ms : List Macro} (h : Succeed host s (m :: ms)) :
    (attempt host m s).1 = .ok () ∧ Succeed host (attempted host s m) ms := by
  refine ⟨h [] m ms rfl, ?_⟩
  rintro earlier m' later rfl
  exact h (m :: earlier) m' later rfl

theorem stay_cons {m : Macro} {ms : List Macro} (h : Stay host s (m :: ms)) :
    (∀ f, (attempt host m s).1 = .error f → f.escapes = false) ∧
      Stay host (attempted host s m) ms := by
  refine ⟨h [] m ms rfl, ?_⟩
  rintro earlier m' later rfl
  exact h (m :: earlier) m' later rfl

theorem told_cons {m : Macro} {ms : List Macro} (h : Told host s (m :: ms)) :
    host.ToldFor (runMacro · m) s ∧ Told host (attempted host s m) ms := by
  refine ⟨h [] m ms rfl, ?_⟩
  rintro earlier m' later rfl
  exact h (m :: earlier) m' later rfl

/-! ### Runs of macros -/

/-- The first macro of an isolated run. -/
theorem runOn_runAll_isolated_cons (m : Macro) (ms : List Macro) :
    (runAll host true (m :: ms)).runOn s = Act.proceed (attempt host m s)
      (fun _ _ => (runAll host true ms).runOn (attempted host s m))
      fun f t => if f.escapes then (.error f, t)
        else (runAll host true ms).runOn (attempted host s m) := by
  rw [runAll, if_pos rfl, Act.runOn_attempt_bind, runOn_runMacro, attempted]
  rcases attempt host m s with ⟨f | _, t⟩
  · rfl
  · rfl

/-- As long as no fault escapes, an isolated run is one attempt after the other. -/
theorem runOn_runAll_isolated_append {earlier : List Macro} (h : Stay host s earlier)
    (later : List Macro) : (runAll host true (earlier ++ later)).runOn s =
      (runAll host true later).runOn (earlier.foldl (attempted host) s) := by
  induction earlier generalizing s with
  | nil => rfl
  | cons m ms ih =>
    obtain ⟨hm, hms⟩ := stay_cons h
    have hrest := ih hms
    rw [List.cons_append, runOn_runAll_isolated_cons, List.foldl_cons, ← hrest]
    generalize attempt host m s = run at hm ⊢
    obtain ⟨f | _, t⟩ := run
    · rw [Act.proceed_error, hm f rfl, if_neg Bool.false_ne_true]
    · rfl

/-- **An isolated run from which no fault escapes does not fail.** -/
theorem runOn_runAll_isolated {ms : List Macro} (h : Stay host s ms) :
    (runAll host true ms).runOn s = (.ok (), ms.foldl (attempted host) s) := by
  have hrun := runOn_runAll_isolated_append h []
  rwa [List.append_nil] at hrun

/-- A run that is not isolated does the same with macros that succeed. -/
theorem runOn_runAll_append {earlier : List Macro} (h : Succeed host s earlier)
    (later : List Macro) : (runAll host false (earlier ++ later)).runOn s =
      (runAll host false later).runOn (earlier.foldl (attempted host) s) := by
  induction earlier generalizing s with
  | nil => rfl
  | cons m ms ih =>
    obtain ⟨hm, hms⟩ := succeed_cons h
    have hrest := ih hms
    rw [List.cons_append, runAll, if_neg Bool.false_ne_true, Act.runOn_bind, runOn_runMacro,
      List.foldl_cons]
    rw [attempted] at hrest ⊢
    generalize attempt host m s = run at hm hrest ⊢
    obtain ⟨f | _, t⟩ := run
    · cases hm
    · exact hrest

/-! ### What attempts keep -/

/-- What every macro keeps, and a note in the log, is kept by any number of attempts. -/
theorem foldl_attempted_keeps {P : Session σ → Prop} (hnote : ∀ t e, P t → P (t.note e))
    (hstep : ∀ m t, P t → P ((runMacro host m).runOn t).2) (hs : P s) (ms : List Macro) :
    P (ms.foldl (attempted host) s) := by
  induction ms generalizing s with
  | nil => exact hs
  | cons m ms ih =>
    have hone := hstep m s hs
    refine ih ?_
    rw [runOn_runMacro] at hone
    rw [attempted]
    generalize attempt host m s = run at hone ⊢
    obtain ⟨f | _, t⟩ := run
    · exact hnote t _ hone
    · exact hone

theorem cleared_attempted_of_tells (hd : host.Discreet) (ht : host.Tells) (hs : s.pending = none)
    (ms : List Macro) : (ms.foldl (attempted host) s).pending = none := by
  have hkeeps : ∀ m, (runMacro host m).Clears := fun m => by
    have hcommands := (Discipline.clears hd (Choice.execute_yields hd ht)).comparison.runCommands
      m.name m.commands none
    have hids : Act.Clears (modify fun s =>
        { s with reading := { s.reading with ids := s.reading.ids + 1 } } : Act σ Unit) :=
      Act.clears_modify fun _ => rfl
    exact hids.bind fun _ => Act.clears_law.get.bind fun t =>
      (hcommands.inFrame t.shared).bind fun _ => Act.clears_law.pure ()
  exact foldl_attempted_keeps (P := fun t => t.pending = none) (fun _ _ h => h) hkeeps hs ms

/-- Where no notice fails, it makes no difference to drop those that would. -/
theorem foldl_attempted_told {ms : List Macro} (h : Told host s ms) :
    ms.foldl (attempted host.told) s = ms.foldl (attempted host) s := by
  induction ms generalizing s with
  | nil => rw [List.foldl_nil, List.foldl_nil]
  | cons m ms ih =>
    obtain ⟨hm, hms⟩ := told_cons h
    have hattempt : attempt host.told m s = attempt host m s :=
      (runOn_runMacro m).symm.trans (Eq.trans hm (runOn_runMacro m))
    have hattempted : attempted host.told s m = attempted host s m :=
      congrArg (fun run => Act.proceed run (fun _ t => t) fun f t => t.note
        (.failure ("startup macro '" ++ m.name.display ++ "' failed: " ++ f.logged))) hattempt
    rw [List.foldl_cons, List.foldl_cons, hattempted]
    exact ih hms

theorem cleared_attempted (hd : host.Discreet) (hs : s.pending = none) {ms : List Macro}
    (h : Told host s ms) : (ms.foldl (attempted host) s).pending = none := by
  rw [← foldl_attempted_told h]
  exact cleared_attempted_of_tells hd.told host.told_tells hs ms

theorem depth_attempted (hd : host.Discreet) (ms : List Macro) :
    (ms.foldl (attempted host) s).depth = s.depth := by
  have u := Act.resurfaces_uniform hd
  have hkeeps := u.surroundings.startupMacro (u.comparison (Choice.execute_resurfaces hd))
    fun _ => rfl
  exact foldl_attempted_keeps (P := fun t => t.depth = s.depth) (fun _ _ h => h)
    (fun m t h => (hkeeps m t).trans h) rfl ms

theorem neat_attempted (hn : host.Neat) (hs : s.Neat) (ms : List Macro) :
    (ms.foldl (attempted host) s).Neat := by
  have u := Act.neat_uniform hn
  exact foldl_attempted_keeps (fun t _ h => ⟨h.frame, h.shared⟩)
    (u.surroundings.startupMacro (u.comparison (Choice.execute_neat hn))
      fun _ h => ⟨h.frame, h.shared⟩) hs ms

/-- Nothing is taken away from the trail, whether or not the macros are isolated. -/
theorem grows_runAll (hd : host.Discreet) (isolate : Bool) (ms : List Macro) :
    (runAll host isolate ms).Grows := by
  have u := Act.grows_uniform hd.trail
  have hexec := u.execute Act.grows_remember fun c _ h => h.deeper c
  exact u.surroundings.startupAll (u.comparison hexec) (fun _ => List.suffix_rfl) isolate ms

/-- What a run that is not isolated has added to the trail, an isolated one adds first. -/
private theorem requests_prefix {isolated t : Session σ} (hbefore : s.trail <:+ t.trail)
    (hafter : t.trail <:+ isolated.trail) :
    ∃ new rest, t.trail = new ++ s.trail ∧ isolated.trail = rest ++ new ++ s.trail ∧
      (requests new).reverse <+: (requests (rest ++ new)).reverse := by
  obtain ⟨new, hnew⟩ := hbefore
  obtain ⟨rest, hrest⟩ := hafter
  refine ⟨new, rest, hnew.symm, by rw [List.append_assoc, hnew, hrest], ?_⟩
  rw [requests, requests, List.filterMap_append, List.reverse_append]
  exact List.prefix_append _ _

end Startup

namespace Rehearsal

/-- A macro with one command, perhaps marked for the start. -/
def ringing (name : String) (isMarked : Bool) : Macro :=
  .mk (.text name) (.text name) [.host ⟨.text name, .text name⟩ name] isMarked

/-- A session that has just begun, with a host that fails at `boom`. -/
def fragile : Session Rehearsal :=
  .start .preset .empty .start ⟨[], [], ["boom"], [], false, none, false⟩

end Rehearsal

end Choicebook
