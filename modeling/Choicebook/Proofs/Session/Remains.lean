import Choicebook.Proofs.Session.Failure
import Choicebook.Proofs.Session.Impartial
import Choicebook.Proofs.Session.Levels

/-!
# What a failing script leaves behind

When a script fails, so do the commands around it, up to the run. What the run reports then is what
the last command has left that completed. This is so whatever the script has done to the variables
before, and however many choices are nested around it. Only scripts that run other choices are in
the way of it: variables are handed over, a template may change them, and in the end the shared
variables are cleared, but the command of the script need not complete.

The record of a run tells all of this: `leftBy` is what the last completed command has left,
`inScript` is about the last command that has begun, and `undisturbed` says that since the last
completed command no script has begun to run another choice or has gone on after one.
-/

namespace Choicebook

variable {σ : Type}

/-! ### Records -/

/-- Whether a command ends. -/
def Mark.isFinish : Mark → Bool
  | .finished .. => true
  | _ => false

/-- The shared variables as the last command has left them that has completed; `start` is what they
were at first. -/
def leftBy (start : Entries) (moments : List Moment) : Entries :=
  ((moments.find? fun m => m.mark.isFinish).map Moment.shared).getD start

/-- How deep the last command was that has completed. -/
def lastLevel (moments : List Moment) : Nat :=
  ((moments.find? fun m => m.mark.isFinish).map Moment.depth).getD 0

/-- Whether the last command that has begun asks a script and has not ended. -/
def inScript (moments : List Moment) : Bool :=
  match (moments.find? fun m => m.mark.isBound).map Moment.mark with
  | some (.started _ c) => c.asksScript
  | _ => false

/-- Whether a script begins to run another choice or goes on after one. If the choice has failed,
the script is less deep than the commands of the choice. -/
def Moment.isExchange (level : Nat) (m : Moment) : Bool :=
  match m.mark with
  | .lent | .cleared => true
  | .caught _ => m.depth < level
  | _ => false

/-- Whether no script has begun to run another choice, nor gone on after one, since a command has
completed. -/
def undisturbed (moments : List Moment) : Bool :=
  (moments.takeWhile fun m => !m.mark.isFinish).all fun m => !m.isExchange (lastLevel moments)

section

variable {start : Entries} {added moments : List Moment} {m : Moment}

theorem isFinish_eq_false (h : m.mark.isBound = false) : m.mark.isFinish = false := by
  cases hm : m.mark with
  | finished owner c target =>
    rw [hm] at h
    cases h
  | _ => rfl

/-- What stands in front of the last end of a command makes no difference to it. -/
private theorem find?_isFinish_append (h : ∀ m ∈ added, m.mark.isFinish = false) :
    (added ++ moments).find? (fun m => m.mark.isFinish) =
      moments.find? fun m => m.mark.isFinish := by
  have hnone : added.find? (fun m => m.mark.isFinish) = none :=
    List.find?_eq_none.mpr fun m hm => by rw [h m hm]; exact Bool.false_ne_true
  rw [List.find?_append, hnone, Option.none_or]

theorem leftBy_append (h : ∀ m ∈ added, m.mark.isFinish = false) :
    leftBy start (added ++ moments) = leftBy start moments := by
  rw [leftBy, find?_isFinish_append h, leftBy]

theorem leftBy_cons (h : m.mark.isFinish = true) : leftBy start (m :: moments) = m.shared := by
  rw [leftBy, List.find?_cons, h]
  rfl

theorem lastLevel_append (h : ∀ m ∈ added, m.mark.isFinish = false) :
    lastLevel (added ++ moments) = lastLevel moments := by
  rw [lastLevel, find?_isFinish_append h, lastLevel]

theorem inScript_append (h : ∀ m ∈ added, m.mark.isBound = false) :
    inScript (added ++ moments) = inScript moments := by
  have hnone : added.find? (fun m => m.mark.isBound) = none :=
    List.find?_eq_none.mpr fun m hm => by rw [h m hm]; exact Bool.false_ne_true
  rw [inScript, List.find?_append, hnone, Option.none_or, inScript]

theorem inScript_started {owner : Value} {c : Command} (h : m.mark = .started owner c) :
    inScript (m :: moments) = c.asksScript := by
  have hbound : m.mark.isBound = true := by rw [h]; rfl
  rw [inScript, List.find?_cons, hbound, Option.map_some, h]

theorem undisturbed_append (h : ∀ m ∈ added, m.mark.isFinish = false) :
    undisturbed (added ++ moments) =
      ((added.all fun m => !m.isExchange (lastLevel moments)) && undisturbed moments) := by
  have hpass : ∀ m ∈ added, (!m.mark.isFinish) = true := fun m hm => by rw [h m hm]; rfl
  rw [undisturbed, lastLevel_append h, List.takeWhile_append_of_pos hpass, List.all_append,
    undisturbed]

theorem undisturbed_of_append (h : ∀ m ∈ added, m.mark.isFinish = false)
    (hu : undisturbed (added ++ moments) = true) : undisturbed moments = true := by
  rw [undisturbed_append h] at hu
  exact (Bool.and_eq_true_iff.mp hu).2

theorem undisturbed_cons_eq_false (h : m.mark.isFinish = false)
    (hm : m.isExchange (lastLevel moments) = true) : undisturbed (m :: moments) = false := by
  rw [← List.singleton_append, undisturbed_append (List.forall_mem_singleton.mpr h), List.all_cons,
    hm]
  rfl

/-- A script that goes on after a choice that it has begun to run: if a command has completed in the
choice, it was deeper, and if none has, the beginning shows. -/
theorem undisturbed_caught {f : Fault} (hm : m.mark = .caught f)
    (hadded : ∀ q ∈ added, q.mark.isBound = true → m.depth < q.depth)
    (h : undisturbed moments = false) : undisturbed (m :: (added ++ moments)) = false := by
  have hfinish : m.mark.isFinish = false := by rw [hm]; rfl
  cases hlast : added.find? fun q => q.mark.isFinish with
  | some q =>
    have hlevel : lastLevel (added ++ moments) = q.depth := by
      rw [lastLevel, List.find?_append, hlast]
      rfl
    have hbound : q.mark.isBound = true := by
      by_contra hq
      have hend := List.find?_some hlast
      rw [isFinish_eq_false (eq_false_of_ne_true hq)] at hend
      cases hend
    refine undisturbed_cons_eq_false hfinish ?_
    rw [Moment.isExchange, hm, hlevel]
    exact decide_eq_true (hadded q (List.mem_of_find?_eq_some hlast) hbound)
  | none =>
    have hnone : ∀ q ∈ m :: added, q.mark.isFinish = false := List.forall_mem_cons.mpr
      ⟨hfinish, fun q hq => eq_false_of_ne_true (List.find?_eq_none.mp hlast q hq)⟩
    rw [← List.cons_append, undisturbed_append hnone, h, Bool.and_false]

end

theorem Session.trail_remember (s : Session σ) (m : Mark) :
    (s.remember m).trail = [s.moment m] ++ s.trail := rfl

/-! ### Accounts of a run -/

section

variable (base : List Moment) (start : Entries)

/-- The trail has grown since it was `base`, and unless scripts have run other choices in the
meantime, what has been recorded since has a property. -/
def Session.Unless (P : List Moment → Prop) (s : Session σ) : Prop :=
  ∃ new, s.trail = new ++ base ∧ (undisturbed new = true → P new)

/-- What is shared is what the last command has left. -/
def Session.Even (s : Session σ) : Prop :=
  s.Unless base fun new => s.shared = leftBy start new

/-- If a script is running, what is shared is what the last command has left. -/
def Session.Halted (s : Session σ) : Prop :=
  s.Unless base fun new => inScript new = true → s.shared = leftBy start new

/-- If a script is running and something is pending, what is shared is what the last command has
left. -/
def Session.Suspended (s : Session σ) : Prop :=
  s.Unless base fun new =>
    s.pending ≠ none → inScript new = true → s.shared = leftBy start new

/-- No script is running. -/
def Session.Outside (s : Session σ) : Prop :=
  s.Unless base fun new => inScript new = false

/-- A script has failed, which another script may catch that has run it. -/
def Session.Harmless (s : Session σ) : Prop :=
  s.Halted base start ∧ ∀ f, (s.remember (.caught f)).Even base start

end

section

variable {base : List Moment} {start : Entries} {host : Host σ} {execute : Placed → Act σ Unit}

namespace Session

variable {states : σ → Prop} {s t : Session σ} {P Q : List Moment → Prop}

theorem Unless.mono (h : s.Unless base P) (hPQ : ∀ new, P new → Q new) : s.Unless base Q := by
  obtain ⟨new, ht, hnew⟩ := h
  exact ⟨new, ht, fun hu => hPQ new (hnew hu)⟩

/-- The record goes on without the end of a command. -/
theorem Unless.append (h : s.Unless base P) {added : List Moment}
    (ht : t.trail = added ++ s.trail) (hadded : ∀ m ∈ added, m.mark.isFinish = false)
    (hPQ : ∀ new, P new → Q (added ++ new)) : t.Unless base Q := by
  obtain ⟨new, hs, hnew⟩ := h
  refine ⟨added ++ new, by rw [ht, hs, List.append_assoc], fun hu => ?_⟩
  exact hPQ new (hnew (undisturbed_of_append hadded hu))

theorem Unless.of_suffix (h : s.Unless base P) (g : s.trail <:+ t.trail) :
    t.Unless base fun _ => True := by
  obtain ⟨new, hs, -⟩ := h
  obtain ⟨later, ht⟩ := g
  exact ⟨later ++ new, by rw [← ht, hs, List.append_assoc], fun _ => trivial⟩

/-- Once a script has begun to run another choice, or is back from it, nothing is said any more. -/
theorem Unless.of_exchange (h : s.Unless base P) {m : Mark} (hm : m = .lent ∨ m = .cleared) :
    (s.remember m).Unless base Q := by
  obtain ⟨new, hs, -⟩ := h
  refine ⟨s.moment m :: new, by rw [remember_trail, hs]; rfl, fun hu => ?_⟩
  have hfalse : undisturbed (s.moment m :: new) = false := by
    rcases hm with rfl | rfl
    · exact undisturbed_cons_eq_false rfl rfl
    · exact undisturbed_cons_eq_false rfl rfl
  exact absurd (hfalse.symm.trans hu) Bool.false_ne_true

theorem Even.halted (h : s.Even base start) : s.Halted base start :=
  h.mono fun _ hnew _ => hnew

theorem Even.suspended (h : s.Even base start) : s.Suspended base start :=
  h.mono fun _ hnew _ _ => hnew

theorem Halted.suspended (h : s.Halted base start) : s.Suspended base start :=
  h.mono fun _ hnew _ => hnew

theorem Outside.halted (h : s.Outside base) : s.Halted base start :=
  h.mono fun _ hnew hscript => absurd (hnew.symm.trans hscript) Bool.false_ne_true

theorem Even.quiet (h : s.Even base start) (g : s.Quiet states t) : t.Even base start := by
  obtain ⟨added, ht, hadded⟩ := g.trail
  have hfinish := fun m hm => isFinish_eq_false (hadded m hm)
  refine Unless.append h ht hfinish fun _ hnew => ?_
  rw [g.shared, leftBy_append hfinish]
  exact hnew

theorem Even.harmless (h : s.Even base start) : s.Harmless base start :=
  ⟨h.halted, fun _ => h.quiet (s.quiet_remember rfl)⟩

theorem Halted.quiet (h : s.Halted base start) (g : s.Quiet states t) : t.Halted base start := by
  obtain ⟨added, ht, hadded⟩ := g.trail
  have hfinish := fun m hm => isFinish_eq_false (hadded m hm)
  refine Unless.append h ht hfinish fun _ hnew => ?_
  rw [g.shared, leftBy_append hfinish, inScript_append hadded]
  exact hnew

/-- What is pending after a choice is a failure of the command that takes it up. -/
theorem Suspended.consumed (h : s.Suspended base start) {reason : String}
    (hpending : s.pending = some reason) :
    ({ s with pending := none }.remember (.consumed reason)).Halted base start := by
  have hhalted : ({ s with pending := none } : Session σ).Halted base start :=
    h.mono fun _ hnew => hnew (by rw [hpending]; exact nofun)
  exact hhalted.quiet (quiet_remember _ rfl)

theorem Outside.append (h : s.Outside base) {added : List Moment}
    (ht : t.trail = added ++ s.trail) (hadded : ∀ m ∈ added, m.mark.isBound = false) :
    t.Outside base :=
  Unless.append h ht (fun m hm => isFinish_eq_false (hadded m hm)) fun _ hnew =>
    (inScript_append hadded).trans hnew

/-- At the end of a command, what is shared is what the command leaves. -/
theorem Unless.finished (h : s.Unless base P) (owner : Value) (c : Command)
    (target : Option Choice) : (s.remember (.finished owner c target)).Even base start := by
  obtain ⟨new, hs, -⟩ := h
  let finished := s.moment (.finished owner c target)
  refine ⟨[finished] ++ new, by rw [trail_remember, hs, List.append_assoc], fun _ => ?_⟩
  exact (leftBy_cons (m := finished) rfl).symm

/-- A command that begins leaves what there was before. -/
theorem Even.started (h : s.Even base start) (owner : Value) (c : Command) :
    (s.remember (.started owner c)).Even base start ∧
      (s.remember (.started owner c)).Unless base fun new => inScript new = c.asksScript := by
  have htrail := s.trail_remember (.started owner c)
  have hfinish : ∀ m ∈ [s.moment (.started owner c)], m.mark.isFinish = false :=
    List.forall_mem_singleton.mpr rfl
  refine ⟨Unless.append h htrail hfinish fun _ hnew => ?_,
    Unless.append h htrail hfinish fun _ _ => inScript_started rfl⟩
  rw [leftBy_append hfinish]
  exact hnew

end Session

namespace Act

variable {α β : Type}

/-- An act inside of a macro: from one command to the next, what is shared is what the last one has
left. What is so after a failure is given. -/
structure Accounts (base : List Moment) (start : Entries) (failed : Session σ → Prop)
    (a : Act σ α) : Prop where
  unwinds : a.Unwinds
  run : ∀ s : Session σ, s.pending = none → 1 ≤ s.depth → s.Even base start →
    proceed (a.runOn s) (fun _ t => t.Even base start) fun _ t => failed t

/-- A choice: unless it completes, what is shared is still what the last command has left, if a
script has failed. -/
def Closes (base : List Moment) (start : Entries) (a : Act σ Unit) : Prop :=
  ∀ s : Session σ, s.pending = none → s.Even base start → s.Outside base →
    proceed (a.runOn s) (fun _ t => t.Suspended base start) fun _ t => t.Halted base start

/-- What scripts and commands rely on if they run a choice. -/
structure Returns (base : List Moment) (start : Entries) (a : Act σ Unit) : Prop where
  finishes : ∀ s : Session σ, s.pending = none → Choice.Finishes s.depth s (a.runOn s)
  aside : a.Records Moment.Aside
  closes : a.Closes base start

variable {failed : Session σ → Prop}

theorem Accounts.mono {failed' : Session σ → Prop} {a : Act σ α}
    (ha : Accounts base start failed a) (h : ∀ t, failed t → failed' t) :
    Accounts base start failed' a where
  unwinds := ha.unwinds
  run s hp hd hs := by
    have hrun := ha.run s hp hd hs
    generalize a.runOn s = run at hrun ⊢
    obtain ⟨f | x, t⟩ := run
    · exact h t hrun
    · exact hrun

theorem Accounts.bind {a : Act σ α} {f : α → Act σ β} (ha : Accounts base start failed a)
    (hf : ∀ x, Accounts base start failed (f x)) : Accounts base start failed (a >>= f) where
  unwinds := ha.unwinds.bind fun x => (hf x).unwinds
  run s hp hd hs := by
    have hsteps := ha.unwinds s hp hd
    have hrun := ha.run s hp hd hs
    rw [runOn_bind]
    generalize a.runOn s = run at hsteps hrun ⊢
    obtain ⟨e | x, t⟩ := run
    · exact hrun
    · exact (hf x).run t hsteps.pending (hsteps.depth ▸ hd) hrun

section

variable (hfailed : ∀ t : Session σ, t.Even base start → failed t)

include hfailed

theorem Quiet.accounts {a : Act σ α} (ha : Quiet (fun _ => True) a) (hu : a.Unwinds) :
    Accounts base start failed a where
  unwinds := hu
  run s _ _ hs := by
    have hquiet := ha s trivial
    generalize a.runOn s = run at hquiet ⊢
    obtain ⟨f | x, t⟩ := run
    · exact hfailed t (hs.quiet hquiet)
    · exact hs.quiet hquiet

theorem accounts_framed :
    Framed (σ := σ) fun {α} (a _ : Act σ α) => a.Accounts base start failed where
  pure x := (quiet_pure x).accounts hfailed (unwinds_law.pure x)
  bind := Accounts.bind
  read _ h := ⟨unwinds_law.get.bind fun s => (h s).unwinds, fun s => (h s).run s⟩
  fail {_ f} _ := (quiet_fail f).accounts hfailed (unwinds_law.fail f)
  note e := (quiet_note e).accounts hfailed (unwinds_law.note e)
  changeFrame hg := (quiet_changeFrame _).accounts hfailed (unwinds_law.changeFrame hg)

theorem accounts_ask (hh : host.Reserved fun _ => True) (e : Event) {a : Act σ α}
    (ha : host.Serves a) (_ : e.isNotice = false) :
    Accounts base start failed (ask e a) :=
  (quiet_ask hh e ha).accounts hfailed (unwinds_ask hh.toDiscreet e ha.offers)

end

/-- A script that carries on after a failure. -/
theorem Accounts.rescue {a : Act σ α} {carryOn : Fault → Act σ α}
    (ha : Accounts base start (Session.Harmless base start) a)
    (hc : ∀ f, Accounts base start (Session.Harmless base start) (carryOn f)) :
    Accounts base start (Session.Harmless base start) (Act.rescue a carryOn) where
  unwinds := unwinds_law.rescue ha.unwinds fun f => (hc f).unwinds
  run s hp hd hs := by
    have hsteps := ha.unwinds s hp hd
    have hrun := ha.run s hp hd hs
    rw [runOn_rescue]
    generalize a.runOn s = run at hsteps hrun ⊢
    obtain ⟨f | x, t⟩ := run
    · rw [proceed_error]
      split
      · exact hrun
      · exact (hc f).run (t.remember (.caught f)) hsteps.pending (hsteps.depth ▸ hd) (hrun.2 f)
    · exact hrun

end Act

open Act (Accounts Closes Returns)

/-! ### Scripts -/

namespace Call

variable {s : Session σ}

/-- A choice that a script runs. From when it begins, nothing is said about what is shared, up to the
next command that completes. -/
theorem enter_accounts (hexec : ∀ p, Returns base start (execute p)) (p : Placed)
    (hp : s.pending = none) (hs : s.Unless base fun _ => True) :
    Act.proceed ((enter execute p).runOn s) (fun _ t => t.Even base start)
      fun _ t => t.Harmless base start := by
  have hrun := (hexec p).closes (s.remember .lent) hp (hs.of_exchange (.inl rfl))
    (hs.of_exchange (.inl rfl))
  obtain ⟨hdepth, added, htrail, hadded⟩ := (hexec p).aside (s.remember .lent)
  cases h : (execute p).runOn (s.remember .lent) with
  | mk result t =>
    rw [h] at hrun hdepth htrail
    have ht : t.Unless base fun _ => True :=
      hs.of_suffix ⟨added ++ [s.moment .lent], by rw [htrail, List.append_assoc]; rfl⟩
    cases result with
    | error f =>
      rw [runOn_enter_error h]
      -- if it is caught, the choice has begun above and nothing has cleared what is shared since
      refine ⟨hrun, fun g => ?_⟩
      obtain ⟨new, hnew, -⟩ := hs
      refine ⟨t.moment (.caught g) :: (added ++ s.moment .lent :: new), ?_, fun hu => ?_⟩
      · rw [Session.trail_remember, htrail, Session.trail_remember, hnew]
        simp
      · have hlent : undisturbed (s.moment .lent :: new) = false := undisturbed_cons_eq_false rfl rfl
        have hcaught := undisturbed_caught (m := t.moment (.caught g)) rfl
          (fun q hq hbound => hdepth.trans_lt (hadded q hq hbound)) hlent
        exact absurd (hcaught.symm.trans hu) Bool.false_ne_true
    | ok _ =>
      cases hpending : t.pending with
      | none =>
        rw [runOn_enter_ok h hpending]
        exact Session.Unless.of_exchange (s := { t with shared := [] }) ht (.inr rfl)
      | some reason =>
        rw [runOn_enter_cancelled h hpending]
        let u := { t with pending := none }.remember (.consumed reason)
        have hu : u.Unless base fun _ => True := ht.of_suffix (List.suffix_cons _ _)
        have heven : (afterwards u).Even base start :=
          Session.Unless.of_exchange (s := { u with shared := [] }) hu (.inr rfl)
        exact heven.harmless

theorem runChoice_accounts (hd : host.Discreet) (hexec : ∀ p, Returns base start (execute p))
    (name : String) (vars : Value) :
    Accounts base start (Session.Harmless base start) (Call.runChoice execute name vars) where
  unwinds := (Discipline.unwinds (fun p => (hexec p).finishes) hd).comparison.callChoice name vars
  run s hp _ hs := by
    have hnone : ∀ {α : Type} (f : Fault), Act.proceed ((Act.fail f : Act σ α).runOn s)
        (fun _ t => t.Even base start) fun _ t => t.Harmless base start := fun f =>
      (hs.quiet (s.quiet_remember rfl)).harmless
    rw [Call.runChoice, Act.runOn_get_bind]
    cases Placed.withName? s.document (.text name) with
    | none =>
      have hrefused : Act.Quiet (fun _ => True) (do
          Act.logFailure ("API executeChoice error: Choice named '" ++ name ++ "' not found")
          Act.fail (.choiceNotFound name) : Act σ Unit) :=
        (Act.quiet_note _).bind fun _ => Act.quiet_fail _
      exact (hs.quiet (hrefused s trivial)).harmless
    | some p =>
      dsimp only
      rw [handOver]
      split
      · cases vars.toEntries with
        | error f => exact hnone f
        | ok extra =>
          exact enter_accounts hexec p (s := { s with shared := s.shared.update extra }) hp
            (hs.mono fun _ _ => trivial)
      · exact enter_accounts hexec p hp (hs.mono fun _ _ => trivial)

end Call

/-- Steps and exports account for what is shared, given how the choices end that scripts run. -/
theorem Act.accounts_scripting (hh : host.Reserved fun _ => True)
    (hexec : ∀ p, Returns base start (execute p)) :
    Scripting host execute execute False
      fun {α} (a _ : Act σ α) => a.Accounts base start (Session.Harmless base start) where
  toFramed := accounts_framed fun _ => Session.Even.harmless
  rescue := Accounts.rescue
  ask e _ ha := accounts_ask (fun _ => Session.Even.harmless) hh e ha
  callChoice _ := Call.runChoice_accounts hh.toDiscreet hexec

theorem Act.accounts_loads (hh : host.Reserved fun _ => True) (path : String) :
    Scripting.Loads host False
      (fun {α} (a _ : Act σ α) => a.Accounts base start (Session.Harmless base start)) path where
  bind h := (accounts_ask (fun _ => Session.Even.harmless) hh _ (.loadScript path) rfl).bind
    fun v => h v nofun

/-! ### Commands -/

namespace Running

/-- What is shared at the end of a command is what the command leaves. -/
private theorem accounts_step {α : Type} (hd : host.Discreet)
    (hexec : ∀ p, Returns base start (execute p)) (name : Value) (c : Command) {a : Act σ α}
    (ha : Accounts base start (Session.Halted base start) a) :
    Accounts base start (Session.Halted base start) (step ⟨host, execute, name⟩ c none a) where
  unwinds := (Discipline.unwinds (fun p => (hexec p).finishes) hd).step name c ha.unwinds
  run s hp hdepth hs := by
    have hrun := ha.run (s.remember (.started name c)) hp hdepth (hs.started name c).1
    rw [step, Act.runOn_remember_bind, Act.runOn_bind]
    generalize a.runOn (s.remember (.started name c)) = run at hrun ⊢
    obtain ⟨f | x, t⟩ := run
    · exact hrun
    · exact Session.Unless.finished (s := { t with shared := t.shared.update t.frame }) hrun name c
        none

private theorem accounts_enter (hd : host.Discreet) (hexec : ∀ p, Returns base start (execute p))
    (name : Value) (c : Command) (hc : c.asksScript = false) (p : Placed) :
    Accounts base start (Session.Halted base start) (step ⟨host, execute, name⟩ c (some p) (do
      enter ⟨host, execute, name⟩ p
      return (none : Option Value))) where
  unwinds := (Discipline.unwinds (fun p => (hexec p).finishes) hd).enter name c p
  run s hp _ hs := by
    let r : Running σ := ⟨host, execute, name⟩
    obtain ⟨hstarted, hscript⟩ := hs.started name c
    rw [hc] at hscript
    have hrun := (hexec p).closes (s.remember (.started name c)) hp hstarted hscript
    cases hended : (execute p).runOn (s.remember (.started name c)) with
    | mk result u =>
      rw [hended] at hrun
      cases result with
      | error f =>
        rw [runOn_enter_error (r := r) hended]
        exact hrun
      | ok _ =>
        cases hpending : u.pending with
        | none =>
          rw [runOn_enter_ok (r := r) hended hpending]
          exact Session.Unless.finished (s := folded u) hrun name c (some p.choice)
        | some reason =>
          rw [runOn_enter_cancelled (r := r) hended hpending]
          exact hrun.consumed hpending

/-- Commands account for what is shared, given how the choices end that they run. -/
theorem commanding_accounts (hh : host.Reserved fun _ => True)
    (hexec : ∀ p, Returns base start (execute p)) :
    Commanding host execute execute
      fun {α} (a _ : Act σ α) => a.Accounts base start (Session.Halted base start) where
  toFramed := Act.accounts_framed fun _ => Session.Even.halted
  ask e _ ha := Act.accounts_ask (fun _ => Session.Even.halted) hh e ha
  script name h path settings slot := by
    have hrun := (Act.accounts_scripting hh hexec).runScript (Act.accounts_loads hh path) name
      settings
    exact accounts_step hh.toDiscreet hexec name _ (hrun.mono fun _ => And.left)
  scripted name h path member thens elses f _ hf := by
    have hholds := (Act.accounts_scripting hh hexec).scriptHolds (Act.accounts_loads hh path) member
    exact accounts_step hh.toDiscreet hexec name _
      ((Act.accounts_framed fun _ => Session.Even.halted).pullFrame.bind fun _ =>
        (hholds.mono fun _ => And.left).bind hf)
  step name c _ _ _ h := accounts_step hh.toDiscreet hexec name c h
  wait name _ _ := by
    have l : Act.Framed fun {α} (a _ : Act σ α) =>
        a.Accounts base start (Session.Halted base start) :=
      Act.accounts_framed fun _ => Session.Even.halted
    have hendless : Accounts base start (Session.Halted base start)
        (Act.fail .endless : Act σ Unit) :=
      (Act.quiet_fail _).accounts (fun _ => Session.Even.halted) (Act.unwinds_law.fail _)
    exact accounts_step hh.toDiscreet hexec name _
      ((l.pause hendless rfl _).bind fun _ => l.pure _)
  enter name d c p ht := by
    refine accounts_enter hh.toDiscreet hexec name c ?_ p
    cases c with
    | choice => rfl
    | nested => rfl
    | _ => cases ht

end Running
/-! ### Choices -/

namespace Choice

variable {s : Session σ}

/-- The end of a cancelled choice changes nothing that is shared. -/
theorem recordCancellation_suspended (hh : host.Reserved fun _ => True) (c : Choice)
    (preset reason : String) (hs : s.Halted base start) :
    Act.proceed ((Act.recordCancellation host c preset reason).runOn s)
      (fun _ t => t.Suspended base start) fun _ t => t.Halted base start := by
  let recorded := { s with pending := some reason }.remember (.recorded c reason)
  have hpending : ({ s with pending := some reason } : Session σ).Halted base start := hs
  have hrecorded : recorded.Halted base start := hpending.quiet (Session.quiet_remember _ rfl)
  rcases Act.runOn_recordCancellation_cases host c preset reason s with hrun | ⟨-, text, hrun⟩
  · rw [hrun]
    exact hrecorded.suspended
  · rw [hrun]
    have hquiet := Act.quiet_ask hh (.notify text) (.notify text) recorded trivial
    generalize (Act.ask (.notify text) (host.notify text)).runOn recorded = run at hquiet ⊢
    obtain ⟨f | x, t⟩ := run
    · exact hrecorded.quiet hquiet
    · exact (hrecorded.quiet hquiet).suspended

/-- Outside of scripts, the host may do with the shared variables what it likes. -/
private theorem outside_ask (hd : host.Discreet) (e : Event) {a : Act σ Unit} (ha : host.Offers a)
    (hs : s.Outside base) : ((Act.ask e a).runOn s).2.Outside base := by
  have htrail : (a.runOn (s.remember (.asked e))).2.trail = [s.moment (.asked e)] ++ s.trail :=
    hd.trail ha (s.remember (.asked e))
  have hasked := hs.append htrail (List.forall_mem_singleton.mpr rfl)
  rw [Act.runOn_ask]
  generalize a.runOn (s.remember (.asked e)) = run at hasked ⊢
  obtain ⟨f | x, t⟩ := run
  · exact hasked.append (t.trail_remember (.failed f)) (List.forall_mem_singleton.mpr rfl)
  · exact hasked

theorem delegate_closes (hh : host.Reserved fun _ => True) (c : Choice)
    (e : Entries → Event) {a : Act σ Unit} (ha : host.Offers a) :
    Closes base start (delegate host c do Act.ask (e (← get).shared) a) := by
  intro s _ _ hout
  have hrun := outside_ask hh.toDiscreet (e s.shared) ha hout
  rw [runOn_delegate, Act.runOn_get_bind]
  generalize (Act.ask (e s.shared) a).runOn s = run at hrun ⊢
  obtain ⟨f | _, t⟩ := run
  · cases f with
    | cancelled reason => exact recordCancellation_suspended hh c _ reason hrun.halted
    | _ => exact hrun.halted
  · exact hrun.halted.suspended

theorem runMacro_closes (hh : host.Reserved fun _ => True)
    (hexec : ∀ p, Returns base start (execute p)) (c : Choice) (body : Option Macro)
    {s : Session σ} (hp : s.pending = none) (hdepth : 1 ≤ s.depth) (hs : s.Even base start) :
    Act.proceed ((runMacro host execute c body).runOn s) (fun _ t => t.Suspended base start)
      fun _ t => t.Halted base start := by
  have hbody := (Running.commanding_accounts hh hexec).runBody c.name body
  have hsteps := hbody.unwinds (opened s) hp hdepth
  have hrun := hbody.run (opened s) hp hdepth hs
  cases hended : (Running.runBody ⟨host, execute, c.name⟩ body).runOn (opened s) with
  | mk result u =>
    rw [hended] at hrun hsteps
    cases result with
    | ok v =>
      rw [runOn_runMacro_ok hended]
      -- nothing is pending after a macro that has completed
      exact Session.Unless.mono hrun fun _ _ hpending => absurd hsteps.pending hpending
    | error f =>
      have hhalted : ({ u with frame := s.frame } : Session σ).Halted base start := hrun
      cases hf : f.isCancelled with
      | false =>
        rw [runOn_runMacro_error hf hended]
        exact hhalted
      | true =>
        obtain ⟨reason, rfl⟩ := Fault.eq_cancelled hf
        rw [runOn_runMacro_cancelled hended]
        exact recordCancellation_suspended hh c _ reason hhalted

theorem runMenu_closes (hh : host.Reserved fun _ => True)
    (hexec : ∀ p, Returns base start (execute p)) (p : Placed) (choices : List Choice) :
    Closes base start (runMenu host (Menu.browse host) execute p choices) := by
  intro s hp hs hout
  have hbrowse : ∀ m : Menu, Act.Quiet (fun _ => True) (m.browse host) := fun m s hs =>
    Act.quiet_framed.navigate (fun labels count placeholder =>
      Act.quiet_ask hh _ (.suggest labels count placeholder)) _ m s hs
  by_cases hempty : choices.isEmpty
  · rw [runMenu, if_pos hempty]
    exact Session.Even.suspended (s := s.note _) hs
  · let m : Menu := ⟨choices, (Placed.list? s.document p).toList, p.choice.name⟩
    have hquiet := hbrowse m s trivial
    rw [runOn_runMenu hempty, Act.runOn_bind]
    generalize (Menu.browse host m).runOn s = run at hquiet ⊢
    obtain ⟨f | picked, t⟩ := run
    · exact hs.halted.quiet hquiet
    · cases picked with
      | none => exact recordCancellation_suspended hh _ _ _ (hs.quiet hquiet).halted
      | some c =>
        obtain ⟨added, htrail, hadded⟩ := hquiet.trail
        exact (hexec _).closes t (hquiet.pending.trans hp) (hs.quiet hquiet)
          (hout.append htrail hadded)

theorem perform_closes (hh : host.Reserved fun _ => True)
    (hexec : ∀ p, Returns base start (execute p)) (p : Placed) {s : Session σ}
    (hp : s.pending = none) (hdepth : 1 ≤ s.depth) (hs : s.Even base start)
    (hout : s.Outside base) :
    Act.proceed ((perform host (Menu.browse host) execute p).runOn s)
      (fun _ t => t.Suspended base start) fun _ t => t.Halted base start := by
  rw [perform]
  split
  · exact delegate_closes hh _ _ (.runTemplate _ _) s hp hs hout
  · exact delegate_closes hh _ _ (.runCapture _ _) s hp hs hout
  · exact runMacro_closes hh hexec _ _ hp hdepth hs
  · exact runMenu_closes hh hexec p _ s hp hs hout

theorem executeAt_closes (hh : host.Reserved fun _ => True) (levels : Nat) (p : Placed) :
    Closes base start (executeAt host levels p) := by
  induction levels generalizing p with
  | zero =>
    intro s _ hs _
    exact hs.halted.quiet (s.quiet_remember rfl)
  | succ levels ih =>
    have hexec (p : Placed) : Returns base start (executeAt host levels p) :=
      ⟨fun s hp => executeAt_finishes hh.toDiscreet levels p hp,
        aside_executeAt hh.toDiscreet levels p, ih p⟩
    intro s hp hs hout
    rw [executeAt]
    by_cases hdepth : s.config.maxDepth ≤ s.depth
    · rw [runOn_executeOnce_refused hdepth]
      exact hs.halted.quiet ((s.quiet_remember rfl).trans (Session.quiet_remember _ rfl))
    · rw [runOn_executeOnce hdepth]
      have hinside : s.Quiet (fun _ => True) (inside p.choice s) :=
        ⟨rfl, rfl, trivial, [_, _], rfl, by simp [Mark.isBound]⟩
      obtain ⟨added, htrail, hadded⟩ := hinside.trail
      have hrun := perform_closes hh hexec p (s := inside p.choice s) hp (Nat.le_add_left 1 s.depth)
        (hs.quiet hinside) (hout.append htrail hadded)
      generalize (perform host (Menu.browse host) (executeAt host levels) p).runOn
        (inside p.choice s) = run at hrun ⊢
      obtain ⟨f | x, t⟩ := run
      · exact hrun
      · exact hrun

end Choice

/-! ### Reports -/

namespace Runner

theorem vars_of_failed_script (hh : host.Reserved fun _ => True) {p : Placed} {vars : Entries}
    {s t : Session σ} {report : RunReport}
    (h : (run host (some p) vars).runOn s = (.ok report, t)) :
    ∃ new, t.trail = new ++ s.trail ∧ (undisturbed new = true → inScript new = true →
      report.fault.isSome = true → report.vars = leftBy (Entries.update [] vars) new) := by
  let start := Entries.update [] vars
  have hbegun : (begun vars s).Even s.trail start := ⟨[], rfl, fun _ => rfl⟩
  have hout : (begun vars s).Outside s.trail := ⟨[], rfl, fun _ => rfl⟩
  have hrun : Act.proceed ((Choice.execute host p).runOn (begun vars s))
      (fun _ t => t.Suspended s.trail start) fun _ t => t.Halted s.trail start := by
    rw [Choice.execute, Act.runOn_get_bind]
    exact Choice.executeAt_closes hh _ p _ rfl hbegun hout
  cases hended : (Choice.execute host p).runOn (begun vars s) with
  | mk result u =>
    rw [hended] at hrun
    cases result with
    | error f =>
      have he : f.escapes = false := by
        rw [← Bool.not_eq_true]
        exact fun he => by cases (runOn_of_escape hended he).symm.trans h
      obtain ⟨w, hreport, htrail⟩ := runOn_of_error hended he
      cases hreport.symm.trans h
      obtain ⟨new, hu, hnew⟩ := hrun
      exact ⟨new, htrail.trans hu, fun hquiet hscript _ => hnew hquiet hscript⟩
    | ok _ =>
      cases hpending : u.pending with
      | none =>
        cases (runOn_of_ok hended hpending).symm.trans h
        obtain ⟨new, hu, -⟩ := hrun
        exact ⟨new, hu, fun _ _ hfault => absurd hfault Bool.false_ne_true⟩
      | some reason =>
        cases (runOn_of_cancelled hended hpending).symm.trans h
        obtain ⟨new, hu, hnew⟩ := hrun.consumed hpending
        exact ⟨new, hu, fun hquiet hscript _ => hnew hquiet hscript⟩

end Runner

/-- **A script that fails leaves the shared variables alone.** If it runs no other choice, they are
as before when it fails as the script of a command, in whatever part of its export, as a condition,
or as the member that a reference leads to. The variables that a run reports after that are those
that the last command has left that completed, unless since then a script has begun to run another
choice or has gone on after one.

The maps of variables are copied, but not the values in them; so this rests on it that no step
changes a value in place. -/
theorem Session.shared_of_failed_script {states : σ → Prop} (hh : host.Reserved states) :
    (∀ path, host.Solitary states path → ∀ (execute : Placed → Act σ Unit) (name : Value),
      let r : Running σ := ⟨host, execute, name⟩
      (∀ (head : CommandHead) (settings : Entries) (slot : Nat),
        let c : Command := .script head path settings slot
        Act.Atomic states (r.step c none (r.runCommand c none))) ∧
      ∀ member, Act.Atomic states (Condition.holds host execute (.byScript path member))) ∧
    (∀ (c : Choice) (members : List String),
      (∀ path settings slot,
        SingleMacro.firstScript? ((c.body?.map Macro.commands).getD []) =
          some (path, settings, slot) → host.Solitary states path) →
      Act.Atomic states (SingleMacro.runMember host c members)) ∧
    ∀ (p : Placed) (vars : Entries) (s t : Session σ) (report : RunReport),
      (Runner.run host (some p) vars).runOn s = (.ok report, t) →
      ∃ new, t.trail = new ++ s.trail ∧ (undisturbed new = true → inScript new = true →
        report.fault.isSome = true → report.vars = leftBy (Entries.update [] vars) new) := by
  refine ⟨fun path hpath execute name => ⟨fun head settings slot => ?_, fun member => ?_⟩,
    fun c members hfile => SingleMacro.atomic_runMember hh c members hfile,
    fun p vars s t report h => Runner.vars_of_failed_script hh.anywhere h⟩
  · refine Running.atomic_step name _ none ?_
    rw [Running.runCommand]
    exact (Act.quiet_scripting hh execute).runScript (Act.quiet_loads hh hpath) name settings
  · have hholds := (Act.quiet_scripting hh execute).scriptHolds (Act.quiet_loads hh hpath) member
    exact hholds.atomic

end

/-! ### A macro that fails -/

namespace Rehearsal

theorem host_reserved (scripts : List (String × Value)) : host.Reserved (Equipped scripts) where
  pending ha s := ((host_impartial scripts).untouched ha s).pending
  depth ha s := ((host_impartial scripts).untouched ha s).depth
  trail ha s := ((host_impartial scripts).untouched ha s).trail
  shared := (host_impartial scripts).shared
  keeps := (host_impartial scripts).keeps

/-- The scripts of a rehearsal are what its list says. -/
theorem host_solitary {scripts : List (String × Value)} {path : String}
    (h : ((scripts.lookup path).getD .null).Solitary) :
    host.Solitary (Equipped scripts) path := by
  intro v s t hs hrun
  rw [runOn_loadScript, hs.scripts] at hrun
  cases hrun
  exact h

/-- A macro with a script `set` and, if the script `ask` says so, a script `fail`. -/
def doomed : Placed :=
  let script (name : String) : Command := .script ⟨.text name, .text name⟩ name [] 0
  let ask : Command := .conditional ⟨.text "ask", .text "ask"⟩ (.byScript "ask" .null)
    [script "fail"] []
  ⟨.ofMacro ⟨.text "doomed", .text "doomed", false⟩
    (some (.mk (.text "doomed") (.text "doomed") [script "set", ask] false)), none⟩

/-- The scripts of that macro. The first one takes some steps before it sets its variable, and the
one that asks before it says yes. -/
def doomedScripts (first asking : List Step) : List (String × Value) :=
  [("set", .function "set" .one (first ++ [.assign "a" (.literal (.int 1))])),
   ("ask", .function "ask" .one (asking ++ [.finish (.literal (.bool true))])),
   ("fail", .function "fail" .one
     [.assign "b" (.literal (.int 2)), .discard "a", .fail "RuntimeError" "no"])]

/-- A step that runs a template. -/
def sending : Step := .runChoice "letter" .null

/-- A session that has just begun, with those scripts and that template. -/
def beforeDoom (first asking : List Step) : Session Rehearsal :=
  let letter : Choice := .template ⟨.text "letter", .text "letter", false⟩ []
  .start .preset { Document.empty with choices := [letter] } .start
    ⟨doomedScripts first asking, [], [], [], false, none, false⟩

end Rehearsal

namespace Session

open Rehearsal (Equipped doomed doomedScripts sending beforeDoom)

private theorem solitary_fail (first asking : List Step) :
    Rehearsal.host.Solitary (Equipped (doomedScripts first asking)) "fail" :=
  Rehearsal.host_solitary (Value.solitary_function rfl)

/-- The first script runs another choice, and its command has completed when a script fails. -/
theorem shared_of_failed_script_doomed :
    let scripts := doomedScripts [sending] []
    let r : Running Rehearsal := ⟨Rehearsal.host, Choice.execute Rehearsal.host, .text "doomed"⟩
    let c : Command := .script ⟨.text "fail", .text "fail"⟩ "fail" [] 0
    let run := (Runner.run Rehearsal.host (some doomed) []).runOn (beforeDoom [sending] [])
    Rehearsal.host.Reserved (Equipped scripts) ∧
      Act.Atomic (Equipped scripts) (r.step c none (r.runCommand c none)) ∧
      undisturbed run.2.trail = true ∧ inScript run.2.trail = true ∧
      ∃ report, run.1 = .ok report ∧ report.vars = leftBy [] run.2.trail := by
  intro scripts r c run
  have hreserved := Rehearsal.host_reserved scripts
  obtain ⟨hscripts, -, hruns⟩ := shared_of_failed_script hreserved
  have hatomic := (hscripts "fail" (solitary_fail [sending] []) (Choice.execute Rehearsal.host)
    (.text "doomed")).1 ⟨.text "fail", .text "fail"⟩ [] 0
  have hquiet : undisturbed run.2.trail = true := by decide +kernel
  have hscript : inScript run.2.trail = true := by decide +kernel
  have hfault : run.1.toOption.any (fun report => report.fault.isSome) = true := by decide +kernel
  refine ⟨hreserved, hatomic, hquiet, hscript, ?_⟩
  cases hrun : run.1 with
  | error f =>
    rw [hrun] at hfault
    exact absurd hfault Bool.false_ne_true
  | ok report =>
    rw [hrun] at hfault
    obtain ⟨new, htrail, hvars⟩ :=
      hruns doomed [] (beforeDoom [sending] []) run.2 report (Prod.ext hrun rfl)
    have hnew : run.2.trail = new := htrail.trans (List.append_nil new)
    rw [← hnew] at hvars
    exact ⟨report, rfl, hvars hquiet hscript hfault⟩

/-- A script that has run a choice has cleared the variables meanwhile. Those that are reported when
another one fails, which runs none, are not what the last command has left that completed. -/
theorem cleared_before_failure :
    let run := (Runner.run Rehearsal.host (some doomed) []).runOn (beforeDoom [] [sending])
    Rehearsal.host.Solitary (Equipped (doomedScripts [] [sending])) "fail" ∧
      inScript run.2.trail = true ∧
      ((leftBy [] run.2.trail).field? "a").isSome = true ∧
      (run.1.toOption.any fun report => report.fault.isSome && report.vars.isEmpty) = true := by
  intro run
  exact ⟨solitary_fail [] [sending], by decide +kernel, by decide +kernel, by decide +kernel⟩

end Session

end Choicebook
