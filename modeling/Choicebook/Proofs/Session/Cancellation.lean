import Choicebook.Proofs.Session.Law
import Choicebook.Proofs.Session.Rehearsal
import Choicebook.Proofs.Session.Runs

/-!
# What becomes of a cancellation

A cancellation inside of a choice is recorded, is pending while the choice returns, and is taken up
by the macro command or the script that ran the choice. `Orderly` reads a stretch of the trail as
the run of a small machine whose state is the pending cancellation, if there is one, with the depth
at which it was recorded. The machine has no way to begin a command, to fail or to go on with a
script while a cancellation is pending; only the notice of the cancellation may come in between.

`Choice.executeAt_ends` says that every run of a choice that begins with nothing pending is orderly,
and that it can end with a pending cancellation only if it returns. What happens between the choices
is settled by the law `Act.Settles`: an act inside of a macro leaves nothing pending, whether or not
it fails.
-/

namespace Choicebook

variable {σ : Type}

/-! ### Orderly trails -/

/-- A pending cancellation, and how deep the choice ran that was cancelled. -/
abbrev Slot := Option (String × Nat)

/-- How a mark at a depth changes the slot. -/
def Mark.Turns (depth : Nat) (before after : Slot) : Mark → Prop
  | .recorded _ reason => before = none ∧ after = some (reason, depth)
  | .consumed reason => (∃ d, before = some (reason, d) ∧ depth < d) ∧ after = none
  | .asked (.notify _) => after = before
  | _ => before = none ∧ after = none

/-- A moment changes the slot as its mark says and shows what is pending from then on. -/
structure Moment.Turns (m : Moment) (before after : Slot) : Prop where
  mark : m.mark.Turns m.depth before after
  shows : m.pending = after.map Prod.fst

/-- A stretch of a trail, latest first, that takes the slot from one state to another. -/
inductive Orderly (a : Slot) : List Moment → Slot → Prop where
  | nil : Orderly a [] a
  | cons {b c : Slot} {m : Moment} {ms : List Moment} (h : Orderly a ms b) (hm : m.Turns b c) :
    Orderly a (m :: ms) c

namespace Orderly

theorem append {a b c : Slot} {ms later : List Moment} (h : Orderly a ms b)
    (h' : Orderly b later c) : Orderly a (later ++ ms) c := by
  induction h' with
  | nil => exact h
  | cons _ hm ih => exact ih.cons hm

/-- An orderly stretch can be cut anywhere. -/
theorem split {a c : Slot} {later earlier : List Moment} (h : Orderly a (later ++ earlier) c) :
    ∃ b, Orderly a earlier b ∧ Orderly b later c := by
  induction later generalizing c with
  | nil => exact ⟨c, h, .nil⟩
  | cons m later ih =>
    cases h with
    | cons h hm =>
      obtain ⟨b, hb, hc⟩ := ih h
      exact ⟨b, hb, hc.cons hm⟩

/-- No cancellation is pending when a command begins. -/
theorem pending_of_started {a c : Slot} {ms : List Moment} (h : Orderly a ms c) {m : Moment}
    (hm : m ∈ ms) {owner : Value} {cmd : Command} (hs : m.mark = .started owner cmd) :
    m.pending = none := by
  induction h with
  | nil => cases hm
  | cons _ ht ih =>
    rcases List.mem_cons.mp hm with rfl | hm
    · obtain ⟨hmark, hshows⟩ := ht
      rw [hs] at hmark
      rw [hshows, hmark.2]
      rfl
    · exact ih hm

end Orderly

/-- The moment is that of a notice to the user. -/
def Moment.IsNotice (m : Moment) : Prop :=
  ∃ text, m.mark = .asked (.notify text)

namespace Orderly

/-- What can happen to a pending cancellation at one moment. -/
private theorem turns_pending {reason : String} {d : Nat} {m : Moment} {c : Slot}
    (h : m.Turns (some (reason, d)) c) :
    (c = some (reason, d) ∧ m.IsNotice) ∨ (m.mark = .consumed reason ∧ m.depth < d) := by
  obtain ⟨hm, -⟩ := h
  -- every mark but a notice and the taking up asks for an empty slot
  cases hk : m.mark with
  | consumed r =>
    rw [hk] at hm
    obtain ⟨⟨d', hd, hlt⟩, -⟩ := hm
    cases hd
    exact .inr ⟨rfl, hlt⟩
  | asked e =>
    rw [hk] at hm
    cases e with
    | notify text => exact .inl ⟨hm, text, hk⟩
    | _ => cases hm.1
  | _ => rw [hk] at hm; cases hm.1

/-- From a pending cancellation on there is nothing but notices until it is taken up, further out
than it was recorded. -/
theorem after_pending {reason : String} {d : Nat} {ms : List Moment} {c : Slot}
    (h : Orderly (some (reason, d)) ms c) :
    (c = some (reason, d) ∧ ∀ m ∈ ms, m.IsNotice) ∨
    ∃ rest taken notices, ms = rest ++ taken :: notices ∧ taken.mark = .consumed reason ∧
      taken.depth < d ∧ ∀ m ∈ notices, m.IsNotice := by
  -- once it is taken up, the rest of the stretch does not matter
  induction h with
  | nil => exact .inl ⟨rfl, List.forall_mem_nil _⟩
  | @cons b c m ms h hm ih =>
    rcases ih with ⟨rfl, hn⟩ | ⟨rest, taken, notices, rfl, ht⟩
    · rcases turns_pending hm with ⟨hc, hnotice⟩ | ⟨htaken, hlt⟩
      · exact .inl ⟨hc, List.forall_mem_cons.mpr ⟨hnotice, hn⟩⟩
      · exact .inr ⟨[], m, ms, rfl, htaken, hlt, hn⟩
    · exact .inr ⟨m :: rest, taken, notices, rfl, ht⟩

/-- A pending cancellation was recorded, and since then there was nothing but notices. -/
theorem before_pending {reason : String} {d : Nat} {ms : List Moment}
    (h : Orderly none ms (some (reason, d))) :
    ∃ notices found before, ms = notices ++ found :: before ∧
      (∃ c, found.mark = .recorded c reason) ∧ found.depth = d ∧ ∀ m ∈ notices, m.IsNotice := by
  generalize hc : some (reason, d) = c at h
  induction h with
  | nil => cases hc
  | @cons b c m ms h hm ih =>
    subst hc
    obtain ⟨hmark, -⟩ := hm
    cases hk : m.mark with
    | recorded c r =>
      rw [hk] at hmark
      obtain ⟨-, hr⟩ := hmark
      cases hr
      exact ⟨[], m, ms, rfl, ⟨c, hk⟩, rfl, List.forall_mem_nil _⟩
    | asked e =>
      rw [hk] at hmark
      cases e with
      | notify text =>
        obtain ⟨notices, found, before, rfl, hfound, hdepth, hn⟩ := ih hmark
        exact ⟨m :: notices, found, before, rfl, hfound, hdepth,
          List.forall_mem_cons.mpr ⟨⟨text, hk⟩, hn⟩⟩
      | _ => cases hmark.2
    | _ => rw [hk] at hmark; cases hmark.2

end Orderly

/-! ### Acts inside of a macro -/

/-- Nothing is pending in the end, and the stretch of the trail in between is orderly. -/
structure Session.Calm (s t : Session σ) : Prop where
  pending : t.pending = none
  depth : t.depth = s.depth
  trail : ∃ new, t.trail = new ++ s.trail ∧ Orderly none new none

namespace Session.Calm

variable {s t u : Session σ}

/-- A state that differs in other respects only. -/
theorem of_eq (hp : t.pending = none) (hd : t.depth = s.depth) (ht : t.trail = s.trail) :
    Calm s t :=
  ⟨hp, hd, [], ht, .nil⟩

theorem trans (h : Calm s t) (g : Calm t u) : Calm s u := by
  obtain ⟨-, hd, new, ht, ho⟩ := h
  obtain ⟨gp, gd, new', gt, go⟩ := g
  refine ⟨gp, gd.trans hd, new' ++ new, ?_, ho.append go⟩
  rw [gt, ht, List.append_assoc]

/-- A moment that has nothing to do with cancellations. -/
theorem remember (hp : s.pending = none) {m : Mark} (hm : m.Turns s.depth none none) :
    Calm s (s.remember m) :=
  ⟨hp, rfl, [s.moment m], rfl, Orderly.nil.cons ⟨hm, hp⟩⟩

/-- The shared variables can be cleared after another choice. -/
theorem afterwards (h : Calm s t) : Calm s (Call.afterwards t) := by
  have hcleared : Calm s { t with shared := [] } := h.trans (.of_eq h.pending rfl rfl)
  exact hcleared.trans
    (.remember (s := { t with shared := [] }) (m := .cleared) h.pending ⟨rfl, rfl⟩)

end Session.Calm

/-- An act inside of a macro leaves nothing pending, whether or not it fails. -/
def Act.Settles {α : Type} (a : Act σ α) : Prop :=
  ∀ s : Session σ, s.pending = none → Session.Calm s (a.runOn s).2

namespace Act

open Session (Calm)

theorem Settles.bind {α β : Type} {a : Act σ α} {f : α → Act σ β} (ha : Settles a)
    (hf : ∀ x, Settles (f x)) : Settles (a >>= f) := by
  intro s hp
  have hs := ha s hp
  rw [runOn_bind]
  generalize a.runOn s = run at hs ⊢
  obtain ⟨f | x, t⟩ := run
  · exact hs
  · exact hs.trans (hf x t hs.pending)

/-- A change of variables, or of the record of events, settles. -/
theorem settles_modify {g : Session σ → Session σ} (hp : ∀ s, (g s).pending = s.pending)
    (hd : ∀ s, (g s).depth = s.depth) (ht : ∀ s, (g s).trail = s.trail) :
    Settles (modify g : Act σ Unit) :=
  fun s h => .of_eq ((hp s).trans h) (hd s) (ht s)

theorem settles_remember {m : Mark} (hm : ∀ d, m.Turns d none none) :
    Settles (Act.remember m : Act σ Unit) :=
  fun s hp => .remember hp (hm s.depth)

/-- The means of a session settle. -/
theorem settles_law : Law (σ := σ) fun {α} => Settles (α := α) where
  pure _ := fun _ hp => .of_eq hp rfl rfl
  bind := Settles.bind
  get := fun _ hp => .of_eq hp rfl rfl
  fail _ := fun _ hp => .remember hp ⟨rfl, rfl⟩
  note _ := settles_modify (fun _ => rfl) (fun _ => rfl) fun _ => rfl
  changeFrame _ := settles_modify (fun _ => rfl) (fun _ => rfl) fun _ => rfl
  updateShared _ := settles_modify (fun _ => rfl) (fun _ => rfl) fun _ => rfl
  rescue := by
    intro α a carryOn ha hc s hp
    have hs := ha s hp
    rw [runOn_rescue]
    generalize a.runOn s = run at hs ⊢
    obtain ⟨f | x, t⟩ := run
    · rw [proceed_error]
      split
      · exact hs
      · -- a failure leaves nothing pending either, so a script can go on from there
        have hcaught := Calm.remember (m := .caught f) hs.pending ⟨rfl, rfl⟩
        exact (hs.trans hcaught).trans (hc f _ hcaught.pending)
    · exact hs

/-- Asking a discreet host settles. -/
theorem settles_ask {h : Host σ} (hd : h.Discreet) {α : Type} (e : Event) {a : Act σ α}
    (ha : h.Offers a) : Settles (ask e a) := by
  intro s hp
  have hask : Calm s (s.remember (.asked e)) := .remember hp (by cases e <;> simp [Mark.Turns])
  have hrun : Calm (s.remember (.asked e)) (a.runOn (s.remember (.asked e))).2 :=
    .of_eq ((hd.pending ha _).trans hask.pending) (hd.depth ha _) (hd.trail ha _)
  rw [runOn_ask]
  generalize a.runOn (s.remember (.asked e)) = run at hrun ⊢
  obtain ⟨f | x, t⟩ := run
  · exact (hask.trans hrun).trans (.remember (m := .failed f) hrun.pending ⟨rfl, rfl⟩)
  · exact hask.trans hrun

end Act

/-! ### Acts that run a choice -/

/-- How a choice ends that began with nothing pending: if it fails, then with a fault that is not a
cancellation and with nothing pending; if a cancellation is pending, then one from further in. -/
structure Session.Ends (outer : Nat) (s : Session σ) (run : Except Fault Unit × Session σ) :
    Prop where
  fault : ∀ f, run.1 = .error f → f.isCancelled = false ∧ run.2.pending = none
  depth : run.2.depth = s.depth
  trail : ∃ new slot, run.2.trail = new ++ s.trail ∧ Orderly none new slot ∧
    run.2.pending = slot.map Prod.fst ∧ ∀ reason d, slot = some (reason, d) → outer < d

namespace Session.Ends

variable {outer : Nat} {s t : Session σ} {run : Except Fault Unit × Session σ}

theorem of_calm (h : Calm s t) : Ends outer s (.ok (), t) := by
  obtain ⟨hp, hd, new, ht, ho⟩ := h
  exact ⟨nofun, hd, new, none, ht, ho, hp, nofun⟩

theorem of_fault (h : Calm s t) {f : Fault} (hf : f.isCancelled = false) :
    Ends outer s (.error f, t) := by
  obtain ⟨hp, hd, new, ht, ho⟩ := h
  refine ⟨?_, hd, new, none, ht, ho, hp, nofun⟩
  rintro _ ⟨⟩
  exact ⟨hf, hp⟩

/-- What a choice does may begin with an act that settles. -/
theorem after (h : Calm s t) (g : Ends outer t run) : Ends outer s run := by
  obtain ⟨-, hd, new, ht, ho⟩ := h
  obtain ⟨gf, gd, new', slot, gt, go, gp⟩ := g
  refine ⟨gf, gd.trans hd, new' ++ new, slot, ?_, ho.append go, gp⟩
  rw [gt, ht, List.append_assoc]

theorem mono {outer' : Nat} (h : Ends outer s run) (ho : outer' ≤ outer) : Ends outer' s run := by
  obtain ⟨hf, hd, new, slot, ht, hord, hp, hdeep⟩ := h
  exact ⟨hf, hd, new, slot, ht, hord, hp, fun reason d hs => ho.trans_lt (hdeep reason d hs)⟩

/-- The cancellation of a choice can be recorded in the choice itself. -/
theorem deeper {c : Choice} {r : Except Fault Unit} (h : Ends s.depth (s.enter c) (r, t)) :
    Ends s.depth s (r, s.leave t) := by
  obtain ⟨hf, hd, trail⟩ := h
  exact ⟨hf, congrArg (· - 1) hd, trail⟩

/-- A choice after which nothing is pending has settled. -/
theorem calm (h : Ends outer s run) (hp : run.2.pending = none) : Calm s run.2 := by
  obtain ⟨-, hd, new, slot, ht, ho, hslot, -⟩ := h
  rw [hp] at hslot
  rw [Option.map_eq_none_iff.mp hslot.symm] at ho
  exact ⟨hp, hd, new, ht, ho⟩

/-- Once the cancellation of a choice is taken up where the choice was run, all is settled. -/
theorem consume {reason : String} (h : Ends s.depth s run) (hp : run.2.pending = some reason) :
    Calm s ({ run.2 with pending := none }.remember (.consumed reason)) := by
  obtain ⟨-, hd, new, slot, ht, ho, hslot, hdeep⟩ := h
  rw [hp] at hslot
  obtain ⟨⟨r, d⟩, rfl, rfl⟩ := Option.map_eq_some_iff.mp hslot.symm
  -- the session is back at the depth of whoever ran the choice
  let u := { run.2 with pending := none }
  have hlt : u.depth < d := hd ▸ hdeep r d rfl
  refine ⟨rfl, hd, u.moment (.consumed r) :: new, ?_, ho.cons ⟨⟨⟨d, rfl, hlt⟩, rfl⟩, rfl⟩⟩
  rw [remember_trail, ht]
  rfl

end Session.Ends

open Session (Calm Ends)

variable {host : Host σ} {outer : Nat} {s : Session σ}

/-- A pending cancellation of the choice itself, with nothing but notices after the record. -/
private theorem ends_of_recorded {t : Session σ} {c : Choice} {reason : String}
    (ho : s.depth = outer + 1) (notices : List Moment) (htrail : t.trail = notices ++
      { s with pending := some reason }.moment (.recorded c reason) :: s.trail)
    (hp : t.pending = some reason) (hd : t.depth = s.depth)
    (hn : ∀ m ∈ notices, m.IsNotice ∧ m.pending = some reason) : Ends outer s (.ok (), t) := by
  have hrecord : Orderly none [{ s with pending := some reason }.moment (.recorded c reason)]
      (some (reason, s.depth)) :=
    Orderly.nil.cons ⟨⟨rfl, rfl⟩, rfl⟩
  have hnotices : Orderly (some (reason, s.depth)) notices (some (reason, s.depth)) := by
    clear htrail
    induction notices with
    | nil => exact .nil
    | cons m ms ih =>
      obtain ⟨⟨⟨text, hmark⟩, hpend⟩, hrest⟩ := List.forall_mem_cons.mp hn
      exact (ih hrest).cons ⟨by rw [hmark]; rfl, hpend⟩
  refine ⟨nofun, hd, notices ++ [_], _, ?_, hrecord.append hnotices, hp, ?_⟩
  · rw [htrail, List.append_assoc]
    rfl
  · rintro _ _ ⟨⟩
    omega

/-- The end of a cancelled choice. Only the notice to the user can follow the record. -/
theorem Act.recordCancellation_ends (hd : host.Discreet) (hs : host.Steady) (c : Choice)
    (preset reason : String) (ho : s.depth = outer + 1) :
    Ends outer s ((Act.recordCancellation host c preset reason).runOn s) := by
  -- inside of another choice, or by its settings, the user is not told
  rcases Act.runOn_recordCancellation_cases host c preset reason s with hrun | ⟨-, text, hrun⟩
  · rw [hrun]
    exact ends_of_recorded ho [] rfl rfl rfl (List.forall_mem_nil _)
  · let u := ({ s with pending := some reason }.remember (.recorded c reason)).remember
      (.asked (.notify text))
    obtain ⟨t, ht⟩ := hs.notify text u
    have hp := hd.pending (.notify text) u
    have hdepth := hd.depth (.notify text) u
    have htrail := hd.trail (.notify text) u
    rw [ht] at hp hdepth htrail
    rw [hrun, Act.runOn_ask, ht]
    refine ends_of_recorded ho [u.moment _] htrail hp hdepth ?_
    exact List.forall_mem_singleton.mpr ⟨⟨text, rfl⟩, rfl⟩

namespace Choice

/-- A template or a capture: an act that settles, and then perhaps its cancellation. -/
theorem delegate_ends (hd : host.Discreet) (hs : host.Steady) (c : Choice) {act : Act σ Unit}
    (ha : act.Settles) (hp : s.pending = none) (ho : s.depth = outer + 1) :
    Ends outer s ((delegate host c act).runOn s) := by
  have hrun := ha s hp
  rw [runOn_delegate]
  generalize act.runOn s = run at hrun ⊢
  obtain ⟨f | x, t⟩ := run
  · cases f with
    | cancelled reason =>
      exact .after hrun (Act.recordCancellation_ends hd hs c _ _ (hrun.depth.trans ho))
    | _ => exact .of_fault hrun rfl
  · exact .of_calm hrun

/-- A macro: the cancellation that fails its commands becomes pending when the macro ends. -/
theorem runMacro_ends (hd : host.Discreet) (hs : host.Steady) {execute : Placed → Act σ Unit}
    (c : Choice) {body : Option Macro}
    (hbody : (Running.runBody ⟨host, execute, c.name⟩ body).Settles)
    (hp : s.pending = none) (ho : s.depth = outer + 1) :
    Ends outer s ((runMacro host execute c body).runOn s) := by
  -- the macro runs on a frame of its own, which no part of `Calm` looks at
  have hrun := hbody { s with frame := Entries.update [] s.shared } hp
  rw [runOn_runMacro, Act.runOn_inFrame]
  generalize (Running.runBody ⟨host, execute, c.name⟩ body).runOn
    { s with frame := Entries.update [] s.shared } = run at hrun ⊢
  obtain ⟨f | x, t⟩ := run
  · have hframe : Calm s { t with frame := s.frame } := ⟨hrun.pending, hrun.depth, hrun.trail⟩
    cases f with
    | cancelled reason =>
      exact .after hframe (Act.recordCancellation_ends hd hs c _ _ (hframe.depth.trans ho))
    | _ => exact .of_fault hframe rfl
  · exact .of_calm ⟨hrun.pending, hrun.depth, hrun.trail⟩

end Choice

/-- Going through menus settles, and a steady host lets it come to an end. -/
theorem Menu.navigate_settles (hd : host.Discreet) (hs : host.Steady) (fuel : Nat) (m : Menu)
    (hp : s.pending = none) :
    ∃ r t, (m.navigate host fuel).runOn s = (.ok r, t) ∧ Calm s t := by
  induction fuel generalizing m s with
  | zero => exact ⟨none, s, rfl, .of_eq hp rfl rfl⟩
  | succ fuel ih =>
    let a := Act.ask (.suggest m.labels m.placeholder)
      (host.suggest m.labels m.labels.length m.placeholder)
    obtain ⟨position, t, hrun⟩ : ∃ position t, a.runOn s = (.ok position, t) := by
      obtain ⟨position, t, ht⟩ := hs.suggest m.labels m.labels.length m.placeholder
        (s.remember (.asked (.suggest m.labels m.placeholder)))
      exact ⟨position, t, by rw [Act.runOn_ask, ht, Act.proceed_ok]⟩
    have hcalm : Calm s t := by
      have := Act.settles_ask hd (.suggest m.labels m.placeholder)
        (.suggest m.labels m.labels.length m.placeholder) s hp
      rwa [show (a.runOn s).2 = t by rw [hrun]] at this
    rw [navigate, offer, Act.runOn_bind_ok hrun]
    split
    · exact ⟨none, t, rfl, hcalm⟩
    · exact ⟨some _, t, rfl, hcalm⟩
    · next inner _ =>
      obtain ⟨r, u, hu, hcalm'⟩ := ih inner hcalm.pending
      exact ⟨r, u, hu, hcalm.trans hcalm'⟩

/-- A menu, given how the choice ends that the user selects. -/
theorem Choice.runMenu_ends (hd : host.Discreet) (hs : host.Steady)
    {execute : Placed → Act σ Unit}
    (hexec : ∀ (p : Placed) (s : Session σ), s.pending = none →
      Ends s.depth s ((execute p).runOn s))
    (p : Placed) (choices : List Choice) (hp : s.pending = none) (ho : s.depth = outer + 1) :
    Ends outer s ((runMenu host (Menu.browse host) execute p choices).runOn s) := by
  by_cases hempty : choices.isEmpty
  · rw [runMenu, if_pos hempty]
    exact .of_calm (.of_eq hp rfl rfl)
  · let m : Menu := ⟨choices, (Placed.list? s.document p).toList, p.choice.name⟩
    obtain ⟨r, t, hrun, hcalm⟩ : ∃ r t, (m.browse host).runOn s = (.ok r, t) ∧ Calm s t := by
      rw [Menu.browse, Act.runOn_get_bind]
      exact Menu.navigate_settles hd hs _ m hp
    rw [runOn_runMenu hempty, Act.runOn_bind_ok hrun]
    have hdepth := hcalm.depth
    cases r with
    | none => exact .after hcalm (Act.recordCancellation_ends hd hs _ _ _ (hdepth.trans ho))
    | some c => exact .after hcalm ((hexec ⟨c, none⟩ t hcalm.pending).mono (by omega))

/-! ### Choices inside of macros -/

/-- A command whose body settles. -/
private theorem Running.step_settles {α : Type} (r : Running σ) (c : Command)
    (target : Option Placed) {body : Act σ α} (hbody : body.Settles) :
    (r.step c target body).Settles :=
  Act.settles_law.congruence.step (b := body) r r rfl c target
    (Act.settles_remember fun _ => ⟨rfl, rfl⟩)
    (Act.settles_modify (fun _ => rfl) (fun _ => rfl) fun _ => rfl)
    (Act.settles_remember fun _ => ⟨rfl, rfl⟩) hbody

section

variable {execute : Placed → Act σ Unit}
  (hexec : ∀ (p : Placed) (s : Session σ), s.pending = none → Ends s.depth s ((execute p).runOn s))

include hexec

/-- A choice that a script runs: the script takes up the cancellation. -/
theorem Call.enter_settles (p : Placed) : (Call.enter execute p).Settles := by
  intro s hp
  have hlent : Calm s (s.remember .lent) := .remember (m := .lent) hp ⟨rfl, rfl⟩
  have hrun := hexec p (s.remember .lent) hp
  cases h : (execute p).runOn (s.remember .lent) with
  | mk result t =>
    rw [h] at hrun
    cases result with
    | error f =>
      rw [runOn_enter_error h]
      exact hlent.trans (hrun.calm (hrun.fault f rfl).2)
    | ok _ =>
      cases ht : t.pending with
      | none =>
        rw [runOn_enter_ok h ht]
        exact (hlent.trans (hrun.calm ht)).afterwards
      | some reason =>
        rw [runOn_enter_cancelled h ht]
        exact (hlent.trans (hrun.consume ht)).afterwards

/-- A choice that a command runs: the command takes up the cancellation. -/
theorem Running.enter_settles (name : Value) (p : Placed) :
    (Running.enter ⟨host, execute, name⟩ p).Settles := by
  intro s hp
  have hrun := hexec p s hp
  rw [Running.enter, Act.runOn_bind]
  generalize (execute p).runOn s = run at hrun ⊢
  obtain ⟨f | _, t⟩ := run
  · exact hrun.calm (hrun.fault f rfl).2
  · rw [Act.proceed_ok]
    cases ht : t.pending with
    | none =>
      rw [Act.runOn_bind_ok (Act.runOn_raisePending_none ht)]
      exact (hrun.calm ht).trans (Act.settles_law.congruence.pullFrame t ht)
    | some reason =>
      rw [Act.runOn_bind_error (Act.runOn_raisePending_some ht)]
      exact hrun.consume ht

/-- Everything inside of a macro settles, given how the choices end that it runs. -/
theorem Discipline.settles (hd : host.Discreet) :
    Discipline host execute fun {α} => Act.Settles (α := α) where
  toLaw := Act.settles_law
  ask e _ ha _ := Act.settles_ask hd e ha
  enterChoice := Call.enter_settles hexec
  step _ c _ ha := Running.step_settles _ c none ha
  enter name c p := Running.step_settles _ c (some p)
    ((Running.enter_settles hexec name p).bind fun _ => Act.settles_law.pure _)

end

/-! ### All choices -/

/-- A choice at the nesting limit. -/
private theorem Choice.refuse_ends (p : Placed) (hp : s.pending = none) :
    Ends outer s ((refuse p).runOn s) :=
  .of_fault (.remember (m := .failed _) hp ⟨rfl, rfl⟩) rfl

/-- Every run of a choice that begins with nothing pending ends as it should, however many levels
are left. -/
theorem Choice.executeAt_ends (hd : host.Discreet) (hs : host.Steady) (levels : Nat) (p : Placed)
    (hp : s.pending = none) : Ends s.depth s ((executeAt host levels p).runOn s) := by
  -- a macro runs choices of the next level, and how those end is all that its discipline needs
  induction levels generalizing p s with
  | zero => exact refuse_ends p hp
  | succ levels ih =>
    have hcalled : Calm s (s.remember (.called p.choice)) := .remember hp ⟨rfl, rfl⟩
    rw [executeAt, executeOnce, Act.runOn_remember_bind, Act.runOn_get_bind]
    refine .after hcalled ?_
    split
    · exact refuse_ends p hp
    · rw [Act.runOn_deeper]
      let called := s.remember (.called p.choice)
      refine Ends.deeper (s := called) (c := p.choice) ?_
      let inner := called.enter p.choice
      have hentered : Calm inner (inner.remember (.entered p.choice)) :=
        .remember (s := inner) (m := .entered p.choice) hp ⟨rfl, rfl⟩
      rw [Act.runOn_remember_bind]
      refine .after hentered ?_
      rw [perform]
      split
      · exact delegate_ends hd hs _ (Act.settles_law.get.bind fun _ =>
          Act.settles_ask hd _ (.runTemplate _ _)) hp rfl
      · exact delegate_ends hd hs _ (Act.settles_law.get.bind fun _ =>
          Act.settles_ask hd _ (.runCapture _ _)) hp rfl
      · exact runMacro_ends hd hs _
          ((Discipline.settles (fun p s hp => ih p hp) hd).comparison.runBody _ _) hp rfl
      · exact runMenu_ends hd hs (fun p s hp => ih p hp) p _ hp rfl

/-! ### Every cancellation is accounted for -/

/-- What a new stretch of a trail, latest moment first, says about cancellations. `pending` is the
cancellation that is pending at the end. -/
structure Accounted (new : List Moment) (pending : Option String) : Prop where
  /-- Nothing is pending when a command begins. -/
  started : ∀ m ∈ new, ∀ owner c, m.mark = .started owner c → m.pending = none
  /-- What is recorded is the next thing to be taken up, further out, or still pending. -/
  recorded : ∀ later m earlier c reason, new = later ++ m :: earlier →
    m.mark = .recorded c reason →
    (pending = some reason ∧ ∀ n ∈ later, n.IsNotice) ∨
    ∃ rest taken notices, later = rest ++ taken :: notices ∧ taken.mark = .consumed reason ∧
      taken.depth < m.depth ∧ ∀ n ∈ notices, n.IsNotice
  /-- What is taken up is the last thing that was recorded. -/
  consumed : ∀ later m earlier reason, new = later ++ m :: earlier →
    m.mark = .consumed reason →
    ∃ notices found before, earlier = notices ++ found :: before ∧
      (∃ c, found.mark = .recorded c reason) ∧ m.depth < found.depth ∧ ∀ n ∈ notices, n.IsNotice
  /-- What is pending is the last thing that was recorded. -/
  pending : ∀ reason, pending = some reason →
    ∃ notices found before, new = notices ++ found :: before ∧
      (∃ c, found.mark = .recorded c reason) ∧ ∀ n ∈ notices, n.IsNotice

/-- An orderly trail accounts for every cancellation. -/
theorem Orderly.accounted {new : List Moment} {slot : Slot} (h : Orderly none new slot) :
    Accounted new (slot.map Prod.fst) where
  started _ hm _ _ hs := h.pending_of_started hm hs
  recorded := by
    rintro later m earlier c reason rfl hm
    -- cut the stretch at the record; what is pending from there on is just this cancellation
    obtain ⟨b, hb, hlater⟩ := h.split
    cases hb with
    | cons _ hturn =>
      obtain ⟨hmark, -⟩ := hturn
      rw [hm] at hmark
      obtain ⟨-, rfl⟩ := hmark
      rcases hlater.after_pending with ⟨rfl, hn⟩ | hrest
      · exact .inl ⟨rfl, hn⟩
      · exact .inr hrest
  consumed := by
    rintro later m earlier reason rfl hm
    obtain ⟨b, hb, -⟩ := h.split
    cases hb with
    | cons hearlier hturn =>
      obtain ⟨hmark, -⟩ := hturn
      rw [hm] at hmark
      obtain ⟨⟨d, rfl, hlt⟩, -⟩ := hmark
      obtain ⟨notices, found, before, he, hfound, rfl, hn⟩ := hearlier.before_pending
      exact ⟨notices, found, before, he, hfound, hlt, hn⟩
  pending := by
    intro reason hp
    obtain ⟨⟨r, d⟩, rfl, rfl⟩ := Option.map_eq_some_iff.mp hp
    obtain ⟨notices, found, before, he, hfound, -, hn⟩ := h.before_pending
    exact ⟨notices, found, before, he, hfound, hn⟩

/-- **No cancellation gets lost or picked up late.** A choice that begins with nothing pending fails
only with faults that are not cancellations, and leaves nothing pending then. No command at any
depth begins while a cancellation is pending. Each recorded cancellation is taken up once: by what
ran the cancelled choice, before anything else happens, or after the whole run. -/
theorem Choice.execute_accounted (hd : host.Discreet) (hs : host.Steady) (p : Placed)
    (s : Session σ) (hp : s.pending = none) :
    (∀ f, ((execute host p).runOn s).1 = .error f →
      f.isCancelled = false ∧ ((execute host p).runOn s).2.pending = none) ∧
    ∃ new, ((execute host p).runOn s).2.trail = new ++ s.trail ∧
      Accounted new ((execute host p).runOn s).2.pending := by
  rw [execute, Act.runOn_get_bind]
  obtain ⟨hfault, -, new, slot, htrail, horder, hslot, -⟩ :=
    executeAt_ends hd hs (s.config.maxDepth - s.depth + 1) p hp
  exact ⟨hfault, new, htrail, hslot ▸ horder.accounted⟩

/-- The run of a macro whose first command is cancelled. -/
theorem Choice.execute_accounted_interrupted :
    let run := (execute Rehearsal.host Rehearsal.interrupted).runOn Rehearsal.fresh
    (∀ f, run.1 = .error f → f.isCancelled = false ∧ run.2.pending = none) ∧
    ∃ new, run.2.trail = new ++ [] ∧ Accounted new run.2.pending :=
  execute_accounted Rehearsal.host_discreet Rehearsal.host_steady Rehearsal.interrupted
    Rehearsal.fresh rfl

end Choicebook
