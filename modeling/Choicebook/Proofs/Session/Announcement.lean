import Mathlib
import Choicebook.Proofs.Session.Cancellation
import Choicebook.Proofs.Session.Failure
import Choicebook.Proofs.Session.Runs
import Choicebook.Proofs.Session.Surroundings

/-!
# What the user is told

When a choice is cancelled, the user is told once, by the outermost of the choices that are running.
All others leave it to the macro or the script that runs them to pass the cancellation on. What is
run from depth 1 on tells the user nothing, then (`Choice.executeAt_silent`), and a run tells
what its outermost choice does.

There is one kind of choice that does not pass a cancellation on. A menu runs what the user picks,
and neither looks at what is pending afterwards nor tells anyone. So `Runner.run_announces` has two
cases: a run that is aborted is announced once, with its reason, unless it is the user who gave up
and the settings ask for silence; but a run that is aborted in a choice picked from the outermost
menu is not announced at all. The rehearsal at the end is such a run.
-/

namespace Choicebook

variable {σ : Type}

/-! ### Notices -/

namespace Mark

/-- The text of a notice to the user. -/
def notice? : Mark → Option String
  | .asked (.notify text) => some text
  | _ => none

/-- A choice is called. -/
def IsCall (m : Mark) : Prop :=
  ∃ c, m = .called c

end Mark

/-- What the user is told in a stretch of a trail, the latest text first. -/
def notices (new : List Moment) : List String :=
  new.filterMap (·.mark.notice?)

theorem notices_append (later earlier : List Moment) :
    notices (later ++ earlier) = notices later ++ notices earlier :=
  List.filterMap_append

/-- A stretch without notices tells the user nothing. -/
theorem notices_eq_nil {new : List Moment} (h : ∀ m ∈ new, ¬m.mark.notice? ≠ none) :
    notices new = [] :=
  List.filterMap_eq_nil_iff.mpr fun m hm => not_not.mp (h m hm)

namespace Choice

/-- What takes the place of a blank reason in a notice. -/
def presetReason (c : Choice) : String :=
  match c with
  | template .. | capture .. => c.kind ++ " execution aborted"
  | ofMacro .. => Fault.defaultReason
  | multi .. => "Choice selection aborted"

/-- What is to be told about a choice that is cancelled. -/
def announcement (config : Config) (c : Choice) (reason : String) : List String :=
  if isUserCancellation reason = true ∧ config.announceCancellation.isTruthy = false then []
  else [c.kind ++ " '" ++ c.name.display ++ "'" ++ ": " ++
    (if (Text.trim reason).isEmpty then c.presetReason else Text.trim reason)]

theorem announcement_eq (config : Config) (c : Choice) (reason : String) :
    c.announcement config reason = (cancellationNotice config
      (c.kind ++ " '" ++ c.name.display ++ "'") c.presetReason reason).toList := by
  rw [announcement, cancellationNotice]
  cases isUserCancellation reason <;> cases config.announceCancellation.isTruthy <;> simp

end Choice

/-! ### Acts without marks of a kind -/

/-- The state is at the depth of before and has the same settings, and no mark in between is of the
kind `bad`. -/
structure Session.Without (bad : Mark → Prop) (s t : Session σ) : Prop where
  depth : t.depth = s.depth
  config : t.config = s.config
  trail : ∃ new, t.trail = new ++ s.trail ∧ ∀ m ∈ new, ¬bad m.mark

namespace Session.Without

variable {bad : Mark → Prop} {s t u : Session σ}

theorem of_eq (hd : t.depth = s.depth) (hc : t.config = s.config) (ht : t.trail = s.trail) :
    Without bad s t :=
  ⟨hd, hc, [], ht, List.forall_mem_nil _⟩

theorem trans (h : Without bad s t) (g : Without bad t u) : Without bad s u := by
  obtain ⟨hd, hc, new, ht, hnew⟩ := h
  obtain ⟨gd, gc, new', gt, gnew⟩ := g
  refine ⟨gd.trans hd, gc.trans hc, new' ++ new, by rw [gt, ht, List.append_assoc], ?_⟩
  intro m hm
  rcases List.mem_append.mp hm with hm | hm
  · exact gnew m hm
  · exact hnew m hm

theorem remember {m : Mark} (hm : ¬bad m) : Without bad s (s.remember m) :=
  ⟨rfl, rfl, [s.moment m], rfl, List.forall_mem_singleton.mpr hm⟩

end Session.Without

/-- An act without marks of a kind, from a depth on. -/
def Act.Avoids (bad : Mark → Prop) (outer : Nat) {α : Type} (a : Act σ α) : Prop :=
  ∀ s : Session σ, outer ≤ s.depth → Session.Without bad s (a.runOn s).2

namespace Act

open Session (Without)

variable {bad : Mark → Prop} {outer : Nat} {α β : Type}

theorem Avoids.mono {a : Act σ α} {inner : Nat} (h : Avoids bad outer a) (hi : outer ≤ inner) :
    Avoids bad inner a :=
  fun s hs => h s (hi.trans hs)

theorem Avoids.bind {a : Act σ α} {f : α → Act σ β} (ha : Avoids bad outer a)
    (hf : ∀ x, Avoids bad outer (f x)) : Avoids bad outer (a >>= f) := by
  intro s hs
  refine runOn_bind_keeps (P := Without bad s) (ha s hs) fun x t ht => ?_
  exact ht.trans (hf x t (ht.depth ▸ hs))

theorem avoids_modify {g : Session σ → Session σ} (hd : ∀ s, (g s).depth = s.depth)
    (hc : ∀ s, (g s).config = s.config) (ht : ∀ s, (g s).trail = s.trail) :
    Avoids bad outer (modify g : Act σ Unit) :=
  fun s _ => .of_eq (hd s) (hc s) (ht s)

theorem avoids_remember {m : Mark} (hm : ¬bad m) :
    Avoids bad outer (Act.remember m : Act σ Unit) :=
  fun _ _ => .remember hm

theorem avoids_fail (hfailed : ∀ f, ¬bad (.failed f)) (f : Fault) :
    Avoids bad outer (Act.fail f : Act σ α) :=
  fun _ _ => .remember (hfailed f)

theorem Avoids.inFrame {a : Act σ α} (h : Avoids bad outer a) (vars : Entries) :
    Avoids bad outer (Act.inFrame vars a) := by
  intro s hs
  obtain ⟨hd, hc, ht⟩ := h { s with frame := Entries.update [] vars } hs
  rw [runOn_inFrame_snd]
  exact ⟨hd, hc, ht⟩

/-- Inside of a choice the session is one level deeper. -/
theorem Avoids.deeper {a : Act σ α} (h : Avoids bad (outer + 1) a) (c : Choice) :
    Avoids bad outer (Act.deeper c a) := by
  intro s hs
  obtain ⟨hd, hc, ht⟩ := h (s.enter c) (Nat.succ_le_succ hs)
  exact ⟨congrArg (· - 1) hd, hc, ht⟩

/-- Asking the host leaves no more marks than that, and another one if it fails. -/
theorem avoids_ask {host : Host σ} (ha : host.Aloof) (hfailed : ∀ f, ¬bad (.failed f)) {e : Event}
    (he : ¬bad (.asked e)) {a : Act σ α} (h : host.Offers a) : Avoids bad outer (ask e a) := by
  intro s _
  have hrun : Without bad (s.remember (.asked e)) (a.runOn (s.remember (.asked e))).2 :=
    .of_eq (ha.depth h _) (ha.config h _) (ha.trail h _)
  rw [runOn_ask]
  generalize a.runOn (s.remember (.asked e)) = run at hrun ⊢
  have hask : Without bad s run.2 := (Without.remember he).trans hrun
  obtain ⟨f | x, t⟩ := run
  · exact hask.trans (.remember (hfailed f))
  · exact hask

theorem avoids_compatible (hfailed : ∀ f, ¬bad (.failed f)) :
    Compatible (σ := σ) fun {α} (a _ : Act σ α) => Avoids bad outer a where
  pure _ := fun _ _ => .of_eq rfl rfl rfl
  bind := Avoids.bind
  look _ h := fun s hs => h s s hs
  fail _ := avoids_fail hfailed _
  note _ := avoids_modify (fun _ => rfl) (fun _ => rfl) fun _ => rfl
  updateShared _ := avoids_modify (fun _ => rfl) (fun _ => rfl) fun _ => rfl

/-- A menu neither tells the user anything nor calls a choice. -/
theorem browse_avoids {host : Host σ} (ha : host.Aloof) (m : Menu) :
    Avoids (fun mark => mark.notice? ≠ none ∨ mark.IsCall) outer (m.browse host) :=
  have hfailed : ∀ f, ¬((Mark.failed f).notice? ≠ none ∨ (Mark.failed f).IsCall) := by
    rintro f (h | ⟨_, ⟨⟩⟩)
    exact h rfl
  (avoids_compatible hfailed).browse
    (fun labels count placeholder => avoids_ask ha hfailed
      (by rintro (h | ⟨_, ⟨⟩⟩); exact h rfl) (.suggest labels count placeholder)) m

/-! ### Acts that tell the user nothing -/

/-- An act that tells the user nothing, from a depth on. -/
abbrev Silent (outer : Nat) {α : Type} (a : Act σ α) : Prop :=
  Avoids (fun mark => mark.notice? ≠ none) outer a

theorem silent_law : Law (σ := σ) fun {α} => Silent (α := α) outer where
  pure _ := fun _ _ => .of_eq rfl rfl rfl
  bind := Avoids.bind
  get := fun _ _ => .of_eq rfl rfl rfl
  fail := avoids_fail fun _ h => h rfl
  note _ := avoids_modify (fun _ => rfl) (fun _ => rfl) fun _ => rfl
  changeFrame _ := avoids_modify (fun _ => rfl) (fun _ => rfl) fun _ => rfl
  updateShared _ := avoids_modify (fun _ => rfl) (fun _ => rfl) fun _ => rfl
  rescue := by
    intro α a carryOn ha hc s hs
    have hrun := ha s hs
    rw [runOn_rescue]
    generalize a.runOn s = run at hrun ⊢
    obtain ⟨f | x, t⟩ := run
    · rw [proceed_error]
      split
      · exact hrun
      · refine (hrun.trans (.remember (m := .caught f) fun h => h rfl)).trans (hc f _ ?_)
        exact hrun.depth ▸ hs
    · exact hrun

theorem silent_signals : Signals (σ := σ) fun {α} (a _ : Act σ α) => Silent outer a where
  toRegular := silent_law.congruence.toRegular
  throw _ := fun _ _ => .of_eq rfl rfl rfl
  setPending _ := avoids_modify (fun _ => rfl) (fun _ => rfl) fun _ => rfl
  consumed _ := avoids_remember fun h => h rfl

theorem silent_ask {host : Host σ} (ha : host.Aloof) {e : Event} (he : e.isNotice = false)
    {a : Act σ α} (h : host.Offers a) : Silent outer (ask e a) :=
  avoids_ask ha (fun _ h => h rfl) (by cases e <;> first | exact fun h => h rfl | cases he) h

/-- A choice that is cancelled inside of another one does not tell. -/
theorem recordCancellation_silent {host : Host σ} (hi : 2 ≤ outer) (c : Choice)
    (preset reason : String) : Silent outer (recordCancellation host c preset reason) := by
  intro s hs
  rw [runOn_recordCancellation (hi.trans hs)]
  have hrecord : Without (fun mark => mark.notice? ≠ none) { s with pending := some reason }
      ({ s with pending := some reason }.remember (.recorded c reason)) :=
    .remember fun h => h rfl
  exact ⟨hrecord.depth, hrecord.config, hrecord.trail⟩

end Act

open Act (Silent)

variable {host : Host σ}

/-- A command whose body tells the user nothing. -/
private theorem Running.step_silent {outer : Nat} {α : Type} (r : Running σ) (c : Command)
    (target : Option Placed) {body : Act σ α} (h : Silent outer body) :
    Silent outer (r.step c target body) :=
  Act.silent_law.congruence.step (b := body) r r rfl c target
    (Act.avoids_remember fun h => h rfl)
    (Act.avoids_modify (fun _ => rfl) (fun _ => rfl) fun _ => rfl)
    (Act.avoids_remember fun h => h rfl) h

/-- Nothing inside of a macro tells the user anything, given that the choices do not that it
runs. -/
theorem Discipline.silent (ha : host.Aloof) {execute : Placed → Act σ Unit} {outer : Nat}
    (hexec : ∀ p, Silent outer (execute p)) :
    Discipline host execute fun {α} => Silent (α := α) outer where
  toLaw := Act.silent_law
  ask _ _ h he := Act.silent_ask ha he h
  enterChoice p := Act.silent_signals.enterChoice execute execute
    (Act.avoids_remember fun h => h rfl)
    (Act.avoids_modify (fun _ => rfl) (fun _ => rfl) fun _ => rfl)
    (Act.avoids_remember fun h => h rfl) (hexec p)
  step _ c _ h := Running.step_silent _ c none h
  enter _ c p := Running.step_silent _ c (some p)
    (((hexec p).bind fun _ => Act.silent_signals.raisePending.bind fun _ =>
      Act.silent_law.congruence.pullFrame).bind fun _ => Act.silent_law.pure _)

/-- Nor does what is around macros, inside of another choice. -/
theorem Act.silent_surroundings (ha : host.Aloof) {outer : Nat} (hi : 2 ≤ outer) :
    Surroundings host (fun {α} (a _ : Act σ α) => Silent outer a)
      fun {α} (a _ : Act σ α) => Silent outer a where
  toSignals := Act.silent_signals
  ask _ _ h he := Act.silent_ask ha he h.offers
  attempt h := fun s hs => by
    rw [Act.runOn_attempt_snd]
    exact h s hs
  inFrame vars _ _ h := h.inFrame vars
  recordCancellation := Act.recordCancellation_silent hi
  browse := Act.silent_law.compatible.browse fun _ _ _ => Act.silent_ask ha rfl (.suggest _ _ _)

namespace Choice

/-- What follows the call of a choice tells the user nothing, unless the choice is the outermost. -/
private theorem afterCall_silent (ha : host.Aloof) {execute : Placed → Act σ Unit}
    (hexec : ∀ p, Silent 1 (execute p)) (p : Placed) :
    Silent 1 (do
      let s ← get
      if s.config.maxDepth ≤ s.depth then refuse p
      else Act.deeper p.choice do
        Act.remember (.entered p.choice)
        perform host (Menu.browse host) execute p) :=
  -- what runs inside of the choice does so from depth 2 on, where no choice is the outermost
  have hinner : ∀ q, Silent 2 (execute q) := fun q => (hexec q).mono (Nat.le_succ 1)
  (Act.silent_surroundings ha (le_refl 2)).afterCall Act.silent_law.compatible
    (fun _ => Act.avoids_remember fun h => h rfl) (fun c _ h => h.deeper c)
    (Discipline.silent ha hinner).comparison hinner p

/-- **A choice inside of another one tells the user nothing.** -/
theorem executeAt_silent (ha : host.Aloof) (levels : Nat) (p : Placed) :
    Silent 1 (executeAt host levels p) := by
  induction levels generalizing p with
  | zero => exact Act.silent_signals.refuse p
  | succ levels ih =>
    exact (Act.avoids_remember fun h => h rfl).bind fun _ => afterCall_silent ha ih p

/-- The call of a choice is on the trail, unless no levels are left, and then the choice fails. -/
theorem executeAt_calls (ha : host.Aloof) (levels : Nat) (p : Placed) {s : Session σ}
    (hs : 1 ≤ s.depth) {u : Session σ} (h : (executeAt host levels p).runOn s = (.ok (), u)) :
    ∃ new, u.trail = new ++ s.moment (.called p.choice) :: s.trail ∧ notices new = [] := by
  cases levels with
  | zero => cases h
  | succ levels =>
    rw [executeAt, executeOnce, Act.runOn_remember_bind] at h
    obtain ⟨-, -, new, hu, hnew⟩ :=
      afterCall_silent ha (executeAt_silent ha levels) p (s.remember (.called p.choice)) hs
    rw [h] at hu
    exact ⟨new, hu, notices_eq_nil hnew⟩

end Choice

/-! ### The outermost choice -/

namespace Choice

/-- The choice is a menu of others. -/
def IsMenu (c : Choice) : Prop :=
  ∃ h cs collapsed, c = multi h cs collapsed

/-- From the outermost choice, a menu, another choice is picked and run. -/
def Picks (c : Choice) (new : List Moment) : Prop :=
  c.IsMenu ∧ ∃ m ∈ new, m.depth = 1 ∧ m.mark.IsCall

/-- What the user is told by the outermost choice, depending on how it ends and with which pending
cancellation. -/
inductive Tells (config : Config) (c : Choice) :
    Except Fault Unit → Option String → List Moment → Prop where
  | picked {r : Except Fault Unit} {pending : Option String} {new : List Moment}
    (hp : c.Picks new) (hn : notices new = []) : Tells config c r pending new
  | announced {reason : String} {new : List Moment} (hp : ¬c.Picks new)
    (hn : notices new = c.announcement config reason) : Tells config c (.ok ()) (some reason) new
  /-- There is nothing to be told. -/
  | nothing {r : Except Fault Unit} {pending : Option String} {new : List Moment}
    (hr : r = .ok () → pending = none) (hn : notices new = []) : Tells config c r pending new

theorem Picks.append_iff {c : Choice} {later new earlier : List Moment}
    (hl : ∀ m ∈ later, m.depth = 1 → ¬m.mark.IsCall)
    (he : ∀ m ∈ earlier, m.depth = 1 → ¬m.mark.IsCall) :
    c.Picks (later ++ new ++ earlier) ↔ c.Picks new := by
  refine and_congr_right fun _ => ⟨?_, ?_⟩
  · rintro ⟨m, hm, hdepth, hcall⟩
    rcases List.mem_append.mp hm with hm | hm
    · rcases List.mem_append.mp hm with hm | hm
      · exact absurd hcall (hl m hm hdepth)
      · exact ⟨m, hm, hdepth, hcall⟩
    · exact absurd hcall (he m hm hdepth)
  · rintro ⟨m, hm, h⟩
    exact ⟨m, List.mem_append_left _ (List.mem_append_right _ hm), h⟩

end Choice

theorem Session.Without.of_not_menu {s t : Session σ} {c : Choice}
    (h : Without (fun mark => mark.notice? ≠ none) s t) (hc : ¬c.IsMenu) :
    Without (fun mark => mark.notice? ≠ none ∨ c.IsMenu ∧ mark.IsCall) s t := by
  obtain ⟨hd, hconfig, new, ht, hnew⟩ := h
  exact ⟨hd, hconfig, new, ht, fun m hm h => h.elim (hnew m hm) fun h => hc h.1⟩

/-- The run of the outermost choice, from the state in which it begins. -/
def Session.Tells (s : Session σ) (c : Choice) (run : Except Fault Unit × Session σ) : Prop :=
  ∃ new, run.2.trail = new ++ s.trail ∧ c.Tells s.config run.1 run.2.pending new

open Session (Without)

variable {s t : Session σ}

/-- The end of the outermost choice when it is cancelled: the user is told, or is not to be told. -/
theorem Act.recordCancellation_told (hd : host.Discreet) (hs : host.Steady) (c : Choice)
    (reason : String) (hdepth : t.depth = 1) :
    ∃ u new, (Act.recordCancellation host c c.presetReason reason).runOn t = (.ok (), u) ∧
      u.pending = some reason ∧ u.trail = new ++ t.trail ∧
      notices new = c.announcement t.config reason ∧ ∀ m ∈ new, ¬m.mark.IsCall := by
  let v := { t with pending := some reason }
  have hnocall : ∀ m : Moment, m = v.moment (.recorded c reason) → ¬m.mark.IsCall := by
    rintro _ rfl ⟨_, ⟨⟩⟩
  rw [Act.recordCancellation, Act.runOn_modify_bind, Act.runOn_remember_bind, Act.runOn_get_bind,
    if_neg (by simp [hdepth]), Choice.announcement_eq]
  dsimp only
  split
  · next text htext =>
    let w := (v.remember (.recorded c reason)).remember (.asked (.notify text))
    obtain ⟨u, hu⟩ := hs.notify text w
    have hpending := hd.pending (.notify text) w
    have htrail := hd.trail (.notify text) w
    rw [hu] at hpending htrail
    refine ⟨u, [(v.remember (.recorded c reason)).moment (.asked (.notify text)),
      v.moment (.recorded c reason)], by rw [Act.runOn_ask, hu]; rfl, hpending, htrail, ?_, ?_⟩
    · rw [show cancellationNotice t.config _ c.presetReason reason = some text from htext]
      rfl
    · refine List.forall_mem_cons.mpr ⟨?_, List.forall_mem_singleton.mpr (hnocall _ rfl)⟩
      rintro ⟨_, ⟨⟩⟩
  · next htext =>
    refine ⟨_, [v.moment (.recorded c reason)], rfl, rfl, rfl, ?_,
      List.forall_mem_singleton.mpr (hnocall _ rfl)⟩
    rw [show cancellationNotice t.config _ c.presetReason reason = none from htext]
    rfl

namespace Choice

/-- The outermost choice is cancelled after a stretch in which the user was told nothing and no
choice was picked. -/
theorem recordCancellation_tells (hd : host.Discreet) (hs : host.Steady) {c : Choice}
    (reason : String) (hdepth : s.depth = 1)
    (h : Without (fun mark => mark.notice? ≠ none ∨ c.IsMenu ∧ mark.IsCall) s t) :
    s.Tells c ((Act.recordCancellation host c c.presetReason reason).runOn t) := by
  obtain ⟨htdepth, hconfig, new, ht, hnew⟩ := h
  obtain ⟨u, new', hrun, hpending, hu, hnotices, hcalls⟩ :=
    Act.recordCancellation_told hd hs c reason (htdepth.trans hdepth)
  rw [hrun]
  refine ⟨new' ++ new, by rw [hu, ht, List.append_assoc], ?_⟩
  rw [hpending]
  refine .announced ?_ ?_
  · rintro ⟨hmenu, m, hm, -, hcall⟩
    rcases List.mem_append.mp hm with hm | hm
    · exact hcalls m hm hcall
    · exact hnew m hm (.inr ⟨hmenu, hcall⟩)
  · rw [notices_append, hnotices, hconfig,
      notices_eq_nil fun m hm h => hnew m hm (.inl h), List.append_nil]

/-- A choice that is not cancelled tells the user nothing after a stretch in which nothing was
told. -/
theorem tells_nothing {c : Choice} {r : Except Fault Unit}
    (h : Without (fun mark => mark.notice? ≠ none) s t) (hr : r = .ok () → t.pending = none) :
    s.Tells c (r, t) := by
  obtain ⟨-, -, new, ht, hnew⟩ := h
  exact ⟨new, ht, .nothing hr (notices_eq_nil hnew)⟩

/-- A template or a capture. -/
theorem delegate_tells (hd : host.Discreet) (hs : host.Steady) {c : Choice} (hc : ¬c.IsMenu)
    (hpreset : c.presetReason = c.kind ++ " execution aborted") {act : Act σ Unit}
    (hsilent : Silent 1 act) (hsettles : act.Settles) (hp : s.pending = none)
    (hdepth : s.depth = 1) : s.Tells c ((delegate host c act).runOn s) := by
  have hrun := hsilent s hdepth.ge
  have hcalm := hsettles s hp
  rw [runOn_delegate, ← hpreset]
  generalize act.runOn s = run at hrun hcalm ⊢
  obtain ⟨f | x, t⟩ := run
  · cases f with
    | cancelled reason => exact recordCancellation_tells hd hs reason hdepth (hrun.of_not_menu hc)
    | _ => exact tells_nothing hrun (by rintro ⟨⟩)
  · exact tells_nothing hrun fun _ => hcalm.pending

/-- A macro. -/
theorem runMacro_tells (hd : host.Discreet) (hs : host.Steady) {execute : Placed → Act σ Unit}
    {h : ChoiceHead} {body : Option Macro}
    (hsilent : Silent 1 (Running.runBody ⟨host, execute, (ofMacro h body).name⟩ body))
    (hsettles : (Running.runBody ⟨host, execute, (ofMacro h body).name⟩ body).Settles)
    (hp : s.pending = none) (hdepth : s.depth = 1) :
    s.Tells (ofMacro h body) ((runMacro host execute (ofMacro h body) body).runOn s) := by
  have hrun := hsilent.inFrame s.shared s hdepth.ge
  have hcalm := hsettles { s with frame := Entries.update [] s.shared } hp
  rw [runOn_runMacro]
  dsimp only
  have hpending : ((Act.inFrame s.shared (Running.runBody
      ⟨host, execute, (ofMacro h body).name⟩ body)).runOn s).2.pending = none := by
    rw [Act.runOn_inFrame_snd]
    exact hcalm.pending
  generalize Act.runOn (Act.inFrame s.shared _) s = run at hrun hpending ⊢
  obtain ⟨f | ⟨x, frame⟩, t⟩ := run
  · cases f with
    | cancelled reason =>
      refine recordCancellation_tells hd hs reason hdepth (hrun.of_not_menu ?_)
      rintro ⟨_, _, _, ⟨⟩⟩
    | _ => exact tells_nothing hrun (by rintro ⟨⟩)
  · exact tells_nothing ⟨hrun.depth, hrun.config, hrun.trail⟩ fun _ => hpending

/-- A menu tells that the user gave up, and nothing of what follows a pick. -/
theorem runMenu_tells (hd : host.Discreet) (ha : host.Aloof) (hs : host.Steady) (levels : Nat)
    {p : Placed} {h : ChoiceHead} {choices : List Choice} {collapsed : Bool}
    (hc : p.choice = .multi h choices collapsed) (hp : s.pending = none) (hdepth : s.depth = 1) :
    s.Tells p.choice
      ((runMenu host (Menu.browse host) (executeAt host levels) p choices).runOn s) := by
  have hpreset : "Choice selection aborted" = p.choice.presetReason := by rw [hc]; rfl
  by_cases hempty : choices.isEmpty
  · rw [runMenu, if_pos hempty]
    exact ⟨[], rfl, .nothing (fun _ => hp) rfl⟩
  · let m : Menu := ⟨choices, (Placed.list? s.document p).toList, p.choice.name⟩
    obtain ⟨r, t, hrun, hcalm⟩ : ∃ r t, (m.browse host).runOn s = (.ok r, t) ∧
        Session.Calm s t := by
      rw [Menu.browse, Act.runOn_get_bind]
      exact Menu.navigate_settles hd hs _ m hp
    have hbrowse := Act.browse_avoids ha m s hdepth.ge
    rw [hrun] at hbrowse
    obtain ⟨htdepth, hconfig, new, ht, hnew⟩ := hbrowse
    rw [runOn_runMenu hempty, Act.runOn_bind_ok hrun, hpreset]
    cases r with
    | none =>
      refine recordCancellation_tells hd hs _ hdepth ⟨htdepth, hconfig, new, ht, fun m hm => ?_⟩
      exact fun h => hnew m hm (h.imp_right And.right)
    | some c =>
      have htdepth : t.depth = 1 := htdepth.trans hdepth
      have hnew : notices new = [] := notices_eq_nil fun m hm h => hnew m hm (.inl h)
      dsimp only
      cases hexec : (executeAt host levels ⟨c, none⟩).runOn t with
      | mk result u =>
        cases result with
        | error f =>
          obtain ⟨-, -, new', hu, hnew'⟩ := executeAt_silent ha levels ⟨c, none⟩ t htdepth.ge
          rw [hexec] at hu
          refine ⟨new' ++ new, by rw [hu, ht, List.append_assoc], .nothing (by rintro ⟨⟩) ?_⟩
          rw [notices_append, notices_eq_nil hnew', hnew, List.append_nil]
        | ok _ =>
          -- the call of what was picked is on the trail, and nothing is told from then on
          obtain ⟨new', hu, hnew'⟩ := executeAt_calls ha levels ⟨c, none⟩ htdepth.ge hexec
          refine ⟨new' ++ t.moment (.called c) :: new, ?_, .picked ⟨⟨_, _, _, hc⟩, _,
            List.mem_append_right _ List.mem_cons_self, htdepth, c, rfl⟩ ?_⟩
          · rw [hu, ht, List.append_assoc]
            rfl
          · rw [notices_append, hnew', List.nil_append]
            exact hnew

/-- Whatever kind of choice the outermost one is. -/
theorem perform_tells (hd : host.Discreet) (ha : host.Aloof) (hs : host.Steady) (levels : Nat)
    (p : Placed) (hp : s.pending = none) (hdepth : s.depth = 1) :
    s.Tells p.choice
      ((perform host (Menu.browse host) (executeAt host levels) p).runOn s) := by
  obtain ⟨c, place⟩ := p
  cases c with
  | template h payload =>
    exact delegate_tells hd hs (by rintro ⟨_, _, _, ⟨⟩⟩) rfl
      (Act.silent_law.get.bind fun _ => Act.silent_ask ha rfl (.runTemplate h payload))
      (Act.settles_law.get.bind fun _ => Act.settles_ask hd _ (.runTemplate h payload)) hp hdepth
  | capture h payload =>
    exact delegate_tells hd hs (by rintro ⟨_, _, _, ⟨⟩⟩) rfl
      (Act.silent_law.get.bind fun _ => Act.silent_ask ha rfl (.runCapture h payload))
      (Act.settles_law.get.bind fun _ => Act.settles_ask hd _ (.runCapture h payload)) hp hdepth
  | ofMacro h body =>
    have hsilent := (Discipline.silent ha (executeAt_silent ha levels)).comparison.runBody
      (ofMacro h body).name body
    have hsettles := (Discipline.settles (fun p s hp => executeAt_ends hd hs levels p hp)
      hd).comparison.runBody (ofMacro h body).name body
    exact runMacro_tells hd hs hsilent hsettles hp hdepth
  | multi h choices collapsed =>
    exact runMenu_tells hd ha hs levels rfl hp hdepth

/-- Nothing is told of a choice that fails, or that leaves no cancellation. -/
theorem Tells.unannounced {config : Config} {c : Choice} {r : Except Fault Unit}
    {pending : Option String} {new : List Moment} (h : c.Tells config r pending new)
    (hr : r ≠ .ok () ∨ pending = none) : notices new = [] := by
  cases h with
  | picked _ hn => exact hn
  | announced =>
    rcases hr with hr | hr
    · exact absurd rfl hr
    · cases hr
  | nothing _ hn => exact hn

/-- The moments around the run of the outermost choice do not matter for what is told. -/
theorem Tells.around {config : Config} {c : Choice} {r : Except Fault Unit}
    {pending : Option String} {later new earlier : List Moment}
    (h : c.Tells config r pending new)
    (hl : ∀ m ∈ later, m.mark.notice? = none ∧ (m.depth = 1 → ¬m.mark.IsCall))
    (he : ∀ m ∈ earlier, m.mark.notice? = none ∧ (m.depth = 1 → ¬m.mark.IsCall)) :
    c.Tells config r pending (later ++ new ++ earlier) := by
  have hpicks : c.Picks (later ++ new ++ earlier) ↔ c.Picks new :=
    Picks.append_iff (fun m hm => (hl m hm).2) fun m hm => (he m hm).2
  have hnotices : notices (later ++ new ++ earlier) = notices new := by
    rw [notices_append, notices_append, notices_eq_nil fun m hm h => h (hl m hm).1,
      notices_eq_nil fun m hm h => h (he m hm).1, List.nil_append, List.append_nil]
  cases h with
  | picked hp hn => exact .picked (hpicks.mpr hp) (hnotices.trans hn)
  | announced hp hn => exact .announced (fun h => hp (hpicks.mp h)) (hnotices.trans hn)
  | nothing hr hn => exact .nothing hr (hnotices.trans hn)

/-- The outermost choice, with its call. -/
theorem execute_tells (hd : host.Discreet) (ha : host.Aloof) (hs : host.Steady) (p : Placed)
    (hp : s.pending = none) (hdepth : s.depth = 0) :
    s.Tells p.choice ((execute host p).runOn s) := by
  let called := s.remember (.called p.choice)
  rw [execute, Act.runOn_get_bind, executeAt]
  have hcall : (s.moment (.called p.choice)).mark.notice? = none ∧
      ((s.moment (.called p.choice)).depth = 1 →
        ¬(s.moment (.called p.choice)).mark.IsCall) :=
    ⟨rfl, fun h => absurd (hdepth.symm.trans h) (by decide)⟩
  by_cases hlimit : s.config.maxDepth ≤ s.depth
  · rw [runOn_executeOnce_refused hlimit]
    exact ⟨[called.moment (.failed _), s.moment (.called p.choice)], rfl,
      .nothing (by rintro ⟨⟩) rfl⟩
  · let inner := called.enter p.choice
    have hentered : (inner.moment (.entered p.choice)).mark.notice? = none ∧
        ((inner.moment (.entered p.choice)).depth = 1 →
          ¬(inner.moment (.entered p.choice)).mark.IsCall) :=
      ⟨rfl, fun _ => by rintro ⟨_, ⟨⟩⟩⟩
    obtain ⟨new, ht, htells⟩ := perform_tells (s := inner.remember (.entered p.choice)) hd ha hs
      (s.config.maxDepth - s.depth) p hp (congrArg (· + 1) hdepth)
    rw [runOn_executeOnce hlimit]
    refine ⟨[] ++ new ++ [inner.moment (.entered p.choice), s.moment (.called p.choice)], ?_,
      htells.around (List.forall_mem_nil _)
        (List.forall_mem_cons.mpr ⟨hentered, List.forall_mem_singleton.mpr hcall⟩)⟩
    rw [List.nil_append, List.append_assoc]
    exact ht

end Choice

/-! ### Runs with a report -/

namespace Rehearsal

/-- A menu with one choice, a macro whose only command is `stop`. -/
def menu : Placed :=
  let stop : Choice := .ofMacro ⟨.text "stop", .text "stop", false⟩
    (some (.mk (.text "stop") (.text "stop") [.host ⟨.text "stop", .text "stop"⟩ "stop"] false))
  ⟨.multi ⟨.text "menu", .text "menu", false⟩ [stop] false, none⟩

/-- A session that has just begun, with a host that cancels the command `stop`, and a user who will
select what is called so. -/
def choosing : Session Rehearsal :=
  .start .preset .empty .start
    ⟨[], [.text "stop"], [], [("stop", some "enough")], false, none, false⟩

end Rehearsal

/-- A run of a host whose selections and notices never fail. -/
private theorem Runner.run_announces_of_steady (hd : host.Discreet) (ha : host.Aloof)
    (hs : host.Steady) (p : Placed) (vars : Entries) (s : Session σ) (hdepth : s.depth = 0) :
    ∃ result t new, (run host (some p) vars).runOn s = (result, t) ∧
      t.trail = new ++ s.trail ∧
      (∀ f, result = .error f → f.escapes = true ∧ notices new = []) ∧
      ∀ report, result = .ok report →
        (report.outcome ≠ .aborted → notices new = []) ∧
        ∀ reason, report.fault = some (.cancelled reason) →
          (¬p.choice.Picks new → notices new = p.choice.announcement s.config reason) ∧
          (p.choice.Picks new → notices new = []) := by
  have htells : (begun vars s).Tells p.choice ((Choice.execute host p).runOn (begun vars s)) :=
    Choice.execute_tells hd ha hs p rfl hdepth
  have hfault := (Choice.execute_accounted hd hs p (begun vars s) rfl).1
  cases hrun : (Choice.execute host p).runOn (begun vars s) with
  | mk r t =>
    rw [hrun] at htells hfault
    obtain ⟨new, ht, htells⟩ := htells
    cases r with
    | error f =>
      have hnotices : notices new = [] := htells.unannounced (.inl (by rintro ⟨⟩))
      cases he : f.escapes with
      | true =>
        refine ⟨_, t, new, runOn_of_escape hrun he, ht, ?_, by rintro _ ⟨⟩⟩
        rintro _ ⟨⟩
        exact ⟨he, hnotices⟩
      | false =>
        obtain ⟨u, hu, htrail⟩ := runOn_of_error hrun he
        refine ⟨_, u, new, hu, htrail.trans ht, by rintro _ ⟨⟩, ?_⟩
        rintro _ ⟨⟩
        refine ⟨fun _ => hnotices, ?_⟩
        rintro reason ⟨⟩
        cases (hfault _ rfl).1
    | ok _ =>
      cases hp : t.pending with
      | none =>
        have htells : p.choice.Tells s.config (.ok ()) none new := hp ▸ htells
        refine ⟨_, t, new, runOn_of_ok hrun hp, ht, by rintro _ ⟨⟩, ?_⟩
        rintro _ ⟨⟩
        exact ⟨fun _ => htells.unannounced (.inr rfl), by rintro _ ⟨⟩⟩
      | some reason =>
        -- the runner takes up the cancellation, which is no notice
        let m := { t with pending := none }.moment (.consumed reason)
        have htells : p.choice.Tells s.config (.ok ()) (some reason) ([m] ++ new ++ []) := by
          refine Choice.Tells.around (hp ▸ htells) ?_ (List.forall_mem_nil _)
          exact List.forall_mem_singleton.mpr ⟨rfl, fun _ => by rintro ⟨_, ⟨⟩⟩⟩
        rw [List.append_nil] at htells
        refine ⟨_, _, m :: new, runOn_of_cancelled hrun hp, ?_, by rintro _ ⟨⟩, ?_⟩
        · rw [Session.remember_trail, ht]
          rfl
        · rintro _ ⟨⟩
          refine ⟨fun h => absurd rfl h, ?_⟩
          rintro _ ⟨⟩
          cases htells with
          | picked hp hn => exact ⟨fun h => absurd hp h, fun _ => hn⟩
          | announced hp hn => exact ⟨fun _ => hn, fun h => absurd h hp⟩
          | nothing hr => cases hr rfl

/-- **An abortion is announced once, by the outermost choice, unless that is a menu.** A run with a
report that is not aborted tells the user nothing. One that is aborted tells just once, naming the
outermost choice and the reason, or says nothing if the reason is that the user gave up and the
settings ask for silence. But if the outermost choice is a menu, and the run is aborted in what was
picked there, then it says nothing in any case. Nor does a run whose fault escapes. -/
theorem Runner.run_announces (hd : host.Discreet) (ha : host.Aloof) (p : Placed) (vars : Entries)
    (s : Session σ) (hs : host.SteadyFor (run · (some p) vars) s) (hdepth : s.depth = 0) :
    ∃ result t new, (run host (some p) vars).runOn s = (result, t) ∧
      t.trail = new ++ s.trail ∧
      (∀ f, result = .error f → f.escapes = true ∧ notices new = []) ∧
      ∀ report, result = .ok report →
        (report.outcome ≠ .aborted → notices new = []) ∧
        ∀ reason, report.fault = some (.cancelled reason) →
          (¬p.choice.Picks new → notices new = p.choice.announcement s.config reason) ∧
          (p.choice.Picks new → notices new = []) := by
  have hsteady := run_announces_of_steady hd.steadied ha.steadied host.steadied_steady p vars s
    hdepth
  rwa [show (run host.steadied (some p) vars).runOn s = (run host (some p) vars).runOn s from hs]
    at hsteady

/-- The run of a macro with a macro inside of it that is cancelled. -/
theorem Runner.run_announces_interrupted :
    ∃ result t new, (run Rehearsal.host (some Rehearsal.interrupted) []).runOn Rehearsal.fresh =
        (result, t) ∧
      t.trail = new ++ [] ∧
      (∀ f, result = .error f → f.escapes = true ∧ notices new = []) ∧
      ∀ report, result = .ok report →
        (report.outcome ≠ .aborted → notices new = []) ∧
        ∀ reason, report.fault = some (.cancelled reason) →
          (¬Rehearsal.interrupted.choice.Picks new →
            notices new = Rehearsal.interrupted.choice.announcement .preset reason) ∧
          (Rehearsal.interrupted.choice.Picks new → notices new = []) :=
  run_announces Rehearsal.host_discreet Rehearsal.host_aloof Rehearsal.interrupted []
    Rehearsal.fresh (Rehearsal.host_steady.steadyFor _ _) rfl

/-- A run that is aborted in a choice picked from a menu, of which the user is not told. -/
theorem Runner.run_menu :
    let run := (run Rehearsal.host (some Rehearsal.menu) []).runOn Rehearsal.choosing
    run.1 = .ok ⟨.text "menu", some (.cancelled "enough"), []⟩ ∧
    run.2.events = #[.suggest [.text "stop"] (.text "menu"), .command "stop"] := by
  constructor
  · cbv
  · cbv

end Choicebook
