import Mathlib
import Choicebook.Proofs.Session.Law
import Choicebook.Proofs.Session.Rehearsal
import Choicebook.Proofs.Session.Surroundings

/-!
# The two maps of variables

A macro works on the variables of its frame, and the session has variables that all choices share.
At the end of each command the frame is copied to the shared variables, and where a command has run
another choice, the shared variables are copied to the frame before that. `Moment.InStep` is what
this comes to at the end of a command: every variable of the frame is shared, and after another
choice the two maps are the same.

The copies go by the order of entries, so that the result is a union of finite maps takes that the
keys of the frame are distinct. `Act.Aligns` carries this along: it is about acts that keep a
property of the frame, which inside of a macro is that its keys are distinct and outside may be
anything.
-/

namespace Choicebook

variable {σ : Type}

/-- How the two maps are related at a moment: not at all, unless a command has just ended. -/
def Moment.InStep (m : Moment) : Prop :=
  ∀ owner c target, m.mark = .finished owner c target →
    (∀ k v, k.canBeKey = true → m.frame.get? k = some v → m.shared.get? k = some v) ∧
    (target.isSome = true → ∀ k, k.canBeKey = true → m.frame.get? k = m.shared.get? k)

/-- A property of the frame that the host does not spoil outside of macros. -/
structure Host.Keeps (h : Host σ) (P : Entries → Prop) : Prop where
  frame : ∀ {α : Type} {a : Act σ α}, h.OffersOutside a → ∀ s, P s.frame → P (a.runOn s).2.frame

theorem Host.Tidy.keeps {h : Host σ} (ht : h.Tidy) : h.Keeps Entries.Distinct :=
  ⟨fun ha => ht.frame ha.offers⟩

/-- Frames outside of macros can be anything. -/
theorem Host.keeps_true (h : Host σ) : h.Keeps fun _ => True :=
  ⟨fun _ _ _ => trivial⟩

/-- The maps were in step at the end of every command between two states. -/
def Session.InStepSince (s t : Session σ) : Prop :=
  ∃ new, t.trail = new ++ s.trail ∧ ∀ m ∈ new, m.InStep

/-! ### Aligned acts -/

/-- The frame has a property in the end, and in between the maps were in step. -/
structure Session.Aligned (P : Entries → Prop) (s t : Session σ) : Prop where
  frame : P t.frame
  trail : InStepSince s t

namespace Session.Aligned

variable {P Q : Entries → Prop} {s t u : Session σ}

theorem of_eq (hf : P t.frame) (ht : t.trail = s.trail) : Aligned P s t :=
  ⟨hf, [], ht, List.forall_mem_nil _⟩

theorem trans (h : Aligned Q s t) (g : Aligned P t u) : Aligned P s u := by
  obtain ⟨-, new, ht, hnew⟩ := h
  obtain ⟨gf, new', gt, gnew⟩ := g
  refine ⟨gf, new' ++ new, by rw [gt, ht, List.append_assoc], ?_⟩
  intro m hm
  rcases List.mem_append.mp hm with hm | hm
  · exact gnew m hm
  · exact hnew m hm

/-- A change that is not on the trail, and then a moment. -/
theorem remember (hf : P t.frame) (ht : t.trail = s.trail) {m : Mark}
    (hm : (t.moment m).InStep) : Aligned P s (t.remember m) :=
  ⟨hf, [t.moment m], by rw [remember_trail, ht]; rfl, List.forall_mem_singleton.mpr hm⟩

end Session.Aligned

/-- An act that keeps a property of the frame and the maps in step. -/
def Act.Aligns (P : Entries → Prop) {α : Type} (a : Act σ α) : Prop :=
  ∀ s : Session σ, P s.frame → Session.Aligned P s (a.runOn s).2

namespace Act

open Session (Aligned)

variable {P : Entries → Prop} {host : Host σ}

theorem Aligns.bind {α β : Type} {a : Act σ α} {f : α → Act σ β} (ha : Aligns P a)
    (hf : ∀ x, Aligns P (f x)) : Aligns P (a >>= f) := fun s hs =>
  runOn_bind_keeps (P := Aligned P s) (ha s hs) fun x t hrun => hrun.trans (hf x t hrun.frame)

theorem aligns_pure {α : Type} (x : α) : Aligns P (pure x : Act σ α) :=
  fun _ hs => .of_eq hs rfl

theorem aligns_get : Aligns P (get : Act σ (Session σ)) :=
  fun _ hs => .of_eq hs rfl

theorem aligns_throw {α : Type} (f : Fault) : Aligns P (throw f : Act σ α) :=
  fun _ hs => .of_eq hs rfl

/-- A change of the state that is not about the frame. -/
theorem aligns_modify {g : Session σ → Session σ} (hf : ∀ s, (g s).frame = s.frame)
    (ht : ∀ s, (g s).trail = s.trail) : Aligns P (modify g : Act σ Unit) :=
  fun s hs => .of_eq (show P (g s).frame from (hf s).symm ▸ hs) (ht s)

theorem aligns_updateShared (extra : Entries) : Aligns P (updateShared extra : Act σ Unit) :=
  aligns_modify (fun _ => rfl) fun _ => rfl

/-- A moment other than the end of a command. -/
theorem aligns_remember {m : Mark} (hm : ∀ owner c target, m ≠ .finished owner c target) :
    Aligns P (Act.remember m : Act σ Unit) :=
  fun _ hs => .remember hs rfl fun owner c target h => absurd h (hm owner c target)

theorem aligns_started (owner : Value) (c : Command) :
    Aligns P (Act.remember (.started owner c) : Act σ Unit) :=
  aligns_remember nofun

theorem aligns_fail {α : Type} (f : Fault) : Aligns P (Act.fail f : Act σ α) :=
  (aligns_remember (m := .failed f) nofun).bind fun _ => aligns_throw f

/-- An act whose fault is looked at. -/
theorem Aligns.attempt {α : Type} {a : Act σ α} (ha : Aligns P a) : Aligns P (Act.attempt a) := by
  intro s hs
  rw [runOn_attempt_snd]
  exact ha s hs

theorem Aligns.deeper {α : Type} {a : Act σ α} (ha : Aligns P a) (c : Choice) :
    Aligns P (Act.deeper c a) := by
  intro s hs
  obtain ⟨hf, ht⟩ := ha (s.enter c) hs
  exact ⟨hf, ht⟩

/-- A frame of its own has distinct keys, and the old one comes back. -/
theorem Aligns.inFrame {α : Type} {a : Act σ α} (ha : Aligns Entries.Distinct a)
    (vars : Entries) : Aligns P (Act.inFrame vars a) := by
  intro s hs
  have hrun := ha { s with frame := Entries.update [] vars } (Entries.distinct_nil.update vars)
  rw [runOn_inFrame_snd]
  exact ⟨hs, hrun.trail⟩

theorem Aligns.rescue {α : Type} {a : Act σ α} {carryOn : Fault → Act σ α} (ha : Aligns P a)
    (hc : ∀ f, Aligns P (carryOn f)) : Aligns P (Act.rescue a carryOn) := by
  intro s hs
  have hrun := ha s hs
  rw [runOn_rescue]
  generalize a.runOn s = run at hrun ⊢
  obtain ⟨f | x, t⟩ := run
  · rw [proceed_error]
    split
    · exact hrun
    · have hcaught := aligns_remember (P := P) (m := .caught f) nofun t hrun.frame
      exact (hrun.trans hcaught).trans (hc f _ hcaught.frame)
  · exact hrun

/-- The means of macros keep the maps in step. -/
theorem aligns_law : Law (σ := σ) fun {α} => Aligns (α := α) Entries.Distinct where
  pure := aligns_pure
  bind := Aligns.bind
  get := aligns_get
  fail := aligns_fail
  note _ := aligns_modify (fun _ => rfl) fun _ => rfl
  changeFrame hg := fun s hs => .of_eq (hg s.frame hs) rfl
  updateShared := aligns_updateShared
  rescue := Aligns.rescue

theorem aligns_ask {α : Type} (e : Event) {a : Act σ α}
    (ht : ∀ s, (a.runOn s).2.trail = s.trail) (hP : ∀ s, P s.frame → P (a.runOn s).2.frame) :
    Aligns P (ask e a) := by
  intro s hs
  have hask := aligns_remember (P := P) (m := .asked e) nofun s hs
  have hrun : Aligned P (s.remember (.asked e)) (a.runOn (s.remember (.asked e))).2 :=
    .of_eq (hP _ hask.frame) (ht _)
  rw [runOn_ask]
  generalize a.runOn (s.remember (.asked e)) = run at hrun ⊢
  obtain ⟨f | x, t⟩ := run
  · exact (hask.trans hrun).trans (aligns_remember (m := .failed f) nofun t hrun.frame)
  · exact hask.trans hrun

theorem aligns_setPending (reason : Option String) :
    Aligns P (modify fun s => { s with pending := reason } : Act σ Unit) :=
  aligns_modify (fun _ => rfl) fun _ => rfl

theorem aligns_compatible : Compatible (σ := σ) fun {α} (a _ : Act σ α) => Aligns P a where
  pure := aligns_pure
  bind := Aligns.bind
  look _ h := aligns_get.bind h
  fail _ := aligns_fail _
  note _ := aligns_modify (fun _ => rfl) fun _ => rfl
  updateShared := aligns_updateShared

theorem aligns_signals : Signals (σ := σ) fun {α} (a _ : Act σ α) => Aligns P a where
  toRegular := aligns_compatible.toRegular
  throw := aligns_throw
  setPending := aligns_setPending
  consumed _ := aligns_remember nofun

/-- Outside of macros, too, nothing is done that would bring the maps out of step. -/
theorem aligns_surroundings (ht : host.Tidy) (hP : host.Keeps P) :
    Surroundings host (fun {α} (a _ : Act σ α) => Aligns Entries.Distinct a)
      fun {α} (a _ : Act σ α) => Aligns P a where
  toSignals := aligns_signals
  ask e _ ha _ := aligns_ask e (ht.trail ha.offers) (hP.frame ha)
  attempt := Aligns.attempt
  inFrame vars _ _ h := h.inFrame vars
  recordCancellation := aligns_signals.recordCancellation aligns_compatible
    (fun _ _ => aligns_remember nofun)
    fun text => aligns_ask _ (ht.trail (.notify text)) (hP.frame (.notify text))
  browse := aligns_compatible.browse fun labels count placeholder =>
    aligns_ask _ (ht.trail (.suggest labels count placeholder))
      (hP.frame (.suggest labels count placeholder))

end Act

/-! ### The end of a command -/

namespace Entries

/-- A mapping that is copied into another one agrees with it from then on. -/
theorem get?_update_of_get? {m extra : Entries} (hd : extra.Distinct) {k v : Value}
    (hk : k.canBeKey = true) (h : extra.get? k = some v) : (m.update extra).get? k = some v := by
  rw [get?_update m hd hk, h, Option.some_or]

/-- Copying one mapping into another and the result back makes the two the same. -/
theorem get?_update_update {m n : Entries} (hd : (m.update n).Distinct) {k : Value}
    (hk : k.canBeKey = true) : (n.update (m.update n)).get? k = (m.update n).get? k := by
  rw [get?_update n hd hk]
  cases h : (m.update n).get? k with
  | some v => rw [Option.some_or]
  | none =>
    -- a key without a value in the copy has none in the mapping that was copied
    rw [(get?_of_get?_update_eq_none hk h).1, Option.or_none]

end Entries

namespace Running

open Act (Aligns)

/-- Sharing the frame at the end of a command that ran nothing else. -/
private theorem push_aligns (owner : Value) (c : Command) :
    Aligns Entries.Distinct (do
      Act.pushFrame
      Act.remember (.finished owner c none) : Act σ Unit) := by
  intro s hd
  let t := { s with shared := s.shared.update s.frame }
  change Session.Aligned _ s (t.remember (.finished owner c none))
  refine .remember (s := s) (t := t) hd rfl ?_
  rintro _ _ target ⟨⟩
  exact ⟨fun k v hk h => Entries.get?_update_of_get? hd hk h, nofun⟩

/-- Taking over the shared variables and then sharing the frame. -/
private theorem pull_push_aligns (owner : Value) (c : Command) (target : Option Choice) :
    Aligns Entries.Distinct (do
      Act.pullFrame
      Act.pushFrame
      Act.remember (.finished owner c target) : Act σ Unit) := by
  intro s hs
  let frame := s.frame.update s.shared
  have hd : frame.Distinct := hs.update s.shared
  let t := { s with frame := frame, shared := s.shared.update frame }
  change Session.Aligned _ s (t.remember (.finished owner c target))
  refine .remember (s := s) (t := t) hd rfl ?_
  rintro _ _ target ⟨⟩
  refine ⟨fun k v hk h => Entries.get?_update_of_get? hd hk h, fun _ k hk => ?_⟩
  exact (Entries.get?_update_update hd hk).symm

/-- A command that runs no other choice. -/
private theorem step_aligns {α : Type} (r : Running σ) (c : Command) {body : Act σ α}
    (hbody : Aligns Entries.Distinct body) : Aligns Entries.Distinct (r.step c none body) := by
  -- the last two acts of a step have to be looked at together: only then are the maps in step
  have hstep : r.step c none body = (do
      Act.remember (.started r.name c)
      let x ← body
      (do Act.pushFrame; Act.remember (.finished r.name c none))
      return x) := by
    simp only [step, bind_assoc, Option.map_none]
  rw [hstep]
  exact (Act.aligns_started r.name c).bind fun _ => hbody.bind fun x =>
    (push_aligns r.name c).bind fun _ => Act.aligns_pure x

/-- A command that runs another choice. -/
private theorem step_enter_aligns {host : Host σ} (ht : host.Tidy) (r : Running σ) (c : Command)
    (p : Placed) (hexec : Aligns Entries.Distinct (r.execute p)) :
    Aligns Entries.Distinct (r.step c (some p) (do r.enter p; return (none : Option Value))) := by
  -- here the copy back into the frame belongs to them as well
  have hstep : (r.step c (some p) (do r.enter p; return (none : Option Value))) = (do
      Act.remember (.started r.name c)
      r.execute p
      Act.raisePending
      (do Act.pullFrame; Act.pushFrame; Act.remember (.finished r.name c (some p.choice)))
      return none) := by
    simp only [step, enter, bind_assoc, pure_bind, Option.map_some]
  rw [hstep]
  exact (Act.aligns_started r.name c).bind fun _ => hexec.bind fun _ =>
    (Act.aligns_surroundings ht ht.keeps).raisePending.bind fun _ =>
      (pull_push_aligns _ _ _).bind fun _ => Act.aligns_pure _

end Running

/-! ### Choices -/

open Act (Aligns)

variable {host : Host σ} {P : Entries → Prop}

/-- Everything inside of a macro keeps the maps in step, given that the choices do that it runs. -/
theorem Discipline.aligns (ht : host.Tidy) {execute : Placed → Act σ Unit}
    (hexec : ∀ p, Aligns Entries.Distinct (execute p)) :
    Discipline host execute fun {α} => Aligns (α := α) Entries.Distinct where
  toLaw := Act.aligns_law
  ask e _ ha _ := Act.aligns_ask e (ht.trail ha) (ht.frame ha)
  -- what becomes of the shared variables does not matter where a script runs a choice
  enterChoice p := (Act.aligns_surroundings ht ht.keeps).enterChoice execute execute
    (Act.aligns_remember nofun) (Act.aligns_modify (fun _ => rfl) fun _ => rfl)
    (Act.aligns_remember nofun) (hexec p)
  step name c _ ha := Running.step_aligns ⟨host, execute, name⟩ c ha
  enter name c p := Running.step_enter_aligns ht ⟨host, execute, name⟩ c p (hexec p)

namespace Choice

/-- Every choice keeps the maps in step, whatever it is run inside of. -/
theorem executeAt_aligns (ht : host.Tidy) (hP : host.Keeps P) (levels : Nat) (p : Placed) :
    Aligns P (executeAt host levels p) := by
  -- the macros of the next level have frames of their own, so `P` varies
  induction levels generalizing P p with
  | zero => exact (Act.aligns_surroundings ht hP).refuse p
  | succ levels ih =>
    exact (Act.aligns_surroundings ht hP).executeOnce Act.aligns_compatible
      (fun _ => Act.aligns_remember nofun) (fun _ => Act.aligns_remember nofun)
      (fun c _ h => h.deeper c)
      (Discipline.aligns ht (ih ht.keeps)).comparison (ih hP) p

theorem execute_aligns (ht : host.Tidy) (hP : host.Keeps P) (p : Placed) :
    Aligns P (execute host p) :=
  Act.aligns_get.bind fun _ => executeAt_aligns ht hP _ p

end Choice

/-! ### Ways into a session -/

theorem Runner.run_aligns (ht : host.Tidy) (hP : host.Keeps P) (choice : Option Placed)
    (vars : Entries) : Aligns P (Runner.run host choice vars) :=
  (Act.aligns_surroundings ht hP).report (fun _ => Act.aligns_modify (fun _ => rfl) fun _ => rfl)
    (Choice.execute_aligns ht hP) choice vars

theorem SingleMacro.run_aligns (ht : host.Tidy) (hP : host.Keeps P) (reference : String) :
    Aligns P (SingleMacro.run host reference) :=
  have d := (Discipline.aligns ht (Choice.execute_aligns ht ht.keeps)).comparison
  (Act.aligns_surroundings ht hP).runReference d
    (fun _ _ => Act.aligns_modify (fun _ => rfl) fun _ => rfl) reference

theorem Startup.run_aligns (ht : host.Tidy) (hP : host.Keeps P) (isolate : Bool) :
    Aligns P (Startup.run host isolate) :=
  have d := (Discipline.aligns ht (Choice.execute_aligns ht ht.keeps)).comparison
  (Act.aligns_surroundings ht hP).startup d (Act.aligns_modify (fun _ => rfl) fun _ => rfl) isolate

/-- **The maps of variables are in step at the end of every command**, at whatever depth, on each of
the three ways into a session: the variables of the frame are shared, and after a command that ran
another choice the two maps are the same. -/
theorem Session.variables_inStep (ht : host.Tidy) (s : Session σ) (choice : Option Placed)
    (vars : Entries) (reference : String) (isolate : Bool) :
    InStepSince s ((Runner.run host choice vars).runOn s).2 ∧
    InStepSince s ((SingleMacro.run host reference).runOn s).2 ∧
    InStepSince s ((Startup.run host isolate).runOn s).2 :=
  ⟨(Runner.run_aligns ht host.keeps_true choice vars s trivial).trail,
    (SingleMacro.run_aligns ht host.keeps_true reference s trivial).trail,
    (Startup.run_aligns ht host.keeps_true isolate s trivial).trail⟩

namespace Rehearsal

/-- A macro for the start. Its only command runs a macro whose script sets a variable. -/
def morning : Choice :=
  let inner : Choice := .ofMacro ⟨.text "stretch", .text "stretch", false⟩
    (some (.mk (.text "stretch") (.text "stretch")
      [.script ⟨.text "count", .text "count"⟩ "count" [] 0] false))
  .ofMacro ⟨.text "morning", .text "morning", false⟩
    (some (.mk (.text "morning") (.text "morning")
      [.nested ⟨.text "stretch", .text "stretch"⟩ (some inner)] true))

/-- A session with that macro and its script. -/
def rested : Session Rehearsal :=
  let count : Value := .function "count" .one [.assign "x" (.literal (.int 7))]
  .start .preset ⟨[morning], [], []⟩ .start ⟨[("count", count)], [], [], [], false, none, false⟩

/-- What the variable is for a macro and for the session, whenever a choice that the macro ran has
returned. -/
def seenAfterChoices (s : Session Rehearsal) : List (Option Value × Option Value) :=
  s.trail.filterMap fun m =>
    match m.mark with
    | .finished _ _ (some _) => some (m.frame.field? "x", m.shared.field? "x")
    | _ => none

end Rehearsal

/-- On each way into a session, what the script of the inner macro sets is there for the outer macro
and for the session when the inner one has returned. -/
theorem Session.variables_inStep_rested :
    let s := Rehearsal.rested
    let byChoice := ((Runner.run Rehearsal.host (some ⟨Rehearsal.morning, some [0]⟩) []).runOn s).2
    let byName := ((SingleMacro.run Rehearsal.host "morning").runOn s).2
    let atStart := ((Startup.run Rehearsal.host false).runOn s).2
    (InStepSince s byChoice ∧ InStepSince s byName ∧ InStepSince s atStart) ∧
    ∀ t ∈ [byChoice, byName, atStart],
      Rehearsal.seenAfterChoices t = [(some (.int 7), some (.int 7))] := by
  refine ⟨variables_inStep Rehearsal.host_tidy Rehearsal.rested _ [] "morning" false, ?_⟩
  simp only [List.forall_mem_cons]
  refine ⟨by cbv, by cbv, by cbv, List.forall_mem_nil _⟩

end Choicebook
