import Choicebook.Proofs.Session.Runs
import Choicebook.Proofs.Session.Solitude
import Choicebook.Proofs.Session.Uniform

/-!
# What is recorded at which level

A choice runs one level deeper than what runs it. So everything that is recorded while an act runs
is recorded at its level or deeper (`Choice.from_executeAt`), and the commands of the choices that
it runs begin and end deeper (`Choice.aside_executeAt`). This is also so for what scripts do, and
for what a command does that is neither a script nor a conditional: no command begins or ends at its
level meanwhile (`Running.aside_runCommand`).
-/

namespace Choicebook

variable {σ : Type}

/-- The moment is at a level or deeper. -/
def Moment.From (level : Nat) (m : Moment) : Prop := level ≤ m.depth

/-- The moment is not that a command of a level begins or ends; commands of deeper levels may. -/
def Moment.Aside (level : Nat) (m : Moment) : Prop := m.mark.isBound = true → level < m.depth

/-- Between two states the level has come back, and what has been recorded has a property that may
depend on the level. -/
structure Session.Records (P : Nat → Moment → Prop) (s t : Session σ) : Prop where
  depth : t.depth = s.depth
  trail : ∃ new, t.trail = new ++ s.trail ∧ ∀ m ∈ new, P s.depth m

namespace Session.Records

variable {P : Nat → Moment → Prop} {s t u : Session σ}

theorem of_eq (hdepth : t.depth = s.depth) (htrail : t.trail = s.trail) : s.Records P t :=
  ⟨hdepth, [], htrail, List.forall_mem_nil _⟩

theorem trans (h : s.Records P t) (g : t.Records P u) : s.Records P u := by
  obtain ⟨new, ht, hnew⟩ := h.trail
  obtain ⟨more, hu, hmore⟩ := g.trail
  rw [h.depth] at hmore
  refine ⟨g.depth.trans h.depth, more ++ new, by rw [hu, ht, List.append_assoc], fun m hm => ?_⟩
  exact (List.mem_append.mp hm).elim (hmore m) (hnew m)

theorem remember {m : Mark} (hm : P s.depth (s.moment m)) : s.Records P (s.remember m) :=
  ⟨rfl, [s.moment m], rfl, List.forall_mem_singleton.mpr hm⟩

/-- A moment of its own, other than the beginning or the end of a command. -/
theorem aside {m : Mark} (hm : m.isBound = false) : s.Records Moment.Aside (s.remember m) :=
  remember fun hbound => absurd (hm.symm.trans hbound) Bool.false_ne_true

/-- What is recorded at a deeper level is recorded aside. -/
theorem aside_of_from {c : Choice} (h : (s.enter c).Records Moment.From t) :
    s.Records Moment.Aside (s.leave t) := by
  obtain ⟨new, ht, hnew⟩ := h.trail
  refine ⟨congrArg (· - 1) h.depth, new, ht, fun m hm _ => ?_⟩
  have hdeeper : s.depth + 1 ≤ m.depth := hnew m hm
  exact hdeeper

end Session.Records

namespace Act

variable {P : Nat → Moment → Prop} {α β : Type} {host : Host σ} {execute : Placed → Act σ Unit}

/-- The act comes back to its level, and what it records has a property. -/
def Records (P : Nat → Moment → Prop) (a : Act σ α) : Prop :=
  ∀ s : Session σ, s.Records P (a.runOn s).2

theorem Records.bind {a : Act σ α} {f : α → Act σ β} (ha : Records P a)
    (hf : ∀ x, Records P (f x)) : Records P (a >>= f) := fun s =>
  runOn_bind_keeps (P := s.Records P) (ha s) fun x t ht => ht.trans (hf x t)

theorem records_pure (x : α) : Records P (pure x : Act σ α) := fun _ => .of_eq rfl rfl

theorem records_modify {g : Session σ → Session σ} (hdepth : ∀ s, (g s).depth = s.depth)
    (htrail : ∀ s, (g s).trail = s.trail) : Records P (modify g : Act σ Unit) :=
  fun s => .of_eq (hdepth s) (htrail s)

theorem Records.inFrame {a : Act σ α} (ha : Records P a) (vars : Entries) :
    Records P (Act.inFrame vars a) := by
  intro s
  obtain ⟨hdepth, htrail⟩ := ha { s with frame := Entries.update [] vars }
  rw [runOn_inFrame_snd]
  exact ⟨hdepth, htrail⟩

/-! ### Everything is recorded at the level or deeper -/

theorem from_remember (m : Mark) : Records Moment.From (remember m : Act σ Unit) :=
  fun s => .remember (le_refl s.depth)

theorem from_uniform (hd : host.Discreet) :
    Uniform host fun {α} (a _ : Act σ α) => a.Records Moment.From where
  pure := records_pure
  bind := Records.bind
  look _ h := fun s => h s s
  throw _ := fun _ => .of_eq rfl rfl
  settle h := h
  inFrame vars _ _ h := h.inFrame vars
  edit hg := fun _ => by cases hg <;> exact .of_eq rfl rfl
  remember _ := from_remember _
  offers h := fun s => .of_eq (hd.depth h s) (hd.trail h s)

theorem Records.deeper {a : Act σ Unit} (ha : Records Moment.From a) (c : Choice) :
    Records Moment.From (Act.deeper c a) := by
  intro s
  obtain ⟨hdepth, new, htrail, hnew⟩ := ha (s.enter c)
  rw [runOn_deeper]
  refine ⟨congrArg (· - 1) hdepth, new, htrail, fun m hm => ?_⟩
  have hm : s.depth + 1 ≤ m.depth := hnew m hm
  exact (Nat.le_succ _).trans hm

end Act

theorem Choice.from_executeAt {host : Host σ} (hd : host.Discreet) (levels : Nat) (p : Placed) :
    (executeAt host levels p).Records Moment.From :=
  (Act.from_uniform hd).executeAt Act.from_remember (fun c _ h => h.deeper c) levels p

theorem Choice.from_execute {host : Host σ} (hd : host.Discreet) (p : Placed) :
    (execute host p).Records Moment.From := fun s => by
  rw [execute, Act.runOn_get_bind]
  exact from_executeAt hd _ p s

/-- The commands inside of a choice begin and end deeper. -/
theorem Choice.aside_executeAt {host : Host σ} (hd : host.Discreet) (levels : Nat) (p : Placed) :
    (executeAt host levels p).Records Moment.Aside := by
  intro s
  cases levels with
  | zero => exact .aside rfl
  | succ levels =>
    rw [executeAt]
    have hcalled : s.Records Moment.Aside (s.remember (.called p.choice)) := .aside rfl
    by_cases hdepth : s.config.maxDepth ≤ s.depth
    · rw [runOn_executeOnce_refused hdepth]
      exact hcalled.trans (.aside rfl)
    · rw [runOn_executeOnce hdepth]
      have hperform : (perform host (Menu.browse host) (executeAt host levels) p).Records
          Moment.From := (Act.from_uniform hd).perform (from_executeAt hd levels) p
      have hinside := ((Act.from_remember (.entered p.choice)).bind fun _ => hperform)
        ((s.remember (.called p.choice)).enter p.choice)
      exact hcalled.trans hinside.aside_of_from

theorem Choice.aside_execute {host : Host σ} (hd : host.Discreet) (p : Placed) :
    (execute host p).Records Moment.Aside := fun s => by
  rw [execute, Act.runOn_get_bind]
  exact aside_executeAt hd _ p s

/-! ### Scripts and commands -/

namespace Act

variable {α β : Type} {host : Host σ} {execute : Placed → Act σ Unit}

theorem aside_fail (f : Fault) : Records Moment.Aside (fail f : Act σ α) := fun _ => .aside rfl

theorem aside_ask (hd : host.Discreet) (e : Event) {a : Act σ α} (ha : host.Offers a) :
    Records Moment.Aside (ask e a) := by
  intro s
  have hasked : s.Records Moment.Aside (s.remember (.asked e)) := .aside rfl
  have hrun : (s.remember (.asked e)).Records Moment.Aside (a.runOn (s.remember (.asked e))).2 :=
    .of_eq (hd.depth ha _) (hd.trail ha _)
  rw [runOn_ask]
  generalize a.runOn (s.remember (.asked e)) = run at hrun ⊢
  obtain ⟨f | x, t⟩ := run
  · exact (hasked.trans hrun).trans (.aside rfl)
  · exact hasked.trans hrun

theorem records_get {P : Nat → Moment → Prop} : Records P (get : Act σ (Session σ)) :=
  fun _ => .of_eq rfl rfl

theorem records_note {P : Nat → Moment → Prop} (e : Event) : Records P (note e : Act σ Unit) :=
  records_modify (fun _ => rfl) fun _ => rfl

theorem aside_framed : Framed (σ := σ) fun {α} (a _ : Act σ α) => a.Records Moment.Aside where
  pure := records_pure
  bind := Records.bind
  read _ h := fun s => h s s
  fail _ := aside_fail _
  note := records_note
  changeFrame _ := records_modify (fun _ => rfl) fun _ => rfl

theorem aside_signals : Signals (σ := σ) fun {α} (a _ : Act σ α) => a.Records Moment.Aside where
  toPlain := aside_framed.toPlain
  updateShared _ := records_modify (fun _ => rfl) fun _ => rfl
  throw _ := fun _ => .of_eq rfl rfl
  setPending _ := records_modify (fun _ => rfl) fun _ => rfl
  consumed _ := fun _ => .aside rfl

theorem Records.rescue {a : Act σ α} {carryOn : Fault → Act σ α} (ha : Records Moment.Aside a)
    (hc : ∀ f, Records Moment.Aside (carryOn f)) :
    Records Moment.Aside (Act.rescue a carryOn) := by
  intro s
  have hrun := ha s
  rw [runOn_rescue]
  generalize a.runOn s = run at hrun ⊢
  obtain ⟨f | x, t⟩ := run
  · rw [proceed_error]
    split
    · exact hrun
    · exact (hrun.trans (.aside rfl)).trans (hc f _)
  · exact hrun

/-- A script records nothing but asides, given that the choices do that it runs. -/
theorem aside_scripting (hd : host.Discreet)
    (hexec : ∀ p, Records Moment.Aside (execute p)) :
    Scripting host execute execute False fun {α} (a _ : Act σ α) => a.Records Moment.Aside where
  toFramed := aside_framed
  rescue := Records.rescue
  ask e _ ha _ := aside_ask hd e ha.offers
  callChoice _ name vars := by
    have l := aside_signals (σ := σ)
    refine records_get.bind fun s => ?_
    split
    · exact (records_note _).bind fun _ => aside_fail _
    · have hhandOver : Records Moment.Aside (Call.handOver vars : Act σ Unit) := by
        rw [Call.handOver]
        split
        · exact Records.bind (l.expect vars.misuses_toEntries) fun extra => l.updateShared extra
        · exact records_pure ()
      exact hhandOver.bind fun _ => l.enterChoice execute execute (fun _ => .aside rfl)
        (records_modify (fun _ => rfl) fun _ => rfl) (fun _ => .aside rfl) (hexec _)

theorem aside_loads (hd : host.Discreet) (path : String) :
    Scripting.Loads host False (fun {α} (a _ : Act σ α) => a.Records Moment.Aside) path where
  bind h := (aside_ask hd _ (.loadScript path)).bind fun v => h v nofun

end Act

open Act (Records)

variable {host : Host σ} {execute : Placed → Act σ Unit}

theorem Condition.aside_holds (hd : host.Discreet) (hexec : ∀ p, Records Moment.Aside (execute p)) :
    ∀ c : Condition, Records Moment.Aside (c.holds host execute)
  | .byScript path member => (Act.aside_scripting hd hexec).scriptHolds (Act.aside_loads hd path)
    member
  | .onVariable c => by
    refine Act.records_get.bind fun s =>
      Records.bind (Act.aside_framed.expect (c.misuses_evaluate s.frame)) fun verdict => ?_
    dsimp only
    split
    · exact (Act.records_note _).bind fun _ => Act.records_pure _
    · exact Act.records_pure _

/-- Whether a command gives its macro no result, whatever happens: anything but a script or a
conditional. -/
def Command.isMute : Command → Bool
  | .script .. | .conditional .. => false
  | _ => true

/-- A command that enters a choice. -/
theorem Running.aside_enter (hexec : ∀ p, Records Moment.Aside (execute p)) (name : Value)
    (p : Placed) : Records Moment.Aside (enter ⟨host, execute, name⟩ p) :=
  (hexec p).bind fun _ => Records.bind Act.aside_signals.raisePending fun _ =>
    Act.aside_framed.pullFrame

/-- Between the two ends of a mute command, no command of its level begins or ends. -/
theorem Running.aside_runCommand (hd : host.Discreet)
    (hexec : ∀ p, Records Moment.Aside (execute p)) (name : Value) (target : Option Placed) :
    ∀ c : Command, c.isMute = true →
      Records Moment.Aside (runCommand ⟨host, execute, name⟩ c target)
  | .host _ commandId, _ => by
    rw [runCommand]
    exact (Act.aside_ask hd _ (.runCommand commandId)).bind fun _ => Act.records_pure _
  | .choice _ _, _ => by
    cases target with
    | none =>
      rw [runCommand]
      exact (Act.records_note _).bind fun _ => Act.records_pure _
    | some p =>
      rw [runCommand]
      exact (aside_enter hexec name p).bind fun _ => Act.records_pure _
  | .nested _ _, _ => by
    cases target with
    | none =>
      rw [runCommand]
      exact (Act.records_note _).bind fun _ => Act.records_pure _
    | some p =>
      rw [runCommand]
      exact (aside_enter hexec name p).bind fun _ => Act.records_pure _
  | .wait _ _, _ => by
    rw [runCommand]
    exact Records.bind (Act.aside_framed.pause (Act.aside_fail _) rfl _) fun _ => Act.records_pure _
  | .editor _ action, _ => by
    rw [runCommand]
    exact (Act.aside_ask hd _ (.edit action)).bind fun _ => Act.records_pure _
  | .assistant h payload, _ => by
    rw [runCommand]
    refine Act.records_get.bind fun s =>
      (Act.aside_ask hd _ (.runAssistant h.name payload s.frame)).bind fun assigned => ?_
    dsimp only
    split
    · exact Records.bind (Act.aside_framed.updateFrame _) fun _ => Act.records_pure _
    · exact Act.records_pure _
  | .openFile _ path inNewTab direction, _ => by
    rw [runCommand]
    exact (Act.aside_ask hd _ (.openFile path inNewTab direction)).bind fun _ => Act.records_pure _

end Choicebook
