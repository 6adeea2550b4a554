import Choicebook.Proofs.Session.Relation
import Choicebook.Session.Entry

/-!
# Scripts that keep to themselves

A script works on the variables of the running macro. It reaches the shared variables only through
other choices, so one that runs none leaves them alone, whatever it does and however it ends
(`Act.Quiet`). They change when the command of the script has completed, or when a member that a
reference leads to has returned. If the script fails, neither happens.
-/

namespace Choicebook

variable {σ : Type}

/-! ### Hosts -/

/-- In some of its states, a host leaves alone what a session keeps for itself, and it changes
shared variables only as a template or a capture. -/
structure Host.Reserved (h : Host σ) (states : σ → Prop) : Prop extends h.Discreet where
  shared : ∀ {α : Type} {a : Act σ α}, h.Serves a →
    ∀ s : Session σ, (a.runOn s).2.shared = s.shared
  keeps : ∀ {α : Type} {a : Act σ α}, h.Offers a →
    ∀ s : Session σ, states s.host → states (a.runOn s).2.host

/-- What is so in some states only is not asked of the others. -/
theorem Host.Reserved.anywhere {h : Host σ} {states : σ → Prop} (hh : h.Reserved states) :
    h.Reserved fun _ => True :=
  { hh with keeps := fun _ _ _ => trivial }

/-- The script at a path runs no other choice. -/
def Host.Solitary (h : Host σ) (states : σ → Prop) (path : String) : Prop :=
  ∀ (v : Value) (s t : Session σ), states s.host → (h.loadScript path).runOn s = (.ok v, t) →
    v.Solitary

/-! ### Quiet acts -/

/-- Whether a command begins or ends. -/
def Mark.isBound : Mark → Bool
  | .started .. | .finished .. => true
  | _ => false

/-- Nothing has happened between two states that would show in the shared variables, and no command
has begun or ended. -/
structure Session.Quiet (states : σ → Prop) (s t : Session σ) : Prop where
  shared : t.shared = s.shared
  pending : t.pending = s.pending
  host : states t.host
  trail : ∃ new, t.trail = new ++ s.trail ∧ ∀ m ∈ new, m.mark.isBound = false

variable {states : σ → Prop}

namespace Session.Quiet

variable {s t u : Session σ}

theorem of_eq (hshared : t.shared = s.shared) (hpending : t.pending = s.pending)
    (hhost : states t.host) (htrail : t.trail = s.trail) : s.Quiet states t :=
  ⟨hshared, hpending, hhost, [], htrail, List.forall_mem_nil _⟩

theorem trans (h : s.Quiet states t) (g : t.Quiet states u) : s.Quiet states u := by
  obtain ⟨new, ht, hnew⟩ := h.trail
  obtain ⟨more, hu, hmore⟩ := g.trail
  refine ⟨g.shared.trans h.shared, g.pending.trans h.pending, g.host, more ++ new, ?_, ?_⟩
  · rw [hu, ht, List.append_assoc]
  · intro m hm
    exact (List.mem_append.mp hm).elim (hmore m) (hnew m)

theorem remember (hs : states s.host) {m : Mark} (hm : m.isBound = false) :
    s.Quiet states (s.remember m) :=
  ⟨rfl, rfl, hs, [s.moment m], rfl, List.forall_mem_singleton.mpr hm⟩

end Session.Quiet

/-- A moment of its own, other than the beginning and the end of a command. -/
theorem Session.quiet_remember (s : Session σ) {m : Mark} (hm : m.isBound = false) :
    s.Quiet (fun _ => True) (s.remember m) :=
  .remember trivial hm

namespace Act

/-- Nothing comes of the act that would show in the shared variables. -/
def Quiet (states : σ → Prop) {α : Type} (a : Act σ α) : Prop :=
  ∀ s : Session σ, states s.host → s.Quiet states (a.runOn s).2

variable {α β : Type} {host : Host σ}

theorem Quiet.bind {a : Act σ α} {f : α → Act σ β} (ha : Quiet states a)
    (hf : ∀ x, Quiet states (f x)) : Quiet states (a >>= f) := fun s hs =>
  runOn_bind_keeps (P := s.Quiet states) (ha s hs) fun x t ht => ht.trans (hf x t ht.host)

theorem quiet_pure (x : α) : Quiet states (pure x : Act σ α) :=
  fun _ hs => .of_eq rfl rfl hs rfl

theorem quiet_note (e : Event) : Quiet states (note e : Act σ Unit) :=
  fun _ hs => .of_eq rfl rfl hs rfl

theorem quiet_fail (f : Fault) : Quiet states (fail f : Act σ α) :=
  fun _ hs => .remember hs rfl

theorem quiet_changeFrame (g : Entries → Entries) : Quiet states (changeFrame g : Act σ Unit) :=
  fun _ hs => .of_eq rfl rfl hs rfl

theorem quiet_ask (hh : host.Reserved states) (e : Event) {a : Act σ α} (ha : host.Serves a) :
    Quiet states (ask e a) := by
  intro s hs
  have hasked : s.Quiet states (s.remember (.asked e)) := .remember hs rfl
  have hrun : (s.remember (.asked e)).Quiet states (a.runOn (s.remember (.asked e))).2 :=
    .of_eq (hh.shared ha _) (hh.pending ha.offers _) (hh.keeps ha.offers _ hs)
      (hh.trail ha.offers _)
  rw [runOn_ask]
  generalize a.runOn (s.remember (.asked e)) = run at hrun ⊢
  obtain ⟨f | x, t⟩ := run
  · exact (hasked.trans hrun).trans (.remember hrun.host rfl)
  · exact hasked.trans hrun

theorem Quiet.rescue {a : Act σ α} {carryOn : Fault → Act σ α} (ha : Quiet states a)
    (hc : ∀ f, Quiet states (carryOn f)) : Quiet states (Act.rescue a carryOn) := by
  intro s hs
  have hrun := ha s hs
  rw [runOn_rescue]
  generalize a.runOn s = run at hrun ⊢
  obtain ⟨f | x, t⟩ := run
  · rw [proceed_error]
    split
    · exact hrun
    · have hcaught : t.Quiet states (t.remember (.caught f)) := .remember hrun.host rfl
      exact (hrun.trans hcaught).trans (hc f _ hcaught.host)
  · exact hrun

theorem Quiet.inFrame {a : Act σ α} (ha : Quiet states a) (vars : Entries) :
    Quiet states (Act.inFrame vars a) := by
  intro s hs
  have hrun := ha { s with frame := Entries.update [] vars } hs
  rw [runOn_inFrame_snd]
  exact ⟨hrun.shared, hrun.pending, hrun.host, hrun.trail⟩

theorem quiet_framed : Framed (σ := σ) fun {α} (a _ : Act σ α) => a.Quiet states where
  pure := quiet_pure
  bind := Quiet.bind
  read _ h := fun s hs => h s s hs
  fail _ := quiet_fail _
  note := quiet_note
  changeFrame _ := quiet_changeFrame _

/-- Solitary scripts are quiet. -/
theorem quiet_scripting (hh : host.Reserved states) (execute : Placed → Act σ Unit) :
    Scripting host execute execute True fun {α} (a _ : Act σ α) => a.Quiet states where
  toFramed := quiet_framed
  rescue := Quiet.rescue
  ask e _ ha _ := quiet_ask hh e ha
  callChoice h := absurd trivial h

/-- What comes after loading a solitary script goes on with a solitary export, if at all. -/
theorem runOn_load_cases (hh : host.Reserved states) {path : String}
    (hpath : host.Solitary states path) (f : Value → Act σ β) {s : Session σ}
    (hs : states s.host) :
    let loading := ask (.load path) (host.loadScript path) >>= f
    (∃ e t, loading.runOn s = (.error e, t) ∧ s.Quiet states t) ∨
      ∃ v t, v.Solitary ∧ s.Quiet states t ∧ loading.runOn s = (f v).runOn t := by
  have hasked := quiet_ask hh (.load path) (.loadScript path) s hs
  cases hrun : (ask (.load path) (host.loadScript path)).runOn s with
  | mk r t =>
    rw [hrun] at hasked
    cases r with
    | error e => exact .inl ⟨e, t, runOn_bind_error hrun f, hasked⟩
    | ok v =>
      have hv := hpath v (s.remember (.asked (.load path))) t hs (runOn_of_runOn_ask hrun)
      exact .inr ⟨v, t, hv, hasked, runOn_bind_ok hrun f⟩

theorem quiet_loads (hh : host.Reserved states) {path : String}
    (hpath : host.Solitary states path) :
    Scripting.Loads host True (fun {α} (a _ : Act σ α) => a.Quiet states) path where
  bind := by
    intro β f g h s hs
    rcases runOn_load_cases hh hpath f hs with ⟨e, t, hrun, ht⟩ | ⟨v, t, hv, ht, hrun⟩
    · rw [hrun]
      exact ht
    · rw [hrun]
      exact ht.trans (h v (fun _ => hv) t ht.host)

end Act

/-! ### Scripts that fail -/

namespace Act

/-- If the act fails, the shared variables are as before. -/
def Atomic (states : σ → Prop) {α : Type} (a : Act σ α) : Prop :=
  ∀ (s t : Session σ) (f : Fault), states s.host → a.runOn s = (.error f, t) → t.shared = s.shared

variable {α β : Type}

theorem Quiet.atomic {a : Act σ α} (ha : Quiet states a) : Atomic states a := by
  intro s t f hs hrun
  have hquiet := ha s hs
  rw [hrun] at hquiet
  exact hquiet.shared

theorem Quiet.atomic_bind {a : Act σ α} {f : α → Act σ β} (ha : Quiet states a)
    (hf : ∀ x, Atomic states (f x)) : Atomic states (a >>= f) := by
  intro s t e hs hrun
  have hquiet := ha s hs
  rw [runOn_bind] at hrun
  generalize a.runOn s = run at hquiet hrun
  obtain ⟨e' | x, u⟩ := run
  · cases hrun
    exact hquiet.shared
  · exact (hf x u t e hquiet.host hrun).trans hquiet.shared

theorem atomic_load {host : Host σ} (hh : host.Reserved states) {path : String}
    (hpath : host.Solitary states path) {f : Value → Act σ β}
    (hf : ∀ v, v.Solitary → Atomic states (f v)) :
    Atomic states (ask (.load path) (host.loadScript path) >>= f) := by
  intro s u e hs hfail
  rcases runOn_load_cases hh hpath f hs with ⟨e', t, hrun, ht⟩ | ⟨v, t, hv, ht, hrun⟩
  · cases hrun.symm.trans hfail
    exact ht.shared
  · exact (hf v hv t u e ht.host (hrun.symm.trans hfail)).trans ht.shared

end Act

open Act (Quiet Atomic)

variable {host : Host σ} {execute : Placed → Act σ Unit}

/-- The command of a script shares the variables only after the script. -/
theorem Running.atomic_step {α : Type} (name : Value) (c : Command) (target : Option Placed)
    {body : Act σ α} (hbody : Quiet states body) :
    Atomic states (step ⟨host, execute, name⟩ c target body) := by
  intro s t f hs hrun
  rw [step, Act.runOn_remember_bind] at hrun
  exact hbody.atomic_bind (fun x s t f _ h => by cases h) (s.remember (.started name c)) t f hs hrun

/-- A member that fails has not changed the shared variables, nor has anything before it. -/
theorem SingleMacro.atomic_runMember (hh : host.Reserved states) (c : Choice) (path : List String)
    (hfile : ∀ file settings slot,
      firstScript? ((c.body?.map Macro.commands).getD []) = some (file, settings, slot) →
        host.Solitary states file) :
    Atomic states (runMember host c path) := by
  have hrefuse : ∀ f : Fault, Quiet states (refuse f : Act σ Value) := fun f =>
    (Act.quiet_note _).bind fun _ => Act.quiet_fail f
  rw [runMember]
  dsimp only
  split
  · exact (hrefuse _).atomic
  · split
    · exact (hrefuse _).atomic
    · next file settings slot hfirst =>
      refine Act.atomic_load hh (hfile file settings slot hfirst) fun exported hexported => ?_
      split
      · exact (hrefuse _).atomic
      · have hsettings : ∀ fill, Quiet states (modify fun s =>
            { s with document := s.document.mapSettings slot fill } : Act σ Unit) :=
          fun _ _ hs => .of_eq rfl rfl hs rfl
        refine (hsettings _).atomic_bind fun _ => ?_
        split
        · split
          · exact ((Act.quiet_note _).bind fun _ => Act.quiet_fail _).atomic
          · exact (Act.quiet_fail _).atomic
        · next m hm =>
          have hmember : m.Solitary := hexported.of_leads (Value.leads_of_follow hm)
          have hget : Quiet states (get : Act σ (Session σ)) := fun _ hs => .of_eq rfl rfl hs rfl
          refine hget.atomic_bind fun s => Quiet.atomic_bind ?_ fun r => ?_
          · refine Quiet.inFrame ?_ _
            split
            · exact (Act.quiet_scripting hh _).callWithSettings _ _ fun _ => hmember
            · exact Act.quiet_pure _
          · intro s t f _ h
            cases h

end Choicebook
