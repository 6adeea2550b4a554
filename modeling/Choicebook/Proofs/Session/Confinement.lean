import Choicebook.Proofs.Session.Solitude
import Choicebook.Proofs.Session.Uniform

/-!
# Scripts and the choices that they call

A script either keeps to itself, so that nothing comes of it that would show in the shared
variables, or it calls a choice (`Act.Confined`). Which of the two it was can be told from the
record: a choice is called before any command begins or ends (`Session.Invokes`).
-/

namespace Choicebook

variable {σ : Type}

/-! ### Calls of choices -/

/-- Whether a choice is called, or refused because no more choices may run inside of each other. -/
def Mark.isCall : Mark → Bool
  | .called _ => true
  | .failed (.tooDeep ..) => true
  | _ => false

/-- Between two states a choice was called, and no command had begun or ended before that. -/
def Session.Invokes (s t : Session σ) : Prop :=
  ∃ later m added, t.trail = later ++ m :: (added ++ s.trail) ∧ m.mark.isCall = true ∧
    ∀ m ∈ added, m.mark.isBound = false

namespace Session

variable {states : σ → Prop} {s t u : Session σ}

theorem Quiet.grows (h : s.Quiet states t) : s.trail <:+ t.trail := by
  obtain ⟨new, ht, -⟩ := h.trail
  exact ⟨new, ht.symm⟩

theorem Invokes.grows (h : s.Invokes t) : s.trail <:+ t.trail := by
  obtain ⟨later, m, added, ht, -⟩ := h
  exact ⟨later ++ m :: added, by rw [ht, List.append_assoc, List.cons_append]⟩

theorem Invokes.of_grows (h : s.Invokes t) (g : t.trail <:+ u.trail) : s.Invokes u := by
  obtain ⟨later, m, added, ht, hm⟩ := h
  obtain ⟨more, hu⟩ := g
  exact ⟨more ++ later, m, added, by rw [← hu, ht, List.append_assoc], hm⟩

theorem Quiet.invokes (h : s.Quiet states t) (g : t.Invokes u) : s.Invokes u := by
  obtain ⟨new, ht, hnew⟩ := h.trail
  obtain ⟨later, m, added, hu, hm, hadded⟩ := g
  refine ⟨later, m, added ++ new, by rw [hu, ht, List.append_assoc], hm, fun q hq => ?_⟩
  exact (List.mem_append.mp hq).elim (hadded q) (hnew q)

end Session

namespace Act

variable {α β : Type} {host : Host σ} {execute : Placed → Act σ Unit}

/-- The act of a script: nothing comes of it that would show in the shared variables, or a choice is
called. -/
def Confined (a : Act σ α) : Prop :=
  ∀ s : Session σ, s.Quiet (fun _ => True) (a.runOn s).2 ∨ s.Invokes (a.runOn s).2

theorem Quiet.confined {a : Act σ α} (h : Quiet (fun _ => True) a) : Confined a :=
  fun s => .inl (h s trivial)

theorem Confined.grows {a : Act σ α} (h : Confined a) : a.Grows :=
  fun s => (h s).elim Session.Quiet.grows Session.Invokes.grows

/-- Two steps after each other, of which the first one may have called a choice. -/
private theorem confined_trans {s t u : Session σ}
    (h : s.Quiet (fun _ => True) t ∨ s.Invokes t) (g : t.Quiet (fun _ => True) u ∨ t.Invokes u) :
    s.Quiet (fun _ => True) u ∨ s.Invokes u := by
  rcases h with h | h
  · exact g.imp h.trans h.invokes
  · exact .inr (h.of_grows (g.elim Session.Quiet.grows Session.Invokes.grows))

theorem Confined.bind {a : Act σ α} {f : α → Act σ β} (ha : Confined a)
    (hf : ∀ x, Confined (f x)) : Confined (a >>= f) := fun s =>
  runOn_bind_keeps (P := fun t => s.Quiet (fun _ => True) t ∨ s.Invokes t) (ha s) fun x t ht =>
    confined_trans ht (hf x t)

theorem Confined.rescue {a : Act σ α} {carryOn : Fault → Act σ α} (ha : Confined a)
    (hc : ∀ f, Confined (carryOn f)) : Confined (Act.rescue a carryOn) := by
  intro s
  have hrun := ha s
  rw [runOn_rescue]
  generalize a.runOn s = run at hrun ⊢
  obtain ⟨f | x, t⟩ := run
  · rw [proceed_error]
    split
    · exact hrun
    · exact confined_trans hrun (confined_trans (.inl (t.quiet_remember rfl)) (hc f _))
  · exact hrun

theorem confined_framed : Framed (σ := σ) fun {α} (a _ : Act σ α) => a.Confined where
  pure x := (quiet_pure x).confined
  bind := Confined.bind
  read _ h := fun s => h s s
  fail _ := (quiet_fail _).confined
  note e := (quiet_note e).confined
  changeFrame _ := (quiet_changeFrame _).confined

/-- The act calls a choice before a command begins or ends. -/
def Invokes (a : Act σ α) : Prop :=
  ∀ s : Session σ, s.Invokes (a.runOn s).2

theorem Invokes.bind {a : Act σ α} {f : α → Act σ β} (ha : Invokes a) (hf : ∀ x, (f x).Grows) :
    Invokes (a >>= f) := fun s =>
  runOn_bind_keeps (P := s.Invokes) (ha s) fun x t ht => ht.of_grows (hf x t)

theorem Invokes.after {a : Act σ α} {m : Mark} (hm : m.isBound = false) (ha : Invokes a) :
    Invokes (remember m >>= fun _ => a) := fun s =>
  (s.quiet_remember hm).invokes (ha (s.remember m))

theorem invokes_enter (hd : host.Discreet) (hexec : ∀ p, Invokes (execute p)) (p : Placed) :
    Invokes (Call.enter execute p) := by
  have u := grows_uniform hd.trail
  rw [Call.enter]
  refine .after rfl ((hexec p).bind fun _ => Grows.bind u.signals.takePending fun pending => ?_)
  refine Grows.bind (u.edit (.shared (f := fun _ _ => []) fun _ _ _ => Entries.distinct_nil))
    fun _ => Grows.bind (grows_remember _) fun _ => ?_
  split
  · exact u.throw _
  · exact u.pure _

/-- What a script hands over is shared before the choice is called. -/
theorem confined_callChoice (hd : host.Discreet) (hexec : ∀ p, Invokes (execute p)) (name : String)
    (vars : Value) : Confined (Call.runChoice execute name vars) := by
  intro s
  rw [Call.runChoice, runOn_get_bind]
  cases Placed.withName? s.document (.text name) with
  | none => exact ((quiet_note _).bind fun _ => quiet_fail _).confined s
  | some p =>
    have henter := invokes_enter hd hexec p
    dsimp only
    rw [Call.handOver]
    split
    · cases vars.toEntries with
      | error f => exact (quiet_fail (α := Unit) f).confined s
      | ok extra => exact .inr (henter { s with shared := s.shared.update extra })
    · exact .inr (henter s)

theorem confined_scripting (hh : host.Reserved fun _ => True) (hexec : ∀ p, Invokes (execute p)) :
    Scripting host execute execute False fun {α} (a _ : Act σ α) => a.Confined where
  toFramed := confined_framed
  rescue := Confined.rescue
  ask e _ ha _ := (quiet_ask hh e ha).confined
  callChoice _ := confined_callChoice hh.toDiscreet hexec

theorem confined_loads (hh : host.Reserved fun _ => True) (path : String) :
    Scripting.Loads host False (fun {α} (a _ : Act σ α) => a.Confined) path where
  bind h := (quiet_ask hh _ (.loadScript path)).confined.bind fun v => h v nofun

end Act

/-- A choice is called before anything else happens, if it is not refused. -/
theorem Choice.invokes_executeAt {host : Host σ} (hd : host.Discreet) (levels : Nat) (p : Placed) :
    Act.Invokes (Choice.executeAt host levels p) := by
  intro s
  cases levels with
  | zero => exact ⟨[], _, [], rfl, rfl, List.forall_mem_nil _⟩
  | succ levels =>
    have u := Act.grows_uniform hd.trail
    have hgrow := u.surroundings.afterCall u.compatible (fun _ => Act.grows_remember _)
      (fun c _ h => h.deeper c) (u.comparison (grows_executeAt hd.trail levels))
      (grows_executeAt hd.trail levels) p (s.remember (.called p.choice))
    obtain ⟨later, hlater⟩ := hgrow
    exact ⟨later, s.moment (.called p.choice), [], hlater.symm, rfl, List.forall_mem_nil _⟩

end Choicebook
