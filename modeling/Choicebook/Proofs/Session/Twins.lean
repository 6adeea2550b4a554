import Choicebook.Proofs.Session.Failure
import Choicebook.Proofs.Session.Impartial
import Choicebook.Proofs.Session.Unfolding
import Choicebook.Proofs.Session.Uniform

/-!
# Two sessions side by side

One session runs a command that has a macro of its own, the other one runs the commands of that
macro instead. `Inlining` says which command that is, and `Inlining.Twins` what the two sessions
have in common all the time: documents that are the same up to unfolding, the same shared variables,
and the same calls of the host so far. The first one may be deeper in choices than the second.
`Inlining.Inside` is what they have in common while a macro runs. There the variables of the macro
are the same, too, and every shared variable is among them.

The order of variables does not count. The nested macro starts with the order that the shared
variables are in, and the macro around it may have another one.

Whatever a script does from states that are `Inside`, it does in both sessions, and they are
`Inside` afterwards (`Inlining.lockstep`).
-/

namespace Choicebook

variable {σ : Type}

/-! ### Two runs -/

/-- How two runs end: both with a result or both with a fault. -/
inductive Ended {α β : Type} (E : Fault → Fault → Prop) (ok : α → Session σ → β → Session σ → Prop)
    (error : Session σ → Session σ → Prop) :
    Except Fault α × Session σ → Except Fault β × Session σ → Prop where
  | ok {x : α} {y : β} {u v : Session σ} (h : ok x u y v) : Ended E ok error (.ok x, u) (.ok y, v)
  | error {f g : Fault} {u v : Session σ} (hf : E f g) (h : error u v) :
    Ended E ok error (.error f, u) (.error g, v)

/-! ### Calls of the host -/

/-- Since two moments of the past, the host has been asked for the same on both trails. -/
def Abreast (past past' trail trail' : List Moment) : Prop :=
  ∃ new new', trail = new ++ past ∧ trail' = new' ++ past' ∧
    List.Forall₂ Event.Alike (requests new) (requests new')

namespace Abreast

variable {past past' trail trail' : List Moment} {m n : Moment}

theorem start (past past' : List Moment) : Abreast past past' past past' :=
  ⟨[], [], rfl, rfl, .nil⟩

theorem left (h : Abreast past past' trail trail') (hm : m.mark.asked? = none) :
    Abreast past past' (m :: trail) trail' := by
  obtain ⟨new, new', rfl, hnew', hall⟩ := h
  refine ⟨m :: new, new', rfl, hnew', ?_⟩
  rw [requests, List.filterMap_cons, hm]
  exact hall

theorem right (h : Abreast past past' trail trail') (hn : n.mark.asked? = none) :
    Abreast past past' trail (n :: trail') := by
  obtain ⟨new, new', hnew, rfl, hall⟩ := h
  refine ⟨new, n :: new', hnew, rfl, ?_⟩
  rw [requests, requests, List.filterMap_cons, hn]
  exact hall

theorem asked (h : Abreast past past' trail trail') {e e' : Event} (he : e.Alike e')
    (hm : m.mark = .asked e) (hn : n.mark = .asked e') :
    Abreast past past' (m :: trail) (n :: trail') := by
  obtain ⟨new, new', rfl, rfl, hall⟩ := h
  refine ⟨m :: new, n :: new', rfl, rfl, ?_⟩
  rw [requests, requests, List.filterMap_cons, List.filterMap_cons, hm, hn]
  exact .cons he hall

end Abreast

/-! ### The moments at which a command can be unfolded -/

/-- What a moment has to be like where a command is unfolded. -/
structure Moment.Permits (host : Host σ) (states : σ → Prop) (limit : Nat) (c : Command)
    (m : Moment) : Prop where
  /-- The nesting limit is not reached. -/
  called : ∀ x, m.mark = .called x → m.depth < limit
  /-- When the command begins, its macro has the variables that are shared. -/
  started : ∀ owner, m.mark = .started owner c →
    ∀ name, m.frame.field? name = m.shared.field? name
  loaded : ∀ path, m.mark = .asked (.load path) → host.Gentle states path
  template : ∀ name payload vars, m.mark = .asked (.template name payload vars) →
    host.Naming payload
  capture : ∀ name payload vars, m.mark = .asked (.capture name payload vars) →
    host.Naming payload

/-- A command that is unfolded in the second of two sessions, each with its past. -/
structure Inlining (σ : Type) where
  host : Host σ
  states : σ → Prop
  limit : Nat
  command : Command
  body : List Command
  past : List Moment
  past' : List Moment

namespace Inlining

/-- The command can be unfolded at all moments since the past. -/
def Permitted (i : Inlining σ) (trail : List Moment) : Prop :=
  ∀ new, trail = new ++ i.past → ∀ m ∈ new, m.Permits i.host i.states i.limit i.command

theorem Permitted.mono {i : Inlining σ} {earlier trail : List Moment} (h : i.Permitted trail)
    (he : earlier <:+ trail) : i.Permitted earlier := by
  obtain ⟨later, rfl⟩ := he
  rintro new rfl m hm
  exact h (later ++ new) (List.append_assoc _ _ _).symm m (List.mem_append_right _ hm)

/-- The command can be unfolded at a moment after the past, in particular. -/
theorem Permitted.moment {i : Inlining σ} {m : Moment} {trail earlier other : List Moment}
    (h : i.Permitted trail) (hm : m :: earlier <:+ trail)
    (habreast : Abreast i.past i.past' earlier other) :
    m.Permits i.host i.states i.limit i.command := by
  obtain ⟨new, _, hnew, -⟩ := habreast
  exact h.mono hm (m :: new) (congrArg (m :: ·) hnew) m List.mem_cons_self

/-! ### States side by side -/

/-- What two sessions have in common, the one `d` and the other one `e` choices deep. -/
structure Twins (i : Inlining σ) (d e : Nat) (s t : Session σ) : Prop where
  config : t.config = s.config
  limit : s.config.maxDepth = i.limit
  document : s.document.Unfolds i.command i.body t.document
  shared : s.shared.Alike t.shared
  host : t.host = s.host
  states : i.states s.host
  depth : s.depth = d
  depth' : t.depth = e
  deeper : e ≤ d
  /-- Both are in the outermost choice or neither is. -/
  outermost : e = 0 → d = 0
  abreast : Abreast i.past i.past' s.trail t.trail

/-- What two sessions have in common outside of macros: the variables of the macro around are left
alone in both. -/
structure Outside (i : Inlining σ) (vars vars' : Entries) (signal : Option String) (d e : Nat)
    (s t : Session σ) : Prop extends i.Twins d e s t where
  frame : s.frame = vars
  frame' : t.frame = vars'
  pending : s.pending = signal
  pending' : t.pending = signal

/-- What two sessions have in common inside of a macro. The names of `kept` are among its
variables. -/
structure Inside (i : Inlining σ) (kept : Entries) (d e : Nat) (s t : Session σ) : Prop
    extends i.Twins d e s t where
  frame : s.frame.Alike t.frame
  covers : s.frame.Covers s.shared
  kept : s.frame.Covers kept
  pending : s.pending = none
  pending' : t.pending = none
  inside : 0 < e

variable {i : Inlining σ} {kept : Entries} {d e : Nat} {s t : Session σ}

theorem Twins.remember (h : i.Twins d e s t) {m n : Mark} (hm : m.asked? = none)
    (hn : n.asked? = none) : i.Twins d e (s.remember m) (t.remember n) :=
  { h with abreast := (h.abreast.left (m := s.moment m) hm).right (n := t.moment n) hn }

theorem Twins.rememberLeft (h : i.Twins d e s t) {m : Mark} (hm : m.asked? = none) :
    i.Twins d e (s.remember m) t :=
  { h with abreast := h.abreast.left (m := s.moment m) hm }

theorem Inside.remember (h : i.Inside kept d e s t) {m n : Mark} (hm : m.asked? = none)
    (hn : n.asked? = none) : i.Inside kept d e (s.remember m) (t.remember n) :=
  { h with toTwins := h.toTwins.remember hm hn }

/-- The variables of the macro become others. -/
theorem Inside.changeFrame (h : i.Inside kept d e s t) {frame frame' : Entries}
    (hframe : frame.Alike frame') (hcovers : frame.Covers s.frame) :
    i.Inside kept d e { s with frame := frame } { t with frame := frame' } :=
  { h with
    frame := hframe
    covers := hcovers.trans h.covers
    kept := hcovers.trans h.kept }

/-! ### Scripts side by side -/

/-- Two acts that a macro does in the two sessions end in the same way, if they are related by
`E`. -/
def Alongside (i : Inlining σ) (kept : Entries) (d e : Nat) (E : Fault → Fault → Prop) {α : Type}
    (a b : Act σ α) : Prop :=
  ∀ s t, i.Inside kept d e s t →
    Ended E (fun x u y v => x = y ∧ i.Inside kept d e u v) (i.Inside kept d e) (a.runOn s)
      (b.runOn t)

variable {E : Fault → Fault → Prop} {α β : Type}

theorem Alongside.bind {a b : Act σ α} {f g : α → Act σ β} (h : i.Alongside kept d e E a b)
    (hf : ∀ x, i.Alongside kept d e E (f x) (g x)) :
    i.Alongside kept d e E (a >>= f) (b >>= g) := by
  intro s t hst
  have hrun := h s t hst
  rw [Act.runOn_bind, Act.runOn_bind]
  generalize a.runOn s = run at hrun ⊢
  generalize b.runOn t = run' at hrun ⊢
  cases hrun with
  | ok h =>
    obtain ⟨rfl, huv⟩ := h
    exact hf _ _ _ huv
  | error hfault huv => exact .error hfault huv

theorem alongside_fail {f g : Fault} (h : E f g) :
    i.Alongside kept d e E (Act.fail f : Act σ α) (Act.fail g) :=
  fun _ _ hst => .error h (hst.remember rfl rfl)

/-- What two hosts do side by side, as long as the shared variables remain under names. -/
theorem Twins.runOn (hi : i.host.Impartial i.states) (h : i.Twins d e s t) {a b : Act σ α}
    (hab : i.host.Counterparts a b) (ha : i.host.Offers a) (hb : i.host.Offers b)
    (hnamed : (a.runOn s).2.shared.Named) (hnamed' : (b.runOn t).2.shared.Named) :
    (b.runOn t).1 = (a.runOn s).1 ∧ i.Twins d e (a.runOn s).2 (b.runOn t).2 := by
  have hleft := hi.untouched ha s
  have hright := hi.untouched hb t
  obtain ⟨hresult, hhost, hshared⟩ := hi.agree hab s t h.states h.config h.shared h.host
  exact ⟨hresult, { h with
    config := by rw [hleft.config, hright.config, h.config]
    limit := by rw [hleft.config, h.limit]
    document := by rw [hleft.document, hright.document]; exact h.document
    shared := ⟨hnamed, hnamed', hshared⟩
    host := hhost
    states := hi.keeps ha s h.states
    depth := hleft.depth.trans h.depth
    depth' := hright.depth.trans h.depth'
    abreast := by rw [hleft.trail, hright.trail]; exact h.abreast }⟩

theorem Twins.asked (h : i.Twins d e s t) {event event' : Event} (he : event.Alike event') :
    i.Twins d e (s.remember (.asked event)) (t.remember (.asked event')) :=
  { h with abreast := h.abreast.asked he rfl rfl }

/-- If what the hosts do ends in the same way, then so does asking them for it. -/
theorem ended_ask [Std.Refl E] {R : Session σ → Session σ → Prop} {event event' : Event}
    {a b : Act σ α}
    (hresult : (b.runOn (t.remember (.asked event'))).1 = (a.runOn (s.remember (.asked event))).1)
    (hafter : R (a.runOn (s.remember (.asked event))).2 (b.runOn (t.remember (.asked event'))).2)
    (hfailed : ∀ f u v, R u v → R (u.remember (.failed f)) (v.remember (.failed f))) :
    Ended E (fun x u y v => x = y ∧ R u v) R ((Act.ask event a).runOn s)
      ((Act.ask event' b).runOn t) := by
  rw [Act.runOn_ask, Act.runOn_ask]
  generalize a.runOn (s.remember (.asked event)) = run at hresult hafter ⊢
  generalize b.runOn (t.remember (.asked event')) = run' at hresult hafter ⊢
  obtain ⟨f | x, u⟩ := run
  · obtain ⟨_, v⟩ := run'
    cases hresult
    exact .error (Std.Refl.refl f) (hfailed f u v hafter)
  · obtain ⟨_, v⟩ := run'
    cases hresult
    exact .ok ⟨rfl, hafter⟩

/-- Both hosts are asked inside of a macro, in the same way or in alike ways. -/
theorem alongside_ask (hi : i.host.Impartial i.states) [Std.Refl E] {event event' : Event}
    (hevent : event.Alike event') {a b : Act σ α} (hab : i.host.Counterparts a b)
    (ha : i.host.Serves a) (hb : i.host.Serves b) :
    i.Alongside kept d e E (Act.ask event a) (Act.ask event' b) := by
  intro s t hst
  have hleft := hi.untouched ha.offers (s.remember (.asked event))
  have hright := hi.untouched hb.offers (t.remember (.asked event'))
  have hshared := hi.shared ha (s.remember (.asked event))
  have hshared' := hi.shared hb (t.remember (.asked event'))
  obtain ⟨hresult, hafter⟩ := (hst.toTwins.asked hevent).runOn hi hab ha.offers hb.offers
    (hshared ▸ hst.shared.left) (hshared' ▸ hst.shared.right)
  refine ended_ask (R := i.Inside kept d e) hresult { hafter with
    frame := by rw [hleft.frame, hright.frame]; exact hst.frame
    covers := by rw [hleft.frame, hshared]; exact hst.covers
    kept := by rw [hleft.frame]; exact hst.kept
    pending := hleft.pending.trans hst.pending
    pending' := hright.pending.trans hst.pending'
    inside := hst.inside } fun _ _ _ h => h.remember rfl rfl

/-- Scripts do the same in both sessions. -/
theorem lockstep (hi : i.host.Impartial i.states) (kept : Entries) (d e : Nat) :
    Lockstep i.host (i.host.Gentle i.states) fun E {α} => i.Alongside (α := α) kept d e E where
  pure x := fun _ _ hst => .ok ⟨rfl, hst⟩
  bind := Alongside.bind
  read h := fun s t hst => h s t hst.frame hst.shared s t hst
  fail := alongside_fail
  note _ _ := fun _ _ hst => .ok ⟨rfl, { hst with }⟩
  ask _ _ ha := alongside_ask hi (.same _) (.same ha.offers) ha ha
  load := by
    intro E _ β path f g hpath h s t hst
    have hload := alongside_ask (E := E) hi (.same (.load path)) (.same (.loadScript path))
      (.loadScript path) (.loadScript path) s t hst
    rw [Act.runOn_bind, Act.runOn_bind]
    cases hrun : (Act.ask (.load path) (i.host.loadScript path)).runOn s with
    | mk r u =>
      rw [hrun] at hload
      generalize (Act.ask (.load path) (i.host.loadScript path)).runOn t = run at hload ⊢
      cases hload with
      | ok hok =>
        obtain ⟨rfl, huv⟩ := hok
        -- what is loaded is gentle, so that running it is the same in both
        have hgentle := hpath _ (s.remember (.asked (.load path))) u hst.states
          (Act.runOn_of_runOn_ask hrun)
        exact h _ hgentle _ _ huv
      | error hfault huv => exact .error hfault huv
  insert name v := fun s t hst => .ok ⟨rfl, hst.changeFrame (hst.frame.insert name v)
    ((Entries.Covers.refl _).insert name v)⟩
  rescue := by
    intro E _ α a b c c' h hc s t hst
    have hrun := h s t hst
    rw [Act.runOn_rescue, Act.runOn_rescue]
    generalize a.runOn s = run at hrun ⊢
    generalize b.runOn t = run' at hrun ⊢
    cases hrun with
    | ok h => exact .ok h
    | error hfault huv =>
      cases hfault
      rw [Act.proceed_error, Act.proceed_error]
      split
      · exact .error (Std.Refl.refl _) huv
      · exact hc _ _ _ (huv.remember rfl rfl)

end Inlining

end Choicebook
