import Choicebook.Proofs.Session.Surroundings

/-!
# Uniform relations

Some relations between acts make no difference between a macro and what is around it, nor between
one moment of the trail and another, as long as no choice begins there. For such a relation it is
enough to look at the plainest acts (`Uniform`): everything else that a session does is put together
from those. A uniform relation is a congruence, holds outside of macros, and carries over from the
choices that a macro runs to the macro.

A relation that changes with the depth or with the state of the host can still be uniform in other
respects (`Uniform.Within`). Then the two means that look at those have to be compared separately:
the end of a cancelled choice and the way through menus.
-/

namespace Choicebook

variable {σ : Type}

/-! ### Means that are put together from others -/

namespace Act

variable {α : Type}

theorem ext {a b : Act σ α} (h : ∀ s, a.runOn s = b.runOn s) : a = b := funext h

/-- How an act ends, whatever it ends in. A session does not look at faults that escape, but all of
its means that look at the others are put together from this one. -/
def settle (a : Act σ α) : Act σ (Except Fault α) := fun s => (.ok (a.runOn s).1, (a.runOn s).2)

@[simp]
theorem runOn_settle (a : Act σ α) (s : Session σ) :
    (settle a).runOn s = (.ok (a.runOn s).1, (a.runOn s).2) := rfl

theorem runOn_settle_bind {β : Type} (a : Act σ α) (f : Except Fault α → Act σ β) (s : Session σ) :
    (settle a >>= f).runOn s = (f (a.runOn s).1).runOn (a.runOn s).2 :=
  runOn_bind_ok (runOn_settle a s) f

theorem attempt_eq (a : Act σ α) :
    attempt a = settle a >>= fun r => match r with
      | .ok x => pure (.ok x)
      | .error f => if f.escapes then throw f else pure (.error f) := by
  refine ext fun s => ?_
  rw [runOn_attempt, runOn_settle_bind]
  rcases a.runOn s with ⟨f | x, t⟩
  · dsimp only [proceed_error]
    split <;> rfl
  · rfl

/-- Carrying on after a failure is looking at how the act has ended. -/
theorem rescue_eq (a : Act σ α) (carryOn : Fault → Act σ α) :
    rescue a carryOn = settle a >>= fun r => match r with
      | .ok x => pure x
      | .error f =>
        if f.escapes then throw f else remember (.caught f) >>= fun _ => carryOn f := by
  refine ext fun s => ?_
  rw [runOn_rescue, runOn_settle_bind]
  rcases a.runOn s with ⟨f | x, t⟩
  · dsimp only [proceed_error]
    split <;> rfl
  · rfl

/-- Asking the host is, too: the trail shows where it has failed. -/
theorem ask_eq (e : Event) (a : Act σ α) :
    ask e a = remember (.asked e) >>= fun _ => settle a >>= fun r => match r with
      | .ok x => pure x
      | .error f => fail f := by
  refine ext fun s => ?_
  rw [runOn_ask, runOn_remember_bind, runOn_settle_bind]
  rcases a.runOn (s.remember (.asked e)) with ⟨_ | _, t⟩ <;> rfl

end Act

/-! ### Uniform relations -/

/-- The changes that the means of a session make to its state, other than to the trail. Maps without
repeated keys remain such. -/
inductive Session.Edit : (Session σ → Session σ) → Prop where
  | note (e : Event) : Edit (·.note e)
  | frame {f : Entries → Entries} (hf : ∀ m : Entries, m.Distinct → (f m).Distinct) :
    Edit fun s => { s with frame := f s.frame }
  | shared {f : Entries → Entries → Entries}
    (hf : ∀ frame shared : Entries, shared.Distinct → (f frame shared).Distinct) :
    Edit fun s => { s with shared := f s.frame s.shared }
  | pending (reason : Option String) : Edit fun s => { s with pending := reason }
  | renew (vars : Entries) :
    Edit fun s => { s with shared := Entries.update [] vars, pending := none }
  | settings (slot : Nat) (fill : Entries → Entries) :
    Edit fun s => { s with document := s.document.mapSettings slot fill }

/-- Whether a mark stands for anything else than a choice. -/
def Mark.Plain : Mark → Prop
  | .called _ | .entered _ => False
  | _ => True

/-- A relation between acts that is the same at every place of a session, where this may depend on
the depth and on the state of the host. -/
structure Uniform.Within (host : Host σ) (R : ∀ {α : Type}, Act σ α → Act σ α → Prop) : Prop where
  pure : ∀ {α : Type} (x : α), R (pure x : Act σ α) (pure x)
  bind : ∀ {α β : Type} {a b : Act σ α} {f g : α → Act σ β}, R a b → (∀ x, R (f x) (g x)) →
    R (a >>= f) (b >>= g)
  read : ∀ {β : Type} {f g : Session σ → Act σ β},
    (∀ s t, Session.Akin s t → f s = f t ∧ g s = g t) → (∀ s, R (f s) (g s)) →
    R (get >>= f) (get >>= g)
  throw : ∀ {α : Type} (f : Fault), R (throw f : Act σ α) (throw f)
  settle : ∀ {α : Type} {a b : Act σ α}, R a b → R (Act.settle a) (Act.settle b)
  inFrame : ∀ {α : Type} (vars : Entries) {a b : Act σ α}, R a b →
    R (Act.inFrame vars a) (Act.inFrame vars b)
  edit : ∀ {g : Session σ → Session σ}, Session.Edit g → R (modify g : Act σ Unit) (modify g)
  remember : ∀ {m : Mark}, m.Plain → R (Act.remember m : Act σ Unit) (Act.remember m)
  offers : ∀ {α : Type} {a : Act σ α}, host.Offers a → R a a

/-- A relation between acts that is the same at every place of a session. -/
structure Uniform (host : Host σ) (R : ∀ {α : Type}, Act σ α → Act σ α → Prop) : Prop
    extends Uniform.Within host R where
  look : ∀ {β : Type} {f g : Session σ → Act σ β},
    (∀ s t, Session.Agree s t → f s = f t ∧ g s = g t) → (∀ s, R (f s) (g s)) →
    R (get >>= f) (get >>= g)
  read := fun h => look fun s t hst => h s t hst.akin

namespace Uniform.Within

variable {host : Host σ} {R : ∀ {α : Type}, Act σ α → Act σ α → Prop}

theorem fail (u : Within host R) {α : Type} (f : Fault) :
    R (Act.fail f : Act σ α) (Act.fail f) :=
  u.bind (u.remember trivial) fun _ => u.throw f

theorem ask (u : Within host R) {α : Type} (e : Event) {a : Act σ α} (ha : host.Offers a) :
    R (Act.ask e a) (Act.ask e a) := by
  rw [Act.ask_eq]
  refine u.bind (u.remember trivial) fun _ => u.bind (u.settle (u.offers ha)) fun r => ?_
  cases r with
  | ok x => exact u.pure x
  | error f => exact u.fail f

theorem attempt (u : Within host R) {α : Type} {a b : Act σ α} (h : R a b) :
    R (Act.attempt a) (Act.attempt b) := by
  rw [Act.attempt_eq, Act.attempt_eq]
  refine u.bind (u.settle h) fun r => ?_
  cases r with
  | ok x => exact u.pure _
  | error f =>
    dsimp only
    split
    · exact u.throw f
    · exact u.pure _

theorem congruence (u : Within host R) : Act.Congruence R where
  pure := u.pure
  bind := u.bind
  read := u.read
  fail _ := u.fail _
  note e := u.edit (.note e)
  updateShared extra := u.edit (.shared (f := fun _ shared => shared.update extra)
    fun _ _ h => h.update extra)
  changeFrame hg := u.edit (.frame hg)
  rescue := by
    intro α a b c d h hc
    rw [Act.rescue_eq, Act.rescue_eq]
    refine u.bind (u.settle h) fun r => ?_
    cases r with
    | ok x => exact u.pure x
    | error f =>
      dsimp only
      split
      · exact u.throw f
      · exact u.bind (u.remember trivial) fun _ => hc f

theorem signals (u : Within host R) : Act.Signals R where
  toRegular := u.congruence.toRegular
  throw := u.throw
  setPending reason := u.edit (.pending reason)
  consumed _ := u.remember trivial

/-- What is left are the two means that look at the depth and at the host. -/
theorem surroundings (u : Within host R)
    (hcancel : ∀ (c : Choice) (preset reason : String),
      R (Act.recordCancellation host c preset reason) (Act.recordCancellation host c preset reason))
    (hbrowse : ∀ m : Menu, R (m.browse host) (m.browse host)) : Surroundings host R R where
  toSignals := u.signals
  ask e _ ha _ := u.ask e ha.offers
  attempt := u.attempt
  inFrame := u.inFrame
  recordCancellation := hcancel
  browse := hbrowse

theorem pushFrame (u : Within host R) : R (Act.pushFrame : Act σ Unit) Act.pushFrame :=
  u.edit (.shared (f := fun frame shared => shared.update frame) fun frame _ h => h.update frame)

/-- What holds between two ways of running choices holds between the macros that run them so. -/
theorem comparison (u : Within host R) {execute other : Placed → Act σ Unit}
    (hexec : ∀ p, R (execute p) (other p)) : Comparison host execute other R where
  toCongruence := u.congruence
  ask e _ ha _ := u.ask e ha
  enterChoice p := u.signals.enterChoice execute other (u.remember trivial)
    (u.edit (.shared (f := fun _ _ => []) fun _ _ _ => Entries.distinct_nil))
    (u.remember trivial) (hexec p)
  step _ c _ _ h := u.congruence.step _ _ rfl c none (u.remember trivial) u.pushFrame
    (u.remember trivial) h
  wait _ _ time := u.congruence.step _ _ rfl _ none (u.remember trivial) u.pushFrame
    (u.remember trivial) (u.bind (u.congruence.pause (u.fail _) rfl (Running.seconds time))
      fun _ => u.pure none)
  enter _ c p := u.congruence.step _ _ rfl c (some p) (u.remember trivial) u.pushFrame
    (u.remember trivial) (u.bind (u.bind (hexec p) fun _ =>
      u.bind u.signals.raisePending fun _ => u.congruence.pullFrame) fun _ => u.pure none)

end Uniform.Within

namespace Uniform

variable {host : Host σ} {R : ∀ {α : Type}, Act σ α → Act σ α → Prop}

theorem compatible (u : Uniform host R) : Act.Compatible R where
  toRegular := u.congruence.toRegular
  look := u.look

theorem surroundings (u : Uniform host R) : Surroundings host R R :=
  u.toWithin.surroundings
    (u.signals.recordCancellation u.compatible (fun _ _ => u.remember trivial)
      fun text => u.ask _ (.notify text))
    (u.compatible.browse fun _ _ _ => u.ask _ (.suggest _ _ _))

/-- What a choice does, compared with itself. -/
theorem perform (u : Uniform host R) {execute : Placed → Act σ Unit}
    (hexec : ∀ p, R (execute p) (execute p)) (p : Placed) :
    R (Choice.perform host (Menu.browse host) execute p)
      (Choice.perform host (Menu.browse host) execute p) :=
  u.surroundings.perform (u.comparison hexec) u.surroundings.browse hexec p

section

variable (u : Uniform host R) (hmark : ∀ m : Mark, R (Act.remember m : Act σ Unit) (Act.remember m))
  (hdeeper : ∀ (c : Choice) {a : Act σ Unit}, R a a → R (Act.deeper c a) (Act.deeper c a))

include u hmark hdeeper

/-- Choices compared with themselves, if the relation holds at all moments and does not depend on
the level. -/
theorem executeAt (levels : Nat) (p : Placed) :
    R (Choice.executeAt host levels p) (Choice.executeAt host levels p) := by
  induction levels generalizing p with
  | zero => exact u.surroundings.refuse p
  | succ levels ih =>
    exact u.surroundings.executeOnce u.compatible (fun _ => hmark _) (fun _ => hmark _) hdeeper
      (u.comparison ih) ih p

theorem execute (p : Placed) : R (Choice.execute host p) (Choice.execute host p) :=
  u.look (fun _ _ h => by simp only [h.depth, h.config, and_self]) fun _ =>
    u.executeAt hmark hdeeper _ p

end

end Uniform

/-! ### Trails grow -/

/-- The act takes nothing away from the trail. -/
def Act.Grows {α : Type} (a : Act σ α) : Prop :=
  ∀ s : Session σ, s.trail <:+ (a.runOn s).2.trail

theorem Act.Grows.bind {α β : Type} {a : Act σ α} {f : α → Act σ β} (ha : a.Grows)
    (hf : ∀ x, (f x).Grows) : (a >>= f).Grows :=
  fun s => Act.runOn_bind_keeps (P := fun t => s.trail <:+ t.trail) (ha s)
    fun x t ht => ht.trans (hf x t)

theorem Act.grows_pure {α : Type} (x : α) : (pure x : Act σ α).Grows := fun _ => List.suffix_rfl

theorem Act.grows_remember (m : Mark) : (Act.remember m : Act σ Unit).Grows :=
  fun _ => List.suffix_cons _ _

/-- Nothing that a session does takes anything away, if the host leaves the trail alone. -/
theorem Act.grows_uniform {host : Host σ} (htrail : ∀ {α : Type} {a : Act σ α}, host.Offers a →
    ∀ s, (a.runOn s).2.trail = s.trail) : Uniform host fun {α} (a _ : Act σ α) => a.Grows where
  pure := Act.grows_pure
  bind := Act.Grows.bind
  look _ h := fun s => h s s
  throw _ := fun _ => List.suffix_rfl
  settle h := h
  inFrame vars a _ h := fun s => by
    rw [Act.runOn_inFrame_snd]
    exact h { s with frame := Entries.update [] vars }
  edit hg := fun _ => by cases hg <;> exact List.suffix_rfl
  remember _ := Act.grows_remember _
  offers ha := fun s => htrail ha s ▸ List.suffix_rfl

theorem Act.Grows.deeper {a : Act σ Unit} (ha : a.Grows) (c : Choice) :
    (Act.deeper c a).Grows := fun s => by
  rw [Act.runOn_deeper]
  exact ha (s.enter c)

/-- A choice takes nothing away from the trail. -/
theorem Choice.grows_executeAt {host : Host σ} (htrail : ∀ {α : Type} {a : Act σ α},
    host.Offers a → ∀ s, (a.runOn s).2.trail = s.trail) (levels : Nat) (p : Placed) :
    (Choice.executeAt host levels p).Grows :=
  (Act.grows_uniform htrail).executeAt Act.grows_remember (fun c _ h => h.deeper c) levels p

end Choicebook
