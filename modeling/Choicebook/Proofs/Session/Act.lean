import Choicebook.Session.Basic

/-!
# Runs of acts

What a run of each of the means of a session does to the state, as an equation for `Act.runOn`. The
later modules argue about runs through these equations only and do not open the monad.

An act that is put together from two runs the first and then, unless that fails, the second
(`Act.runOn_bind`). What is kept by both is kept by the whole (`Act.runOn_bind_keeps`), and two such
acts are compared part by part (`Act.runOn_bind_alike`). Everything else is an equation with one
line on the right.
-/

namespace Choicebook

variable {σ : Type}

namespace Session

/-! ### The state after a moment -/

@[simp]
theorem remember_trail (s : Session σ) (m : Mark) :
    (s.remember m).trail = s.moment m :: s.trail := rfl

@[simp]
theorem moment_mark (s : Session σ) (m : Mark) : (s.moment m).mark = m := rfl

@[simp]
theorem remember_shared (s : Session σ) (m : Mark) : (s.remember m).shared = s.shared := rfl

@[simp]
theorem remember_frame (s : Session σ) (m : Mark) : (s.remember m).frame = s.frame := rfl

@[simp]
theorem remember_pending (s : Session σ) (m : Mark) : (s.remember m).pending = s.pending := rfl

@[simp]
theorem remember_depth (s : Session σ) (m : Mark) : (s.remember m).depth = s.depth := rfl

@[simp]
theorem remember_config (s : Session σ) (m : Mark) : (s.remember m).config = s.config := rfl

@[simp]
theorem remember_running (s : Session σ) (m : Mark) : (s.remember m).running = s.running := rfl

end Session

namespace Act

variable {α β : Type}

/-! ### Composition -/

@[simp]
theorem proceed_ok {γ : Type} (x : α) (t : Session σ) (f : α → Session σ → γ)
    (g : Fault → Session σ → γ) : proceed (.ok x, t) f g = f x t := rfl

@[simp]
theorem proceed_error {γ : Type} (e : Fault) (t : Session σ) (f : α → Session σ → γ)
    (g : Fault → Session σ → γ) : proceed (.error e, t) f g = g e t := rfl

@[simp]
theorem runOn_pure (x : α) (s : Session σ) : (pure x : Act σ α).runOn s = (.ok x, s) := rfl

theorem runOn_bind (a : Act σ α) (f : α → Act σ β) (s : Session σ) :
    (a >>= f).runOn s =
      proceed (a.runOn s) (fun x t => (f x).runOn t) fun e t => (.error e, t) := by
  change StateT.run (ExceptT.bindCont f (a.runOn s).1) (a.runOn s).2 = _
  rcases a.runOn s with ⟨_ | x, t⟩ <;> rfl

/-- After an act that does not fail, the run is that of what comes next. -/
theorem runOn_bind_ok {a : Act σ α} {s t : Session σ} {x : α} (h : a.runOn s = (.ok x, t))
    (f : α → Act σ β) : (a >>= f).runOn s = (f x).runOn t := by
  rw [runOn_bind, h, proceed_ok]

/-- A fault ends the run. -/
theorem runOn_bind_error {a : Act σ α} {s t : Session σ} {e : Fault}
    (h : a.runOn s = (.error e, t)) (f : α → Act σ β) : (a >>= f).runOn s = (.error e, t) := by
  rw [runOn_bind, h, proceed_error]

/-- If there is a result in the end, there was one before. -/
theorem exists_of_runOn_bind {a : Act σ α} {f : α → Act σ β} {s u : Session σ} {y : β}
    (h : (a >>= f).runOn s = (.ok y, u)) :
    ∃ x t, a.runOn s = (.ok x, t) ∧ (f x).runOn t = (.ok y, u) := by
  rw [runOn_bind] at h
  generalize a.runOn s = run at h ⊢
  obtain ⟨e | x, t⟩ := run
  · cases h
  · exact ⟨x, t, rfl, h⟩

/-- Two runs with the same result go on with the same. -/
theorem runOn_bind_alike {a b : Act σ α} {f g : α → Act σ β} {s t : Session σ}
    {Q : Except Fault β × Session σ → Except Fault β × Session σ → Prop}
    (hresult : (a.runOn s).1 = (b.runOn t).1)
    (hok : ∀ x, Q ((f x).runOn (a.runOn s).2) ((g x).runOn (b.runOn t).2))
    (herror : ∀ e, Q (.error e, (a.runOn s).2) (.error e, (b.runOn t).2)) :
    Q ((a >>= f).runOn s) ((b >>= g).runOn t) := by
  rw [runOn_bind, runOn_bind]
  generalize a.runOn s = run at hresult hok herror ⊢
  generalize b.runOn t = run' at hresult hok herror ⊢
  obtain ⟨x, u⟩ := run
  obtain ⟨x', w⟩ := run'
  obtain rfl : x = x' := hresult
  cases x with
  | error e => exact herror e
  | ok x => exact hok x

/-- What an act leaves behind, and what comes next keeps, is so after both. -/
theorem runOn_bind_keeps {P : Session σ → Prop} {a : Act σ α} {f : α → Act σ β} {s : Session σ}
    (ha : P (a.runOn s).2) (hf : ∀ x t, P t → P ((f x).runOn t).2) :
    P ((a >>= f).runOn s).2 := by
  rw [runOn_bind]
  generalize a.runOn s = run at ha ⊢
  obtain ⟨e | x, t⟩ := run
  · exact ha
  · exact hf x t ha

@[simp]
theorem runOn_throw (e : Fault) (s : Session σ) :
    (throw e : Act σ α).runOn s = (.error e, s) := rfl

/-! ### The state -/

@[simp]
theorem runOn_get (s : Session σ) : (get : Act σ (Session σ)).runOn s = (.ok s, s) := rfl

@[simp]
theorem runOn_modify (g : Session σ → Session σ) (s : Session σ) :
    (modify g : Act σ Unit).runOn s = (.ok (), g s) := rfl

/-- Looking at the state first changes nothing. -/
@[simp]
theorem runOn_get_bind (f : Session σ → Act σ β) (s : Session σ) :
    ((get : Act σ (Session σ)) >>= f).runOn s = (f s).runOn s := rfl

/-- Changing the state first changes what the rest runs from. -/
@[simp]
theorem runOn_modify_bind (g : Session σ → Session σ) (f : Unit → Act σ β) (s : Session σ) :
    ((modify g : Act σ Unit) >>= f).runOn s = (f ()).runOn (g s) := rfl

@[simp]
theorem runOn_note (e : Event) (s : Session σ) : (note e).runOn s = (.ok (), s.note e) := rfl

@[simp]
theorem runOn_remember (m : Mark) (s : Session σ) :
    (remember m).runOn s = (.ok (), s.remember m) := rfl

@[simp]
theorem runOn_remember_bind (m : Mark) (f : Unit → Act σ β) (s : Session σ) :
    (remember m >>= f).runOn s = (f ()).runOn (s.remember m) := rfl

/-! ### Faults -/

@[simp]
theorem runOn_fail (e : Fault) (s : Session σ) :
    (fail e : Act σ α).runOn s = (.error e, s.remember (.failed e)) := rfl

/-- What comes after a failure does not matter. -/
theorem fail_bind (f : Fault) (g : α → Act σ β) : (fail f : Act σ α) >>= g = fail f :=
  funext fun _ => rfl

theorem runOn_expect_fst (x : Except Fault α) (s : Session σ) : ((expect x).runOn s).1 = x := by
  cases x <;> rfl

theorem runOn_expect_shared (x : Except Fault α) (s : Session σ) :
    ((expect x).runOn s).2.shared = s.shared := by
  cases x <;> rfl

theorem runOn_ask (e : Event) (a : Act σ α) (s : Session σ) :
    (ask e a).runOn s = proceed (a.runOn (s.remember (.asked e))) (fun x t => (.ok x, t))
      fun f t => (.error f, t.remember (.failed f)) := rfl

/-- What is asked for without a failure is what the host does. -/
theorem runOn_of_runOn_ask {e : Event} {a : Act σ α} {s t : Session σ} {x : α}
    (h : (ask e a).runOn s = (.ok x, t)) : a.runOn (s.remember (.asked e)) = (.ok x, t) := by
  rw [runOn_ask] at h
  generalize a.runOn (s.remember (.asked e)) = run at h ⊢
  obtain ⟨f | y, u⟩ := run
  · cases h
  · exact h

theorem runOn_rescue (a : Act σ α) (carryOn : Fault → Act σ α) (s : Session σ) :
    (rescue a carryOn).runOn s = proceed (a.runOn s) (fun x t => (.ok x, t))
      fun f t => if f.escapes then (.error f, t)
        else (carryOn f).runOn (t.remember (.caught f)) := by
  change proceed (a.runOn s) _ (fun f t => bif f.escapes then _ else _) = _
  simp only [Bool.cond_eq_ite]
  rfl

theorem runOn_attempt (a : Act σ α) (s : Session σ) :
    (attempt a).runOn s = proceed (a.runOn s) (fun x t => (.ok (.ok x), t))
      fun e t => if e.escapes then (.error e, t) else (.ok (.error e), t) := by
  change proceed (a.runOn s) _ (fun e t => bif e.escapes then _ else _) = _
  simp only [Bool.cond_eq_ite]

/-- An attempt leaves the state that the act leaves. -/
theorem runOn_attempt_snd (a : Act σ α) (s : Session σ) :
    ((attempt a).runOn s).2 = (a.runOn s).2 := by
  rw [runOn_attempt]
  rcases a.runOn s with ⟨e | x, t⟩
  · rw [proceed_error]
    split <;> rfl
  · rfl

/-- What follows an attempt runs from the state that the attempt leaves, unless the fault
escapes. -/
theorem runOn_attempt_bind (a : Act σ α) (f : Except Fault α → Act σ β) (s : Session σ) :
    (attempt a >>= f).runOn s = proceed (a.runOn s) (fun x t => (f (.ok x)).runOn t)
      fun e t => if e.escapes then (.error e, t) else (f (.error e)).runOn t := by
  rw [runOn_bind, runOn_attempt]
  rcases a.runOn s with ⟨e | x, t⟩
  · rw [proceed_error, proceed_error]
    split
    · rfl
    · rfl
  · rfl

/-- If faults that escape are thrown again, it does not matter that they do. -/
theorem runOn_attempt_bind_of_throw (a : Act σ α) {f : Except Fault α → Act σ β}
    (hthrow : ∀ e, e.escapes = true → f (.error e) = throw e) (s : Session σ) :
    (attempt a >>= f).runOn s = (f (a.runOn s).1).runOn (a.runOn s).2 := by
  rw [runOn_attempt_bind]
  rcases a.runOn s with ⟨e | x, t⟩
  · rw [proceed_error]
    split
    · next he =>
      rw [hthrow e he]
      rfl
    · rfl
  · rfl

/-! ### Acts with a part of the state of their own -/

@[simp]
theorem runOn_deeper (c : Choice) (a : Act σ α) (s : Session σ) :
    (deeper c a).runOn s =
      ((a.runOn (s.enter c)).1, s.leave (a.runOn (s.enter c)).2) := rfl

/-- The trail of before comes back. -/
@[simp]
theorem runOn_aside (a : Act σ α) (s : Session σ) :
    (aside a).runOn s = ((a.runOn s).1, { (a.runOn s).2 with trail := s.trail }) := rfl

theorem runOn_inFrame (vars : Entries) (a : Act σ α) (s : Session σ) :
    (inFrame vars a).runOn s = proceed (a.runOn { s with frame := Entries.update [] vars })
      (fun x t => (.ok (x, t.frame), { t with frame := s.frame }))
      fun f t => (.error f, { t with frame := s.frame }) := by
  rw [inFrame]
  change (((modify fun s => { s with frame := Entries.update [] vars }) >>= fun _ =>
      a >>= fun r => get >>= fun t => pure (r, t.frame) : Act σ (α × Entries)).runOn s |> fun p =>
    (p.1, { p.2 with frame := s.frame })) = _
  rw [runOn_modify_bind, runOn_bind]
  rcases a.runOn { s with frame := Entries.update [] vars } with ⟨_ | x, t⟩ <;> rfl

/-- The frame of before comes back, whether or not the act fails. -/
theorem runOn_inFrame_snd (vars : Entries) (a : Act σ α) (s : Session σ) :
    ((inFrame vars a).runOn s).2 =
      { (a.runOn { s with frame := Entries.update [] vars }).2 with frame := s.frame } := by
  rw [runOn_inFrame]
  rcases a.runOn { s with frame := Entries.update [] vars } with ⟨_ | x, t⟩ <;> rfl

/-! ### Cancellations -/

theorem runOn_takePending_none {s : Session σ} (h : s.pending = none) :
    takePending.runOn s = (.ok none, s) := by
  rw [takePending, runOn_get_bind, h]
  rfl

theorem runOn_takePending_some {s : Session σ} {reason : String} (h : s.pending = some reason) :
    takePending.runOn s =
      (.ok (some reason), { s with pending := none }.remember (.consumed reason)) := by
  rw [takePending, runOn_get_bind, h]
  rfl

theorem runOn_raisePending_none {s : Session σ} (h : s.pending = none) :
    raisePending.runOn s = (.ok (), s) := by
  rw [raisePending, runOn_bind_ok (runOn_takePending_none h)]
  rfl

theorem runOn_raisePending_some {s : Session σ} {reason : String} (h : s.pending = some reason) :
    raisePending.runOn s = (.error (.cancelled reason),
      { s with pending := none }.remember (.consumed reason)) := by
  rw [raisePending, runOn_bind_ok (runOn_takePending_some h)]
  rfl

end Act

end Choicebook
