import Choicebook.Proofs.Session.Pauses
import Choicebook.Proofs.Session.Rehearsal

/-!
# Runs come to an end

Nothing in the shape of choices keeps a run of a choice from going on for ever: macros and scripts
can run the very choice that they are run by, scripts can carry on when that fails, and a menu leads
back to the one before it. Everything else that a session does follows the structure of a macro, of
a script or of an export. So there are two recursions, running a choice and showing a menu, and one
turn of both is `Calls.unfold`.

`Choice.execute_terminates` says that finitely many turns are enough: a run is the same whatever is
done where the turns end, because it does not get there. Choices are bounded by the levels that the
limit leaves, and menus by the selections that there can still be. Both bounds are kept by all acts
in between, which is what `Act.Coincides` carries along. So the only run without an end is one that
waits for ever.
-/

namespace Choicebook

variable {σ : Type}

/-! ### One turn of the recursions -/

/-- Ways to run choices and to show menus. -/
structure Calls (σ : Type) where
  execute : Placed → Act σ Unit
  browse : Menu → Act σ (Option Choice)

/-- One turn: a choice runs others, and a menu opens others, in the ways that are given. -/
def Calls.unfold (host : Host σ) (c : Calls σ) : Calls σ :=
  ⟨Choice.executeOnce host c.browse c.execute, Menu.offer host c.browse⟩

/-! ### Acts that do the same -/

/-- A state at a depth, under a limit, with at most so many selections to come. -/
structure Session.Within (host : Host σ) (depth limit patience : Nat) (s : Session σ) : Prop where
  depth : s.depth = depth
  limit : s.config.maxDepth = limit
  patience : host.patience s.host ≤ patience

theorem Session.Within.mono {host : Host σ} {depth limit patience patience' : Nat} {s : Session σ}
    (h : s.Within host depth limit patience) (hp : patience ≤ patience') :
    s.Within host depth limit patience' :=
  ⟨h.depth, h.limit, h.patience.trans hp⟩

/-- Two acts do the same in such states, and the state remains one. -/
def Act.Coincides (host : Host σ) (depth limit patience : Nat) {α : Type} (a b : Act σ α) : Prop :=
  ∀ s, s.Within host depth limit patience →
    a.runOn s = b.runOn s ∧ (a.runOn s).2.Within host depth limit patience

namespace Act

variable {host : Host σ} {depth limit patience : Nat} {α β : Type}

theorem Coincides.symm {a b : Act σ α} (h : Coincides host depth limit patience a b) :
    Coincides host depth limit patience b a := by
  intro s hs
  obtain ⟨hrun, hw⟩ := h s hs
  exact ⟨hrun.symm, hrun ▸ hw⟩

theorem Coincides.trans {a b c : Act σ α} (h : Coincides host depth limit patience a b)
    (g : Coincides host depth limit patience b c) : Coincides host depth limit patience a c := by
  intro s hs
  obtain ⟨hrun, hw⟩ := h s hs
  exact ⟨hrun.trans (g s hs).1, hw⟩

theorem Coincides.bind {a b : Act σ α} {f g : α → Act σ β}
    (h : Coincides host depth limit patience a b)
    (hf : ∀ x, Coincides host depth limit patience (f x) (g x)) :
    Coincides host depth limit patience (a >>= f) (b >>= g) := by
  intro s hs
  obtain ⟨hrun, hw⟩ := h s hs
  rw [runOn_bind, runOn_bind, ← hrun]
  generalize a.runOn s = run at hw ⊢
  obtain ⟨e | x, t⟩ := run
  · exact ⟨rfl, hw⟩
  · exact hf x t hw

theorem Coincides.inFrame {a b : Act σ α} (h : Coincides host depth limit patience a b)
    (vars : Entries) :
    Coincides host depth limit patience (Act.inFrame vars a) (Act.inFrame vars b) := by
  intro s hs
  obtain ⟨hrun, hd, hl, hp⟩ := h { s with frame := Entries.update [] vars }
    ⟨hs.depth, hs.limit, hs.patience⟩
  rw [runOn_inFrame, runOn_inFrame, ← hrun]
  generalize a.runOn { s with frame := Entries.update [] vars } = run at hd hl hp ⊢
  obtain ⟨e | x, t⟩ := run
  · exact ⟨rfl, hd, hl, hp⟩
  · exact ⟨rfl, hd, hl, hp⟩

/-- Whatever a session does apart from running choices keeps to the bounds. -/
theorem coincides_uniform (ha : host.Aloof) (he : host.Exhaustible) (depth limit patience : Nat) :
    Uniform host (Coincides host depth limit patience) where
  pure _ := fun _ hs => ⟨rfl, hs⟩
  bind := Coincides.bind
  look _ h := fun s => h s s
  throw _ := fun _ hs => ⟨rfl, hs⟩
  settle h := by
    intro s hs
    obtain ⟨hrun, hw⟩ := h s hs
    exact ⟨by rw [runOn_settle, runOn_settle, hrun], hw⟩
  inFrame vars _ _ h := h.inFrame vars
  edit hg := fun s hs => ⟨rfl, by cases hg <;> exact ⟨hs.depth, hs.limit, hs.patience⟩⟩
  remember _ := fun s hs => ⟨rfl, hs.depth, hs.limit, hs.patience⟩
  offers h := fun s hs => ⟨rfl, (ha.depth h s).trans hs.depth,
    (congrArg Config.maxDepth (ha.config h s)).trans hs.limit,
    (he.patience h s).trans hs.patience⟩

end Act

open Act (Coincides)

variable {host : Host σ} {depth limit patience : Nat}

/-! ### Choices -/

namespace Choice

/-- Below the limit, a choice does the same if what it runs does so one level deeper. -/
theorem executeOnce_coincides (ha : host.Aloof) (he : host.Exhaustible)
    {execute other : Placed → Act σ Unit} {browse browse' : Menu → Act σ (Option Choice)}
    (hexec : depth < limit → ∀ p, Coincides host (depth + 1) limit patience (execute p) (other p))
    (hbrowse : depth < limit →
      ∀ m, Coincides host (depth + 1) limit patience (browse m) (browse' m)) (p : Placed) :
    Coincides host depth limit patience (executeOnce host browse execute p)
      (executeOnce host browse' other p) := by
  intro s hs
  have u := Act.coincides_uniform ha he (depth + 1) limit patience
  rw [executeOnce, executeOnce, Act.runOn_remember_bind, Act.runOn_remember_bind,
    Act.runOn_get_bind, Act.runOn_get_bind]
  split
  · exact ⟨rfl, hs.depth, hs.limit, hs.patience⟩
  · next hlimit =>
    have hlt : depth < limit := by
      rw [← hs.depth, ← hs.limit]
      exact Nat.lt_of_not_le hlimit
    let inner := ((s.remember (.called p.choice)).enter p.choice).remember (.entered p.choice)
    have hinner : inner.Within host (depth + 1) limit patience :=
      ⟨congrArg (· + 1) hs.depth, hs.limit, hs.patience⟩
    obtain ⟨hrun, hd, hl, hp⟩ := u.surroundings.perform (u.comparison (hexec hlt)) (hbrowse hlt)
      (hexec hlt) p inner hinner
    rw [Act.runOn_deeper, Act.runOn_deeper, Act.runOn_remember_bind, Act.runOn_remember_bind,
      ← hrun]
    exact ⟨rfl, congrArg (· - 1) hd, hl, hp⟩

/-- Running a choice on so many levels keeps to the bounds. -/
theorem executeAt_coincides (ha : host.Aloof) (he : host.Exhaustible) (levels : Nat) (p : Placed) :
    Coincides host depth limit patience (executeAt host levels p) (executeAt host levels p) := by
  induction levels generalizing depth p with
  | zero => exact (Act.coincides_uniform ha he depth limit patience).surroundings.refuse p
  | succ levels ih =>
    exact executeOnce_coincides ha he (fun _ => ih)
      (fun _ => (Act.coincides_uniform ha he _ _ _).surroundings.browse) p

/-- Running a choice is one turn of running choices. -/
theorem execute_coincides (ha : host.Aloof) (he : host.Exhaustible) (p : Placed) :
    Coincides host depth limit patience (execute host p)
      (executeOnce host (Menu.browse host) (execute host) p) := by
  -- at the start of the run there are as many levels as the limit leaves, and one level deeper
  -- there is one level less
  have hlevels : ∀ (depth : Nat) (p : Placed), Coincides host depth limit patience (execute host p)
      (executeAt host (limit - depth + 1) p) := by
    intro depth p s hs
    have hrun : (execute host p).runOn s = (executeAt host (limit - depth + 1) p).runOn s := by
      rw [execute, Act.runOn_get_bind, hs.depth, hs.limit]
    exact ⟨hrun, hrun ▸ (executeAt_coincides ha he _ p s hs).2⟩
  refine (hlevels depth p).trans (executeOnce_coincides ha he (fun hlt p => ?_) (fun _ => ?_) p)
  · rw [show limit - depth = limit - (depth + 1) + 1 by omega]
    exact (hlevels (depth + 1) p).symm
  · exact (Act.coincides_uniform ha he _ _ _).surroundings.browse

end Choice

/-! ### Menus -/

namespace Menu

/-- A selection does the same if the menus do so that open when it is answered: then one selection
less is left. -/
theorem offer_coincides (ha : host.Aloof) (he : host.Exhaustible)
    {browse browse' : Menu → Act σ (Option Choice)}
    (hbrowse : ∀ less, less < patience →
      ∀ m, Coincides host depth limit less (browse m) (browse' m)) (m : Menu) :
    Coincides host depth limit patience (m.offer host browse) (m.offer host browse') := by
  intro s hs
  obtain ⟨-, hw⟩ := (Act.coincides_uniform ha he depth limit patience).ask
    (.suggest m.labels m.placeholder) (.suggest m.labels m.labels.length m.placeholder) s hs
  rw [offer, offer, Act.runOn_bind, Act.runOn_bind]
  cases hrun : (Act.ask (.suggest m.labels m.placeholder)
      (host.suggest m.labels m.labels.length m.placeholder)).runOn s with
  | mk r t =>
    rw [hrun] at hw
    cases r with
    | error f => exact ⟨rfl, hw⟩
    | ok position =>
      rw [Act.proceed_ok, Act.proceed_ok]
      cases hstep : m.select position with
      | cancelled => exact ⟨rfl, hw⟩
      | run c => exact ⟨rfl, hw⟩
      | «open» inner =>
        -- a menu opens only after an answer
        have hless : host.patience t.host < patience := by
          cases position with
          | none => cases hstep
          | some i =>
            have hanswered := he.answered _ _ _ _ i t (Act.runOn_of_runOn_ask hrun)
            exact hanswered.trans_le hs.patience
        obtain ⟨hsame, hw'⟩ := hbrowse _ hless inner t ⟨hw.depth, hw.limit, le_refl _⟩
        exact ⟨hsame, hw'.mono hless.le⟩

/-- Going through menus needs no more selections than there can be. -/
theorem navigate_coincides (ha : host.Aloof) (he : host.Exhaustible) {fuel fuel' : Nat}
    (h : patience < fuel) (h' : patience < fuel') (m : Menu) :
    Coincides host depth limit patience (m.navigate host fuel) (m.navigate host fuel') := by
  induction fuel generalizing patience fuel' m with
  | zero => exact absurd h (Nat.not_lt_zero _)
  | succ fuel ih =>
    cases fuel' with
    | zero => exact absurd h' (Nat.not_lt_zero _)
    | succ fuel' =>
      exact offer_coincides ha he (fun _ hless m => ih (by omega) (by omega) m) m

theorem browse_navigate_coincides (ha : host.Aloof) (he : host.Exhaustible) {fuel : Nat}
    (h : patience < fuel) (m : Menu) :
    Coincides host depth limit patience (m.browse host) (m.navigate host fuel) := by
  intro s hs
  have hw : s.Within host depth limit (host.patience s.host) := ⟨hs.depth, hs.limit, le_refl _⟩
  obtain ⟨hrun, hw'⟩ :=
    navigate_coincides ha he (Nat.lt_succ_self _) (hs.patience.trans_lt h) m s hw
  rw [browse, Act.runOn_get_bind]
  exact ⟨hrun, hw'.mono hs.patience⟩

/-- Showing a menu is one turn of showing menus. -/
theorem browse_coincides (ha : host.Aloof) (he : host.Exhaustible) (m : Menu) :
    Coincides host depth limit patience (m.browse host) (m.offer host (Menu.browse host)) :=
  (browse_navigate_coincides ha he (Nat.lt_succ_self patience) m).trans
    (offer_coincides ha he (fun _ hless m => (browse_navigate_coincides ha he hless m).symm) m)

end Menu

/-! ### All turns -/

namespace Calls

/-- So many turns of showing menus are enough as there are selections to come, and one more. -/
theorem unfold_browse_coincides (ha : host.Aloof) (he : host.Exhaustible) (rest : Calls σ)
    {turns : Nat} (h : patience < turns) (m : Menu) :
    Coincides host depth limit patience (((unfold host)^[turns] rest).browse m)
      (m.browse host) := by
  induction turns generalizing patience m with
  | zero => exact absurd h (Nat.not_lt_zero _)
  | succ turns ih =>
    rw [Function.iterate_succ_apply']
    exact (Menu.offer_coincides ha he (fun _ hless m => ih (by omega) m) m).trans
      (Menu.browse_coincides ha he m).symm

/-- So many turns of running choices are enough as there are levels and selections left. -/
theorem unfold_execute_coincides (ha : host.Aloof) (he : host.Exhaustible) (rest : Calls σ)
    {turns : Nat} (h : limit - depth + patience < turns) (p : Placed) :
    Coincides host depth limit patience (((unfold host)^[turns] rest).execute p)
      (Choice.execute host p) := by
  induction turns generalizing depth p with
  | zero => exact absurd h (Nat.not_lt_zero _)
  | succ turns ih =>
    rw [Function.iterate_succ_apply']
    refine Coincides.trans ?_ (Choice.execute_coincides ha he p).symm
    refine Choice.executeOnce_coincides ha he (fun hlt p => ?_) (fun hlt m => ?_) p
    · exact ih (by omega) p
    · exact unfold_browse_coincides ha he rest (by omega) m

end Calls

/-- Whatever a choice adds to the trail comes after its call. -/
theorem Choice.called_suffix (ha : host.Aloof) (p : Placed) (s : Session σ) :
    (s.remember (.called p.choice)).trail <:+ ((execute host p).runOn s).2.trail := by
  rw [runOn_execute]
  by_cases hdepth : s.config.maxDepth ≤ s.depth
  · rw [runOn_executeOnce_refused hdepth]
    exact List.suffix_cons _ _
  · rw [runOn_executeOnce hdepth]
    have hperform := (Act.grows_uniform ha.trail).perform
      (grows_executeAt ha.trail (s.config.maxDepth - s.depth)) p (inside p.choice s)
    exact (List.suffix_cons _ _).trans hperform

/-- What a run without an end has added to the trail ends with a command that waits for ever. -/
theorem Choice.waiting_of_endless (ha : host.Aloof) (hp : host.Prompt) (p : Placed) (s : Session σ)
    (h : ((execute host p).runOn s).1 = .error .endless) :
    host.skipsPauses = false ∧ ∃ last began new,
      ((execute host p).runOn s).2.trail = last :: began :: new ++ s.trail ∧
        last.mark = .failed .endless ∧ began.mark.WaitsForever := by
  obtain ⟨hskips, last, began, earlier, htrail, hlast, hbegan⟩ := pauses_execute hp p s h
  obtain ⟨new, hnew⟩ := called_suffix ha p s
  rw [htrail, Session.remember_trail] at hnew
  refine ⟨hskips, last, began, ?_⟩
  rw [htrail]
  -- the choice was called before anything else, and neither moment is that call
  match new, hnew with
  | [], hnew =>
    obtain ⟨rfl, -⟩ := List.cons.inj hnew
    cases hlast
  | [_], hnew =>
    obtain ⟨-, hnew⟩ := List.cons.inj hnew
    obtain ⟨rfl, -⟩ := List.cons.inj hnew
    obtain ⟨_, _, _, hcalled, -⟩ := hbegan
    cases hcalled
  | _ :: _ :: new, hnew =>
    obtain ⟨-, hnew⟩ := List.cons.inj hnew
    obtain ⟨-, rfl⟩ := List.cons.inj hnew
    exact ⟨new ++ [s.moment (.called p.choice)], by simp, hlast, hbegan⟩

/-- **Every run of a choice comes to an end, unless it waits for ever.** Running a choice and
showing a menu are unfolded only as often as there are levels left below the limit and selections
that can still be answered, and once more: what is then done in their place makes no difference, so
the run does not get there. This is so whatever the choices and scripts refer to, and whether or not
scripts carry on after they were refused. So the run returns or fails, except if a command begins
in it that waits for ever, which then is the last thing that happens. -/
theorem Choice.execute_terminates (ha : host.Aloof) (he : host.Exhaustible) (hp : host.Prompt)
    (p : Placed) (s : Session σ) (rest : Calls σ) (turns : Nat)
    (h : s.config.maxDepth - s.depth + host.patience s.host < turns) :
    (((Calls.unfold host)^[turns] rest).execute p).runOn s = (execute host p).runOn s ∧
      (((execute host p).runOn s).1 = .error .endless → host.skipsPauses = false ∧
        ∃ last began new, ((execute host p).runOn s).2.trail = last :: began :: new ++ s.trail ∧
          last.mark = .failed .endless ∧ began.mark.WaitsForever) :=
  ⟨(Calls.unfold_execute_coincides ha he rest h p s ⟨rfl, rfl, le_refl _⟩).1,
    waiting_of_endless ha hp p s⟩

/-- The run of a macro with another one inside of it, where 65 turns are enough. -/
theorem Choice.execute_terminates_interrupted :
    Rehearsal.fresh.config.maxDepth - Rehearsal.fresh.depth +
      Rehearsal.host.patience Rehearsal.fresh.host < 65 ∧
    ((execute Rehearsal.host Rehearsal.interrupted).runOn Rehearsal.fresh).1 ≠ .error .endless ∧
    ∀ rest, (((Calls.unfold Rehearsal.host)^[65] rest).execute Rehearsal.interrupted).runOn
      Rehearsal.fresh = (execute Rehearsal.host Rehearsal.interrupted).runOn Rehearsal.fresh := by
  have h := fun rest => execute_terminates Rehearsal.host_aloof Rehearsal.host_exhaustible
    Rehearsal.host_prompt Rehearsal.interrupted Rehearsal.fresh rest 65 (by decide)
  refine ⟨by decide, fun hendless => ?_, fun rest => (h rest).1⟩
  cases ((h (Calls.mk (Choice.execute Rehearsal.host) (Menu.browse Rehearsal.host))).2 hendless).1

/-- A time of `inf` is read, and a macro that waits for it does not come back. -/
theorem Choice.execute_waiting :
    let host : Host Rehearsal := { Rehearsal.host with skipsPauses := false }
    let head (name : String) : CommandHead := ⟨.text name, .text name⟩
    let forever (time : Double) : Choice := .ofMacro ⟨.text "M", .text "M", false⟩
      (some (.mk (.text "M") (.text "M")
        [.wait (head "wait") time, .host (head "next") "next"] false))
    host.Aloof ∧ host.Exhaustible ∧ host.Prompt ∧
      ∃ time, Value.toFloat (.text "inf") = .ok time ∧
        ((execute host ⟨forever time, none⟩).runOn Rehearsal.fresh).1 = .error .endless := by
  intro host head forever
  have hoffers : ∀ {α : Type} {a : Act Rehearsal α}, host.Offers a → Rehearsal.host.Offers a := by
    intro α a ha
    cases ha <;> constructor
  refine ⟨⟨?_, ?_, ?_, ?_⟩, ⟨?_, ?_⟩, ?_, .infinite false, ?_, ?_⟩
  · exact fun ha => Rehearsal.host_aloof.config (hoffers ha)
  · exact fun ha => Rehearsal.host_aloof.depth (hoffers ha)
  · exact fun ha => Rehearsal.host_aloof.running (hoffers ha)
  · exact fun ha => Rehearsal.host_aloof.trail (hoffers ha)
  · exact Rehearsal.host_exhaustible.answered
  · exact fun ha => Rehearsal.host_exhaustible.patience (hoffers ha)
  · exact fun ha => Rehearsal.host_prompt (hoffers ha)
  · rfl
  · rfl

end Choicebook
