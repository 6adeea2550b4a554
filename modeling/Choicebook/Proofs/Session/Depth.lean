import Choicebook.Proofs.Session.Rehearsal
import Choicebook.Proofs.Session.Uniform

/-!
# The nesting limit

A choice runs one level deeper than what runs it, and the counter of levels goes up where the choice
begins and down where it ends. Beside the counter, the trail shows the choices themselves that are
running inside of each other. `Session.Level` says that the counter is their number and within the
limit of the configuration, and `Guarded` says of a stretch of the trail that it is so at all of its
moments, and that every choice that is called begins at once or is refused, which happens at the
limit and only there.

The law `Act.Guards` is that an act comes back to the level it began at, however it ends, and that
the trail in between is guarded. It is about a number of levels, since a choice that may run others
on so many levels only is guarded as long as the limit leaves no more.
-/

namespace Choicebook

variable {σ : Type}

/-! ### Guarded trails -/

/-- The counter is the number of choices that are running, and within the limit. -/
structure Session.Level (s : Session σ) : Prop where
  count : s.depth = s.running.length
  within : s.depth ≤ s.config.maxDepth

/-- A session that has just begun is at level 0. -/
theorem Session.level_start (config : Config) (document : Document) (reading : Reading) (host : σ) :
    (Session.start config document reading host).Level :=
  ⟨rfl, Nat.zero_le _⟩

/-- At this moment the counter is the number of choices that are running, and within the limit. -/
def Moment.Counts (limit : Nat) (m : Moment) : Prop :=
  m.depth = m.running.length ∧ m.depth ≤ limit

/-- What follows when a choice is called: it begins, or it is refused for its depth. -/
def Moment.Answers (limit : Nat) (c : Choice) (m n : Moment) : Prop :=
  if m.running.length < limit then n.mark = .entered c ∧ n.running = c :: m.running
  else n.mark = .failed (.tooDeep c.name.display limit) ∧ n.running = m.running

/-- A stretch of a trail, latest first, in which every choice that is called is answered at once. -/
inductive Guarded (limit : Nat) : List Moment → Prop where
  | nil : Guarded limit []
  | plain {m : Moment} {earlier : List Moment} (h : Guarded limit earlier) (hm : m.mark.Plain)
    (hc : m.Counts limit) : Guarded limit (m :: earlier)
  | call {c : Choice} {m n : Moment} {earlier : List Moment} (h : Guarded limit earlier)
    (hm : m.mark = .called c) (hc : m.Counts limit) (hn : m.Answers limit c n)
    (hc' : n.Counts limit) : Guarded limit (n :: m :: earlier)

namespace Guarded

variable {limit : Nat} {earlier later : List Moment}

theorem append (h : Guarded limit earlier) (h' : Guarded limit later) :
    Guarded limit (later ++ earlier) := by
  induction h' with
  | nil => exact h
  | plain _ hm hc ih => exact ih.plain hm hc
  | call _ hm hc hn hc' ih => exact ih.call hm hc hn hc'

theorem counts (h : Guarded limit later) : ∀ m ∈ later, m.Counts limit := by
  induction h with
  | nil => exact List.forall_mem_nil _
  | plain _ _ hc ih => exact List.forall_mem_cons.mpr ⟨hc, ih⟩
  | call _ _ hc _ hc' ih => exact List.forall_mem_cons.mpr ⟨hc', List.forall_mem_cons.mpr ⟨hc, ih⟩⟩

end Guarded

/-- The moment after a call is not itself that of a call. -/
theorem Moment.Answers.not_called {limit : Nat} {c c' : Choice} {m n : Moment}
    (h : m.Answers limit c n) : n.mark ≠ .called c' := by
  rw [Answers] at h
  split at h
  · rw [h.1]
    nofun
  · rw [h.1]
    nofun

/-- What a new stretch of a trail, latest moment first, says about the nesting of choices. -/
structure Metered (limit : Nat) (new : List Moment) : Prop where
  /-- The counter is at every moment the number of choices that are running, within the limit. -/
  counts : ∀ m ∈ new, m.Counts limit
  /-- A call is answered at once: it is refused at the limit, and nowhere else. -/
  called : ∀ later m earlier c, new = later ++ m :: earlier → m.mark = .called c →
    ∃ rest n, later = rest ++ [n] ∧ m.Answers limit c n
  /-- No choice begins that has not just been called. -/
  entered : ∀ later n earlier c, new = later ++ n :: earlier → n.mark = .entered c →
    ∃ m before, earlier = m :: before ∧ m.mark = .called c ∧ m.Answers limit c n

namespace Guarded

variable {limit : Nat} {new : List Moment}

/-- A call in a guarded stretch is answered by the next moment. -/
private theorem answered (h : Guarded limit new) {later : List Moment} {m : Moment}
    {earlier : List Moment} {c : Choice} (hnew : new = later ++ m :: earlier)
    (hm : m.mark = .called c) : ∃ rest n, later = rest ++ [n] ∧ m.Answers limit c n := by
  -- the call is further back, or it is the one that the last rule is about
  induction h generalizing later with
  | nil => exact absurd hnew (by simp)
  | plain _ hplain _ ih =>
    rcases List.cons_eq_append_iff.mp hnew with ⟨rfl, heq⟩ | ⟨later, rfl, heq⟩
    · cases heq
      rw [hm] at hplain
      exact hplain.elim
    · obtain ⟨rest, n, rfl, hn⟩ := ih heq
      exact ⟨_ :: rest, n, rfl, hn⟩
  | call _ hm' _ hn _ ih =>
    rcases List.cons_eq_append_iff.mp hnew with ⟨rfl, heq⟩ | ⟨later, rfl, heq⟩
    · cases heq
      exact absurd hm hn.not_called
    · rcases List.cons_eq_append_iff.mp heq with ⟨rfl, heq'⟩ | ⟨later, rfl, heq'⟩
      · cases heq'
        rw [hm'] at hm
        cases hm
        exact ⟨[], _, rfl, hn⟩
      · obtain ⟨rest, n, rfl, hn⟩ := ih heq'
        exact ⟨_ :: _ :: rest, n, rfl, hn⟩

/-- What begins in a guarded stretch was called by the moment before. -/
private theorem called (h : Guarded limit new) {later : List Moment} {n : Moment}
    {earlier : List Moment} {c : Choice} (hnew : new = later ++ n :: earlier)
    (hn : n.mark = .entered c) :
    ∃ m before, earlier = m :: before ∧ m.mark = .called c ∧ m.Answers limit c n := by
  induction h generalizing later with
  | nil => exact absurd hnew (by simp)
  | plain _ hplain _ ih =>
    rcases List.cons_eq_append_iff.mp hnew with ⟨rfl, heq⟩ | ⟨later, rfl, heq⟩
    · cases heq
      rw [hn] at hplain
      exact hplain.elim
    · exact ih heq
  | @call c' m n' _ _ hm _ hans _ ih =>
    rcases List.cons_eq_append_iff.mp hnew with ⟨rfl, heq⟩ | ⟨later, rfl, heq⟩
    · cases heq
      -- a choice that begins is the one that was called
      obtain rfl : c' = c := by
        rw [Moment.Answers, hn] at hans
        split at hans
        · cases hans.1
          rfl
        · cases hans.1
      exact ⟨m, _, rfl, hm, hans⟩
    · rcases List.cons_eq_append_iff.mp heq with ⟨rfl, heq'⟩ | ⟨later, rfl, heq'⟩
      · cases heq'
        rw [hm] at hn
        cases hn
      · exact ih heq'

theorem metered (h : Guarded limit new) : Metered limit new where
  counts := h.counts
  called _ _ _ _ hnew hm := h.answered hnew hm
  entered _ _ _ _ hnew hn := h.called hnew hn

end Guarded

/-! ### Acts that keep the level -/

/-- The state is back at the level of before, and the trail in between is guarded. -/
structure Session.Returned (s t : Session σ) : Prop where
  config : t.config = s.config
  depth : t.depth = s.depth
  running : t.running = s.running
  trail : ∃ new, t.trail = new ++ s.trail ∧ Guarded s.config.maxDepth new

namespace Session.Returned

variable {s t u : Session σ}

/-- A state that differs in other respects only. -/
theorem of_eq (hc : t.config = s.config) (hd : t.depth = s.depth) (hr : t.running = s.running)
    (ht : t.trail = s.trail) : Returned s t :=
  ⟨hc, hd, hr, [], ht, .nil⟩

theorem trans (h : Returned s t) (g : Returned t u) : Returned s u := by
  obtain ⟨hc, hd, hr, new, ht, hnew⟩ := h
  obtain ⟨gc, gd, gr, new', gt, gnew⟩ := g
  rw [hc] at gnew
  refine ⟨gc.trans hc, gd.trans hd, gr.trans hr, new' ++ new, ?_, hnew.append gnew⟩
  rw [gt, ht, List.append_assoc]

theorem level (h : Returned s t) (hs : s.Level) : t.Level :=
  ⟨by rw [h.depth, h.running, hs.count], by rw [h.depth, h.config]; exact hs.within⟩

/-- A moment that has nothing to do with a choice. -/
theorem remember (hs : s.Level) {m : Mark} (hm : m.Plain) : Returned s (s.remember m) :=
  ⟨rfl, rfl, rfl, [s.moment m], rfl, Guarded.nil.plain hm ⟨hs.count, hs.within⟩⟩

end Session.Returned

open Session (Returned)

/-- An act that comes back to the level it began at, wherever the limit leaves fewer levels than
there are. -/
def Act.Guards (levels : Nat) {α : Type} (a : Act σ α) : Prop :=
  ∀ s : Session σ, s.Level → s.config.maxDepth - s.depth < levels → Returned s (a.runOn s).2

namespace Act

variable {host : Host σ} {levels : Nat}

theorem Guards.bind {α β : Type} {a : Act σ α} {f : α → Act σ β} (ha : Guards levels a)
    (hf : ∀ x, Guards levels (f x)) : Guards levels (a >>= f) := by
  intro s hs hl
  refine runOn_bind_keeps (P := Returned s) (ha s hs hl) fun x t hrun => ?_
  have hl : t.config.maxDepth - t.depth < levels := by rwa [hrun.config, hrun.depth]
  exact hrun.trans (hf x t (hrun.level hs) hl)

theorem Guards.inFrame {α : Type} {a : Act σ α} (ha : Guards levels a) (vars : Entries) :
    Guards levels (Act.inFrame vars a) := by
  intro s hs hl
  obtain ⟨hc, hd, hr, ht⟩ :=
    ha { s with frame := Entries.update [] vars } ⟨hs.count, hs.within⟩ hl
  rw [runOn_inFrame_snd]
  exact ⟨hc, hd, hr, ht⟩

/-- Whatever a session does apart from running choices keeps the level. -/
theorem guards_uniform (ha : host.Aloof) (levels : Nat) :
    Uniform host fun {α} (a _ : Act σ α) => Guards levels a where
  pure _ := fun _ _ _ => .of_eq rfl rfl rfl rfl
  bind := Guards.bind
  look _ h := fun s => h s s
  throw _ := fun _ _ _ => .of_eq rfl rfl rfl rfl
  settle h := h
  inFrame vars _ _ h := h.inFrame vars
  edit hg := fun _ _ _ => by cases hg <;> exact .of_eq rfl rfl rfl rfl
  remember hm := fun _ hs _ => .remember hs hm
  offers h := fun s _ _ => .of_eq (ha.config h s) (ha.depth h s) (ha.running h s) (ha.trail h s)

end Act

/-! ### Choices -/

open Act (Guards)

variable {host : Host σ} {s : Session σ}

namespace Choice

/-- A call at the limit is refused. -/
private theorem refuse_returned (p : Placed) (hs : s.Level)
    (hlimit : s.config.maxDepth ≤ s.depth) :
    Returned s ((refuse p).runOn (s.remember (.called p.choice))).2 := by
  let called := s.remember (.called p.choice)
  let refused : Mark := .failed (.tooDeep p.choice.name.display s.config.maxDepth)
  refine ⟨rfl, rfl, rfl, [called.moment refused, s.moment (.called p.choice)], rfl, ?_⟩
  refine Guarded.nil.call rfl ⟨hs.count, hs.within⟩ ?_ ⟨hs.count, hs.within⟩
  have hfull : ¬s.running.length < s.config.maxDepth := hs.count ▸ hlimit.not_gt
  exact (if_neg hfull).mpr ⟨rfl, rfl⟩

/-- A call below the limit begins, and the choice is left again. -/
private theorem deeper_returned (p : Placed) (hs : s.Level)
    (hlimit : s.depth < s.config.maxDepth) {t : Session σ}
    (ht : Returned (((s.remember (.called p.choice)).enter p.choice).remember
      (.entered p.choice)) t) : Returned s ((s.remember (.called p.choice)).leave t) := by
  obtain ⟨hc, hd, -, new, ht, hnew⟩ := ht
  let inner := (s.remember (.called p.choice)).enter p.choice
  refine ⟨hc, congrArg (· - 1) hd, rfl,
    new ++ [inner.moment (.entered p.choice), s.moment (.called p.choice)], ?_, .append ?_ hnew⟩
  · change t.trail = _
    rw [ht, List.append_assoc]
    rfl
  · refine Guarded.nil.call rfl ⟨hs.count, hs.within⟩ ?_ ?_
    · exact (if_pos (hs.count ▸ hlimit)).mpr ⟨rfl, rfl⟩
    · exact ⟨congrArg (· + 1) hs.count, hlimit⟩

/-- Every choice comes back to the level it was called at. -/
theorem executeAt_guards (ha : host.Aloof) (levels : Nat) (p : Placed) :
    Guards levels (executeAt host levels p) := by
  induction levels generalizing p with
  | zero => exact fun s _ hl => absurd hl (Nat.not_lt_zero _)
  | succ levels ih =>
    intro s hs hl
    rw [executeAt, executeOnce, Act.runOn_remember_bind, Act.runOn_get_bind]
    split
    · next hlimit => exact refuse_returned p hs hlimit
    · next hlimit =>
      have hlimit : s.depth < s.config.maxDepth := Nat.lt_of_not_le hlimit
      rw [Act.runOn_deeper]
      refine deeper_returned p hs hlimit ?_
      rw [Act.runOn_remember_bind]
      -- inside of the choice one level less is left
      refine (Act.guards_uniform ha levels).perform ih p _ ?_ ?_
      · exact ⟨congrArg (· + 1) hs.count, hlimit⟩
      · change s.config.maxDepth - (s.depth + 1) < levels
        omega

/-- The levels that a choice is run on are more than the limit leaves. -/
theorem execute_guards (ha : host.Aloof) (levels : Nat) (p : Placed) :
    Guards levels (execute host p) := by
  intro s hs _
  rw [execute, Act.runOn_get_bind]
  exact executeAt_guards ha _ p s hs (Nat.lt_succ_self _)

end Choice

/-! ### Ways into a session -/

section

variable (ha : host.Aloof) (levels : Nat)

include ha

theorem Runner.run_guards (choice : Option Placed) (vars : Entries) :
    Guards levels (Runner.run host choice vars) :=
  have u := Act.guards_uniform ha levels
  u.surroundings.report (fun vars => u.edit (.renew vars)) (Choice.execute_guards ha levels)
    choice vars

theorem SingleMacro.run_guards (reference : String) :
    Guards levels (SingleMacro.run host reference) :=
  have u := Act.guards_uniform ha levels
  u.surroundings.runReference (u.comparison (Choice.execute_guards ha levels))
    (fun slot fill => u.edit (.settings slot fill)) reference

theorem Startup.run_guards (isolate : Bool) : Guards levels (Startup.run host isolate) :=
  have u := Act.guards_uniform ha levels
  u.surroundings.startup (u.comparison (Choice.execute_guards ha levels))
    (fun _ _ _ => .of_eq rfl rfl rfl rfl) isolate

end

/-- The session is back at the level of before, and the nesting limit has been kept in between. -/
structure Session.MeteredSince (s t : Session σ) : Prop where
  depth : t.depth = s.depth
  running : t.running = s.running
  trail : ∃ new, t.trail = new ++ s.trail ∧ Metered s.config.maxDepth new

theorem Session.MeteredSince.of_guards {α : Type} {a : Act σ α} (h : ∀ levels, Guards levels a)
    (hs : s.Level) : MeteredSince s (a.runOn s).2 := by
  obtain ⟨-, hd, hr, new, ht, hnew⟩ := h _ s hs (Nat.lt_succ_self _)
  exact ⟨hd, hr, new, ht, hnew.metered⟩

end Choicebook
