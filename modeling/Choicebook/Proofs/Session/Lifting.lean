import Choicebook.Proofs.Session.Failure
import Choicebook.Proofs.Session.Runs
import Choicebook.Proofs.Session.Uniform

/-!
# A choice more around a run

The same macro can run on its own or as what a choice does, and then everything in it is one level
deeper. `Session.Lifted` relates the states of two such runs: they are the same in what macros look
at, the host has been asked for the same, and the counter of levels differs by one. The law
`Act.Lifts` says that two acts keep the states so and end in the same way, unless the deeper run
reaches the nesting limit. That escape is the only one, and a run that has taken it does not come
back, since trails only grow.

Two acts of a session look at the level: a choice that begins, and a choice that ends with a
cancellation, which only the outermost one tells the user. So the relation is uniform within a level
(`Act.lifts_uniform`), and the levels are connected by induction (`Choice.executeAt_lifts`).
-/

namespace Choicebook

variable {σ : Type} {same : σ → σ → Prop}

/-! ### Hosts that do not mind -/

/-- Two states that are the same in what macros look at, with hosts that are in the same state as
far as `same` tells. -/
structure Session.Peer (same : σ → σ → Prop) (s t : Session σ) : Prop extends Session.Akin s t where
  host : same s.host t.host

/-- What the host does depends on nothing else than what macros look at and on its own state, where
notices make no difference to the latter. A notice does not fail. -/
structure Host.Unmoved (h : Host σ) (same : σ → σ → Prop) : Prop where
  equivalence : Equivalence same
  patience : ∀ {x y : σ}, same x y → h.patience x = h.patience y
  acts : ∀ {α : Type} {a : Act σ α}, h.Offers a → ∀ {s t : Session σ}, s.Peer same t →
    (a.runOn s).1 = (a.runOn t).1 ∧ (a.runOn s).2.Peer same (a.runOn t).2
  notice : ∀ text s, ∃ t, (h.notify text).runOn s = (.ok (), t) ∧ s.Peer same t

namespace Session.Peer

variable {s t u : Session σ}

theorem refl (he : Equivalence same) (s : Session σ) : s.Peer same s :=
  ⟨⟨rfl, rfl, rfl, rfl, rfl⟩, he.refl _⟩

theorem symm (he : Equivalence same) (h : s.Peer same t) : t.Peer same s :=
  ⟨⟨h.config.symm, h.document.symm, h.shared.symm, h.frame.symm, h.pending.symm⟩, he.symm h.host⟩

theorem trans (he : Equivalence same) (h : s.Peer same t) (g : t.Peer same u) : s.Peer same u :=
  ⟨⟨h.config.trans g.config, h.document.trans g.document, h.shared.trans g.shared,
    h.frame.trans g.frame, h.pending.trans g.pending⟩, he.trans h.host g.host⟩

/-- A moment on the trail makes no difference. -/
theorem remember (h : s.Peer same t) (m : Mark) : s.Peer same (t.remember m) :=
  ⟨⟨h.config, h.document, h.shared, h.frame, h.pending⟩, h.host⟩

end Session.Peer

/-! ### What trails have in common -/

/-- What the host is asked for in a stretch of a trail apart from notices, the latest first. -/
def calls (new : List Moment) : List Event :=
  (requests new).filter (!·.isNotice)

theorem calls_append (new new' : List Moment) : calls (new' ++ new) = calls new' ++ calls new := by
  rw [calls, requests, List.filterMap_append, List.filter_append]
  rfl

theorem calls_cons (m : Moment) (new : List Moment) :
    calls (m :: new) = calls [m] ++ calls new :=
  calls_append new [m]

/-- Only the mark of a moment tells what the host is asked for. -/
theorem calls_singleton_congr {m n : Moment} (h : m.mark = n.mark) : calls [m] = calls [n] := by
  have hrequests : requests [m] = requests [n] := by
    rw [requests, requests, List.filterMap_cons, List.filterMap_cons, h]
  rw [calls, calls, hrequests]

/-- A choice is called at the nesting limit. -/
def Moment.isRefusal (limit : Nat) (m : Moment) : Bool :=
  match m.mark with
  | .called _ => decide (limit ≤ m.depth)
  | _ => false

/-- The trail reaches the nesting limit after `past`. -/
def ReachesLimit (limit : Nat) (past trail : List Moment) : Prop :=
  ∃ new, trail = new ++ past ∧ new.any (·.isRefusal limit) = true

theorem ReachesLimit.mono {limit : Nat} {past trail trail' : List Moment}
    (h : ReachesLimit limit past trail) (hgrows : trail <:+ trail') :
    ReachesLimit limit past trail' := by
  obtain ⟨new, rfl, hnew⟩ := h
  obtain ⟨later, rfl⟩ := hgrows
  refine ⟨later ++ new, (List.append_assoc _ _ _).symm, ?_⟩
  rw [List.any_append, hnew, Bool.or_true]

/-- What has been reached lately has been reached since before. -/
theorem ReachesLimit.since {limit : Nat} {past past' trail : List Moment}
    (h : ReachesLimit limit past' trail) (hpast : past <:+ past') :
    ReachesLimit limit past trail := by
  obtain ⟨new, rfl, hnew⟩ := h
  obtain ⟨earlier, rfl⟩ := hpast
  refine ⟨new ++ earlier, (List.append_assoc _ _ _).symm, ?_⟩
  rw [List.any_append, hnew, Bool.true_or]

/-! ### Lifted states -/

/-- The second state is as the first one, with a choice more around it. After `past` and `past'` the
host has been asked for the same. -/
structure Session.Lifted (same : σ → σ → Prop) (limit level : Nat) (past past' : List Moment)
    (s t : Session σ) : Prop extends Session.Peer same s t where
  maxDepth : t.config.maxDepth = limit
  depth : s.depth = level
  deeper : t.depth = level + 1
  trail : ∃ new new', s.trail = new ++ past ∧ t.trail = new' ++ past' ∧ calls new = calls new'

namespace Session.Lifted

variable {limit level : Nat} {past past' : List Moment} {s t u w : Session σ}

/-- The same moment in both. -/
theorem remember (h : Lifted same limit level past past' s t) (m : Mark) :
    Lifted same limit level past past' (s.remember m) (t.remember m) := by
  obtain ⟨new, new', hs, ht, hcalls⟩ := h.trail
  refine ⟨⟨⟨h.config, h.document, h.shared, h.frame, h.pending⟩, h.host⟩, h.maxDepth, h.depth,
    h.deeper, s.moment m :: new, t.moment m :: new', ?_, ?_, ?_⟩
  · rw [remember_trail, hs, List.cons_append]
  · rw [remember_trail, ht, List.cons_append]
  · have hmoment : calls [s.moment m] = calls [t.moment m] := calls_singleton_congr rfl
    rw [calls_cons, calls_cons (t.moment m), hmoment, hcalls]

/-- The same change in both. -/
theorem edit (h : Lifted same limit level past past' s t) {g : Session σ → Session σ}
    (hg : Edit g) : Lifted same limit level past past' (g s) (g t) := by
  cases hg with
  | note e => exact { h with }
  | frame _ => exact { h with frame := by simp only [h.frame] }
  | shared _ => exact { h with shared := by simp only [h.frame, h.shared] }
  | pending reason => exact { h with pending := rfl }
  | renew vars => exact { h with shared := rfl, pending := rfl }
  | settings slot fill => exact { h with document := by simp only [h.document] }

/-- The same frame in both. -/
theorem withFrame (h : Lifted same limit level past past' s t) {frame frame' : Entries}
    (hframe : frame = frame') :
    Lifted same limit level past past' { s with frame := frame } { t with frame := frame' } :=
  { h with frame := hframe }

/-- Two later states that are peers again, where nothing but notices has come in between. -/
theorem peers (h : Lifted same limit level past past' s t) (hpeer : u.Peer same w)
    (hconfig : w.config = t.config) (hdepth : u.depth = s.depth) (hdeeper : w.depth = t.depth)
    (hs : ∃ new, u.trail = new ++ s.trail ∧ calls new = [])
    (ht : ∃ new, w.trail = new ++ t.trail ∧ calls new = []) :
    Lifted same limit level past past' u w := by
  obtain ⟨new, new', hspast, htpast, hcalls⟩ := h.trail
  obtain ⟨later, hu, hlater⟩ := hs
  obtain ⟨later', hw, hlater'⟩ := ht
  refine ⟨hpeer, ?_, hdepth.trans h.depth, hdeeper.trans h.deeper, later ++ new, later' ++ new',
    ?_, ?_, ?_⟩
  · rw [hconfig]
    exact h.maxDepth
  · rw [hu, hspast, List.append_assoc]
  · rw [hw, htpast, List.append_assoc]
  · rw [calls_append, calls_append, hlater, hlater', hcalls]

/-- Where a choice begins in both. -/
theorem inside (h : Lifted same limit level past past' s t) (c : Choice) :
    Lifted same limit (level + 1) past past' (Choice.inside c s) (Choice.inside c t) := by
  have hcalled := h.remember (.called c)
  have hentered : Lifted same limit (level + 1) past past' ((s.remember (.called c)).enter c)
      ((t.remember (.called c)).enter c) :=
    { hcalled with
      depth := congrArg (· + 1) hcalled.depth
      deeper := congrArg (· + 1) hcalled.deeper }
  exact hentered.remember (.entered c)

/-- Where a choice ends in both. -/
theorem leave (h : Lifted same limit (level + 1) past past' u w) (s t : Session σ) :
    Lifted same limit level past past' (s.leave u) (t.leave w) :=
  { h with
    depth := congrArg (· - 1) h.depth
    deeper := congrArg (· - 1) h.deeper }

end Session.Lifted

open Session (Lifted)

/-! ### Acts that keep states lifted -/

/-- Two acts that end in the same way from lifted states and leave lifted states, unless the second
one reaches the nesting limit. -/
structure Act.Lifts (same : σ → σ → Prop) (limit level : Nat) {α : Type} (a b : Act σ α) :
    Prop where
  grows : b.Grows
  runs : ∀ {past past' : List Moment} {s t : Session σ}, Lifted same limit level past past' s t →
    ReachesLimit limit past' (b.runOn t).2.trail ∨
      (a.runOn s).1 = (b.runOn t).1 ∧
        Lifted same limit level past past' (a.runOn s).2 (b.runOn t).2

namespace Act

variable {host : Host σ} {limit level : Nat} {α β : Type}

theorem Lifts.bind {a b : Act σ α} {f g : α → Act σ β} (h : Lifts same limit level a b)
    (hf : ∀ x, Lifts same limit level (f x) (g x)) :
    Lifts same limit level (a >>= f) (b >>= g) := by
  refine ⟨h.grows.bind fun x => (hf x).grows, fun {past past' s t} hst => ?_⟩
  rcases h.runs hst with hreached | ⟨hresult, hlifted⟩
  · -- what comes next takes nothing away from the trail
    refine .inl (runOn_bind_keeps (P := fun u => ReachesLimit limit past' u.trail) hreached ?_)
    exact fun x u hu => hu.mono ((hf x).grows u)
  · exact runOn_bind_alike (Q := fun run run' => ReachesLimit limit past' run'.2.trail ∨
        run.1 = run'.1 ∧ Lifted same limit level past past' run.2 run'.2)
      hresult (fun x => (hf x).runs hlifted) fun e => .inr ⟨rfl, hlifted⟩

theorem Lifts.inFrame {a b : Act σ α} (h : Lifts same limit level a b) (vars : Entries) :
    Lifts same limit level (Act.inFrame vars a) (Act.inFrame vars b) := by
  refine ⟨fun s => ?_, fun {past past' s t} hst => ?_⟩
  · rw [runOn_inFrame_snd]
    exact h.grows { s with frame := Entries.update [] vars }
  · have hframe : s.frame = t.frame := hst.frame
    rw [runOn_inFrame, runOn_inFrame]
    have hopened : Entries.update [] vars = Entries.update [] vars := rfl
    have hruns := h.runs (hst.withFrame hopened)
    generalize a.runOn { s with frame := Entries.update [] vars } = run at hruns ⊢
    generalize b.runOn { t with frame := Entries.update [] vars } = run' at hruns ⊢
    obtain ⟨x, u⟩ := run
    obtain ⟨x', w⟩ := run'
    rcases hruns with hreached | ⟨hresult, hlifted⟩
    · cases x' with
      | error f => exact .inl hreached
      | ok x' => exact .inl hreached
    · obtain rfl : x = x' := hresult
      have hback := hlifted.withFrame hframe
      cases x with
      | error f => exact .inr ⟨rfl, hback⟩
      | ok x => exact .inr ⟨by rw [proceed_ok, proceed_ok, hlifted.frame], hback⟩

/-- On the same level, whatever a session does apart from choices is lifted. -/
theorem lifts_uniform (ha : host.Aloof) (hu : host.Unmoved same) (limit level : Nat) :
    Uniform.Within host fun {α} (a b : Act σ α) => Lifts same limit level a b where
  pure x := ⟨grows_pure x, fun hst => .inr ⟨rfl, hst⟩⟩
  bind := Lifts.bind
  read h hf := ⟨fun s => (hf s).grows s, fun {past past' s t} hst => by
    rw [runOn_get_bind, runOn_get_bind, ← (h s t hst.toAkin).2]
    exact (hf s).runs hst⟩
  throw _ := ⟨fun _ => List.suffix_rfl, fun hst => .inr ⟨rfl, hst⟩⟩
  settle h := ⟨h.grows, fun hst => (h.runs hst).imp_right fun hend =>
    ⟨congrArg Except.ok hend.1, hend.2⟩⟩
  inFrame vars _ _ h := h.inFrame vars
  edit hg := ⟨fun _ => by cases hg <;> exact List.suffix_rfl, fun hst => .inr ⟨rfl, hst.edit hg⟩⟩
  remember _ := ⟨grows_remember _, fun hst => .inr ⟨rfl, hst.remember _⟩⟩
  offers h := by
    refine ⟨fun s => ha.trail h s ▸ List.suffix_rfl, fun {past past' s t} hst => .inr ?_⟩
    obtain ⟨hresult, hpeer⟩ := hu.acts h hst.toPeer
    refine ⟨hresult, hst.peers hpeer (ha.config h t) (ha.depth h s) (ha.depth h t) ?_ ?_⟩
    · exact ⟨[], ha.trail h s, rfl⟩
    · exact ⟨[], ha.trail h t, rfl⟩

/-! ### What looks at the level or at the host -/

variable (ha : host.Aloof) (hu : host.Unmoved same)

include ha hu

/-- The end of a cancelled choice leaves the reason pending on every level, and asks the host for a
notice at most. -/
theorem runOn_recordCancellation_apart (c : Choice) (preset reason : String) (s : Session σ) :
    ∃ t, (recordCancellation host c preset reason).runOn s = (.ok (), t) ∧
      Session.Peer same { s with pending := some reason } t ∧ t.depth = s.depth ∧
      ∃ new, t.trail = new ++ s.trail ∧ calls new = [] := by
  have he := hu.equivalence
  let recorded := { s with pending := some reason }.remember (.recorded c reason)
  have hpeer : Session.Peer same { s with pending := some reason } recorded :=
    (Session.Peer.refl he _).remember _
  have hquiet : ∃ new, recorded.trail = new ++ s.trail ∧ calls new = [] :=
    ⟨[Session.moment { s with pending := some reason } (.recorded c reason)], rfl, rfl⟩
  rcases runOn_recordCancellation_cases host c preset reason s with hrun | ⟨-, text, hrun⟩
  · exact ⟨recorded, hrun, hpeer, rfl, hquiet⟩
  · let told := recorded.remember (.asked (.notify text))
    obtain ⟨t, hnotify, htold⟩ := hu.notice text told
    have hdepth := ha.depth (.notify text) told
    have htrail := ha.trail (.notify text) told
    rw [hnotify] at hdepth htrail
    refine ⟨t, ?_, (hpeer.remember _).trans he htold, hdepth, ?_⟩
    · rw [hrun, runOn_ask, hnotify]
      rfl
    · exact ⟨[recorded.moment (.asked (.notify text)),
        Session.moment { s with pending := some reason } (.recorded c reason)], htrail, rfl⟩

/-- The end of a cancelled choice is lifted, whether or not the user is told. -/
theorem recordCancellation_lifts (c : Choice) (preset reason : String) :
    Lifts same limit level (recordCancellation host c preset reason)
      (recordCancellation host c preset reason) := by
  have he := hu.equivalence
  have hgrows := (grows_uniform ha.trail).surroundings.recordCancellation c preset reason
  refine ⟨hgrows, fun {past past' s t} hst => .inr ?_⟩
  obtain ⟨u, hs, hpeer, hdepth, htrail⟩ := runOn_recordCancellation_apart ha hu c preset reason s
  obtain ⟨w, ht, hpeer', hdepth', htrail'⟩ :=
    runOn_recordCancellation_apart ha hu c preset reason t
  rw [hs, ht]
  have hmiddle : Session.Peer same { s with pending := some reason }
      { t with pending := some reason } := { hst.toPeer with pending := rfl }
  have hends : u.Peer same w := (hpeer.symm he).trans he (hmiddle.trans he hpeer')
  exact ⟨rfl, hst.peers hends hpeer'.config.symm hdepth hdepth' htrail htrail'⟩

/-- The user goes through menus in the same way, as often as the host allows. -/
theorem browse_lifts (m : Menu) :
    Lifts same limit level (m.browse host) (m.browse host) := by
  have u := lifts_uniform ha hu limit level
  have hnavigate : ∀ fuel, Lifts same limit level (m.navigate host fuel) (m.navigate host fuel) :=
    fun fuel => u.congruence.toRegular.navigate (fun _ _ _ => u.ask _ (.suggest _ _ _)) fuel m
  refine ⟨(grows_uniform ha.trail).surroundings.browse m, fun {past past' s t} hst => ?_⟩
  rw [Menu.browse, runOn_get_bind, runOn_get_bind, hu.patience hst.host]
  exact (hnavigate _).runs hst

theorem lifts_surroundings (limit level : Nat) :
    Surroundings host (fun {α} (a b : Act σ α) => Lifts same limit level a b)
      fun {α} (a b : Act σ α) => Lifts same limit level a b :=
  (lifts_uniform ha hu limit level).surroundings (recordCancellation_lifts ha hu)
    (browse_lifts ha hu)

end Act

/-! ### Choices -/

namespace Choice

open Act (Lifts)

variable {host : Host σ} {limit level : Nat}

/-- A choice that is refused has reached the limit. -/
theorem reachesLimit_of_refused (browse : Menu → Act σ (Option Choice))
    (execute : Placed → Act σ Unit) {s : Session σ} (p : Placed)
    (h : s.config.maxDepth ≤ s.depth) : ReachesLimit s.config.maxDepth s.trail
      ((executeOnce host browse execute p).runOn s).2.trail := by
  let called := s.remember (.called p.choice)
  let refused : Mark := .failed (.tooDeep p.choice.name.display s.config.maxDepth)
  have hrefusal : (s.moment (.called p.choice)).isRefusal s.config.maxDepth = true :=
    decide_eq_true h
  rw [runOn_executeOnce_refused h]
  refine ⟨[called.moment refused, s.moment (.called p.choice)], rfl, ?_⟩
  rw [List.any_cons, List.any_cons, hrefusal, Bool.true_or, Bool.or_true]

variable (ha : host.Aloof)

include ha

/-- Whatever runs instead, a choice that is called at the limit reaches it. -/
private theorem refused_lifts (hlimit : limit ≤ level + 1) (a : Act σ Unit) (levels : Nat)
    (p : Placed) : Lifts same limit level a (executeAt host (levels + 1) p) := by
  refine ⟨grows_executeAt ha.trail _ p, fun {past past' s t} hst => .inl ?_⟩
  obtain ⟨-, new', -, htrail, -⟩ := hst.trail
  have hfull : t.config.maxDepth ≤ t.depth := by
    rw [hst.maxDepth, hst.deeper]
    exact hlimit
  have hreached : ReachesLimit t.config.maxDepth t.trail
      ((executeAt host (levels + 1) p).runOn t).2.trail :=
    reachesLimit_of_refused (Menu.browse host) (executeAt host levels) p hfull
  rw [hst.maxDepth] at hreached
  exact hreached.since ⟨new', htrail.symm⟩

variable (hu : host.Unmoved same)

include hu

/-- **A choice does the same one level deeper**, if both times the levels are enough. -/
theorem executeAt_lifts {i j : Nat} (hi : limit ≤ level + i) (hj : limit ≤ level + 1 + j)
    (p : Placed) :
    Lifts same limit level (executeAt host (i + 1) p) (executeAt host (j + 1) p) := by
  -- by induction on the levels of the deeper run, which are used up at the limit
  induction j generalizing level i p with
  | zero => exact refused_lifts ha hj _ 0 p
  | succ j ih =>
    by_cases hlimit : limit ≤ level + 1
    · exact refused_lifts ha hlimit _ (j + 1) p
    · obtain ⟨i, rfl⟩ : ∃ i', i = i' + 1 := ⟨i - 1, by omega⟩
      have hinner : ∀ p, Lifts same limit (level + 1) (executeAt host (i + 1) p)
          (executeAt host (j + 1) p) := fun p => ih (by omega) (by omega) p
      have hperform := (Act.lifts_surroundings ha hu limit (level + 1)).perform
        ((Act.lifts_uniform ha hu limit (level + 1)).comparison hinner)
        (Act.browse_lifts ha hu) hinner p
      refine ⟨grows_executeAt ha.trail _ p, fun {past past' s t} hst => ?_⟩
      have hmax : s.config.maxDepth = limit := by
        rw [hst.config]
        exact hst.maxDepth
      have hs : ¬s.config.maxDepth ≤ s.depth := by
        rw [hmax, hst.depth]
        omega
      have ht : ¬t.config.maxDepth ≤ t.depth := by
        rw [hst.maxDepth, hst.deeper]
        exact hlimit
      rw [executeAt, executeAt, runOn_executeOnce hs, runOn_executeOnce ht]
      rcases hperform.runs (hst.inside p.choice) with hreached | ⟨hresult, hlifted⟩
      · exact .inl hreached
      · exact .inr ⟨hresult, hlifted.leave s t⟩

/-- A choice with the levels that the limit leaves, against one on the next level. -/
theorem execute_lifts {j : Nat} (hj : limit ≤ level + 1 + j) (p : Placed) :
    Lifts same limit level (execute host p) (executeAt host (j + 1) p) := by
  refine ⟨grows_executeAt ha.trail _ p, fun {past past' s t} hst => ?_⟩
  have hlevels : limit ≤ level + (s.config.maxDepth - s.depth) := by
    rw [hst.config, hst.maxDepth, hst.depth]
    omega
  rw [execute, Act.runOn_get_bind]
  exact (executeAt_lifts ha hu hlevels hj p).runs hst

end Choice

/-- **A macro does the same on its own and as what a choice does**, if the levels are enough that
are left inside of the choice. -/
theorem Running.runBody_lifts {host : Host σ} {limit level levels : Nat} (ha : host.Aloof)
    (hu : host.Unmoved same) (h : limit ≤ level + 1 + levels) (name : Value)
    (body : Option Macro) :
    Act.Lifts same limit level (runBody ⟨host, Choice.execute host, name⟩ body)
      (runBody ⟨host, Choice.executeAt host (levels + 1), name⟩ body) :=
  have u := Act.lifts_uniform ha hu limit level
  (u.comparison (Choice.execute_lifts ha hu h)).runBody name body

end Choicebook
