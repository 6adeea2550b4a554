import Choicebook.Proofs.Session.Inlining
import Choicebook.Proofs.Session.Runs

/-!
# Choices side by side

Outside of macros, two sessions that are twins go by the kind of the choice. A template or a capture
asks the host, a menu lets the user select, and a macro runs its commands in a frame of its own; in
each case both sessions end in the same way and have the frames back that they had. With this a
choice is the same in both sessions if the choices one level deeper are
(`Inlining.executes_once`), and so is what the command runs that is unfolded.

The frames around a choice need not be the same, because no choice looks at them.
-/

namespace Choicebook

variable {σ : Type}

namespace Inlining

variable {i : Inlining σ} {kept vars vars' : Entries} {d e : Nat} {s t : Session σ}
  {signal : Option String} {execute other : Placed → Act σ Unit}

/-! ### The ends of a choice -/

theorem Outside.remember (h : i.Outside vars vars' signal d e s t) {m n : Mark}
    (hm : m.asked? = none) (hn : n.asked? = none) :
    i.Outside vars vars' signal d e (s.remember m) (t.remember n) :=
  { h with toTwins := h.toTwins.remember hm hn }

theorem Twins.lt_limit (h : i.Twins d e s t) (hdepth : ¬s.config.maxDepth ≤ s.depth) :
    d < i.limit := by
  rw [← h.limit, ← h.depth]
  exact Nat.lt_of_not_le hdepth

/-- A choice begins in both sessions. -/
theorem Outside.inside (h : i.Outside vars vars' signal d e s t) (c c' : Choice) :
    i.Outside vars vars' signal (d + 1) (e + 1) (Choice.inside c s) (Choice.inside c' t) := by
  have hcalled := h.remember (m := .called c) (n := .called c') rfl rfl
  have hentered : i.Outside vars vars' signal (d + 1) (e + 1) ((s.remember (.called c)).enter c)
      ((t.remember (.called c')).enter c') :=
    { hcalled with
      depth := congrArg (· + 1) hcalled.depth
      depth' := congrArg (· + 1) hcalled.depth'
      deeper := Nat.succ_le_succ hcalled.deeper
      outermost := fun he => absurd he (Nat.succ_ne_zero e) }
  exact hentered.remember rfl rfl

/-- A choice ends in both sessions. -/
theorem Twins.leave {u v : Session σ} (h : i.Twins (d + 1) (e + 1) u v) (hst : i.Twins d e s t) :
    i.Twins d e (s.leave u) (t.leave v) :=
  { h with
    depth := congrArg (· - 1) h.depth
    depth' := congrArg (· - 1) h.depth'
    deeper := hst.deeper
    outermost := hst.outermost }

/-- What the outcome of an act outside of macros is: both are back in the frames that they had. -/
abbrev Back (i : Inlining σ) (vars vars' : Entries) (d e : Nat) {α β : Type} (_ : α)
    (u : Session σ) (_ : β) (v : Session σ) : Prop :=
  ∃ signal, i.Outside vars vars' signal d e u v

/-- Where the command can be unfolded, a choice that is called is within the nesting limit. -/
theorem Permitted.within {trail : List Moment} (h : i.Permitted trail) (hst : i.Twins d e s t)
    {c : Choice} (hcalled : s.moment (.called c) :: s.trail <:+ trail) :
    ¬s.config.maxDepth ≤ s.depth := by
  have hdepth := (h.moment hcalled hst.abreast).called c rfl
  rw [hst.limit]
  exact not_le_of_gt hdepth

/-! ### Choices of each kind -/

section

variable (hi : i.host.Impartial i.states)

include hi

/-- Both hosts are asked for the same outside of macros. -/
theorem outside_ask {E : Fault → Fault → Prop} [Std.Refl E] {α : Type} {event event' : Event}
    (hevent : event.Alike event') {a : Act σ α} (ha : i.host.Offers a)
    (hst : i.Outside vars vars' signal d e s t)
    (hnamed : (a.runOn (s.remember (.asked event))).2.shared.Named)
    (hnamed' : (a.runOn (t.remember (.asked event'))).2.shared.Named) :
    Ended E (fun x u y v => x = y ∧ i.Outside vars vars' signal d e u v)
      (i.Outside vars vars' signal d e) ((Act.ask event a).runOn s)
      ((Act.ask event' a).runOn t) := by
  have hleft := hi.untouched ha (s.remember (.asked event))
  have hright := hi.untouched ha (t.remember (.asked event'))
  obtain ⟨hresult, hafter⟩ :=
    (hst.toTwins.asked hevent).runOn hi (.same ha) ha ha hnamed hnamed'
  exact ended_ask (R := i.Outside vars vars' signal d e) hresult { hafter with
    frame := hleft.frame.trans hst.frame
    frame' := hright.frame.trans hst.frame'
    pending := hleft.pending.trans hst.pending
    pending' := hright.pending.trans hst.pending' } fun _ _ _ h => h.remember rfl rfl

/-- The same for what has nothing to do with the shared variables. -/
theorem outside_serves {E : Fault → Fault → Prop} [Std.Refl E] {α : Type} (event : Event)
    {a : Act σ α} (ha : i.host.Serves a) (hst : i.Outside vars vars' signal d e s t) :
    Ended E (fun x u y v => x = y ∧ i.Outside vars vars' signal d e u v)
      (i.Outside vars vars' signal d e) ((Act.ask event a).runOn s)
      ((Act.ask event a).runOn t) := by
  have hshared := hi.shared ha (s.remember (.asked event))
  have hshared' := hi.shared ha (t.remember (.asked event))
  exact outside_ask hi (.same event) ha.offers hst (hshared ▸ hst.shared.left)
    (hshared' ▸ hst.shared.right)

/-- A choice is cancelled in both sessions, as the outermost one or not. -/
theorem recordCancellation_sides {c c' : Choice} (hkind : c'.kind = c.kind)
    (hname : c'.name = c.name) (preset reason : String) (hst : i.Twins d e s t)
    (hnotice : 1 < d ↔ 1 < e) (hframe : s.frame = vars) (hframe' : t.frame = vars') :
    i.Sides d e (i.Back vars vars' d e)
      ((Act.recordCancellation i.host c preset reason).runOn s)
      ((Act.recordCancellation i.host c' preset reason).runOn t) := by
  have hpending : i.Outside vars vars' (some reason) d e { s with pending := some reason }
      { t with pending := some reason } :=
    { hst with
      frame := hframe
      frame' := hframe'
      pending := rfl
      pending' := rfl }
  have hrecorded := hpending.remember (m := .recorded c reason) (n := .recorded c' reason) rfl rfl
  rw [Act.recordCancellation, Act.recordCancellation, Act.runOn_modify_bind, Act.runOn_modify_bind,
    Act.runOn_remember_bind, Act.runOn_remember_bind, Act.runOn_get_bind, Act.runOn_get_bind,
    hkind, hname, hrecorded.depth, hrecorded.depth', hrecorded.config]
  intro _
  -- the notice is given in both sessions or in neither
  by_cases hd : 1 < d
  · rw [if_pos hd, if_pos (hnotice.mp hd)]
    exact .ok ⟨_, hrecorded⟩
  · rw [if_neg hd, if_neg fun he => hd (hnotice.mpr he)]
    dsimp only
    split
    · next text _ =>
      have hask := outside_serves (E := Fault.Alike) hi (.notify text) (.notify text) hrecorded
      generalize (Act.ask (.notify text) (i.host.notify text)).runOn _ = run at hask ⊢
      generalize (Act.ask (.notify text) (i.host.notify text)).runOn _ = run' at hask ⊢
      cases hask with
      | ok h => exact .ok ⟨_, h.2⟩
      | error hf h => exact .error hf h.toTwins
    · exact .ok ⟨_, hrecorded⟩

/-- A template or a capture. The host is given the shared variables, which may be in another
order. -/
theorem delegate_sides (c : Choice) (event : Entries → Event) {a : Act σ Unit}
    (ha : i.host.Offers a) (hevent : ∀ {m n : Entries}, m.Alike n → (event m).Alike (event n))
    (hnamed : (s.moment (.asked (event s.shared))).Permits i.host i.states i.limit i.command →
      ∀ u : Session σ, u.shared.Named → (a.runOn u).2.shared.Named)
    (hst : i.Outside vars vars' none d e s t) (hnotice : 1 < d ↔ 1 < e) :
    i.Sides d e (i.Back vars vars' d e)
      ((Choice.delegate i.host c do Act.ask (event (← get).shared) a).runOn s)
      ((Choice.delegate i.host c do Act.ask (event (← get).shared) a).runOn t) := by
  intro hpermitted
  have hasked : s.moment (.asked (event s.shared)) :: s.trail <:+
      ((Choice.delegate i.host c do Act.ask (event (← get).shared) a).runOn s).2.trail := by
    have h := hi.asked (event s.shared) ha Act.grows_pure s
    rw [bind_pure] at h
    rw [Choice.runOn_delegate, Act.runOn_get_bind]
    refine h.trans ?_
    split
    · exact List.suffix_rfl
    · exact hi.grows.surroundings.recordCancellation _ _ _ _
    · exact List.suffix_rfl
  -- that the question is permitted is known from the moment at which it was asked
  have hnames := hnamed (hpermitted.moment hasked hst.abreast)
  have hask := outside_ask (E := Eq) hi (hevent hst.shared) ha hst
    (hnames _ hst.shared.left) (hnames _ hst.shared.right)
  rw [Choice.runOn_delegate, Act.runOn_get_bind] at hpermitted ⊢
  rw [Choice.runOn_delegate, Act.runOn_get_bind]
  generalize (Act.ask (event s.shared) a).runOn s = run at hask hpermitted ⊢
  generalize (Act.ask (event t.shared) a).runOn t = run' at hask ⊢
  cases hask with
  | ok h => exact .ok ⟨_, h.2⟩
  | @error f _ u v hf h =>
    subst hf
    cases f with
    | cancelled reason =>
      exact recordCancellation_sides hi rfl rfl _ reason h.toTwins hnotice h.frame h.frame'
        hpermitted
    | _ => exact .error (.same _) h.toTwins

/-- The body of a macro. -/
theorem runBody_sides (hgrow : ∀ p, (execute p).Grows) (hexec : i.Executes d e execute other)
    (hinline : i.Inlines d e execute other) (hbody : i.body ≠ []) {name name' : Value}
    {body body' : Option Macro}
    (hcommands : Command.UnfoldsAll i.command i.body ((body.map Macro.commands).getD [])
      ((body'.map Macro.commands).getD [])) (hst : i.Inside kept d e s t) :
    i.Sides d e (fun _ u _ v => i.Inside kept d e u v)
      ((Running.runBody ⟨i.host, execute, name⟩ body).runOn s)
      ((Running.runBody ⟨i.host, other, name'⟩ body').runOn t) := by
  rw [Running.runBody, Running.runBody]
  generalize (body.map Macro.commands).getD [] = xs at hcommands ⊢
  generalize (body'.map Macro.commands).getD [] = ys at hcommands ⊢
  cases xs with
  | nil =>
    cases hcommands
    exact fun _ => .ok { hst with }
  | cons x xs =>
    have hys : ys ≠ [] := hcommands.ne_nil hbody (List.cons_ne_nil x xs)
    obtain ⟨y, ys, rfl⟩ := List.exists_cons_of_ne_nil hys
    dsimp only
    rw [map_eq_pure_bind, map_eq_pure_bind]
    exact (runCommands_sides hi hgrow hexec hinline _ _ hcommands none none s t hst).bind
      (fun _ => Act.grows_pure _) fun _ _ _ _ huv _ => .ok huv.1

/-- A macro choice. -/
theorem runMacro_sides (hgrow : ∀ p, (execute p).Grows) (hexec : i.Executes d e execute other)
    (hinline : i.Inlines d e execute other) (hbody : i.body ≠ []) {c c' : Choice}
    (hkind : c'.kind = c.kind) (hname : c'.name = c.name) {body body' : Option Macro}
    (hcommands : Command.UnfoldsAll i.command i.body ((body.map Macro.commands).getD [])
      ((body'.map Macro.commands).getD [])) (hst : i.Outside vars vars' none d e s t)
    (hnotice : 1 < d ↔ 1 < e) (he : 0 < e) :
    i.Sides d e (i.Back vars vars' d e) ((Choice.runMacro i.host execute c body).runOn s)
      ((Choice.runMacro i.host other c' body').runOn t) := by
  have hopened : i.Inside [] d e (Choice.opened s) (Choice.opened t) :=
    { hst with
      frame := Entries.named_nil.alike.update hst.shared
      covers := .of_update _ _
      kept := fun _ _ => rfl
      inside := he }
  have hrun : i.Sides d e (fun _ u _ v => i.Inside [] d e u v)
      ((Running.runBody ⟨i.host, execute, c.name⟩ body).runOn (Choice.opened s))
      ((Running.runBody ⟨i.host, other, c'.name⟩ body').runOn (Choice.opened t)) :=
    runBody_sides hi hgrow hexec hinline hbody hcommands hopened
  intro hpermitted
  cases hleft : (Running.runBody ⟨i.host, execute, c.name⟩ body).runOn (Choice.opened s) with
  | mk r u =>
    cases hright : (Running.runBody ⟨i.host, other, c'.name⟩ body').runOn (Choice.opened t) with
    | mk r' v =>
      rw [hleft, hright] at hrun
      -- the left body decides; the right one is known to end alike once the left is permitted
      cases r with
      | ok x =>
        rw [Choice.runOn_runMacro_ok hleft] at hpermitted ⊢
        cases hrun hpermitted with
        | ok huv =>
          rw [Choice.runOn_runMacro_ok hright]
          exact .ok ⟨none, { huv.push.1 with
            frame := hst.frame
            frame' := hst.frame' }⟩
      | error f =>
        cases hf : f.isCancelled with
        | true =>
          obtain ⟨reason, rfl⟩ := Fault.eq_cancelled hf
          rw [Choice.runOn_runMacro_cancelled hleft] at hpermitted ⊢
          have hgrow := hi.grows.surroundings.recordCancellation c Fault.defaultReason reason
            { u with frame := s.frame }
          cases hrun (hpermitted.mono hgrow) with
          | error hfault huv =>
            cases hfault
            rw [Choice.runOn_runMacro_cancelled hright]
            exact recordCancellation_sides hi hkind hname _ reason { huv with } hnotice hst.frame
              hst.frame' hpermitted
        | false =>
          rw [Choice.runOn_runMacro_error hf hleft] at hpermitted ⊢
          cases hrun hpermitted with
          | error hfault huv =>
            rw [Choice.runOn_runMacro_error (hfault.isCancelled_eq ▸ hf) hright]
            exact .error hfault { huv with }

/-- Going through menus: the user selects the same, and so the same opens. -/
theorem navigate_sides (fuel : Nat) {m n : Menu} (hmn : Menu.Unfolds i.command i.body m n)
    (hst : i.Outside vars vars' none d e s t) :
    Ended Fault.Alike
      (fun x u y v => Option.Rel (Choice.Unfolds i.command i.body) x y ∧
        i.Outside vars vars' none d e u v)
      (i.Twins d e) ((m.navigate i.host fuel).runOn s) ((n.navigate i.host fuel).runOn t) := by
  induction fuel generalizing m n s t with
  | zero => exact .ok ⟨.none, hst⟩
  | succ fuel ih =>
    have hask := outside_serves (E := Fault.Alike) hi (.suggest m.labels m.placeholder)
      (.suggest m.labels m.labels.length m.placeholder) hst
    rw [Menu.navigate, Menu.navigate, Menu.offer, Menu.offer, hmn.labels_eq, hmn.placeholder,
      Act.runOn_bind, Act.runOn_bind]
    generalize (Act.ask (.suggest m.labels m.placeholder)
      (i.host.suggest m.labels m.labels.length m.placeholder)).runOn s = run at hask ⊢
    generalize (Act.ask (.suggest m.labels m.placeholder)
      (i.host.suggest m.labels m.labels.length m.placeholder)).runOn t = run' at hask ⊢
    cases hask with
    | error hf h => exact .error hf h.toTwins
    | @ok position _ _ _ h =>
      obtain ⟨rfl, huv⟩ := h
      have hstep := hmn.select position
      rw [Act.proceed_ok, Act.proceed_ok]
      generalize m.select position = left at hstep ⊢
      generalize n.select position = right at hstep ⊢
      cases hstep with
      | cancelled => exact .ok ⟨.none, huv⟩
      | «open» hmn => exact ih hmn huv
      | run hxy => exact .ok ⟨.some hxy, huv⟩

/-- A menu choice. -/
theorem runMenu_sides (hgrow : ∀ p, (execute p).Grows) (hexec : i.Executes d e execute other)
    {p q : Placed} (hpq : Placed.Unfolds i.command i.body p q) {xs ys : List Choice}
    (hxs : Choice.UnfoldsAll i.command i.body xs ys)
    (hst : i.Outside vars vars' none d e s t) (hnotice : 1 < d ↔ 1 < e) :
    i.Sides d e (i.Back vars vars' d e)
      ((Choice.runMenu i.host (Menu.browse i.host) execute p xs).runOn s)
      ((Choice.runMenu i.host (Menu.browse i.host) other q ys).runOn t) := by
  cases hxs with
  | nil =>
    rw [Choice.runMenu, Choice.runMenu]
    exact fun _ => .ok ⟨none, { hst with }⟩
  | @cons x y xs ys hx hxs =>
    have hoffers : ∀ (z : Choice) (zs : List Choice), ¬(z :: zs).isEmpty = true := fun _ _ =>
      Bool.false_ne_true
    rw [Choice.runOn_runMenu (hoffers x xs), Choice.runOn_runMenu (hoffers y ys)]
    -- the list in which the menu stands is unfolded like the menu itself
    have hmenu : Menu.Unfolds i.command i.body
        ⟨x :: xs, (Placed.list? s.document p).toList, p.choice.name⟩
        ⟨y :: ys, (Placed.list? t.document q).toList, q.choice.name⟩ :=
      ⟨.cons hx hxs, Placed.list?_unfolds hst.document hpq, hpq.choice.name_eq⟩
    have hbrowse : i.Sides d e
        (fun x u y v => Option.Rel (Choice.Unfolds i.command i.body) x y ∧
          i.Outside vars vars' none d e u v)
        ((Menu.browse i.host
          ⟨x :: xs, (Placed.list? s.document p).toList, p.choice.name⟩).runOn s)
        ((Menu.browse i.host
          ⟨y :: ys, (Placed.list? t.document q).toList, q.choice.name⟩).runOn t) := by
      rw [Menu.browse, Menu.browse, Act.runOn_get_bind, Act.runOn_get_bind, hst.host]
      exact fun _ => navigate_sides hi _ hmenu hst
    refine hbrowse.bind (fun chosen => ?_) fun chosen u chosen' v huv => ?_
    · cases chosen with
      | none => exact hi.grows.surroundings.recordCancellation _ _ _
      | some c => exact hgrow _
    · obtain ⟨hchosen, huv⟩ := huv
      cases hchosen with
      | none =>
        exact recordCancellation_sides hi hpq.choice.kind_eq hpq.choice.name_eq _ _ huv.toTwins
          hnotice huv.frame huv.frame'
      | some hxy => exact hexec (.alone hxy) huv

/-- What a choice of each kind does. -/
theorem perform_sides (hgrow : ∀ p, (execute p).Grows) (hexec : i.Executes d e execute other)
    (hinline : i.Inlines d e execute other) (hbody : i.body ≠ []) {p q : Placed}
    (hpq : Placed.Unfolds i.command i.body p q) (hst : i.Outside vars vars' none d e s t)
    (hnotice : 1 < d ↔ 1 < e) (he : 0 < e) :
    i.Sides d e (i.Back vars vars' d e)
      ((Choice.perform i.host (Menu.browse i.host) execute p).runOn s)
      ((Choice.perform i.host (Menu.browse i.host) other q).runOn t) := by
  obtain ⟨x, xs⟩ := p
  obtain ⟨y, ys⟩ := q
  cases hpq.choice with
  | same =>
    cases x with
    | template h payload =>
      rw [Choice.perform, Choice.perform]
      exact delegate_sides hi _ (.template h.name payload) (.runTemplate h payload)
        (.template h.name payload) (fun hm => (hm.template _ _ _ rfl).template h) hst hnotice
    | capture h payload =>
      rw [Choice.perform, Choice.perform]
      exact delegate_sides hi _ (.capture h.name payload) (.runCapture h payload)
        (.capture h.name payload) (fun hm => (hm.capture _ _ _ rfl).capture h) hst hnotice
    | ofMacro h body =>
      rw [Choice.perform, Choice.perform]
      exact runMacro_sides hi hgrow hexec hinline hbody rfl rfl (.refl _) hst hnotice he
    | multi h choices collapsed =>
      rw [Choice.perform, Choice.perform]
      exact runMenu_sides hi hgrow hexec hpq (.refl _) hst hnotice
  | ofMacro h id name runOnStartup hs =>
    rw [Choice.perform, Choice.perform]
    exact runMacro_sides hi hgrow hexec hinline hbody hpq.choice.kind_eq hpq.choice.name_eq hs hst
      hnotice he
  | multi h collapsed hs =>
    rw [Choice.perform, Choice.perform]
    exact runMenu_sides hi hgrow hexec hpq hs hst hnotice

/-- A choice on one level, if the next one is the same in both sessions. -/
theorem executes_once (hgrow : ∀ p, (execute p).Grows)
    (hnext : d < i.limit → e ≤ d →
      i.Executes (d + 1) (e + 1) execute other ∧ i.Inlines (d + 1) (e + 1) execute other)
    (hbody : i.body ≠ []) :
    i.Executes d e (Choice.executeOnce i.host (Menu.browse i.host) execute)
      (Choice.executeOnce i.host (Menu.browse i.host) other) := by
  intro p q vars vars' s t hpq hst hpermitted
  have hdeeper := hst.deeper
  have houtermost := hst.outermost
  by_cases hdepth : s.config.maxDepth ≤ s.depth
  · rw [Choice.runOn_executeOnce_refused hdepth] at hpermitted
    exact absurd hdepth (hpermitted.within hst.toTwins (List.suffix_cons _ _))
  · have hdepth' : ¬t.config.maxDepth ≤ t.depth := by
      rw [hst.config, hst.depth']
      rw [hst.depth] at hdepth
      omega
    rw [Choice.runOn_executeOnce hdepth] at hpermitted ⊢
    rw [Choice.runOn_executeOnce hdepth']
    obtain ⟨hexec, hinline⟩ := hnext (hst.lt_limit hdepth) hdeeper
    have hinside := hst.inside p.choice q.choice
    have hperform := perform_sides hi hgrow hexec hinline hbody hpq hinside (by omega)
      (Nat.succ_pos e)
    generalize (Choice.perform i.host (Menu.browse i.host) execute p).runOn
      (Choice.inside p.choice s) = run at hperform hpermitted ⊢
    generalize (Choice.perform i.host (Menu.browse i.host) other q).runOn
      (Choice.inside q.choice t) = run' at hperform ⊢
    cases hperform hpermitted with
    | ok h =>
      obtain ⟨signal, huv⟩ := h
      exact .ok ⟨signal, { huv with toTwins := huv.toTwins.leave hst.toTwins }⟩
    | error hf huv => exact .error hf (huv.leave hst.toTwins)

end

end Inlining

end Choicebook
