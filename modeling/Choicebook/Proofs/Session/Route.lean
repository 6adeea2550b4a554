import Choicebook.Proofs.Session.Failure
import Choicebook.Proofs.Session.Verdict

/-!
# Macros without scripts

A macro without scripts and without other choices changes no variables: its commands are things that
are done outside, and conditionals on variables. So the way that it takes can be told before it is
run. `Command.routeAll` goes through the tree with the variables of the start and lists what is to
be done, in order.

The run follows that route (`Runner.run_route`). It does everything on it, once and in order, and
ends there, or it ends at the first thing that the host fails to do. There are two more ends. In a
pause that does not end the run stays for ever. And where a condition has no verdict, the run fails
although the host has done all that it was asked for. The rehearsal at the end is such a run: it
compares a number that is too large for a double.

The induction is on the tree of commands. Its invariant is `Session.Holds`: at the two ends of every
command, both maps of variables have the values of the start.
-/

namespace Choicebook

variable {σ : Type}

/-! ### Routes -/

/-- A place on the way through a macro. -/
inductive Waypoint where
  /-- Something is done outside. -/
  | deed (e : Event)
  /-- A condition has no verdict. -/
  | impasse (f : Fault)

namespace Command

/-- How a command pauses, if it does. -/
def pause? : Command → Option Event
  | .wait _ time => some (.sleep (Running.seconds time))
  | _ => none

/-- What a command itself does outside. -/
def deed? : Command → Option Event
  | .host _ commandId => some (.command commandId)
  | .editor _ action => some (.edit action.label)
  | .openFile _ path inNewTab direction => some (.openFile path inNewTab direction)
  | c => c.pause?

mutual

/-- Whether a command does something outside, or is a conditional on a variable whose branches have
such commands only. -/
def isPlain : Command → Bool
  | .host .. | .editor .. | .openFile .. | .wait .. => true
  | .conditional _ (.onVariable _) thens elses => arePlain thens && arePlain elses
  | _ => false

/-- The same for all commands of a list. -/
def arePlain : List Command → Bool
  | [] => true
  | c :: cs => isPlain c && arePlain cs

end

mutual

/-- The way through a command, if the variables are these. -/
def route (vars : Entries) : Command → List Waypoint
  | .conditional _ (.onVariable c) thens elses =>
    match c.evaluate vars with
    | .ok v => if v.holds then routeAll vars thens else routeAll vars elses
    | .error f => [.impasse f]
  | c => c.deed?.toList.map .deed

/-- The way through a list of commands. -/
def routeAll (vars : Entries) : List Command → List Waypoint
  | [] => []
  | c :: cs => route vars c ++ routeAll vars cs

end

end Command

/-! ### Deeds on the trail -/

/-- The pauses of a session, in order. -/
def Session.pauses (s : Session σ) : List Event :=
  s.events.toList.filter Event.isPause

theorem Session.pauses_note (s : Session σ) (e : Event) :
    (s.note e).pauses = s.pauses ++ [e].filter Event.isPause := by
  rw [pauses, pauses, note, Array.toList_push, List.filter_append]

/-- What is done outside at a mark: the host is asked for something, or a pause begins. -/
def Mark.deed? : Mark → Option Event
  | .asked e => some e
  | .started _ c => c.pause?
  | _ => none

/-- What is done outside in a stretch of a trail, in order. -/
def deeds (new : List Moment) : List Event :=
  new.reverse.filterMap (·.mark.deed?)

theorem deeds_singleton (m : Moment) : deeds [m] = m.mark.deed?.toList := by
  rw [deeds, List.reverse_singleton, List.filterMap_cons, List.filterMap_nil]
  cases m.mark.deed? <;> rfl

theorem deeds_append (new' new : List Moment) : deeds (new' ++ new) = deeds new ++ deeds new' := by
  rw [deeds, List.reverse_append, List.filterMap_append]
  rfl

/-- The host fails to do something that a command asks for. -/
inductive Host.Fails (host : Host σ) : Event → Fault → Prop where
  | command {commandId : String} {f : Fault} {s : Session σ}
    (h : ((host.runCommand commandId).runOn s).1 = .error f) : Fails host (.command commandId) f
  | edit {action : EditorAction} {f : Fault} {s : Session σ}
    (h : ((host.edit action).runOn s).1 = .error f) : Fails host (.edit action.label) f
  | openFile {path : String} {inNewTab : Bool} {direction : Value} {f : Fault} {s : Session σ}
    (h : ((host.openFile path inNewTab direction).runOn s).1 = .error f) :
    Fails host (.openFile path inNewTab direction) f

/-- A stretch of a trail leads along a route, and ends with a fault or without. -/
inductive Followed (host : Host σ) (route : List Waypoint) : Option Fault → List Moment → Prop where
  /-- Everything on the route has been done. -/
  | through {new : List Moment} (hclean : Clean new) (hroute : route = (deeds new).map .deed) :
    Followed host route none new
  /-- Everything has been done up to a condition without a verdict. -/
  | undecided {f : Fault} {m : Moment} {new : List Moment} (hclean : Clean new)
    (hm : m.mark = .failed f) (rest : List Waypoint)
    (hroute : route = (deeds new).map .deed ++ .impasse f :: rest) :
    Followed host route (some f) (m :: new)
  /-- Everything has been done up to something that the host has failed to do. -/
  | refused {f : Fault} {e : Event} {m asked : Moment} {new : List Moment}
    (hclean : Clean (asked :: new)) (ha : asked.mark = .asked e) (hm : m.mark = .failed f)
    (hfails : host.Fails e f) (rest : List Waypoint)
    (hroute : route = (deeds (asked :: new)).map .deed ++ rest) :
    Followed host route (some f) (m :: asked :: new)
  /-- Everything has been done up to a pause that does not end. -/
  | stuck {m : Moment} {new : List Moment} (hclean : Clean new) (hm : m.mark = .failed .endless)
    (hhost : host.skipsPauses = false)
    (hpause : (deeds new).getLast? = some (.sleep (.infinite false))) (rest : List Waypoint)
    (hroute : route = (deeds new).map .deed ++ rest) : Followed host route (some .endless) (m :: new)

namespace Followed

variable {host : Host σ} {route route' : List Waypoint} {fault : Option Fault} {f : Fault}
  {new new' : List Moment}

/-- What comes after a route that has been followed to its end. -/
theorem append (h : Followed host route none new) (g : Followed host route' fault new') :
    Followed host (route ++ route') fault (new' ++ new) := by
  obtain ⟨hclean, rfl⟩ := h
  cases g with
  | through gclean groute =>
    refine .through (hclean.append gclean) ?_
    rw [deeds_append, List.map_append, groute]
  | undecided gclean hm rest groute =>
    rw [List.cons_append]
    refine .undecided (hclean.append gclean) hm rest ?_
    rw [deeds_append, List.map_append, groute, List.append_assoc]
  | refused gclean ha hm hfails rest groute =>
    rw [List.cons_append, List.cons_append]
    refine .refused (hclean.append gclean) ha hm hfails rest ?_
    rw [← List.cons_append, deeds_append, List.map_append, groute, List.append_assoc]
  | stuck gclean hm hhost hpause rest groute =>
    rw [List.cons_append]
    refine .stuck (hclean.append gclean) hm hhost ?_ rest ?_
    · rw [deeds_append, List.getLast?_append, hpause, Option.some_or]
    · rw [deeds_append, List.map_append, groute, List.append_assoc]

/-- Where a route has ended early, it may as well go on. -/
theorem cut (h : Followed host route (some f) new) (route' : List Waypoint) :
    Followed host (route ++ route') (some f) new := by
  cases h with
  | undecided hclean hm rest hroute =>
    refine .undecided hclean hm (rest ++ route') ?_
    rw [hroute, List.append_assoc, List.cons_append]
  | refused hclean ha hm hfails rest hroute =>
    refine .refused hclean ha hm hfails (rest ++ route') ?_
    rw [hroute, List.append_assoc]
  | stuck hclean hm hhost hpause rest hroute =>
    refine .stuck hclean hm hhost hpause (rest ++ route') ?_
    rw [hroute, List.append_assoc]

end Followed

/-! ### Hosts -/

/-- The host leaves alone what a session keeps for itself, the variables and the pauses. -/
structure Host.Detached (h : Host σ) : Prop extends h.Discreet where
  frame : ∀ {α : Type} {a : Act σ α}, h.Serves a → ∀ s, (a.runOn s).2.frame = s.frame
  shared : ∀ {α : Type} {a : Act σ α}, h.Serves a → ∀ s, (a.runOn s).2.shared = s.shared
  pauses : ∀ {α : Type} {a : Act σ α}, h.Serves a → ∀ s, (a.runOn s).2.pauses = s.pauses

/-! ### Acts along a route -/

/-- Both maps of variables have the values of the start. -/
structure Session.Holds (start : Entries) (s : Session σ) : Prop extends s.Neat where
  get?_frame : ∀ k, k.canBeKey = true → s.frame.get? k = start.get? k
  get?_shared : ∀ k, k.canBeKey = true → s.shared.get? k = start.get? k

namespace Session.Holds

variable {start : Entries} {s t : Session σ}

theorem congr (h : s.Holds start) (hframe : t.frame = s.frame) (hshared : t.shared = s.shared) :
    t.Holds start :=
  ⟨⟨hframe ▸ h.frame, hshared ▸ h.shared⟩, hframe ▸ h.get?_frame, hshared ▸ h.get?_shared⟩

/-- Copying the shared variables to the frame changes no value. -/
theorem pull (h : s.Holds start) :
    Holds start { s with frame := s.frame.update s.shared } := by
  refine ⟨⟨h.frame.update _, h.shared⟩, fun k hk => ?_, h.get?_shared⟩
  rw [Entries.get?_update _ h.shared hk, h.get?_frame k hk, h.get?_shared k hk, Option.or_self]

/-- Copying the frame to the shared variables changes no value. -/
theorem push (h : s.Holds start) :
    Holds start { s with shared := s.shared.update s.frame } := by
  refine ⟨⟨h.frame, h.shared.update _⟩, h.get?_frame, fun k hk => ?_⟩
  rw [Entries.get?_update _ h.frame hk, h.get?_frame k hk, h.get?_shared k hk, Option.or_self]

/-- A condition has the verdict that it has at the start. -/
theorem evaluate (h : s.Holds start) (c : VariableCondition) :
    c.evaluate s.frame = c.evaluate start :=
  c.evaluate_congr fun name => h.get?_frame (.text name) rfl

end Session.Holds

/-- The fault that a result is. -/
def Act.fault? {α : Type} : Except Fault α → Option Fault
  | .ok _ => none
  | .error f => some f

/-- A run that has followed a route, and has changed no values. -/
structure Session.Went {α : Type} (host : Host σ) (start : Entries) (route : List Waypoint)
    (s : Session σ) (run : Except Fault α × Session σ) : Prop where
  holds : run.2.Holds start
  pending : run.2.pending = s.pending
  trail : ∃ new, run.2.trail = new ++ s.trail ∧ Followed host route (Act.fault? run.1) new ∧
    run.2.pauses = s.pauses ++ (deeds new).filter Event.isPause

/-- An act that follows a route where the variables are those of the start. -/
def Act.Along {α : Type} (host : Host σ) (start : Entries) (route : List Waypoint)
    (a : Act σ α) : Prop :=
  ∀ s : Session σ, s.Holds start → s.Went host start route (a.runOn s)

/-- A run without a failure and without a deed. -/
theorem Session.Went.idle {α : Type} {x : α} {host : Host σ} {start : Entries} {s t : Session σ}
    (new : List Moment) (hholds : t.Holds start) (hpending : t.pending = s.pending)
    (htrail : t.trail = new ++ s.trail) (hclean : Clean new) (hdeeds : deeds new = [])
    (hpauses : t.pauses = s.pauses) : s.Went host start [] ((.ok x : Except Fault α), t) := by
  refine ⟨hholds, hpending, new, htrail, .through hclean ?_, ?_⟩
  · rw [hdeeds]
    rfl
  · rw [hdeeds, List.filter_nil, List.append_nil]
    exact hpauses

namespace Act

variable {α β : Type} {host : Host σ} {start : Entries} {route route' : List Waypoint}

theorem along_pure (x : α) : Along host start [] (pure x : Act σ α) := fun _ hs =>
  .idle [] hs rfl rfl (List.forall_mem_nil _) rfl rfl

theorem Along.bind {a : Act σ α} {f : α → Act σ β} (ha : a.Along host start route)
    (hf : ∀ x, (f x).Along host start route') : (a >>= f).Along host start (route ++ route') := by
  intro s hs
  obtain ⟨hholds, hpending, new, htrail, hnew, hpauses⟩ := ha s hs
  rw [runOn_bind]
  generalize a.runOn s = run at hholds hpending htrail hnew hpauses ⊢
  obtain ⟨e | x, t⟩ := run
  · -- a fault on the first part of the route, which is then a fault on the whole
    exact ⟨hholds, hpending, new, htrail, hnew.cut route', hpauses⟩
  · rw [proceed_ok]
    obtain ⟨gholds, gpending, new', gtrail, gnew, gpauses⟩ := hf x t hholds
    refine ⟨gholds, gpending.trans hpending, new' ++ new, ?_, hnew.append gnew, ?_⟩
    · rw [gtrail, htrail, List.append_assoc]
    · rw [gpauses, hpauses, deeds_append, List.filter_append, List.append_assoc]

/-- What comes after an act that does nothing outside. -/
theorem Along.after {a : Act σ α} {f : α → Act σ β} (ha : a.Along host start [])
    (hf : ∀ x, (f x).Along host start route) : (a >>= f).Along host start route :=
  ha.bind hf

/-- What comes before one. -/
theorem Along.before {a : Act σ α} {f : α → Act σ β} (ha : a.Along host start route)
    (hf : ∀ x, (f x).Along host start []) : (a >>= f).Along host start route :=
  List.append_nil route ▸ ha.bind hf

/-- What comes next may depend on the state, as long as that holds the variables of the start. -/
theorem Along.read {f : Session σ → Act σ β}
    (h : ∀ s, s.Holds start → (f s).Along host start route) :
    (get >>= f).Along host start route :=
  fun s hs => h s hs s hs

theorem along_remember {m : Mark} (hfault : m.fault? = none) (hdeed : m.deed? = none) :
    Along host start [] (remember m : Act σ Unit) := by
  intro s hs
  rw [runOn_remember]
  refine .idle [s.moment m] (hs.congr rfl rfl) rfl rfl (List.forall_mem_singleton.mpr hfault) ?_
    rfl
  rw [deeds_singleton, Session.moment_mark, hdeed]
  rfl

theorem along_note {e : Event} (he : e.isPause = false) :
    Along host start [] (note e : Act σ Unit) := by
  intro s hs
  rw [runOn_note]
  refine .idle [] (hs.congr rfl rfl) rfl rfl (List.forall_mem_nil _) rfl ?_
  rw [Session.pauses_note, List.filter_singleton, he]
  exact List.append_nil _

theorem along_pullFrame : Along host start [] (pullFrame : Act σ Unit) := fun _ hs =>
  .idle [] hs.pull rfl rfl (List.forall_mem_nil _) rfl rfl

theorem along_pushFrame : Along host start [] (pushFrame : Act σ Unit) := fun _ hs =>
  .idle [] hs.push rfl rfl (List.forall_mem_nil _) rfl rfl

/-- A failure is where a condition has no verdict. -/
theorem along_fail (f : Fault) : Along host start [.impasse f] (fail f : Act σ α) := by
  intro s hs
  refine ⟨hs.congr rfl rfl, rfl, [s.moment (.failed f)], rfl, ?_, ?_⟩
  · exact .undecided (List.forall_mem_nil _) rfl [] rfl
  · exact (List.append_nil _).symm

/-- Asking the host is a deed, whether or not the host fails. -/
theorem along_ask (hd : host.Detached) (e : Event) {a : Act σ α} (ha : host.Serves a)
    (hfails : ∀ f s, (a.runOn s).1 = .error f → host.Fails e f) (hpause : e.isPause = false) :
    Along host start [.deed e] (ask e a) := by
  intro s hs
  have hframe := hd.frame ha (s.remember (.asked e))
  have hshared := hd.shared ha (s.remember (.asked e))
  have hpending := hd.pending ha.offers (s.remember (.asked e))
  have htrail := hd.trail ha.offers (s.remember (.asked e))
  have hpauses := hd.pauses ha (s.remember (.asked e))
  have hfails := fun f => hfails f (s.remember (.asked e))
  have hdeeds : deeds [s.moment (.asked e)] = [e] := deeds_singleton _
  have hclean : Clean [s.moment (.asked e)] := List.forall_mem_singleton.mpr rfl
  rw [runOn_ask]
  generalize a.runOn (s.remember (.asked e)) = run
    at hframe hshared hpending htrail hpauses hfails ⊢
  -- the deed is on the trail before it is known whether the host fails
  obtain ⟨f | x, t⟩ := run
  · refine ⟨hs.congr hframe hshared, hpending,
      [t.moment (.failed f), s.moment (.asked e)], congrArg _ htrail, ?_, ?_⟩
    · refine .refused hclean rfl rfl (hfails f rfl) [] ?_
      rw [hdeeds]
      rfl
    · have hafter : deeds [t.moment (.failed f), s.moment (.asked e)] = [e] := by
        rw [← List.singleton_append, deeds_append, hdeeds]
        rfl
      rw [hafter, List.filter_singleton, hpause]
      exact hpauses.trans (List.append_nil _).symm
  · refine ⟨hs.congr hframe hshared, hpending, [s.moment (.asked e)], htrail, ?_, ?_⟩
    · refine .through hclean ?_
      rw [hdeeds]
      rfl
    · rw [hdeeds, List.filter_singleton, hpause]
      exact hpauses.trans (List.append_nil _).symm

/-- Going by a condition: the verdict is that of the start, and so is the way from there. -/
theorem along_holds (execute : Placed → Act σ Unit) (c : VariableCondition)
    {yes no : List Waypoint} {f : Bool → Act σ α} (hyes : (f true).Along host start yes)
    (hno : (f false).Along host start no) :
    (Condition.holds host execute (.onVariable c) >>= f).Along host start
      (match c.evaluate start with
        | .ok v => if v.holds then yes else no
        | .error e => [.impasse e]) := by
  rw [Condition.holds_onVariable, bind_assoc]
  refine .read fun s hs => ?_
  -- here the values of the start are needed; the frame may have them in another order
  rw [hs.evaluate, Verdict.heed]
  cases c.evaluate start with
  | error e =>
    rw [expect, fail_bind, fail_bind]
    exact along_fail e
  | ok v =>
    rw [expect, pure_bind]
    have hbranch : (f v.holds).Along host start (if v.holds then yes else no) := by
      cases v.holds with
      | true => exact hyes
      | false => exact hno
    cases v.warning with
    | none => exact hbranch
    | some w =>
      change Along host start _ ((logWarning w >>= fun _ => pure v.holds) >>= f)
      rw [bind_assoc]
      exact .after (along_note rfl) fun _ => hbranch

end Act

/-! ### Commands -/

namespace Running

variable {host : Host σ} {start : Entries} {r : Running σ}

/-- What a command does comes between its two ends. -/
theorem along_step {α : Type} {c : Command} (hc : c.pause? = none) {route : List Waypoint}
    {body : Act σ α} (h : body.Along host start route) :
    (r.step c none body).Along host start route :=
  .after (Act.along_remember rfl hc) fun _ => h.before fun x =>
    .after Act.along_pushFrame fun _ => .after (Act.along_remember rfl rfl) fun _ =>
      Act.along_pure x

/-- A pause begins with its command, whether or not it ends. -/
theorem along_wait (head : CommandHead) (time : Double) :
    (r.step (.wait head time) none (r.runCommand (.wait head time) none)).Along r.host start
      [.deed (.sleep (seconds time))] := by
  intro s hs
  let began := s.moment (.started r.name (.wait head time))
  let paused := (s.remember (.started r.name (.wait head time))).note (.sleep (seconds time))
  have hclean : Clean [began] := List.forall_mem_singleton.mpr rfl
  rw [step, Act.runOn_remember_bind, runCommand, pause]
  by_cases hendless : seconds time = .infinite false ∧ !r.host.skipsPauses
  · rw [if_pos hendless]
    obtain ⟨htime, hhost⟩ := hendless
    rw [Bool.not_eq_true'] at hhost
    refine ⟨hs.congr rfl rfl, rfl, [paused.moment (.failed .endless), began], rfl, ?_,
      Session.pauses_note s _⟩
    exact .stuck hclean rfl hhost (congrArg (fun d => some (Event.sleep d)) htime) [] rfl
  · rw [if_neg hendless]
    refine ⟨(hs.push).congr rfl rfl, rfl, [_, began], rfl, .through ?_ rfl,
      Session.pauses_note s _⟩
    exact List.forall_mem_cons.mpr ⟨rfl, hclean⟩

/-- A plain command runs no other choice. -/
theorem target?_of_isPlain {c : Command} (h : c.isPlain = true) (d : Document) :
    target? d c = none := by
  cases c with
  | choice => cases h
  | nested => cases h
  | _ => rfl

mutual

/-- A command leads along its route. -/
theorem along_command (hd : host.Detached) (execute : Placed → Act σ Unit) (name : Value) :
    ∀ c : Command, c.isPlain = true →
      (step ⟨host, execute, name⟩ c none (runCommand ⟨host, execute, name⟩ c none)).Along host start
        (c.route start)
  | .host _ commandId, _ => by
    rw [runCommand, Command.route]
    · exact along_step rfl ((Act.along_ask hd _ (.runCommand commandId) (fun _ _ => .command)
        rfl).before fun _ => Act.along_pure none)
    · nofun
  | .wait head time, _ => by
    rw [Command.route]
    · exact along_wait (r := ⟨host, execute, name⟩) head time
    · nofun
  | .editor _ action, _ => by
    rw [runCommand, Command.route]
    · exact along_step rfl ((Act.along_ask hd _ (.edit action) (fun _ _ => .edit)
        rfl).before fun _ => Act.along_pure none)
    · nofun
  | .openFile _ path inNewTab direction, _ => by
    rw [runCommand, Command.route]
    · exact along_step rfl ((Act.along_ask hd _ (.openFile path inNewTab direction)
        (fun _ _ => .openFile) rfl).before fun _ => Act.along_pure none)
    · nofun
  | .conditional _ (.onVariable c) thens elses, h => by
    rw [Command.isPlain, Bool.and_eq_true] at h
    rw [runCommand, Command.route]
    exact along_step rfl (.after Act.along_pullFrame fun _ =>
      Act.along_holds execute c (along_commands hd execute name thens h.1 none)
        (along_commands hd execute name elses h.2 none))
  | .script .., h | .choice .., h | .nested .., h | .assistant .., h
  | .conditional _ (.byScript ..) _ _, h => by cases h

/-- A list of commands leads along the routes of its commands, one after another. -/
theorem along_commands (hd : host.Detached) (execute : Placed → Act σ Unit) (name : Value) :
    ∀ cs : List Command, Command.arePlain cs = true → ∀ output : Option Value,
      (runCommands ⟨host, execute, name⟩ cs output).Along host start (Command.routeAll start cs)
  | [], _, _ => by
    rw [runCommands, Command.routeAll]
    exact Act.along_pure _
  | c :: cs, h, output => by
    rw [Command.arePlain, Bool.and_eq_true] at h
    rw [runCommands, Command.routeAll]
    refine .read fun s _ => ?_
    -- the target is looked up in the state, but there is none to be found
    rw [target?_of_isPlain h.1]
    exact (along_command hd execute name c h.1).bind fun new =>
      along_commands hd execute name cs h.2 _

end

/-- The commands of a macro, of which there are none if there is no macro. -/
theorem along_body (hd : host.Detached) (execute : Placed → Act σ Unit) (name : Value)
    (body : Option Macro) (h : Command.arePlain ((body.map Macro.commands).getD []) = true) :
    (runBody ⟨host, execute, name⟩ body).Along host start
      (Command.routeAll start ((body.map Macro.commands).getD [])) := by
  rw [runBody]
  cases hcs : (body.map Macro.commands).getD [] with
  | nil => exact .after (Act.along_note rfl) fun _ => Act.along_pure _
  | cons c cs =>
    rw [hcs] at h
    dsimp only
    rw [map_eq_pure_bind]
    exact (along_commands hd execute name (c :: cs) h none).before fun _ => Act.along_pure _

end Running

/-! ### Runs -/

/-- The state after a macro that has followed a route, when what is around the macro has ended, too.
Nothing is done outside then, except that the user may be told. -/
structure Session.Toured (host : Host σ) (start : Entries) (route : List Waypoint) (s : Session σ)
    (fault : Option Fault) (t : Session σ) : Prop where
  shared : ∀ k, k.canBeKey = true → t.shared.get? k = start.get? k
  trail : ∃ new after, t.trail = after ++ new ++ s.trail ∧ Followed host route fault new ∧
    (∀ e ∈ deeds after, e.isNotice = true) ∧
    t.pauses = s.pauses ++ (deeds new).filter Event.isPause

namespace Session.Toured

variable {host : Host σ} {start : Entries} {route : List Waypoint} {fault : Option Fault}
  {s t u : Session σ}

/-- What comes before the commands of a macro, and is no failure and no deed, belongs to the way. -/
theorem of_went {α : Type} {run : Except Fault α × Session σ} (before : List Moment)
    (h : t.Went host start route run) (htrail : t.trail = before ++ s.trail) (hclean : Clean before)
    (hdeeds : deeds before = []) (hpauses : t.pauses = s.pauses) :
    s.Toured host start route (Act.fault? run.1) run.2 := by
  obtain ⟨hholds, -, new, hnew, hfollowed, hpaused⟩ := h
  have hbefore : Followed host [] none before := .through hclean (by rw [hdeeds]; rfl)
  refine ⟨hholds.get?_shared, new ++ before, [], ?_, hbefore.append hfollowed,
    List.forall_mem_nil _, ?_⟩
  · rw [hnew, htrail, List.nil_append, List.append_assoc]
  · rw [hpaused, hpauses, deeds_append, hdeeds, List.nil_append]

/-- What comes after it, and is at most a notice. -/
theorem later (h : s.Toured host start route fault t) (more : List Moment)
    (hshared : ∀ k, k.canBeKey = true → u.shared.get? k = start.get? k)
    (htrail : u.trail = more ++ t.trail) (hdeeds : ∀ e ∈ deeds more, e.isNotice = true)
    (hpauses : u.pauses = t.pauses) : s.Toured host start route fault u := by
  obtain ⟨-, new, after, hnew, hfollowed, hafter, hpaused⟩ := h
  refine ⟨hshared, new, more ++ after, ?_, hfollowed, ?_, hpauses.trans hpaused⟩
  · rw [htrail, hnew, List.append_assoc, List.append_assoc, List.append_assoc]
  · rw [deeds_append]
    exact fun e he => (List.mem_append.mp he).elim (hafter e) (hdeeds e)

/-- What comes after it, and does not show on the trail. -/
theorem unseen (h : s.Toured host start route fault t)
    (hshared : ∀ k, k.canBeKey = true → u.shared.get? k = start.get? k)
    (htrail : u.trail = t.trail) (hpauses : u.pauses = t.pauses) :
    s.Toured host start route fault u :=
  h.later [] hshared htrail (List.forall_mem_nil _) hpauses

end Session.Toured

namespace Choice

variable {host : Host σ} {start : Entries} {route : List Waypoint} {s t : Session σ}

/-- Telling the user, whether or not that fails. -/
theorem toured_notify (hd : host.Detached) {fault : Option Fault}
    (h : s.Toured host start route fault t) (text : String) :
    let run := (Act.ask (.notify text) (host.notify text)).runOn t
    s.Toured host start route fault run.2 ∧ run.2.pending = t.pending := by
  let asked := t.remember (.asked (.notify text))
  have hvars : ∀ k, k.canBeKey = true →
      ((host.notify text).runOn asked).2.shared.get? k = start.get? k := by
    rw [hd.shared (.notify text) asked]
    exact h.shared
  have hpending := hd.pending (.notify text) asked
  have htrail := hd.trail (.notify text) asked
  have hpauses := hd.pauses (.notify text) asked
  dsimp only
  rw [Act.runOn_ask]
  generalize (host.notify text).runOn asked = run at hvars hpending htrail hpauses ⊢
  obtain ⟨f | x, u⟩ := run
  · exact ⟨h.later [u.moment (.failed f), t.moment (.asked (.notify text))] hvars
      (congrArg (_ :: ·) htrail) (List.forall_mem_singleton.mpr rfl) hpauses, hpending⟩
  · exact ⟨h.later [t.moment (.asked (.notify text))] hvars htrail
      (List.forall_mem_singleton.mpr rfl) hpauses, hpending⟩

/-- The end of a cancelled macro, with or without a notice. -/
theorem toured_recordCancellation (hd : host.Detached) {reason : String}
    (h : s.Toured host start route (some (.cancelled reason)) t) (c : Choice) (preset : String) :
    let run := (Act.recordCancellation host c preset reason).runOn t
    s.Toured host start route (some (.cancelled reason)) run.2 ∧ run.2.pending = some reason := by
  let recorded := { t with pending := some reason }.remember (.recorded c reason)
  have hrecorded : s.Toured host start route (some (.cancelled reason)) recorded :=
    h.later [{ t with pending := some reason }.moment (.recorded c reason)] h.shared rfl
      (List.forall_mem_nil _) rfl
  dsimp only
  rcases Act.runOn_recordCancellation_cases host c preset reason t with hrun | ⟨-, text, hrun⟩
  · rw [hrun]
    exact ⟨hrecorded, rfl⟩
  · rw [hrun]
    exact toured_notify hd hrecorded text

/-- What a choice makes of the fault that its macro has ended with, if there is one. -/
structure Conveys (fault : Option Fault) (result : Except Fault Unit) (pending : Option String) :
    Prop where
  failed : ∀ f, result = .error f → fault.isSome = true
  ended : result = .ok () → pending.isSome = fault.isSome

/-- The run of a macro choice. -/
theorem execute_toured (hd : host.Detached) {head : ChoiceHead} {body : Option Macro}
    (hplain : Command.arePlain ((body.map Macro.commands).getD []) = true)
    (place : Option (List Nat)) (hdepth : s.depth < s.config.maxDepth)
    (hdistinct : s.shared.Distinct) (hpending : s.pending = none) :
    let run := (execute host ⟨.ofMacro head body, place⟩).runOn s
    ∃ fault, s.Toured host s.shared
        (Command.routeAll s.shared ((body.map Macro.commands).getD [])) fault run.2 ∧
      Conveys fault run.1 run.2.pending := by
  let began := opened (inside (.ofMacro head body) s)
  have hholds : began.Holds s.shared := by
    refine ⟨⟨Entries.distinct_nil.update _, hdistinct⟩, fun k hk => ?_, fun _ _ => rfl⟩
    change (Entries.update [] s.shared).get? k = _
    rw [Entries.get?_update _ hdistinct hk, Entries.get?_nil, Option.or_none]
  have hwent := Running.along_body hd (executeAt host (s.config.maxDepth - s.depth)) head.name body
    hplain began hholds
  dsimp only
  rw [runOn_execute]
  cases hrun : (Running.runBody ⟨host, executeAt host (s.config.maxDepth - s.depth), head.name⟩
      body).runOn began with
  | mk result u =>
    rw [hrun] at hwent
    have htoured : s.Toured host s.shared _ (Act.fault? result) u := .of_went
      [((s.remember (.called (.ofMacro head body))).enter (.ofMacro head body)).moment
        (.entered (.ofMacro head body)), s.moment (.called (.ofMacro head body))] hwent rfl
      (List.forall_mem_cons.mpr ⟨rfl, List.forall_mem_singleton.mpr rfl⟩) rfl rfl
    have hnone : u.pending = none := hwent.pending.trans hpending
    cases result with
    | ok v =>
      rw [runOn_ofMacro_ok hdepth.not_ge hrun]
      exact ⟨none, htoured.unseen hwent.holds.push.get?_shared rfl rfl, nofun,
        fun _ => congrArg Option.isSome hnone⟩
    | error f =>
      cases hf : f.isCancelled with
      | false =>
        rw [runOn_ofMacro_error hdepth.not_ge hf hrun]
        exact ⟨some f, htoured.unseen htoured.shared rfl rfl, fun _ _ => rfl, nofun⟩
      | true =>
        -- the choice itself does not fail then, and it may tell the user
        obtain ⟨reason, rfl⟩ := Fault.eq_cancelled hf
        have hleft : s.Toured host s.shared _ (some (.cancelled reason))
            { u with frame := (inside (.ofMacro head body) s).frame } :=
          htoured.unseen htoured.shared rfl rfl
        obtain ⟨hrecorded, hreason⟩ :=
          toured_recordCancellation hd hleft (.ofMacro head body) Fault.defaultReason
        have hmacro := runOn_runMacro_cancelled (c := .ofMacro head body) hrun
        rw [runOn_executeOnce hdepth.not_ge, perform, hmacro]
        exact ⟨_, hrecorded.unseen hrecorded.shared rfl rfl, fun _ _ => rfl,
          fun _ => congrArg Option.isSome hreason⟩

end Choice

namespace Runner

variable {host : Host σ}

/-- How a run with a report ends: with a success if there has been no fault, and else with the
fault, or with that of the notice about it. -/
def Tells (fault : Option Fault) (result : Except Fault RunReport) : Prop :=
  match fault with
  | none => ∃ report, result = .ok report ∧ report.fault = none
  | some _ => ∃ f, RunReport.Tells f result

/-- The report is made from what the choice leaves. -/
theorem run_toured {p : Placed} {vars start : Entries} {route : List Waypoint}
    {fault : Option Fault} {s t : Session σ} {result : Except Fault Unit}
    (hrun : (Choice.execute host p).runOn (begun vars s) = (result, t))
    (h : s.Toured host start route fault t) (hconveys : Choice.Conveys fault result t.pending) :
    let run := (run host (some p) vars).runOn s
    s.Toured host start route fault run.2 ∧ Tells fault run.1 ∧
      ∀ report, run.1 = .ok report → report.vars = run.2.shared := by
  obtain ⟨hfailed, hended⟩ := hconveys
  dsimp only
  cases result with
  | error f =>
    obtain ⟨g, rfl⟩ := Option.isSome_iff_exists.mp (hfailed f rfl)
    cases he : f.escapes with
    | true =>
      rw [runOn_of_escape hrun he]
      exact ⟨h, ⟨f, RunReport.tells_of_escape he⟩, by rintro _ ⟨⟩⟩
    | false =>
      obtain ⟨text, hlogged⟩ := runOn_of_error_logged hrun he
      rw [hlogged]
      -- the line in the log is neither a deed nor a pause
      refine ⟨?_, ⟨f, RunReport.tells_reported he _ _⟩, ?_⟩
      · dsimp only
        split
        · refine h.unseen h.shared rfl ?_
          rw [Session.pauses_note]
          exact List.append_nil _
        · exact h
      · rintro _ ⟨⟩
        dsimp only
        split <;> rfl
  | ok _ =>
    have hpendingFault := hended rfl
    cases hpending : t.pending with
    | none =>
      rw [hpending] at hpendingFault
      obtain rfl := Option.isNone_iff_eq_none.mp (by rw [← Option.not_isSome, ← hpendingFault]; rfl)
      rw [runOn_of_ok hrun hpending]
      exact ⟨h, ⟨_, rfl, rfl⟩, by rintro _ ⟨⟩; rfl⟩
    | some reason =>
      rw [hpending] at hpendingFault
      obtain ⟨g, rfl⟩ := Option.isSome_iff_exists.mp hpendingFault.symm
      rw [runOn_of_cancelled hrun hpending]
      refine ⟨h.later [_] h.shared rfl (List.forall_mem_nil _) rfl, ⟨.cancelled reason, ?_⟩,
        by rintro _ ⟨⟩; rfl⟩
      exact RunReport.tells_reported (Fault.escapes_cancelled reason) _ _

/-- **A macro without scripts follows its tree.** Let all commands of a macro be plain, and let a
run begin with some variables. What is done outside is then what is on the route that these
variables lead along, once and in order. It is all of it if the run succeeds. If the run fails, it
ends with the first thing that the host has failed to do, in a pause that does not end, or in front
of a condition that has no verdict. The values of the variables are those of the start, in either
case. -/
theorem run_route (hd : host.Detached) (head : ChoiceHead) (body : Option Macro)
    (hplain : Command.arePlain ((body.map Macro.commands).getD []) = true)
    (place : Option (List Nat)) (vars : Entries) (s : Session σ)
    (hdepth : s.depth < s.config.maxDepth) :
    let start := Entries.update [] vars
    let route := Command.routeAll start ((body.map Macro.commands).getD [])
    ∃ result t fault new after,
      (run host (some ⟨.ofMacro head body, place⟩) vars).runOn s = (result, t) ∧
      t.trail = after ++ new ++ s.trail ∧ Followed host route fault new ∧
      (∀ e ∈ deeds after, e.isNotice = true) ∧
      t.pauses = s.pauses ++ (deeds new).filter Event.isPause ∧ Tells fault result ∧
      ∀ k, k.canBeKey = true → t.shared.get? k = start.get? k ∧
        ∀ report, result = .ok report → report.vars.get? k = start.get? k := by
  intro start route
  obtain ⟨fault, ⟨hshared, htrail⟩, hconveys⟩ := Choice.execute_toured (s := begun vars s) hd
    hplain place hdepth (Entries.distinct_nil.update vars) rfl
  obtain ⟨htoured, htells, hvars⟩ := run_toured rfl ⟨hshared, htrail⟩ hconveys
  obtain ⟨hshared, new, after, htrail, hnew, hafter, hpauses⟩ := htoured
  exact ⟨_, _, fault, new, after, rfl, htrail, hnew, hafter, hpauses, htells,
    fun k hk => ⟨hshared k hk, fun report hreport => hvars report hreport ▸ hshared k hk⟩⟩

end Runner

/-! ### Rehearsals -/

namespace Rehearsal

private theorem pauses_means : Means fun {α} (a : Act Rehearsal α) =>
    ∀ s, (a.runOn s).2.pauses = s.pauses where
  pure _ := fun _ => rfl
  bind ha hf := fun s => Act.runOn_bind_keeps (P := fun t => t.pauses = s.pauses) (ha s)
    fun x t ht => (hf x t).trans ht
  read _ hf := fun s => hf s s
  throw _ := fun _ => rfl
  note e he := fun s => by
    rw [Act.runOn_note, Session.pauses_note, List.filter_singleton, he]
    exact List.append_nil _
  nextAnswer := by
    intro s
    cases h : s.host.answers with
    | nil => rw [runOn_nextAnswer_nil h]
    | cons v rest =>
      rw [runOn_nextAnswer_cons h]
      rfl

theorem host_detached : host.Detached where
  toDiscreet := host_discreet
  frame ha s := (undisturbed_of_offers ha.offers s).frame
  shared := (host_reserved []).shared
  pauses := pauses_means.serves

/-- A conditional that tests the variable `x`. -/
def testing (t : Test) (type : ValueType) (expected : Option String)
    (thens elses : List Command) : Command :=
  .conditional ⟨.text "test", .text "test"⟩ (.onVariable ⟨"x", .known t, type, expected⟩)
    thens elses

/-- A command of the host. -/
def errand (id : String) : Command :=
  .host ⟨.text id, .text id⟩ id

/-- A tree with two conditionals, one inside of the other, and an empty branch. -/
def branching : List Command :=
  [testing .equals .text (some "a")
    [errand "first", testing .isFalsy .boolean none []
      [.wait ⟨.text "wait", .text "wait"⟩ (.zero false)]] [errand "other"],
    errand "stop", errand "last"]

end Rehearsal

namespace Runner

open Rehearsal (testing errand branching)

/-- A run through that tree; the host cancels the command `stop`. -/
theorem run_route_branching :
    let start : Entries := [(.text "x", .text "a")]
    let p : Placed := ⟨.ofMacro ⟨.text "tree", .text "tree", false⟩
      (some (.mk (.text "tree") (.text "tree") branching false)), none⟩
    let s := Rehearsal.fresh
    let route : List Waypoint := [.deed (.command "first"), .deed (.sleep (.zero false)),
      .deed (.command "stop"), .deed (.command "last")]
    Command.arePlain branching = true ∧ s.depth < s.config.maxDepth ∧
    ∃ result t fault new after, (run Rehearsal.host (some p) start).runOn s = (result, t) ∧
      t.trail = after ++ new ++ [] ∧ Followed Rehearsal.host route fault new ∧
      (∀ e ∈ deeds after, e.isNotice = true) ∧
      t.pauses = s.pauses ++ (deeds new).filter Event.isPause ∧ Tells fault result ∧
      ∀ k, k.canBeKey = true → t.shared.get? k = start.get? k ∧
        ∀ report, result = .ok report → report.vars.get? k = start.get? k := by
  intro start p s route
  have hroute : route = Command.routeAll start branching := by
    dsimp only [route, start]
    cbv
  rw [hroute]
  exact ⟨by decide, by decide, run_route Rehearsal.host_detached _ _ (by decide) none start s
    (by decide)⟩

/-- A number that no double comes near cannot be compared with one. The branches of the macro are
empty, so all that is to be done comes after the conditional. None of it is done: the run fails, and
the host has been asked for nothing. -/
theorem run_incomparable :
    let p : Placed := ⟨.ofMacro ⟨.text "tree", .text "tree", false⟩ (some
      (.mk (.text "tree") (.text "tree")
        [testing .less .number (some "5") [] [], errand "last"] false)), none⟩
    let run := (run Rehearsal.host (some p) [(.text "x", .int (10 ^ 200 * 10 ^ 200))]).runOn
      Rehearsal.fresh
    run.1.toOption.map RunReport.fault = some (some (.misuse .tooLarge)) ∧
    requests run.2.trail = [] := by
  intro p run
  have hrequests : (requests run.2.trail).length = 0 := by decide +kernel
  exact ⟨by decide +kernel, List.length_eq_zero_iff.mp hrequests⟩

end Runner

end Choicebook
