import Mathlib
import Choicebook.Proofs.Session.Levels
import Choicebook.Proofs.Session.Rehearsal

/-!
# The output of a macro

The output of a macro is what the last one of its scripts has given that has given anything
(`Running.output_of_own_scripts`). Its own scripts are those of its list of commands and of the
branches of its conditionals that are taken; `Running.Course` goes through a run and tells what each
of them has given. A script that cannot be loaded gives nothing, nor does one whose export is
invalid (`Running.Gave`, `Dispatcher.Yields`), and then an earlier output stays.

What other scripts give does not matter. The scripts of the choices that the macro runs, or that its
scripts run, begin at deeper levels, and the script of a condition is not begun as a command. So in
the record of the run, the own scripts are those that begin at the level of the macro.
-/

namespace Choicebook

variable {σ : Type}

/-! ### What a script gives -/

theorem Value.exists_entry_of_shape {v : Value} (h : v.shape = .withEntry) :
    ∃ entry, v.member? "entry" = .ok (some entry) := by
  have hentry : v.hasEntry = true := by
    rw [shape] at h
    split at h
    · cases h
    · split at h
      · cases h
      · split at h
        · split at h
          · assumption
          · cases h
        · cases h
  rw [hasEntry] at hentry
  split at hentry
  · next entry hmember => exact ⟨entry, hmember⟩
  · cases hentry

namespace Dispatcher

/-- What comes of dispatching a value: the result of a function or of an entry, a text, what comes
of the member that is selected, or nothing if the value is invalid. -/
inductive Yields (d : Dispatcher σ) : Value → Session σ → Option Value → Session σ → Prop where
  | called {v x : Value} {s t : Session σ} (hv : v.shape = .callable)
    (h : (d.call v).runOn s = (.ok x, t)) : Yields d v s (some x) t
  | entered {v entry x : Value} {s t : Session σ} (hv : v.shape = .withEntry)
    (hsettings : d.settings.isSome = true) (hentry : v.member? "entry" = .ok (some entry))
    (h : (d.call entry).runOn s = (.ok x, t)) : Yields d v s (some x) t
  | shown {v : Value} {text : String} {s : Session σ} (hv : v.shape = .primitive)
    (htext : v.primitiveText = .ok text) : Yields d v s (some (.text text)) s
  | selected {v : Value} {m : v.Smaller} {x : Option Value} {s t u : Session σ}
    (hv : v.shape = .container ∨ v.shape = .withEntry ∧ d.settings = none)
    (hselect : (d.select v).runOn s = (.ok m, t)) (h : Yields d m.1 t x u) : Yields d v s x u
  | invalid {v : Value} {s : Session σ} (hv : v.shape = .invalid) :
    Yields d v s none
      (s.note (.failure ("user script in macro for '" ++ d.owner.display ++ "' is invalid")))

variable {d : Dispatcher σ}

/-- What is dispatched without a fault yields what it gives. -/
theorem yields_of_runOn {v : Value} {s t : Session σ} {x : Option Value}
    (h : (d.run v).runOn s = (.ok x, t)) : d.Yields v s x t := by
  have hselected (hv : v.shape = .container ∨ v.shape = .withEntry ∧ d.settings = none)
      (h : (d.select v >>= fun m => d.run m.1).runOn s = (.ok x, t)) : d.Yields v s x t := by
    obtain ⟨m, u, hselect, hrest⟩ := Act.exists_of_runOn_bind h
    exact .selected hv hselect (yields_of_runOn hrest)
  have hcalled {f : Value} (h : (some <$> d.call f).runOn s = (.ok x, t)) :
      ∃ y, x = some y ∧ (d.call f).runOn s = (.ok y, t) := by
    rw [map_eq_pure_bind] at h
    obtain ⟨y, u, hcall, hrest⟩ := Act.exists_of_runOn_bind h
    cases hrest
    exact ⟨y, rfl, hcall⟩
  rw [run] at h
  -- along the shapes of an export: function, primitive, container with an entry, container, invalid
  split at h
  · next hv =>
    obtain ⟨y, rfl, hcall⟩ := hcalled h
    exact .called hv hcall
  · next hv =>
    cases htext : v.primitiveText with
    | ok text =>
      rw [htext] at h
      cases h
      exact .shown hv htext
    | error f =>
      rw [htext] at h
      cases h
  · next hv =>
    obtain ⟨entry, hentry⟩ := Value.exists_entry_of_shape hv
    simp only [hentry, Act.expect, pure_bind] at h
    cases hsettings : d.settings with
    | none =>
      rw [hsettings] at h
      exact hselected (.inr ⟨hv, hsettings⟩) h
    | some settings =>
      rw [hsettings] at h
      obtain ⟨y, rfl, hcall⟩ := hcalled h
      exact .entered hv (by rw [hsettings]; rfl) hentry hcall
  · next hv => exact hselected (.inl hv) h
  · next hv =>
    cases h
    exact .invalid hv
termination_by sizeOf v
decreasing_by exact m.2

theorem runOn_of_yields {v : Value} {s t : Session σ} {x : Option Value} (h : d.Yields v s x t) :
    (d.run v).runOn s = (.ok x, t) := by
  induction h with
  | called hv h =>
    rw [run, hv, map_eq_pure_bind, Act.runOn_bind_ok h]
    rfl
  | entered hv hsettings hentry h =>
    obtain ⟨settings, hsettings⟩ := Option.isSome_iff_exists.mp hsettings
    rw [run, hv]
    simp only [hentry, hsettings, Act.expect, pure_bind]
    rw [map_eq_pure_bind, Act.runOn_bind_ok h]
    rfl
  | shown hv htext =>
    rw [run, hv]
    simp only [htext, Act.expect, pure_bind]
    rfl
  | selected hv hselect _ ih =>
    rcases hv with hv | ⟨hv, hsettings⟩
    · rw [run, hv, Act.runOn_bind_ok hselect, ih]
    · obtain ⟨entry, hentry⟩ := Value.exists_entry_of_shape hv
      rw [run, hv]
      simp only [hentry, hsettings, Act.expect, pure_bind]
      rw [Act.runOn_bind_ok hselect, ih]
  | invalid hv =>
    rw [run, hv]
    rfl

/-- A dispatch that ends without a fault, told by what it comes to. -/
theorem runOn_eq_ok_iff {v : Value} {s t : Session σ} {x : Option Value} :
    (d.run v).runOn s = (.ok x, t) ↔ d.Yields v s x t :=
  ⟨yields_of_runOn, runOn_of_yields⟩

end Dispatcher

namespace Running

/-- What the script of a command gives: nothing if it cannot be loaded, and else what its export
yields. -/
inductive Gave (r : Running σ) (path : String) (settings : Entries) (s : Session σ) :
    Option Value → Session σ → Prop where
  | unloaded {v : Value} {t : Session σ}
    (hload : (Act.ask (.load path) (r.host.loadScript path)).runOn s = (.ok v, t))
    (hv : v.isNull = true) :
    Gave r path settings s none
      (t.note (.failure ("failed to load user script " ++ path ++ ".")))
  | dispatched {v : Value} {x : Option Value} {t u : Session σ}
    (hload : (Act.ask (.load path) (r.host.loadScript path)).runOn s = (.ok v, t))
    (hv : v.isNull = false)
    (h : Dispatcher.Yields ⟨r.host, r.execute, true, r.name,
      if settings.isEmpty then none else some settings⟩ v t x u) :
    Gave r path settings s x u

variable {r : Running σ}

theorem runOn_runScript_eq_ok_iff {path : String} {settings : Entries} {s t : Session σ}
    {x : Option Value} :
    (r.runScript path settings).runOn s = (.ok x, t) ↔ r.Gave path settings s x t := by
  constructor
  · intro h
    obtain ⟨v, u, hload, hrest⟩ := Act.exists_of_runOn_bind h
    cases hv : v.isNull with
    | true =>
      rw [hv] at hrest
      cases hrest
      exact .unloaded hload hv
    | false =>
      rw [hv] at hrest
      exact .dispatched hload hv (Dispatcher.runOn_eq_ok_iff.mp hrest)
  · rintro (⟨hload, hv⟩ | ⟨hload, hv, h⟩)
    · rw [runScript, Act.runOn_bind_ok hload, hv]
      rfl
    · rw [runScript, Act.runOn_bind_ok hload, hv]
      exact Dispatcher.runOn_eq_ok_iff.mpr h

/-! ### The course of a macro -/

/-- The course of commands that have all ended: the scripts that have been run among them and in
the branches taken, each with what it has given. -/
inductive Course (r : Running σ) :
    List Command → Session σ → List (Command × Option Value) → Session σ → Prop where
  | nil {s : Session σ} : Course r [] s [] s
  | script {head : CommandHead} {path : String} {settings : Entries} {slot : Nat}
    {x : Option Value} {cs : List Command} {gave : List (Command × Option Value)}
    {s t u : Session σ}
    (hscript : r.Gave path settings
      (s.remember (.started r.name (.script head path settings slot))) x t)
    (hrest : Course r cs (r.closed (.script head path settings slot) none t) gave u) :
    Course r (.script head path settings slot :: cs) s
      ((.script head path settings slot, x) :: gave) u
  | conditional {head : CommandHead} {c : Condition} {thens elses : List Command} {holds : Bool}
    {cs : List Command} {gave more : List (Command × Option Value)} {s t u w : Session σ}
    (hholds : (Act.pullFrame >>= fun _ => c.holds r.host r.execute).runOn
      (s.remember (.started r.name (.conditional head c thens elses))) = (.ok holds, t))
    (hbranch : Course r (if holds then thens else elses) t gave u)
    (hrest : Course r cs (r.closed (.conditional head c thens elses) none u) more w) :
    Course r (.conditional head c thens elses :: cs) s (gave ++ more) w
  | mute {c : Command} {x : Option Value} {cs : List Command}
    {gave : List (Command × Option Value)} {s t u : Session σ} (hc : c.isMute = true)
    (hrun : (r.runCommand c (target? s.document c)).runOn (s.remember (.started r.name c)) =
      (.ok x, t))
    (hrest : Course r cs (r.closed c (target? s.document c) t) gave u) : Course r (c :: cs) s gave u

/-- The last result among what scripts have given. -/
def lastResult (gave : List (Command × Option Value)) : Option Value :=
  (gave.filterMap Prod.snd).getLast?

theorem lastResult_cons (c : Command) (x : Option Value) (gave : List (Command × Option Value)) :
    lastResult ((c, x) :: gave) = (lastResult gave).or x := by
  cases x with
  | none => exact Option.or_none.symm
  | some v =>
    change (v :: gave.filterMap Prod.snd).getLast? = _
    rw [List.getLast?_cons, lastResult]
    cases (gave.filterMap Prod.snd).getLast? <;> rfl

theorem lastResult_append (gave more : List (Command × Option Value)) :
    lastResult (gave ++ more) = (lastResult more).or (lastResult gave) := by
  rw [lastResult, List.filterMap_append, List.getLast?_append]
  rfl

private theorem eq_none_of_bind {α : Type} {a : Act σ α} {s t : Session σ} {x : Option Value}
    (h : (a >>= fun _ => pure none).runOn s = (.ok x, t)) : x = none := by
  obtain ⟨_, u, -, hrest⟩ := Act.exists_of_runOn_bind h
  cases hrest
  rfl

/-- A mute command gives its macro nothing. -/
theorem eq_none_of_isMute {target : Option Placed} {s t : Session σ} {x : Option Value} :
    ∀ {c : Command}, c.isMute = true → (r.runCommand c target).runOn s = (.ok x, t) → x = none
  | .host .., _, h => by
    rw [runCommand] at h
    exact eq_none_of_bind h
  | .choice .., _, h => by
    cases target with
    | none =>
      rw [runCommand] at h
      exact eq_none_of_bind h
    | some p =>
      rw [runCommand] at h
      exact eq_none_of_bind h
  | .nested .., _, h => by
    cases target with
    | none =>
      rw [runCommand] at h
      exact eq_none_of_bind h
    | some p =>
      rw [runCommand] at h
      exact eq_none_of_bind h
  | .wait .., _, h => by
    rw [runCommand] at h
    exact eq_none_of_bind h
  | .editor .., _, h => by
    rw [runCommand] at h
    exact eq_none_of_bind h
  | .assistant .., _, h => by
    rw [runCommand, Act.runOn_get_bind] at h
    obtain ⟨assigned, u, -, hrest⟩ := Act.exists_of_runOn_bind h
    dsimp only at hrest
    split at hrest
    · exact eq_none_of_bind hrest
    · cases hrest
      rfl
  | .openFile .., _, h => by
    rw [runCommand] at h
    exact eq_none_of_bind h

private theorem exists_course_mute {c : Command} (hc : c.isMute = true) {cs : List Command}
    (ih : ∀ {output out : Option Value} {s t : Session σ},
      (r.runCommands cs output).runOn s = (.ok out, t) →
      ∃ gave, r.Course cs s gave t ∧ out = (lastResult gave).or output)
    {output out : Option Value} {s t : Session σ}
    (h : (r.runCommands (c :: cs) output).runOn s = (.ok out, t)) :
    ∃ gave, r.Course (c :: cs) s gave t ∧ out = (lastResult gave).or output := by
  obtain ⟨x, u, hrun, hrest⟩ := exists_of_runOn_runCommands h
  obtain rfl := eq_none_of_isMute hc hrun
  obtain ⟨gave, hcourse, hout⟩ := ih hrest
  exact ⟨gave, .mute hc hrun hcourse, hout⟩

/-- Commands that end have had a course, and their output is the last result in it, or else what
was there before. -/
theorem exists_course : ∀ (cs : List Command) {output out : Option Value} {s t : Session σ},
    (r.runCommands cs output).runOn s = (.ok out, t) →
    ∃ gave, r.Course cs s gave t ∧ out = (lastResult gave).or output
  | [], output, out, s, t, h => by
    rw [runCommands] at h
    cases h
    exact ⟨[], .nil, rfl⟩
  | .script head path settings slot :: cs, output, out, s, t, h => by
    obtain ⟨x, u, hrun, hrest⟩ := exists_of_runOn_runCommands h
    rw [runCommand] at hrun
    obtain ⟨gave, hcourse, hout⟩ := exists_course cs hrest
    refine ⟨_, .script (runOn_runScript_eq_ok_iff.mp hrun) hcourse, ?_⟩
    rw [lastResult_cons, hout]
    cases x <;> simp
  | .conditional head c thens elses :: cs, output, out, s, t, h => by
    obtain ⟨x, u, hrun, hrest⟩ := exists_of_runOn_runCommands h
    rw [runCommand, ← bind_assoc] at hrun
    obtain ⟨holds, w, hholds, hbranch⟩ := Act.exists_of_runOn_bind hrun
    have htaken : ∃ gave, r.Course (if holds then thens else elses) w gave u ∧
        x = (lastResult gave).or none := by
      cases holds with
      | true => exact exists_course thens hbranch
      | false => exact exists_course elses hbranch
    obtain ⟨gave, hgave, hx⟩ := htaken
    obtain ⟨more, hmore, hout⟩ := exists_course cs hrest
    refine ⟨_, .conditional hholds hgave hmore, ?_⟩
    rw [lastResult_append, hout, hx]
    cases lastResult gave <;> simp
  | .host _ _ :: cs, _, _, _, _, h => exists_course_mute rfl (exists_course cs) h
  | .choice _ _ :: cs, _, _, _, _, h => exists_course_mute rfl (exists_course cs) h
  | .nested _ _ :: cs, _, _, _, _, h => exists_course_mute rfl (exists_course cs) h
  | .wait _ _ :: cs, _, _, _, _, h => exists_course_mute rfl (exists_course cs) h
  | .editor _ _ :: cs, _, _, _, _, h => exists_course_mute rfl (exists_course cs) h
  | .assistant _ _ :: cs, _, _, _, _, h => exists_course_mute rfl (exists_course cs) h
  | .openFile _ _ _ _ :: cs, _, _, _, _, h => exists_course_mute rfl (exists_course cs) h

end Running

/-! ### The record of a course -/

/-- The script that begins as a command of a level at this moment, if one does. -/
def Moment.ownScript? (level : Nat) (m : Moment) : Option Command :=
  match m.mark with
  | .started _ (.script head path settings slot) =>
    if m.depth = level then some (.script head path settings slot) else none
  | _ => none

/-- The scripts that have begun as commands of a level, in order. The moments are the latest
first. -/
def ownScripts (level : Nat) (moments : List Moment) : List Command :=
  moments.reverse.filterMap (Moment.ownScript? level)

theorem ownScripts_append (level : Nat) (later earlier : List Moment) :
    ownScripts level (later ++ earlier) = ownScripts level earlier ++ ownScripts level later := by
  rw [ownScripts, List.reverse_append, List.filterMap_append]
  rfl

theorem Moment.Aside.ownScript?_eq_none {level : Nat} {m : Moment} (h : m.Aside level) :
    m.ownScript? level = none := by
  rw [ownScript?]
  split
  · next hmark =>
    have hdeeper : level < m.depth := h (by rw [hmark]; rfl)
    exact if_neg hdeeper.ne'
  · rfl

/-- Between two states of the same level, these scripts have begun as commands of it. -/
structure Session.Begins (scripts : List Command) (s t : Session σ) : Prop where
  depth : t.depth = s.depth
  trail : ∃ new, t.trail = new ++ s.trail ∧ ownScripts s.depth new = scripts

namespace Session

variable {scripts more : List Command} {s t u : Session σ}

theorem Begins.trans (h : s.Begins scripts t) (g : t.Begins more u) :
    s.Begins (scripts ++ more) u := by
  obtain ⟨new, ht, rfl⟩ := h.trail
  obtain ⟨later, hu, rfl⟩ := g.trail
  refine ⟨g.depth.trans h.depth, later ++ new, by rw [hu, ht, List.append_assoc], ?_⟩
  rw [ownScripts_append, h.depth]

theorem Records.begins (h : s.Records Moment.Aside t) : s.Begins [] t := by
  obtain ⟨new, ht, hnew⟩ := h.trail
  refine ⟨h.depth, new, ht, List.filterMap_eq_nil_iff.mpr fun m hm => ?_⟩
  exact (hnew m (List.mem_reverse.mp hm)).ownScript?_eq_none

theorem begins_script (s : Session σ) (owner : Value) (head : CommandHead) (path : String)
    (settings : Entries) (slot : Nat) :
    s.Begins [.script head path settings slot]
      (s.remember (.started owner (.script head path settings slot))) := by
  refine ⟨rfl, [s.moment _], rfl, ?_⟩
  rw [ownScripts, List.reverse_singleton]
  exact List.filterMap_cons_some (if_pos rfl)

/-- A command that is no script begins, or a command ends. -/
theorem begins_remember (s : Session σ) {m : Mark}
    (hm : ∀ owner head path settings slot, m ≠ .started owner (.script head path settings slot)) :
    s.Begins [] (s.remember m) := by
  refine ⟨rfl, [s.moment m], rfl, List.filterMap_eq_nil_iff.mpr fun m' hm' => ?_⟩
  obtain rfl := List.mem_singleton.mp (List.mem_reverse.mp hm')
  rw [Moment.ownScript?]
  split
  · next hmark => exact absurd hmark (hm _ _ _ _ _)
  · rfl

end Session

namespace Running

variable {host : Host σ} {execute : Placed → Act σ Unit} {name : Value}

private theorem begins_closed (c : Command) (target : Option Placed) (s : Session σ) :
    s.Begins [] (closed ⟨host, execute, name⟩ c target s) := by
  obtain ⟨hdepth, htrail⟩ := Session.begins_remember { s with shared := s.shared.update s.frame }
    (m := .finished name c (target.map Placed.choice)) fun _ _ _ _ _ h => by cases h
  exact ⟨hdepth, htrail⟩

/-- The scripts of a course are those that begin at its level. -/
theorem Course.begins (hd : host.Discreet) (hexec : ∀ p, (execute p).Records Moment.Aside)
    {cs : List Command} {gave : List (Command × Option Value)} {s t : Session σ}
    (h : Course ⟨host, execute, name⟩ cs s gave t) : s.Begins (gave.map Prod.fst) t := by
  induction h with
  | nil => exact ⟨rfl, [], rfl, rfl⟩
  | @script head path settings slot x cs gave s t u hscript _ ih =>
    have hbegun := s.begins_script name head path settings slot
    have hrun := (Act.aside_scripting hd hexec).runScript (Act.aside_loads hd path) name settings
      (s.remember (.started name (.script head path settings slot)))
    rw [runOn_runScript_eq_ok_iff.mpr hscript] at hrun
    exact hbegun.trans (hrun.begins.trans ((begins_closed _ none t).trans ih))
  | @conditional head c thens elses holds cs gave more s t u w hholds _ _ ihbranch ihrest =>
    have hbegun : s.Begins [] (s.remember (.started name (.conditional head c thens elses))) :=
      s.begins_remember fun _ _ _ _ _ h => by cases h
    have hrun := (Act.Records.bind Act.aside_framed.pullFrame fun _ =>
      Condition.aside_holds hd hexec c)
      (s.remember (.started name (.conditional head c thens elses)))
    rw [hholds] at hrun
    rw [List.map_append]
    exact hbegun.trans (hrun.begins.trans (ihbranch.trans ((begins_closed _ none u).trans ihrest)))
  | @mute c x cs gave s t u hc hrun _ ih =>
    have hbegun : s.Begins [] (s.remember (.started name c)) :=
      s.begins_remember fun _ _ _ _ _ h => by
        cases h
        cases hc
    have hcommand := aside_runCommand hd hexec name (target? s.document c) c hc
      (s.remember (.started name c))
    rw [hrun] at hcommand
    exact hbegun.trans (hcommand.begins.trans ((begins_closed c _ t).trans ih))

/-- **The output of a macro is that of its own scripts.** Of a macro that ends without a fault, the
output is the last result that one of its scripts has given, or null if none has. These are the
scripts among its commands and in the branches taken, and in the record of the run they are those
that begin at its level. Anything else in the record, such as a script of a choice that is run
meanwhile, is at a deeper level or no command, and gives the macro nothing. -/
theorem output_of_own_scripts (hd : host.Discreet)
    (hexec : execute = Choice.execute host ∨ ∃ levels, execute = Choice.executeAt host levels)
    (name : Value) {body : Option Macro} {s t : Session σ} {v : Value}
    (h : (runBody ⟨host, execute, name⟩ body).runOn s = (.ok v, t)) :
    let commands := (body.map Macro.commands).getD []
    ∃ gave new, (Course ⟨host, execute, name⟩ commands s gave t ∨ commands = [] ∧ gave = []) ∧
      v = (lastResult gave).getD .null ∧ t.trail = new ++ s.trail ∧
      ownScripts s.depth new = gave.map Prod.fst ∧ ∀ m ∈ new, s.depth ≤ m.depth := by
  intro commands
  have haside : ∀ p, (execute p).Records Moment.Aside := by
    rcases hexec with rfl | ⟨levels, rfl⟩
    · exact Choice.aside_execute hd
    · exact Choice.aside_executeAt hd levels
  have hfrom : ∀ p, (execute p).Records Moment.From := by
    rcases hexec with rfl | ⟨levels, rfl⟩
    · exact Choice.from_execute hd
    · exact Choice.from_executeAt hd levels
  -- its own scripts are those that begin at its level
  obtain ⟨gave, hcourse, hv, hbegins⟩ : ∃ gave,
      (Course ⟨host, execute, name⟩ commands s gave t ∨ commands = [] ∧ gave = []) ∧
        v = (lastResult gave).getD .null ∧ s.Begins (gave.map Prod.fst) t := by
    rw [runBody] at h
    split at h
    · next hnone =>
      cases h
      exact ⟨[], .inr ⟨hnone, rfl⟩, rfl, rfl, [], rfl, rfl⟩
    · rw [map_eq_pure_bind] at h
      obtain ⟨out, u, hrun, hrest⟩ := Act.exists_of_runOn_bind h
      cases hrest
      obtain ⟨gave, hcourse, rfl⟩ := exists_course commands hrun
      exact ⟨gave, .inl hcourse, by rw [Option.or_none], hcourse.begins hd haside⟩
  obtain ⟨new, ht, hnew⟩ := hbegins.trail
  -- and no moment of the run is at an outer level
  have d : Comparison host execute execute fun {α} (a _ : Act σ α) => a.Records Moment.From :=
    (Act.from_uniform hd).comparison hfrom
  have hrecords := d.runBody name body s
  rw [h] at hrecords
  obtain ⟨new', ht', hdeeper⟩ := hrecords.trail
  obtain rfl : new = new' := List.append_cancel_right (ht.symm.trans ht')
  exact ⟨gave, new, hcourse, hv, ht, hnew, hdeeper⟩

end Running

/-! ### A macro with scripts of several sorts -/

namespace Rehearsal

/-- A command with a script without settings. -/
def scriptNamed (name : String) : Command := .script ⟨.text name, .text name⟩ name [] 0

/-- A macro with a script of its own, a nested macro with another one, and a conditional on a
script, in whose branch there is one that is missing. -/
def reporting : Macro :=
  let inner : Choice := .ofMacro ⟨.text "inner", .text "inner", false⟩
    (some (.mk (.text "inner") (.text "inner") [scriptNamed "two"] false))
  .mk (.text "report") (.text "report")
    [scriptNamed "one", .nested ⟨.text "inner", .text "inner"⟩ (some inner),
      .conditional ⟨.text "ask", .text "ask"⟩ (.byScript "three" .null) [scriptNamed "none"] []]
    false

/-- A session that has just begun, with scripts that give numbers. -/
def beforeReport : Session Rehearsal :=
  let giving (name : String) (n : Int) : String × Value :=
    (name, .function name .one [.finish (.literal (.int n))])
  .start .preset .empty .start
    ⟨[giving "one" 1, giving "two" 2, giving "three" 3], [], [], [], false, none, false⟩

end Rehearsal

namespace Running

open Rehearsal (reporting beforeReport scriptNamed)

/-- The nested script and the one of the condition give something later, and the missing one is the
last. -/
theorem output_of_own_scripts_reporting :
    let r : Running Rehearsal := ⟨Rehearsal.host, Choice.execute Rehearsal.host, .text "report"⟩
    let run := (r.runBody (some reporting)).runOn beforeReport
    run.1 = .ok (.int 1) ∧ ∃ gave, r.Course reporting.commands beforeReport gave run.2 ∧
      (lastResult gave).getD .null = .int 1 ∧
      gave.map Prod.fst = [scriptNamed "one", scriptNamed "none"] := by
  intro r run
  have hresult : run.1 = .ok (.int 1) := by
    dsimp only [r, run]
    cbv
  have hown : ownScripts 0 run.2.trail = [scriptNamed "one", scriptNamed "none"] := by
    dsimp only [r, run]
    cbv
  obtain ⟨gave, new, hcourse, hv, htrail, hnew, -⟩ := output_of_own_scripts Rehearsal.host_discreet
    (.inl rfl) r.name (Prod.ext hresult rfl)
  have hall : run.2.trail = new := htrail.trans (List.append_nil new)
  have hcourse := hcourse.resolve_right fun hnone => List.cons_ne_nil _ _ hnone.1
  exact ⟨hresult, gave, hcourse, hv.symm, by rw [← hnew, ← hall]; exact hown⟩

end Running

end Choicebook
