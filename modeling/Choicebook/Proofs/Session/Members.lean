import Choicebook.Proofs.Script.Reference
import Choicebook.Proofs.Session.Entrances
import Choicebook.Proofs.Session.Exports
import Choicebook.Proofs.Session.Freshness
import Choicebook.Proofs.Value.Primitives

/-!
# Two ways to a member

A member of what a script exports can be reached by a reference that names it, `macro::name::name`,
or by running the macro and selecting the names one after the other. Both ways come to the same
value, and if it is a function that takes no settings it is called in the same way, so that the
shared variables are the same in the end (`SingleMacro.run_member`).

The two ways load the script and open a frame in a different order, and only one of them asks the
user and runs a command. But when they have reached the member, their states differ in the records
and in the state of the host only (`Session.Moved`), and in both the host has come to the same
state. What happens from there on does not look at the records (`Act.Oblivious`), and
`SingleMacro.ends_of_names` and `SingleMacro.ends_of_answers` say what the two make of it.

The texts are the same, too, with one exception. A selected primitive is made a text of at once, and
a named one is made a text of as the result of any macro, and these differ in floats of whole
numbers (`SingleMacro.run_member_apart`). A whole number that is too long to be written is refused
by both, but the one that is selected is refused while the macro still runs.
-/

namespace Choicebook

/-! ### References -/

/-- A name that can stand in a reference: it is not empty, without blanks at its ends, and there is
no double colon in it, not even one that begins with its last character. -/
structure IsReferable (name : String) : Prop where
  nonempty : name ≠ ""
  trimmed : Text.trim name = name
  whole : Text.hasPiece "::".toList (name.toList ++ [':']) = false

/-- Without any colon there is no double one. -/
theorem isReferable_of_free {name : String} (hne : name ≠ "") (htrim : Text.trim name = name)
    (hfree : ':' ∉ name.toList) : IsReferable name :=
  ⟨hne, htrim, Text.hasPiece_of_not_mem hfree⟩

theorem IsReferable.isPart {name : String} (h : IsReferable name) : Reference.IsPart name := by
  have hstrip : Text.strip name.toList = name.toList := by
    rw [← String.toList_ofList (l := Text.strip name.toList), ← Text.trim, h.trimmed]
  have htrimmed := Text.trimmed_strip name.toList
  rw [hstrip] at htrimmed
  exact ⟨h.nonempty, htrimmed⟩

/-- A reference that is put together is taken apart again. -/
theorem splitReference_join {name : String} {path : List String} (hname : IsReferable name)
    (hpath : ∀ key ∈ path, IsReferable key) :
    splitReference (Text.join "::" (name :: path)) = (some name, path) := by
  have hall : ∀ key ∈ name :: path, IsReferable key := List.forall_mem_cons.mpr ⟨hname, hpath⟩
  exact (Reference.Spread.refl (name :: path)).splitReference_eq
    (fun key hkey => (hall key hkey).isPart) fun key hkey => (hall key hkey).whole

/-! ### Settings that stay -/

mutual

private theorem mapSettings_choice (slot : Nat) : ∀ c : Choice, c.mapSettings slot id = c
  | .ofMacro _ (some m) => by rw [Choice.mapSettings, mapSettings_macro slot m]
  | .multi _ cs _ => by rw [Choice.mapSettings, mapSettings_choices slot cs]
  | .ofMacro _ none => rfl
  | .template .. => rfl
  | .capture .. => rfl

private theorem mapSettings_choices (slot : Nat) :
    ∀ cs : List Choice, Choice.mapSettingsAll slot id cs = cs
  | [] => rfl
  | c :: cs => by rw [Choice.mapSettingsAll, mapSettings_choice slot c, mapSettings_choices slot cs]

private theorem mapSettings_macro (slot : Nat) : ∀ m : Macro, m.mapSettings slot id = m
  | .mk _ _ cs _ => by rw [Macro.mapSettings, mapSettings_commands slot cs]

private theorem mapSettings_command (slot : Nat) : ∀ c : Command, c.mapSettings slot id = c
  | .script _ _ _ _ => by rw [Command.mapSettings, id, ite_self]
  | .nested _ (some c) => by rw [Command.mapSettings, mapSettings_choice slot c]
  | .conditional _ _ thens elses => by
    rw [Command.mapSettings, mapSettings_commands slot thens, mapSettings_commands slot elses]
  | .nested _ none => rfl
  | .host .. => rfl
  | .choice .. => rfl
  | .wait .. => rfl
  | .editor .. => rfl
  | .assistant .. => rfl
  | .openFile .. => rfl

private theorem mapSettings_commands (slot : Nat) :
    ∀ cs : List Command, Command.mapSettingsAll slot id cs = cs
  | [] => rfl
  | c :: cs => by
    rw [Command.mapSettingsAll, mapSettings_command slot c, mapSettings_commands slot cs]

end

/-- Without presets nothing is filled in. -/
theorem Document.mapSettings_id (slot : Nat) (d : Document) : d.mapSettings slot id = d := by
  have hmacros : d.macros.map (Macro.mapSettings slot id) = d.macros :=
    (List.map_congr_left fun m _ => mapSettings_macro slot m).trans (List.map_id _)
  rw [Document.mapSettings, mapSettings_choices, hmacros]

variable {σ : Type}

/-! ### Runs that differ in the records -/

/-- A state that differs from another one in the records and in the state of the host only. -/
def Session.Moved (s : Session σ) (h : σ) (t : Session σ) : Prop :=
  ∃ events trail, t = { s with host := h, events := events, trail := trail }

namespace Session.Moved

variable {s t u : Session σ} {h h' : σ}

theorem refl (s : Session σ) : s.Moved s.host s := ⟨s.events, s.trail, rfl⟩

theorem trans (hst : s.Moved h t) (htu : t.Moved h' u) : s.Moved h' u := by
  obtain ⟨_, _, rfl⟩ := hst
  obtain ⟨events, trail, rfl⟩ := htu
  exact ⟨events, trail, rfl⟩

theorem host (hst : s.Moved h t) : t.host = h := by
  obtain ⟨_, _, rfl⟩ := hst
  rfl

theorem shared (hst : s.Moved h t) : t.shared = s.shared := by
  obtain ⟨_, _, rfl⟩ := hst
  rfl

theorem frame (hst : s.Moved h t) : t.frame = s.frame := by
  obtain ⟨_, _, rfl⟩ := hst
  rfl

theorem remember (hst : s.Moved h t) (m : Mark) : s.Moved h (t.remember m) := by
  obtain ⟨events, trail, rfl⟩ := hst
  exact ⟨events, _, rfl⟩

theorem withFrame (hst : s.Moved h t) (frame : Entries) :
    Moved { s with frame := frame } h { t with frame := frame } := by
  obtain ⟨events, trail, rfl⟩ := hst
  exact ⟨events, trail, rfl⟩

end Session.Moved

/-- An act that does not look at the records does the same whatever they are. -/
theorem Act.Oblivious.runOn_moved {α : Type} {a : Act σ α} (ha : a.Oblivious) {s t u : Session σ}
    {h : σ} (ht : s.Moved h t) (hu : s.Moved h u) : (a.runOn t).1 = (a.runOn u).1 ∧
      (a.runOn t).2.shared = (a.runOn u).2.shared ∧ (a.runOn t).2.frame = (a.runOn u).2.frame := by
  let blank : Session σ := { s with host := h, events := #[], trail := [] }
  have hblank : ∀ t : Session σ, s.Moved h t →
      a.runOn t = ((a.runOn blank).1, (a.runOn blank).2.following t) := by
    rintro _ ⟨events, trail, rfl⟩
    rw [← ha blank]
    simp [blank, Session.following]
  rw [hblank t ht, hblank u hu]
  exact ⟨rfl, rfl, rfl⟩

/-- In one state of the host, an act gives a result, and it leaves the host in another one. Nothing
else of the session changes but the records. -/
def Act.Gives {α : Type} (a : Act σ α) (x : α) (h h' : σ) : Prop :=
  ∀ s : Session σ, s.host = h → ∃ t, s.Moved h' t ∧ a.runOn s = (.ok x, t)

theorem Act.Gives.ask {α : Type} {a : Act σ α} {x : α} {h h' : σ} (ha : a.Gives x h h')
    (e : Event) : (Act.ask e a).Gives x h h' := by
  intro s hs
  obtain ⟨t, ht, hrun⟩ := ha (s.remember (.asked e)) hs
  refine ⟨t, ((Session.Moved.refl s).remember (.asked e)).trans ht, ?_⟩
  rw [Act.runOn_ask, hrun]
  rfl

/-! ### Selections -/

/-- The selector of a host answers the names of a path, one after the other. Each is offered where
it is asked for, and leads to a member. -/
inductive Host.Answers (host : Host σ) : Value → List String → Value → σ → σ → Prop where
  | done {v : Value} {h : σ} : Answers host v [] v h h
  | member {v u w : Value} {key : String} {path : List String} {i : Nat} {h h' h'' : σ}
    {names : List String} (hv : v.isContainer = true) (hnames : v.offeredNames = .ok names)
    (hkey : names[i]? = some key) (hu : v.member? key = .ok (some u))
    (hanswer : (host.suggest (names.map .text) names.length .null).Gives (some i) h h')
    (hrest : Answers host u path w h' h'') : Answers host v (key :: path) w h h''

theorem Host.Answers.names {host : Host σ} {v w : Value} {path : List String} {h h' : σ}
    (hanswers : host.Answers v path w h h') : Value.Names v path w := by
  induction hanswers with
  | done => exact .nil
  | member _ _ _ hu _ _ ih => exact .cons hu ih

namespace Value

theorem smallerMember?_eq {v u : Value} {key : String} (h : v.member? key = .ok (some u)) :
    ∃ hu, v.smallerMember? key = .ok (some ⟨u, hu⟩) := by
  rw [smallerMember?]
  split
  · next w hw =>
    obtain rfl : w = u := Option.some.inj (Except.ok.inj (hw.symm.trans h))
    exact ⟨sizeOf_lt_of_member? h, rfl⟩
  · next hw => cases hw.symm.trans h
  · next hw => cases hw.symm.trans h

theorem shape_of_isContainer {v : Value} (h : v.isContainer = true) :
    v.shape = if v.hasEntry then .withEntry else .container := by
  cases v <;> first | rfl | cases h

/-- What is asked for with `entry` is there, if it is there at all, without a fault. -/
theorem member?_entry_of_hasEntry {v : Value} (h : v.hasEntry = true) :
    ∃ m, v.member? "entry" = .ok m := by
  rw [hasEntry] at h
  cases hm : v.member? "entry" with
  | ok m => exact ⟨m, rfl⟩
  | error f =>
    rw [hm] at h
    cases h

end Value

namespace Dispatcher

variable {d : Dispatcher σ}

/-- One selection of a member. -/
theorem runOn_select {v u : Value} {names : List String} {key : String} {i : Nat} {h h' : σ}
    (hnames : v.offeredNames = .ok names) (hkey : names[i]? = some key)
    (hu : v.member? key = .ok (some u))
    (hanswer : (d.host.suggest (names.map .text) names.length .null).Gives (some i) h h')
    {s : Session σ} (hs : s.host = h) :
    ∃ t hsmaller, s.Moved h' t ∧ (d.select v).runOn s = (.ok ⟨u, hsmaller⟩, t) := by
  have hoffered : names.isEmpty = false := by
    cases names with
    | nil => cases hkey
    | cons => rfl
  obtain ⟨hsmaller, hmember⟩ := Value.smallerMember?_eq hu
  obtain ⟨t, ht, hrun⟩ := hanswer.ask (.suggest (names.map .text) .null) s hs
  refine ⟨t, hsmaller, ht, ?_⟩
  simp only [select, hnames, Act.expect, pure_bind, hoffered, Bool.false_eq_true, if_false]
  rw [Act.runOn_bind_ok hrun, Option.bind_some, hkey]
  dsimp only
  rw [hmember]
  rfl

/-- Without settings, dispatching a container is selecting a member and dispatching that. -/
theorem run_of_isContainer (hd : d.settings = none) {v : Value} (hv : v.isContainer = true) :
    d.run v = d.select v >>= fun m => d.run m.1 := by
  rw [run, Value.shape_of_isContainer hv]
  cases hentry : v.hasEntry with
  | false => rfl
  | true =>
    obtain ⟨m, hm⟩ := Value.member?_entry_of_hasEntry hentry
    simp only [if_true, hm, hd, Act.expect, pure_bind]

/-- The names are selected, and then what they lead to is dispatched. -/
theorem runOn_answers (hd : d.settings = none) {v w : Value} {path : List String} {h h' : σ}
    (hanswers : d.host.Answers v path w h h') {s : Session σ} (hs : s.host = h) :
    ∃ t, s.Moved h' t ∧ (d.run v).runOn s = (d.run w).runOn t := by
  induction hanswers generalizing s with
  | done => exact ⟨s, hs ▸ .refl s, rfl⟩
  | member hv hnames hkey hu hanswer _ ih =>
    obtain ⟨t, hsmaller, ht, hselect⟩ := runOn_select hnames hkey hu hanswer hs
    obtain ⟨t', ht', hrun⟩ := ih ht.host
    refine ⟨t', ht.trans ht', ?_⟩
    rw [run_of_isContainer hd hv, Act.runOn_bind_ok hselect, hrun]

end Dispatcher

/-! ### What is reached -/

namespace Value

variable {host : Host σ} {execute : Placed → Act σ Unit} {v : Value}

/-- What is done with a member that has been reached, without settings. -/
def reached (host : Host σ) (execute : Placed → Act σ Unit) (v : Value) : Act σ Value :=
  if v.isCallable then v.call host execute (.parameters true) else return v

/-- What is shown of a member that has been selected, after it has given a result. -/
def shown (v result : Value) : Except Fault Value :=
  if v.isCallable then .ok result else Value.text <$> v.primitiveText

theorem isCallable_of_isPrimitive (h : v.isPrimitive = true) : v.isCallable = false := by
  cases v <;> first | rfl | cases h

theorem isPrimitive_of_isCallable (h : v.isCallable = true) : v.isPrimitive = false := by
  cases v <;> first | rfl | cases h

theorem reached_of_isCallable (h : v.isCallable = true) :
    v.reached host execute = v.call host execute (.parameters true) := if_pos h

theorem reached_of_isPrimitive (h : v.isPrimitive = true) :
    v.reached host execute = pure v := by
  rw [reached, isCallable_of_isPrimitive h]
  rfl

theorem shown_of_isCallable (h : v.isCallable = true) (result : Value) :
    v.shown result = .ok result := if_pos h

theorem shown_of_isPrimitive (h : v.isPrimitive = true) (result : Value) :
    v.shown result = Value.text <$> v.primitiveText := by
  rw [shown, isCallable_of_isPrimitive h]
  rfl

/-- What can be written is shown. -/
theorem isOk_shown (hv : v.isPrimitive = true ∨ v.isCallable = true) (h : v.isWritable = true)
    (result : Value) : (v.shown result).isOk = true := by
  rcases hv with hprimitive | hcall
  · rw [shown_of_isPrimitive hprimitive]
    cases v with
    | int n =>
      have htext : (int n).primitiveText = .ok (int n).display := by
        simp only [primitiveText, comparedText, written, h, if_true]
      rw [htext]
      rfl
    | float x =>
      rw [primitiveText, comparedText]
      cases x.toInt? <;> rfl
    | text | bool => rfl
    | _ => cases hprimitive
  · rw [shown_of_isCallable hcall]
    rfl

/-- What is done with a member does not look at the records. -/
theorem reached_oblivious (ho : host.Oblivious) (v : Value) :
    (v.reached host (Choice.execute host)).Oblivious := by
  rw [reached]
  split
  · have d : Comparison host (Choice.execute host) (Choice.execute host) fun {α} (a _ : Act σ α) =>
        a.Oblivious := (Act.Oblivious.uniform ho).comparison (Choice.execute_oblivious ho)
    exact d.call _ v
  · exact .pure v

theorem isCallable_shown {result w : Value} (h : v.isCallable = true → result.isCallable = false)
    (hw : v.shown result = .ok w) : w.isCallable = false := by
  rw [shown] at hw
  split at hw
  · next hcall => exact Except.ok.inj hw ▸ h hcall
  · cases htext : v.primitiveText with
    | ok text =>
      rw [htext] at hw
      exact Except.ok.inj hw ▸ rfl
    | error f =>
      rw [htext] at hw
      cases hw

theorem isNull_of_leaf (hv : v.isPrimitive = true ∨ v.isCallable = true) : v.isNull = false := by
  cases v with
  | null => exact absurd (hv.elim id id) Bool.false_ne_true
  | _ => rfl

/-- A function that takes no settings gets none, whatever the settings of the command are. -/
theorem reached_eq_callWithSettings (settings : Entries) (h : v.takesSettings = false) :
    (if v.isCallable then v.callWithSettings host execute true (some settings) else return v) =
      v.reached host execute := by
  rw [reached, callWithSettings, h]
  rfl

end Value

/-- Without settings, what has been reached is dispatched by showing what it gives. -/
theorem Dispatcher.run_of_leaf {d : Dispatcher σ} (hd : d.settings = none)
    (hsession : d.inSession = true) {v : Value}
    (hv : v.isPrimitive = true ∨ v.isCallable = true) :
    d.run v = v.reached d.host d.execute >>= fun result =>
      some <$> Act.expect (v.shown result) := by
  rw [run, Value.shape, Value.reached]
  cases hcall : v.isCallable with
  | false =>
    have hprimitive : v.isPrimitive = true :=
      hv.resolve_right (by rw [hcall]; exact Bool.false_ne_true)
    simp only [hprimitive, if_true, Bool.false_eq_true, if_false, Value.shown, hcall, pure_bind]
    cases v.primitiveText with
    | ok text => rfl
    | error f => rfl
  | true =>
    have hprimitive := Value.isPrimitive_of_isCallable hcall
    simp only [hprimitive, Bool.false_eq_true, if_false, if_true, Value.shown, hcall,
      Dispatcher.call, Value.callWithSettings, hd, hsession, Act.expect, map_eq_pure_bind,
      pure_bind]

/-- A script whose export is selected from. -/
theorem Running.runOn_runScript_answers {r : Running σ} {file : String} {exported leaf : Value}
    {path : List String} {g g' g'' : σ} (hload : (r.host.loadScript file).Gives exported g g')
    (hnull : exported.isNull = false) (hanswers : r.host.Answers exported path leaf g' g'')
    (hleaf : leaf.isPrimitive = true ∨ leaf.isCallable = true) {s : Session σ} (hs : s.host = g) :
    ∃ t, s.Moved g'' t ∧ (r.runScript file []).runOn s =
      (leaf.reached r.host r.execute >>= fun result =>
        some <$> Act.expect (leaf.shown result)).runOn t := by
  obtain ⟨t, ht, hloaded⟩ := hload.ask (.load file) s hs
  let d : Dispatcher σ := ⟨r.host, r.execute, true, r.name, none⟩
  obtain ⟨u, hu, hrun⟩ := d.runOn_answers rfl hanswers ht.host
  refine ⟨u, ht.trans hu, ?_⟩
  rw [runScript, Act.runOn_bind_ok hloaded, hnull]
  exact hrun.trans (congrArg (Act.runOn · u) (d.run_of_leaf rfl rfl hleaf))

/-- A macro with one script is a step that runs it. -/
theorem Running.runOn_runBody_script (r : Running σ) (i n : Value) (h : CommandHead) (file : String)
    (settings : Entries) (slot : Nat) (flag : Bool) (s : Session σ) :
    (r.runBody (some (.mk i n [.script h file settings slot] flag))).runOn s =
      ((·.getD .null) <$> r.step (.script h file settings slot) none
        (r.runScript file settings)).runOn s := by
  have hoption : ∀ new : Option Value, (new.orElse fun _ => none) = new := fun new => by
    cases new <;> rfl
  change ((·.getD .null) <$> r.runCommands [.script h file settings slot] none).runOn s = _
  simp only [runCommands, target?, runCommand, hoption, bind_pure]
  rw [map_eq_pure_bind, map_eq_pure_bind, bind_assoc]
  exact Act.runOn_get_bind _ s

/-- A run has ended just as what was reached has ended, in a frame that is shared unless there is a
fault until the result is shown. The text is made of what is shown. -/
structure SingleMacro.Ends (shown : Value → Except Fault Value)
    (reached : Except Fault Value × Session σ) (run : Except Fault String × Session σ) : Prop where
  result : run.1 = (reached.1.bind shown).bind Value.resultText
  shared : run.2.shared = Act.proceed reached
    (fun v t => if (shown v).isOk then t.shared.update t.frame else t.shared) fun _ t => t.shared

namespace SingleMacro

/-- In states that differ in the records, what does not look at them leads to the same variables,
if it is shown in both or if sharing the frame makes no difference. -/
theorem Ends.shared_alike {shown shown' : Value → Except Fault Value} {P : Entries → Entries → Prop}
    {a : Act σ Value} {s t u : Session σ} {h : σ} {run run' : Except Fault String × Session σ}
    (hrun : Ends shown (a.runOn t) run) (hrun' : Ends shown' (a.runOn u) run') (ha : a.Oblivious)
    (ht : s.Moved h t) (hu : s.Moved h u) (hrefl : ∀ m, P m m)
    (hshown : ∀ v w, a.runOn t = (.ok v, w) → (shown v).isOk = (shown' v).isOk ∨
      P (w.shared.update w.frame) w.shared ∧ P w.shared (w.shared.update w.frame)) :
    P run.2.shared run'.2.shared := by
  obtain ⟨hresult, hshared, hframe⟩ := ha.runOn_moved ht hu
  rw [hrun.shared, hrun'.shared]
  -- what is reached ends in the same way twice
  generalize a.runOn t = ended at hresult hshared hframe hshown ⊢
  generalize a.runOn u = ended' at hresult hshared hframe ⊢
  obtain ⟨result, t'⟩ := ended
  obtain ⟨result', u'⟩ := ended'
  obtain rfl : result = result' := hresult
  cases result with
  | error f =>
    rw [Act.proceed_error, Act.proceed_error, ← show t'.shared = u'.shared from hshared]
    exact hrefl _
  | ok v =>
    rw [Act.proceed_ok, Act.proceed_ok, ← show t'.shared = u'.shared from hshared,
      ← show t'.frame = u'.frame from hframe]
    rcases hshown v t' rfl with hsame | ⟨hleft, hright⟩
    · rw [hsame]
      exact hrefl _
    · split
      · split
        · exact hrefl _
        · exact hleft
      · split
        · exact hright
        · exact hrefl _

variable {host : Host σ} {name file : String} {path : List String} {exported leaf : Value}
  {head : ChoiceHead} {i n : Value} {h : CommandHead} {slot : Nat} {flag : Bool} {g g' g'' : σ}
  {s : Session σ}

/-- The member is selected. -/
theorem ends_of_answers (hname : IsReferable name)
    (hfind : ((find name name : Act σ Choice).runOn s).1 =
      .ok (.ofMacro head (some (.mk i n [.script h file [] slot] flag))))
    (hload : (host.loadScript file).Gives exported g g') (hnull : exported.isNull = false)
    (hanswers : host.Answers exported path leaf g' g'')
    (hleaf : leaf.isPrimitive = true ∨ leaf.isCallable = true)
    (hplain : ∀ t v u, (leaf.call host (Choice.execute host) (.parameters true)).runOn t =
      (.ok v, u) → v.isCallable = false) (hs : s.host = g) :
    ∃ t, (Choice.opened s).Moved g'' t ∧
      Ends leaf.shown
        ((leaf.reached host (Choice.execute host)).runOn t) ((run host name).runOn s) := by
  let r : Running σ := ⟨host, Choice.execute host, head.name⟩
  let started := (Choice.opened s).remember (.started r.name (.script h file [] slot))
  obtain ⟨t, ht, hscript⟩ := Running.runOn_runScript_answers (r := r) hload hnull hanswers hleaf
    (s := started) hs
  have hopened : (Choice.opened s).Moved g'' t :=
    ((Session.Moved.refl _).remember _).trans ht
  refine ⟨t, hopened, ?_⟩
  have hreference : splitReference name = (some name, []) := by
    have hjoin : Text.join "::" [name] = name := String.intercalate_singleton
    simpa only [hjoin] using splitReference_join hname (List.forall_mem_nil _)
  -- the body is its one script, and the script is what has been reached
  have hbody := (Running.runOn_runBody_script r i n h file [] slot flag (Choice.opened s))
  rw [map_eq_pure_bind, Act.runOn_bind, Running.step, Act.runOn_remember_bind, Act.runOn_bind,
    hscript, Act.runOn_bind] at hbody
  cases hreached : (leaf.reached host (Choice.execute host)).runOn t with
  | mk result u =>
    rw [hreached] at hbody
    cases result with
    | error f =>
      have hrun := runOn_run (congrArg Prod.snd hreference) (by rw [hreference]; exact hfind) hbody
        (by rintro _ ⟨⟩)
      rw [hrun]
      exact ⟨rfl, rfl⟩
    | ok v =>
      rw [Act.proceed_ok] at hbody
      cases hshown : leaf.shown v with
      | error f =>
        rw [hshown] at hbody
        have hrun := runOn_run (congrArg Prod.snd hreference) (by rw [hreference]; exact hfind)
          hbody (by rintro _ ⟨⟩)
        refine ⟨?_, ?_⟩
        · rw [hrun]
          exact congrArg (Except.bind · Value.resultText) hshown.symm
        · rw [hrun, Act.proceed_ok, hshown]
          rfl
      | ok w =>
        rw [hshown] at hbody
        have houtput : w.isCallable = false := Value.isCallable_shown (fun hcall =>
          hplain t v u (by rwa [← Value.reached_of_isCallable hcall])) hshown
        have hrun := runOn_run (congrArg Prod.snd hreference) (by rw [hreference]; exact hfind)
          hbody (by rintro _ ⟨⟩; exact houtput)
        refine ⟨?_, ?_⟩
        · rw [hrun, Act.proceed_ok, Act.runOn_expect_fst]
          exact congrArg (Except.bind · Value.resultText) hshown.symm
        · rw [hrun, Act.proceed_ok, Act.runOn_expect_shared, Act.proceed_ok, hshown]
          rfl

/-- A member that is there is called, if it can be, in a frame that is shared afterwards. If it
takes no settings, those of the command do not matter. -/
theorem runOn_runMember_names {c : Choice} {settings : Entries}
    (hfirst : firstScript? ((c.body?.map Macro.commands).getD []) = some (file, settings, slot))
    (hload : (host.loadScript file).Gives exported g g'') (hnull : exported.isNull = false)
    (hnames : exported.Names path leaf) (hsettings : exported.declaredSettings? = none)
    (hleaf : leaf.isNull = false) (htakes : leaf.takesSettings = false) (hs : s.host = g) :
    ∃ t, (Choice.opened s).Moved g'' t ∧ (runMember host c path).runOn s =
      Act.proceed ((leaf.reached host (Choice.execute host)).runOn t)
        (fun v u => (.ok v, { u with shared := u.shared.update u.frame, frame := s.frame }))
        fun f u => (.error f, { u with frame := s.frame }) := by
  obtain ⟨t, ht, hloaded⟩ := hload.ask (.load file) s hs
  refine ⟨_, ht.withFrame (Entries.update [] s.shared), ?_⟩
  have hcommands : ((c.body?.map Macro.commands).getD []).isEmpty = false := by
    cases hc : (c.body?.map Macro.commands).getD [] with
    | nil =>
      rw [hc] at hfirst
      cases hfirst
    | cons => rfl
  have hfollow : ∀ owner, exported.follow owner path = .ok leaf := by
    intro owner
    refine Value.follow_eq_ok_iff.mpr ⟨hnames, fun hnull => ?_⟩
    rw [hnull] at hleaf
    cases hleaf
  rw [runMember]
  simp only [hcommands, hfirst, Bool.false_eq_true, if_false]
  rw [Act.runOn_bind_ok hloaded, hnull]
  simp only [Bool.false_eq_true, if_false, hsettings, Document.mapSettings_id, hfollow,
    Value.reached_eq_callWithSettings _ htakes]
  rw [Act.runOn_modify_bind, Act.runOn_get_bind, Act.runOn_bind, Act.runOn_inFrame, ht.shared,
    ht.frame]
  generalize (leaf.reached host (Choice.execute host)).runOn _ = ended
  obtain ⟨f | v, u⟩ := ended <;> rfl

/-- The member is named. -/
theorem ends_of_names (hname : IsReferable name) (hpath : ∀ key ∈ path, IsReferable key)
    (hne : path ≠ [])
    (hfind : ((find name name : Act σ Choice).runOn s).1 =
      .ok (.ofMacro head (some (.mk i n [.script h file [] slot] flag))))
    (hload : (host.loadScript file).Gives exported g g'') (hnull : exported.isNull = false)
    (hnames : exported.Names path leaf) (hsettings : exported.declaredSettings? = none)
    (hleaf : leaf.isNull = false) (htakes : leaf.takesSettings = false) (hs : s.host = g) :
    ∃ t, (Choice.opened s).Moved g'' t ∧
      Ends Except.ok ((leaf.reached host (Choice.execute host)).runOn t)
        ((run host (Text.join "::" (name :: path))).runOn s) := by
  let c : Choice := .ofMacro head (some (.mk i n [.script h file [] slot] flag))
  obtain ⟨t, ht, hmember⟩ :=
    runOn_runMember_names (c := c) rfl hload hnull hnames hsettings hleaf htakes hs
  refine ⟨t, ht, ?_⟩
  have hfound := runOn_find_of_document hfind rfl (Text.join "::" (name :: path))
  have hrun : (run host (Text.join "::" (name :: path))).runOn s =
      (runMember host c path >>= fun v => Act.expect v.resultText).runOn s := by
    rw [run, splitReference_join hname hpath]
    dsimp only [Option.getD_some]
    rw [Act.runOn_bind_ok hfound, if_neg (by rwa [List.isEmpty_iff])]
  rw [hrun, Act.runOn_bind, hmember]
  generalize (leaf.reached host (Choice.execute host)).runOn t = ended
  obtain ⟨f | v, u⟩ := ended
  · exact ⟨rfl, rfl⟩
  · rw [Act.proceed_ok, Act.proceed_ok]
    exact ⟨Act.runOn_expect_fst _ _, Act.runOn_expect_shared _ _⟩

variable {g₁ g₂ : σ}

/-- **Naming a member and selecting it come to the same.** Let a macro have a script without
settings as its only command, let the script export a container that declares no settings, and let
`path` lead in it to a primitive, or to a function that takes no settings and gives no function.
Naming the member, and running the macro with a selector that answers the names, leave the same
shared variables, also if the function fails. If the member is a number that is too long to be
written, and there are variables whose names are not the same as themselves, this is said of what
can be looked up. The runs end with the same text or fault if and only if the member is not a float
of a whole number: a primitive that is named becomes a text as the result of a macro, and one that
is selected as an export. -/
theorem run_member (ho : host.Oblivious) (hname : IsReferable name)
    (hpath : ∀ key ∈ path, IsReferable key) (hne : path ≠ [])
    (hfind : ((find name name : Act σ Choice).runOn s).1 =
      .ok (.ofMacro head (some (.mk i n [.script h file [] slot] flag))))
    (hnamed : (host.loadScript file).Gives exported g g₂)
    (hchosen : (host.loadScript file).Gives exported g' g₁)
    (hanswers : host.Answers exported path leaf g₁ g₂)
    (hsettings : exported.declaredSettings? = none)
    (hleaf : leaf.isPrimitive = true ∨ leaf.isCallable = true ∧ leaf.takesSettings = false)
    (hplain : ∀ t v u, (leaf.call host (Choice.execute host) (.parameters true)).runOn t =
      (.ok v, u) → v.isCallable = false) :
    let named := (run host (Text.join "::" (name :: path))).runOn { s with host := g }
    let chosen := (run host name).runOn { s with host := g' }
    (leaf.isWritable = true ∨ s.shared.Distinct ∧ (∀ e ∈ s.shared, e.1.same e.1 = true) →
      named.2.shared = chosen.2.shared) ∧
    (s.shared.Distinct → ∀ k : Value, k.canBeKey = true →
      named.2.shared.get? k = chosen.2.shared.get? k) ∧
    (leaf.isPrimitive = true → named.1 = leaf.resultText ∧ chosen.1 = leaf.primitiveText) ∧
    (named.1 = chosen.1 ↔ ∀ x, leaf = .float x → x.toInt? = none) := by
  intro named chosen
  have hnull : exported.isNull = false := by
    cases hanswers with
    | done => exact absurd rfl hne
    | member hv => cases exported <;> first | rfl | cases hv
  have hkind : leaf.isPrimitive = true ∨ leaf.isCallable = true := hleaf.imp_right And.left
  have htakes : leaf.takesSettings = false := by
    rcases hleaf with hprimitive | hcall
    · cases leaf <;> first | rfl | cases hprimitive
    · exact hcall.2
  have hfound : ∀ g : σ, ((find name name : Act σ Choice).runOn { s with host := g }).1 =
      .ok (.ofMacro head (some (.mk i n [.script h file [] slot] flag))) := fun g =>
    congrArg Prod.fst (runOn_find_of_document hfind (t := { s with host := g }) rfl name)
  -- either run ends as what is reached does, in states that differ in the records alone
  obtain ⟨t, ht, hends⟩ := ends_of_names hname hpath hne (hfound g) hnamed hnull hanswers.names
    hsettings (Value.isNull_of_leaf hkind) htakes rfl
  obtain ⟨u, hu, hends'⟩ := ends_of_answers hname (hfound g') hchosen hnull hanswers hkind
    hplain rfl
  have htexts : leaf.isPrimitive = true →
      named.1 = leaf.resultText ∧ chosen.1 = leaf.primitiveText := by
    intro hprimitive
    rw [hends.result, hends'.result, Value.reached_of_isPrimitive hprimitive]
    refine ⟨rfl, ?_⟩
    change (leaf.shown leaf).bind Value.resultText = leaf.primitiveText
    rw [Value.shown_of_isPrimitive hprimitive]
    cases leaf.primitiveText <;> rfl
  have hshared : ∀ P : Entries → Entries → Prop, (∀ m, P m m) →
      (leaf.isWritable = true ∨ s.shared.Distinct ∧
        P (s.shared.update s.shared) s.shared ∧ P s.shared (s.shared.update s.shared)) →
      P named.2.shared chosen.2.shared := by
    intro P hrefl hcases
    refine hends.shared_alike hends' (Value.reached_oblivious ho leaf) ht hu hrefl
      fun v w hrun => ?_
    rcases hcases with hwritable | ⟨hdistinct, hsame⟩
    · exact .inl (Value.isOk_shown hkind hwritable v).symm
    · rcases hkind with hprimitive | hcall
      · -- nothing has been written to the frame, which is that of the start
        rw [Value.reached_of_isPrimitive hprimitive] at hrun
        cases hrun
        rw [show t.frame = s.shared from ht.frame.trans (Entries.ofPairs_eq hdistinct),
          show t.shared = s.shared from ht.shared]
        exact .inr hsame
      · exact .inl (by rw [Value.shown_of_isCallable hcall])
  refine ⟨fun hplainly => ?_, fun hdistinct k hk => ?_, htexts, ?_⟩
  · refine hshared Eq (fun _ => rfl) (hplainly.imp_right fun ⟨hdistinct, hsame⟩ => ?_)
    have hself : s.shared.update s.shared = s.shared := hdistinct.update_self hsame
    exact ⟨hdistinct, hself, hself.symm⟩
  · refine hshared (fun m n => m.get? k = n.get? k) (fun _ => rfl) (.inr ⟨hdistinct, ?_⟩)
    have hsame : (s.shared.update s.shared).get? k = s.shared.get? k := by
      rw [Entries.get?_update _ hdistinct hk, Option.or_self]
    exact ⟨hsame, hsame.symm⟩
  · rcases hkind with hprimitive | hcall
    · obtain ⟨hnamedText, hchosenText⟩ := htexts hprimitive
      rw [hnamedText, hchosenText, eq_comm]
      exact Value.primitiveText_eq_resultText_iff hprimitive
    · have hsame : named.1 = chosen.1 := by
        rw [hends.result, hends'.result, funext (Value.shown_of_isCallable hcall),
          ((Value.reached_oblivious ho leaf).runOn_moved ht hu).1]
      refine iff_of_true hsame fun x hx => ?_
      rw [hx] at hcall
      cases hcall

end SingleMacro

/-! ### A macro with tools -/

namespace Rehearsal

/-- A rehearsal gives what its list of scripts says. -/
theorem gives_loadScript (path : String) (h : Rehearsal) :
    (host.loadScript path).Gives ((h.scripts.lookup path).getD .null) h h := by
  rintro s rfl
  exact ⟨s.note (.load path), ⟨_, s.trail, rfl⟩, rfl⟩

/-- A rehearsal gives the next one of its answers. -/
theorem gives_suggest {labels : List Value} {count i : Nat} {placeholder : Value} {h : Rehearsal}
    {v : Value} {rest : List Value} (ha : h.answers = v :: rest)
    (hi : selected labels count v = some i) :
    (host.suggest labels count placeholder).Gives (some i) h { h with answers := rest } := by
  rintro s rfl
  rw [← hi]
  exact ⟨_, ⟨_, s.trail, rfl⟩, runOn_suggest_cons ha⟩

/-- The macro `kit` has one script. -/
def kit : Choice :=
  .ofMacro ⟨.text "kit", .text "kit", false⟩ (some (.mk (.text "kit") (.text "kit")
    [.script ⟨.text "tools", .text "tools"⟩ "tools" [] 0] false))

/-- What the script exports has a member with one tool. -/
def tools (tool : Value) : Value := .map [(.text "tools", .object [("tool", tool)])]

/-- A host with that script and some answers. -/
def withTools (tool : Value) (answers : List Value) : Rehearsal :=
  ⟨[("tools", tools tool)], answers, [], [], false, none, false⟩

/-- A session that has just begun, with the macro in its document. -/
def beforeTools (tool : Value) (answers : List Value) : Session Rehearsal :=
  .start .preset { Document.empty with choices := [kit] } .start (withTools tool answers)

theorem gives_tools (tool : Value) (answers : List Value) :
    (host.loadScript "tools").Gives (tools tool) (withTools tool answers)
      (withTools tool answers) :=
  gives_loadScript "tools" (withTools tool answers)

/-- The user gets to the tool by the names of the members. -/
theorem answers_tool (tool : Value) :
    host.Answers (tools tool) ["tools", "tool"] tool
      (withTools tool [.text "tools", .text "tool"]) (withTools tool []) := by
  have houter : (tools tool).offeredNames = .ok ["tools"] := by cbv
  have hinner : (Value.object [("tool", tool)]).offeredNames = .ok ["tool"] := by cbv
  have htools : host.Answers (.object [("tool", tool)]) ["tool"] tool
      (withTools tool [.text "tool"]) (withTools tool []) :=
    .member (i := 0) rfl hinner rfl rfl (gives_suggest rfl (by cbv)) .done
  exact .member (i := 0) rfl houter rfl (by cbv) (gives_suggest rfl (by cbv)) htools

end Rehearsal

namespace SingleMacro

open Rehearsal (beforeTools)

/-- A tool that sets a variable. -/
theorem run_member_tool :
    let tool : Value := .function "tool" .one
      [.assign "x" (.literal (.int 1)), .finish (.literal (.text "done"))]
    let named := (run Rehearsal.host "kit::tools::tool").runOn (beforeTools tool [])
    let chosen := (run Rehearsal.host "kit").runOn
      (beforeTools tool [.text "tools", .text "tool"])
    named.2.shared = chosen.2.shared ∧ named.1 = chosen.1 := by
  intro tool named chosen
  have hreferable : ∀ key ∈ ["tools", "tool"], IsReferable key := by
    intro key hkey
    simp only [List.mem_cons, List.not_mem_nil, or_false] at hkey
    rcases hkey with rfl | rfl
    · exact isReferable_of_free (by decide) (by decide) (by decide)
    · exact isReferable_of_free (by decide) (by decide) (by decide)
  have hname : IsReferable "kit" := isReferable_of_free (by decide) (by decide) (by decide)
  obtain ⟨hshared, -, -, htexts⟩ := run_member (s := beforeTools tool []) Rehearsal.host_oblivious
    hname hreferable (List.cons_ne_nil _ _) rfl (Rehearsal.gives_tools tool [])
    (Rehearsal.gives_tools tool _) (Rehearsal.answers_tool tool) (by cbv) (.inr ⟨rfl, rfl⟩)
    (by rintro t v u ⟨⟩; rfl)
  refine ⟨hshared (.inl rfl), htexts.mpr fun x hx => ?_⟩
  simp only [tool, reduceCtorEq] at hx

/-- The number one as a float is shown with a point if it is named, and without one if it is
selected. -/
theorem run_member_apart :
    let one : Value := .float (.ofInt 1)
    ((run Rehearsal.host "kit::tools::tool").runOn (beforeTools one [])).1 = .ok "1.0" ∧
    ((run Rehearsal.host "kit").runOn
      (beforeTools one [.text "tools", .text "tool"])).1 = .ok "1" := by
  decide +kernel

end SingleMacro

end Choicebook
