import Choicebook.Proofs.Session.Branch
import Choicebook.Proofs.Session.Clearance
import Choicebook.Proofs.Session.Impartial
import Choicebook.Proofs.Session.Lifting
import Choicebook.Proofs.Session.Variables
import Choicebook.Proofs.Value.Plain

/-!
# Two ways to run a macro

A macro can be run by its name, which gives its output as a text or fails, and its choice can be run
with a report. Either way its body runs in a frame that is made from the shared variables, but the
choice is one level around it, takes a cancellation of the body for itself and shares the frame in
the end. `SingleMacro.runOn_run` and `Runner.run_follows` say what the two do with the run of the
body, and `Act.Lifts` compares the two runs of the body.

So the two ways in do the same (`SingleMacro.run_reported`), as long as the deeper run stays below
the nesting limit, notices do not fail, the output is not a function, which only the first one
calls, and the output can be written as a text, which only the first one does. A fault that escapes
is one way to end that both have in common: then there is no report.
-/

namespace Choicebook

variable {σ : Type} {host : Host σ}

/-! ### Running a macro by its name -/

namespace SingleMacro

variable {name reference : String} {c : Choice} {s : Session σ}

/-- A look-up that finds something finds it in every state with the same choices, and leaves
everything as it is. The reference as a whole only matters if it finds nothing. -/
theorem runOn_find_of_document (h : ((find name reference : Act σ Choice).runOn s).1 = .ok c)
    {t : Session σ} (ht : t.document = s.document) (other : String) :
    (find name other : Act σ Choice).runOn t = (.ok c, t) := by
  rw [find, Act.runOn_get_bind] at h ⊢
  rw [ht]
  dsimp only at h ⊢
  generalize exactly? _ _ = result at h ⊢
  cases result with
  | error f => cases h
  | ok found =>
    cases found with
    | some c' =>
      cases h
      rfl
    | none =>
      -- no name is exactly the wanted one, so capitals do not matter
      dsimp only [Act.expect] at h ⊢
      rw [pure_bind] at h ⊢
      dsimp only at h ⊢
      split at h
      · cases h
        rfl
      · cases h
      · cases h

theorem runOn_find (h : ((find name reference : Act σ Choice).runOn s).1 = .ok c) :
    (find name reference : Act σ Choice).runOn s = (.ok c, s) :=
  runOn_find_of_document h rfl reference

/-- Without member access, and with an output that is not called, a run is a run of the body, whose
output is written as a text in the end. -/
theorem runOn_run {head : ChoiceHead} {body : Option Macro}
    (hpath : (splitReference reference).2 = [])
    (hfind : ((find ((splitReference reference).1.getD "") reference : Act σ Choice).runOn s).1 =
      .ok (.ofMacro head body)) {result : Except Fault Value} {t : Session σ}
    (hbody : (Running.runBody ⟨host, Choice.execute host, head.name⟩ body).runOn
      (Choice.opened s) = (result, t))
    (hplain : ∀ v, result = .ok v → v.isCallable = false) :
    (run host reference).runOn s = Act.proceed (result, { t with frame := s.frame })
      (fun v u => (Act.expect v.resultText).runOn u) fun f u => (.error f, u) := by
  rw [run]
  dsimp only
  rw [Act.runOn_bind_ok (runOn_find hfind), hpath, if_pos List.isEmpty_nil, Act.runOn_get_bind,
    Act.runOn_bind, Act.runOn_inFrame]
  change Act.proceed (Act.proceed ((Running.runBody ⟨host, Choice.execute host, head.name⟩
    body).runOn (Choice.opened s)) _ _) _ _ = _
  rw [hbody]
  cases result with
  | error f => rfl
  | ok v =>
    have hv := hplain v rfl
    rw [Act.proceed_ok, Act.proceed_ok, hv]
    rfl

end SingleMacro

/-! ### Running the choice with a report -/

/-- On whatever level, a macro choice whose body is cancelled leaves the reason pending. -/
theorem Choice.runOn_ofMacro_recorded {same : σ → σ → Prop} (ha : host.Aloof)
    (hu : host.Unmoved same) {execute : Placed → Act σ Unit}
    {browse : Menu → Act σ (Option Choice)} {head : ChoiceHead} {body : Option Macro}
    (place : Option (List Nat)) {s u : Session σ} (hdepth : ¬s.config.maxDepth ≤ s.depth)
    {reason : String} (h : (Running.runBody ⟨host, execute, head.name⟩ body).runOn
      (opened (inside (.ofMacro head body) s)) = (.error (.cancelled reason), u)) :
    ∃ t, (executeOnce host browse execute ⟨.ofMacro head body, place⟩).runOn s = (.ok (), t) ∧
      t.pending = some reason ∧ t.shared = u.shared ∧
      ∃ new, t.trail = new ++ u.trail ∧ calls new = [] := by
  obtain ⟨t, hrecord, hpeer, -, htrail⟩ := Act.runOn_recordCancellation_apart ha hu
    (.ofMacro head body) Fault.defaultReason reason { u with frame := s.frame }
  have hmacro := (runOn_runMacro_cancelled (c := .ofMacro head body) h).trans hrecord
  refine ⟨s.leave t, ?_, hpeer.pending.symm, hpeer.shared.symm, htrail⟩
  rw [runOn_executeOnce hdepth, perform, hmacro]

/-! ### How a run with a report ends -/

namespace RunReport

theorem outcome_of_none {report : RunReport} (h : report.fault = none) :
    report.outcome = .success := by
  rw [outcome, h]

/-- Whatever has been reported with a fault is no success. -/
theorem fault_eq_none {report : RunReport} (h : report.outcome = .success) :
    report.fault = none := by
  rw [outcome] at h
  split at h
  · assumption
  · split at h
    · cases h
    · cases h

namespace Tells

variable {f g : Fault} {result : Except Fault RunReport}

theorem not_success (h : Tells f result) : ¬∃ r, result = .ok r ∧ r.outcome = .success := by
  rintro ⟨r, hr, hsuccess⟩
  rw [Tells] at h
  split at h
  · cases h.symm.trans hr
  · obtain ⟨r', hr', hfault, -⟩ := h
    obtain rfl := Except.ok.inj (hr'.symm.trans hr)
    rw [fault_eq_none hsuccess] at hfault
    cases hfault

/-- Whatever does not escape is reported, with its own outcome. -/
theorem reported_iff (h : Tells f result) (hg : g.escapes = false) :
    (∃ r, result = .ok r ∧ r.outcome = (if g.isCancelled then .aborted else .failed) ∧
      r.fault = some g) ↔ f = g := by
  rw [Tells] at h
  split at h
  · next hf =>
    constructor
    · rintro ⟨r, hr, -⟩
      cases h.symm.trans hr
    · rintro rfl
      cases hf.symm.trans hg
  · obtain ⟨r, hr, hfault, houtcome⟩ := h
    constructor
    · rintro ⟨r', hr', -, hfault'⟩
      obtain rfl := Except.ok.inj (hr.symm.trans hr')
      exact Option.some.inj (hfault.symm.trans hfault')
    · rintro rfl
      exact ⟨r, hr, houtcome, hfault⟩

theorem escaped_iff (h : Tells f result) (hg : g.escapes = true) :
    result = .error g ↔ f = g := by
  rw [Tells] at h
  split at h
  · rw [h]
    exact Except.error.injEq f g ▸ Iff.rfl
  · next hf =>
    obtain ⟨r, rfl, -⟩ := h
    exact iff_of_false (by rintro ⟨⟩) (by rintro rfl; exact hf hg)

end Tells

/-- What a run of a macro choice with a report does when the body of the macro has ended like
`run`. -/
structure Follows {α : Type} (run : Except Fault α × Session σ)
    (reported : Except Fault RunReport × Session σ) : Prop where
  /-- The frame of a body that has not failed is shared. -/
  returned : ∀ x, run.1 = .ok x → (∃ r, reported.1 = .ok r ∧ r.fault = none) ∧
    reported.2.shared = run.2.shared.update run.2.frame
  failed : ∀ f, run.1 = .error f → Tells f reported.1 ∧ reported.2.shared = run.2.shared
  vars : ∀ r, reported.1 = .ok r → r.vars = reported.2.shared
  trail : ∃ new, reported.2.trail = new ++ run.2.trail ∧ calls new = []

/-- Sharing a frame that has been shared changes the value of no variable. -/
theorem Follows.get?_shared {α : Type} {run : Except Fault α × Session σ}
    {reported : Except Fault RunReport × Session σ} (h : Follows run reported)
    (hframe : run.2.frame.Distinct)
    (hshared : ∀ x, run.1 = .ok x → ∃ shared : Entries, run.2.shared = shared.update run.2.frame)
    {k : Value} (hk : k.canBeKey = true) :
    reported.2.shared.get? k = run.2.shared.get? k := by
  cases hresult : run.1 with
  | error f => rw [(h.failed f hresult).2]
  | ok x =>
    obtain ⟨shared, heq⟩ := hshared x hresult
    rw [(h.returned x hresult).2, Entries.get?_update _ hframe hk, heq,
      Entries.get?_update _ hframe hk, ← Option.or_assoc, Option.or_self]

end RunReport

namespace Runner

variable {s t : Session σ}

/-- A report has the variables that are shared in the end. -/
theorem vars_of_run {choice : Option Placed} {vars : Entries} {report : RunReport}
    (h : (run host choice vars).runOn s = (.ok report, t)) : report.vars = t.shared := by
  rw [run.eq_def, Act.runOn_modify_bind] at h
  cases choice with
  | none => cases h
  | some p =>
    dsimp only at h
    rw [Act.runOn_attempt_bind, ← begun] at h
    generalize (Choice.execute host p).runOn (begun vars s) = run at h
    obtain ⟨f | _, u⟩ := run
    · rw [Act.proceed_error] at h
      split at h
      · cases h
      · dsimp only at h
        split at h
        · cases h
          rfl
        · cases h
          rfl
    · rw [Act.proceed_ok] at h
      dsimp only at h
      cases hp : u.pending with
      | none =>
        rw [Act.runOn_bind_ok (Act.runOn_takePending_none hp)] at h
        cases h
        rfl
      | some reason =>
        rw [Act.runOn_bind_ok (Act.runOn_takePending_some hp)] at h
        cases h
        rfl

variable {same : σ → σ → Prop} {vars : Entries}

/-- A choice that is refused has reached the limit. -/
theorem reachesLimit_of_refused {p : Placed}
    (hdepth : (begun vars s).config.maxDepth ≤ (begun vars s).depth) :
    ReachesLimit s.config.maxDepth s.trail ((run host (some p) vars).runOn s).2.trail := by
  let levels := (begun vars s).config.maxDepth - (begun vars s).depth
  have hexecute : (Choice.execute host p).runOn (begun vars s) =
      (Choice.executeOnce host (Menu.browse host) (Choice.executeAt host levels) p).runOn
        (begun vars s) := Choice.runOn_execute p
  have hreached : ReachesLimit s.config.maxDepth s.trail
      ((Choice.execute host p).runOn (begun vars s)).2.trail := by
    rw [hexecute]
    exact Choice.reachesLimit_of_refused (Menu.browse host) (Choice.executeAt host levels) p hdepth
  rw [Choice.runOn_executeOnce_refused hdepth] at hexecute
  obtain ⟨-, -, htrail⟩ := tells_of_error hexecute
  rw [hexecute] at hreached
  rw [htrail]
  exact hreached

/-- A run of a macro choice below the nesting limit follows the body of the macro. -/
theorem run_follows (ha : host.Aloof) (hd : host.Discreet) (hu : host.Unmoved same)
    (hdepth : ¬(begun vars s).config.maxDepth ≤ (begun vars s).depth) (head : ChoiceHead)
    (body : Option Macro) (place : Option (List Nat)) :
    let levels := (begun vars s).config.maxDepth - (begun vars s).depth
    let ended := (Running.runBody ⟨host, Choice.executeAt host levels, head.name⟩ body).runOn
      (Choice.opened (Choice.inside (.ofMacro head body) (begun vars s)))
    RunReport.Follows ended ((run host (some ⟨.ofMacro head body, place⟩) vars).runOn s) := by
  intro levels ended
  let p : Placed := ⟨.ofMacro head body, place⟩
  have htells : host.Tells := fun text s => (hu.notice text s).imp fun _ h => h.1
  have hexecute : (Choice.execute host p).runOn (begun vars s) =
      (Choice.executeOnce host (Menu.browse host) (Choice.executeAt host levels) p).runOn
        (begun vars s) := Choice.runOn_execute p
  have hclears := Discipline.clears hd (Choice.executeAt_yields hd htells levels)
  have hcleared := hclears.comparison.runBody head.name body
    (Choice.opened (Choice.inside p.choice (begun vars s))) rfl
  have hvars : ∀ r, ((run host (some p) vars).runOn s).1 = .ok r →
      r.vars = ((run host (some p) vars).runOn s).2.shared :=
    fun _ hr => vars_of_run (Prod.ext hr rfl)
  change RunReport.Follows ended ((run host (some p) vars).runOn s)
  cases hended : ended with
  | mk result u =>
    have hpending : u.pending = none := by
      have hkept : ended.2.pending = none := hcleared
      rwa [hended] at hkept
    cases result with
    | ok v =>
      rw [Choice.runOn_ofMacro_ok hdepth hended] at hexecute
      have hrun := runOn_of_ok hexecute hpending
      rw [hrun] at hvars ⊢
      exact ⟨fun _ _ => ⟨⟨_, rfl, rfl⟩, rfl⟩, nofun, hvars, [], rfl, rfl⟩
    | error f =>
      cases hf : f.isCancelled with
      | false =>
        rw [Choice.runOn_ofMacro_error hdepth hf hended] at hexecute
        obtain ⟨htells, hshared, htrail⟩ := tells_of_error hexecute
        refine ⟨nofun, ?_, hvars, [], htrail, rfl⟩
        rintro _ ⟨⟩
        exact ⟨htells, hshared⟩
      | true =>
        obtain ⟨reason, rfl⟩ := Fault.eq_cancelled hf
        obtain ⟨t, hrecorded, hreason, hshared, later, hlater, hquiet⟩ :=
          Choice.runOn_ofMacro_recorded ha hu place hdepth hended
        rw [hrecorded] at hexecute
        have hrun := runOn_of_cancelled hexecute hreason
        -- recording the cancellation and taking it up are no calls of the host
        let consumed := { t with pending := none }.moment (.consumed reason)
        rw [hrun] at hvars ⊢
        refine ⟨nofun, ?_, hvars, consumed :: later, congrArg (consumed :: ·) hlater, ?_⟩
        · rintro _ ⟨⟩
          exact ⟨RunReport.tells_reported (Fault.escapes_cancelled reason) _ _, hshared⟩
        · rw [calls_cons, hquiet]
          rfl

end Runner

/-! ### Both ways -/

/-- The frame has been shared after the body of a macro, if it began with what was shared. -/
theorem Running.shared_of_runBody {r : Running σ} {body : Option Macro} {s u : Session σ}
    (hs : s.shared.Distinct) {v : Value}
    (h : (r.runBody body).runOn (Choice.opened s) = (.ok v, u)) :
    ∃ shared : Entries, u.shared = shared.update u.frame := by
  rw [runBody] at h
  split at h
  · -- without commands the frame is still the one that was made from the shared variables
    cases h
    refine ⟨[], ?_⟩
    have hframe : Entries.update [] s.shared = s.shared := Entries.ofPairs_eq hs
    change s.shared = Entries.update [] (Entries.update [] s.shared)
    rw [hframe, hframe]
  · next hcs =>
    rw [map_eq_pure_bind] at h
    obtain ⟨out, w, hrun, hrest⟩ := Act.exists_of_runOn_bind h
    cases hrest
    exact shared_of_runCommands hcs hrun

/-- Where a macro begins that is run by its name, and where it begins in its choice. -/
theorem Session.Lifted.begin {same : σ → σ → Prop} (he : Equivalence same) (c : Choice)
    (s : Session σ) : Lifted same s.config.maxDepth s.depth s.trail s.trail (Choice.opened s)
      (Choice.opened (Choice.inside c s)) := by
  have hpeer : (Choice.opened s).Peer same (Choice.opened (Choice.inside c s)) :=
    ⟨⟨rfl, rfl, rfl, rfl, rfl⟩, he.refl _⟩
  let called := s.moment (.called c)
  let entered := ((s.remember (.called c)).enter c).moment (.entered c)
  exact ⟨hpeer, rfl, rfl, rfl, [], [entered, called], rfl, rfl, rfl⟩

/-- A run with a report matches the run `alone`, both since `past`. -/
structure RunReport.Matches {α : Type} (past : List Moment) (alone : Except Fault α × Session σ)
    (reported : Except Fault RunReport × Session σ) : Prop where
  /-- The host has been asked for the same, one after the other, apart from notices. -/
  asked : ∃ new new', alone.2.trail = new ++ past ∧ reported.2.trail = new' ++ past ∧
    calls new = calls new'
  shared : ∀ k : Value, k.canBeKey = true → alone.2.shared.get? k = reported.2.shared.get? k
  vars : ∀ r, reported.1 = .ok r → r.vars = reported.2.shared
  success : (∃ r, reported.1 = .ok r ∧ r.outcome = .success) ↔ ∃ x, alone.1 = .ok x
  aborted : ∀ reason, (∃ r, reported.1 = .ok r ∧ r.outcome = .aborted ∧
    r.fault = some (.cancelled reason)) ↔ alone.1 = .error (.cancelled reason)
  failed : ∀ f : Fault, f.isCancelled = false → f.escapes = false →
    ((∃ r, reported.1 = .ok r ∧ r.outcome = .failed ∧ r.fault = some f) ↔ alone.1 = .error f)
  /-- There is no report of what escapes. -/
  escaped : ∀ f : Fault, f.escapes = true → (reported.1 = .error f ↔ alone.1 = .error f)

section

variable {result : Except Fault Value} {past : List Moment} {u w : Session σ} {t : Session σ}
  {reported : Except Fault RunReport × Session σ}

/-- A run that follows a body matches a run that ends as the body does. -/
private theorem RunReport.Follows.matches_of_result (h : Follows (result, w) reported)
    {text : Except Fault String} (hok : ∀ v, result = .ok v → ∃ x, text = .ok x)
    (herror : ∀ f, result = .error f → text = .error f)
    (hasked : ∃ new new', u.trail = new ++ past ∧ reported.2.trail = new' ++ past ∧
      calls new = calls new')
    (hshared : ∀ k : Value, k.canBeKey = true → u.shared.get? k = reported.2.shared.get? k) :
    Matches past (text, u) reported := by
  cases result with
  | ok v =>
    obtain ⟨x, rfl⟩ := hok v rfl
    obtain ⟨⟨r, hr, hfault⟩, -⟩ := h.returned v rfl
    have hunique : ∀ {r'}, reported.1 = .ok r' → r'.fault = none := fun hr' => by
      obtain rfl := Except.ok.inj (hr.symm.trans hr')
      exact hfault
    refine ⟨hasked, hshared, h.vars, ⟨fun _ => ⟨x, rfl⟩, fun _ => ⟨r, hr, outcome_of_none hfault⟩⟩,
      fun reason => iff_of_false ?_ nofun, fun f _ _ => iff_of_false ?_ nofun,
      fun f _ => iff_of_false ?_ nofun⟩
    · rintro ⟨r', hr', -, hfault'⟩
      cases (hunique hr').symm.trans hfault'
    · rintro ⟨r', hr', -, hfault'⟩
      cases (hunique hr').symm.trans hfault'
    · exact fun herr => by cases hr.symm.trans herr
  | error g =>
    obtain rfl := herror g rfl
    obtain ⟨htells, -⟩ := h.failed g rfl
    have heq : ∀ f : Fault, ((.error g, u) : Except Fault String × Session σ).1 = .error f ↔ g = f :=
      fun f => ⟨Except.error.inj, congrArg _⟩
    refine ⟨hasked, hshared, h.vars, iff_of_false htells.not_success ?_, fun reason => ?_,
      fun f hf he => ?_, fun f he => ?_⟩
    · rintro ⟨x, hx⟩
      cases hx
    · exact (htells.reported_iff (Fault.escapes_cancelled reason)).trans (heq _).symm
    · have hiff := htells.reported_iff he
      rw [hf] at hiff
      exact hiff.trans (heq f).symm
    · exact (htells.escaped_iff he).trans (heq f).symm

/-- A run with a report that follows the second one of two lifted bodies matches the first one. -/
theorem RunReport.Follows.toMatches {same : σ → σ → Prop} {limit level : Nat}
    (h : Follows (result, w) reported) (hlifted : Session.Lifted same limit level past past u w)
    (hplain : ∀ v, result = .ok v → ∃ text, v.resultText = .ok text)
    (hframe : w.frame.Distinct)
    (hshared : ∀ v, result = .ok v → ∃ shared : Entries, w.shared = shared.update w.frame)
    (frame : Entries) :
    Matches past (result.bind Value.resultText, { u with frame := frame }) reported := by
  refine h.matches_of_result ?_ ?_ ?_ fun k hk => ?_
  · rintro v rfl
    exact hplain v rfl
  · rintro f rfl
    rfl
  · obtain ⟨new, new', hnew, hnew', hcalls⟩ := hlifted.trail
    obtain ⟨later, hlater, hquiet⟩ := h.trail
    refine ⟨new, later ++ new', hnew, ?_, ?_⟩
    · rw [hlater, hnew', List.append_assoc]
    · rw [calls_append, hquiet, hcalls, List.nil_append]
  · rw [h.get?_shared hframe hshared hk, ← hlifted.shared]

end

namespace SingleMacro

variable {same : σ → σ → Prop}

end SingleMacro

/-! ### A rehearsal of both -/

namespace Rehearsal

private theorem unmoved_law : Law fun {α} (a : Act Rehearsal α) => ∀ {s t : Session Rehearsal},
    s.Peer Eq t → (a.runOn s).1 = (a.runOn t).1 ∧ (a.runOn s).2.Peer Eq (a.runOn t).2 where
  pure _ := fun h => ⟨rfl, h⟩
  bind := by
    intro α β a f ha hf s t hst
    obtain ⟨hresult, hpeer⟩ := ha hst
    exact Act.runOn_bind_alike (Q := fun run run' => run.1 = run'.1 ∧ run.2.Peer Eq run'.2)
      hresult (fun x => hf x hpeer) fun e => ⟨rfl, hpeer⟩
  read h hf := by
    intro s t hst
    rw [Act.runOn_get_bind, Act.runOn_get_bind, h s t hst.host]
    exact hf t hst
  throw _ := fun h => ⟨rfl, h⟩
  note _ _ := fun h => ⟨rfl, { h with }⟩
  noteShared _ := fun h => ⟨rfl, { h with }⟩
  updateShared extra := fun h =>
    ⟨rfl, { h with shared := congrArg (Entries.update · extra) h.shared }⟩
  nextAnswer := by
    intro s t hst
    have hanswers : s.host.answers = t.host.answers := congrArg answers hst.host
    cases h : t.host.answers with
    | nil =>
      rw [runOn_nextAnswer_nil (hanswers.trans h), runOn_nextAnswer_nil h]
      exact ⟨rfl, hst⟩
    | cons v rest =>
      rw [runOn_nextAnswer_cons (hanswers.trans h), runOn_nextAnswer_cons h]
      exact ⟨rfl, { hst with host := by simp only [hst.host] }⟩

theorem host_unmoved : Rehearsal.host.Unmoved Eq where
  equivalence := eq_equivalence
  patience := congrArg Rehearsal.host.patience
  acts h := unmoved_law.offers h
  notice text s := ⟨s.note (.notify text), rfl, ⟨rfl, rfl, rfl, rfl, rfl⟩, rfl⟩

/-- A session that has just begun, with the macro that is interrupted in its document. -/
def listed : Session Rehearsal :=
  { fresh with document := ⟨[interrupted.choice], [], []⟩ }

end Rehearsal

namespace Rehearsal

/-- A macro choice with some commands. -/
def plainly (name : String) (cs : List Command) : Choice :=
  .ofMacro ⟨.text name, .text name, false⟩ (some (.mk (.text name) (.text name) cs false))

/-- A session with three macros: the output of one cannot be written, the second one is cancelled,
and the third one goes on after a script has run the second one. -/
def divided : Session Rehearsal :=
  let head (name : String) : CommandHead := ⟨.text name, .text name⟩
  let long : Value := .function "long" .one [.finish (.literal (.int (10 ^ 4300)))]
  let dare : Value := .function "dare" .one [.attempt [.runChoice "halt" .null] "caught"]
  { fresh with
    document := ⟨[plainly "long" [.script (head "long") "long" [] 0],
      plainly "halt" [.host (head "stop") "stop"],
      plainly "dare" [.script (head "dare") "dare" [] 1, .host (head "next") "next"]], [], []⟩
    host := { fresh.host with scripts := [("long", long), ("dare", dare)] } }

/-- A rehearsal in which the command `next` fails after a notice. -/
def startled : Host Rehearsal :=
  { Rehearsal.host with
    notify := fun _ => modify fun s => { s with host := { s.host with failing := ["next"] } } }

end Rehearsal

end Choicebook
