import Choicebook.Proofs.Session.Act
import Choicebook.Session.Interpreter

/-!
# Runs of choices

What a run of a choice does to the state around that of its body, as equations for `Act.runOn`. They
continue those for the means of a session: a choice begins one level deeper, a macro has variables
of its own, and the command that runs a choice takes up what that has left.
-/

namespace Choicebook

variable {σ : Type} {host : Host σ}

/-- Inside of another choice, the end of a cancelled one tells nobody. -/
theorem Act.runOn_recordCancellation {s : Session σ} (h : 1 < s.depth) (c : Choice)
    (preset reason : String) :
    (recordCancellation host c preset reason).runOn s =
      (.ok (), { s with pending := some reason }.remember (.recorded c reason)) := by
  rw [recordCancellation, runOn_modify_bind, runOn_remember_bind, runOn_get_bind,
    Session.remember_depth, if_pos h]
  rfl

/-- The end of a cancelled choice is a record. Only the outermost choice may tell the user, too. -/
theorem Act.runOn_recordCancellation_cases (host : Host σ) (c : Choice) (preset reason : String)
    (s : Session σ) :
    let recorded := { s with pending := some reason }.remember (.recorded c reason)
    (recordCancellation host c preset reason).runOn s = (.ok (), recorded) ∨
      ¬1 < s.depth ∧ ∃ text, (recordCancellation host c preset reason).runOn s =
        (ask (.notify text) (host.notify text)).runOn recorded := by
  intro recorded
  rw [recordCancellation, runOn_modify_bind, runOn_remember_bind, runOn_get_bind]
  split
  · exact .inl rfl
  · next hdepth =>
    dsimp only
    split
    · next text _ => exact .inr ⟨hdepth, text, rfl⟩
    · exact .inl rfl

/-! ### Choices -/

namespace Choice

variable {execute : Placed → Act σ Unit} {c : Choice} {body : Option Macro} {s u : Session σ}

/-- The state in which a choice does what it is for, one level deeper. -/
def inside (c : Choice) (s : Session σ) : Session σ :=
  ((s.remember (.called c)).enter c).remember (.entered c)

theorem runOn_executeOnce {browse : Menu → Act σ (Option Choice)} {p : Placed}
    (h : ¬s.config.maxDepth ≤ s.depth) :
    (executeOnce host browse execute p).runOn s =
      (((perform host browse execute p).runOn (inside p.choice s)).1,
        s.leave ((perform host browse execute p).runOn (inside p.choice s)).2) := by
  rw [executeOnce, Act.runOn_remember_bind, Act.runOn_get_bind, Session.remember_config,
    Session.remember_depth, if_neg h, Act.runOn_deeper, Act.runOn_remember_bind]
  rfl

/-- At the nesting limit nothing happens except for the failure. -/
theorem runOn_executeOnce_refused {browse : Menu → Act σ (Option Choice)} {p : Placed}
    (h : s.config.maxDepth ≤ s.depth) :
    (executeOnce host browse execute p).runOn s =
      (.error (.tooDeep p.choice.name.display s.config.maxDepth),
        (s.remember (.called p.choice)).remember
          (.failed (.tooDeep p.choice.name.display s.config.maxDepth))) := by
  rw [executeOnce, Act.runOn_remember_bind, Act.runOn_get_bind, Session.remember_config,
    Session.remember_depth, if_pos h]
  rfl

/-- A choice has one level more than the limit leaves. -/
theorem runOn_execute (p : Placed) :
    (Choice.execute host p).runOn s = (executeOnce host (Menu.browse host)
      (executeAt host (s.config.maxDepth - s.depth)) p).runOn s := by
  rw [Choice.execute, Act.runOn_get_bind, executeAt]

/-- What a template or a capture does, given how it ends. A fault that escapes is thrown again. -/
theorem runOn_delegate (host : Host σ) (c : Choice) (act : Act σ Unit) (s : Session σ) :
    (delegate host c act).runOn s =
      (match (act.runOn s).1 with
        | .ok () => return ()
        | .error (.cancelled reason) =>
          Act.recordCancellation host c (c.kind ++ " execution aborted") reason
        | .error f => throw f : Act σ Unit).runOn (act.runOn s).2 := by
  rw [delegate]
  refine Act.runOn_attempt_bind_of_throw _ (fun e he => ?_) s
  cases e with
  | cancelled reason => simp at he
  | _ => rfl

/-- A menu with something to choose from begins with what is below it in the document. -/
theorem runOn_runMenu {browse : Menu → Act σ (Option Choice)} {choices : List Choice}
    (h : ¬choices.isEmpty) (p : Placed) (s : Session σ) :
    (runMenu host browse execute p choices).runOn s =
      (browse ⟨choices, (Placed.list? s.document p).toList, p.choice.name⟩ >>= fun picked =>
        match picked with
        | some c => execute ⟨c, none⟩
        | none => Act.recordCancellation host p.choice "Choice selection aborted"
          "Choice selection cancelled by user").runOn s := by
  rw [runMenu, if_neg h]
  exact Act.runOn_get_bind ..

/-- What a macro choice does, given how its body ends. A fault that escapes is thrown again. -/
theorem runOn_runMacro (host : Host σ) (execute : Placed → Act σ Unit) (c : Choice)
    (body : Option Macro) (s : Session σ) :
    (runMacro host execute c body).runOn s =
      let run := (Act.inFrame s.shared
        (Running.runBody ⟨host, execute, c.name⟩ body)).runOn s
      (match run.1 with
        | .ok (_, frame) => Act.updateShared frame
        | .error (.cancelled reason) => Act.recordCancellation host c Fault.defaultReason reason
        | .error f => throw f : Act σ Unit).runOn run.2 := by
  rw [runMacro, Act.runOn_get_bind]
  refine Act.runOn_attempt_bind_of_throw _ (fun e he => ?_) s
  cases e with
  | cancelled reason => simp at he
  | _ => rfl

/-- The state in which the body of a macro begins. -/
def opened (s : Session σ) : Session σ :=
  { s with frame := Entries.update [] s.shared }

theorem runOn_runMacro_ok {v : Value}
    (h : (Running.runBody ⟨host, execute, c.name⟩ body).runOn (opened s) = (.ok v, u)) :
    (runMacro host execute c body).runOn s =
      (.ok (), { u with frame := s.frame, shared := u.shared.update u.frame }) := by
  rw [runOn_runMacro, Act.runOn_inFrame, ← opened, h]
  rfl

theorem runOn_runMacro_cancelled {reason : String}
    (h : (Running.runBody ⟨host, execute, c.name⟩ body).runOn (opened s) =
      (.error (.cancelled reason), u)) :
    (runMacro host execute c body).runOn s =
      (Act.recordCancellation host c Fault.defaultReason reason).runOn
        { u with frame := s.frame } := by
  rw [runOn_runMacro, Act.runOn_inFrame, ← opened, h]
  rfl

theorem runOn_runMacro_error {f : Fault} (hf : f.isCancelled = false)
    (h : (Running.runBody ⟨host, execute, c.name⟩ body).runOn (opened s) = (.error f, u)) :
    (runMacro host execute c body).runOn s = (.error f, { u with frame := s.frame }) := by
  rw [runOn_runMacro, Act.runOn_inFrame, ← opened, h]
  cases f with
  | cancelled => cases hf
  | _ => rfl

/-! A macro choice, given how the body of its macro ends. -/

section

variable {browse : Menu → Act σ (Option Choice)} {head : ChoiceHead}
  {place : Option (List Nat)}

theorem runOn_ofMacro_ok (hdepth : ¬s.config.maxDepth ≤ s.depth) {v : Value}
    (h : (Running.runBody ⟨host, execute, head.name⟩ body).runOn
      (opened (inside (.ofMacro head body) s)) = (.ok v, u)) :
    (executeOnce host browse execute ⟨.ofMacro head body, place⟩).runOn s =
      (.ok (), s.leave { u with frame := s.frame, shared := u.shared.update u.frame }) := by
  have hmacro := runOn_runMacro_ok (c := .ofMacro head body) h
  rw [runOn_executeOnce hdepth, perform, hmacro]
  rfl

theorem runOn_ofMacro_cancelled (hdepth : ¬s.config.maxDepth ≤ s.depth) {reason : String}
    (h : (Running.runBody ⟨host, execute, head.name⟩ body).runOn
      (opened (inside (.ofMacro head body) s)) = (.error (.cancelled reason), u))
    (hdeep : 1 < u.depth) :
    (executeOnce host browse execute ⟨.ofMacro head body, place⟩).runOn s =
      (.ok (), s.leave ({ u with frame := s.frame, pending := some reason }.remember
        (.recorded (.ofMacro head body) reason))) := by
  have hmacro := runOn_runMacro_cancelled (c := .ofMacro head body) h
  rw [runOn_executeOnce hdepth, perform, hmacro]
  exact congrArg (fun run => (run.1, s.leave run.2))
    (Act.runOn_recordCancellation (s := { u with frame := s.frame }) hdeep _ _ reason)

theorem runOn_ofMacro_error (hdepth : ¬s.config.maxDepth ≤ s.depth) {f : Fault}
    (hf : f.isCancelled = false)
    (h : (Running.runBody ⟨host, execute, head.name⟩ body).runOn
      (opened (inside (.ofMacro head body) s)) = (.error f, u)) :
    (executeOnce host browse execute ⟨.ofMacro head body, place⟩).runOn s =
      (.error f, s.leave { u with frame := s.frame }) := by
  have hmacro := runOn_runMacro_error (c := .ofMacro head body) hf h
  rw [runOn_executeOnce hdepth, perform, hmacro]
  rfl

end

end Choice

/-! ### Commands -/

namespace Running

variable {r : Running σ} {c : Command} {s t u : Session σ}

/-- The state after a command: the frame is shared. -/
def closed (r : Running σ) (c : Command) (target : Option Placed) (s : Session σ) : Session σ :=
  { s with shared := s.shared.update s.frame }.remember
    (.finished r.name c (target.map Placed.choice))

section

variable {α : Type} {target : Option Placed} {body : Act σ α} {x : α}

theorem runOn_step_ok (h : body.runOn (s.remember (.started r.name c)) = (.ok x, t)) :
    (r.step c target body).runOn s = (.ok x, r.closed c target t) := by
  rw [step, Act.runOn_remember_bind, Act.runOn_bind_ok h]
  rfl

/-- A command that ends has done what it is for. -/
theorem exists_of_runOn_step (h : (r.step c target body).runOn s = (.ok x, u)) :
    ∃ t, body.runOn (s.remember (.started r.name c)) = (.ok x, t) ∧ u = r.closed c target t := by
  rw [step, Act.runOn_remember_bind] at h
  obtain ⟨y, t, hbody, hrest⟩ := Act.exists_of_runOn_bind h
  cases hrest
  exact ⟨t, hbody, rfl⟩

end

/-- The commands after a command that has ended. -/
theorem runOn_runCommands_cons {new : Option Value}
    (h : (r.runCommand c (target? s.document c)).runOn (s.remember (.started r.name c)) =
      (.ok new, t)) (cs : List Command) (output : Option Value) :
    (r.runCommands (c :: cs) output).runOn s =
      (r.runCommands cs (new.orElse fun _ => output)).runOn
        (r.closed c (target? s.document c) t) := by
  rw [runCommands, Act.runOn_get_bind]
  exact Act.runOn_bind_ok (runOn_step_ok h) _

/-- Commands that end have ended one by one. -/
theorem exists_of_runOn_runCommands {cs : List Command} {output out : Option Value}
    (h : (r.runCommands (c :: cs) output).runOn s = (.ok out, u)) :
    ∃ new t, (r.runCommand c (target? s.document c)).runOn (s.remember (.started r.name c)) =
        (.ok new, t) ∧
      (r.runCommands cs (new.orElse fun _ => output)).runOn
        (r.closed c (target? s.document c) t) = (.ok out, u) := by
  rw [runCommands, Act.runOn_get_bind] at h
  obtain ⟨new, w, hstep, hrest⟩ := Act.exists_of_runOn_bind h
  obtain ⟨t, hbody, rfl⟩ := exists_of_runOn_step hstep
  exact ⟨new, t, hbody, hrest⟩

end Running

/-! ### Commands that run a choice -/

namespace Running

variable {r : Running σ} {c : Command} {p : Placed} {s u : Session σ}

/-- The state in which a command has run a choice and its variables are shared. -/
def folded (s : Session σ) : Session σ :=
  { s with
    frame := s.frame.update s.shared
    shared := s.shared.update (s.frame.update s.shared) }

theorem runOn_enter_ok (h : (r.execute p).runOn (s.remember (.started r.name c)) = (.ok (), u))
    (hpending : u.pending = none) :
    (r.step c (some p) (do r.enter p; return (none : Option Value))).runOn s =
      (.ok none, (folded u).remember (.finished r.name c (some p.choice))) := by
  rw [step, enter, Act.runOn_remember_bind]
  simp only [bind_assoc]
  rw [Act.runOn_bind_ok h, Act.runOn_bind_ok (Act.runOn_raisePending_none hpending)]
  rfl

theorem runOn_enter_cancelled {reason : String}
    (h : (r.execute p).runOn (s.remember (.started r.name c)) = (.ok (), u))
    (hpending : u.pending = some reason) :
    (r.step c (some p) (do r.enter p; return (none : Option Value))).runOn s =
      (.error (.cancelled reason), { u with pending := none }.remember (.consumed reason)) := by
  rw [step, enter, Act.runOn_remember_bind]
  simp only [bind_assoc]
  rw [Act.runOn_bind_ok h, Act.runOn_bind_error (Act.runOn_raisePending_some hpending)]

theorem runOn_enter_error {f : Fault}
    (h : (r.execute p).runOn (s.remember (.started r.name c)) = (.error f, u)) :
    (r.step c (some p) (do r.enter p; return (none : Option Value))).runOn s = (.error f, u) := by
  rw [step, enter, Act.runOn_remember_bind]
  simp only [bind_assoc]
  rw [Act.runOn_bind_error h]

end Running

/-! ### Scripts that run a choice -/

namespace Call

variable {execute : Placed → Act σ Unit} {p : Placed} {s t : Session σ}

/-- The state in which a script goes on after another choice. -/
def afterwards (s : Session σ) : Session σ :=
  { s with shared := [] }.remember .cleared

theorem runOn_enter_error {f : Fault}
    (h : (execute p).runOn (s.remember .lent) = (.error f, t)) :
    (enter execute p).runOn s = (.error f, t) := by
  rw [enter, Act.runOn_remember_bind, Act.runOn_bind_error h]

theorem runOn_enter_ok (h : (execute p).runOn (s.remember .lent) = (.ok (), t))
    (hpending : t.pending = none) : (enter execute p).runOn s = (.ok (), afterwards t) := by
  rw [enter, Act.runOn_remember_bind, Act.runOn_bind_ok h,
    Act.runOn_bind_ok (Act.runOn_takePending_none hpending)]
  rfl

theorem runOn_enter_cancelled {reason : String}
    (h : (execute p).runOn (s.remember .lent) = (.ok (), t)) (hpending : t.pending = some reason) :
    (enter execute p).runOn s = (.error (.cancelled reason),
      afterwards ({ t with pending := none }.remember (.consumed reason))) := by
  rw [enter, Act.runOn_remember_bind, Act.runOn_bind_ok h,
    Act.runOn_bind_ok (Act.runOn_takePending_some hpending)]
  rfl

end Call

end Choicebook
