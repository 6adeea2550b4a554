import Choicebook.Proofs.Session.Lockstep
import Choicebook.Proofs.Session.Rehearsal

/-!
# Hosts that go by the names of variables

Templates, captures and assistants are given variables, and the order that these are in may differ
between two sessions that have the same ones. A host that is `Host.Impartial` does the same then. A
rehearsal is such a host (`Rehearsal.host_impartial`), as long as its assistant sets variables under
names.
-/

namespace Choicebook

variable {σ : Type}

/-! ### Calls and faults that are told apart by names only -/

/-- Two calls of a host that differ in the order of variables only. -/
inductive Event.Alike : Event → Event → Prop where
  | same (e : Event) : Alike e e
  | template (name : Value) (payload : Entries) {vars vars' : Entries} (h : vars.Alike vars') :
    Alike (.template name payload vars) (.template name payload vars')
  | capture (name : Value) (payload : Entries) {vars vars' : Entries} (h : vars.Alike vars') :
    Alike (.capture name payload vars) (.capture name payload vars')
  | assistant (name : Value) (payload : Entries) {vars vars' : Entries} (h : vars.Alike vars') :
    Alike (.assistant name payload vars) (.assistant name payload vars')

/-- Two faults that are the same, or differ in the name of the macro that ran into an empty
export. -/
inductive Fault.Alike : Fault → Fault → Prop where
  | same (f : Fault) : Alike f f
  | emptyExport (owner owner' : String) : Alike (.emptyExport owner) (.emptyExport owner')

instance : Std.Refl Fault.Alike := ⟨.same⟩

theorem Fault.Alike.isCancelled_eq {f g : Fault} (h : f.Alike g) :
    g.isCancelled = f.isCancelled := by
  cases h <;> rfl

theorem Fault.Alike.escapes_eq {f g : Fault} (h : f.Alike g) : g.escapes = f.escapes := by
  cases h <;> rfl

/-- Faults that escape are not told apart by names. -/
theorem Fault.Alike.eq_of_escapes {f g : Fault} (h : f.Alike g) (hf : f.escapes = true) :
    f = g := by
  cases h with
  | same => rfl
  | emptyExport owner owner' =>
    have hstays : (Fault.emptyExport owner).escapes = false := by
      change Fault.escapingKinds.contains "UserScriptError" = false
      decide
    cases hstays.symm.trans hf

theorem Fault.eq_cancelled {f : Fault} (h : f.isCancelled = true) :
    ∃ reason, f = .cancelled reason := by
  cases f with
  | cancelled reason => exact ⟨reason, rfl⟩
  | _ => cases h

/-! ### Hosts -/

/-- The acts of a host in two sessions: the same ones, or an assistant that is asked with variables
in another order. -/
inductive Host.Counterparts (h : Host σ) : ∀ {α : Type}, Act σ α → Act σ α → Prop where
  | same {α : Type} {a : Act σ α} (ha : h.Offers a) : Counterparts h a a
  | assistant (name : Value) (payload : Entries) {vars vars' : Entries} (hv : vars.Alike vars') :
    Counterparts h (h.runAssistant name payload vars) (h.runAssistant name payload vars')

/-- The state of a session is the same as before except for the shared variables, the host and what
nothing looks at. -/
structure Session.Untouched (s t : Session σ) : Prop where
  config : t.config = s.config
  document : t.document = s.document
  frame : t.frame = s.frame
  pending : t.pending = s.pending
  depth : t.depth = s.depth
  trail : t.trail = s.trail

/-- In some of its states, a host goes by the settings, the values of the shared variables and its
own state. -/
structure Host.Impartial (h : Host σ) (states : σ → Prop) : Prop where
  untouched : ∀ {α : Type} {a : Act σ α}, h.Offers a → ∀ s : Session σ, s.Untouched (a.runOn s).2
  /-- Only templates and captures change shared variables. -/
  shared : ∀ {α : Type} {a : Act σ α}, h.Serves a →
    ∀ s : Session σ, (a.runOn s).2.shared = s.shared
  keeps : ∀ {α : Type} {a : Act σ α}, h.Offers a →
    ∀ s : Session σ, states s.host → states (a.runOn s).2.host
  agree : ∀ {α : Type} {a b : Act σ α}, h.Counterparts a b → ∀ s t : Session σ, states s.host →
    t.config = s.config → s.shared.Alike t.shared → t.host = s.host →
    (b.runOn t).1 = (a.runOn s).1 ∧ (b.runOn t).2.host = (a.runOn s).2.host ∧
      ∀ name, (a.runOn s).2.shared.field? name = (b.runOn t).2.shared.field? name
  /-- What an assistant sets has names. -/
  assigned : ∀ (name : Value) (payload vars es : Entries) (s t : Session σ), states s.host →
    (h.runAssistant name payload vars).runOn s = (.ok (.map es), t) → es.Texts

/-- The script at a path neither deletes a variable nor runs another choice, and it does not see the
order of the variables. -/
def Host.Gentle (h : Host σ) (states : σ → Prop) (path : String) : Prop :=
  ∀ (v : Value) (s t : Session σ), states s.host → (h.loadScript path).runOn s = (.ok v, t) →
    v.Gentle

/-- A template or a capture with this payload gives the variables that it sets names. -/
structure Host.Naming (h : Host σ) (payload : Entries) : Prop where
  template : ∀ (c : ChoiceHead) (s : Session σ), s.shared.Named →
    ((h.runTemplate c payload).runOn s).2.shared.Named
  capture : ∀ (c : ChoiceHead) (s : Session σ), s.shared.Named →
    ((h.runCapture c payload).runOn s).2.shared.Named

/-! ### Rehearsals -/

namespace Rehearsal

/-- Two states in which a rehearsal does the same. -/
structure Near (s t : Session Rehearsal) : Prop where
  host : t.host = s.host
  shared : ∀ name, s.shared.field? name = t.shared.field? name

/-- An act does the same in two states, and they remain near to each other. -/
def Steers {α : Type} (a : Act Rehearsal α) : Prop :=
  ∀ s t, Near s t → (a.runOn t).1 = (a.runOn s).1 ∧ Near (a.runOn s).2 (a.runOn t).2

private theorem steers_law : Law fun {α} (a : Act Rehearsal α) => Steers a where
  pure _ := fun _ _ h => ⟨rfl, h⟩
  bind := by
    intro α β a f ha hf s t h
    obtain ⟨hresult, hnear⟩ := ha s t h
    rw [Act.runOn_bind, Act.runOn_bind]
    generalize a.runOn s = run at hresult hnear ⊢
    generalize a.runOn t = run' at hresult hnear ⊢
    obtain ⟨r, u⟩ := run
    obtain ⟨r', v⟩ := run'
    cases hresult
    cases r with
    | error f => exact ⟨rfl, hnear⟩
    | ok x => exact hf x u v hnear
  read := by
    intro β f hread hf s t h
    rw [Act.runOn_get_bind, Act.runOn_get_bind, hread t s h.host]
    exact hf s s t h
  throw _ := fun _ _ h => ⟨rfl, h⟩
  note _ _ := fun _ _ h => ⟨rfl, ⟨h.host, h.shared⟩⟩
  noteShared _ := fun _ _ h => ⟨rfl, ⟨h.host, h.shared⟩⟩
  updateShared extra := fun _ _ h =>
    ⟨rfl, ⟨h.host, Entries.field?_update_congr h.shared extra⟩⟩
  nextAnswer := by
    intro s t h
    cases hanswers : s.host.answers with
    | nil =>
      rw [runOn_nextAnswer_nil hanswers, runOn_nextAnswer_nil (h.host ▸ hanswers)]
      exact ⟨rfl, h⟩
    | cons v rest =>
      rw [runOn_nextAnswer_cons hanswers, runOn_nextAnswer_cons (h.host ▸ hanswers)]
      exact ⟨rfl, ⟨by rw [h.host], h.shared⟩⟩

/-- What nothing changes that a rehearsal does. -/
structure Kept (s t : Session Rehearsal) : Prop where
  document : t.document = s.document
  scripts : t.host.scripts = s.host.scripts
  assistant : t.host.assistant = s.host.assistant

private theorem kept_law : Law fun {α} (a : Act Rehearsal α) => ∀ s, Kept s (a.runOn s).2 where
  pure _ := fun _ => ⟨rfl, rfl, rfl⟩
  bind ha hf := fun s => Act.runOn_bind_keeps (P := Kept s) (ha s) fun x t ht =>
    have h := hf x t
    ⟨h.document.trans ht.document, h.scripts.trans ht.scripts, h.assistant.trans ht.assistant⟩
  read _ hf := fun s => hf s s
  throw _ := fun _ => ⟨rfl, rfl, rfl⟩
  note _ _ := fun _ => ⟨rfl, rfl, rfl⟩
  noteShared _ := fun _ => ⟨rfl, rfl, rfl⟩
  updateShared _ := fun _ => ⟨rfl, rfl, rfl⟩
  nextAnswer := by
    intro s
    cases h : s.host.answers with
    | nil =>
      rw [runOn_nextAnswer_nil h]
      exact ⟨rfl, rfl, rfl⟩
    | cons v rest =>
      rw [runOn_nextAnswer_cons h]
      exact ⟨rfl, rfl, rfl⟩

private theorem sharing_means : Means fun {α} (a : Act Rehearsal α) =>
    ∀ s, (a.runOn s).2.shared = s.shared where
  pure _ := fun _ => rfl
  bind ha hf := fun s => Act.runOn_bind_keeps (P := fun t => t.shared = s.shared) (ha s)
    fun x t ht => (hf x t).trans ht
  read _ hf := fun s => hf s s
  throw _ := fun _ => rfl
  note _ _ := fun _ => rfl
  nextAnswer := by
    intro s
    cases h : s.host.answers with
    | nil => rw [runOn_nextAnswer_nil h]
    | cons v rest => rw [runOn_nextAnswer_cons h]

theorem runOn_runAssistant (name : Value) (payload vars : Entries) (s : Session Rehearsal) :
    (host.runAssistant name payload vars).runOn s =
      match s.host.assistant with
      | some answer => (.ok answer, s.note (.assistant name payload vars))
      | none => (.error (.noAssistant "FakeHost"), s) := by
  change (runAssistant name payload vars).runOn s = _
  rw [runAssistant, Act.runOn_get_bind]
  cases s.host.assistant <;> rfl

theorem runOn_loadScript (path : String) (s : Session Rehearsal) :
    (host.loadScript path).runOn s =
      (.ok ((s.host.scripts.lookup path).getD .null), s.note (.load path)) := rfl

/-- With these scripts, and an assistant that sets variables under names if it sets any. -/
structure Equipped (scripts : List (String × Value)) (h : Rehearsal) : Prop where
  scripts : h.scripts = scripts
  assistant : ∀ es : Entries, h.assistant = some (.map es) → es.Texts

variable {scripts : List (String × Value)}

theorem host_impartial (scripts : List (String × Value)) :
    host.Impartial (Equipped scripts) where
  untouched ha s :=
    have h := undisturbed_of_offers ha s
    ⟨h.config, (kept_law.offers ha s).document, h.frame, h.pending, h.depth, h.trail⟩
  shared ha := sharing_means.serves ha
  keeps ha s hs :=
    have h := kept_law.offers ha s
    ⟨h.scripts.trans hs.scripts, fun es hes => hs.assistant es (h.assistant ▸ hes)⟩
  agree := by
    intro α a b hab s t _ _ hshared hhost
    cases hab with
    | same ha =>
      obtain ⟨hresult, hnear⟩ := steers_law.offers ha s t ⟨hhost, hshared.field?⟩
      exact ⟨hresult, hnear.host, hnear.shared⟩
    | assistant name payload hv =>
      rw [runOn_runAssistant, runOn_runAssistant, hhost]
      cases s.host.assistant with
      | none => exact ⟨rfl, hhost, hshared.field?⟩
      | some answer => exact ⟨rfl, hhost, hshared.field?⟩
  assigned := by
    intro name payload vars es s t hs hrun
    rw [runOn_runAssistant] at hrun
    cases hassistant : s.host.assistant with
    | none =>
      rw [hassistant] at hrun
      cases hrun
    | some answer =>
      rw [hassistant] at hrun
      cases hrun
      exact hs.assistant es hassistant

/-- The scripts of a rehearsal are what its list says. -/
theorem host_gentle {path : String} (h : ((scripts.lookup path).getD .null).Gentle) :
    host.Gentle (Equipped scripts) path := by
  intro v s t hs hrun
  rw [runOn_loadScript, hs.scripts] at hrun
  cases hrun
  exact h

end Rehearsal

end Choicebook
