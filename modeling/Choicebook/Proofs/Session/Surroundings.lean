import Choicebook.Proofs.Session.Relation
import Choicebook.Session.Entry

/-!
# Acts outside of macros

Around the macros there are the choices themselves, which record and take up cancellations, and the
ways into a session. These use other means than macros: they look at the outcome of an attempt, give
a macro its frame, and set what is pending. `Surroundings` says of a relation between acts that it
is compatible with those, where the macros are compared by a relation that may be another one.

`Surroundings.perform` then compares what a choice of any kind does, and `Surroundings.report`,
`Surroundings.runReference` and `Surroundings.startup` compare the ways into a session.
-/

namespace Choicebook

variable {σ : Type}

/-- The acts of a host that are asked for outside of macros. -/
inductive Host.OffersOutside (h : Host σ) : ∀ {α : Type}, Act σ α → Prop where
  | suggest (labels : List Value) (count : Nat) (placeholder : Value) :
    OffersOutside h (h.suggest labels count placeholder)
  | runTemplate (c : ChoiceHead) (payload : Entries) : OffersOutside h (h.runTemplate c payload)
  | runCapture (c : ChoiceHead) (payload : Entries) : OffersOutside h (h.runCapture c payload)
  | loadScript (path : String) : OffersOutside h (h.loadScript path)
  | notify (text : String) : OffersOutside h (h.notify text)

theorem Host.OffersOutside.offers {h : Host σ} {α : Type} {a : Act σ α} (ha : h.OffersOutside a) :
    h.Offers a := by
  cases ha with
  | suggest labels count placeholder => exact .suggest labels count placeholder
  | runTemplate c payload => exact .runTemplate c payload
  | runCapture c payload => exact .runCapture c payload
  | loadScript path => exact .loadScript path
  | notify text => exact .notify text

/-- A regular relation that also holds where cancellations are set and taken up. -/
structure Act.Signals (R : ∀ {α : Type}, Act σ α → Act σ α → Prop) : Prop
    extends Act.Regular R where
  throw : ∀ {α : Type} (f : Fault), R (throw f : Act σ α) (throw f)
  setPending : ∀ reason : Option String,
    R (modify fun s => { s with pending := reason } : Act σ Unit)
      (modify fun s => { s with pending := reason })
  consumed : ∀ reason : String,
    R (Act.remember (.consumed reason) : Act σ Unit) (Act.remember (.consumed reason))

/-- A relation between acts outside of macros. The macros themselves are related by `inside`. -/
structure Surroundings (host : Host σ) (inside outside : ∀ {α : Type}, Act σ α → Act σ α → Prop) :
    Prop extends Act.Signals outside where
  ask : ∀ {α : Type} (e : Event) {a : Act σ α}, host.OffersOutside a → e.isNotice = false →
    outside (Act.ask e a) (Act.ask e a)
  attempt : ∀ {α : Type} {a b : Act σ α}, outside a b → outside (Act.attempt a) (Act.attempt b)
  inFrame : ∀ {α : Type} (vars : Entries) {a b : Act σ α}, inside a b →
    outside (Act.inFrame vars a) (Act.inFrame vars b)
  /-- The end of a cancelled choice, which may be a notice to the user. -/
  recordCancellation : ∀ (c : Choice) (preset reason : String),
    outside (Act.recordCancellation host c preset reason)
      (Act.recordCancellation host c preset reason)
  browse : ∀ m : Menu, outside (m.browse host) (m.browse host)

/-! ### Cancellations -/

namespace Act.Signals

variable {R : ∀ {α : Type}, Act σ α → Act σ α → Prop}

theorem takePending (l : Signals R) :
    R (Act.takePending : Act σ (Option String)) Act.takePending := by
  refine l.read (fun _ _ h => by simp only [h.pending, and_self]) fun s => ?_
  split
  · exact l.pure _
  · exact l.bind (l.setPending none) fun _ => l.bind (l.consumed _) fun _ => l.pure _

theorem raisePending (l : Signals R) : R (Act.raisePending : Act σ Unit) Act.raisePending := by
  refine l.bind l.takePending fun r => ?_
  split
  · exact l.throw _
  · exact l.pure _

/-- The end of a cancelled choice is a record and perhaps a notice to the user. -/
theorem recordCancellation (l : Signals R) (r : Compatible R) {host : Host σ}
    (hrecorded : ∀ (c : Choice) (reason : String),
      R (Act.remember (.recorded c reason) : Act σ Unit) (Act.remember (.recorded c reason)))
    (hnotify : ∀ text : String, R (Act.ask (.notify text) (host.notify text))
      (Act.ask (.notify text) (host.notify text))) (c : Choice) (preset reason : String) :
    R (Act.recordCancellation host c preset reason)
      (Act.recordCancellation host c preset reason) := by
  refine l.bind (l.setPending (some reason)) fun _ => l.bind (hrecorded c reason) fun _ =>
    r.look (fun _ _ h => by simp only [h.depth, h.config, and_self]) fun s => ?_
  split
  · exact l.pure _
  · dsimp only
    split
    · exact hnotify _
    · exact l.pure _

/-- A choice that a script runs. -/
theorem enterChoice (l : Signals R) (execute other : Placed → Act σ Unit)
    (hlent : R (Act.remember .lent : Act σ Unit) (Act.remember .lent))
    (hclear : R (modify fun s => { s with shared := [] } : Act σ Unit)
      (modify fun s => { s with shared := [] }))
    (hcleared : R (Act.remember .cleared : Act σ Unit) (Act.remember .cleared)) {p : Placed}
    (hexec : R (execute p) (other p)) : R (Call.enter execute p) (Call.enter other p) := by
  refine l.bind hlent fun _ => l.bind hexec fun _ => l.bind l.takePending fun pending =>
    l.bind hclear fun _ => l.bind hcleared fun _ => ?_
  split
  · exact l.throw _
  · exact l.pure _

end Act.Signals

theorem Act.Regular.refuse {R : ∀ {α : Type}, Act σ α → Act σ α → Prop}
    (l : Act.Regular R) (p : Placed) : R (Choice.refuse p : Act σ Unit) (Choice.refuse p) :=
  l.read (fun _ _ h => by simp only [h.config, and_self]) fun _ => l.fail nofun

namespace Surroundings

variable {inside outside : ∀ {α : Type}, Act σ α → Act σ α → Prop} {host : Host σ}

/-! ### Choices -/

/-- A template or a capture, whatever asks the host for it. -/
theorem delegate (l : Surroundings host inside outside) (c : Choice) {a b : Act σ Unit}
    (h : outside a b) : outside (Choice.delegate host c a) (Choice.delegate host c b) := by
  refine l.bind (l.attempt h) fun r => ?_
  split
  · exact l.pure _
  · exact l.recordCancellation _ _ _
  · exact l.throw _

variable {execute other : Placed → Act σ Unit} {browse browse' : Menu → Act σ (Option Choice)}

theorem runMacro (l : Surroundings host inside outside)
    (d : Comparison host execute other inside) (c : Choice) (body : Option Macro) :
    outside (Choice.runMacro host execute c body) (Choice.runMacro host other c body) := by
  refine l.read (fun _ _ h => by simp only [h.shared, and_self]) fun s =>
    l.bind (l.attempt (l.inFrame s.shared (d.runBody c.name body))) fun r => ?_
  split
  · exact l.updateShared _
  · exact l.recordCancellation _ _ _
  · exact l.throw _

theorem runMenu (l : Surroundings host inside outside)
    (hbrowse : ∀ m, outside (browse m) (browse' m)) (hexec : ∀ p, outside (execute p) (other p))
    (p : Placed) (choices : List Choice) :
    outside (Choice.runMenu host browse execute p choices)
      (Choice.runMenu host browse' other p choices) := by
  rw [Choice.runMenu, Choice.runMenu]
  split
  · exact l.note _
  · -- the list in which the menu stands is looked up in the document
    refine l.read (fun _ _ h => by simp only [h.document, and_self]) fun _ =>
      l.bind (hbrowse _) fun r => ?_
    split
    · exact hexec _
    · exact l.recordCancellation _ _ _

/-- What a choice does, by whatever means it runs other choices and shows menus. -/
theorem perform (l : Surroundings host inside outside) (d : Comparison host execute other inside)
    (hbrowse : ∀ m, outside (browse m) (browse' m)) (hexec : ∀ p, outside (execute p) (other p))
    (p : Placed) :
    outside (Choice.perform host browse execute p) (Choice.perform host browse' other p) := by
  rw [Choice.perform, Choice.perform]
  split
  · exact l.delegate _ (l.read (fun _ _ h => by simp only [h.shared, and_self]) fun _ =>
      l.ask _ (.runTemplate _ _) rfl)
  · exact l.delegate _ (l.read (fun _ _ h => by simp only [h.shared, and_self]) fun _ =>
      l.ask _ (.runCapture _ _) rfl)
  · exact l.runMacro d _ _
  · exact l.runMenu hbrowse hexec _ _

/-- What follows when a choice is called. Inside of the choice the relation may be another one. -/
theorem afterCall (l : Surroundings host inside outside)
    {R : ∀ {α : Type}, Act σ α → Act σ α → Prop} (r : Act.Compatible R)
    (hentered : ∀ c, outside (Act.remember (.entered c) : Act σ Unit) (Act.remember (.entered c)))
    (hdeeper : ∀ (c : Choice) {a : Act σ Unit}, outside a a →
      R (Act.deeper c a) (Act.deeper c a))
    (d : Comparison host execute execute inside)
    (hexec : ∀ p, outside (execute p) (execute p)) (p : Placed) :
    let act : Act σ Unit := do
      let s ← get
      if s.config.maxDepth ≤ s.depth then Choice.refuse p
      else Act.deeper p.choice do
        Act.remember (.entered p.choice)
        Choice.perform host (Menu.browse host) execute p
    R act act := by
  refine r.look (fun _ _ h => by simp only [h.depth, h.config, and_self]) fun s => ?_
  split
  · exact r.refuse p
  · exact hdeeper _ (l.bind (hentered _) fun _ => l.perform d l.browse hexec p)

/-- A choice one level deeper than what runs it, for relations that do not depend on the level. -/
theorem executeOnce (l : Surroundings host inside outside) (r : Act.Compatible outside)
    (hcalled : ∀ c, outside (Act.remember (.called c) : Act σ Unit) (Act.remember (.called c)))
    (hentered : ∀ c, outside (Act.remember (.entered c) : Act σ Unit) (Act.remember (.entered c)))
    (hdeeper : ∀ (c : Choice) {a : Act σ Unit}, outside a a →
      outside (Act.deeper c a) (Act.deeper c a))
    (d : Comparison host execute execute inside)
    (hexec : ∀ p, outside (execute p) (execute p)) (p : Placed) :
    outside (Choice.executeOnce host (Menu.browse host) execute p)
      (Choice.executeOnce host (Menu.browse host) execute p) :=
  l.bind (hcalled _) fun _ => l.afterCall r hentered hdeeper d hexec p

/-! ### Ways into a session -/

/-- A run of a choice that is reported. -/
theorem report (l : Surroundings host inside outside)
    (hbegin : ∀ vars : Entries, outside
      (modify fun s => { s with shared := Entries.update [] vars, pending := none } : Act σ Unit)
      (modify fun s => { s with shared := Entries.update [] vars, pending := none }))
    (hexec : ∀ p, outside (Choice.execute host p) (Choice.execute host p))
    (choice : Option Placed) (vars : Entries) :
    outside (Runner.run host choice vars) (Runner.run host choice vars) := by
  have hshared : ∀ (name : Value) (f : Option Fault), outside
      (do return ⟨name, f, (← get).shared⟩ : Act σ RunReport)
      (do return ⟨name, f, (← get).shared⟩) := fun name f =>
    l.read (fun _ _ h => by simp only [h.shared, and_self]) fun _ => l.pure _
  refine l.bind (hbegin vars) fun _ => ?_
  split
  · exact l.fail (by rintro ⟨⟩)
  · refine l.bind (l.attempt (hexec _)) fun r => ?_
    split
    · exact l.bind l.takePending fun _ => hshared _ _
    · dsimp only
      split
      · exact l.bind (l.note _) fun _ => hshared _ _
      · exact hshared _ _

theorem find (l : Surroundings host inside outside) (name reference : String) :
    outside (SingleMacro.find name reference : Act σ Choice) (SingleMacro.find name reference) := by
  refine l.read (fun _ _ h => by simp only [h.document, and_self]) fun s =>
    l.bind (l.expect (SingleMacro.misuses_exactly? _ _)) fun r => ?_
  split
  · exact l.pure _
  · dsimp only
    split
    · exact l.pure _
    · exact l.bind (l.note _) fun _ => l.fail nofun
    · exact l.bind (l.note _) fun _ => l.fail nofun

theorem refuseMember (l : Surroundings host inside outside) {α : Type} {f : Fault}
    (hf : f ≠ .endless) : outside (SingleMacro.refuse f : Act σ α) (SingleMacro.refuse f) :=
  l.bind (l.note _) fun _ => l.fail hf

section

variable (d : Comparison host (Choice.execute host) (Choice.execute host) inside)

include d

/-- A run of a member of what the script of a macro exports. It changes the settings of the script
in the document. -/
theorem runMember (l : Surroundings host inside outside)
    (hsettings : ∀ (slot : Nat) (fill : Entries → Entries), outside
      (modify fun s => { s with document := s.document.mapSettings slot fill } : Act σ Unit)
      (modify fun s => { s with document := s.document.mapSettings slot fill }))
    (c : Choice) (path : List String) :
    outside (SingleMacro.runMember host c path) (SingleMacro.runMember host c path) := by
  rw [SingleMacro.runMember]
  dsimp only
  split
  · exact l.refuseMember nofun
  · split
    · exact l.refuseMember nofun
    · refine l.bind (l.ask _ (.loadScript _) rfl) fun exported => ?_
      split
      · exact l.refuseMember nofun
      · refine l.bind (hsettings _ _) fun _ => ?_
        split
        · next f hf =>
          have hne : f ≠ .endless := by
            rintro rfl
            exact exported.follow_ne_endless _ _ hf
          split
          · exact l.bind (l.note _) fun _ => l.fail hne
          · exact l.fail hne
        · -- the member runs on a frame of its own, as a macro does
          refine l.read (fun _ _ h => by simp only [h.shared, and_self]) fun s =>
            l.bind (l.inFrame _ ?_) fun r => l.bind (l.updateShared _) fun _ => l.pure _
          split
          · exact d.callWithSettings _ _ _
          · exact d.pure _

/-- A run of a macro by a reference. -/
theorem runReference (l : Surroundings host inside outside)
    (hsettings : ∀ (slot : Nat) (fill : Entries → Entries), outside
      (modify fun s => { s with document := s.document.mapSettings slot fill } : Act σ Unit)
      (modify fun s => { s with document := s.document.mapSettings slot fill }))
    (reference : String) :
    outside (SingleMacro.run host reference) (SingleMacro.run host reference) := by
  rw [SingleMacro.run]
  dsimp only
  refine l.bind (l.find _ _) fun c => ?_
  split
  · refine l.read (fun _ _ h => by simp only [h.shared, and_self]) fun s =>
      l.bind (l.inFrame _ (d.runBody _ _)) fun output => ?_
    split
    · exact l.bind (l.inFrame _ (d.call _ _)) fun result =>
        l.expect result.1.misuses_resultText
    · exact l.expect (Value.misuses_resultText _)
  · exact l.bind (l.runMember d hsettings _ _) fun result => l.expect result.misuses_resultText

/-- The run of a macro that is marked for the start. -/
theorem startupMacro (l : Surroundings host inside outside)
    (hids : outside
      (modify fun s => { s with reading := { s.reading with ids := s.reading.ids + 1 } } :
        Act σ Unit)
      (modify fun s => { s with reading := { s.reading with ids := s.reading.ids + 1 } }))
    (m : Macro) : outside (Startup.runMacro host m) (Startup.runMacro host m) :=
  l.bind hids fun _ => l.read (fun _ _ h => by simp only [h.shared, and_self]) fun s =>
    l.bind (l.inFrame _ (d.runCommands m.name m.commands none)) fun _ => l.pure _

/-- Macros one after the other. -/
theorem startupAll (l : Surroundings host inside outside)
    (hids : outside
      (modify fun s => { s with reading := { s.reading with ids := s.reading.ids + 1 } } :
        Act σ Unit)
      (modify fun s => { s with reading := { s.reading with ids := s.reading.ids + 1 } }))
    (isolate : Bool) (ms : List Macro) :
    outside (Startup.runAll host isolate ms) (Startup.runAll host isolate ms) := by
  induction ms with
  | nil => exact l.pure _
  | cons m ms ih =>
    rw [Startup.runAll]
    dsimp only
    split
    · refine l.bind (l.attempt (l.startupMacro d hids m)) fun r => ?_
      split
      · exact ih
      · exact l.bind (l.note _) fun _ => ih
    · exact l.bind (l.startupMacro d hids m) fun _ => ih

/-- The run of the macros that are marked for the start. -/
theorem startup (l : Surroundings host inside outside)
    (hids : outside
      (modify fun s => { s with reading := { s.reading with ids := s.reading.ids + 1 } } :
        Act σ Unit)
      (modify fun s => { s with reading := { s.reading with ids := s.reading.ids + 1 } }))
    (isolate : Bool) : outside (Startup.run host isolate) (Startup.run host isolate) :=
  l.read (fun _ _ h => by simp only [h.document, and_self]) fun _ =>
    l.bind (l.expect (Document.misuses_allMacros _)) fun _ => l.startupAll d hids isolate _

end

end Surroundings

end Choicebook
