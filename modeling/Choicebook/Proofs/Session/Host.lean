import Choicebook.Proofs.Session.Act
import Choicebook.Proofs.Value.Entries

/-!
# What sessions rely on in a host

A host can do anything to the state of a session, so whatever is said about runs has to say what it
takes hosts to leave alone. The properties are separate because different results need different
ones: `Host.Discreet` is about the bookkeeping of a session, `Host.Steady` about hosts that do not
fail to select or to notify (`Host.SteadyFor` and `Host.ToldFor` about single runs in which they do
not), `Host.Tidy` about the variables of the running macro, `Host.Neat` about all variables,
`Host.Aloof` about the nesting of choices, `Host.Exhaustible` about hosts that do not select for
ever, `Host.Prompt` about hosts that always come back, and `Host.Oblivious` about hosts that do not
look at what was recorded before.
-/

namespace Choicebook

variable {σ : Type}

/-- Whether the host is asked to tell the user something. -/
def Event.isNotice : Event → Bool
  | .notify _ => true
  | _ => false

/-- Whether the session pauses. No host makes it. -/
def Event.isPause : Event → Bool
  | .sleep _ => true
  | _ => false

/-- The acts that a host offers. -/
inductive Host.Offers (h : Host σ) : ∀ {α : Type}, Act σ α → Prop where
  | runCommand (id : String) : Offers h (h.runCommand id)
  | suggest (labels : List Value) (count : Nat) (placeholder : Value) :
    Offers h (h.suggest labels count placeholder)
  | edit (action : EditorAction) : Offers h (h.edit action)
  | runTemplate (c : ChoiceHead) (payload : Entries) : Offers h (h.runTemplate c payload)
  | runCapture (c : ChoiceHead) (payload : Entries) : Offers h (h.runCapture c payload)
  | loadScript (path : String) : Offers h (h.loadScript path)
  | prompt (header : String) (preset : Option String) : Offers h (h.prompt header preset)
  | runAssistant (name : Value) (payload vars : Entries) :
    Offers h (h.runAssistant name payload vars)
  | openFile (path : String) (inNewTab : Bool) (direction : Value) :
    Offers h (h.openFile path inNewTab direction)
  | notify (text : String) : Offers h (h.notify text)

/-- The acts of a host that have nothing to do with the shared variables. -/
inductive Host.Serves (h : Host σ) : ∀ {α : Type}, Act σ α → Prop where
  | runCommand (id : String) : Serves h (h.runCommand id)
  | suggest (labels : List Value) (count : Nat) (placeholder : Value) :
    Serves h (h.suggest labels count placeholder)
  | edit (action : EditorAction) : Serves h (h.edit action)
  | loadScript (path : String) : Serves h (h.loadScript path)
  | prompt (header : String) (preset : Option String) : Serves h (h.prompt header preset)
  | runAssistant (name : Value) (payload vars : Entries) :
    Serves h (h.runAssistant name payload vars)
  | openFile (path : String) (inNewTab : Bool) (direction : Value) :
    Serves h (h.openFile path inNewTab direction)
  | notify (text : String) : Serves h (h.notify text)

theorem Host.Serves.offers {h : Host σ} {α : Type} {a : Act σ α} (ha : h.Serves a) :
    h.Offers a := by
  cases ha with
  | runCommand id => exact .runCommand id
  | suggest labels count placeholder => exact .suggest labels count placeholder
  | edit action => exact .edit action
  | loadScript path => exact .loadScript path
  | prompt header preset => exact .prompt header preset
  | runAssistant name payload vars => exact .runAssistant name payload vars
  | openFile path inNewTab direction => exact .openFile path inNewTab direction
  | notify text => exact .notify text

namespace Host

/-- The host leaves alone what a session keeps for itself. -/
structure Discreet (h : Host σ) : Prop where
  pending : ∀ {α : Type} {a : Act σ α}, h.Offers a → ∀ s, (a.runOn s).2.pending = s.pending
  depth : ∀ {α : Type} {a : Act σ α}, h.Offers a → ∀ s, (a.runOn s).2.depth = s.depth
  trail : ∀ {α : Type} {a : Act σ α}, h.Offers a → ∀ s, (a.runOn s).2.trail = s.trail

/-- Neither a selection nor a notice fails. -/
structure Steady (h : Host σ) : Prop where
  suggest : ∀ labels count placeholder s,
    ∃ r t, (h.suggest labels count placeholder).runOn s = (.ok r, t)
  notify : ∀ text s, ∃ t, (h.notify text).runOn s = (.ok (), t)

/-- The host leaves the trail alone, and the variables of the running macro a finite map. -/
structure Tidy (h : Host σ) : Prop where
  trail : ∀ {α : Type} {a : Act σ α}, h.Offers a → ∀ s, (a.runOn s).2.trail = s.trail
  frame : ∀ {α : Type} {a : Act σ α}, h.Offers a → ∀ s, s.frame.Distinct →
    (a.runOn s).2.frame.Distinct

/-- The host leaves both maps of variables finite maps. -/
structure Neat (h : Host σ) : Prop where
  frame : ∀ {α : Type} {a : Act σ α}, h.Offers a → ∀ s, s.frame.Distinct →
    (a.runOn s).2.frame.Distinct
  shared : ∀ {α : Type} {a : Act σ α}, h.Offers a → ∀ s, s.shared.Distinct →
    (a.runOn s).2.shared.Distinct

/-- The host leaves alone how deep choices are nested, and how deep they may be. -/
structure Aloof (h : Host σ) : Prop where
  config : ∀ {α : Type} {a : Act σ α}, h.Offers a → ∀ s, (a.runOn s).2.config = s.config
  depth : ∀ {α : Type} {a : Act σ α}, h.Offers a → ∀ s, (a.runOn s).2.depth = s.depth
  running : ∀ {α : Type} {a : Act σ α}, h.Offers a → ∀ s, (a.runOn s).2.running = s.running
  trail : ∀ {α : Type} {a : Act σ α}, h.Offers a → ∀ s, (a.runOn s).2.trail = s.trail

/-- Selections come to an end: each answered one leaves fewer, and nothing makes them more. -/
structure Exhaustible (h : Host σ) : Prop where
  answered : ∀ labels count placeholder s i t,
    (h.suggest labels count placeholder).runOn s = (.ok (some i), t) →
    h.patience t.host < h.patience s.host
  patience : ∀ {α : Type} {a : Act σ α}, h.Offers a → ∀ s,
    h.patience (a.runOn s).2.host ≤ h.patience s.host

/-- Whatever the host is asked for comes to an end. -/
def Prompt (h : Host σ) : Prop :=
  ∀ {α : Type} {a : Act σ α}, h.Offers a → ∀ s, (a.runOn s).1 ≠ .error .endless

end Host

/-- What comes to an end may follow what does. -/
theorem Act.bind_ne_endless {α β : Type} {a : Act σ α} {f : α → Act σ β}
    (ha : ∀ s, (a.runOn s).1 ≠ .error .endless)
    (hf : ∀ x s, ((f x).runOn s).1 ≠ .error .endless) (s : Session σ) :
    ((a >>= f).runOn s).1 ≠ .error .endless := by
  have hrun := ha s
  rw [runOn_bind]
  generalize a.runOn s = run at hrun ⊢
  obtain ⟨e | x, t⟩ := run
  · exact fun h => hrun (congrArg Except.error (Except.error.inj h))
  · exact hf x t

/-! ### Runs in which selections and notices do not fail -/

/-- The act with a result in the place of a fault. What it does to the state stays done. -/
def Act.orGive {α : Type} (a : Act σ α) (x : α) : Act σ α := fun s =>
  proceed (a.runOn s) (fun y t => (.ok y, t)) fun _ t => (.ok x, t)

theorem Act.runOn_orGive {α : Type} (a : Act σ α) (x : α) (s : Session σ) :
    (a.orGive x).runOn s =
      proceed (a.runOn s) (fun y t => (.ok y, t)) fun _ t => (.ok x, t) := rfl

theorem Act.runOn_orGive_snd {α : Type} (a : Act σ α) (x : α) (s : Session σ) :
    ((a.orGive x).runOn s).2 = (a.runOn s).2 := by
  rw [runOn_orGive]
  rcases a.runOn s with ⟨_ | _, t⟩ <;> rfl

theorem Act.exists_runOn_orGive {α : Type} (a : Act σ α) (x : α) (s : Session σ) :
    ∃ y t, (a.orGive x).runOn s = (.ok y, t) := by
  rw [runOn_orGive]
  rcases a.runOn s with ⟨_ | y, t⟩
  · exact ⟨x, t, rfl⟩
  · exact ⟨y, t, rfl⟩

theorem Act.orGive_eq {α : Type} {a : Act σ α} (x : α) (h : ∀ s, ∃ y t, a.runOn s = (.ok y, t)) :
    a.orGive x = a := by
  refine funext fun s => ?_
  obtain ⟨y, t, hrun⟩ := h s
  change (a.orGive x).runOn s = a.runOn s
  rw [runOn_orGive, hrun, proceed_ok]

namespace Host

/-- The host with notices that are dropped, where they would fail. -/
def told (h : Host σ) : Host σ :=
  { h with notify := fun text => (h.notify text).orGive () }

/-- The host with selections that are cancelled, too, where they would fail. -/
def steadied (h : Host σ) : Host σ :=
  { h.told with
    suggest := fun labels count placeholder => (h.suggest labels count placeholder).orGive none }

/-- No notice fails in this run, or it makes no difference if one does. -/
def ToldFor {α : Type} (h : Host σ) (act : Host σ → Act σ α) (s : Session σ) : Prop :=
  (act h.told).runOn s = (act h).runOn s

/-- Neither a selection nor a notice fails in this run, or it makes no difference if they do. -/
def SteadyFor {α : Type} (h : Host σ) (act : Host σ → Act σ α) (s : Session σ) : Prop :=
  (act h.steadied).runOn s = (act h).runOn s

variable {h : Host σ}

theorem told_eq (ht : ∀ text s, ∃ t, (h.notify text).runOn s = (.ok (), t)) : h.told = h := by
  have hnotify : (fun text => (h.notify text).orGive ()) = h.notify :=
    funext fun text => Act.orGive_eq () fun s => ⟨(), ht text s⟩
  rw [told, hnotify]

theorem Steady.steadied_eq (hs : h.Steady) : h.steadied = h := by
  have hsuggest : (fun labels count placeholder =>
      (h.suggest labels count placeholder).orGive none) = h.suggest :=
    funext fun _ => funext fun _ => funext fun _ => Act.orGive_eq none (hs.suggest _ _ _)
  rw [steadied, told_eq hs.notify, hsuggest]

theorem Steady.steadyFor {α : Type} (hs : h.Steady) (act : Host σ → Act σ α) (s : Session σ) :
    h.SteadyFor act s := by
  rw [SteadyFor, hs.steadied_eq]

theorem steadied_steady (h : Host σ) : h.steadied.Steady where
  suggest _ _ _ := Act.exists_runOn_orGive _ none
  notify text s := (Act.exists_runOn_orGive (h.notify text) () s).choose_spec

theorem told_tells (h : Host σ) (text : String) (s : Session σ) :
    ∃ t, (h.told.notify text).runOn s = (.ok (), t) :=
  (Act.exists_runOn_orGive (h.notify text) () s).choose_spec

/-- What the host offers then does to the state what it did before. -/
theorem Offers.of_told {α : Type} {a : Act σ α} (ha : h.told.Offers a) :
    ∃ b : Act σ α, h.Offers b ∧ ∀ s, (a.runOn s).2 = (b.runOn s).2 := by
  cases ha with
  | runCommand id => exact ⟨_, .runCommand id, fun _ => rfl⟩
  | suggest _ _ _ => exact ⟨_, .suggest _ _ _, fun _ => rfl⟩
  | edit action => exact ⟨_, .edit action, fun _ => rfl⟩
  | runTemplate c payload => exact ⟨_, .runTemplate c payload, fun _ => rfl⟩
  | runCapture c payload => exact ⟨_, .runCapture c payload, fun _ => rfl⟩
  | loadScript path => exact ⟨_, .loadScript path, fun _ => rfl⟩
  | prompt header preset => exact ⟨_, .prompt header preset, fun _ => rfl⟩
  | runAssistant name payload vars => exact ⟨_, .runAssistant name payload vars, fun _ => rfl⟩
  | openFile path inNewTab direction => exact ⟨_, .openFile path inNewTab direction, fun _ => rfl⟩
  | notify text => exact ⟨_, .notify text, Act.runOn_orGive_snd _ _⟩

/-- What the host offers then does to the state what it did before. -/
theorem Offers.of_steadied {α : Type} {a : Act σ α} (ha : h.steadied.Offers a) :
    ∃ b : Act σ α, h.Offers b ∧ ∀ s, (a.runOn s).2 = (b.runOn s).2 := by
  cases ha with
  | runCommand id => exact ⟨_, .runCommand id, fun _ => rfl⟩
  | suggest _ _ _ => exact ⟨_, .suggest _ _ _, Act.runOn_orGive_snd _ _⟩
  | edit action => exact ⟨_, .edit action, fun _ => rfl⟩
  | runTemplate c payload => exact ⟨_, .runTemplate c payload, fun _ => rfl⟩
  | runCapture c payload => exact ⟨_, .runCapture c payload, fun _ => rfl⟩
  | loadScript path => exact ⟨_, .loadScript path, fun _ => rfl⟩
  | prompt header preset => exact ⟨_, .prompt header preset, fun _ => rfl⟩
  | runAssistant name payload vars => exact ⟨_, .runAssistant name payload vars, fun _ => rfl⟩
  | openFile path inNewTab direction => exact ⟨_, .openFile path inNewTab direction, fun _ => rfl⟩
  | notify text => exact ⟨_, .notify text, Act.runOn_orGive_snd _ _⟩

theorem Discreet.told (hd : h.Discreet) : h.told.Discreet where
  pending ha s := by
    obtain ⟨b, hb, hstate⟩ := ha.of_told
    rw [hstate, hd.pending hb]
  depth ha s := by
    obtain ⟨b, hb, hstate⟩ := ha.of_told
    rw [hstate, hd.depth hb]
  trail ha s := by
    obtain ⟨b, hb, hstate⟩ := ha.of_told
    rw [hstate, hd.trail hb]

theorem Discreet.steadied (hd : h.Discreet) : h.steadied.Discreet where
  pending ha s := by
    obtain ⟨b, hb, hstate⟩ := ha.of_steadied
    rw [hstate, hd.pending hb]
  depth ha s := by
    obtain ⟨b, hb, hstate⟩ := ha.of_steadied
    rw [hstate, hd.depth hb]
  trail ha s := by
    obtain ⟨b, hb, hstate⟩ := ha.of_steadied
    rw [hstate, hd.trail hb]

theorem Aloof.steadied (hl : h.Aloof) : h.steadied.Aloof where
  config ha s := by
    obtain ⟨b, hb, hstate⟩ := ha.of_steadied
    rw [hstate, hl.config hb]
  depth ha s := by
    obtain ⟨b, hb, hstate⟩ := ha.of_steadied
    rw [hstate, hl.depth hb]
  running ha s := by
    obtain ⟨b, hb, hstate⟩ := ha.of_steadied
    rw [hstate, hl.running hb]
  trail ha s := by
    obtain ⟨b, hb, hstate⟩ := ha.of_steadied
    rw [hstate, hl.trail hb]

end Host

/-! ### What acts look at -/

/-- Two states that are the same in what acts look at. The records of a session and its stock of ids
are looked at by nothing. -/
structure Session.Agree (s t : Session σ) : Prop where
  config : s.config = t.config
  document : s.document = t.document
  shared : s.shared = t.shared
  frame : s.frame = t.frame
  pending : s.pending = t.pending
  depth : s.depth = t.depth
  host : s.host = t.host

/-- Two states that are the same in what acts inside of a macro look at. -/
structure Session.Akin (s t : Session σ) : Prop where
  config : s.config = t.config
  document : s.document = t.document
  shared : s.shared = t.shared
  frame : s.frame = t.frame
  pending : s.pending = t.pending

theorem Session.Agree.akin {s t : Session σ} (h : s.Agree t) : s.Akin t :=
  ⟨h.config, h.document, h.shared, h.frame, h.pending⟩

/-- The same state with the records of another one before its own, and with its stock of ids. -/
def Session.following (s past : Session σ) : Session σ :=
  { s with
    reading := past.reading
    events := past.events ++ s.events
    trail := s.trail ++ past.trail }

/-- An act that does the same whatever has been recorded before. -/
def Act.Oblivious {α : Type} (a : Act σ α) : Prop :=
  ∀ s past : Session σ, a.runOn (s.following past) = ((a.runOn s).1, (a.runOn s).2.following past)

/-- Whatever the host is asked for does not depend on the records of the session. -/
def Host.Oblivious (h : Host σ) : Prop :=
  ∀ {α : Type} {a : Act σ α}, h.Offers a → a.Oblivious

namespace Act.Oblivious

variable {α β : Type}

theorem pure (x : α) : Oblivious (pure x : Act σ α) := fun _ _ => rfl

theorem throw (f : Fault) : Oblivious (throw f : Act σ α) := fun _ _ => rfl

theorem bind {a : Act σ α} {f : α → Act σ β} (ha : Oblivious a) (hf : ∀ x, Oblivious (f x)) :
    Oblivious (a >>= f) := by
  intro s past
  rw [runOn_bind, runOn_bind, ha s past]
  generalize a.runOn s = run
  obtain ⟨e | x, t⟩ := run
  · rfl
  · exact hf x t past

theorem read {f : Session σ → Act σ β} (h : ∀ s t, Session.Agree s t → f s = f t)
    (hf : ∀ s, Oblivious (f s)) : Oblivious (get >>= f) := by
  intro s past
  have hagree : f (s.following past) = f s := h _ _ ⟨rfl, rfl, rfl, rfl, rfl, rfl, rfl⟩
  rw [runOn_get_bind, runOn_get_bind, hagree]
  exact hf s s past

theorem modify {g : Session σ → Session σ}
    (h : ∀ s past, g (s.following past) = (g s).following past) :
    Oblivious (modify g : Act σ Unit) := fun s past => Prod.ext rfl (h s past)

theorem note (e : Event) : Oblivious (Act.note e : Act σ Unit) :=
  modify fun s past => by
    simp only [Session.note, Session.following, Array.append_push]

theorem rescue {a : Act σ α} {carryOn : Fault → Act σ α} (ha : Oblivious a)
    (hc : ∀ f, Oblivious (carryOn f)) : Oblivious (Act.rescue a carryOn) := by
  intro s past
  rw [runOn_rescue, runOn_rescue, ha s past]
  generalize a.runOn s = run
  obtain ⟨f | x, t⟩ := run
  · rw [proceed_error, proceed_error]
    split
    · rfl
    · exact hc f (t.remember (.caught f)) past
  · rfl

theorem aside {a : Act σ α} (ha : Oblivious a) : Oblivious (Act.aside a) := by
  intro s past
  rw [runOn_aside, runOn_aside, ha s past]
  rfl

end Act.Oblivious

end Choicebook
