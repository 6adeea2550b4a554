import Choicebook.Proofs.Session.Relation

/-!
# Laws of acts

A law is a property of acts that the plain means of a session have and that composition keeps
(`Act.Law`). To show that every run of a macro has such a property, it is enough to look at the few
acts where a session does something of its own: asking the host, running another choice from a
script, and the beginning and the end of a command. A `Discipline` is a law together with these.

A law is a congruence that looks at one of its two acts only. So `Discipline.comparison` carries the
property to whole macros, and a module about one particular law need not go through the kinds of
steps, exports and commands.
-/

namespace Choicebook

variable {σ : Type} {L : ∀ {α : Type}, Act σ α → Prop}

/-- A property of acts that the plain means of a session have and that composition keeps. -/
structure Act.Law (L : ∀ {α : Type}, Act σ α → Prop) : Prop where
  pure : ∀ {α : Type} (x : α), L (pure x : Act σ α)
  bind : ∀ {α β : Type} {a : Act σ α} {f : α → Act σ β}, L a → (∀ x, L (f x)) → L (a >>= f)
  get : L (get : Act σ (Session σ))
  fail : ∀ {α : Type} (f : Fault), L (Act.fail f : Act σ α)
  note : ∀ e : Event, L (Act.note e : Act σ Unit)
  changeFrame : ∀ {g : Entries → Entries}, (∀ m : Entries, m.Distinct → (g m).Distinct) →
    L (Act.changeFrame g : Act σ Unit)
  updateShared : ∀ extra : Entries, L (Act.updateShared extra : Act σ Unit)
  rescue : ∀ {α : Type} {a : Act σ α} {carryOn : Fault → Act σ α}, L a → (∀ f, L (carryOn f)) →
    L (Act.rescue a carryOn)

/-- A law that also holds where a macro leaves its own affairs: when it asks the host, when a script
runs another choice, and at the two ends of a command. A command with a target only enters it. -/
structure Discipline (host : Host σ) (execute : Placed → Act σ Unit)
    (L : ∀ {α : Type}, Act σ α → Prop) : Prop extends Act.Law L where
  ask : ∀ {α : Type} (e : Event) {a : Act σ α}, host.Offers a → e.isNotice = false →
    L (Act.ask e a)
  enterChoice : ∀ p : Placed, L (Call.enter execute p)
  step : ∀ {α : Type} (name : Value) (c : Command) {a : Act σ α}, L a →
    L (Running.step ⟨host, execute, name⟩ c none a)
  enter : ∀ (name : Value) (c : Command) (p : Placed),
    L (Running.step ⟨host, execute, name⟩ c (some p) (do
      Running.enter ⟨host, execute, name⟩ p
      return (none : Option Value)))

/-- A law as a relation that does not look at the second act. -/
theorem Act.Law.congruence (l : Act.Law (σ := σ) L) :
    Act.Congruence fun {α} (a _ : Act σ α) => L a where
  pure := l.pure
  bind := l.bind
  read _ h := l.bind l.get h
  fail _ := l.fail _
  note := l.note
  updateShared := l.updateShared
  changeFrame := l.changeFrame
  rescue := l.rescue

theorem Act.Law.compatible (l : Act.Law (σ := σ) L) :
    Act.Compatible fun {α} (a _ : Act σ α) => L a where
  toRegular := l.congruence.toRegular
  look _ h := l.bind l.get h

/-- Whatever runs the choices inside of a macro, a discipline compares it with itself. -/
theorem Discipline.comparison {host : Host σ} {execute : Placed → Act σ Unit}
    (d : Discipline host execute L) :
    Comparison host execute execute fun {α} (a _ : Act σ α) => L a where
  toCongruence := d.congruence
  ask := d.ask
  enterChoice := d.enterChoice
  step name c _ _ h := d.step name c h
  wait name _ time := d.step name _ (d.bind (Act.Plain.pause d.congruence.toPlain (d.fail _)
    (q := ⟨host, execute, name⟩) rfl (Running.seconds time)) fun _ => d.pure none)
  enter := d.enter

end Choicebook
