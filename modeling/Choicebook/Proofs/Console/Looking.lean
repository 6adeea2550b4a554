import Choicebook.Proofs.Console.Means

/-!
# Looking around in a console

Most of what a console does for a note is looking around: it reads files and lines, prints, and
renders templates. An act that only looks around is `Act.Modest`: it leaves the files and the shared
variables as they are and logs nothing, whether or not it fails.
-/

namespace Choicebook

/-- The lines that have been logged. -/
def Session.log {σ : Type} (s : Session σ) : Array Event :=
  s.events.filter Event.isLogged

theorem Session.log_note {σ : Type} (s : Session σ) {e : Event} (h : e.isLogged = false) :
    (s.note e).log = s.log := by
  change (s.events.push e).filter Event.isLogged = s.log
  simp [log, h]

/-- Between two states, the files and the shared variables have not changed, and nothing was
logged. -/
structure Session.Modest (s t : Session Console) : Prop where
  tree : t.host.tree = s.host.tree
  shared : t.shared = s.shared
  log : t.log = s.log

namespace Session.Modest

variable {s t u : Session Console}

theorem refl (s : Session Console) : Modest s s := ⟨rfl, rfl, rfl⟩

theorem trans (h : Modest s t) (g : Modest t u) : Modest s u :=
  ⟨g.tree.trans h.tree, g.shared.trans h.shared, g.log.trans h.log⟩

end Session.Modest

/-- An act that only looks around. -/
def Act.Modest {α : Type} (a : Act Console α) : Prop :=
  ∀ s : Session Console, s.Modest (a.runOn s).2

/-- A script without parameters only looks around. -/
theorem Act.Modest.bare : Act.Bare (σ := Console) fun {α} => Act.Modest (α := α) :=
  .of_relation .refl .trans (fun _ _ => ⟨rfl, rfl, rfl⟩) fun s _ h _ => ⟨rfl, rfl, s.log_note h⟩

theorem Console.modest_means : Console.Means fun {α} => Act.Modest (α := α) :=
  .of_relation .refl .trans (fun s _ h _ => ⟨rfl, rfl, s.log_note h⟩)
    (fun s _ htree _ => ⟨htree s.host, rfl, rfl⟩) (fun _ => ⟨rfl, rfl, rfl⟩)
    (Console.bare_callInTemplate (L := fun {α} => Act.Modest (α := α)) Act.Modest.bare
      (fun _ => .refl) fun ha s => ⟨(ha s).tree, (ha s).shared, (ha s).log⟩)

end Choicebook
