import Choicebook.Proofs.Session.Misuses
import Choicebook.Template.Render

/-!
# What rendering does by itself

Rendering parses, looks names up and puts texts together. Everything else that it does is done by
its surroundings: they call the functions that stand in a template, and give it the templates that
it takes in. So a property of acts that the surroundings have, and that composition keeps, is a
property of rendering (`Template.Law.render`), however deep sections and inclusions are nested.
-/

namespace Choicebook.Template

/-! ### What goes wrong -/

theorem misuses_delimitersOf (name : List Char) : Misuses (delimitersOf name) := by
  rw [delimitersOf]
  split
  · exact .ok _
  · exact .misuse _

theorem Progress.misuses_take (p : Progress) (kind : Kind) (name indent source : List Char) :
    Misuses (p.take kind name indent source) := by
  rw [take.eq_def]
  dsimp only
  split
  · exact .ok _
  · exact .ok _
  · exact .ok _
  · exact (misuses_delimitersOf name).map _
  · exact .ok _
  · exact .ok _
  · split
    · exact .misuse _
    · exact .ite _ (.misuse _) (.ok _)

theorem misuses_parseFrom (fuel : Nat) (p : Progress) : Misuses (parseFrom fuel p) := by
  induction fuel generalizing p with
  | zero => exact .ok _
  | succ fuel ih =>
    rw [parseFrom]
    split
    · exact .ok _
    · exact (Progress.misuses_take _ _ _ _ _).bind ih

theorem misuses_parse (d : Delimiters) (cs : List Char) : Misuses (parse d cs) :=
  misuses_parseFrom _ _

theorem misuses_shown (v : Value) : Misuses (shown v) := by
  rw [shown.eq_def]
  split
  · split
    · exact .ok _
    · exact .misuse _
  · exact v.misuses_written

/-! ### Laws -/

variable {m : Type → Type} [Monad m] [MonadExceptOf Fault m] {s : Surroundings m}
  {L : ∀ {α : Type}, m α → Prop}

namespace Law

theorem mapM (l : Law s L) {α β : Type} {f : α → m β} (h : ∀ x, L (f x)) (xs : List α) :
    L (xs.mapM f) := by
  have hloop : ∀ (xs : List α) (done : List β), L (List.mapM.loop f xs done) := by
    intro xs
    induction xs with
    | nil => exact fun _ => l.pure _
    | cons x xs ih => exact fun _ => l.bind (h x) fun _ => ih _
  exact hloop xs []

theorem orThrow (l : Law s L) {α : Type} {r : Except Fault α} (hr : Misuses r) :
    L (orThrow r : m α) := by
  cases r with
  | ok x => exact l.pure x
  | error f => exact l.throw (hr.ne_endless_of_eq rfl)

/-! ### Names -/

theorem member? (l : Law s L) (v : Value) (key : String) : L (member? s v key) := by
  rw [Template.member?.eq_def]
  split
  · exact l.pure _
  · split
    · split
      · exact l.bind (l.call _ _) fun _ => l.pure _
      · exact l.pure _
    · exact l.pure _
  · exact l.pure _
  · exact l.pure _
  · split
    · exact l.pure _
    · exact l.pure _
  · exact l.pure _

theorem search? (l : Law s L) (key : String) (stack : List Value) : L (search? s key stack) := by
  induction stack with
  | nil => exact l.pure _
  | cons v outer ih =>
    refine l.bind (l.member? v key) fun found => ?_
    cases found with
    | some w => exact l.pure _
    | none => exact ih

theorem descend? (l : Law s L) (keys : List String) (v : Value) : L (descend? s keys v) := by
  induction keys generalizing v with
  | nil => exact l.pure _
  | cons key keys ih =>
    refine l.bind (l.member? v key) fun found => ?_
    cases found with
    | some w => exact ih w
    | none => exact l.pure _

theorem resolve (l : Law s L) (stack : List Value) (name : String) : L (resolve s stack name) := by
  rw [Template.resolve]
  split
  · exact l.pure _
  · split
    · exact l.pure _
    · refine l.bind (l.search? _ _) fun found => ?_
      cases found with
      | none => exact l.pure _
      | some v => exact l.bind (l.descend? _ v) fun _ => l.pure _

/-! ### Pieces -/

theorem renderWith (l : Law s L) {pieces : List Piece → m String} (h : ∀ ps, L (pieces ps))
    (d : Delimiters) (text : String) : L (renderWith pieces d text) :=
  l.bind (l.orThrow (misuses_parse _ _)) h

theorem renderPiece (l : Law s L) (fuel : Nat) (stack : List Value) (piece : Piece) :
    L (renderPiece s fuel stack piece) := by
  induction fuel generalizing stack piece with
  | zero => exact l.throw nofun
  | succ fuel ih =>
    have hall : ∀ (stack : List Value) (ps : List Piece),
        L (do return String.join (← ps.mapM (Template.renderPiece s fuel stack))) :=
      fun stack ps => l.bind (l.mapM (ih stack) ps) fun _ => l.pure _
    match piece with
    | .text cs => exact l.pure _
    | .value name =>
      refine l.bind (l.resolve _ _) fun v => ?_
      -- a function gives a template of its own
      split
      · exact l.bind (l.call v none) fun w => l.bind (l.orThrow (misuses_shown w)) fun text =>
          l.renderWith (hall stack) _ text
      · exact l.orThrow (misuses_shown v)
    | .forEach name inner source d =>
      refine l.bind (l.resolve _ _) fun v => l.bind (l.mapM (fun item => ?_) _) fun _ => l.pure _
      split
      · exact l.bind (l.call item _) fun w => l.bind (l.orThrow (misuses_shown w)) fun text =>
          l.renderWith (hall stack) _ text
      · exact hall _ inner
    | .unless name inner =>
      refine l.bind (l.resolve _ _) fun v => ?_
      split
      · exact l.pure _
      · exact hall stack inner
    | .inclusion name indent =>
      exact l.bind (l.inclusion name) fun text => l.renderWith (hall stack) _ _

/-- Rendering has the property that its surroundings have. -/
theorem render (l : Law s L) (template : String) (v : Value) : L (render s template v) :=
  l.renderWith (fun ps => l.bind (l.mapM (l.renderPiece _ _) ps) fun _ => l.pure _) _ _

end Law

/-- The renderer of the program. -/
def Renderer.standard : Renderer m := ⟨Template.render, Law.render⟩

end Choicebook.Template
