import Choicebook.Console.Host
import Choicebook.Proofs.Editor.Positions
import Choicebook.Proofs.Session.Act

/-!
# Editing in a console

The steps of a session with the editor of a console: the actions of the editor, and the commands
that every console has. No step fails, and each does to the buffer what `EditStep.onBuffer` says.

The buffer that a console starts with fits (`Buffer.Fits`), and all steps but one keep that. The
command that empties the text leaves the cursor and the selection where they were. So the buffer
fits all along exactly if this command only ever runs with everything at the start of the text
(`EditStep.play_fits_iff`). The order of the ends of a selection is kept in any case.
-/

namespace Choicebook

/-- Nothing of the buffer is behind the start of its text. -/
structure Buffer.AtStart (b : Buffer) : Prop where
  cursor : b.cursor = 0
  selection : ∀ r ∈ b.selection, r.2 = 0

/-- An emptied buffer fits exactly if everything was at the start already. -/
theorem Buffer.fits_emptied_iff {b : Buffer} (h : b.Ordered) :
    Buffer.Fits { b with text := [] } ↔ b.AtStart := by
  constructor
  · intro hfits
    have hcursor : b.cursor ≤ 0 := hfits.cursor
    refine ⟨by omega, ?_⟩
    intro r hr
    have hwithin : r.2 ≤ 0 := hfits.within r hr
    omega
  · intro hstart
    refine ⟨?_, h, ?_⟩
    · exact Nat.le_of_eq hstart.cursor
    · intro r hr
      exact Nat.le_of_eq (hstart.selection r hr)

namespace Console

/-- The commands that all consoles have are there, each under its id. -/
def HasBuiltIn (c : Console) : Prop :=
  ∀ e ∈ builtIn, c.commands.lookup e.1 = some e.2

theorem start_hasBuiltIn (today : Date) (root : Files.Path) (tree : Files.Tree)
    (lines : List (Option String)) (printsPrompts : Bool) :
    (start today root tree lines printsPrompts).HasBuiltIn := by
  intro e he
  simp only [builtIn, List.mem_cons, List.not_mem_nil, or_false] at he
  rcases he with rfl | rfl | rfl
  · rfl
  · rfl
  · rfl

end Console

/-- A step of a session with the editor of a console. -/
inductive EditStep where
  | action (a : EditorAction)
  | printBuffer
  | printClipboard
  | clearBuffer
  deriving DecidableEq

namespace EditStep

/-- Does a step. -/
def act : EditStep → Act Console Unit
  | action a => Console.edit a
  | printBuffer => Console.runCommand "editor:print-buffer"
  | printClipboard => Console.runCommand "editor:print-clipboard"
  | clearBuffer => Console.runCommand "editor:clear-buffer"

/-- What a step does to the buffer. -/
def onBuffer : EditStep → Buffer → Buffer
  | action a, b => (b.apply a).1
  | printBuffer, b | printClipboard, b => b
  | clearBuffer, b => { b with text := [] }

/-- Does steps one after the other. -/
def play : List EditStep → Act Console Unit
  | [] => return ()
  | step :: steps => do
    step.act
    play steps

/-- The buffer after steps. -/
def after (steps : List EditStep) (b : Buffer) : Buffer :=
  steps.foldl (fun b step => step.onBuffer b) b

/-! ### What a step does -/

variable {s : Session Console}

/-- A step does not fail, does to the buffer what it does, and leaves the commands. -/
theorem runOn_act (h : s.host.HasBuiltIn) (step : EditStep) :
    ∃ t, step.act.runOn s = (.ok (), t) ∧ t.host.buffer = step.onBuffer s.host.buffer ∧
      t.host.HasBuiltIn := by
  cases step with
  | action a =>
    let edited := { s with host.buffer := (s.host.buffer.apply a).1 }
    cases hwarning : (s.host.buffer.apply a).2 with
    | none =>
      have hedit : (Console.edit a).runOn s = (.ok (), edited) := by
        rw [Console.edit, Act.runOn_get_bind]
        simp only [hwarning]
        rfl
      exact ⟨_, hedit, rfl, h⟩
    | some w =>
      have hedit : (Console.edit a).runOn s = (.ok (), edited.note (.warning w)) := by
        rw [Console.edit, Act.runOn_get_bind]
        simp only [hwarning]
        rfl
      exact ⟨_, hedit, rfl, h⟩
  | printBuffer =>
    have hlookup := h ("editor:print-buffer", .printBuffer) (.head _)
    refine ⟨{ s with host.output := s.host.output ++ (String.ofList s.host.buffer.text ++ "\n") },
      ?_, rfl, h⟩
    simp only [act, Console.runCommand, Act.runOn_get_bind, hlookup]
    rfl
  | printClipboard =>
    have hlookup := h ("editor:print-clipboard", .printClipboard) (.tail _ (.head _))
    refine ⟨{ s with
        host.output := s.host.output ++ (String.ofList s.host.buffer.clipboard ++ "\n") },
      ?_, rfl, h⟩
    simp only [act, Console.runCommand, Act.runOn_get_bind, hlookup]
    rfl
  | clearBuffer =>
    have hlookup := h ("editor:clear-buffer", .clearBuffer) (.tail _ (.tail _ (.head _)))
    refine ⟨{ s with host.buffer.text := [] }, ?_, rfl, h⟩
    simp only [act, Console.runCommand, Act.runOn_get_bind, hlookup]
    rfl

/-- Steps do not fail, and what they leave of the buffer depends on nothing else. -/
theorem runOn_play (h : s.host.HasBuiltIn) (steps : List EditStep) :
    ∃ t, (play steps).runOn s = (.ok (), t) ∧ t.host.buffer = after steps s.host.buffer := by
  induction steps generalizing s with
  | nil => exact ⟨s, rfl, rfl⟩
  | cons step steps ih =>
    obtain ⟨t, hrun, hbuffer, hcommands⟩ := runOn_act h step
    obtain ⟨u, hrest, hlast⟩ := ih hcommands
    refine ⟨u, ?_, ?_⟩
    · rw [play, Act.runOn_bind_ok hrun, hrest]
    · rw [hlast, hbuffer]
      rfl

/-! ### What the steps keep -/

theorem onBuffer_ordered {b : Buffer} (h : b.Ordered) (step : EditStep) :
    (step.onBuffer b).Ordered := by
  cases step with
  | action a => exact Buffer.apply_ordered h a
  | printBuffer => exact h
  | printClipboard => exact h
  | clearBuffer => exact h

/-- A step keeps a buffer that fits, unless it empties one that is not at its start. -/
theorem onBuffer_fits {b : Buffer} (h : b.Fits) {step : EditStep}
    (hclear : step = clearBuffer → b.AtStart) : (step.onBuffer b).Fits := by
  cases step with
  | action a => exact Buffer.apply_fits h a
  | printBuffer => exact h
  | printClipboard => exact h
  | clearBuffer => exact (Buffer.fits_emptied_iff h.ordered).mpr (hclear rfl)

theorem after_ordered {b : Buffer} (h : b.Ordered) (steps : List EditStep) :
    (after steps b).Ordered := by
  induction steps generalizing b with
  | nil => exact h
  | cons step steps ih => exact ih (onBuffer_ordered h step)

/-- Where the text is only emptied at its start, the buffer fits. -/
theorem after_fits {b : Buffer} (h : b.Fits) {steps : List EditStep}
    (hclear : ∀ earlier, earlier ++ [clearBuffer] <+: steps → (after earlier b).AtStart) :
    (after steps b).Fits := by
  induction steps generalizing b with
  | nil => exact h
  | cons step steps ih =>
    have hfirst : (step.onBuffer b).Fits := by
      refine onBuffer_fits h ?_
      rintro rfl
      exact hclear [] ⟨steps, rfl⟩
    refine ih hfirst ?_
    intro earlier hearlier
    exact hclear (step :: earlier) ((List.prefix_cons_inj step).mpr hearlier)

/-- **In a session with the editor, nothing ever points behind the text exactly if the text is only
emptied with everything at its start.** No step fails, and a selection never ends before it
starts. -/
theorem play_fits_iff {text : String} {cursor : Int} (h : s.host.HasBuiltIn)
    (hstart : s.host.buffer = .start text cursor) (steps : List EditStep) :
    (∀ done, done <+: steps → ((play done).runOn s).1 = .ok () ∧
      ((play done).runOn s).2.host.buffer.Ordered) ∧
    ((∀ done, done <+: steps → ((play done).runOn s).2.host.buffer.Fits) ↔
      ∀ earlier, earlier ++ [clearBuffer] <+: steps →
        ((play earlier).runOn s).2.host.buffer.AtStart) := by
  have hfits : s.host.buffer.Fits := by
    rw [hstart]
    exact Buffer.start_fits text cursor
  have hplay : ∀ done, ((play done).runOn s).1 = .ok () ∧
      ((play done).runOn s).2.host.buffer = after done s.host.buffer := by
    intro done
    obtain ⟨t, hrun, hbuffer⟩ := runOn_play h done
    rw [hrun]
    exact ⟨rfl, hbuffer⟩
  constructor
  · intro done hdone
    rw [(hplay done).2]
    exact ⟨(hplay done).1, after_ordered hfits.ordered done⟩
  · constructor
    · intro hall earlier hearlier
      have hemptied := hall _ hearlier
      have hordered := after_ordered hfits.ordered earlier
      rw [(hplay _).2, after, List.foldl_append] at hemptied
      rw [(hplay earlier).2]
      exact (Buffer.fits_emptied_iff hordered).mp hemptied
    · intro hall done hdone
      rw [(hplay done).2]
      refine after_fits hfits ?_
      intro earlier hearlier
      rw [← (hplay earlier).2]
      exact hall earlier (hearlier.trans hdone)

/-- A session that has just begun, in an empty directory, with a text in the editor. -/
def opened (text : String) (cursor : Int) : Session Console :=
  let console := Console.start ⟨2024, 1, 1⟩ .here (.empty [] []) [] true
  .start .preset .empty .start { console with buffer := .start text cursor }

/-- After a move to the front a text can be emptied. -/
theorem play_fits_front :
    (opened "abc" 3).host.HasBuiltIn ∧ ∀ done, done <+: [.action .moveToStart, clearBuffer] →
      ((play done).runOn (opened "abc" 3)).2.host.buffer.Fits := by
  have hcommands : (opened "abc" 3).host.HasBuiltIn :=
    Console.start_hasBuiltIn ⟨2024, 1, 1⟩ .here (.empty [] []) [] true
  refine ⟨hcommands, (play_fits_iff hcommands rfl _).2.mpr ?_⟩
  intro earlier hearlier
  have hmoved : earlier = [.action .moveToStart] := by
    cases earlier with
    | nil => simp at hearlier
    | cons step rest =>
      obtain ⟨rfl, hrest⟩ := List.cons_prefix_cons.mp hearlier
      cases rest with
      | nil => rfl
      | cons _ rest => simp at hrest
  subst hmoved
  exact ⟨rfl, nofun⟩

/-- With the cursor at the end of a text, the cursor is behind the text once it is emptied. -/
theorem play_clearBuffer :
    let buffer := ((play [clearBuffer]).runOn (opened "abc" 3)).2.host.buffer
    buffer.text.length = 0 ∧ buffer.cursor = 3 ∧ ¬ buffer.Fits := by
  intro buffer
  refine ⟨rfl, rfl, ?_⟩
  intro hfits
  have hcursor : 3 ≤ 0 := hfits.cursor
  omega

end EditStep

end Choicebook
