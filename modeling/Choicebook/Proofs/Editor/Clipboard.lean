import Choicebook.Proofs.Editor.Positions

/-!
# Cutting, copying and pasting

Characters that are put into a buffer go to a range of its text: the selection, or the empty range
at the cursor if nothing is selected (`Buffer.range`). What is copied is what is in that range
(`Buffer.selected_eq_slice`), so putting it there again changes nothing.

To cut is to copy and then to put nothing in the place of the range. What is put in next goes where
the range has started, as it would have gone to the range itself
(`Buffer.Fits.replaceSelection_replaceSelection`). So the same comes out of cutting and pasting as
of copying and pasting. Both need the range to be in the text, which it is in all buffers that
actions of the editor lead to.
-/

namespace Choicebook.Buffer

variable {b : Buffer}

/-- What is selected is what is in the range. -/
theorem selected_eq_slice (b : Buffer) : b.selected = slice b.text b.range.1 b.range.2 := by
  rw [selected, range]
  cases b.selection with
  | none => simp [slice]
  | some r => rfl

/-- A text is what comes before a range, what is in it, and what comes after it. -/
theorem take_append_slice_append_drop {s e : Nat} (h : s ≤ e) (cs : List Char) :
    cs.take s ++ slice cs s e ++ cs.drop e = cs := by
  have hfront : cs.take s = (cs.take e).take s := by rw [List.take_take, Nat.min_eq_left h]
  rw [hfront, slice, List.take_append_drop, List.take_append_drop]

/-- Putting back what is selected moves the cursor behind it. -/
theorem Fits.replaceSelection_selected (h : b.Fits) :
    b.replaceSelection b.selected = { b with cursor := b.range.2, selection := none } := by
  obtain ⟨hse, hlength⟩ := h.range_le
  have hcursor : b.range.1 + b.selected.length = b.range.2 := by
    rw [selected_eq_slice, length_slice hlength]
    omega
  rw [replaceSelection_eq, hcursor, selected_eq_slice, take_append_slice_append_drop hse]

/-- To put characters in the place of a range, one can also take out the range first. -/
theorem Fits.replaceSelection_replaceSelection (h : b.Fits) (cs : List Char) :
    (b.replaceSelection []).replaceSelection cs = b.replaceSelection cs := by
  obtain ⟨hse, hlength⟩ := h.range_le
  have hfront : (b.text.take b.range.1).length = b.range.1 := by
    rw [List.length_take]
    omega
  have hemptied : (b.replaceSelection []).range = (b.range.1, b.range.1) := rfl
  have htext : (b.replaceSelection []).text = b.text.take b.range.1 ++ b.text.drop b.range.2 := by
    rw [replaceSelection_eq, List.append_nil]
  rw [replaceSelection_eq, hemptied, htext, List.take_left' hfront, List.drop_left' hfront]
  rfl

/-- A buffer whose selection has been copied. -/
def copied (b : Buffer) : Buffer :=
  { b with clipboard := b.selected }

theorem Fits.copied (h : b.Fits) : b.copied.Fits := ⟨h.cursor, h.ordered, h.within⟩

/-- Pasting what has just been copied restores the text. -/
theorem Fits.paste_copied (h : b.Fits) :
    b.copied.replaceSelection b.copied.clipboard =
      { b.copied with cursor := b.range.2, selection := none } :=
  h.copied.replaceSelection_selected

/-- Cutting and pasting does what copying and pasting does. -/
theorem Fits.paste_cut (h : b.Fits) :
    (b.copied.replaceSelection []).replaceSelection b.copied.clipboard =
      b.copied.replaceSelection b.copied.clipboard :=
  h.copied.replaceSelection_replaceSelection _

/-- Only cutting and pasting changes a text. -/
theorem text_apply (b : Buffer) (a : EditorAction) :
    (b.apply a).1.text = b.text ∨ a ∈ [.cut, .paste, .pasteWithFormat] := by
  cases a with
  | cut => exact .inr (by decide)
  | paste => exact .inr (by decide)
  | pasteWithFormat => exact .inr (by decide)
  | selectLink =>
    left
    rw [apply, after?]
    cases findLink? b.lineStart (slice b.text b.lineStart b.lineEnd) <;> rfl
  | _ => exact .inl rfl

/-- **Pasting undoes cutting and copying.** After any actions of the editor, cutting and then
pasting leaves the text as it was, and so does copying and then pasting. The cursor is then at the
end of what was selected, or where it was if nothing was, nothing is selected any more, and what was
selected is in the clipboard. No action but cutting and pasting ever changes the text. -/
theorem applyAll_restores (text : String) (cursor : Int) (actions : List EditorAction) :
    let b := (start text cursor).applyAll actions
    (∀ take ∈ [EditorAction.cut, .copy], ∀ put ∈ [EditorAction.paste, .pasteWithFormat],
      b.applyAll [take, put] =
        { text := b.text
          cursor := (b.selection.map Prod.snd).getD b.cursor
          selection := none
          clipboard := b.selected }) ∧
    ∀ a, (b.apply a).1.text = b.text ∨ a ∈ [.cut, .paste, .pasteWithFormat] := by
  intro b
  have hfits : b.Fits := applyAll_fits (start_fits text cursor) actions
  have hstop : b.range.2 = (b.selection.map Prod.snd).getD b.cursor := by
    rw [range]
    cases b.selection <;> rfl
  have hpaste : ∀ put ∈ [EditorAction.paste, .pasteWithFormat], ∀ c : Buffer,
      (c.apply put).1 = c.replaceSelection c.clipboard := by
    intro put hput c
    simp only [List.mem_cons, List.not_mem_nil, or_false] at hput
    rcases hput with rfl | rfl <;> rfl
  refine ⟨?_, text_apply b⟩
  intro take htake put hput
  rw [← hstop]
  simp only [List.mem_cons, List.not_mem_nil, or_false] at htake
  rcases htake with rfl | rfl
  · calc b.applyAll [.cut, put]
        = (b.copied.replaceSelection []).replaceSelection b.copied.clipboard := hpaste put hput _
      _ = b.copied.replaceSelection b.copied.clipboard := hfits.paste_cut
      _ = { b.copied with cursor := b.range.2, selection := none } := hfits.paste_copied
  · calc b.applyAll [.copy, put]
        = b.copied.replaceSelection b.copied.clipboard := hpaste put hput _
      _ = { b.copied with cursor := b.range.2, selection := none } := hfits.paste_copied

/-- A line is selected, cut and pasted; the cursor goes from inside of the line to its end. -/
theorem applyAll_restores_line :
    let b := (start "one\ntwo\nthree" 5).applyAll [.selectLine]
    b.applyAll [.cut, .paste] =
      { text := "one\ntwo\nthree".toList, cursor := 7, selection := none
        clipboard := "two".toList } :=
  ((applyAll_restores "one\ntwo\nthree" 5 [.selectLine]).1 .cut (by decide) .paste
    (by decide)).trans (by decide +kernel)

end Choicebook.Buffer
