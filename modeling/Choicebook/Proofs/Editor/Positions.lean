import Choicebook.Editor.Buffer

/-!
# Positions in a buffer

The cursor of a buffer and the ends of its selection are positions in its text, and a selection does
not end before it starts: `Buffer.Fits`. Every action of the editor keeps this, because the actions
compute new positions from the text as it is (`Buffer.apply_fits`).

The order of the ends of a selection does not depend on the text, so it is kept on its own, whatever
becomes of the text (`Buffer.apply_ordered`). It rests on the bounds of the line that the cursor is
in and of the links on that line, which hold wherever the cursor is.
-/

namespace Choicebook

/-- A position that is found is not before the start of the search, and not after the text. -/
theorem Text.indexFrom?_bounds {c : Char} {start i : Nat} {cs : List Char}
    (h : Text.indexFrom? c start cs = some i) : start ≤ i ∧ i < cs.length := by
  rw [Text.indexFrom?, Option.map_eq_some_iff] at h
  obtain ⟨k, hk, rfl⟩ := h
  obtain ⟨hlt, -⟩ := List.findIdx?_eq_some_iff_getElem.mp hk
  rw [List.length_drop] at hlt
  constructor <;> omega

namespace Buffer

/-! ### The line of the cursor -/

theorem lineStart_le (b : Buffer) : b.lineStart ≤ b.cursor ∧ b.lineStart ≤ b.text.length := by
  have hbefore : b.lineStart ≤ (b.text.take b.cursor).length := Nat.sub_le _ _
  rw [List.length_take] at hbefore
  omega

theorem lineEnd_le_length (b : Buffer) : b.lineEnd ≤ b.text.length := by
  rw [lineEnd]
  split
  · next i hi => exact Nat.le_of_lt (Text.indexFrom?_bounds hi).2
  · exact Nat.le_refl _

theorem lineStart_le_lineEnd (b : Buffer) : b.lineStart ≤ b.lineEnd := by
  have hstart := b.lineStart_le
  rw [lineEnd]
  split
  · next i hi => exact Nat.le_trans hstart.1 (Text.indexFrom?_bounds hi).1
  · exact hstart.2

theorem length_slice {cs : List Char} {s e : Nat} (h : e ≤ cs.length) :
    (slice cs s e).length = e - s := by
  rw [slice, List.length_drop, List.length_take, Nat.min_eq_left h]

/-! ### Links -/

private theorem eq_some_of_orElse {α : Type} {x : Option α} {y : Unit → Option α} {v : α}
    (h : x.orElse y = some v) : x = some v ∨ y () = some v := by
  cases x with
  | none => exact .inr h
  | some w => exact .inl h

theorem bracketLink?_bounds {cs : List Char} {n : Nat} (h : bracketLink? cs = some n) :
    0 < n ∧ n ≤ cs.length := by
  simp only [bracketLink?, Option.bind_eq_bind, Option.bind_eq_some_iff] at h
  obtain ⟨rest, hopen, close, hclose, h⟩ := h
  have hrest := Text.length_of_afterPiece? hopen
  have hinner := Text.length_of_afterPiece? hclose
  rw [List.length_drop] at hinner
  have htwo : "[[".toList.length = 2 ∧ "]]".toList.length = 2 := ⟨rfl, rfl⟩
  split at h
  · cases h
  · cases h
    omega

theorem inlineLink?_bounds {cs : List Char} {n : Nat} (h : inlineLink? cs = some n) :
    0 < n ∧ n ≤ cs.length := by
  simp only [inlineLink?, Option.bind_eq_bind, Option.bind_eq_some_iff] at h
  obtain ⟨rest, hopen, rest', hmiddle, close, hclose, h⟩ := h
  have hrest := Text.length_of_afterPiece? hopen
  have hlabel := Text.length_of_afterPiece? hmiddle
  have htarget := Text.length_of_afterPiece? hclose
  rw [List.length_drop] at hlabel htarget
  have hmarks : "[".toList.length = 1 ∧ "](".toList.length = 2 ∧ ")".toList.length = 1 :=
    ⟨rfl, rfl, rfl⟩
  cases h
  omega

theorem address?_bounds {cs : List Char} {n : Nat} (h : address? cs = some n) :
    0 < n ∧ n ≤ cs.length := by
  simp only [address?, Option.bind_eq_bind, Option.bind_eq_some_iff] at h
  obtain ⟨rest, hopen, h⟩ := h
  have hrest : rest.length ≤ cs.length := by
    rcases eq_some_of_orElse hopen with hsecure | hplain
    · have := Text.length_of_afterPiece? hsecure
      omega
    · have := Text.length_of_afterPiece? hplain
      omega
  have hinner := (List.takeWhile_sublist (l := rest) fun c => !Text.isBlank c).length_le
  split at h
  · cases h
  · next hne =>
    cases h
    have hpos := List.length_pos_iff.mpr fun hnil => hne (List.isEmpty_iff.mpr hnil)
    omega

/-- A link that is found is not empty and lies in the characters that were searched. -/
theorem findLink?_bounds {position : Nat} {cs : List Char} {l : Nat × Nat}
    (h : findLink? position cs = some l) :
    position ≤ l.1 ∧ l.1 < l.2 ∧ l.2 ≤ position + cs.length := by
  induction cs generalizing position with
  | nil => cases h
  | cons c cs ih =>
    rw [findLink?] at h
    split at h
    · next n hhere =>
      cases h
      have hn : 0 < n ∧ n ≤ (c :: cs).length := by
        rcases eq_some_of_orElse hhere with hbracket | hrest
        · exact bracketLink?_bounds hbracket
        · rcases eq_some_of_orElse hrest with hinline | haddress
          · exact inlineLink?_bounds hinline
          · exact address?_bounds haddress
      refine ⟨Nat.le_refl _, ?_, ?_⟩ <;> omega
    · have hlater := ih h
      rw [List.length_cons]
      omega

/-- A link on the line of the cursor. -/
theorem link_bounds {b : Buffer} {l : Nat × Nat}
    (h : findLink? b.lineStart (slice b.text b.lineStart b.lineEnd) = some l) :
    b.lineStart ≤ l.1 ∧ l.1 < l.2 ∧ l.2 ≤ b.lineEnd := by
  have hlink := findLink?_bounds h
  have hline := b.lineStart_le_lineEnd
  rw [length_slice b.lineEnd_le_length] at hlink
  omega

/-! ### Buffers that fit -/

/-- A selection does not end before it starts. -/
def Ordered (b : Buffer) : Prop :=
  ∀ r ∈ b.selection, r.1 ≤ r.2

/-- The cursor and the selection lie in the text, and the selection does not end before it
starts. -/
structure Fits (b : Buffer) : Prop where
  cursor : b.cursor ≤ b.text.length
  ordered : b.Ordered
  within : ∀ r ∈ b.selection, r.2 ≤ b.text.length

theorem start_fits (text : String) (cursor : Int) : (start text cursor).Fits where
  cursor := Nat.min_le_right _ _
  ordered := nofun
  within := nofun

theorem Fits.moveTo {b : Buffer} {position : Nat} (h : position ≤ b.text.length) :
    (b.moveTo position).Fits where
  cursor := h
  ordered := nofun
  within := nofun

theorem Fits.select {b : Buffer} (h : b.Fits) {r : Nat × Nat} (hr : r.1 ≤ r.2)
    (hlength : r.2 ≤ b.text.length) : Fits { b with selection := some r } where
  cursor := h.cursor
  ordered := by
    rintro _ ⟨⟩
    exact hr
  within := by
    rintro _ ⟨⟩
    exact hlength

/-- Where characters go that are put into a buffer: to the selection, or to the cursor, as to an
empty selection there. -/
def range (b : Buffer) : Nat × Nat :=
  b.selection.getD (b.cursor, b.cursor)

theorem Fits.range_le {b : Buffer} (h : b.Fits) :
    b.range.1 ≤ b.range.2 ∧ b.range.2 ≤ b.text.length := by
  rw [range]
  cases hs : b.selection with
  | none => exact ⟨Nat.le_refl _, h.cursor⟩
  | some r => exact ⟨h.ordered r hs, h.within r hs⟩

theorem replaceSelection_eq (b : Buffer) (cs : List Char) :
    b.replaceSelection cs =
      { text := b.text.take b.range.1 ++ cs ++ b.text.drop b.range.2
        cursor := b.range.1 + cs.length
        selection := none
        clipboard := b.clipboard } := rfl

/-- What is put in moves the cursor behind itself. -/
theorem Fits.replaceSelection {b : Buffer} (h : b.Fits) (cs : List Char) :
    (b.replaceSelection cs).Fits := by
  obtain ⟨hse, hlength⟩ := h.range_le
  refine ⟨?_, nofun, nofun⟩
  simp only [replaceSelection_eq, List.length_append, List.length_take, List.length_drop]
  omega

/-- **An action of the editor keeps all positions in the text.** -/
theorem apply_fits {b : Buffer} (h : b.Fits) (a : EditorAction) : (b.apply a).1.Fits := by
  rw [apply]
  split
  · next c hc =>
    cases a with
    | copy =>
      cases hc
      exact ⟨h.cursor, h.ordered, h.within⟩
    | cut =>
      cases hc
      have hcopied : Fits { b with clipboard := b.selected } := ⟨h.cursor, h.ordered, h.within⟩
      exact hcopied.replaceSelection []
    | paste =>
      cases hc
      exact h.replaceSelection _
    | pasteWithFormat =>
      cases hc
      exact h.replaceSelection _
    | selectLine =>
      cases hc
      exact h.select b.lineStart_le_lineEnd b.lineEnd_le_length
    | selectLink =>
      obtain ⟨l, hl, rfl⟩ := Option.map_eq_some_iff.mp hc
      have hbounds := link_bounds hl
      exact h.select (Nat.le_of_lt hbounds.2.1) (Nat.le_trans hbounds.2.2 b.lineEnd_le_length)
    | moveToStart =>
      cases hc
      exact .moveTo (Nat.zero_le _)
    | moveToEnd =>
      cases hc
      exact .moveTo (Nat.le_refl _)
    | moveToLineStart =>
      cases hc
      exact .moveTo b.lineStart_le.2
    | moveToLineEnd =>
      cases hc
      exact .moveTo b.lineEnd_le_length
  · exact h

/-- Does actions one after the other. -/
def applyAll (b : Buffer) (actions : List EditorAction) : Buffer :=
  actions.foldl (fun b a => (b.apply a).1) b

theorem applyAll_fits {b : Buffer} (h : b.Fits) (actions : List EditorAction) :
    (b.applyAll actions).Fits := by
  induction actions generalizing b with
  | nil => exact h
  | cons a actions ih => exact ih (apply_fits h a)

/-- An action of the editor keeps the ends of the selection in order, even where the positions of
before were not in the text. -/
theorem apply_ordered {b : Buffer} (h : b.Ordered) (a : EditorAction) : (b.apply a).1.Ordered := by
  have hselect : ∀ r : Nat × Nat, r.1 ≤ r.2 → Ordered { b with selection := some r } := by
    rintro r hr _ ⟨⟩
    exact hr
  rw [apply]
  split
  · next c hc =>
    cases a with
    | copy =>
      cases hc
      exact h
    | selectLine =>
      cases hc
      exact hselect _ b.lineStart_le_lineEnd
    | selectLink =>
      obtain ⟨l, hl, rfl⟩ := Option.map_eq_some_iff.mp hc
      exact hselect l (Nat.le_of_lt (link_bounds hl).2.1)
    | _ =>
      -- everything else leaves nothing selected
      cases hc
      nofun
  · exact h

end Buffer

end Choicebook
