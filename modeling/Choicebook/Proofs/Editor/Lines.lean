import Mathlib.Data.List.DropRight
import Choicebook.Proofs.Editor.Positions

/-!
# The line of the cursor

From where to where the line goes that a position is in: `Buffer.IsLine` says it without a search.
No newline is in between, in front of the line there is a newline or nothing, and behind it there is
one or nothing. This leaves a single range for each position (`Buffer.IsLine.eq_of_within`), and all
positions in the range, the one at its end included, have the same line.

The search for the newline in front of the cursor goes backward from the cursor, without looking at
the character there, and the one for the newline behind it goes forward and looks at that character
first. So a cursor on a newline is at the end of its line (`Buffer.Fits.isLine`).
-/

namespace Choicebook

/-! ### Searches for a character -/

namespace Text

variable {c : Char} {start i : Nat} {cs : List Char}

/-- The first occurrence is one, and there is none before it. -/
theorem indexFrom?_eq_some (h : indexFrom? c start cs = some i) :
    cs[i]? = some c ∧ ∀ j, start ≤ j → j < i → cs[j]? ≠ some c := by
  rw [indexFrom?, Option.map_eq_some_iff] at h
  obtain ⟨k, hk, rfl⟩ := h
  obtain ⟨hlt, hfound, hbefore⟩ := List.findIdx?_eq_some_iff_getElem.mp hk
  rw [beq_iff_eq, List.getElem_drop] at hfound
  refine ⟨List.getElem?_eq_some_iff.mpr ⟨_, hfound⟩, ?_⟩
  intro j hstart hj heq
  have hearlier := hbefore (j - start) (by omega)
  rw [List.getElem_drop] at hearlier
  obtain ⟨_, heq⟩ := List.getElem?_eq_some_iff.mp heq
  simp only [Nat.add_sub_cancel' hstart, heq] at hearlier
  exact hearlier (beq_self_eq_true c)

theorem indexFrom?_eq_none (h : indexFrom? c start cs = none) {j : Nat} (hj : start ≤ j) :
    cs[j]? ≠ some c := by
  rw [indexFrom?, Option.map_eq_none_iff, List.findIdx?_eq_none_iff] at h
  intro heq
  have hmem : c ∈ cs.drop start := by
    refine List.mem_of_getElem? (i := j - start) ?_
    rw [List.getElem?_drop, Nat.add_sub_cancel' hj, heq]
  have hnot := h c hmem
  rw [beq_self_eq_true] at hnot
  cases hnot

end Text

namespace Buffer

/-- What is in a slice stands at a position of the slice. -/
theorem mem_slice_iff {c : Char} {cs : List Char} {s e : Nat} :
    c ∈ slice cs s e ↔ ∃ i, s ≤ i ∧ i < e ∧ cs[i]? = some c := by
  rw [slice, List.mem_iff_getElem?]
  constructor
  · rintro ⟨k, hk⟩
    rw [List.getElem?_drop, List.getElem?_take] at hk
    split at hk
    · next hlt => exact ⟨s + k, Nat.le_add_right _ _, hlt, hk⟩
    · cases hk
  · rintro ⟨i, hs, he, hi⟩
    refine ⟨i - s, ?_⟩
    rw [List.getElem?_drop, Nat.add_sub_cancel' hs, List.getElem?_take, if_pos he, hi]

/-! ### Lines -/

/-- The line that a position is in goes from `s` to `e`. -/
structure IsLine (cs : List Char) (position s e : Nat) : Prop where
  start_le : s ≤ position
  le_stop : position ≤ e
  within : e ≤ cs.length
  unbroken : '\n' ∉ slice cs s e
  /-- The line follows a newline, unless it is the first one. -/
  opened : s = 0 ∨ 0 < s ∧ cs[s - 1]? = some '\n'
  /-- The line ends at a newline, unless it is the last one. -/
  closed : e = cs.length ∨ cs[e]? = some '\n'

namespace IsLine

variable {cs : List Char} {p p' s s' e e' : Nat}

/-- No newline is at a position of a line before its end. -/
theorem getElem?_ne (h : IsLine cs p s e) {i : Nat} (hs : s ≤ i) (he : i < e) :
    cs[i]? ≠ some '\n' :=
  fun hi => h.unbroken (mem_slice_iff.mpr ⟨i, hs, he, hi⟩)

/-- A line that does not lie behind another one altogether does not start behind its start. -/
private theorem start_le_start (h : IsLine cs p s e) (h' : IsLine cs p' s' e') (hs : s ≤ e') :
    s ≤ s' := by
  rcases h.opened with hfirst | ⟨hpos, hbreak⟩
  · omega
  · by_contra hlt
    exact h'.getElem?_ne (by omega) (by omega) hbreak

/-- A line that does not lie in front of another one altogether does not end in front of its
end. -/
private theorem stop_le_stop (h : IsLine cs p s e) (h' : IsLine cs p' s' e') (he : s' ≤ e) :
    e' ≤ e := by
  have hwithin := h'.within
  rcases h.closed with hlast | hbreak
  · omega
  · by_contra hlt
    exact h'.getElem?_ne he (by omega) hbreak

/-- A position in a line has that line. -/
theorem eq_of_within (h : IsLine cs p s e) (h' : IsLine cs p' s' e') (hs : s ≤ p')
    (he : p' ≤ e) : s' = s ∧ e' = e := by
  have hs' : s ≤ e' := hs.trans h'.le_stop
  have he' : s' ≤ e := h'.start_le.trans he
  exact ⟨Nat.le_antisymm (h'.start_le_start h he') (h.start_le_start h' hs'),
    Nat.le_antisymm (h.stop_le_stop h' he') (h'.stop_le_stop h hs')⟩

end IsLine

/-! ### The line of the cursor -/

variable {b : Buffer}

/-- The part of the text in front of the cursor that is not in its line, and the one that is. -/
private theorem take_cursor (b : Buffer) :
    ∃ front back, b.text.take b.cursor = front ++ back ∧ b.lineStart = front.length ∧
      '\n' ∉ back ∧ (front = [] ∨ front.getLast? = some '\n') := by
  let before := b.text.take b.cursor
  let inLine : Char → Bool := (· ≠ '\n')
  have hsplit : before.rdropWhile inLine ++ before.rtakeWhile inLine = before :=
    List.rdropWhile_append_rtakeWhile ..
  have hlength := congrArg List.length hsplit
  refine ⟨before.rdropWhile inLine, before.rtakeWhile inLine, hsplit.symm, ?_, ?_, ?_⟩
  · have hstart : b.lineStart = before.length - (before.rtakeWhile inLine).length := by
      rw [List.rtakeWhile, List.length_reverse]
      rfl
    rw [List.length_append] at hlength
    omega
  · intro hmem
    have hnot := List.mem_rtakeWhile_imp hmem
    exact absurd hnot (by decide)
  · by_cases hnil : before.rdropWhile inLine = []
    · exact .inl hnil
    · right
      have hlast := List.rdropWhile_last_not inLine before hnil
      rw [List.getLast?_eq_some_getLast hnil]
      simpa [inLine] using hlast

/-- The search backward from the cursor stops behind the last newline in front of it. -/
theorem lineStart_spec (b : Buffer) :
    (∀ i, b.lineStart ≤ i → i < b.cursor → b.text[i]? ≠ some '\n') ∧
      (b.lineStart = 0 ∨ 0 < b.lineStart ∧ b.text[b.lineStart - 1]? = some '\n') := by
  obtain ⟨front, back, htake, hstart, hback, hfront⟩ := b.take_cursor
  have hbefore : ∀ i, i < b.cursor → b.text[i]? = (front ++ back)[i]? := by
    intro i hi
    rw [← htake, List.getElem?_take_of_lt hi]
  rw [hstart]
  constructor
  · intro i hs hi heq
    rw [hbefore i hi, List.getElem?_append_right hs] at heq
    exact hback (List.mem_of_getElem? heq)
  · rcases hfront with hnil | hlast
    · exact .inl (List.length_eq_zero_iff.mpr hnil)
    · have hpos : 0 < front.length := by
        refine List.length_pos_iff.mpr fun hnil => ?_
        rw [hnil] at hlast
        cases hlast
      have hcursor : front.length ≤ b.cursor := hstart ▸ b.lineStart_le.1
      refine .inr ⟨hpos, ?_⟩
      rw [hbefore _ (by omega), List.getElem?_append_left (by omega), ← List.getLast?_eq_getElem?,
        hlast]

/-- The search forward from the cursor stops at the first newline, or at the end. -/
theorem lineEnd_spec (b : Buffer) :
    (∀ i, b.cursor ≤ i → i < b.lineEnd → b.text[i]? ≠ some '\n') ∧
      (b.lineEnd = b.text.length ∨ b.cursor ≤ b.lineEnd ∧ b.text[b.lineEnd]? = some '\n') := by
  rw [lineEnd]
  split
  · next i hi =>
    obtain ⟨hfound, hbefore⟩ := Text.indexFrom?_eq_some hi
    exact ⟨hbefore, .inr ⟨(Text.indexFrom?_bounds hi).1, hfound⟩⟩
  · next hnone => exact ⟨fun i hi _ => Text.indexFrom?_eq_none hnone hi, .inl rfl⟩

/-- The line that is found for a cursor in the text is the line of the cursor. -/
theorem Fits.isLine (h : b.Fits) : IsLine b.text b.cursor b.lineStart b.lineEnd where
  start_le := b.lineStart_le.1
  le_stop := by
    have hcursor := h.cursor
    rcases b.lineEnd_spec.2 with hlast | ⟨hle, -⟩ <;> omega
  within := b.lineEnd_le_length
  unbroken := by
    intro hmem
    obtain ⟨i, hs, he, hi⟩ := mem_slice_iff.mp hmem
    rcases Nat.lt_or_ge i b.cursor with hbefore | hbehind
    · exact b.lineStart_spec.1 i hs hbefore hi
    · exact b.lineEnd_spec.1 i hbehind he hi
  opened := b.lineStart_spec.2
  closed := b.lineEnd_spec.2.imp_right And.right

/-- A cursor that is moved in its line is still in that line. -/
theorem Fits.line_moveTo (h : b.Fits) {position : Nat} (hs : b.lineStart ≤ position)
    (he : position ≤ b.lineEnd) :
    (b.moveTo position).lineStart = b.lineStart ∧ (b.moveTo position).lineEnd = b.lineEnd := by
  have hmoved : (b.moveTo position).Fits := .moveTo (he.trans b.lineEnd_le_length)
  exact h.isLine.eq_of_within hmoved.isLine hs he

/-- **Four actions agree on the line of the cursor.** After any actions of the editor, the cursor
is in a line, and this line is what is selected as the active one. The cursor is moved to its start
and its end, and still is in the same line then. A link on the active line is selected as a range in
this line that is not empty; otherwise there is a warning and nothing happens. -/
theorem applyAll_line (text : String) (cursor : Int) (actions : List EditorAction) :
    let b := (start text cursor).applyAll actions
    ∃ s e, IsLine b.text b.cursor s e ∧
      b.apply .selectLine = ({ b with selection := some (s, e) }, none) ∧
      b.apply .moveToLineStart = (b.moveTo s, none) ∧
      (b.moveTo s).apply .selectLine = ({ b.moveTo s with selection := some (s, e) }, none) ∧
      b.apply .moveToLineEnd = (b.moveTo e, none) ∧
      (b.moveTo e).apply .selectLine = ({ b.moveTo e with selection := some (s, e) }, none) ∧
      (b.apply .selectLink = (b, some noLink) ∨
        ∃ l, b.apply .selectLink = ({ b with selection := some l }, none) ∧
          s ≤ l.1 ∧ l.1 < l.2 ∧ l.2 ≤ e) := by
  intro b
  have hfits : b.Fits := applyAll_fits (start_fits text cursor) actions
  have hse := b.lineStart_le_lineEnd
  have hselect : ∀ position, b.lineStart ≤ position → position ≤ b.lineEnd →
      (b.moveTo position).apply .selectLine =
        ({ b.moveTo position with selection := some (b.lineStart, b.lineEnd) }, none) := by
    intro position hs he
    obtain ⟨hstart, hstop⟩ := hfits.line_moveTo hs he
    rw [← hstart, ← hstop]
    rfl
  refine ⟨b.lineStart, b.lineEnd, hfits.isLine, rfl, rfl, hselect _ (Nat.le_refl _) hse, rfl,
    hselect _ hse (Nat.le_refl _), ?_⟩
  rw [apply, after?]
  cases hlink : findLink? b.lineStart (slice b.text b.lineStart b.lineEnd) with
  | none => exact .inl rfl
  | some l => exact .inr ⟨l, rfl, link_bounds hlink⟩

/-- A cursor on a newline is at the end of the line in front of it. -/
example : ((start "one\ntwo" 3).apply .selectLine).1.selection = some (0, 3) := by decide +kernel

end Buffer

end Choicebook
