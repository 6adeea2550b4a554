import Mathlib.Data.List.Infix
import Choicebook.Text.Search

/-!
# Cutting and joining texts

What `Text.afterPiece?` and `Text.splitOn` do in terms of lists: the front and the end of a text,
the first piece of a text that begins with one, and the last piece of any text. Texts that have been
joined can be cut apart again (`Text.splitOn_join`).

`Text.Cut` says which pieces a text has without cutting it, and `Text.splitOn_eq_iff` that these are
the pieces that `Text.splitOn` gives. Where occurrences of the separator overlap, this is not the
only way to write the text as joined pieces.
-/

namespace Choicebook.Text

variable {piece cs rest sep acc : List Char}

/-! ### Fronts and ends -/

theorem afterPiece?_eq_some_iff : afterPiece? piece cs = some rest ↔ cs = piece ++ rest := by
  induction piece generalizing cs with
  | nil => exact ⟨fun h => Option.some.inj h, fun h => congrArg some h⟩
  | cons p ps ih =>
    cases cs with
    | nil => simp [afterPiece?]
    | cons c cs =>
      rw [afterPiece?]
      split
      · next h =>
        subst h
        simp [ih]
      · next h => simp [Ne.symm h]

theorem isSome_afterPiece?_iff : (afterPiece? piece cs).isSome = true ↔ piece <+: cs := by
  rw [Option.isSome_iff_exists]
  exact exists_congr fun _ => afterPiece?_eq_some_iff.trans eq_comm

theorem startsWith_iff {s t : String} : startsWith s t = true ↔ t.toList <+: s.toList :=
  isSome_afterPiece?_iff

theorem endsWith_iff {s t : String} : endsWith s t = true ↔ t.toList <:+ s.toList :=
  isSome_afterPiece?_iff.trans List.reverse_prefix

theorem hasPiece_cons {c : Char} : hasPiece piece (c :: cs) = false ↔
    ¬piece <+: c :: cs ∧ hasPiece piece cs = false := by
  rw [hasPiece, Bool.or_eq_false_iff, ← isSome_afterPiece?_iff, Bool.not_eq_true]

/-- A piece of a text is a part of it. -/
theorem hasPiece_iff : hasPiece piece cs = true ↔ piece <:+: cs := by
  induction cs with
  | nil => rw [hasPiece, List.isEmpty_iff, List.infix_nil]
  | cons c cs ih =>
    rw [hasPiece, Bool.or_eq_true, isSome_afterPiece?_iff, ih, List.infix_cons_iff]

theorem hasPiece_eq_false_iff : hasPiece piece cs = false ↔ ¬piece <:+: cs := by
  rw [← hasPiece_iff, Bool.not_eq_true]

theorem hasPiece_of_append {more : List Char} (h : hasPiece piece (cs ++ more) = false) :
    hasPiece piece cs = false := by
  induction cs with
  | nil =>
    cases piece with
    | nil => cases more <;> cases h
    | cons => rfl
  | cons c cs ih =>
    obtain ⟨hfront, hrest⟩ := hasPiece_cons.mp h
    exact hasPiece_cons.mpr ⟨fun hc => hfront (hc.trans (List.prefix_append _ _)), ih hrest⟩

/-- A character is a piece of a text only where it stands in it. -/
theorem hasPiece_singleton {c : Char} (h : c ∉ cs) : hasPiece [c] cs = false := by
  induction cs with
  | nil => rfl
  | cons d cs ih =>
    rw [List.mem_cons, not_or] at h
    exact hasPiece_cons.mpr ⟨fun hfront => h.1 (List.cons_prefix_cons.mp hfront).1, ih h.2⟩

/-- What does not contain a character does not begin to repeat it either. -/
theorem hasPiece_of_not_mem {c : Char} (h : c ∉ cs) : hasPiece [c, c] (cs ++ [c]) = false := by
  induction cs with
  | nil => simp [hasPiece, afterPiece?]
  | cons d cs ih =>
    rw [List.mem_cons, not_or] at h
    refine hasPiece_cons.mpr ⟨fun hfront => ?_, ih h.2⟩
    exact h.1 (List.cons_prefix_cons.mp hfront).1

/-! ### Pieces -/

private theorem splitPieces_of_some (hsep : sep ≠ []) {c : Char}
    (h : afterPiece? sep (c :: cs) = some rest) :
    splitPieces sep acc (c :: cs) = acc.reverse :: splitPieces sep [] rest := by
  rw [splitPieces, if_neg (by rwa [List.isEmpty_iff])]
  split
  · next found =>
    cases h.symm.trans found
    rfl
  · next found => cases h.symm.trans found

private theorem splitPieces_of_none (hsep : sep ≠ []) {c : Char}
    (h : ¬sep <+: c :: cs) : splitPieces sep acc (c :: cs) = splitPieces sep (c :: acc) cs := by
  rw [splitPieces, if_neg (by rwa [List.isEmpty_iff])]
  split
  · next found => exact absurd (isSome_afterPiece?_iff.mp (by rw [found]; rfl)) h
  · rfl

private theorem splitPieces_of_hasPiece (hsep : sep ≠ []) (h : hasPiece sep cs = false) :
    splitPieces sep acc cs = [acc.reverse ++ cs] := by
  induction cs generalizing acc with
  | nil => rw [splitPieces, List.append_nil]
  | cons c cs ih =>
    obtain ⟨hc, hcs⟩ := hasPiece_cons.mp h
    rw [splitPieces_of_none hsep hc, ih hcs, List.reverse_cons, List.append_assoc]
    rfl

/-- Without the last character of the separator, a piece and the separator are still a front. -/
private theorem front_without_last (piece sep rest : List Char) :
    piece ++ sep.dropLast <+: piece ++ (sep ++ rest) :=
  (List.prefix_append_right_inj piece).mpr
    ((List.dropLast_prefix sep).trans (List.prefix_append sep rest))

private theorem splitPieces_append (hsep : sep ≠ [])
    (h : hasPiece sep (piece ++ sep.dropLast) = false) :
    splitPieces sep acc (piece ++ (sep ++ rest)) =
      (acc.reverse ++ piece) :: splitPieces sep [] rest := by
  induction piece generalizing acc with
  | nil =>
    obtain ⟨c, cs, rfl⟩ := List.exists_cons_of_ne_nil hsep
    rw [List.nil_append, List.append_nil, List.cons_append]
    exact splitPieces_of_some hsep (afterPiece?_eq_some_iff.mpr rfl)
  | cons c piece ih =>
    obtain ⟨hc, hcs⟩ := hasPiece_cons.mp h
    -- an occurrence at the front would end before the separator does
    have hfront : ¬sep <+: c :: (piece ++ (sep ++ rest)) := by
      intro hsepfront
      have hshort := front_without_last (c :: piece) sep rest
      refine hc (List.prefix_of_prefix_length_le hsepfront hshort ?_)
      have hpos := List.length_pos_iff.mpr hsep
      rw [List.length_cons, List.append_eq, List.length_append, List.length_dropLast]
      omega
    rw [List.cons_append, splitPieces_of_none hsep hfront, ih hcs, List.reverse_cons,
      List.append_assoc]
    rfl

/-- Without the separator there is one piece. -/
theorem splitOn_of_hasPiece (hsep : sep ≠ []) (h : hasPiece sep cs = false) :
    splitOn sep cs = [cs] :=
  splitPieces_of_hasPiece hsep h

/-- What comes before the first separator is the first piece. -/
theorem splitOn_append (hsep : sep ≠ []) (h : hasPiece sep (piece ++ sep.dropLast) = false) :
    splitOn sep (piece ++ (sep ++ rest)) = piece :: splitOn sep rest :=
  splitPieces_append hsep h

/-! ### Where a text is cut -/

/-- The pieces of a text between the occurrences of a separator that a reader finds from left to
right: a piece ends where the separator is complete for the first time, and reading goes on after
it. -/
inductive Cut (sep : List Char) : List Char → List (List Char) → Prop
  | last {cs : List Char} (h : ¬sep <:+: cs) : Cut sep cs [cs]
  | next {piece rest : List Char} {pieces : List (List Char)}
      (h : ¬sep <:+: piece ++ sep.dropLast) (hrest : Cut sep rest pieces) :
      Cut sep (piece ++ (sep ++ rest)) (piece :: pieces)

/-- A text that the separator stands in has a place where it is complete for the first time. -/
private theorem exists_first (hsep : sep ≠ []) (h : sep <:+: cs) :
    ∃ piece rest, cs = piece ++ (sep ++ rest) ∧ ¬sep <:+: piece ++ sep.dropLast := by
  induction cs with
  | nil => exact absurd (List.infix_nil.mp h) hsep
  | cons c cs ih =>
    by_cases hfront : sep <+: c :: cs
    · obtain ⟨rest, hrest⟩ := hfront
      refine ⟨[], rest, hrest.symm, fun hshort => ?_⟩
      have hlength := hshort.length_le
      have hpos := List.length_pos_iff.mpr hsep
      rw [List.nil_append, List.length_dropLast] at hlength
      omega
    · obtain ⟨piece, rest, rfl, hfree⟩ := ih ((List.infix_cons_iff.mp h).resolve_left hfront)
      refine ⟨c :: piece, rest, rfl, fun hinfix => ?_⟩
      rcases List.infix_cons_iff.mp hinfix with hstart | hlater
      · exact hfront (hstart.trans (front_without_last (c :: piece) sep rest))
      · exact hfree hlater

theorem cut_splitOn (hsep : sep ≠ []) (cs : List Char) : Cut sep cs (splitOn sep cs) := by
  by_cases h : sep <:+: cs
  · obtain ⟨piece, rest, hcs, hfree⟩ := exists_first hsep h
    rw [hcs, splitOn_append hsep (hasPiece_eq_false_iff.mpr hfree)]
    exact .next hfree (cut_splitOn hsep rest)
  · rw [splitOn_of_hasPiece hsep (hasPiece_eq_false_iff.mpr h)]
    exact .last h
termination_by cs.length
decreasing_by
  have hpos := List.length_pos_iff.mpr hsep
  rw [hcs, List.length_append, List.length_append]
  omega

/-- A text has one list of pieces, the one that cutting gives. -/
theorem splitOn_eq_iff (hsep : sep ≠ []) {pieces : List (List Char)} :
    splitOn sep cs = pieces ↔ Cut sep cs pieces := by
  constructor
  · rintro rfl
    exact cut_splitOn hsep cs
  · intro h
    induction h with
    | last h => exact splitOn_of_hasPiece hsep (hasPiece_eq_false_iff.mpr h)
    | next h _ ih => rw [splitOn_append hsep (hasPiece_eq_false_iff.mpr h), ih]

/-- The separator stands in none of the pieces. -/
theorem Cut.not_infix {pieces : List (List Char)} (h : Cut sep cs pieces) :
    ∀ piece ∈ pieces, ¬sep <:+: piece := by
  induction h with
  | last h => exact List.forall_mem_singleton.mpr h
  | @next piece _ _ h _ ih =>
    refine List.forall_mem_cons.mpr ⟨fun hpiece => h ?_, ih⟩
    exact hpiece.trans (List.prefix_append piece _).isInfix

/-! ### The last piece -/

/-- An end of a text that the separator is not in is an end of its last piece. -/
theorem exists_last_of_suffix {c : Char} (hc : c ∉ piece) (h : piece <:+ cs) :
    ∃ before last, splitOn [c] cs = before ++ [last] ∧ piece <:+ last := by
  suffices hsuffices : ∀ acc : List Char, piece <:+ acc.reverse ++ cs →
      ∃ before last, splitPieces [c] acc cs = before ++ [last] ∧ piece <:+ last from
    hsuffices [] h
  clear h
  intro acc h
  induction cs generalizing acc with
  | nil => exact ⟨[], acc.reverse, by rw [splitPieces]; rfl, by rwa [List.append_nil] at h⟩
  | cons d cs ih =>
    by_cases hd : c = d
    · subst hd
      have hrest : piece <:+ cs := by
        -- a longer end would reach the separator
        rcases List.suffix_or_suffix_of_suffix h (List.suffix_append acc.reverse (c :: cs)) with
          hle | hge
        · rcases List.suffix_cons_iff.mp hle with rfl | hle
          · exact absurd List.mem_cons_self hc
          · exact hle
        · exact absurd (hge.mem List.mem_cons_self) hc
      obtain ⟨before, last, heq, hlast⟩ := ih [] hrest
      refine ⟨acc.reverse :: before, last, ?_, hlast⟩
      have hfront : afterPiece? [c] (c :: cs) = some cs := afterPiece?_eq_some_iff.mpr rfl
      rw [splitPieces_of_some (List.cons_ne_nil _ _) hfront, heq]
      rfl
    · rw [splitPieces_of_none (List.cons_ne_nil _ _) fun hfront =>
        hd (List.cons_prefix_cons.mp hfront).1]
      exact ih (d :: acc) (by rwa [List.reverse_cons, List.append_assoc])

/-! ### Joining -/

/-- Cutting at the separator undoes joining, as long as no piece ends in a part of it that the
separator after the piece could complete. -/
theorem splitOn_join {separator : String} (hsep : separator.toList ≠ []) {first : String}
    {more : List String}
    (h : ∀ s ∈ first :: more,
      hasPiece separator.toList (s.toList ++ separator.toList.dropLast) = false) :
    splitOn separator.toList (join separator (first :: more)).toList =
      (first :: more).map String.toList := by
  induction more generalizing first with
  | nil =>
    have hfirst := hasPiece_of_append (h first List.mem_cons_self)
    have hjoin : join separator [first] = first := String.intercalate_singleton
    rw [hjoin, splitOn_of_hasPiece hsep hfirst]
    rfl
  | cons second more ih =>
    obtain ⟨hfirst, hmore⟩ := List.forall_mem_cons.mp h
    have hjoin : (join separator (first :: second :: more)).toList =
        first.toList ++ (separator.toList ++ (join separator (second :: more)).toList) := by
      rw [join, String.intercalate_cons_cons, String.toList_append, String.toList_append,
        List.append_assoc]
      rfl
    rw [hjoin, splitOn_append hsep hfirst, ih hmore]
    rfl

/-- Lines that are joined can be told apart again. -/
theorem splitOn_join_newline {lines : List String} (hne : lines ≠ [])
    (h : ∀ s ∈ lines, '\n' ∉ s.toList) :
    splitOn ['\n'] (join "\n" lines).toList = lines.map String.toList := by
  obtain ⟨first, more, rfl⟩ := List.exists_cons_of_ne_nil hne
  have hsep : "\n".toList ≠ [] := by decide
  refine splitOn_join hsep fun s hs => ?_
  have hfree : '\n' ∉ s.toList ++ "\n".toList.dropLast := by
    rw [show "\n".toList.dropLast = [] from rfl, List.append_nil]
    exact h s hs
  exact hasPiece_singleton hfree

/-- The last piece is the end of the whole. -/
theorem suffix_join (separator : String) (before : List String) (last : String) :
    last.toList <:+ (join separator (before ++ [last])).toList := by
  induction before with
  | nil => exact List.suffix_rfl
  | cons s before ih =>
    obtain ⟨t, ts, ht⟩ := List.exists_cons_of_ne_nil (List.concat_ne_nil last before)
    rw [join, ht] at ih
    rw [join, List.cons_append, ht, String.intercalate_cons_cons, String.toList_append]
    exact ih.trans (List.suffix_append _ _)

end Choicebook.Text
