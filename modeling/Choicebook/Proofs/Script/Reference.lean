import Choicebook.Proofs.Text.Blank
import Choicebook.Proofs.Text.Pieces
import Choicebook.Script.Export

/-!
# References and their parts

A reference is cut at every double colon, the pieces are trimmed, and those of which nothing is left
are dropped; the first of the others is the name and the rest are members. The main theorem,
`splitReference_parts`, says what this comes to. A name and members without a colon in them come
back from a reference in which they have been put between blanks, with blank pieces anywhere
(`Reference.Spread`). And whatever the text is, what comes back are the parts that are spread over
its pieces: none of them is empty, has a blank at its ends or a double colon in it, and there are
none exactly if all pieces are blank.

A part may begin with a colon: of three colons in a row the first two are the separator.
-/

namespace Choicebook

namespace Reference

/-- A text that can come back as a part of a reference: it is not empty and has no blank at its
ends. -/
structure IsPart (part : String) : Prop where
  nonempty : part ≠ ""
  trimmed : Text.Trimmed part.toList

/-- Pieces in which parts stand in their order. Each part may have blanks around it, and pieces of
nothing but blanks may come in between, before and after. -/
inductive Spread : (parts pieces : List String) → Prop
  | none : Spread [] []
  | blank {piece : String} {parts pieces : List String} (hpiece : Text.AllBlank piece.toList)
      (h : Spread parts pieces) : Spread parts (piece :: pieces)
  | part {before part after : String} {parts pieces : List String}
      (hbefore : Text.AllBlank before.toList) (hafter : Text.AllBlank after.toList)
      (h : Spread parts pieces) : Spread (part :: parts) ((before ++ part ++ after) :: pieces)

/-- Parts with nothing around and between them. -/
theorem Spread.refl : ∀ parts : List String, Spread parts parts
  | [] => .none
  | p :: parts => by
    have h : Spread (p :: parts) (("" ++ p ++ "") :: parts) :=
      .part (List.forall_mem_nil _) (List.forall_mem_nil _) (refl parts)
    rwa [String.empty_append, String.append_empty] at h

/-! ### From pieces to parts -/

/-- The name and the members that a reference is taken apart into. -/
def parts (s : String) : List String :=
  (splitReference s).1.toList ++ (splitReference s).2

/-- The parts in some pieces: what is left of each when it is trimmed, unless nothing is. -/
def partsIn (pieces : List (List Char)) : List String :=
  (pieces.map fun piece => String.ofList (Text.strip piece)).filter (· ≠ "")

/-- A reference is taken apart into the parts in its pieces. -/
theorem splitReference_of_cut {s : String} {pieces : List (List Char)}
    (h : Text.Cut "::".toList s.toList pieces) :
    splitReference s = ((partsIn pieces).head?, (partsIn pieces).tail) := by
  have hsplit : Text.splitOn "::".toList s.toList = pieces :=
    (Text.splitOn_eq_iff (by decide)).mpr h
  rw [splitReference, hsplit, ← partsIn]
  cases partsIn pieces with
  | nil => rfl
  | cons name members => rfl

theorem parts_of_cut {s : String} {pieces : List (List Char)}
    (h : Text.Cut "::".toList s.toList pieces) : parts s = partsIn pieces := by
  rw [parts, splitReference_of_cut h]
  cases partsIn pieces with
  | nil => rfl
  | cons name members => rfl

theorem mem_partsIn {pieces : List (List Char)} {part : String} :
    part ∈ partsIn pieces ↔ part ≠ "" ∧ ∃ piece ∈ pieces, Text.strip piece = part.toList := by
  rw [partsIn, List.mem_filter, List.mem_map, decide_eq_true_iff, and_comm]
  refine and_congr_right' (exists_congr fun piece => and_congr_right' ?_)
  rw [String.ext_iff, String.toList_ofList]

theorem partsIn_cons_of_blank {piece : List Char} (h : Text.AllBlank piece)
    (pieces : List (List Char)) : partsIn (piece :: pieces) = partsIn pieces := by
  rw [partsIn, List.map_cons, Text.strip_eq_nil_iff.mpr h]
  exact List.filter_cons_of_neg (by decide)

theorem partsIn_cons_of_part {piece : List Char} {part : String} (hpart : part ≠ "")
    (h : Text.strip piece = part.toList) (pieces : List (List Char)) :
    partsIn (piece :: pieces) = part :: partsIn pieces := by
  rw [partsIn, List.map_cons, h, String.ofList_toList]
  exact List.filter_cons_of_pos (decide_eq_true hpart)

/-- There are no parts exactly if all pieces are blank. -/
theorem partsIn_eq_nil_iff {pieces : List (List Char)} :
    partsIn pieces = [] ↔ ∀ piece ∈ pieces, Text.AllBlank piece := by
  rw [List.eq_nil_iff_forall_not_mem]
  constructor
  · intro h piece hpiece
    by_contra hfilled
    have hne : Text.strip piece ≠ [] := mt Text.strip_eq_nil_iff.mp hfilled
    refine h (String.ofList (Text.strip piece)) (mem_partsIn.mpr ⟨?_, piece, hpiece, ?_⟩)
    · exact mt String.ofList_eq_empty_iff.mp hne
    · exact String.toList_ofList.symm
  · intro h part hpart
    obtain ⟨hne, piece, hpiece, hstrip⟩ := mem_partsIn.mp hpart
    rw [Text.strip_eq_nil_iff.mpr (h piece hpiece)] at hstrip
    exact hne (String.toList_eq_nil_iff.mp hstrip.symm)

/-- The parts in some pieces are spread over them. -/
theorem spread_partsIn : ∀ pieces : List (List Char),
    Spread (partsIn pieces) (pieces.map String.ofList)
  | [] => .none
  | piece :: pieces => by
    by_cases hblank : Text.AllBlank piece
    · rw [partsIn_cons_of_blank hblank]
      exact .blank (by rwa [String.toList_ofList]) (spread_partsIn pieces)
    · obtain ⟨before, after, hpiece, hbefore, hafter⟩ := Text.exists_strip_between piece
      have hne : String.ofList (Text.strip piece) ≠ "" :=
        mt String.ofList_eq_empty_iff.mp (mt Text.strip_eq_nil_iff.mp hblank)
      have hbetween : String.ofList piece =
          String.ofList before ++ String.ofList (Text.strip piece) ++ String.ofList after := by
        rw [← String.ofList_append, ← String.ofList_append, ← hpiece]
      rw [partsIn_cons_of_part hne String.toList_ofList.symm, List.map_cons, hbetween]
      refine .part ?_ ?_ (spread_partsIn pieces)
      · rwa [String.toList_ofList]
      · rwa [String.toList_ofList]

/-- What comes back as a part is one, and it stands in one of the pieces. -/
theorem isPart_of_mem {pieces : List (List Char)} {part : String} (h : part ∈ partsIn pieces) :
    IsPart part ∧ ∃ piece ∈ pieces, part.toList <:+: piece := by
  obtain ⟨hne, piece, hpiece, hstrip⟩ := mem_partsIn.mp h
  obtain ⟨before, after, hbetween, -, -⟩ := Text.exists_strip_between piece
  rw [hstrip] at hbetween
  exact ⟨⟨hne, hstrip ▸ Text.trimmed_strip piece⟩, piece, hpiece, before, after, hbetween.symm⟩

/-- The parts that have been spread over pieces are the parts in them. -/
theorem Spread.partsIn_eq {parts pieces : List String} (h : Spread parts pieces)
    (hparts : ∀ part ∈ parts, IsPart part) : partsIn (pieces.map String.toList) = parts := by
  induction h with
  | none => rfl
  | blank hpiece _ ih => rw [List.map_cons, partsIn_cons_of_blank hpiece, ih hparts]
  | @part before part after _ _ hbefore hafter _ ih =>
    obtain ⟨hpart, hparts⟩ := List.forall_mem_cons.mp hparts
    have hstrip : Text.strip (before ++ part ++ after).toList = part.toList := by
      rw [String.toList_append, String.toList_append, Text.strip_between hbefore hafter,
        hpart.trimmed.strip_eq]
    rw [List.map_cons, partsIn_cons_of_part hpart.nonempty hstrip, ih hparts]

/-! ### References that are put together -/

/-- Blanks bring no colon into a reference. -/
theorem Spread.free {parts pieces : List String} (h : Spread parts pieces)
    (hfree : ∀ part ∈ parts, ':' ∉ part.toList) : ∀ piece ∈ pieces, ':' ∉ piece.toList := by
  have hblank : ∀ {cs : List Char}, Text.AllBlank cs → ':' ∉ cs := fun hcs hmem =>
    absurd (hcs ':' hmem) (by decide)
  induction h with
  | none => exact List.forall_mem_nil _
  | blank hpiece _ ih => exact List.forall_mem_cons.mpr ⟨hblank hpiece, ih hfree⟩
  | part hbefore hafter _ ih =>
    obtain ⟨hpart, hfree⟩ := List.forall_mem_cons.mp hfree
    refine List.forall_mem_cons.mpr ⟨?_, ih hfree⟩
    rw [String.toList_append, String.toList_append, List.mem_append, List.mem_append]
    rintro ((h | h) | h)
    · exact hblank hbefore h
    · exact hpart h
    · exact hblank hafter h

/-- A reference whose pieces can be told apart has the parts that have been spread over them. -/
theorem Spread.splitReference_eq {name : String} {members pieces : List String}
    (h : Spread (name :: members) pieces) (hparts : ∀ part ∈ name :: members, IsPart part)
    (hwhole : ∀ piece ∈ pieces, Text.hasPiece "::".toList (piece.toList ++ [':']) = false) :
    splitReference (Text.join "::" pieces) = (some name, members) := by
  obtain ⟨first, more, rfl⟩ : ∃ first more, pieces = first :: more := by
    cases h with
    | blank => exact ⟨_, _, rfl⟩
    | part => exact ⟨_, _, rfl⟩
  have hcut : Text.Cut "::".toList (Text.join "::" (first :: more)).toList
      ((first :: more).map String.toList) :=
    (Text.splitOn_eq_iff (by decide)).mp (Text.splitOn_join (by decide) hwhole)
  rw [splitReference_of_cut hcut, h.partsIn_eq hparts]
  rfl

end Reference

open Reference

/-- **The parts of a reference.** A name and members without a colon, with blanks around them and
blank pieces among them, come back from the reference that joins the pieces. From any text at all
come back the parts that are spread over the pieces between its double colons; there is no double
colon in any of them, and there is no name exactly if the pieces are all blank. -/
theorem splitReference_parts :
    (∀ (name : String) (members pieces : List String),
      (∀ part ∈ name :: members, IsPart part ∧ ':' ∉ part.toList) →
      Spread (name :: members) pieces →
      splitReference (Text.join "::" pieces) = (some name, members)) ∧
    ∀ text : String,
      (∀ part ∈ parts text, IsPart part ∧ ¬"::".toList <:+: part.toList) ∧
      (splitReference text = (none, []) ↔
        ∃ pieces, Text.Cut "::".toList text.toList pieces ∧
          ∀ piece ∈ pieces, Text.AllBlank piece) ∧
      ∃ pieces, Text.Cut "::".toList text.toList pieces ∧
        Spread (parts text) (pieces.map String.ofList) := by
  refine ⟨fun name members pieces hparts hspread => ?_, fun text => ?_⟩
  · have hfree := hspread.free fun part hpart => (hparts part hpart).2
    exact hspread.splitReference_eq (fun part hpart => (hparts part hpart).1)
      fun piece hpiece => Text.hasPiece_of_not_mem (hfree piece hpiece)
  · obtain ⟨pieces, hcut⟩ : ∃ pieces, Text.Cut "::".toList text.toList pieces :=
      ⟨_, Text.cut_splitOn (by decide) _⟩
    rw [parts_of_cut hcut]
    refine ⟨fun part hpart => ?_, ⟨fun hnone => ?_, ?_⟩, pieces, hcut, spread_partsIn pieces⟩
    · obtain ⟨hpart, piece, hpiece, hinfix⟩ := isPart_of_mem hpart
      exact ⟨hpart, fun hcolons => hcut.not_infix piece hpiece (hcolons.trans hinfix)⟩
    · rw [splitReference_of_cut hcut] at hnone
      have hparts : partsIn pieces = [] := List.head?_eq_none_iff.mp (Prod.ext_iff.mp hnone).1
      exact ⟨pieces, hcut, partsIn_eq_nil_iff.mp hparts⟩
    · rintro ⟨blanks, hblanks, hall⟩
      rw [splitReference_of_cut hblanks, partsIn_eq_nil_iff.mpr hall]
      rfl

/-- A name and a member with blanks of several sorts around them, a blank piece in front and one in
between; and a text of blank pieces only. -/
theorem splitReference_parts_padded :
    splitReference "\t:: M ::::say hi\u3000" = (some "M", ["say hi"]) ∧
      splitReference " ::\n" = (none, []) := by
  have hparts : ∀ part ∈ ["M", "say hi"], IsPart part ∧ ':' ∉ part.toList := by
    refine List.forall_mem_cons.mpr ⟨?_, List.forall_mem_singleton.mpr ?_⟩
    · exact ⟨⟨by decide, by decide⟩, by decide⟩
    · exact ⟨⟨by decide, by decide⟩, by decide⟩
  have hspread : Spread ["M", "say hi"] ["\t", " " ++ "M" ++ " ", "", "" ++ "say hi" ++ "\u3000"] :=
    .blank (by decide) (.part (by decide) (by decide)
      (.blank (by decide) (.part (by decide) (by decide) .none)))
  have hcut : Text.Cut "::".toList ([' '] ++ ("::".toList ++ ['\n'])) [[' '], ['\n']] :=
    .next (by decide) (.last (by decide))
  obtain ⟨hback, hany⟩ := splitReference_parts
  exact ⟨hback "M" ["say hi"] _ hparts hspread, (hany " ::\n").2.1.mpr ⟨_, hcut, by decide⟩⟩

/-- Of three colons in a row the first two are the separator. -/
example : splitReference "a:::b" = (some "a", [":b"]) := by cbv

end Choicebook
