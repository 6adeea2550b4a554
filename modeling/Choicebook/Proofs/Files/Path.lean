import Choicebook.Files.Path
import Choicebook.Proofs.Text.Pieces

/-!
# Endings of paths

The ending of a text is that of the last name of the path that it spells, if the ending has no slash
and is more than a dot. It survives writing the path out and looking at it from elsewhere.
-/

namespace Choicebook.Files.Path

variable {p q : Path} {s ending : String}

private theorem exists_last (hne : ending ≠ "") (h : Text.endsWith p.name ending = true) :
    ∃ before last, p.names = before ++ [last] ∧ Text.endsWith last ending = true := by
  rcases List.eq_nil_or_concat p.names with hnil | ⟨before, last, hlast⟩
  · rw [name, hnil, Text.endsWith_iff] at h
    exact absurd (String.toList_eq_nil_iff.mp (List.suffix_nil.mp h)) hne
  · rw [List.concat_eq_append] at hlast
    rw [name, hlast, List.getLastD_concat] at h
    exact ⟨before, last, hlast, h⟩

theorem ends_ofText (hslash : '/' ∉ ending.toList) (hlong : 1 < ending.toList.length)
    (h : Text.endsWith s ending = true) : Text.endsWith (ofText s).name ending = true := by
  obtain ⟨before, last, hsplit, hlast⟩ :=
    Text.exists_last_of_suffix hslash (Text.endsWith_iff.mp h)
  -- the last piece is too long to be dropped
  have hlonger : 1 < last.length := lt_of_lt_of_le hlong hlast.length_le
  have hkept : String.ofList last ≠ "" ∧ String.ofList last ≠ "." := by
    constructor
    · intro heq
      have hnil : last = [] := by simpa using congrArg String.toList heq
      rw [hnil] at hlonger
      cases hlonger
    · intro heq
      have hdot : last = ['.'] := by simpa using congrArg String.toList heq
      rw [hdot] at hlonger
      exact lt_irrefl 1 hlonger
  have hnames : (ofText s).names =
      (before.map String.ofList).filter (fun n => n ≠ "" && n ≠ ".") ++ [String.ofList last] := by
    rw [ofText, namesOf, hsplit, List.map_append, List.filter_append]
    simp [hkept]
  rw [name, hnames, List.getLastD_concat, Text.endsWith_iff, String.toList_ofList]
  exact hlast

theorem ends_text (hne : ending ≠ "") (h : Text.endsWith p.name ending = true) :
    Text.endsWith p.text ending = true := by
  obtain ⟨before, last, hnames, hlast⟩ := exists_last hne h
  rw [Text.endsWith_iff] at hlast ⊢
  rw [text]
  split
  · rw [if_neg (by rw [hnames]; simp), hnames]
    exact hlast.trans (Text.suffix_join _ before last)
  · next written _ =>
    rw [hnames, ← List.cons_append]
    exact hlast.trans (Text.suffix_join _ (written :: before) last)
  · rw [hnames, String.toList_append]
    exact (hlast.trans (Text.suffix_join _ before last)).trans (List.suffix_append _ _)

theorem ends_join (hne : ending ≠ "") (h : Text.endsWith q.name ending = true) :
    Text.endsWith (p.join q).name ending = true := by
  obtain ⟨before, last, hnames, hlast⟩ := exists_last hne h
  rw [join]
  split
  · rw [name, hnames, ← List.append_assoc, List.getLastD_concat]
    exact hlast
  · exact h

/-- In the home directory of a user the last name is the same, unless the path is that directory:
then it is the name of the user that has the ending. -/
theorem ends_of_homeOf? {user : String} {home : List String} (hne : ending ≠ "")
    (htilde : ending.toList.head? ≠ some '~') (hhome : p.homeOf? = some user)
    (h : Text.endsWith p.name ending = true) :
    Text.endsWith (Path.mk .root (home ++ p.names.tail)).name ending = true ∨
      p.names.tail = [] ∧ Text.endsWith user ending = true := by
  obtain ⟨before, last, hnames, hlast⟩ := exists_last hne h
  cases before with
  | cons n before =>
    refine .inl ?_
    rw [hnames, List.cons_append, List.tail_cons, name, ← List.append_assoc, List.getLastD_concat]
    exact hlast
  | nil =>
    rw [List.nil_append] at hnames
    refine .inr ⟨by rw [hnames]; rfl, ?_⟩
    rw [homeOf?, hnames] at hhome
    split at hhome
    · next first _ _ heq =>
      obtain ⟨rfl, -⟩ := List.cons.inj heq
      split at hhome
      · next hstarts =>
        obtain rfl := Option.some.inj hhome
        obtain ⟨rest, hrest⟩ := Text.startsWith_iff.mp hstarts
        rw [Text.endsWith_iff, ← hrest] at hlast
        rw [Text.endsWith_iff, String.toList_ofList, ← hrest]
        rcases List.suffix_cons_iff.mp hlast with heq | hsuffix
        · exact absurd (congrArg List.head? heq) htilde
        · exact hsuffix
      · cases hhome
    · cases hhome

end Choicebook.Files.Path
