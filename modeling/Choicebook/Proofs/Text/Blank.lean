import Choicebook.Text.Blank
import Mathlib.Data.List.DropRight

/-!
# Blanks at the ends of a text

What `Text.strip` takes off a text and what it leaves: the text is what is left between blanks
(`Text.exists_strip_between`), what is left has no blank at either end (`Text.trimmed_strip`), and
blanks put around a text make no difference (`Text.strip_between`). Nothing is left exactly of a
text that is all blanks.
-/

namespace Choicebook.Text

variable {before cs after : List Char}

/-- There are only blanks. -/
def AllBlank (cs : List Char) : Prop :=
  ∀ c ∈ cs, isBlank c = true

instance : Decidable (AllBlank cs) :=
  decidable_of_iff (cs.all isBlank = true) List.all_eq_true

/-- There is no blank at either end. -/
structure Trimmed (cs : List Char) : Prop where
  front : ∀ c ∈ cs.head?, isBlank c = false
  back : ∀ c ∈ cs.getLast?, isBlank c = false

theorem trimmed_iff : Trimmed cs ↔
    (∀ c ∈ cs.head?, isBlank c = false) ∧ ∀ c ∈ cs.getLast?, isBlank c = false :=
  ⟨fun h => ⟨h.front, h.back⟩, fun h => ⟨h.1, h.2⟩⟩

instance : Decidable (Trimmed cs) :=
  decidable_of_iff (cs.head?.all (!isBlank ·) = true ∧ cs.getLast?.all (!isBlank ·) = true) <| by
    simp only [trimmed_iff, Option.all_eq_true, Option.mem_def, Bool.not_eq_true']

/-! ### What stripping keeps -/

private theorem stripFront_eq_self (h : ∀ c ∈ cs.head?, isBlank c = false) :
    stripFront cs = cs := by
  cases cs with
  | nil => rfl
  | cons c cs => exact List.dropWhile_cons_of_neg (by rw [h c rfl]; exact Bool.false_ne_true)

private theorem stripBack_eq_self (h : ∀ c ∈ cs.getLast?, isBlank c = false) :
    stripBack cs = cs := by
  have hreverse : stripFront cs.reverse = cs.reverse :=
    stripFront_eq_self (by rwa [List.head?_reverse])
  rw [stripBack, ← stripFront, hreverse, List.reverse_reverse]

/-- A text without blanks at its ends stays as it is. -/
theorem Trimmed.strip_eq (h : Trimmed cs) : strip cs = cs := by
  rw [strip, stripFront_eq_self h.front, stripBack_eq_self h.back]

private theorem strip_prefix_stripFront (cs : List Char) : strip cs <+: stripFront cs :=
  List.rdropWhile_prefix isBlank (stripFront cs)

/-- What is stripped off are blanks. -/
theorem exists_strip_between (cs : List Char) :
    ∃ before after, cs = before ++ strip cs ++ after ∧ AllBlank before ∧ AllBlank after := by
  have hback : strip cs ++ (stripFront cs).rtakeWhile isBlank = stripFront cs :=
    List.rdropWhile_append_rtakeWhile ..
  refine ⟨cs.takeWhile isBlank, (stripFront cs).rtakeWhile isBlank, ?_, ?_, ?_⟩
  · rw [List.append_assoc, hback]
    exact List.takeWhile_append_dropWhile.symm
  · exact fun c hc => List.mem_takeWhile_imp hc
  · exact fun c hc => List.mem_rtakeWhile_imp hc

/-- Stripping leaves no blank at the ends. -/
theorem trimmed_strip (cs : List Char) : Trimmed (strip cs) where
  front := by
    intro c hc
    obtain ⟨rest, hrest⟩ := strip_prefix_stripFront cs
    obtain ⟨tail, htail⟩ := List.head?_eq_some_iff.mp hc
    have hhead : (cs.dropWhile isBlank).head? = some c := by
      rw [← stripFront, ← hrest, htail]
      rfl
    simpa only [hhead] using List.head?_dropWhile_not isBlank cs
  back := by
    intro c hc
    obtain ⟨hne, rfl⟩ := List.mem_getLast?_eq_getLast hc
    rw [← Bool.not_eq_true]
    exact List.rdropWhile_last_not isBlank (stripFront cs) hne

theorem strip_strip (cs : List Char) : strip (strip cs) = strip cs :=
  (trimmed_strip cs).strip_eq

/-- Trimming again changes nothing. -/
theorem trim_trim (s : String) : trim (trim s) = trim s := by
  rw [trim, trim, String.toList_ofList, strip_strip]

theorem trim_empty : trim "" = "" := by decide +kernel

/-! ### Blanks alone and around a text -/

/-- Nothing is left of blanks, and only of them. -/
theorem strip_eq_nil_iff : strip cs = [] ↔ AllBlank cs := by
  constructor
  · intro h c hc
    have hrest : AllBlank (stripFront cs) := List.rdropWhile_eq_nil_iff.mp h
    rw [← List.takeWhile_append_dropWhile (p := isBlank) (l := cs)] at hc
    rcases List.mem_append.mp hc with hfront | hback
    · exact List.mem_takeWhile_imp hfront
    · exact hrest c hback
  · intro h
    have hfront : stripFront cs = [] := List.dropWhile_eq_nil_iff.mpr h
    rw [strip, hfront]
    rfl

private theorem stripBack_append (h : AllBlank after) : stripBack (cs ++ after) = stripBack cs := by
  have hreverse : ∀ c ∈ after.reverse, isBlank c = true := fun c hc => h c (List.mem_reverse.mp hc)
  rw [stripBack, List.reverse_append, List.dropWhile_append_of_pos hreverse, stripBack]

/-- Blanks around a text make no difference to what is left of it. -/
theorem strip_between (hbefore : AllBlank before) (hafter : AllBlank after) :
    strip (before ++ cs ++ after) = strip cs := by
  have hfront : stripFront (before ++ cs ++ after) = stripFront (cs ++ after) := by
    rw [List.append_assoc]
    exact List.dropWhile_append_of_pos hbefore
  rw [strip, hfront, stripFront, List.dropWhile_append]
  split
  · next hcs =>
    -- there is nothing but blanks, so the two have no end to keep
    rw [List.dropWhile_eq_nil_iff.mpr hafter, strip, stripFront, List.isEmpty_iff.mp hcs]
  · exact stripBack_append hafter

end Choicebook.Text
