import Mathlib.Data.List.Infix
import Choicebook.Files.Tree

/-!
# Line breaks

A text that is read from a file has newlines as its only line breaks. A text without carriage
returns is read as it is stored. With carriage returns it is not kept: what is stored is neither in
front of anything that begins with what is read (`Tree.prefix_normalBreaks_iff`), nor at the end of
anything that ends with what is read on a line of its own (`Tree.suffix_normalBreaks_iff`).
-/

namespace Choicebook.Files

/-- The characters that a file stores, unless its bytes are malformed. -/
def Body.stored? : Body → Option (List Char)
  | .text s => some s.toList
  | .bytes bs => Text.decodeUtf8? bs
  | .script f => some f.source.toList

namespace Tree

/-- The text of a file is what it stores, with other line breaks. -/
theorem readText_eq_ok {t : Tree} {p : Path} {l : Location} {body : Body} {text : String}
    (hfind : t.find p = .file l body) (h : t.readText p = .ok text) :
    ∃ old, body.stored? = some old ∧ text.toList = normalBreaks old := by
  rw [readText, read, hfind] at h
  dsimp only [bind, Except.bind] at h
  cases body with
  | text s =>
    cases h
    exact ⟨_, rfl, String.toList_ofList⟩
  | script f =>
    cases h
    exact ⟨_, rfl, String.toList_ofList⟩
  | bytes bs =>
    dsimp only at h
    split at h
    · next cs hcs =>
      cases h
      exact ⟨cs, hcs, String.toList_ofList⟩
    · cases h

/-! ### Carriage returns -/

variable {cs rest : List Char}

theorem normalBreaks_eq_self (h : '\r' ∉ cs) : normalBreaks cs = cs := by
  fun_induction normalBreaks cs with
  | case1 => exact absurd List.mem_cons_self h
  | case2 => exact absurd List.mem_cons_self h
  | case3 c cs _ _ ih => rw [ih fun hmem => h (List.mem_cons_of_mem _ hmem)]
  | case4 => rfl

theorem not_mem_normalBreaks (cs : List Char) : '\r' ∉ normalBreaks cs := by
  fun_induction normalBreaks cs with
  | case1 cs ih => simpa using ih
  | case2 cs _ ih => simpa using ih
  | case3 c cs _ hc ih =>
    rw [List.mem_cons, not_or]
    exact ⟨fun heq => hc heq.symm, ih⟩
  | case4 => exact List.not_mem_nil

theorem normalBreaks_eq_nil_iff : normalBreaks cs = [] ↔ cs = [] := by
  fun_cases normalBreaks cs <;> simp

/-- A break begins at a carriage return, whatever comes before it. -/
private theorem normalBreaks_append_cons (cs rest : List Char) :
    normalBreaks (cs ++ '\r' :: rest) = normalBreaks cs ++ normalBreaks ('\r' :: rest) := by
  fun_induction normalBreaks cs with
  | case1 cs ih => simpa [normalBreaks] using ih
  | case2 cs hcs ih =>
    have hnext : ∀ ds, cs ++ '\r' :: rest = '\n' :: ds → False := by
      intro ds heq
      cases cs with
      | nil => exact absurd (List.cons.inj heq).1 (by decide)
      | cons c cs => exact hcs cs (by rw [(List.cons.inj heq).1])
    rw [List.cons_append, normalBreaks.eq_2 _ hnext, ih]
    rfl
  | case3 c cs h hc ih =>
    rw [List.cons_append, normalBreaks.eq_3 c _ (fun ds h _ => hc h) hc, ih]
    rfl
  | case4 => rfl

/-- What is stored is in front of what is read only without carriage returns. -/
theorem prefix_normalBreaks_iff : cs <+: normalBreaks cs ++ rest ↔ '\r' ∉ cs := by
  constructor
  · intro h
    fun_induction normalBreaks cs with
    | case1 cs ih => exact absurd (List.cons_prefix_cons.mp h).1 (by decide)
    | case2 cs _ ih => exact absurd (List.cons_prefix_cons.mp h).1 (by decide)
    | case3 c cs _ hc ih =>
      rw [List.mem_cons, not_or]
      exact ⟨fun heq => hc heq.symm, ih (List.cons_prefix_cons.mp h).2⟩
    | case4 => exact List.not_mem_nil
  · intro h
    rw [normalBreaks_eq_self h]
    exact List.prefix_append cs rest

private theorem exists_last_return (h : '\r' ∈ cs) :
    ∃ before after, cs = before ++ '\r' :: after ∧ '\r' ∉ after := by
  obtain ⟨after, before, heq, hafter⟩ := List.eq_append_cons_of_mem (List.mem_reverse.mpr h)
  refine ⟨before.reverse, after.reverse, ?_, fun hmem => hafter (List.mem_reverse.mp hmem)⟩
  rw [← List.reverse_reverse cs, heq, List.reverse_append, List.reverse_cons, List.append_assoc]
  rfl

/-- What is stored is at the end of what is read only without carriage returns, if the text before
it ends with a newline. -/
theorem suffix_normalBreaks_iff {front : List Char} (hfront : front.getLast? = some '\n') :
    cs <:+ front ++ normalBreaks cs ↔ '\r' ∉ cs := by
  constructor
  · intro h hmem
    obtain ⟨before, after, rfl, hafter⟩ := exists_last_return hmem
    have hend : '\r' :: after <:+ front ++ normalBreaks (before ++ '\r' :: after) :=
      (List.suffix_append _ _).trans h
    rw [normalBreaks_append_cons, ← List.append_assoc] at hend
    by_cases hnext : ∃ rest, after = '\n' :: rest
    · obtain ⟨rest, rfl⟩ := hnext
      rw [normalBreaks, normalBreaks_eq_self fun hmem => hafter (List.mem_cons_of_mem _ hmem)]
        at hend
      -- what is in front of the newline ends with something else than a carriage return
      have hreturn : ['\r'] <:+ front ++ normalBreaks before :=
        ((List.suffix_append_inj_of_length_eq  rfl).mp hend).1
      have hlast : (front ++ normalBreaks before).getLast? = some '\r' := by
        obtain ⟨text, htext⟩ := hreturn
        rw [← htext, List.getLast?_concat]
      rw [List.getLast?_append, hfront] at hlast
      cases hbreak : (normalBreaks before).getLast? with
      | none =>
        rw [hbreak] at hlast
        exact absurd hlast (by decide)
      | some c =>
        rw [hbreak] at hlast
        cases hlast
        exact not_mem_normalBreaks before (List.mem_of_getLast? hbreak)
    · have hreturn := normalBreaks.eq_2 after fun rest heq => hnext ⟨rest, heq⟩
      rw [hreturn, normalBreaks_eq_self hafter] at hend
      have hlength : ('\r' :: after).length = ('\n' :: after).length := rfl
      have heq := ((List.suffix_append_inj_of_length_eq hlength).mp
        (show [] ++ '\r' :: after <:+ _ from hend)).2
      exact absurd (List.cons.inj heq).1 (by decide)
  · intro h
    rw [normalBreaks_eq_self h]
    exact List.suffix_append front cs

end Tree

end Choicebook.Files
