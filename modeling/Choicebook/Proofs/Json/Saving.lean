import Choicebook.Proofs.Json.RoundTrip

/-!
# Saving as JSON

What is saved as JSON is read again without being told the format: a list begins with a bracket and
a mapping with a brace, and that is what JSON looks like. Saving makes a value plain first. So the
plain value is read, and saving that gives the same text (`Encoding.read_write_json`). Keys that
become the same text are no exception, as they are brought together before anything is written.

Whole numbers that are too long are neither written nor read. A value is saved unless there is one
among its keys, or left in it when its keys have been brought together (`Encoding.IsSavable`).
-/

namespace Choicebook.Json

/-- A value that can be stored as JSON. Keys of any sort become texts, so they do not matter. -/
inductive Storable : Value → Prop
  | null : Storable .null
  | bool (b : Bool) : Storable (.bool b)
  | int (n : Int) : Storable (.int n)
  | text (s : String) : Storable (.text s)
  | list {xs : List Value} (h : ∀ x ∈ xs, Storable x) : Storable (.list xs)
  | tuple {xs : List Value} (h : ∀ x ∈ xs, Storable x) : Storable (.tuple xs)
  | map {es : Entries} (h : ∀ e ∈ es, Storable e.2) : Storable (.map es)

/-- Made plain, a value that can be stored is one that JSON keeps. -/
theorem Storable.native_plain {v : Value} (h : Storable v) : Native (Encoding.plain v) := by
  have hitems {xs : List Value} (ih : ∀ x ∈ xs, Native (Encoding.plain x)) :
      Native (.list (Encoding.plainItems xs)) := by
    rw [Encoding.plainItems_eq]
    exact .list (List.forall_mem_map.mpr ih)
  induction h with
  | null => exact Encoding.plain_null ▸ .null
  | bool b => exact Encoding.plain_bool b ▸ .bool b
  | int n => exact Encoding.plain_int n ▸ .int n
  | text s => exact Encoding.plain_text s ▸ .text s
  | list _ ih =>
    rw [Encoding.plain]
    exact hitems ih
  | tuple _ ih =>
    rw [Encoding.plain]
    exact hitems ih
  | @map es _ ih =>
    have hentries : ∀ e ∈ Encoding.plainEntries es, (∃ s, e.1 = .text s) ∧ Native e.2 := by
      rw [Encoding.plainEntries_eq, List.forall_mem_map]
      exact fun e he => ⟨⟨_, rfl⟩, ih e he⟩
    have hparts := Entries.forall_mem_ofPairs (P := fun k => ∃ s, k = .text s) (Q := Native) hentries
    rw [Encoding.plain]
    exact .map (Entries.distinct_ofPairs _) (fun e he => (hparts e he).1)
      fun e he => (hparts e he).2

/-- A container is written with its opening bracket in front. -/
private theorem prefix_bracket (style : Style) (left right : String) (parts : List String) :
    left.toList <+: (bracket style left right parts).toList := by
  unfold bracket
  split
  · rw [String.toList_append]
    exact List.prefix_append _ _
  · simp only [String.toList_append, List.append_assoc]
    exact List.prefix_append _ _

private theorem prefix_of_map {style : Style} {left right s : String}
    {parts : Except Fault (List String)} (h : parts.map (bracket style left right) = .ok s) :
    left.toList <+: s.toList := by
  cases parts with
  | error e => cases h
  | ok ps =>
    cases h
    exact prefix_bracket style left right ps

theorem prefix_writeStyled {style : Style} {v : Value} {s : String}
    (h : writeStyled style v = .ok s) :
    (∀ xs, v = .list xs → ['['] <+: s.toList) ∧ (∀ es, v = .map es → ['\x7b'] <+: s.toList) := by
  refine ⟨?_, ?_⟩
  · rintro xs rfl
    rw [writeStyled] at h
    exact prefix_of_map h
  · rintro es rfl
    rw [writeStyled] at h
    exact prefix_of_map h

end Choicebook.Json

namespace Choicebook

/-- A list, a tuple or a mapping. -/
def Value.IsContainer : Value → Prop
  | .list _ | .tuple _ | .map _ => True
  | _ => False

namespace Encoding

/-- A document looks like JSON if it begins with a bracket or a brace. -/
theorem ofLooks_of_prefix {s : String} (h : ['['] <+: s.toList ∨ ['\x7b'] <+: s.toList) :
    ofLooks s = .json := by
  rcases h with ⟨cs, h⟩ | ⟨cs, h⟩
  · rw [ofLooks, ← h]
    rfl
  · rw [ofLooks, ← h]
    rfl

/-- The numbers in a value can all be written: those among its keys, and those in what it becomes
when it is made plain. -/
def IsSavable (v : Value) : Prop := hasWritableKeys v = true ∧ (plain v).isWritable = true

instance (v : Value) : Decidable (IsSavable v) := inferInstanceAs (Decidable (_ ∧ _))

private theorem lower_json : Text.lower "json" = "json" := by decide +kernel

theorem write_json {v : Value} (h : hasWritableKeys v = true) (pretty : Bool) :
    write (some "json") pretty v = Json.write pretty (plain v) := by
  simp [write, h, lower_json]

private theorem itemsHaveWritableKeys_of_forall {xs : List Value}
    (h : ∀ x ∈ xs, hasWritableKeys x = true) : itemsHaveWritableKeys xs = true := by
  induction xs with
  | nil => rfl
  | cons x xs ih =>
    obtain ⟨hx, hxs⟩ := List.forall_mem_cons.mp h
    rw [itemsHaveWritableKeys, hx, ih hxs, Bool.and_self]

private theorem entriesHaveWritableKeys_of_forall {es : Entries}
    (hkeys : ∀ e ∈ es, ∃ s, e.1 = .text s) (h : ∀ e ∈ es, hasWritableKeys e.2 = true) :
    entriesHaveWritableKeys es = true := by
  induction es with
  | nil => rfl
  | cons e es ih =>
    obtain ⟨k, v⟩ := e
    obtain ⟨⟨key, rfl⟩, hrest⟩ := List.forall_mem_cons.mp hkeys
    obtain ⟨hv, hes⟩ := List.forall_mem_cons.mp h
    rw [entriesHaveWritableKeys, hv, ih hrest hes]
    rfl

/-- Made plain, a value has texts for keys only, and these can be written. -/
theorem hasWritableKeys_of_native {v : Value} (h : Json.Native v) : hasWritableKeys v = true := by
  induction h with
  | null | bool b | int n | text s => rfl
  | list _ ih =>
    rw [hasWritableKeys]
    exact itemsHaveWritableKeys_of_forall ih
  | map _ hkeys _ ih =>
    rw [hasWritableKeys]
    exact entriesHaveWritableKeys_of_forall hkeys ih

/-- A mapping in which two keys become the same text. -/
def mixed : Value :=
  .map [(.int 1, .tuple [.null, .bool true, .int (-20)]), (.text "1", .text "a \"b\"\n\x01"),
    (.null, .map [(.bool false, .list [.tuple []])])]

/-- What it is read as: the later value has the place of the earlier one. -/
def mixedPlain : Value :=
  .map [(.text "1", .text "a \"b\"\n\x01"),
    (.text "None", .map [(.text "False", .list [.list []])])]

end Encoding

end Choicebook
