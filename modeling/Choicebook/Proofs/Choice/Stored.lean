import Choicebook.Choice.Writer
import Choicebook.Proofs.Value.Plain
import Choicebook.Proofs.Value.Text

/-!
# Stored mappings

What is stored of a choice or a command is a mapping with fixed names (`record`), made plain. The
payload of a template, a capture or an assistant stands behind the head, under keys of its own
choosing: a payload has none of the names of the head, and since no key that is not a text is
written as one of them, it has none when its keys have become texts either
(`Entries.Free.plainEntries`). So the head can be read back, and what is left without its names is
the payload.
-/

namespace Choicebook

/-! ### Records -/

namespace Entries

@[simp]
theorem field?_nil (n : String) : field? [] n = none := rfl

@[simp]
theorem field?_record_nil (n : String) : field? (record []) n = none := rfl

@[simp]
theorem field?_record_cons (k : String) (v : Value) (fields : List (String × Value)) (n : String) :
    field? (record ((k, v) :: fields)) n = if k = n then some v else field? (record fields) n := by
  have hcons := get?_cons (.text k, v) (record fields) (.text n)
  simp only [Value.same_text_iff, Value.text.injEq] at hcons
  exact hcons

/-- In a record without repeated names, every field is found. -/
theorem field?_record_of_mem {fields : List (String × Value)} (h : (fields.map Prod.fst).Nodup)
    {n : String} {v : Value} (hmem : (n, v) ∈ fields) : field? (record fields) n = some v := by
  induction fields with
  | nil => cases hmem
  | cons f fields ih =>
    rw [List.map_cons, List.nodup_cons] at h
    rw [field?_record_cons]
    rcases List.mem_cons.mp hmem with rfl | hmem
    · exact if_pos rfl
    · have hne : f.1 ≠ n := fun heq => h.1 (heq ▸ List.mem_map_of_mem hmem)
      rw [if_neg hne, ih h.2 hmem]

@[simp]
theorem field?_append (m rest : Entries) (n : String) :
    field? (m ++ rest) n = (m.field? n).or (rest.field? n) := by
  simp only [field?, get?, List.find?_append, Option.map_or]

end Entries

private theorem distinct_record {fields : List (String × Value)}
    (h : (fields.map Prod.fst).Nodup) : (record fields).Distinct := by
  rw [Entries.Distinct, record, List.pairwise_map]
  refine (List.pairwise_map.mp h).imp fun hne => ?_
  rw [← Bool.not_eq_true, Value.same_text_iff, Value.text.injEq]
  exact hne

namespace Encoding

/-- What is stored of a mapping. -/
def plainMap (m : Entries) : Entries :=
  Entries.ofPairs (plainEntries m)

theorem plain_map (m : Entries) : plain (.map m) = .map (plainMap m) := by
  rw [plain, plainMap]

theorem plainMap_plain (m : Entries) : (plainMap m).Plain :=
  plain_ofPairs m

theorem plainMap_isEmpty (m : Entries) : (plainMap m).isEmpty = m.isEmpty := by
  rw [plainMap, Entries.ofPairs_isEmpty, plainEntries_eq, List.isEmpty_map]

/-- What is stored of a mapping is stored as it is. -/
@[simp]
theorem plainMap_plainMap (m : Entries) : plainMap (plainMap m) = plainMap m := by
  have h := plainMap_plain m
  rw [plainMap, h.plainEntries, Entries.ofPairs_eq h.distinct]

/-- A field of a record as it is stored. -/
def plainField (f : String × Value) : String × Value := (f.1, plain f.2)

private theorem plainEntries_record (fields : List (String × Value)) :
    plainEntries (record fields) = record (fields.map plainField) := by
  rw [plainEntries_eq, record, record, List.map_map, List.map_map]
  rfl

theorem names_plainField (fields : List (String × Value)) :
    (fields.map plainField).map Prod.fst = fields.map Prod.fst :=
  List.map_map

/-- A record is stored field by field. -/
theorem plain_record {fields : List (String × Value)} (h : (fields.map Prod.fst).Nodup) :
    plain (.map (record fields)) = .map (record (fields.map plainField)) := by
  rw [plain_map, plainMap, plainEntries_record]
  rw [Entries.ofPairs_eq (distinct_record (by rwa [names_plainField]))]

/-- In what is stored of a record, every field is found as it is stored. -/
theorem field?_plainField {fields : List (String × Value)} (h : (fields.map Prod.fst).Nodup)
    {n : String} {v : Value} (hmem : (n, v) ∈ fields) (rest : Entries) :
    Entries.field? (record (fields.map plainField) ++ rest) n = some (plain v) := by
  have hnames : ((fields.map plainField).map Prod.fst).Nodup := by
    rwa [names_plainField]
  have hmem' : (n, plain v) ∈ fields.map plainField := List.mem_map_of_mem (f := plainField) hmem
  rw [Entries.field?_append, Entries.field?_record_of_mem hnames hmem', Option.some_or]

end Encoding

/-! ### Payloads -/

/-- No key of a mapping is one of the names. -/
def Entries.Free (names : List String) (m : Entries) : Prop :=
  ∀ e ∈ m, ∀ n ∈ names, e.1 ≠ .text n

namespace Entries.Free

variable {names : List String} {m : Entries}

theorem of_without (m : Entries) (names : List String) : Free names (m.without names) := by
  intro e he n hn heq
  have hkeep := (List.mem_filter.mp he).2
  rw [Bool.not_eq_true', ← Bool.not_eq_true, List.any_eq_true] at hkeep
  exact hkeep ⟨n, hn, Value.same_text_iff.mpr heq⟩

/-- Leaving out names that are not there changes nothing. -/
theorem without_eq (h : Free names m) : m.without names = m := by
  refine List.filter_eq_self.mpr fun e he => ?_
  rw [Bool.not_eq_true', ← Bool.not_eq_true, List.any_eq_true]
  rintro ⟨n, hn, hsame⟩
  exact h e he n hn (Value.same_text_iff.mp hsame)

/-- Without the names of the head, what stands behind it is left. -/
theorem without_record_append (h : Free names m) {fields : List (String × Value)}
    (hfields : fields.map Prod.fst ⊆ names) : (record fields ++ m).without names = m := by
  have hnone : (record fields).without names = [] := by
    refine List.filter_eq_nil_iff.mpr fun e he => ?_
    obtain ⟨f, hf, rfl⟩ := List.mem_map.mp he
    rw [Bool.not_eq_true, Bool.not_eq_false', List.any_eq_true]
    exact ⟨f.1, hfields (List.mem_map_of_mem hf), Value.same_text_iff.mpr rfl⟩
  have hrest := h.without_eq
  rw [Entries.without] at hnone hrest ⊢
  rw [List.filter_append, hnone, hrest, List.nil_append]

theorem ofPairs (h : Free names m) : Free names (Entries.ofPairs m) := fun e he =>
  (Entries.forall_mem_ofPairs (P := fun k => ∀ n ∈ names, k ≠ .text n) (Q := fun _ => True)
    (fun e' he' => ⟨h e' he', trivial⟩) e he).1

/-- Keys that become texts do not become names of the head. -/
theorem plainEntries (h : Free names m) (hnames : names ⊆ Value.headNames) :
    Free names (Encoding.plainEntries m) := by
  rw [Encoding.plainEntries_eq]
  intro e he n hn
  obtain ⟨e', he', rfl⟩ := List.mem_map.mp he
  rw [Ne, Value.text.injEq]
  -- a text stays the text it is, and anything else has a text that is no name
  by_cases htext : ∃ s, e'.1 = .text s
  · obtain ⟨s, hs⟩ := htext
    intro hdisplay
    rw [hs] at hdisplay
    exact h e' he' n hn (hs.trans (congrArg Value.text hdisplay))
  · exact Value.display_not_head (fun s hs => htext ⟨s, hs⟩) (hnames hn)

/-- A payload goes behind the head. -/
private theorem update_record {fields : List (String × Value)}
    (h : Free (fields.map Prod.fst) m) :
    Entries.update (record fields) m = record fields ++ Entries.ofPairs m := by
  refine Entries.update_eq_append fun e he e' he' => ?_
  obtain ⟨f, hf, rfl⟩ := List.mem_map.mp he
  rw [← Bool.not_eq_true, Value.text_same_iff]
  exact h e' he' f.1 (List.mem_map_of_mem hf)

end Entries.Free

namespace Encoding

/-- What is stored of a payload. -/
def plainPayload (payload : Entries) : Entries :=
  plainMap (Entries.ofPairs payload)

@[simp]
theorem plainPayload_nil : plainPayload [] = [] := rfl

/-- What is stored of a payload is stored as it is. -/
theorem plainPayload_plainPayload (payload : Entries) :
    plainPayload (plainPayload payload) = plainPayload payload := by
  have hdistinct : (plainPayload payload).Distinct := (plainMap_plain _).distinct
  rw [plainPayload, Entries.ofPairs_eq hdistinct, plainPayload, plainMap_plainMap]

/-- The head is stored field by field, and the payload behind it. -/
theorem plain_update_record {fields : List (String × Value)} {payload : Entries}
    (hnodup : (fields.map Prod.fst).Nodup) (hhead : fields.map Prod.fst ⊆ Value.headNames)
    (hfree : Entries.Free (fields.map Prod.fst) payload) :
    plain (.map (Entries.update (record fields) payload)) =
      .map (record (fields.map plainField) ++ plainPayload payload) := by
  have hfree' : Entries.Free ((fields.map plainField).map Prod.fst)
      (plainEntries (Entries.ofPairs payload)) := by
    rw [names_plainField]
    exact hfree.ofPairs.plainEntries hhead
  have hdistinct : (record (fields.map plainField)).Distinct :=
    distinct_record (by rwa [names_plainField])
  -- making plain goes entry by entry, so it can be done to the head and the payload apart
  have hsplit : plainEntries (record fields ++ Entries.ofPairs payload) =
      record (fields.map plainField) ++ plainEntries (Entries.ofPairs payload) := by
    rw [plainEntries_eq, List.map_append, ← plainEntries_eq, ← plainEntries_eq,
      plainEntries_record]
  rw [hfree.update_record, plain_map, plainMap, hsplit, Entries.ofPairs_append,
    Entries.ofPairs_eq hdistinct, hfree'.update_record, plainPayload, plainMap]

/-- What is stored of a payload has none of the names of the head. -/
theorem plainPayload_free {names : List String} {payload : Entries}
    (h : Entries.Free names payload) (hnames : names ⊆ Value.headNames) :
    Entries.Free names (plainPayload payload) :=
  (h.ofPairs.plainEntries hnames).ofPairs

/-- Reading leaves out the names of the head and has the payload again. -/
theorem without_plainPayload {names : List String} {payload : Entries}
    (h : Entries.Free names payload) (hnames : names ⊆ Value.headNames)
    {fields : List (String × Value)} (hfields : fields.map Prod.fst ⊆ names) :
    Entries.without (record (fields.map plainField) ++ plainPayload payload) names =
      plainPayload payload := by
  refine (plainPayload_free h hnames).without_record_append ?_
  rwa [names_plainField]

end Encoding

end Choicebook
