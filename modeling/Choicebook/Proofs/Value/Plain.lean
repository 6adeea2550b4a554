import Choicebook.Encoding
import Choicebook.Proofs.Value.Entries

/-!
# Plain values

`Encoding.plain` turns tuples into lists and keys into texts. What it makes is plain for good: doing
it again changes nothing (`Encoding.plain_plain`).

For a mapping this needs its keys apart. Two keys of different sorts can have the same text, so
making the keys texts can merge entries, and it is `Entries.ofPairs` that keeps the outcome a
mapping: it changes nothing about entries whose keys are distinct already (`Entries.ofPairs_eq`).
-/

namespace Choicebook

namespace Value

theorem text_same_iff {s : String} {k : Value} : (text s).same k = true ↔ k = .text s := by
  cases k <;> simp [same, eq_comm]

theorem same_text_iff {k : Value} {s : String} : k.same (.text s) = true ↔ k = .text s := by
  cases k <;> simp [same, number?]

end Value

namespace Entries

/-! ### Adding entries with new keys -/

/-- A new key goes to the end, past everything that does not have it. -/
theorem insert_append {m : Entries} {k : Value} (h : ∀ e ∈ m, e.1.same k = false) (v : Value)
    (rest : Entries) : insert k v (m ++ rest) = m ++ insert k v rest := by
  induction m with
  | nil => rfl
  | cons a m ih =>
    rw [List.forall_mem_cons] at h
    rw [List.cons_append, insert, if_neg (by simp [h.1]), ih h.2, List.cons_append]

/-- An update leaves a front alone that has none of its keys. -/
theorem update_append {m extra : Entries} (h : ∀ e ∈ m, ∀ e' ∈ extra, e.1.same e'.1 = false)
    (rest : Entries) : update (m ++ rest) extra = m ++ update rest extra := by
  -- the front stays as it is while the rest grows, so the rest has to vary
  induction extra generalizing rest with
  | nil => rfl
  | cons e extra ih =>
    have hhead : ∀ a ∈ m, a.1.same e.1 = false := fun a ha => h a ha e List.mem_cons_self
    have htail : ∀ a ∈ m, ∀ e' ∈ extra, a.1.same e'.1 = false :=
      fun a ha e' he' => h a ha e' (List.mem_cons_of_mem _ he')
    change update (insert e.1 e.2 (m ++ rest)) extra = m ++ update (insert e.1 e.2 rest) extra
    rw [insert_append hhead, ih htail]

theorem update_eq_append {m extra : Entries}
    (h : ∀ e ∈ m, ∀ e' ∈ extra, e.1.same e'.1 = false) :
    update m extra = m ++ ofPairs extra := by
  have happ := update_append h []
  rwa [List.append_nil] at happ

theorem update_of_distinct {m extra : Entries} (h : Distinct (m ++ extra)) :
    update m extra = m ++ extra := by
  induction extra generalizing m with
  | nil => exact (List.append_nil m).symm
  | cons e extra ih =>
    have hnew : ∀ a ∈ m, a.1.same e.1 = false := fun a ha =>
      (List.pairwise_append.mp h).2.2 a ha e List.mem_cons_self
    have hstep : insert e.1 e.2 m = m ++ [e] := by
      have happ := insert_append hnew e.2 []
      rwa [List.append_nil] at happ
    change update (insert e.1 e.2 m) extra = m ++ e :: extra
    rw [hstep, ih (by rwa [List.append_assoc]), List.append_assoc, List.singleton_append]

/-- Distinct entries are a mapping as they are. -/
theorem ofPairs_eq {m : Entries} (h : Distinct m) : ofPairs m = m :=
  update_of_distinct (m := []) h

theorem ofPairs_append (pairs extra : Entries) :
    ofPairs (pairs ++ extra) = update (ofPairs pairs) extra :=
  List.foldl_append

theorem distinct_ofPairs (pairs : Entries) : Distinct (ofPairs pairs) :=
  distinct_nil.update pairs

/-! ### What an update brings together -/

section Parts

variable {P Q : Value → Prop} {m extra : Entries}

private theorem forall_mem_insert (hm : ∀ e ∈ m, P e.1 ∧ Q e.2) {k v : Value} (hk : P k)
    (hv : Q v) : ∀ e ∈ insert k v m, P e.1 ∧ Q e.2 := by
  induction m with
  | nil => simpa [insert] using ⟨hk, hv⟩
  | cons a m ih =>
    rw [List.forall_mem_cons] at hm
    rw [insert]
    split
    · exact List.forall_mem_cons.mpr ⟨⟨hm.1.1, hv⟩, hm.2⟩
    · exact List.forall_mem_cons.mpr ⟨hm.1, ih hm.2⟩

/-- Keys and values come from the mapping or from the update, though not always in pairs. -/
theorem forall_mem_update (hm : ∀ e ∈ m, P e.1 ∧ Q e.2) (he : ∀ e ∈ extra, P e.1 ∧ Q e.2) :
    ∀ e ∈ update m extra, P e.1 ∧ Q e.2 := by
  induction extra generalizing m with
  | nil => exact hm
  | cons e extra ih =>
    rw [List.forall_mem_cons] at he
    exact ih (forall_mem_insert hm he.1.1 he.1.2) he.2

theorem forall_mem_ofPairs (he : ∀ e ∈ extra, P e.1 ∧ Q e.2) :
    ∀ e ∈ ofPairs extra, P e.1 ∧ Q e.2 :=
  forall_mem_update (List.forall_mem_nil _) he

end Parts

theorem insert_ne_nil (k v : Value) (m : Entries) : insert k v m ≠ [] := by
  cases m with
  | nil => exact List.cons_ne_nil _ _
  | cons a m => rw [insert]; split <;> exact List.cons_ne_nil _ _

theorem update_ne_nil {m : Entries} (h : m ≠ []) (extra : Entries) : update m extra ≠ [] := by
  induction extra generalizing m with
  | nil => exact h
  | cons e extra ih => exact ih (insert_ne_nil e.1 e.2 m)

theorem ofPairs_isEmpty (pairs : Entries) : (ofPairs pairs).isEmpty = pairs.isEmpty := by
  cases pairs with
  | nil => rfl
  | cons e pairs =>
    have hne : ofPairs (e :: pairs) ≠ [] := update_ne_nil (insert_ne_nil e.1 e.2 []) pairs
    rw [List.isEmpty_eq_false_iff.mpr hne, List.isEmpty_cons]

end Entries

namespace Encoding

/-! ### Plain values -/

theorem plainItems_eq (xs : List Value) : plainItems xs = xs.map plain := by
  induction xs with
  | nil => rfl
  | cons x xs ih => rw [plainItems, ih, List.map_cons]

theorem plainEntries_eq (es : Entries) :
    plainEntries es = es.map fun e => (.text e.1.display, plain e.2) := by
  induction es with
  | nil => rfl
  | cons e es ih => rw [plainEntries, ih, List.map_cons]

end Encoding

/-- A mapping that making it plain leaves alone: distinct texts for keys, and plain values. -/
structure Entries.Plain (m : Entries) : Prop where
  distinct : m.Distinct
  key : ∀ e ∈ m, ∃ s, e.1 = .text s
  value : ∀ e ∈ m, Encoding.plain e.2 = e.2

namespace Entries.Plain

theorem plainEntries {m : Entries} (h : m.Plain) : Encoding.plainEntries m = m := by
  rw [Encoding.plainEntries_eq]
  refine (List.map_congr_left fun e he => ?_).trans (List.map_id m)
  obtain ⟨s, hs⟩ := h.key e he
  rw [h.value e he, hs]
  exact Prod.ext hs.symm rfl

theorem plain_map {m : Entries} (h : m.Plain) : Encoding.plain (.map m) = .map m := by
  rw [Encoding.plain, h.plainEntries, Entries.ofPairs_eq h.distinct]

end Entries.Plain

namespace Encoding

/-- Plain entries make a plain mapping. -/
private theorem plain_ofPairs_of {es : Entries} (h : ∀ e ∈ es, plain (plain e.2) = plain e.2) :
    (Entries.ofPairs (plainEntries es)).Plain := by
  -- merging entries takes keys and values from different ones, so they are looked at apart
  have hentries : ∀ e ∈ plainEntries es, (∃ s, e.1 = .text s) ∧ plain e.2 = e.2 := by
    rw [plainEntries_eq, List.forall_mem_map]
    exact fun e he => ⟨⟨_, rfl⟩, h e he⟩
  have hparts := Entries.forall_mem_ofPairs (P := fun k => ∃ s, k = .text s)
    (Q := fun v => plain v = v) hentries
  exact ⟨Entries.distinct_ofPairs _, fun e he => (hparts e he).1, fun e he => (hparts e he).2⟩

@[simp]
theorem plain_null : plain .null = .null := by rw [plain] <;> simp

@[simp]
theorem plain_bool (b : Bool) : plain (.bool b) = .bool b := by rw [plain] <;> simp

@[simp]
theorem plain_int (n : Int) : plain (.int n) = .int n := by rw [plain] <;> simp

@[simp]
theorem plain_float (x : Double) : plain (.float x) = .float x := by rw [plain] <;> simp

@[simp]
theorem plain_text (s : String) : plain (.text s) = .text s := by rw [plain] <;> simp

mutual

/-- **Plain for good.** What is plain is left alone. -/
@[simp]
theorem plain_plain : ∀ v : Value, plain (plain v) = plain v
  | .list xs | .tuple xs => by
    rw [plain, plain, plainItems_eq, plainItems_eq, List.map_map]
    exact congrArg Value.list (List.map_congr_left (plain_plain_items xs))
  | .map es => by
    rw [plain]
    exact (plain_ofPairs_of (plain_plain_entries es)).plain_map
  | .null | .bool _ | .int _ | .float _ | .text _ | .bytes _ | .date _ | .time _ | .dateTime _
  | .set _ | .object _ | .library _ | .kind _ | .function .. => by simp only [plain]

theorem plain_plain_items : ∀ xs : List Value, ∀ x ∈ xs, plain (plain x) = plain x
  | [] => List.forall_mem_nil _
  | x :: xs => List.forall_mem_cons.mpr ⟨plain_plain x, plain_plain_items xs⟩

theorem plain_plain_entries :
    ∀ es : List (Value × Value), ∀ e ∈ es, plain (plain e.2) = plain e.2
  | [] => List.forall_mem_nil _
  | (_, v) :: es => List.forall_mem_cons.mpr ⟨plain_plain v, plain_plain_entries es⟩

end

theorem plain_ofPairs (es : Entries) : (Entries.ofPairs (plainEntries es)).Plain :=
  plain_ofPairs_of (plain_plain_entries es)

/-- Only a text is made a text. -/
theorem plain_eq_text {v : Value} {s : String} : plain v = .text s ↔ v = .text s := by
  cases v <;> simp [plain]

@[simp]
theorem isTruthy_plain (v : Value) : (plain v).isTruthy = v.isTruthy := by
  cases v with
  | list xs | tuple xs => simp [plain, plainItems_eq, Value.isTruthy]
  | map es => simp [plain, plainEntries_eq, Value.isTruthy, Entries.ofPairs_isEmpty]
  | _ => simp only [plain]

end Encoding

end Choicebook
