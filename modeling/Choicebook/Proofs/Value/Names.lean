import Choicebook.Proofs.Value.Plain
import Mathlib.Data.List.Perm.Basic

/-!
# Mappings of names

Variables are kept under names: the keys of the mapping are texts, and each is there once. Two such
mappings that give every name the same value can differ in the order of their entries, and then they
are the same to whatever asks for a variable by its name. `Entries.Alike` is this equality. Setting
variables keeps it (`Entries.Alike.insert`, `Entries.Alike.update`).

A mapping that has all the names of another one prevails over it in an update:
`Entries.Covers.alike`.
-/

namespace Choicebook

namespace Entries

/-- All keys are texts. -/
def Texts (m : Entries) : Prop :=
  ∀ e ∈ m, ∃ name, e.1 = .text name

/-- The keys are names: texts, none of them twice. -/
structure Named (m : Entries) : Prop where
  distinct : m.Distinct
  texts : m.Texts

/-- Two mappings of names to the same values. -/
structure Alike (m n : Entries) : Prop where
  left : m.Named
  right : n.Named
  field? : ∀ name, m.field? name = n.field? name

/-- The first mapping has all the names that the second one has. -/
def Covers (m n : Entries) : Prop :=
  ∀ name, m.field? name = none → n.field? name = none

/-! ### The value of a name -/

theorem field?_insert (m : Entries) (name : String) (v : Value) (other : String) :
    field? (insert (.text name) v m) other = if name = other then some v else m.field? other := by
  rw [field?, get?_insert m v rfl]
  simp only [Value.same_text_iff, Value.text.injEq]
  rfl

theorem field?_update (m : Entries) {extra : Entries} (h : extra.Distinct) (name : String) :
    (m.update extra).field? name = (extra.field? name).or (m.field? name) :=
  get?_update m h rfl

/-- The same update of two mappings with the same values, whatever keys it sets. -/
theorem field?_update_congr {m n : Entries} (h : ∀ name, m.field? name = n.field? name)
    (extra : Entries) (name : String) :
    (m.update extra).field? name = (n.update extra).field? name := by
  induction extra generalizing m n with
  | nil => exact h name
  | cons e extra ih =>
    refine ih (m := m.insert e.1 e.2) (n := n.insert e.1 e.2) fun other => ?_
    have hm : m.get? (.text other) = n.get? (.text other) := h other
    rw [field?, field?, get?_insert m e.2 rfl, get?_insert n e.2 rfl, hm]

/-- The names of a mapping are those that have a value. -/
theorem mem_names_iff {m : Entries} {name : String} :
    name ∈ m.filterMap (·.1.asText?) ↔ m.field? name ≠ none := by
  have hkey : ∀ k : Value, k.asText? = some name ↔ k.same (.text name) = true := by
    intro k
    rw [Value.same_text_iff]
    cases k <;> simp [Value.asText?]
  rw [field?, get?, Ne, Option.map_eq_none_iff, List.find?_eq_none]
  simp [hkey]

/-- In a mapping without repeated keys, a name has the value that is stored under it. -/
theorem Distinct.field?_eq_some_iff {m : Entries} (hm : m.Distinct) {name : String} {v : Value} :
    m.field? name = some v ↔ (.text name, v) ∈ m := by
  rw [field?, hm.get?_eq_some_iff rfl]
  constructor
  · rintro ⟨e, he, hkey, rfl⟩
    rw [Value.same_text_iff] at hkey
    rwa [← hkey]
  · intro h
    exact ⟨_, h, Value.same_text_iff.mpr rfl, rfl⟩

/-! ### Mappings of names -/

theorem named_nil : Named [] := ⟨distinct_nil, List.forall_mem_nil _⟩

theorem Texts.insert {m : Entries} (h : m.Texts) (name : String) (v : Value) :
    Texts (Entries.insert (.text name) v m) := by
  induction m with
  | nil => exact List.forall_mem_singleton.mpr ⟨name, rfl⟩
  | cons e m ih =>
    obtain ⟨he, hm⟩ := List.forall_mem_cons.mp h
    rw [Entries.insert]
    split
    · exact List.forall_mem_cons.mpr ⟨he, hm⟩
    · exact List.forall_mem_cons.mpr ⟨he, ih hm⟩

theorem Named.insert {m : Entries} (h : m.Named) (name : String) (v : Value) :
    Named (Entries.insert (.text name) v m) :=
  ⟨h.distinct.insert _ _, h.texts.insert name v⟩

theorem Named.update {m extra : Entries} (h : m.Named) (hextra : extra.Texts) :
    (m.update extra).Named := by
  induction extra generalizing m with
  | nil => exact h
  | cons e extra ih =>
    obtain ⟨⟨name, he⟩, hextra⟩ := List.forall_mem_cons.mp hextra
    exact ih (m := m.insert e.1 e.2) (he ▸ h.insert name e.2) hextra

/-- An entry that is there already changes nothing, if its key is the same as itself. -/
theorem Distinct.insert_of_mem {m : Entries} (h : m.Distinct) {e : Value × Value} (he : e ∈ m)
    (hsame : e.1.same e.1 = true) : m.insert e.1 e.2 = m := by
  induction h with
  | nil => cases he
  | @cons a m ha hm ih =>
    rw [Entries.insert]
    rcases List.mem_cons.mp he with rfl | he
    · rw [if_pos hsame]
    · rw [if_neg (by rw [ha e he]; exact Bool.false_ne_true), ih he]

theorem Distinct.update_self {m : Entries} (h : m.Distinct)
    (hsame : ∀ e ∈ m, e.1.same e.1 = true) : m.update m = m := by
  have hkept : ∀ extra : Entries, (∀ e ∈ extra, e ∈ m) → m.update extra = m := by
    intro extra hextra
    induction extra with
    | nil => rfl
    | cons e extra ih =>
      obtain ⟨he, hextra⟩ := List.forall_mem_cons.mp hextra
      rw [Entries.update, List.foldl_cons, h.insert_of_mem he (hsame e he)]
      exact ih hextra
  exact hkept m fun _ he => he

/-- The names of a mapping, each once. -/
theorem Named.nodup {m : Entries} (h : m.Named) : (m.filterMap (·.1.asText?)).Nodup := by
  refine List.Pairwise.filterMap _ (fun e e' hne name hname name' hname' heq => ?_) h.distinct
  have hkey : ∀ {k : Value} {name : String}, k.asText? = some name → k = .text name := by
    intro k name hk
    cases k <;> cases hk
    rfl
  rw [hkey hname, hkey hname', heq, ← Bool.not_eq_true, Value.same_text_iff] at hne
  exact hne rfl

/-- All keys of a mapping of names are names. -/
theorem Named.length_names {m : Entries} (h : m.Named) :
    (m.filterMap (·.1.asText?)).length = m.length := by
  rw [List.filterMap_length_eq_length]
  intro e he
  obtain ⟨name, hname⟩ := h.texts e he
  rw [hname]
  rfl

/-! ### Mappings to the same values -/

theorem Named.alike {m : Entries} (h : m.Named) : m.Alike m := ⟨h, h, fun _ => rfl⟩

namespace Alike

variable {m n k : Entries}

theorem symm (h : m.Alike n) : n.Alike m := ⟨h.right, h.left, fun name => (h.field? name).symm⟩

theorem trans (h : m.Alike n) (g : n.Alike k) : m.Alike k :=
  ⟨h.left, g.right, fun name => (h.field? name).trans (g.field? name)⟩

theorem insert (h : m.Alike n) (name : String) (v : Value) :
    Alike (Entries.insert (.text name) v m) (Entries.insert (.text name) v n) :=
  ⟨h.left.insert name v, h.right.insert name v, fun other => by
    rw [field?_insert, field?_insert, h.field?]⟩

theorem update (h : m.Alike n) {extra extra' : Entries} (he : extra.Alike extra') :
    (m.update extra).Alike (n.update extra') :=
  ⟨h.left.update he.left.texts, h.right.update he.right.texts, fun name => by
    rw [field?_update _ he.left.distinct, field?_update _ he.right.distinct, h.field?, he.field?]⟩

/-- The same entries may be set in both, even if a name is among them twice. -/
theorem update_texts (h : m.Alike n) {extra : Entries} (he : extra.Texts) :
    (m.update extra).Alike (n.update extra) := by
  induction extra generalizing m n with
  | nil => exact h
  | cons e extra ih =>
    obtain ⟨⟨name, hname⟩, he⟩ := List.forall_mem_cons.mp he
    refine ih (m := m.insert e.1 e.2) (n := n.insert e.1 e.2) ?_ he
    rw [hname]
    exact h.insert name e.2

theorem covers (h : m.Alike n) : m.Covers n := fun name hname => by rw [← h.field?, hname]

/-- The same names are in both. -/
theorem names_perm (h : m.Alike n) :
    (m.filterMap (·.1.asText?)).Perm (n.filterMap (·.1.asText?)) :=
  (List.perm_ext_iff_of_nodup h.left.nodup h.right.nodup).mpr fun name => by
    rw [mem_names_iff, mem_names_iff, h.field?]

end Alike

/-! ### Mappings with the names of others -/

namespace Covers

variable {m n k : Entries}

theorem refl (m : Entries) : m.Covers m := fun _ h => h

theorem trans (h : m.Covers n) (g : n.Covers k) : m.Covers k := fun name hm => g name (h name hm)

theorem insert (h : m.Covers n) (name : String) (v : Value) :
    Covers (Entries.insert (.text name) v m) n := by
  intro other hother
  rw [field?_insert] at hother
  split at hother
  · cases hother
  · exact h other hother

/-- More names come with an update, and none goes. -/
theorem update (h : m.Covers n) (extra : Entries) : (m.update extra).Covers n :=
  fun name hname => h name (get?_of_get?_update_eq_none rfl hname).2

/-- What is set has the names that are set. -/
theorem of_update (m extra : Entries) : (m.update extra).Covers extra :=
  fun _ hname => (get?_of_get?_update_eq_none rfl hname).1

/-- Where all names are set anew, nothing is left of what was there before. -/
theorem alike (h : m.Covers n) (hm : m.Named) (hn : n.Named) : (n.update m).Alike m := by
  refine ⟨hn.update hm.texts, hm, fun name => ?_⟩
  rw [field?_update _ hm.distinct]
  cases hname : m.field? name with
  | none => rw [h name hname, Option.none_or]
  | some v => rw [Option.some_or]

end Covers

end Entries

end Choicebook
