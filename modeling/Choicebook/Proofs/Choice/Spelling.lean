import Mathlib.Data.List.Forall2
import Mathlib.Data.List.Nodup
import Choicebook.Proofs.Choice.Load

/-!
# Spellings of stored names

The stored names of some fields have capitals inside: `commandId`, `runOnStartup`. Each has another
spelling with underscores, `Spelling.snake`, and a record may use either.

Which names these are depends on what a record is for (`Spelling.Role`), and so does what its fields
are for. `Spelling.Respelled` says that one value is another one in which some of the stored names,
wherever they occur, are spelled the other way. The payloads of templates, captures and assistants
have no stored names.

A record in another spelling has the same ordinary fields, and for each stored name the first field
with either spelling is the same (`Spelling.Respelling.first`).
-/

namespace Choicebook

namespace Spelling

/-! ### Names -/

/-- The other spelling of a stored name: each capital becomes a small letter with an underscore
before it. -/
def snake (name : String) : String :=
  String.ofList (name.toList.flatMap fun c => if c.isUpper then ['_', c.toLower] else [c])

/-- The stored names that have another spelling. -/
def storedNames : List String :=
  ["commandId", "choiceId", "editorCommandType", "thenCommands", "elseCommands", "filePath",
   "openInNewTab", "scriptPath", "exportName", "variableName", "valueType", "expectedValue",
   "runOnStartup", "macroId"]

/-- A name that is neither a stored name with another spelling nor such a spelling. -/
def Ordinary (n : String) : Prop := n ∉ storedNames ∧ n ∉ storedNames.map snake

instance (n : String) : Decidable (Ordinary n) := inferInstanceAs (Decidable (_ ∧ _))

/-- The other spellings, written out. -/
theorem map_snake_storedNames : storedNames.map snake =
    ["command_id", "choice_id", "editor_command_type", "then_commands", "else_commands",
     "file_path", "open_in_new_tab", "script_path", "export_name", "variable_name", "value_type",
     "expected_value", "run_on_startup", "macro_id"] := by
  decide +kernel

theorem snake_notMem_storedNames {n : String} (hn : n ∈ storedNames) : snake n ∉ storedNames := by
  have hother : ∀ other ∈ storedNames.map snake, other ∉ storedNames := by
    rw [map_snake_storedNames]
    decide +kernel
  exact hother _ (List.mem_map_of_mem hn)

theorem snake_injective {n c : String} (hn : n ∈ storedNames) (hc : c ∈ storedNames)
    (h : snake n = snake c) : n = c := by
  have hnodup : (storedNames.map snake).Nodup := by
    rw [map_snake_storedNames]
    decide +kernel
  exact List.inj_on_of_nodup_map hnodup hn hc h

/-- A name in the other spelling, if it is one of the chosen names. -/
def spell (chosen : List String) (n : String) : String :=
  if n ∈ chosen then snake n else n

/-- A key in the other spelling, if it is one of the chosen names. -/
def spellKey (chosen : List String) : Value → Value
  | .text n => .text (spell chosen n)
  | k => k

theorem spellKey_nil (k : Value) : spellKey [] k = k := by
  cases k with
  | text n => simp [spellKey, spell]
  | _ => rfl

theorem exists_of_spellKey_eq {chosen : List String} {k : Value} {n : String}
    (h : spellKey chosen k = .text n) : ∃ c, k = .text c ∧ spell chosen c = n := by
  cases k with
  | text c => exact ⟨c, rfl, Value.text.inj h⟩
  | _ => cases h

/-! ### What values are for -/

/-- What a value in a document is for. -/
inductive Role where
  | document
  | choice
  | body
  | command
  | condition
  | items (item : Role)
  /-- Anything else: a text, a payload, something that is not read. -/
  | data

namespace Role

/-- The stored names of the fields of a command, by its kind. -/
def ofCommand : String → List String
  | "Obsidian" => ["commandId"]
  | "Choice" => ["choiceId"]
  | "EditorCommand" => ["editorCommandType"]
  | "Conditional" => ["thenCommands", "elseCommands"]
  | "OpenFile" => ["filePath", "openInNewTab"]
  | _ => []

/-- The stored names of a record that have another spelling. -/
def names (role : Role) (m : Entries) : List String :=
  match role with
  | body => ["runOnStartup"]
  | condition => ["scriptPath", "exportName", "variableName", "valueType", "expectedValue"]
  | choice => if m.kind? Choice.kinds = some "Macro" then ["macroId"] else []
  | command => ((m.kind? Command.kinds).map ofCommand).getD []
  | _ => []

/-- The parts of a choice, by its kind. -/
def partsOfChoice : String → List (String × Role)
  | "Macro" => [("macro", body)]
  | "Multi" => [("choices", items choice)]
  | _ => []

/-- The parts of a command, by its kind. -/
def partsOfCommand : String → List (String × Role)
  | "NestedChoice" => [("choice", choice)]
  | "Conditional" =>
    [("condition", condition), ("thenCommands", items command), ("then_commands", items command),
     ("elseCommands", items command), ("else_commands", items command)]
  | _ => []

/-- The fields of a record that are for more than data. -/
def parts (role : Role) (m : Entries) : List (String × Role) :=
  match role with
  | document => [("choices", items choice), ("macros", items body)]
  | body => [("commands", items command)]
  | choice => ((m.kind? Choice.kinds).map partsOfChoice).getD []
  | command => ((m.kind? Command.kinds).map partsOfCommand).getD []
  | _ => []

/-- The names of fields that can be for more than data. -/
def partNames : List String :=
  ["choices", "macros", "commands", "macro", "choice", "condition", "thenCommands",
   "then_commands", "elseCommands", "else_commands"]

/-- No field that is for more than data and has one spelling only has a stored name. -/
theorem ordinary_parts :
    ∀ n ∈ ["choices", "macros", "commands", "macro", "choice", "condition"], Ordinary n := by
  simp only [Ordinary, map_snake_storedNames]
  decide +kernel

/-- Nor has any other field that is read and has one spelling only. -/
theorem ordinary_data :
    ∀ n ∈ ["type", "id", "name", "command", "mode", "operator", "direction", "collapsed",
      "settings"], Ordinary n ∧ n ∉ partNames := by
  simp only [Ordinary, map_snake_storedNames]
  decide +kernel

/-- What the field with a key is for. -/
def part (role : Role) (m : Entries) : (key : Value) → Role
  | .text n => ((role.parts m).lookup n).getD data
  | _ => data

/-- What the items of a list are for. A document can be a list of choices. -/
def item? : Role → Option Role
  | items item => some item
  | document => some choice
  | _ => none

private theorem ofCommand_subset (kind : String) : ∀ n ∈ ofCommand kind, n ∈ storedNames := by
  unfold ofCommand
  split <;> decide +kernel

theorem mem_storedNames {role : Role} {m : Entries} {n : String} (h : n ∈ role.names m) :
    n ∈ storedNames := by
  unfold names at h
  split at h
  · exact (by decide +kernel : ∀ n ∈ ["runOnStartup"], n ∈ storedNames) n h
  · exact (by decide +kernel : ∀ n ∈ ["scriptPath", "exportName", "variableName", "valueType",
      "expectedValue"], n ∈ storedNames) n h
  · split at h
    · exact (by decide +kernel : ∀ n ∈ ["macroId"], n ∈ storedNames) n h
    · cases h
  · cases hkind : m.kind? Command.kinds with
    | none =>
      rw [hkind] at h
      cases h
    | some kind =>
      rw [hkind] at h
      exact ofCommand_subset kind n h
  · cases h

private theorem partsOfChoice_subset (kind : String) :
    ∀ p ∈ partsOfChoice kind, p.1 ∈ partNames := by
  unfold partsOfChoice
  split <;> simp [partNames]

private theorem partsOfCommand_subset (kind : String) :
    ∀ p ∈ partsOfCommand kind, p.1 ∈ partNames := by
  unfold partsOfCommand
  split <;> simp [partNames]

theorem mem_partNames {role : Role} {m : Entries} {p : String × Role} (h : p ∈ role.parts m) :
    p.1 ∈ partNames := by
  unfold parts at h
  split at h
  · exact (by simp [partNames] : ∀ p ∈ [("choices", items choice), ("macros", items body)],
      p.1 ∈ partNames) p h
  · exact (by simp [partNames] : ∀ p ∈ [("commands", items command)], p.1 ∈ partNames) p h
  · cases hkind : m.kind? Choice.kinds with
    | none =>
      rw [hkind] at h
      cases h
    | some kind =>
      rw [hkind] at h
      exact partsOfChoice_subset kind p h
  · cases hkind : m.kind? Command.kinds with
    | none =>
      rw [hkind] at h
      cases h
    | some kind =>
      rw [hkind] at h
      exact partsOfCommand_subset kind p h
  · cases h

theorem part_of_notMem {role : Role} {m : Entries} {n : String} (h : n ∉ partNames) :
    role.part m (.text n) = data := by
  have hnone : (role.parts m).lookup n = none := by
    refine List.lookup_eq_none_iff.mpr fun p hp => ?_
    have hne : n ≠ p.1 := fun heq => h (heq ▸ mem_partNames hp)
    simpa using hne
  rw [part, hnone]
  rfl

end Role

/-- A value in which some of the stored names are spelled the other way, as far as the records that
have them do not use that spelling already. -/
inductive Respelled : Role → Value → Value → Prop
  | same (role : Role) (v : Value) : Respelled role v v
  | list {role item : Role} {xs ys : List Value} (hitem : role.item? = some item)
      (hlength : xs.length = ys.length) (h : ∀ x y, (x, y) ∈ xs.zip ys → Respelled item x y) :
      Respelled role (.list xs) (.list ys)
  | tuple {role item : Role} {xs ys : List Value} (hitem : role.item? = some item)
      (hlength : xs.length = ys.length) (h : ∀ x y, (x, y) ∈ xs.zip ys → Respelled item x y) :
      Respelled role (.tuple xs) (.tuple ys)
  | record {role : Role} {m m' : Entries} (chosen : List String)
      (hchosen : ∀ n ∈ chosen, n ∈ role.names m ∧ m.field? (snake n) = none)
      (hkeys : m'.map Prod.fst = m.map fun e => spellKey chosen e.1)
      (hvalues : ∀ e e', (e, e') ∈ m.zip m' → Respelled (role.part m e.1) e.2 e'.2) :
      Respelled role (.map m) (.map m')

/-! ### Fields in another spelling -/

/-- Two records with the same fields in the same order, apart from the spelling of the chosen names
and of what is inside of the fields. -/
def Alike (part : Value → Role) (chosen : List String) : Entries → Entries → Prop :=
  List.Forall₂ fun e e' => e'.1 = spellKey chosen e.1 ∧ Respelled (part e.1) e.2 e'.2

section

variable {part : Value → Role} {chosen : List String} {m m' : Entries} {n n' : String}

private theorem field?_cons_of_eq {k : Value} (hk : k = .text n) (v : Value) (m : Entries) :
    Entries.field? ((k, v) :: m) n = some v := by
  rw [Entries.field?, Entries.get?_cons, if_pos (Value.same_text_iff.mpr hk)]

private theorem field?_cons_of_ne {k : Value} (hk : k ≠ .text n) (v : Value) (m : Entries) :
    Entries.field? ((k, v) :: m) n = m.field? n := by
  rw [Entries.field?, Entries.get?_cons, if_neg (mt Value.same_text_iff.mp hk)]
  rfl

private theorem isSome_field?_cons (e : Value × Value) (h : (m.field? n).isSome) :
    (Entries.field? (e :: m) n).isSome := by
  by_cases hk : e.1 = .text n
  · rw [field?_cons_of_eq hk]
    rfl
  · rwa [field?_cons_of_ne hk]

/-- If just one name of the one record becomes a name, and does so wherever it stands, the two
names lead to fields that are alike. -/
theorem Alike.field (h : Alike part chosen m m')
    (hnames : ∀ c, (m.field? c).isSome → (spell chosen c = n' ↔ c = n)) :
    Option.Rel (Respelled (part (.text n))) (m.field? n) (m'.field? n') := by
  induction h with
  | nil => exact .none
  | @cons e e' m m' he hm ih =>
    obtain ⟨k, v⟩ := e
    obtain ⟨k', v'⟩ := e'
    obtain ⟨rfl, hv⟩ := he
    by_cases hk : k = .text n
    · subst hk
      have hsome : (Entries.field? ((.text n, v) :: m) n).isSome := by
        rw [field?_cons_of_eq rfl]
        rfl
      have hspell : spellKey chosen (.text n) = .text n' :=
        congrArg Value.text ((hnames n hsome).mpr rfl)
      rw [field?_cons_of_eq rfl, field?_cons_of_eq hspell]
      exact .some hv
    · have hspell : spellKey chosen k ≠ .text n' := by
        intro heq
        obtain ⟨c, rfl, hc⟩ := exists_of_spellKey_eq heq
        have hsome : (Entries.field? ((.text c, v) :: m) c).isSome := by
          rw [field?_cons_of_eq rfl]
          rfl
        exact hk (congrArg Value.text ((hnames c hsome).mp hc))
      rw [field?_cons_of_ne hk, field?_cons_of_ne hspell]
      -- a name of the rest is a name of the whole record, so the hypothesis still holds
      exact ih fun c hc => hnames c (isSome_field?_cons _ hc)

/-- A name that no name of the one record becomes is not in the other one. -/
theorem Alike.field_eq_none (h : Alike part chosen m m')
    (hnames : ∀ c, (m.field? c).isSome → spell chosen c ≠ n') : m'.field? n' = none := by
  induction h with
  | nil => rfl
  | @cons e e' m m' he hm ih =>
    obtain ⟨k, v⟩ := e
    obtain ⟨k', v'⟩ := e'
    obtain ⟨rfl, hv⟩ := he
    have hspell : spellKey chosen k ≠ .text n' := by
      intro heq
      obtain ⟨c, rfl, hc⟩ := exists_of_spellKey_eq heq
      refine hnames c ?_ hc
      rw [field?_cons_of_eq rfl]
      rfl
    rw [field?_cons_of_ne hspell]
    exact ih fun c hc => hnames c (isSome_field?_cons _ hc)

end

/-- A record in another spelling: some of its stored names that it does not spell both ways are
spelled the other way, and what is inside of its fields may be in another spelling. -/
structure Respelling (role : Role) (chosen : List String) (m m' : Entries) : Prop where
  names : ∀ n ∈ chosen, n ∈ role.names m ∧ m.field? (snake n) = none
  alike : Alike (role.part m) chosen m m'

theorem forall₂_of_keys {f : Value → Value} {R : Value × Value → Value × Value → Prop}
    {m m' : Entries} (hkeys : m'.map Prod.fst = m.map fun e => f e.1)
    (h : ∀ e e', (e, e') ∈ m.zip m' → R e e') :
    List.Forall₂ (fun e e' => e'.1 = f e.1 ∧ R e e') m m' := by
  have hkeys' : List.Forall₂ (· = ·) (m'.map Prod.fst) (m.map fun e => f e.1) :=
    hkeys ▸ List.forall₂_refl _
  have hzip := (List.forall₂_map_left_iff.mp (List.forall₂_map_right_iff.mp hkeys')).flip
  rw [List.forall₂_iff_zip] at hzip
  exact List.forall₂_iff_zip.mpr ⟨hzip.1, fun hmem => ⟨hzip.2 hmem, h _ _ hmem⟩⟩

theorem Respelled.exists_record {role : Role} {m : Entries} {w : Value}
    (h : Respelled role (.map m) w) :
    ∃ m' chosen, w = .map m' ∧ Respelling role chosen m m' := by
  cases h with
  | same =>
    refine ⟨m, [], rfl, List.forall_mem_nil _, ?_⟩
    exact List.forall₂_same.mpr fun e _ => ⟨(spellKey_nil e.1).symm, .same _ _⟩
  | @record _ _ m' chosen hchosen hkeys hvalues =>
    exact ⟨m', chosen, rfl, hchosen, forall₂_of_keys hkeys hvalues⟩

theorem Respelling.respelled {role : Role} {chosen : List String} {m m' : Entries}
    (h : Respelling role chosen m m') : Respelled role (.map m) (.map m') := by
  refine .record chosen h.names ?_ fun e e' hmem => ?_
  · rw [eq_comm, ← List.forall₂_eq_eq_eq, List.forall₂_map_left_iff, List.forall₂_map_right_iff]
    exact h.alike.imp fun _ _ he => he.1.symm
  · exact ((List.forall₂_iff_zip.mp h.alike).2 hmem).2

namespace Respelling

variable {role : Role} {chosen : List String} {m m' : Entries} {n : String}

/-- A field is in the same place if its name is not spelled another way and nothing else is spelled
like it. -/
theorem unchanged (h : Respelling role chosen m m') (hn : n ∉ chosen)
    (hsnake : ∀ c ∈ chosen, snake c ≠ n) :
    Option.Rel (Respelled (role.part m (.text n))) (m.field? n) (m'.field? n) := by
  refine h.alike.field fun c _ => ?_
  unfold spell
  split
  · next hc =>
    refine ⟨fun heq => absurd heq (hsnake c hc), ?_⟩
    rintro rfl
    exact absurd hc hn
  · exact Iff.rfl

/-- An ordinary field is in the same place. -/
theorem field (h : Respelling role chosen m m') (hn : Ordinary n) :
    Option.Rel (Respelled (role.part m (.text n))) (m.field? n) (m'.field? n) := by
  have hmem : ∀ c ∈ chosen, c ∈ storedNames := fun c hc => Role.mem_storedNames (h.names c hc).1
  refine h.unchanged (fun hc => hn.1 (hmem n hc)) fun c hc heq => hn.2 ?_
  exact heq ▸ List.mem_map_of_mem (hmem c hc)

/-- The first field with either spelling of a stored name is the same. -/
theorem first (h : Respelling role chosen m m') {other : String} (hn : n ∈ role.names m)
    (hspelling : snake n = other) (hpart : role.part m (.text other) = role.part m (.text n)) :
    Option.Rel (Respelled (role.part m (.text n))) (m.first? [n, other])
      (m'.first? [n, other]) := by
  subst hspelling
  have hstored := Role.mem_storedNames hn
  have hmem : ∀ c ∈ chosen, c ∈ storedNames := fun c hc => Role.mem_storedNames (h.names c hc).1
  have hne : ∀ c ∈ chosen, snake c ≠ n := fun c hc heq =>
    snake_notMem_storedNames (hmem c hc) (heq ▸ hstored)
  have hsnake : ∀ c ∈ chosen, snake c = snake n → c = n := fun c hc =>
    snake_injective (hmem c hc) hstored
  simp only [Entries.first?_cons, Entries.first?_nil, Option.or_none]
  by_cases hchosen : n ∈ chosen
  · -- the field is now where nothing was before, and nothing is where it was
    have habsent := (h.names n hchosen).2
    have hgone : m'.field? n = none := by
      refine h.alike.field_eq_none fun c _ => ?_
      unfold spell
      split
      · next hc => exact hne c hc
      · next hc => exact fun heq => hc (heq ▸ hchosen)
    rw [habsent, Option.or_none, hgone, Option.none_or]
    refine h.alike.field fun c hc => ?_
    unfold spell
    split
    · next hmemc => exact ⟨hsnake c hmemc, congrArg snake⟩
    · next hmemc =>
      constructor
      · rintro rfl
        rw [habsent] at hc
        cases hc
      · rintro rfl
        exact absurd hchosen hmemc
  · have hother : Option.Rel (Respelled (role.part m (.text (snake n)))) (m.field? (snake n))
        (m'.field? (snake n)) := by
      refine h.unchanged (fun hc => snake_notMem_storedNames hstored (hmem _ hc)) ?_
      exact fun c hc heq => hchosen (hsnake c hc heq ▸ hc)
    exact rel_or (h.unchanged hchosen hne) (hpart ▸ hother)

end Respelling

/-! ### What does not depend on the spelling -/

section

variable {role : Role} {v w : Value} {x y : Option Value}

private theorem part_data (m : Entries) (k : Value) : Role.part .data m k = .data := by
  cases k <;> rfl

private theorem eq_of_same {m m' : Entries}
    (h : List.Forall₂ (fun e e' => e'.1 = spellKey [] e.1 ∧ e'.2 = e.2) m m') : m' = m := by
  have heq : List.Forall₂ (· = ·) m' m := h.flip.imp fun e e' h =>
    Prod.ext (h.1.trans (spellKey_nil e'.1)) h.2
  rwa [List.forall₂_eq_eq_eq] at heq

/-- Nothing in data is a stored name. -/
theorem Respelled.eq_of_data (h : Respelled .data v w) : w = v := by
  generalize hdata : Role.data = role at h
  induction h with
  | same => rfl
  | list hitem =>
    subst hdata
    cases hitem
  | tuple hitem =>
    subst hdata
    cases hitem
  | @record _ m m' chosen hchosen hkeys hvalues ih =>
    subst hdata
    obtain rfl : chosen = [] := List.eq_nil_iff_forall_not_mem.mpr fun n hn =>
      List.not_mem_nil (hchosen n hn).1
    rw [eq_of_same (forall₂_of_keys hkeys fun e e' h => ih e e' h (part_data m e.1).symm)]

theorem eq_of_rel_data (h : Option.Rel (Respelled .data) x y) : y = x := by
  cases h with
  | none => rfl
  | some h => rw [h.eq_of_data]

theorem Respelled.isTruthy_eq (h : Respelled role v w) : w.isTruthy = v.isTruthy := by
  cases h with
  | same => rfl
  | @list _ _ xs ys _ hlength _ =>
    cases xs <;> cases ys <;> first | rfl | cases hlength
  | @tuple _ _ xs ys _ hlength _ =>
    cases xs <;> cases ys <;> first | rfl | cases hlength
  | @record _ m m' chosen hchosen hkeys hvalues =>
    cases m <;> cases m' <;> first | rfl | cases hkeys

private theorem depthAll_congr {xs ys : List Value}
    (h : List.Forall₂ (fun x y => y.depth = x.depth) xs ys) :
    Value.depthAll ys = Value.depthAll xs := by
  induction h with
  | nil => rfl
  | cons hxy _ ih => rw [Value.depthAll, Value.depthAll, hxy, ih]

private theorem depthEntries_congr {m m' : Entries}
    (h : List.Forall₂ (fun e e' => e'.2.depth = e.2.depth) m m') :
    Value.depthEntries m' = Value.depthEntries m := by
  induction h with
  | nil => rfl
  | cons hxy _ ih => rw [Value.depthEntries, Value.depthEntries, hxy, ih]

theorem Respelled.depth_eq (h : Respelled role v w) : w.depth = v.depth := by
  induction h with
  | same => rfl
  | list _ hlength _ ih =>
    rw [Value.depth, Value.depth, depthAll_congr (List.forall₂_iff_zip.mpr ⟨hlength, ih _ _⟩)]
  | tuple _ hlength _ ih =>
    rw [Value.depth, Value.depth, depthAll_congr (List.forall₂_iff_zip.mpr ⟨hlength, ih _ _⟩)]
  | record _ _ hkeys _ ih =>
    rw [Value.depth, Value.depth,
      depthEntries_congr ((forall₂_of_keys hkeys ih).imp fun _ _ h => h.2)]

/-- A field that is for data is the same. -/
theorem Respelling.field_eq {m m' : Entries} {chosen : List String} {n : String}
    (h : Respelling role chosen m m') (hn : Ordinary n ∧ n ∉ Role.partNames) :
    m'.field? n = m.field? n :=
  eq_of_rel_data (Role.part_of_notMem hn.2 ▸ h.field hn.1)

/-- The first field with either spelling of a stored name is the same, if it is for data. -/
theorem Respelling.first_eq {m m' : Entries} {chosen : List String} {n other : String}
    (h : Respelling role chosen m m') (hn : n ∈ role.names m)
    (hother : snake n = other ∧ n ∉ Role.partNames ∧ other ∉ Role.partNames) :
    m'.first? [n, other] = m.first? [n, other] := by
  obtain ⟨hspelling, hpart, hpart'⟩ := hother
  have hfirst := h.first hn hspelling
    ((Role.part_of_notMem hpart').trans (Role.part_of_notMem hpart).symm)
  rw [Role.part_of_notMem hpart] at hfirst
  exact eq_of_rel_data hfirst

/-- A record that has neither stored names nor parts is the same. -/
theorem Respelling.eq_of_bare {m m' : Entries} {chosen : List String}
    (h : Respelling role chosen m m') (hnames : role.names m = []) (hparts : role.parts m = []) :
    m' = m := by
  obtain rfl : chosen = [] := List.eq_nil_iff_forall_not_mem.mpr fun n hn =>
    List.not_mem_nil (hnames ▸ (h.names n hn).1)
  refine eq_of_same (h.alike.imp fun e e' he => ⟨he.1, Respelled.eq_of_data ?_⟩)
  have hpart : role.part m e.1 = .data := by
    cases hkey : e.1 with
    | text n => simp [Role.part, hparts]
    | _ => rfl
  exact hpart ▸ he.2

end

end Spelling

end Choicebook
