import Choicebook.Proofs.Choice.Stability

/-!
# The round trip of documents

What is stored of a document that was read can be read again, and storing it again gives the same
mapping (`Document.ofValue_plain_toValue`): no field of any kind of choice or command is lost,
renamed or given another default on the way. Reading it makes no ids and warns about nothing, so all
that a first reading had to add is in what is stored.

The readers give only stable things. This is an induction on the fuel, with one step for each of
the three readers that call each other; the step for a reader goes through its kinds and uses the
lemma about each (`Load.Gives.commandOf`, `Load.Gives.choiceOf`). A macro choice may get its macro
from the table of a document, so the macros of the table have to be stable to begin with: they are
read with an empty one.
-/

namespace Choicebook

open Encoding (plain plainField plainMap)
open Load (Gives Quiet)

/-! ### What is read can be read back -/

namespace Load

variable {readChoice : Value → Load Choice} {readCommand : Value → Load Command}
  {readMacro : Value → Load Macro}

/-- A conditional command has a name that counts as true. -/
theorem conditionalName_truthy (name : Value) : (conditionalName name).isTruthy = true := by
  rw [conditionalName]
  split
  · assumption
  · rfl

/-- Commands with a true id are stable if what is inside of them is. -/
theorem Gives.commandOf (hchoice : ∀ v, Gives (readChoice v) Choice.Stable)
    (hcommand : ∀ v, Gives (readCommand v) Command.Stable) (kind : String) (m : Entries)
    {head : CommandHead} (hid : head.id.isTruthy = true) :
    Gives (commandOf readChoice readCommand kind m head) Command.Stable := by
  unfold Load.commandOf
  split
  · exact (Gives.trivial _).bind fun id _ => Gives.pure (Command.stable_host hid id)
  · refine (Gives.trivial _).bind fun path _ => (Gives.trivial _).bind fun settings _ =>
      (Gives.trivial _).bind fun slot _ => ?_
    exact Gives.pure (Command.stable_script hid path settings slot)
  · exact (Gives.trivial _).bind fun id _ => Gives.pure (Command.stable_choice hid id)
  · split
    · exact Gives.pure (Command.stable_nested hid (by simp))
    · refine (hchoice _).bind fun c hc => Gives.pure (Command.stable_nested hid ?_)
      simpa using hc
  · exact (Gives.trivial _).bind fun time _ => Gives.pure (Command.stable_wait hid time)
  · refine (Gives.trivial _).bind fun label _ => ?_
    split
    · exact Gives.pure (Command.stable_editor hid _)
    · exact Gives.throw _
  · refine (Gives.trivial _).bind fun c _ => (Gives.listOf hcommand _).bind fun thens ht =>
      (Gives.listOf hcommand _).bind fun elses he => Gives.pure ?_
    have hname := conditionalName_truthy head.name
    exact Command.stable_conditional (h := ⟨conditionalName head.name, head.id⟩) hid hname c ht
      he
  · exact Gives.pure (Command.stable_assistant hid (Entries.Free.of_without m _))
  · exact (Gives.trivial _).bind fun path _ => Gives.pure (Command.stable_openFile hid path _ _)

variable {table : Table} (htable : ∀ e ∈ table, e.2.Stable)

include htable

/-- A macro that is found by its id is one of the table. -/
theorem Gives.namedMacro (name : Value) (m : Entries) :
    Gives (namedMacro table name m) fun body => ∀ b ∈ body, b.Stable := by
  unfold Load.namedMacro
  split
  · exact Gives.pure (by simp)
  · next id _ =>
    split
    · exact Gives.throw _
    · split
      · next b hb =>
        obtain ⟨e, he, rfl⟩ := Option.map_eq_some_iff.mp hb
        have hmem := List.mem_reverse.mp (List.mem_of_find?_eq_some he)
        refine Gives.pure ?_
        simpa using htable e hmem
      · exact (Gives.trivial _).bind fun _ _ => Gives.pure (by simp)

/-- Choices with a true id are stable if what is inside of them is. -/
theorem Gives.choiceOf (hmacros : ∀ v, Gives (readMacro v) Macro.Stable)
    (hchoice : ∀ v, Gives (readChoice v) Choice.Stable) (kind : String) (m : Entries)
    {head : ChoiceHead} (hid : head.id.isTruthy = true) :
    Gives (choiceOf table readMacro readChoice kind m head) Choice.Stable := by
  unfold Load.choiceOf
  split
  · split
    · refine (hmacros _).bind fun b hb => Gives.pure (Choice.stable_ofMacro hid ?_)
      simpa using hb
    · exact (Gives.namedMacro htable _ m).bind fun body hbody =>
        Gives.pure (Choice.stable_ofMacro hid hbody)
  · exact (Gives.listOf hchoice _).bind fun cs hcs => Gives.pure (Choice.stable_multi hid hcs _)
  · exact Gives.pure (Choice.stable_template hid (Entries.Free.of_without m _))
  · exact Gives.pure (Choice.stable_capture hid (Entries.Free.of_without m _))

/-- Whatever the three readers give is stable. -/
theorem gives_stable (fuel : Nat) :
    (∀ v, Gives (command table fuel v) Command.Stable) ∧
      (∀ v, Gives (macroOf table fuel v) Macro.Stable) ∧
        ∀ v, Gives (choice table fuel v) Choice.Stable := by
  induction fuel with
  | zero => exact ⟨fun _ => Gives.throw _, fun _ => Gives.throw _, fun _ => Gives.throw _⟩
  | succ fuel ih =>
    -- each reader passes on one step less, to itself and to the others
    obtain ⟨hcommand, hmacros, hchoice⟩ := ih
    refine ⟨fun v => ?_, fun v => ?_, fun v => ?_⟩
    · rw [command]
      refine (Gives.trivial _).bind fun m _ => ?_
      split
      · exact Gives.throw _
      · exact (Gives.idOf m).bind fun id hid => Gives.commandOf hchoice hcommand _ m hid
    · rw [macroOf]
      refine (Gives.trivial _).bind fun m _ => (Gives.idOf m).bind fun id hid => ?_
      exact (Gives.listOf hcommand _).bind fun cs hcs => Gives.pure (Macro.stable_mk hid _ hcs _)
    · rw [choice]
      refine (Gives.trivial _).bind fun m _ => ?_
      split
      · exact Gives.throw _
      · exact (Gives.idOf m).bind fun id hid => Gives.choiceOf htable hmacros hchoice _ m hid

end Load

/-! ### Documents -/

namespace Document

/-- Everything in the document is read back as something of which the same is stored. -/
structure Stable (d : Document) : Prop where
  macros : ∀ b ∈ d.macros, b.Stable
  choices : ∀ c ∈ d.choices, c.Stable

/-- What is read of a value is stable. -/
theorem ofValue_gives (v : Value) : Gives (ofValue v) Stable := by
  have hnone : ∀ e ∈ ([] : Load.Table), e.2.Stable := List.forall_mem_nil _
  unfold ofValue
  split
  · exact Gives.pure ⟨List.forall_mem_nil _, List.forall_mem_nil _⟩
  · have hchoice := (Load.gives_stable hnone (Value.depth (.list ‹_›))).2.2
    exact (Gives.mapM hchoice _).bind fun cs hcs => Gives.pure ⟨List.forall_mem_nil _, hcs⟩
  · next es =>
    have hmacros := (Load.gives_stable hnone (Value.map es).depth).2.1
    refine (Gives.listOf hmacros _).bind fun bs hbs => ?_
    split
    · exact Gives.throw _
    · have htable : ∀ e ∈ bs.map fun b => (b.id, b), e.2.Stable :=
        List.forall_mem_map.mpr hbs
      have hchoice := (Load.gives_stable htable (Value.map es).depth).2.2
      refine (Gives.listOf hchoice _).bind fun cs hcs => (Gives.trivial _).bind fun settings _ => ?_
      exact Gives.pure ⟨hbs, hcs⟩
  · exact Gives.throw _

/-- The id of a macro can be told from what is stored of it. -/
theorem id_of_stored_eq {b b' : Macro} (h : b'.stored = b.stored) :
    plain b'.id = plain b.id := by
  rw [Macro.stored_eq, Macro.stored_eq] at h
  simp only [Macro.fields, record, List.map_cons, Value.map.injEq, List.cons.injEq,
    Prod.mk.injEq, plainField] at h
  exact h.1.2

theorem id_of_stored_text {b b' : Macro} (h : b'.stored = b.stored) (hid : ∃ i, b.id = .text i) :
    b'.id = b.id := by
  obtain ⟨i, hi⟩ := hid
  have hplain : plain b'.id = .text i := by rw [id_of_stored_eq h, hi, Encoding.plain_text]
  rw [hi, Encoding.plain_eq_text.mp hplain]

/-- Macros with texts for ids can be kept in a table, and so can what is read back of them. -/
private theorem canBeKey_of_stored_eq {bs bs' : List Macro}
    (h : bs'.map Macro.stored = bs.map Macro.stored)
    (hids : ∀ b ∈ bs, ∃ s, b.id = .text s) : (bs'.any fun b => !b.id.canBeKey) = false := by
  rw [List.any_eq_false]
  intro b' hb'
  have hmem : b'.stored ∈ bs.map Macro.stored := h ▸ List.mem_map_of_mem hb'
  obtain ⟨b, hb, hstored⟩ := List.mem_map.mp hmem
  obtain ⟨s, hs⟩ := hids b hb
  rw [id_of_stored_text hstored.symm (hids b hb), hs]
  simp [Value.canBeKey]

/-- The fields of a document as they are stored. -/
theorem fields_map_plainField (d : Document) :
    d.fields.map plainField = ("choices", .list (d.choices.map Choice.stored))
      :: (if d.macros.isEmpty then [] else [("macros", .list (d.macros.map Macro.stored))])
      ++ (if d.settings.isEmpty then [] else [("settings", .map (plainMap d.settings))]) := by
  rw [fields, ← Choice.plain_list, ← Macro.plain_list, ← Encoding.plain_map]
  cases d.macros.isEmpty <;> cases d.settings.isEmpty <;> rfl

/-- The entries that are stored of a document. -/
def entries (d : Document) : Entries :=
  record (("choices", .list (d.choices.map Choice.stored))
    :: (if d.macros.isEmpty then [] else [("macros", .list (d.macros.map Macro.stored))])
    ++ (if d.settings.isEmpty then [] else [("settings", .map (plainMap d.settings))]))

theorem stored_eq_entries (d : Document) : d.stored = .map d.entries := by
  rw [stored_eq, fields_map_plainField, entries]

theorem entries_choices (d : Document) :
    d.entries.field? "choices" = some (.list (d.choices.map Choice.stored)) := by
  simp [entries]

theorem entries_field_macros (d : Document) : d.entries.field? "macros" =
    if d.macros.isEmpty then none else some (.list (d.macros.map Macro.stored)) := by
  rw [entries]
  cases d.macros.isEmpty <;> cases d.settings.isEmpty <;> simp

/-- Macros that are left out are read as none. -/
theorem entries_macros {d : Document} (hd : d.Stable) :
    Quiet (Load.listOf (Load.macroOf [] (Value.map d.entries).depth) (d.entries.field? "macros"))
      fun bs => bs.map Macro.stored = d.macros.map Macro.stored := by
  have hfield := d.entries_field_macros
  by_cases hnone : d.macros = []
  · rw [hfield, hnone]
    exact Quiet.pure rfl
  · rw [List.isEmpty_eq_false_iff.mpr hnone] at hfield
    rw [hfield]
    exact Load.ReadBack.listOf (fun b hb => hd.macros b hb []) hfield (Nat.le_succ _)

/-- Settings that are left out are read as none. -/
theorem entries_settings (d : Document) :
    Value.toEntriesIfAny (d.entries.field? "settings") = .ok (plainMap d.settings) := by
  have hfield : d.entries.field? "settings" =
      if d.settings.isEmpty then none else some (.map (plainMap d.settings)) := by
    rw [entries]
    cases d.macros.isEmpty <;> cases d.settings.isEmpty <;> simp
  rw [hfield]
  cases d.settings with
  | nil => rfl
  | cons e es => exact Value.toEntriesIfAny_map _

/-- What is stored of a stable document is read back as a document of which the same is stored. -/
theorem stored_quiet {d : Document} (hd : d.Stable)
    (hids : ∀ b ∈ d.macros, ∃ s, b.id = .text s) :
    Quiet (ofValue d.stored) fun d' => d'.stored = d.stored := by
  rw [stored_eq_entries]
  refine (entries_macros hd).bind fun bs hbs => ?_
  -- whatever macros the choices could name, none of those that are stored names one
  have hchoices := Load.ReadBack.listOf
    (fun c hc => hd.choices c hc (bs.map fun b => (b.id, b))) d.entries_choices (Nat.le_succ _)
  rw [canBeKey_of_stored_eq hbs hids]
  simp only [Bool.false_eq_true, if_false, entries_choices]
  refine hchoices.bind fun cs hcs => (Quiet.lift d.entries_settings rfl).bind fun es hes =>
    Quiet.pure ?_
  have hempty : bs.isEmpty = d.macros.isEmpty := by
    have hlist := congrArg List.isEmpty hbs
    rwa [List.isEmpty_map, List.isEmpty_map] at hlist
  subst hes
  rw [stored_eq_entries, entries, entries]
  simp only [hcs, hbs, hempty, Encoding.plainMap_isEmpty, Encoding.plainMap_plainMap]

/-- **Round trip.** Let a document be read from any value, and let `plain d.toValue` be what is
stored of it. Then that is read from any state, without a new id or a warning, as a document of
which the same is stored. Only the macros beside the choices need texts for ids: they are looked up
by them, and a tuple, which can be a key, is stored as a list, which cannot. -/
theorem ofValue_plain_toValue {v : Value} {d : Document} {r s : Reading}
    (hread : (ofValue v).runOn r = (.ok d, s)) (hids : ∀ b ∈ d.macros, ∃ i, b.id = .text i)
    (r' : Reading) :
    ∃ d' s', (ofValue (plain d.toValue)).runOn r' = (.ok d', s') ∧
      plain d'.toValue = plain d.toValue ∧ s'.ids = r'.ids ∧ s'.warnings = r'.warnings :=
  stored_quiet (ofValue_gives v r d s hread) hids r'

/-- A macro kept beside a choice without an id that names it. -/
def besideValue : Value :=
  .map (record [
    ("macros", .list [.map (record [("id", .text "m"), ("name", .text "Morning"),
      ("commands", .list [.map (record [("id", .text "w"), ("type", .text "Wait")])])])]),
    ("choices", .list [.map (record [("name", .text "Run"), ("type", .text "Macro"),
      ("macroId", .text "m")])])])

/-- The document that it is read as. -/
def beside : Document :=
  let wait := Command.wait ⟨.text "", .text "w"⟩ (.zero false)
  let morning := Macro.mk (.text "m") (.text "Morning") [wait] false
  ⟨[.ofMacro ⟨.text "Run", .text "new-1", false⟩ (some morning)], [morning], []⟩

theorem ofValue_plain_toValue_beside :
    (ofValue besideValue).runOn .start = (.ok beside, ⟨1, 0, []⟩) ∧
      (∀ b ∈ beside.macros, ∃ i, b.id = .text i) ∧
      ∃ d' s', (ofValue (plain beside.toValue)).runOn .start = (.ok d', s') ∧
        plain d'.toValue = plain beside.toValue ∧ s'.ids = 0 ∧ s'.warnings = [] := by
  have hread : (ofValue besideValue).runOn .start = (.ok beside, ⟨1, 0, []⟩) := by
    with_unfolding_all rfl
  have hids : ∀ b ∈ beside.macros, ∃ i, b.id = .text i := by
    simp [beside, Macro.id]
  exact ⟨hread, hids, ofValue_plain_toValue hread hids .start⟩

end Document

end Choicebook
