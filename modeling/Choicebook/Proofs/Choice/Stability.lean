import Choicebook.Proofs.Choice.Layout
import Choicebook.Proofs.Choice.Load

/-!
# What is stored can be read back

A choice, a macro or a command is *stable* if what is stored of it is read back, quietly, as
something of which the same is stored. Not every tree is stable: the id has to count as true, or
reading makes another; so has the name of a conditional command, or reading gives it one; and a
payload must not have a key that is a name of the head. Nothing else can go wrong, whatever values
stand in the other fields, and for each kind there is a lemma that says so.

A lemma about a kind shows that its reader, given the entries that are stored, returns a thing with
the same kind, the same head and the same fields (`Command.Repeats`, `Choice.Repeats`), all as they
are stored. Since storing twice is storing once, that is the same when stored.
-/

namespace Choicebook

open Encoding (plain plainField plainMap plainPayload plain_map)
open Load (Gives Quiet)

/-! ### Names of things

An operator and a value type are kept as they were written, and an action is known by its label.
-/

theorem Operator.toValue_ofValue (v : Value) : (ofValue v).toValue = v := by
  unfold ofValue
  split
  · next s =>
    split
    · next t ht => exact congrArg Value.text (by simpa using List.find?_some ht)
    · rfl
  · rfl

theorem ValueType.toValue_ofValue (v : Value) : (ofValue v).toValue = v := by
  unfold ofValue
  split <;> rfl

theorem EditorAction.ofText?_label (a : EditorAction) : ofText? a.label = some a := by
  cases a <;> decide +kernel

/-! ### Conditions -/

namespace Condition

theorem stored_truthy (c : Condition) : c.stored.isTruthy = true := by
  rw [stored_eq]
  cases c <;> rfl

/-- What is stored of a condition is read back as a condition of which the same is stored. -/
theorem stored_read (c : Condition) :
    ∃ c', Load.condition c.stored = .ok c' ∧ c'.stored = c.stored := by
  rw [stored_eq]
  cases c with
  | onVariable c =>
    obtain ⟨subject, operator, valueType, expected⟩ := c
    refine ⟨.onVariable ⟨subject, .ofValue (plain operator.toValue),
      .ofValue (plain valueType.toValue), expected⟩, ?_, ?_⟩
    · cases expected <;>
        simp [Load.condition, Value.fields, fields, plainField, bind, Except.bind, pure,
          Except.pure, Option.filter_some, Value.isNull]
    · rw [stored_eq]
      cases expected <;>
        simp [fields, plainField, Operator.toValue_ofValue, ValueType.toValue_ofValue]
  | byScript path member =>
    by_cases h : member.isTruthy = true
    · refine ⟨.byScript path (plain member), ?_, ?_⟩
      · simp [Load.condition, Value.fields, fields, plainField, bind, Except.bind, h]
      · rw [stored_eq]
        simp [fields, plainField, h]
    · -- a member that counts as false is left out, and null is what is read without it
      refine ⟨.byScript path .null, ?_, ?_⟩
      · simp [Load.condition, Value.fields, fields, plainField, bind, Except.bind, h]
      · rw [stored_eq]
        simp [fields, plainField, h]

end Condition

/-! ### Stability -/

/-- What is stored of the command is read back as a command of which the same is stored. -/
def Command.Stable (c : Command) : Prop :=
  ∀ table, Load.ReadBack (Load.command table) Command.stored c

/-- What is stored of the macro is read back as a macro of which the same is stored. -/
def Macro.Stable (b : Macro) : Prop :=
  ∀ table, Load.ReadBack (Load.macroOf table) Macro.stored b

/-- What is stored of the choice is read back as a choice of which the same is stored. -/
def Choice.Stable (c : Choice) : Prop :=
  ∀ table, Load.ReadBack (Load.choice table) Choice.stored c

theorem Choice.stored_truthy (c : Choice) : c.stored.isTruthy = true := by
  have hne : Entries.update (record c.fields) c.payload ≠ [] :=
    Entries.update_ne_nil (List.cons_ne_nil _ _) c.payload
  rw [stored, Encoding.isTruthy_plain, toValue_eq, Value.isTruthy,
    List.isEmpty_eq_false_iff.mpr hne, Bool.not_false]

theorem Macro.stored_truthy (b : Macro) : b.stored.isTruthy = true := by
  rw [stored_eq]
  rfl

/-- What counts as true is not taken for missing. -/
private theorem filter_truthy {v : Value} (h : v.isTruthy = true) :
    (some v).filter Value.isTruthy = some v := by
  rw [Option.filter_some, if_pos h]

/-! ### Commands -/

namespace Command

theorem kind_mem (c : Command) : c.kind ∈ kinds := by
  cases c <;> simp [kind, kinds]

/-- The entries that are stored of a command. -/
def entries (c : Command) : Entries :=
  record (c.fields.map plainField) ++ plainPayload c.payload

/-- Every field of the command is found among the entries, as it is stored. -/
theorem entries_field {c : Command} {n : String} {v : Value} (h : (n, v) ∈ c.fields) :
    c.entries.field? n = some (plain v) :=
  Encoding.field?_plainField c.fields_nodup h _

theorem entries_headed {c : Command} (hid : c.id.isTruthy = true) :
    c.entries.Headed c.kind c.head.plain.name c.head.plain.id where
  type_eq := by
    rw [← Encoding.plain_text]
    exact entries_field (by simp [fields])
  name_eq := entries_field (v := c.name) (by simp [fields])
  id_eq := entries_field (v := c.id) (by simp [fields])
  truthy := (Encoding.isTruthy_plain c.id).trans hid

/-- The second command is stored the same as the first, its head being as it is stored. -/
structure Repeats (c c' : Command) : Prop where
  head : c'.head = c.head.plain
  kind : c'.kind = c.kind
  own : c'.ownFields.map plainField = c.ownFields.map plainField
  free : Entries.Free headNames c'.payload
  payload : plainPayload c'.payload = plainPayload c.payload

theorem Repeats.stored_eq {c c' : Command} (h : c.Repeats c')
    (hfree : Entries.Free headNames c.payload) : c'.stored = c.stored := by
  rw [Command.stored_eq hfree, Command.stored_eq h.free, h.payload]
  simp only [fields, List.map_cons, h.own, h.kind, id, name, h.head, plainField,
    CommandHead.plain, Encoding.plain_plain]

/-- A command is stable if the reader of its kind repeats it. -/
theorem stable_of {c : Command} (hid : c.id.isTruthy = true)
    (hfree : Entries.Free headNames c.payload)
    (hread : ∀ table fuel, (Value.map c.entries).depth ≤ fuel + 1 →
      Quiet (Load.commandOf (Load.choice table fuel) (Load.command table fuel) c.kind c.entries
        c.head.plain) c.Repeats) : c.Stable := by
  refine fun table => Load.ReadBack.of_succ fun fuel hfuel => ?_
  have hstored : c.stored = .map c.entries := stored_eq hfree
  rw [hstored] at hfuel
  rw [hstored, Load.command_headed table fuel (entries_headed hid) c.kind_mem, ← hstored]
  exact (hread table fuel hfuel).mono fun c' h => h.stored_eq hfree

section Kinds

variable {h : CommandHead} (hid : h.id.isTruthy = true)

include hid

theorem stable_host (s : String) : (host h s).Stable := by
  refine stable_of hid (List.forall_mem_nil _) fun table fuel _ => ?_
  have hcommand : (host h s).entries.firstText ["commandId", "command_id"] "" = .ok s := by
    simp [entries, fields, ownFields, plainField]
  rw [kind, Load.commandOf.eq_def]
  refine (Quiet.lift hcommand rfl).bind fun _ heq => Quiet.pure ?_
  exact ⟨rfl, rfl, by rw [ownFields, ownFields, heq], List.forall_mem_nil _, rfl⟩

theorem stable_choice (s : String) : (choice h s).Stable := by
  refine stable_of hid (List.forall_mem_nil _) fun table fuel _ => ?_
  have hchoice : (choice h s).entries.firstText ["choiceId", "choice_id"] "" = .ok s := by
    simp [entries, fields, ownFields, plainField]
  rw [kind, Load.commandOf.eq_def]
  refine (Quiet.lift hchoice rfl).bind fun _ heq => Quiet.pure ?_
  exact ⟨rfl, rfl, by rw [ownFields, ownFields, heq], List.forall_mem_nil _, rfl⟩

theorem stable_script (path : String) (settings : Entries) (slot : Nat) :
    (script h path settings slot).Stable := by
  refine stable_of hid (List.forall_mem_nil _) fun table fuel _ => ?_
  have hsettings : Value.toEntriesIfAny ((script h path settings slot).entries.field? "settings") =
      .ok (plainMap settings) := by
    simp [entries, fields, ownFields, plainField, plain_map, Value.toEntriesIfAny_map]
  have hpath : (script h path settings slot).entries.firstText ["path"] "" = .ok path := by
    simp [entries, fields, ownFields, plainField]
  rw [kind, Load.commandOf.eq_def]
  -- the slot is a new one, and is not stored
  refine (Quiet.lift hpath rfl).bind fun _ hpath => (Quiet.lift hsettings rfl).bind fun _ hes =>
    Quiet.newSlot.bind fun _ _ => ?_
  subst hpath hes
  refine Quiet.pure ⟨rfl, rfl, ?_, List.forall_mem_nil _, rfl⟩
  simp [ownFields, plainField, plain_map]

theorem stable_wait (time : Double) : (wait h time).Stable := by
  refine stable_of hid (List.forall_mem_nil _) fun table fuel _ => ?_
  have htime : Value.toFloat (((wait h time).entries.field? "time").getD (.int 0)) = .ok time := by
    simp [entries, fields, ownFields, plainField, Value.toFloat]
  rw [kind, Load.commandOf.eq_def]
  refine (Quiet.lift htime rfl).bind fun _ heq => Quiet.pure ?_
  exact ⟨rfl, rfl, by rw [ownFields, ownFields, heq], List.forall_mem_nil _, rfl⟩

theorem stable_editor (action : EditorAction) : (editor h action).Stable := by
  refine stable_of hid (List.forall_mem_nil _) fun table fuel _ => ?_
  have hlabel : (editor h action).entries.firstText
      ["editorCommandType", "editor_command_type"] "None" = .ok action.label := by
    simp [entries, fields, ownFields, plainField]
  rw [kind, Load.commandOf.eq_def]
  refine (Quiet.lift hlabel rfl).bind fun _ heq => ?_
  subst heq
  rw [EditorAction.ofText?_label]
  exact Quiet.pure ⟨rfl, rfl, rfl, List.forall_mem_nil _, rfl⟩

theorem stable_openFile (path : String) (inNewTab : Bool) (direction : Value) :
    (openFile h path inNewTab direction).Stable := by
  refine stable_of hid (List.forall_mem_nil _) fun table fuel _ => ?_
  have hpath : (openFile h path inNewTab direction).entries.firstText
      ["filePath", "file_path"] "" = .ok path := by
    simp [entries, fields, ownFields, plainField]
  rw [kind, Load.commandOf.eq_def]
  refine (Quiet.lift hpath rfl).bind fun _ heq => ?_
  subst heq
  refine Quiet.pure ⟨rfl, rfl, ?_, List.forall_mem_nil _, rfl⟩
  -- a direction that counts as false is left out and then read as null
  by_cases hd : direction.isTruthy = true <;>
    simp [entries, fields, ownFields, payload, plainField, Entries.getOrNull, hd]

theorem stable_assistant {p : Entries} (hfree : Entries.Free headNames p) :
    (assistant h p).Stable := by
  refine stable_of hid hfree fun table fuel _ => ?_
  rw [kind, Load.commandOf.eq_def]
  have hrest : (assistant h p).entries.without headNames = plainPayload p :=
    Encoding.without_plainPayload hfree (by decide) (by simp [fields, ownFields, headNames])
  refine Quiet.pure ⟨rfl, rfl, rfl, Entries.Free.of_without _ _, ?_⟩
  exact (congrArg plainPayload hrest).trans (Encoding.plainPayload_plainPayload p)

theorem stable_nested {inner : Option Choice} (hinner : ∀ c ∈ inner, c.Stable) :
    (nested h inner).Stable := by
  refine stable_of hid (List.forall_mem_nil _) fun table fuel hfuel => ?_
  rw [kind, Load.commandOf.eq_def]
  cases inner with
  | none =>
    have hfield : ((nested h none).entries.field? "choice").filter Value.isTruthy = none := by
      simp [entries, fields, ownFields, payload, plainField]
    rw [hfield]
    exact Quiet.pure ⟨rfl, rfl, rfl, List.forall_mem_nil _, rfl⟩
  | some c =>
    have hfield : (nested h (some c)).entries.field? "choice" = some c.stored := by
      simp [entries, fields, ownFields, payload, plainField, Choice.stored]
    rw [hfield, filter_truthy c.stored_truthy]
    refine ((hinner c rfl table).field hfield hfuel).bind fun c' hc' => Quiet.pure ?_
    refine ⟨rfl, rfl, ?_, List.forall_mem_nil _, rfl⟩
    exact congrArg (fun v => [("choice", v)]) hc'

theorem stable_conditional (hname : h.name.isTruthy = true) (c : Condition)
    {thens elses : List Command} (hthens : ∀ b ∈ thens, b.Stable)
    (helses : ∀ b ∈ elses, b.Stable) : (conditional h c thens elses).Stable := by
  refine stable_of hid (List.forall_mem_nil _) fun table fuel hfuel => ?_
  generalize hm : (conditional h c thens elses).entries = m at hfuel ⊢
  have hcond : m.field? "condition" = some c.stored := by
    rw [← hm]
    exact entries_field (by simp [fields, ownFields])
  have hthen : m.field? "thenCommands" = some (.list (thens.map stored)) := by
    rw [← hm, ← plain_list]
    exact entries_field (by simp [fields, ownFields])
  have helse : m.field? "elseCommands" = some (.list (elses.map stored)) := by
    rw [← hm, ← plain_list]
    exact entries_field (by simp [fields, ownFields])
  obtain ⟨c', hread, hc'⟩ := c.stored_read
  have hkept : Load.conditionalName h.plain.name = h.plain.name :=
    if_pos ((Encoding.isTruthy_plain h.name).trans hname)
  rw [kind, Load.commandOf.eq_def]
  simp only [hcond, filter_truthy c.stored_truthy, Entries.first?_cons, hthen, helse,
    Option.some_or, Option.getD_some]
  refine (Quiet.lift hread rfl).bind fun x hx => ?_
  have hthens' := Load.ReadBack.listOf (fun b hb => hthens b hb table) hthen hfuel
  have helses' := Load.ReadBack.listOf (fun b hb => helses b hb table) helse hfuel
  refine hthens'.bind fun thens' ht => helses'.bind fun elses' he => Quiet.pure ?_
  subst hx
  refine ⟨?_, rfl, ?_, List.forall_mem_nil _, rfl⟩
  · change CommandHead.mk (Load.conditionalName h.plain.name) h.plain.id = h.plain
    rw [hkept]
  · have hcond' : plain c'.toValue = plain c.toValue := hc'
    simp only [ownFields, List.map_cons, List.map_nil, plainField, plain_list, ht, he, hcond']

end Kinds

end Command

/-! ### Macros -/

namespace Macro

theorem stable_mk {i : Value} (hid : i.isTruthy = true) (n : Value) {cs : List Command}
    (hcommands : ∀ c ∈ cs, c.Stable) (r : Bool) : (mk i n cs r).Stable := by
  refine fun table => Load.ReadBack.of_succ fun fuel hfuel => ?_
  have hstored : (mk i n cs r).stored = .map (record [("id", plain i), ("name", plain n),
      ("runOnStartup", .bool r), ("commands", .list (cs.map Command.stored))]) := by
    rw [stored_eq, ← Command.plain_list, ← Encoding.plain_bool]
    rfl
  rw [hstored] at hfuel ⊢
  generalize hm : record [("id", plain i), ("name", plain n), ("runOnStartup", .bool r),
    ("commands", .list (cs.map Command.stored))] = m at hfuel ⊢
  have hcommand : m.field? "commands" = some (.list (cs.map Command.stored)) := by
    simp [← hm]
  have hname : m.field? "name" = some (plain n) := by
    simp [← hm]
  have hrun : m.firstTruth ["runOnStartup", "run_on_startup"] = r := by
    simp [← hm]
  have hid' : Load.idOf m = pure (plain i) := by
    simp [Load.idOf, ← hm, hid]
  have hcommands' := Load.ReadBack.listOf (fun c hc => hcommands c hc table) hcommand hfuel
  rw [Load.macroOf, Value.fields, Load.lift_ok_bind, hid', pure_bind, hcommand, hname, hrun]
  refine hcommands'.bind fun cs' hcs => Quiet.pure ?_
  rw [stored_eq, ← hm]
  simp [fields, plainField, Command.plain_list, hcs, id, name, commands, runOnStartup]

end Macro

/-! ### Choices -/

namespace Choice

theorem kind_mem (c : Choice) : c.kind ∈ kinds := by
  cases c <;> simp [kind, kinds]

/-- The entries that are stored of a choice. -/
def entries (c : Choice) : Entries :=
  record (c.fields.map plainField) ++ plainPayload c.payload

/-- Every field of the choice is found among the entries, as it is stored. -/
theorem entries_field {c : Choice} {n : String} {v : Value} (h : (n, v) ∈ c.fields) :
    c.entries.field? n = some (plain v) :=
  Encoding.field?_plainField c.fields_nodup h _

theorem entries_headed {c : Choice} (hid : c.id.isTruthy = true) :
    c.entries.Headed c.kind c.head.plain.name c.head.plain.id where
  type_eq := by
    rw [← Encoding.plain_text]
    exact entries_field (by simp [fields])
  name_eq := entries_field (v := c.name) (by simp [fields])
  id_eq := entries_field (v := c.id) (by simp [fields])
  truthy := (Encoding.isTruthy_plain c.id).trans hid

/-- The second choice is stored the same as the first, its head being as it is stored. -/
structure Repeats (c c' : Choice) : Prop where
  head : c'.head = c.head.plain
  kind : c'.kind = c.kind
  own : c'.ownFields.map plainField = c.ownFields.map plainField
  free : Entries.Free headNames c'.payload
  payload : plainPayload c'.payload = plainPayload c.payload

theorem Repeats.stored_eq {c c' : Choice} (h : c.Repeats c')
    (hfree : Entries.Free headNames c.payload) : c'.stored = c.stored := by
  rw [Choice.stored_eq hfree, Choice.stored_eq h.free, h.payload]
  simp only [fields, List.map_cons, h.own, h.kind, id, name, h.head, plainField,
    ChoiceHead.plain, Encoding.plain_plain]

/-- A choice is stable if the reader of its kind repeats it. -/
theorem stable_of {c : Choice} (hid : c.id.isTruthy = true)
    (hfree : Entries.Free headNames c.payload)
    (hread : ∀ table fuel, (Value.map c.entries).depth ≤ fuel + 1 →
      Quiet (Load.choiceOf table (Load.macroOf table fuel) (Load.choice table fuel) c.kind c.entries
        c.head.plain) c.Repeats) : c.Stable := by
  refine fun table => Load.ReadBack.of_succ fun fuel hfuel => ?_
  have hstored : c.stored = .map c.entries := stored_eq hfree
  have hcommand : c.entries.firstTruth ["command"] = c.head.isCommand := by
    have hfield : c.entries.field? "command" = some (plain (.bool c.head.isCommand)) :=
      entries_field (by simp [fields])
    simp [hfield]
  rw [hstored] at hfuel
  rw [hstored, Load.choice_headed table fuel (entries_headed hid) c.kind_mem, ← hstored, hcommand]
  exact (hread table fuel hfuel).mono fun c' h => h.stored_eq hfree

section Kinds

variable {h : ChoiceHead} (hid : h.id.isTruthy = true)

include hid

theorem stable_template {p : Entries} (hfree : Entries.Free headNames p) :
    (template h p).Stable := by
  refine stable_of hid hfree fun table fuel _ => ?_
  rw [kind, Load.choiceOf.eq_def]
  have hrest : (template h p).entries.without headNames = plainPayload p :=
    Encoding.without_plainPayload hfree (by decide) (by simp [fields, ownFields, headNames])
  refine Quiet.pure ⟨rfl, rfl, rfl, Entries.Free.of_without _ _, ?_⟩
  exact (congrArg plainPayload hrest).trans (Encoding.plainPayload_plainPayload p)

theorem stable_capture {p : Entries} (hfree : Entries.Free headNames p) :
    (capture h p).Stable := by
  refine stable_of hid hfree fun table fuel _ => ?_
  rw [kind, Load.choiceOf.eq_def]
  have hrest : (capture h p).entries.without headNames = plainPayload p :=
    Encoding.without_plainPayload hfree (by decide) (by simp [fields, ownFields, headNames])
  refine Quiet.pure ⟨rfl, rfl, rfl, Entries.Free.of_without _ _, ?_⟩
  exact (congrArg plainPayload hrest).trans (Encoding.plainPayload_plainPayload p)

theorem stable_ofMacro {body : Option Macro} (hbody : ∀ b ∈ body, b.Stable) :
    (ofMacro h body).Stable := by
  refine stable_of hid (List.forall_mem_nil _) fun table fuel hfuel => ?_
  rw [kind, Load.choiceOf.eq_def]
  cases body with
  | none =>
    have hfield : ((ofMacro h none).entries.field? "macro").filter Value.isTruthy = none := by
      simp [entries, fields, ownFields, payload, plainField]
    -- an id of a macro beside the choices is not stored: a macro found by its id is written out
    have hnamed : ∀ n, Load.namedMacro table n (ofMacro h none).entries = pure none := fun n => by
      simp [Load.namedMacro, entries, fields, ownFields, payload, plainField]
    rw [hfield, hnamed]
    exact Quiet.pure ⟨rfl, rfl, rfl, List.forall_mem_nil _, rfl⟩
  | some b =>
    have hfield : (ofMacro h (some b)).entries.field? "macro" = some b.stored :=
      entries_field (by simp [fields, ownFields])
    rw [hfield, filter_truthy b.stored_truthy]
    refine ((hbody b rfl table).field hfield hfuel).bind fun b' hb' => Quiet.pure ?_
    refine ⟨rfl, rfl, ?_, List.forall_mem_nil _, rfl⟩
    exact congrArg (fun v => [("macro", v)]) hb'

theorem stable_multi {cs : List Choice} (hinner : ∀ c ∈ cs, c.Stable) (collapsed : Bool) :
    (multi h cs collapsed).Stable := by
  refine stable_of hid (List.forall_mem_nil _) fun table fuel hfuel => ?_
  have hlist : (multi h cs collapsed).entries.field? "choices" =
      some (.list (cs.map stored)) := by
    rw [← plain_list]
    exact entries_field (by simp [fields, ownFields])
  have hcollapsed : (multi h cs collapsed).entries.firstTruth ["collapsed"] = collapsed := by
    simp [entries, fields, ownFields, payload, plainField]
  have hinner' := Load.ReadBack.listOf (fun c hc => hinner c hc table) hlist hfuel
  rw [kind, Load.choiceOf.eq_def, hlist, hcollapsed]
  refine hinner'.bind fun cs' hcs => Quiet.pure ⟨rfl, rfl, ?_, List.forall_mem_nil _, rfl⟩
  simp only [ownFields, List.map_cons, List.map_nil, plainField, plain_list, hcs]

end Kinds

end Choice

end Choicebook
