import Choicebook.Proofs.Choice.Spelling

/-!
# Reading what is spelled another way

Readers look at the ordinary fields of a record and, for a stored name, at the first field with
either spelling. So a record in another spelling is read alike as long as what is inside of it is,
by kind for commands and choices (`Spelling.commandOf_respelled`, `Spelling.choiceOf_respelled`).
By induction on the depth to which the readers go, they do the same with a document in another
spelling: they read the same, make the same ids and give the same warnings
(`Document.ofValue_respelled`).
-/

namespace Choicebook

namespace Spelling

/-! ### Reading -/

section

variable {α : Type} {role item : Role} {v w : Value} {x y : Option Value} {m m' : Entries}
  {chosen : List String}

/-- A value that is not a mapping has no fields in any spelling. -/
theorem Respelled.fields_cases (h : Respelled role v w) :
    (∃ m m' : Entries, ∃ chosen, v = .map m ∧ w = .map m' ∧ Respelling role chosen m m') ∨
      ∃ e, v.fields = .error e ∧ w.fields = .error e := by
  by_cases hmap : ∃ m, v = .map m
  · obtain ⟨m, rfl⟩ := hmap
    obtain ⟨m', chosen, hw, hrecord⟩ := h.exists_record
    exact .inl ⟨m, m', chosen, rfl, hw, hrecord⟩
  · refine .inr ⟨.misuse .noAttribute, ?_⟩
    cases h with
    | same => cases v <;> first | exact ⟨rfl, rfl⟩ | exact absurd ⟨_, rfl⟩ hmap
    | list => exact ⟨rfl, rfl⟩
    | tuple => exact ⟨rfl, rfl⟩
    | record => exact absurd ⟨_, rfl⟩ hmap

theorem rel_filter_isTruthy (h : Option.Rel (Respelled role) x y) :
    Option.Rel (Respelled role) (x.filter Value.isTruthy) (y.filter Value.isTruthy) := by
  cases h with
  | none => exact .none
  | @some v w h =>
    rw [Option.filter_some, Option.filter_some, h.isTruthy_eq]
    split
    · exact .some h
    · exact .none

theorem respelled_getD (h : Option.Rel (Respelled role) x y) (preset : Value) :
    Respelled role (x.getD preset) (y.getD preset) := by
  cases h with
  | none => exact .same role preset
  | some h => exact h

theorem mapM_congr {read : Value → Load α} {xs ys : List Value}
    (h : List.Forall₂ (fun x y => read y = read x) xs ys) : ys.mapM read = xs.mapM read := by
  induction h with
  | nil => rfl
  | cons hxy _ ih => rw [List.mapM_cons, List.mapM_cons, hxy, ih]

private theorem itemsIfAny_list (xs : List Value) :
    Value.itemsIfAny (some (.list xs)) = .ok xs := by
  cases xs <;> rfl

private theorem itemsIfAny_tuple (xs : List Value) :
    Value.itemsIfAny (some (.tuple xs)) = .ok xs := by
  cases xs <;> rfl

/-- Lists whose items are read alike are read alike. -/
theorem listOf_respelled {read : Value → Load α}
    (hread : ∀ v w, Respelled item v w → read w = read v)
    (h : Option.Rel (Respelled (.items item)) x y) : Load.listOf read y = Load.listOf read x := by
  cases h with
  | none => rfl
  | some h =>
    cases h with
    | same => rfl
    | @list _ _ xs ys hitem hlength hitems =>
      cases hitem
      rw [Load.listOf, Load.listOf, itemsIfAny_list, itemsIfAny_list, Load.lift_ok_bind,
        Load.lift_ok_bind]
      exact mapM_congr (List.forall₂_iff_zip.mpr ⟨hlength, fun h => hread _ _ (hitems _ _ h)⟩)
    | @tuple _ _ xs ys hitem hlength hitems =>
      cases hitem
      rw [Load.listOf, Load.listOf, itemsIfAny_tuple, itemsIfAny_tuple, Load.lift_ok_bind,
        Load.lift_ok_bind]
      exact mapM_congr (List.forall₂_iff_zip.mpr ⟨hlength, fun h => hread _ _ (hitems _ _ h)⟩)
    | record chosen hchosen hkeys hvalues =>
      have hrecord : Respelling (.items item) chosen _ _ :=
        ⟨hchosen, forall₂_of_keys hkeys hvalues⟩
      rw [hrecord.eq_of_bare rfl rfl]

/-- A condition is read alike. -/
theorem condition_respelled (h : Respelled .condition v w) :
    Load.condition w = Load.condition v := by
  rcases h.fields_cases with ⟨m, m', chosen, rfl, rfl, hrecord⟩ | ⟨e, hv, hw⟩
  · have hmode : m'.field? "mode" = m.field? "mode" :=
      hrecord.field_eq (Role.ordinary_data _ (by simp))
    have hoperator : m'.field? "operator" = m.field? "operator" :=
      hrecord.field_eq (Role.ordinary_data _ (by simp))
    have hpath : m'.first? ["scriptPath", "script_path"] = m.first? ["scriptPath", "script_path"] :=
      hrecord.first_eq (by simp [Role.names]) (by decide +kernel)
    have hexport : m'.first? ["exportName", "export_name"] =
        m.first? ["exportName", "export_name"] :=
      hrecord.first_eq (by simp [Role.names]) (by decide +kernel)
    have hsubject : m'.first? ["variableName", "variable_name"] =
        m.first? ["variableName", "variable_name"] :=
      hrecord.first_eq (by simp [Role.names]) (by decide +kernel)
    have htype : m'.first? ["valueType", "value_type"] = m.first? ["valueType", "value_type"] :=
      hrecord.first_eq (by simp [Role.names]) (by decide +kernel)
    have hexpected : m'.first? ["expectedValue", "expected_value"] =
        m.first? ["expectedValue", "expected_value"] :=
      hrecord.first_eq (by simp [Role.names]) (by decide +kernel)
    simp only [Load.condition, Value.fields, bind, Except.bind, Entries.firstText, hmode,
      hoperator, hpath, hexport, hsubject, htype, hexpected]
  · rw [Load.condition, Load.condition, hv, hw]

private theorem mem_of_kind? {kinds : List String} {kind : String}
    (h : m.kind? kinds = some kind) : kind ∈ kinds := by
  rw [Entries.kind?, Option.filter_eq_some_iff] at h
  simpa using h.2

/-- A command of a kind is read alike, if what is inside of it is. -/
theorem commandOf_respelled {readChoice : Value → Load Choice} {readCommand : Value → Load Command}
    (hchoice : ∀ v w, Respelled .choice v w → readChoice w = readChoice v)
    (hcommand : ∀ v w, Respelled .command v w → readCommand w = readCommand v) {kind : String}
    (hkind : m.kind? Command.kinds = some kind) (h : Respelling .command chosen m m')
    (head : CommandHead) : Load.commandOf readChoice readCommand kind m' head =
      Load.commandOf readChoice readCommand kind m head := by
  have hnames : Role.names .command m = Role.ofCommand kind := by
    rw [Role.names, hkind]
    rfl
  have hparts : Role.parts .command m = Role.partsOfCommand kind := by
    rw [Role.parts, hkind]
    rfl
  have hpart {n : String} {role : Role} (hn : (Role.partsOfCommand kind).lookup n = some role) :
      Role.part .command m (.text n) = role := by
    rw [Role.part, hparts, hn]
    rfl
  have hfirst {n other : String} (hn : n ∈ Role.ofCommand kind)
      (hother : snake n = other ∧ n ∉ Role.partNames ∧ other ∉ Role.partNames) :
      m'.first? [n, other] = m.first? [n, other] := h.first_eq (hnames ▸ hn) hother
  have hbare (hnone : Role.ofCommand kind = []) (hnone' : Role.partsOfCommand kind = []) : m' = m :=
    h.eq_of_bare (hnames.trans hnone) (hparts.trans hnone')
  unfold Load.commandOf
  split
  · -- Obsidian
    have hid : m'.first? ["commandId", "command_id"] = m.first? ["commandId", "command_id"] :=
      hfirst (by simp [Role.ofCommand]) (by decide +kernel)
    rw [Entries.firstText, Entries.firstText, hid]
  · -- UserScript
    rw [hbare rfl rfl]
  · -- Choice
    have hid : m'.first? ["choiceId", "choice_id"] = m.first? ["choiceId", "choice_id"] :=
      hfirst (by simp [Role.ofCommand]) (by decide +kernel)
    rw [Entries.firstText, Entries.firstText, hid]
  · -- NestedChoice
    have hinner := rel_filter_isTruthy (h.field (Role.ordinary_parts "choice" (by simp)))
    rw [hpart rfl] at hinner
    generalize (Entries.field? m "choice").filter Value.isTruthy = x at hinner ⊢
    generalize (Entries.field? m' "choice").filter Value.isTruthy = y at hinner ⊢
    cases hinner with
    | none => rfl
    | some hinner =>
      dsimp only
      rw [hchoice _ _ hinner]
  · -- Wait
    rw [hbare rfl rfl]
  · -- EditorCommand
    have hlabel : m'.first? ["editorCommandType", "editor_command_type"] =
        m.first? ["editorCommandType", "editor_command_type"] :=
      hfirst (by simp [Role.ofCommand]) (by decide +kernel)
    rw [Entries.firstText, Entries.firstText, hlabel]
  · -- Conditional
    have hcondition := respelled_getD (rel_filter_isTruthy
      (h.field (Role.ordinary_parts "condition" (by simp)))) (.map [])
    rw [hpart rfl] at hcondition
    have hbranch {n other : String} (hn : n ∈ Role.ofCommand "Conditional")
        (hsnake : snake n = other)
        (hitems : (Role.partsOfCommand "Conditional").lookup n = some (.items .command))
        (hitems' : (Role.partsOfCommand "Conditional").lookup other = some (.items .command)) :
        Load.listOf readCommand (m'.first? [n, other]) =
          Load.listOf readCommand (m.first? [n, other]) := by
      have hbranches := h.first (hnames ▸ hn) hsnake ((hpart hitems').trans (hpart hitems).symm)
      rw [hpart hitems] at hbranches
      exact listOf_respelled hcommand hbranches
    have hthens := hbranch (n := "thenCommands") (by simp [Role.ofCommand])
      (by decide +kernel : _ = "then_commands") rfl rfl
    have helses := hbranch (n := "elseCommands") (by simp [Role.ofCommand])
      (by decide +kernel : _ = "else_commands") rfl rfl
    rw [condition_respelled hcondition, hthens, helses]
  · -- AIAssistant
    rw [hbare rfl rfl]
  · -- OpenFile, the only kind that is left
    obtain rfl : kind = "OpenFile" := by
      have hmem := mem_of_kind? hkind
      simp only [Command.kinds, List.mem_cons, List.not_mem_nil, or_false] at hmem
      simp_all
    have hpath : m'.first? ["filePath", "file_path"] = m.first? ["filePath", "file_path"] :=
      hfirst (by simp [Role.ofCommand]) (by decide +kernel)
    have htab : m'.first? ["openInNewTab", "open_in_new_tab"] =
        m.first? ["openInNewTab", "open_in_new_tab"] :=
      hfirst (by simp [Role.ofCommand]) (by decide +kernel)
    have hdirection : m'.field? "direction" = m.field? "direction" :=
      h.field_eq (Role.ordinary_data _ (by simp))
    simp only [Entries.firstText, Entries.firstTruth, Entries.getOrNull, hdirection, hpath, htab]

/-- A choice of a kind is read alike, if what is inside of it is. -/
theorem choiceOf_respelled (table : Load.Table) {readMacro : Value → Load Macro}
    {readChoice : Value → Load Choice}
    (hbodies : ∀ v w, Respelled .body v w → readMacro w = readMacro v)
    (hchoice : ∀ v w, Respelled .choice v w → readChoice w = readChoice v) {kind : String}
    (hkind : m.kind? Choice.kinds = some kind) (h : Respelling .choice chosen m m')
    (head : ChoiceHead) : Load.choiceOf table readMacro readChoice kind m' head =
      Load.choiceOf table readMacro readChoice kind m head := by
  have hnames : Role.names .choice m = if kind = "Macro" then ["macroId"] else [] := by
    rw [Role.names, hkind]
    simp only [Option.some.injEq]
  have hparts : Role.parts .choice m = Role.partsOfChoice kind := by
    rw [Role.parts, hkind]
    rfl
  have hpart {n : String} {role : Role} (hn : (Role.partsOfChoice kind).lookup n = some role) :
      Role.part .choice m (.text n) = role := by
    rw [Role.part, hparts, hn]
    rfl
  unfold Load.choiceOf
  split
  · -- Macro
    have hbody := rel_filter_isTruthy (h.field (Role.ordinary_parts "macro" (by simp)))
    rw [hpart rfl] at hbody
    have hid : m'.first? ["macroId", "macro_id"] = m.first? ["macroId", "macro_id"] :=
      h.first_eq (by simp [hnames]) (by decide +kernel)
    rw [Load.namedMacro, Load.namedMacro, hid]
    generalize (Entries.field? m "macro").filter Value.isTruthy = x at hbody ⊢
    generalize (Entries.field? m' "macro").filter Value.isTruthy = y at hbody ⊢
    cases hbody with
    | none => rfl
    | some hbody =>
      dsimp only
      rw [hbodies _ _ hbody]
  · -- Multi
    have hinner := h.field (Role.ordinary_parts "choices" (by simp))
    rw [hpart rfl] at hinner
    have hcollapsed : m'.field? "collapsed" = m.field? "collapsed" :=
      h.field_eq (Role.ordinary_data _ (by simp))
    rw [listOf_respelled hchoice hinner, Entries.firstTruth_eq, Entries.firstTruth_eq,
      Entries.first?_cons, Entries.first?_cons, hcollapsed]
    rfl
  · -- Template
    rw [h.eq_of_bare hnames hparts]
  · -- Capture, the only kind that is left
    obtain rfl : kind = "Capture" := by
      have hmem := mem_of_kind? hkind
      simp only [Choice.kinds, List.mem_cons, List.not_mem_nil, or_false] at hmem
      simp_all
    rw [h.eq_of_bare hnames hparts]

/-! ### The readers -/

/-- What stands at the head of a record does not depend on its spelling. -/
structure SameHead (m m' : Entries) : Prop where
  kind (kinds : List String) : m'.kind? kinds = m.kind? kinds
  type : m'.getOrNull "type" = m.getOrNull "type"
  id : Load.idOf m' = Load.idOf m
  name : m'.field? "name" = m.field? "name"
  isCommand : m'.firstTruth ["command"] = m.firstTruth ["command"]

theorem Respelling.sameHead (h : Respelling role chosen m m') : SameHead m m' := by
  have htype : m'.field? "type" = m.field? "type" := h.field_eq (Role.ordinary_data _ (by simp))
  have hid : m'.field? "id" = m.field? "id" := h.field_eq (Role.ordinary_data _ (by simp))
  have hcommand : m'.field? "command" = m.field? "command" :=
    h.field_eq (Role.ordinary_data _ (by simp))
  refine ⟨fun kinds => ?_, ?_, ?_, h.field_eq (Role.ordinary_data _ (by simp)), ?_⟩
  · rw [Entries.kind?, Entries.kind?, htype]
  · rw [Entries.getOrNull, Entries.getOrNull, htype]
  · rw [Load.idOf, Load.idOf, hid]
  · rw [Entries.firstTruth_eq, Entries.firstTruth_eq, Entries.first?_cons, Entries.first?_cons,
      hcommand]
    rfl

/-- To whatever depth they go, the readers do the same with the other spelling. -/
theorem readers_respelled (table : Load.Table) (fuel : Nat) :
    (∀ v w, Respelled .command v w → Load.command table fuel w = Load.command table fuel v) ∧
      (∀ v w, Respelled .body v w → Load.macroOf table fuel w = Load.macroOf table fuel v) ∧
      (∀ v w, Respelled .choice v w → Load.choice table fuel w = Load.choice table fuel v) := by
  -- the three readers call each other one level down, so they are shown together
  induction fuel with
  | zero => exact ⟨fun _ _ _ => rfl, fun _ _ _ => rfl, fun _ _ _ => rfl⟩
  | succ fuel ih =>
    obtain ⟨hcommand, hbodies, hchoice⟩ := ih
    refine ⟨fun v w h => ?_, fun v w h => ?_, fun v w h => ?_⟩
    · rcases h.fields_cases with ⟨m, m', chosen, rfl, rfl, hrecord⟩ | ⟨e, hv, hw⟩
      · have hhead := hrecord.sameHead
        simp only [Load.command, Value.fields, Load.lift_ok_bind, hhead.kind, hhead.type,
          hhead.id, hhead.name]
        cases hkind : m.kind? Command.kinds with
        | none => rfl
        | some kind => simp only [commandOf_respelled hchoice hcommand hkind hrecord]
      · rw [Load.command, Load.command, hv, hw]
    · rcases h.fields_cases with ⟨m, m', chosen, rfl, rfl, hrecord⟩ | ⟨e, hv, hw⟩
      · have hhead := hrecord.sameHead
        have hcommands := listOf_respelled hcommand
          (hrecord.field (Role.ordinary_parts "commands" (by simp)))
        have hstart : m'.first? ["runOnStartup", "run_on_startup"] =
            m.first? ["runOnStartup", "run_on_startup"] :=
          hrecord.first_eq (by simp [Role.names]) (by decide +kernel)
        simp only [Load.macroOf, Value.fields, Load.lift_ok_bind, hhead.id, hhead.name, hcommands,
          Entries.firstTruth, hstart]
      · rw [Load.macroOf, Load.macroOf, hv, hw]
    · rcases h.fields_cases with ⟨m, m', chosen, rfl, rfl, hrecord⟩ | ⟨e, hv, hw⟩
      · have hhead := hrecord.sameHead
        simp only [Load.choice, Value.fields, Load.lift_ok_bind, hhead.kind, hhead.type,
          hhead.id, hhead.name, hhead.isCommand]
        cases hkind : m.kind? Choice.kinds with
        | none => rfl
        | some kind => simp only [choiceOf_respelled table hbodies hchoice hkind hrecord]
      · rw [Load.choice, Load.choice, hv, hw]

end

end Spelling

namespace Document

open Spelling (Respelled)

/-- **The spelling of stored names does not matter.** Let `w` be a document in which some of the
stored names of another one, `v`, are spelled with underscores, wherever they occur in the records
that have them and do not use that spelling as well. Then `w` is read as the same document as `v`,
with the same ids and the same warnings. -/
theorem ofValue_respelled {v w : Value} (h : Respelled .document v w) (r : Reading) :
    (ofValue w).runOn r = (ofValue v).runOn r := by
  have hchoice (table : Load.Table) (fuel : Nat) := (Spelling.readers_respelled table fuel).2.2
  have hbodies (fuel : Nat) := (Spelling.readers_respelled [] fuel).2.1
  -- both are read to the same depth, which is that of the value
  have hdepth := h.depth_eq
  cases h with
  | same => rfl
  | @list _ item xs ys hitem hlength hitems =>
    cases hitem
    have hread : ys.mapM (Load.choice [] (Value.list ys).depth) =
        xs.mapM (Load.choice [] (Value.list xs).depth) := by
      rw [hdepth]
      exact Spelling.mapM_congr (List.forall₂_iff_zip.mpr
        ⟨hlength, fun h => hchoice [] _ _ _ (hitems _ _ h)⟩)
    rw [ofValue, ofValue, hread]
  | tuple => rfl
  | @record _ m m' chosen hchosen hkeys hvalues =>
    have hrecord : Spelling.Respelling .document chosen m m' :=
      ⟨hchosen, Spelling.forall₂_of_keys hkeys hvalues⟩
    have hmacros := Spelling.listOf_respelled (hbodies (Value.map m).depth)
      (hrecord.field (Spelling.Role.ordinary_parts "macros" (by simp)))
    have hchoices (table : Load.Table) := Spelling.listOf_respelled
      (hchoice table (Value.map m).depth)
      (hrecord.field (Spelling.Role.ordinary_parts "choices" (by simp)))
    have hsettings : Entries.field? m' "settings" = Entries.field? m "settings" :=
      hrecord.field_eq (Spelling.Role.ordinary_data _ (by simp))
    simp only [ofValue, hdepth, hmacros, hchoices, hsettings]

/-- A command that saves a note, with either spelling of the only stored name. -/
def saving (commandId : String) : Entries :=
  record [("type", .text "Obsidian"), (commandId, .text "save")]

/-- A conditional command that has the other one inside of it. -/
def asking (subject thens commandId : String) : Entries :=
  record [("type", .text "Conditional"), ("condition", .map (record [(subject, .text "mood")])),
    (thens, .list [.map (saving commandId)])]

/-- A macro that is run at the start and has the conditional command. -/
def starting (startup subject thens commandId : String) : Entries :=
  record [("id", .text "m"), (startup, .bool true),
    ("commands", .list [.map (asking subject thens commandId)])]

/-- The macro, and a choice that names it. -/
def planned (startup subject thens commandId : String) : Entries :=
  record [("macros", .list [.map (starting startup subject thens commandId)]),
    ("choices", .list [.map (record [("type", .text "Macro"), ("macroId", .text "m")])])]

/-- The document that it is read as. -/
def plannedDocument : Document :=
  let condition := Condition.onVariable ⟨"mood", .known .isTruthy, .text, none⟩
  let asked := Command.conditional ⟨.text "If condition", .text "new-1"⟩ condition
    [.host ⟨.text "", .text "new-2"⟩ "save"] []
  let started := Macro.mk (.text "m") (.text "") [asked] true
  ⟨[.ofMacro ⟨.text "", .text "new-3", false⟩ (some started)], [started], []⟩

private theorem respelled_part {role role' : Spelling.Role} {m : Entries} {k v w : Value}
    (hpart : role.part m k = role') (h : Respelled role' v w) : Respelled (role.part m k) v w :=
  hpart ▸ h

private theorem saving_respelled :
    Spelling.Respelling .command ["commandId"] (saving "commandId") (saving "command_id") where
  names := List.forall_mem_singleton.mpr ⟨by with_unfolding_all exact .head _,
    by with_unfolding_all rfl⟩
  alike := .cons ⟨rfl, .same _ _⟩ (.cons ⟨rfl, .same _ _⟩ .nil)

private theorem asking_respelled : Spelling.Respelling .command ["thenCommands"]
    (asking "variableName" "thenCommands" "commandId")
    (asking "variable_name" "then_commands" "command_id") where
  names := List.forall_mem_singleton.mpr ⟨by with_unfolding_all exact .head _,
    by with_unfolding_all rfl⟩
  alike := by
    have hsubject : Spelling.Respelling .condition ["variableName"]
        (record [("variableName", .text "mood")]) (record [("variable_name", .text "mood")]) :=
      ⟨List.forall_mem_singleton.mpr ⟨by simp [Spelling.Role.names], by with_unfolding_all rfl⟩,
        .cons ⟨rfl, .same _ _⟩ .nil⟩
    have hthens : Respelled (.items .command) (.list [.map (saving "commandId")])
        (.list [.map (saving "command_id")]) :=
      .list rfl rfl (by simpa using saving_respelled.respelled)
    exact .cons ⟨rfl, .same _ _⟩
      (.cons ⟨rfl, respelled_part (by with_unfolding_all rfl) hsubject.respelled⟩
        (.cons ⟨rfl, respelled_part (by with_unfolding_all rfl) hthens⟩ .nil))

private theorem starting_respelled : Spelling.Respelling .body ["runOnStartup"]
    (starting "runOnStartup" "variableName" "thenCommands" "commandId")
    (starting "run_on_startup" "variable_name" "then_commands" "command_id") where
  names := List.forall_mem_singleton.mpr ⟨.head _, by with_unfolding_all rfl⟩
  alike := by
    have hcommands : Respelled (.items .command)
        (.list [.map (asking "variableName" "thenCommands" "commandId")])
        (.list [.map (asking "variable_name" "then_commands" "command_id")]) :=
      .list rfl rfl (by simpa using asking_respelled.respelled)
    exact .cons ⟨rfl, .same _ _⟩ (.cons ⟨rfl, .same _ _⟩
      (.cons ⟨rfl, respelled_part (by with_unfolding_all rfl) hcommands⟩ .nil))

theorem ofValue_respelled_planned :
    (ofValue (.map (planned "run_on_startup" "variable_name" "then_commands"
      "command_id"))).runOn .start = (.ok plannedDocument, ⟨3, 0, []⟩) := by
  have hread : (ofValue (.map (planned "runOnStartup" "variableName" "thenCommands"
      "commandId"))).runOn .start = (.ok plannedDocument, ⟨3, 0, []⟩) := by
    with_unfolding_all rfl
  have hmacros : Respelled (.items .body)
      (.list [.map (starting "runOnStartup" "variableName" "thenCommands" "commandId")])
      (.list [.map (starting "run_on_startup" "variable_name" "then_commands" "command_id")]) :=
    .list rfl rfl (by simpa using starting_respelled.respelled)
  have hplanned : Spelling.Respelling .document []
      (planned "runOnStartup" "variableName" "thenCommands" "commandId")
      (planned "run_on_startup" "variable_name" "then_commands" "command_id") :=
    ⟨List.forall_mem_nil _, .cons ⟨rfl, respelled_part (by with_unfolding_all rfl) hmacros⟩
      (.cons ⟨rfl, .same _ _⟩ .nil)⟩
  exact (ofValue_respelled hplanned.respelled .start).trans hread

end Document

end Choicebook
