import Choicebook.Choice.Tree
import Choicebook.Proofs.Choice.Load

/-!
# Choices that name a macro

A macro choice without a macro of its own can name one of those that are kept beside the choices of
a document. `Document.ofValue_resolves` says which of these names lead to a macro: all that do name
one, at whatever depth of menus, macros and commands, as long as the choice is among the choices of
the document. The macros themselves are read before there is a table of them. A choice inside of
one of them that names a macro has none, even where there is a macro of that id.

A name that leads nowhere is worth a warning. `references` lists the names in the order in which
they are read, and the warnings of a reading are those of the names that lead nowhere, one for each
and in this order.

The example at the end is a document with a macro that names the one before it.
-/

namespace Choicebook

open Load (Gives)

/-! ### Places in a document -/

/-- What a value of a document is read as. -/
inductive Part where
  | choice (c : Choice)
  | body (b : Macro)
  | command (c : Command)

/-- The items of a list that may be missing or empty. -/
def Value.itemsOrNone (v : Option Value) : List Value :=
  match Value.itemsIfAny v with
  | .ok vs => vs
  | .error _ => []

/-- The sorts of parts. -/
inductive Part.Kind where
  | choice
  | body
  | command

/-- A value of a sort has another one inside of it that is read as a part of its own. -/
inductive Value.Has : Part.Kind → Value → Part.Kind → Value → Prop where
  | menu {m : Entries} {w : Value} (hk : m.kind? Choice.kinds = some "Multi")
    (hw : w ∈ itemsOrNone (m.field? "choices")) : Has .choice (.map m) .choice w
  | inline {m : Entries} {w : Value} (hk : m.kind? Choice.kinds = some "Macro")
    (hw : (m.field? "macro").filter Value.isTruthy = some w) : Has .choice (.map m) .body w
  | body {m : Entries} {w : Value} (hw : w ∈ itemsOrNone (m.field? "commands")) :
    Has .body (.map m) .command w
  | nested {m : Entries} {w : Value} (hk : m.kind? Command.kinds = some "NestedChoice")
    (hw : (m.field? "choice").filter Value.isTruthy = some w) : Has .command (.map m) .choice w
  | thens {m : Entries} {w : Value} (hk : m.kind? Command.kinds = some "Conditional")
    (hw : w ∈ itemsOrNone (m.first? ["thenCommands", "then_commands"])) :
    Has .command (.map m) .command w
  | elses {m : Entries} {w : Value} (hk : m.kind? Command.kinds = some "Conditional")
    (hw : w ∈ itemsOrNone (m.first? ["elseCommands", "else_commands"])) :
    Has .command (.map m) .command w

/-- The same at any depth. -/
inductive Value.HasWithin (k : Part.Kind) (v : Value) : Part.Kind → Value → Prop where
  | self : HasWithin k v k v
  | inner {k' k'' : Part.Kind} {w w' : Value} (h : HasWithin k v k' w) (hw : Has k' w k'' w') :
    HasWithin k v k'' w'

namespace Part

/-- The sort of a part. -/
def kind : Part → Kind
  | choice _ => .choice
  | body _ => .body
  | command _ => .command

/-- A part holds another one, which is read of a value inside of the value that the part is read
of. -/
inductive Holds : Value → Part → Value → Part → Prop where
  | menu {m : Entries} {h : ChoiceHead} {cs : List Choice} {collapsed : Bool} {w : Value}
    {c : Choice} (hw : (w, c) ∈ (Value.itemsOrNone (m.field? "choices")).zip cs) :
    Holds (.map m) (.choice (.multi h cs collapsed)) w (.choice c)
  | inline {m : Entries} {h : ChoiceHead} {b : Macro} {w : Value}
    (hw : (m.field? "macro").filter Value.isTruthy = some w) :
    Holds (.map m) (.choice (.ofMacro h (some b))) w (.body b)
  | body {m : Entries} {b : Macro} {w : Value} {c : Command}
    (hw : (w, c) ∈ (Value.itemsOrNone (m.field? "commands")).zip b.commands) :
    Holds (.map m) (.body b) w (.command c)
  | nested {m : Entries} {h : CommandHead} {c : Choice} {w : Value}
    (hw : (m.field? "choice").filter Value.isTruthy = some w) :
    Holds (.map m) (.command (.nested h (some c))) w (.choice c)
  | thens {m : Entries} {h : CommandHead} {c : Condition} {thens elses : List Command} {w : Value}
    {c' : Command}
    (hw : (w, c') ∈ (Value.itemsOrNone (m.first? ["thenCommands", "then_commands"])).zip thens) :
    Holds (.map m) (.command (.conditional h c thens elses)) w (.command c')
  | elses {m : Entries} {h : CommandHead} {c : Condition} {thens elses : List Command} {w : Value}
    {c' : Command}
    (hw : (w, c') ∈ (Value.itemsOrNone (m.first? ["elseCommands", "else_commands"])).zip elses) :
    Holds (.map m) (.command (.conditional h c thens elses)) w (.command c')

/-- A part is another one or is inside of it, at any depth. -/
inductive Within (v : Value) (x : Part) : Value → Part → Prop where
  | self : Within v x v x
  | inner {w w' : Value} {y y' : Part} (h : Within v x w y) (hy : Holds w y w' y') :
    Within v x w' y'

end Part

namespace Document

/-- The list that a document takes its choices, or its macros, from. -/
def section? (v : Value) (name : String) : Option Value :=
  match v with
  | .map es => Entries.field? es name
  | .list xs => if name = "choices" then some (.list xs) else none
  | _ => none

/-- The value is read as a choice that is among the choices of the document, at any depth. -/
def InChoices (d : Document) (v w : Value) (c : Choice) : Prop :=
  ∃ w' c', (w', c') ∈ (Value.itemsOrNone (section? v "choices")).zip d.choices ∧
    Part.Within w' (.choice c') w (.choice c)

/-- The value is read as a choice inside of one of the macros that are kept beside the choices. -/
def InMacros (d : Document) (v w : Value) (c : Choice) : Prop :=
  ∃ w' b, (w', b) ∈ (Value.itemsOrNone (section? v "macros")).zip d.macros ∧
    Part.Within w' (.body b) w (.choice c)

end Document

/-- The mapping is that of a macro choice which has no macro of its own and names one by `id`. -/
structure Entries.Names (m : Entries) (id : Value) : Prop where
  kind : m.kind? Choice.kinds = some "Macro"
  inline : (m.field? "macro").filter Value.isTruthy = none
  named : (m.first? ["macroId", "macro_id"]).filter Value.isTruthy = some id

/-! ### What is read of a value -/

namespace Load

/-- A part is what one of the readers reads of a value, with some fuel and from some state. -/
def Reads (table : Table) (v : Value) : Part → Prop
  | .choice c => ∃ fuel r s, (choice table fuel v).runOn r = (.ok c, s)
  | .body b => ∃ fuel r s, (macroOf table fuel v).runOn r = (.ok b, s)
  | .command c => ∃ fuel r s, (command table fuel v).runOn r = (.ok c, s)

variable {α β : Type} {table : Table}

/-- What has been read is what is read. -/
theorem Gives.self (a : Load α) : Gives a fun x => ∃ r s, a.runOn r = (.ok x, s) :=
  fun r _ s h => ⟨r, s, h⟩

theorem Gives.mono {P Q : α → Prop} {a : Load α} (ha : Gives a P) (h : ∀ x, P x → Q x) :
    Gives a Q :=
  fun r x s hrun => h x (ha r x s hrun)

/-- Each item of a list is read on its own. -/
theorem Gives.mapM_zip {P : Value → α → Prop} {f : Value → Load α} (hf : ∀ v, Gives (f v) (P v))
    (vs : List Value) : Gives (vs.mapM f) fun xs => ∀ e ∈ vs.zip xs, P e.1 e.2 := by
  induction vs with
  | nil => exact Gives.pure (by simp)
  | cons v vs ih =>
    rw [List.mapM_cons]
    refine (hf v).bind fun x hx => ih.bind fun xs hxs => Gives.pure ?_
    rw [List.zip_cons_cons]
    exact List.forall_mem_cons.mpr ⟨hx, hxs⟩

theorem Gives.mapM_length (f : Value → Load α) (vs : List Value) :
    Gives (vs.mapM f) fun xs => xs.length = vs.length := by
  induction vs with
  | nil => exact Gives.pure rfl
  | cons v vs ih =>
    rw [List.mapM_cons]
    refine (Gives.trivial _).bind fun x _ => ih.bind fun xs hxs => Gives.pure ?_
    rw [List.length_cons, List.length_cons, hxs]

theorem Gives.and {P Q : α → Prop} {a : Load α} (hP : Gives a P) (hQ : Gives a Q) :
    Gives a fun x => P x ∧ Q x :=
  fun r x s hrun => ⟨hP r x s hrun, hQ r x s hrun⟩

/-- What a list is read as: something for each item, and nothing else. -/
structure Itemized (read : Value → Load α) (v : Option Value) (xs : List α) : Prop where
  read : ∀ w x, (w, x) ∈ (Value.itemsOrNone v).zip xs → ∃ r s, (read w).runOn r = (.ok x, s)
  total : ∀ w ∈ Value.itemsOrNone v, ∃ x, (w, x) ∈ (Value.itemsOrNone v).zip xs

theorem Gives.itemized (read : Value → Load α) (v : Option Value) :
    Gives (Load.listOf read v) (Itemized read v) := by
  refine (Gives.lift (P := fun vs => Value.itemsOrNone v = vs) fun vs hvs => ?_).bind
    fun vs hvs => ?_
  · rw [Value.itemsOrNone, hvs]
  · refine ((Gives.mapM_zip (fun v => Gives.self (read v)) vs).and
      (Gives.mapM_length read vs)).mono fun xs ⟨hxs, hlength⟩ => ⟨?_, ?_⟩
    · rw [hvs]
      exact fun w x hw => hxs _ hw
    · rw [hvs]
      intro w hw
      obtain ⟨i, hi, rfl⟩ := List.mem_iff_getElem.mp hw
      have hi' : i < (vs.zip xs).length := by
        rw [List.length_zip, hlength, min_self]
        exact hi
      exact ⟨xs[i], by rw [← List.getElem_zip]; exact List.getElem_mem hi'⟩

/-- The mapping that a value has to be. -/
theorem Gives.fields (v : Value) : Gives (Load.lift v.fields) fun m => v = .map m := by
  refine Gives.lift fun m hm => ?_
  cases v <;> cases hm
  rfl

/-! ### One step into a part -/

/-- What is inside of a part that is read of a value: what is read of the values inside of that. -/
structure Opens (table : Table) (v : Value) (x : Part) : Prop where
  reads : ∀ w y, Part.Holds v x w y → Reads table w y
  total : ∀ k w, Value.Has x.kind v k w → ∃ y, y.kind = k ∧ Part.Holds v x w y

theorem Gives.choiceOf_opens (fuel : Nat) {kind : String} {m : Entries}
    (hkind : m.kind? Choice.kinds = some kind) (head : ChoiceHead) :
    Gives (choiceOf table (macroOf table fuel) (choice table fuel) kind m head) fun c =>
      Opens table (.map m) (.choice c) := by
  -- a value of another kind has none of the places that this kind has
  have hother : ∀ {k : String}, m.kind? Choice.kinds = some k → k = kind := fun h =>
    Option.some.inj (h.symm.trans hkind)
  unfold choiceOf
  split
  · split
    · next body hbody =>
      refine (Gives.self _).bind fun b hb => Gives.pure ⟨?_, ?_⟩
      · rintro w y ⟨⟩
        next hw =>
        obtain ⟨r, s, hb⟩ := hb
        cases hbody.symm.trans hw
        exact ⟨fuel, r, s, hb⟩
      · rintro k w ⟨⟩
        · next hk _ => exact absurd (hother hk) (by decide)
        · next _ hw => exact ⟨.body b, rfl, .inline hw⟩
    · next hbody =>
      refine (Gives.trivial _).bind fun body _ => Gives.pure ⟨?_, ?_⟩
      · rintro w y ⟨⟩
        next hw => cases hbody.symm.trans hw
      · rintro k w ⟨⟩
        · next hk _ => exact absurd (hother hk) (by decide)
        · next _ hw => cases hbody.symm.trans hw
  · refine (Gives.itemized _ _).bind fun cs hcs => Gives.pure ⟨?_, ?_⟩
    · rintro w y ⟨⟩
      next hw => exact ⟨fuel, hcs.read _ _ hw⟩
    · rintro k w ⟨⟩
      · next _ hw =>
        obtain ⟨c, hc⟩ := hcs.total w hw
        exact ⟨.choice c, rfl, .menu hc⟩
      · next hk _ => exact absurd (hother hk) (by decide)
  · refine Gives.pure ⟨by rintro w y ⟨⟩, ?_⟩
    rintro k w ⟨⟩
    · next hk _ => exact absurd (hother hk) (by decide)
    · next hk _ => exact absurd (hother hk) (by decide)
  · next hmacro hmulti _ =>
    refine Gives.pure ⟨by rintro w y ⟨⟩, ?_⟩
    rintro k w ⟨⟩
    · next hk _ => exact absurd (hother hk).symm hmulti
    · next hk _ => exact absurd (hother hk).symm hmacro

theorem Gives.commandOf_opens (fuel : Nat) {kind : String} {m : Entries}
    (hkind : m.kind? Command.kinds = some kind) (head : CommandHead) :
    Gives (commandOf (choice table fuel) (command table fuel) kind m head) fun c =>
      Opens table (.map m) (.command c) := by
  have hother : ∀ {k : String}, m.kind? Command.kinds = some k → k = kind := fun h =>
    Option.some.inj (h.symm.trans hkind)
  -- most commands have nothing inside
  have hleaf : ∀ {c : Command}, (∀ w y, ¬Part.Holds (.map m) (.command c) w y) →
      "NestedChoice" ≠ kind → "Conditional" ≠ kind → Opens table (.map m) (.command c) := by
    refine fun hc hnested hconditional => ⟨fun w y hy => absurd hy (hc w y), ?_⟩
    rintro k w ⟨⟩
    · next hk _ => exact absurd (hother hk) hnested
    · next hk _ => exact absurd (hother hk) hconditional
    · next hk _ => exact absurd (hother hk) hconditional
  unfold commandOf
  split
  · exact (Gives.trivial _).bind fun _ _ =>
      Gives.pure (hleaf (by rintro w y ⟨⟩) (by decide) (by decide))
  · exact (Gives.trivial _).bind fun _ _ => (Gives.trivial _).bind fun _ _ =>
      (Gives.trivial _).bind fun _ _ =>
        Gives.pure (hleaf (by rintro w y ⟨⟩) (by decide) (by decide))
  · exact (Gives.trivial _).bind fun _ _ =>
      Gives.pure (hleaf (by rintro w y ⟨⟩) (by decide) (by decide))
  · split
    · next hinner =>
      refine Gives.pure ⟨by rintro w y ⟨⟩, ?_⟩
      rintro k w ⟨⟩
      · next _ hw => cases hinner.symm.trans hw
      · next hk _ => exact absurd (hother hk) (by decide)
      · next hk _ => exact absurd (hother hk) (by decide)
    · next inner hinner =>
      refine (Gives.self _).bind fun c hc => Gives.pure ⟨?_, ?_⟩
      · rintro w y ⟨⟩
        next hw =>
        obtain ⟨r, s, hc⟩ := hc
        cases hinner.symm.trans hw
        exact ⟨fuel, r, s, hc⟩
      · rintro k w ⟨⟩
        · next _ hw => exact ⟨.choice c, rfl, .nested hw⟩
        · next hk _ => exact absurd (hother hk) (by decide)
        · next hk _ => exact absurd (hother hk) (by decide)
  · exact (Gives.trivial _).bind fun _ _ =>
      Gives.pure (hleaf (by rintro w y ⟨⟩) (by decide) (by decide))
  · refine (Gives.trivial _).bind fun label _ => ?_
    split
    · exact Gives.pure (hleaf (by rintro w y ⟨⟩) (by decide) (by decide))
    · exact Gives.throw _
  · refine (Gives.trivial _).bind fun c _ => (Gives.itemized _ _).bind fun thens ht =>
      (Gives.itemized _ _).bind fun elses he => Gives.pure ⟨?_, ?_⟩
    · rintro w y ⟨⟩
      · next hw => exact ⟨fuel, ht.read _ _ hw⟩
      · next hw => exact ⟨fuel, he.read _ _ hw⟩
    · rintro k w ⟨⟩
      · next hk _ => exact absurd (hother hk) (by decide)
      · next _ hw =>
        obtain ⟨c', hc'⟩ := ht.total w hw
        exact ⟨.command c', rfl, .thens hc'⟩
      · next _ hw =>
        obtain ⟨c', hc'⟩ := he.total w hw
        exact ⟨.command c', rfl, .elses hc'⟩
  · exact Gives.pure (hleaf (by rintro w y ⟨⟩) (by decide) (by decide))
  · next hkinds =>
    exact (Gives.trivial _).bind fun _ _ =>
      Gives.pure (hleaf (by rintro w y ⟨⟩) (by rintro rfl; simp_all) (by rintro rfl; simp_all))

/-- A part that is read is what it should be inside. -/
theorem Reads.opens {v : Value} {x : Part} (h : Reads table v x) : Opens table v x := by
  -- no induction: what is inside has been read, and that is all that is asked of it
  cases x with
  | choice c =>
    obtain ⟨fuel, r, s, hrun⟩ := h
    cases fuel with
    | zero => cases hrun
    | succ fuel =>
      have hgives : Gives (choice table (fuel + 1) v) fun c => Opens table v (.choice c) := by
        rw [choice]
        refine (Gives.fields v).bind fun m hm => ?_
        subst hm
        split
        · exact Gives.throw _
        · next hkind =>
          exact (Gives.trivial _).bind fun id _ => Gives.choiceOf_opens fuel hkind _
      exact hgives r c s hrun
  | body b =>
    obtain ⟨fuel, r, s, hrun⟩ := h
    cases fuel with
    | zero => cases hrun
    | succ fuel =>
      have hgives : Gives (macroOf table (fuel + 1) v) fun b => Opens table v (.body b) := by
        rw [macroOf]
        refine (Gives.fields v).bind fun m hm => ?_
        subst hm
        refine (Gives.trivial _).bind fun id _ => (Gives.itemized _ _).bind fun cs hcs =>
          Gives.pure ⟨?_, ?_⟩
        · rintro w y ⟨⟩
          next hw => exact ⟨fuel, hcs.read _ _ hw⟩
        · rintro k w ⟨⟩
          next hw =>
          obtain ⟨c, hc⟩ := hcs.total w hw
          exact ⟨.command c, rfl, .body hc⟩
      exact hgives r b s hrun
  | command c =>
    obtain ⟨fuel, r, s, hrun⟩ := h
    cases fuel with
    | zero => cases hrun
    | succ fuel =>
      have hgives : Gives (command table (fuel + 1) v) fun c => Opens table v (.command c) := by
        rw [command]
        refine (Gives.fields v).bind fun m hm => ?_
        subst hm
        split
        · exact Gives.throw _
        · next hkind =>
          exact (Gives.trivial _).bind fun id _ => Gives.commandOf_opens fuel hkind _
      exact hgives r c s hrun

/-- What is inside of a part that is read, at any depth, is read with the same table. -/
theorem Reads.within {v w : Value} {x y : Part} (h : Reads table v x)
    (hy : Part.Within v x w y) : Reads table w y := by
  induction hy with
  | self => exact h
  | inner _ hstep ih => exact ih.opens.reads _ _ hstep

/-- Each value inside, at any depth, is read as a part of its sort. -/
theorem Reads.total {v : Value} {x : Part} (h : Reads table v x) {k : Part.Kind} {w : Value}
    (hw : Value.HasWithin x.kind v k w) : ∃ y, y.kind = k ∧ Part.Within v x w y := by
  induction hw with
  | self => exact ⟨x, rfl, .self⟩
  | inner _ hstep ih =>
    obtain ⟨y, rfl, hy⟩ := ih
    obtain ⟨z, hz, hyz⟩ := (h.within hy).opens.total _ _ hstep
    exact ⟨z, hz, .inner hy hyz⟩

/-- The macro that a choice names is looked up in the table. -/
theorem Reads.body_eq {m : Entries} {c : Choice} {id : Value} (h : Reads table (.map m) (.choice c))
    (hid : m.Names id) : c.body? = macroById? table id := by
  obtain ⟨fuel, r, s, hrun⟩ := h
  cases fuel with
  | zero => cases hrun
  | succ fuel =>
    have hgives : Gives (choice table (fuel + 1) (.map m)) fun c =>
        c.body? = macroById? table id := by
      rw [choice, Value.fields, lift_ok_bind, hid.kind]
      refine (Gives.trivial _).bind fun i _ => ?_
      rw [choiceOf, hid.inline]
      have hnamed : ∀ name, Gives (namedMacro table name m) fun b => b = macroById? table id := by
        intro name
        rw [namedMacro, hid.named]
        dsimp only
        split
        · exact Gives.throw _
        · split
          · next b hb => exact Gives.pure hb.symm
          · next hb => exact (Gives.trivial _).bind fun _ _ => Gives.pure hb.symm
      exact (hnamed _).bind fun b hb => Gives.pure hb
    exact hgives r c s hrun

end Load

/-! ### The names that are read -/

namespace Load

/-- The names of macros in a choice of a kind: the name of the choice, and the id that it has for
the macro. -/
def choiceReferencesOf (ofBody ofChoice : Value → List (Value × Value)) (kind : String)
    (m : Entries) : List (Value × Value) :=
  match kind with
  | "Macro" =>
    match (m.field? "macro").filter Value.isTruthy with
    | some body => ofBody body
    | none =>
      (((m.first? ["macroId", "macro_id"]).filter Value.isTruthy).map fun id =>
        ((m.field? "name").getD (.text ""), id)).toList
  | "Multi" => (Value.itemsOrNone (m.field? "choices")).flatMap ofChoice
  | _ => []

/-- The names of macros in a command of a kind. -/
def commandReferencesOf (ofChoice ofCommand : Value → List (Value × Value)) (kind : String)
    (m : Entries) : List (Value × Value) :=
  match kind with
  | "NestedChoice" => ((m.field? "choice").filter Value.isTruthy).toList.flatMap ofChoice
  | "Conditional" =>
    (Value.itemsOrNone (m.first? ["thenCommands", "then_commands"])).flatMap ofCommand
      ++ (Value.itemsOrNone (m.first? ["elseCommands", "else_commands"])).flatMap ofCommand
  | _ => []

mutual

/-- The names of macros in a command, in the order in which they are read. -/
def commandReferences : (fuel : Nat) → Value → List (Value × Value)
  | fuel + 1, .map m =>
    match Entries.kind? m Command.kinds with
    | some kind =>
      commandReferencesOf (choiceReferences fuel) (commandReferences fuel) kind m
    | none => []
  | _, _ => []

/-- The names of macros in a macro. -/
def bodyReferences : (fuel : Nat) → Value → List (Value × Value)
  | fuel + 1, .map m =>
    (Value.itemsOrNone (Entries.field? m "commands")).flatMap (commandReferences fuel)
  | _, _ => []

/-- The names of macros in a choice. -/
def choiceReferences : (fuel : Nat) → Value → List (Value × Value)
  | fuel + 1, .map m =>
    match Entries.kind? m Choice.kinds with
    | some kind => choiceReferencesOf (bodyReferences fuel) (choiceReferences fuel) kind m
    | none => []
  | _, _ => []

end

/-- The warning about a name that leads nowhere. -/
def unknown (e : Value × Value) : String :=
  "Macro choice '" ++ e.1.display ++ "' references unknown macro id '" ++ e.2.display ++ "'"

/-- The warnings about those of some names that a table does not have. -/
def unresolved (table : Table) (es : List (Value × Value)) : List String :=
  (es.filter fun e => (macroById? table e.2).isNone).map unknown

theorem unresolved_append (table : Table) (es es' : List (Value × Value)) :
    unresolved table (es ++ es') = unresolved table es ++ unresolved table es' := by
  rw [unresolved, List.filter_append, List.map_append]
  rfl

theorem unresolved_flatMap (table : Table) (f : Value → List (Value × Value)) (vs : List Value) :
    unresolved table (vs.flatMap f) = vs.flatMap fun v => unresolved table (f v) := by
  induction vs with
  | nil => rfl
  | cons v vs ih => rw [List.flatMap_cons, List.flatMap_cons, unresolved_append, ih]

/-! ### Warnings -/

variable {α β : Type} {table : Table}

/-- A part of reading warns about just that, if it comes to an end. -/
def Warns (a : Load α) (ws : List String) : Prop :=
  ∀ r x s, a.runOn r = (.ok x, s) → s.warnings = r.warnings ++ ws

/-- Reading two parts is reading the one and then the other. -/
theorem exists_of_runOn_bind {a : Load α} {f : α → Load β} {r s : Reading} {y : β}
    (h : (a >>= f).runOn r = (.ok y, s)) :
    ∃ x t, a.runOn r = (.ok x, t) ∧ (f x).runOn t = (.ok y, s) := by
  rcases ha : a.runOn r with ⟨e | x, t⟩
  · rw [runOn_bind_error ha] at h
    cases h
  · rw [runOn_bind_ok ha] at h
    exact ⟨x, t, rfl, h⟩

namespace Warns

theorem pure (x : α) : Warns (pure x : Load α) [] := by
  intro r y s hrun
  cases hrun
  exact (List.append_nil _).symm

theorem throw (e : Fault) (ws : List String) : Warns (throw e : Load α) ws := by
  intro r y s hrun
  cases hrun

theorem lift (x : Except Fault α) : Warns (Load.lift x) [] := by
  intro r y s hrun
  cases hrun
  exact (List.append_nil _).symm

theorem newSlot : Warns newSlot [] := by
  intro r y s hrun
  cases hrun
  exact (List.append_nil _).symm

theorem warn (w : String) : Warns (warn w) [w] := by
  intro r y s hrun
  cases hrun
  rfl

theorem bind {a : Load α} {f : α → Load β} {ws ws' : List String} (ha : Warns a ws)
    (hf : ∀ x, Warns (f x) ws') : Warns (a >>= f) (ws ++ ws') := by
  intro r y s hrun
  obtain ⟨x, t, hx, hy⟩ := exists_of_runOn_bind hrun
  rw [hf x t y s hy, ha r x t hx, List.append_assoc]

/-- What comes first may have no warnings. -/
theorem after {a : Load α} {f : α → Load β} {ws : List String} (ha : Warns a [])
    (hf : ∀ x, Warns (f x) ws) : Warns (a >>= f) ws :=
  ha.bind hf

/-- What comes last may have no warnings. -/
theorem andPure {a : Load α} {f : α → β} {ws : List String} (ha : Warns a ws) :
    Warns (a >>= fun x => Pure.pure (f x)) ws :=
  List.append_nil ws ▸ ha.bind fun x => pure (f x)

theorem idOf (m : Entries) : Warns (idOf m) [] := by
  have hnew : Warns newId [] := by
    intro r x s hrun
    cases hrun
    exact (List.append_nil _).symm
  rw [Load.idOf]
  split
  · split
    · exact pure _
    · exact hnew
  · exact hnew

theorem mapM {f : Value → Load α} {g : Value → List String} (hf : ∀ v, Warns (f v) (g v))
    (vs : List Value) : Warns (vs.mapM f) (vs.flatMap g) := by
  induction vs with
  | nil => exact pure _
  | cons v vs ih =>
    rw [List.mapM_cons, List.flatMap_cons]
    exact (hf v).bind fun x => ih.andPure

theorem listOf {f : Value → Load α} {g : Value → List String} (hf : ∀ v, Warns (f v) (g v))
    (v : Option Value) : Warns (Load.listOf f v) ((Value.itemsOrNone v).flatMap g) := by
  rw [Load.listOf, Value.itemsOrNone]
  cases Value.itemsIfAny v with
  | ok vs => exact mapM hf vs
  | error e => exact throw e _

end Warns

/-- A name that leads nowhere is worth a warning. -/
theorem Warns.namedMacro (name : Value) (m : Entries) :
    Warns (namedMacro table name m) (unresolved table
      (((m.first? ["macroId", "macro_id"]).filter Value.isTruthy).map fun id =>
        (name, id)).toList) := by
  rw [Load.namedMacro]
  split
  · next h =>
    rw [h]
    exact Warns.pure _
  · next id h =>
    rw [h]
    split
    · exact Warns.throw _ _
    · split
      · next b hb =>
        have hnone : unresolved table [(name, id)] = [] := by simp [unresolved, hb]
        rw [Option.map_some, Option.toList_some, hnone]
        exact Warns.pure _
      · next hb =>
        have hsome : unresolved table [(name, id)] = [unknown (name, id)] := by
          simp [unresolved, hb]
        rw [Option.map_some, Option.toList_some, hsome]
        exact (Warns.warn _).andPure

theorem Warns.choiceOf {readMacro : Value → Load Macro} {readChoice : Value → Load Choice}
    {ofBody ofChoice : Value → List (Value × Value)}
    (hmacros : ∀ v, Warns (readMacro v) (unresolved table (ofBody v)))
    (hchoice : ∀ v, Warns (readChoice v) (unresolved table (ofChoice v))) (kind : String)
    (m : Entries) {head : ChoiceHead} (hname : head.name = (m.field? "name").getD (.text "")) :
    Warns (choiceOf table readMacro readChoice kind m head)
      (unresolved table (choiceReferencesOf ofBody ofChoice kind m)) := by
  unfold Load.choiceOf
  split
  · rw [choiceReferencesOf]
    cases (m.field? "macro").filter Value.isTruthy with
    | some body => exact (hmacros body).andPure
    | none =>
      rw [← hname]
      exact (Warns.namedMacro head.name m).andPure
  · rw [choiceReferencesOf, unresolved_flatMap]
    exact (Warns.listOf hchoice _).andPure
  · exact Warns.pure _
  · next hmacro hmulti _ =>
    rw [choiceReferencesOf.eq_3 _ _ _ _ hmacro hmulti]
    exact Warns.pure _

theorem Warns.commandOf {readChoice : Value → Load Choice} {readCommand : Value → Load Command}
    {ofChoice ofCommand : Value → List (Value × Value)}
    (hchoice : ∀ v, Warns (readChoice v) (unresolved table (ofChoice v)))
    (hcommand : ∀ v, Warns (readCommand v) (unresolved table (ofCommand v))) (kind : String)
    (m : Entries) (head : CommandHead) :
    Warns (commandOf readChoice readCommand kind m head)
      (unresolved table (commandReferencesOf ofChoice ofCommand kind m)) := by
  unfold Load.commandOf
  split
  · exact (Warns.lift _).after fun _ => Warns.pure _
  · exact (Warns.lift _).after fun _ => (Warns.lift _).after fun _ =>
      Warns.newSlot.after fun _ => Warns.pure _
  · exact (Warns.lift _).after fun _ => Warns.pure _
  · rw [commandReferencesOf]
    cases (m.field? "choice").filter Value.isTruthy with
    | none => exact Warns.pure _
    | some inner =>
      rw [Option.toList_some, List.flatMap_singleton]
      exact (hchoice _).andPure
  · exact (Warns.lift _).after fun _ => Warns.pure _
  · refine (Warns.lift _).after fun label => ?_
    split
    · exact Warns.pure _
    · exact Warns.throw _ _
  · rw [commandReferencesOf, unresolved_append, unresolved_flatMap, unresolved_flatMap]
    exact (Warns.lift _).after fun _ => (Warns.listOf hcommand _).bind fun _ =>
      (Warns.listOf hcommand _).andPure
  · exact Warns.pure _
  · next hnested _ _ hconditional _ =>
    rw [commandReferencesOf.eq_3 _ _ _ _ hnested hconditional]
    exact (Warns.lift _).after fun _ => Warns.pure _

/-- Whatever is read, the warnings are about the names in it that the table does not have. -/
theorem warns_unresolved (table : Table) (fuel : Nat) :
    (∀ v, Warns (command table fuel v) (unresolved table (commandReferences fuel v))) ∧
      (∀ v, Warns (macroOf table fuel v) (unresolved table (bodyReferences fuel v))) ∧
        ∀ v, Warns (choice table fuel v) (unresolved table (choiceReferences fuel v)) := by
  induction fuel with
  | zero =>
    exact ⟨fun _ => Warns.throw _ _, fun _ => Warns.throw _ _, fun _ => Warns.throw _ _⟩
  | succ fuel ih =>
    obtain ⟨hcommand, hmacros, hchoice⟩ := ih
    refine ⟨fun v => ?_, fun v => ?_, fun v => ?_⟩
    · cases v with
      | map m =>
        rw [command, commandReferences, Value.fields, lift_ok_bind]
        split
        · next h => exact Warns.throw _ _
        · next kind h =>
          rw [h]
          exact (Warns.idOf m).after fun id => Warns.commandOf hchoice hcommand kind m _
      | _ => exact Warns.throw _ _
    · cases v with
      | map m =>
        rw [macroOf, bodyReferences, Value.fields, lift_ok_bind, unresolved_flatMap]
        exact (Warns.idOf m).after fun id => (Warns.listOf hcommand _).andPure
      | _ => exact Warns.throw _ _
    · cases v with
      | map m =>
        rw [choice, choiceReferences, Value.fields, lift_ok_bind]
        split
        · next h => exact Warns.throw _ _
        · next kind h =>
          rw [h]
          exact (Warns.idOf m).after fun id => Warns.choiceOf hmacros hchoice kind m rfl
      | _ => exact Warns.throw _ _

end Load

/-! ### Documents -/

namespace Document

/-- The macros of a document as a table. -/
def table (d : Document) : Load.Table :=
  d.macros.map fun b => (b.id, b)

/-- The macros are read first, without a table, and the choices then, with that of the macros. -/
private theorem runOn_sections {v : Value} {d : Document} {r s : Reading}
    (h : (ofValue v).runOn r = (.ok d, s)) :
    ∃ t u, (Load.listOf (Load.macroOf [] v.depth) (section? v "macros")).runOn r =
        (.ok d.macros, t) ∧
      (Load.listOf (Load.choice d.table v.depth) (section? v "choices")).runOn t =
        (.ok d.choices, u) ∧ s.warnings = u.warnings := by
  cases v with
  | null =>
    cases h
    exact ⟨r, r, rfl, rfl, rfl⟩
  | list xs =>
    obtain ⟨cs, t, hcs, hrest⟩ := Load.exists_of_runOn_bind h
    cases hrest
    refine ⟨r, s, rfl, ?_, rfl⟩
    cases xs <;> exact hcs
  | map es =>
    obtain ⟨bs, t, hbs, hrest⟩ := Load.exists_of_runOn_bind h
    split at hrest
    · cases hrest
    · obtain ⟨cs, u, hcs, hrest⟩ := Load.exists_of_runOn_bind hrest
      obtain ⟨settings, w, hsettings, hrest⟩ := Load.exists_of_runOn_bind hrest
      cases hrest
      refine ⟨t, u, hbs, hcs, ?_⟩
      have hwarns := Load.Warns.lift _ _ _ _ hsettings
      rwa [List.append_nil] at hwarns
  | _ => cases h

/-- A macro is found by its id if there is one. -/
theorem macroById?_table (d : Document) (id : Value) :
    (∃ b ∈ d.macros, b.id.same id = true ∧ Load.macroById? d.table id = some b) ∨
      (∀ b ∈ d.macros, b.id.same id = false) ∧ Load.macroById? d.table id = none := by
  cases h : Load.macroById? d.table id with
  | none =>
    refine .inr ⟨fun b hb => ?_, rfl⟩
    have hnone := List.find?_eq_none.mp (Option.map_eq_none_iff.mp h) (b.id, b)
      (List.mem_reverse.mpr (List.mem_map_of_mem hb))
    exact Bool.eq_false_iff.mpr hnone
  | some b =>
    obtain ⟨e, he, rfl⟩ := Option.map_eq_some_iff.mp h
    obtain ⟨b, hb, rfl⟩ := List.mem_map.mp (List.mem_reverse.mp (List.mem_of_find?_eq_some he))
    have hsame : b.id.same id = true :=
      List.find?_some (p := fun e : Value × Macro => e.1.same id) he
    exact .inl ⟨b, hb, hsame, rfl⟩

/-- Without a table, no name leads anywhere. -/
theorem unresolved_nil (es : List (Value × Value)) :
    Load.unresolved [] es = es.map Load.unknown := by
  have hall : es.filter (fun e => (Load.macroById? [] e.2).isNone) = es :=
    List.filter_eq_self.mpr fun _ _ => rfl
  rw [Load.unresolved, hall]

/-- The names that lead nowhere are those that are the id of no macro. -/
theorem unresolved_table (d : Document) (es : List (Value × Value)) :
    Load.unresolved d.table es =
      (es.filter fun e => d.macros.all fun b => !b.id.same e.2).map Load.unknown := by
  rw [Load.unresolved]
  congr 1
  refine List.filter_congr fun e _ => ?_
  rcases d.macroById?_table e.2 with ⟨b, hb, hsame, hfound⟩ | ⟨hnone, hfound⟩
  · rw [hfound, eq_comm, Option.isNone_some, List.all_eq_false]
    exact ⟨b, hb, by rw [hsame]; decide⟩
  · rw [hfound, eq_comm, Option.isNone_none, List.all_eq_true]
    exact fun b hb => by rw [hnone b hb]; rfl

/-- The names of macros that are read in a section of a document. -/
def references (v : Value) (name : String)
    (ofItem : (fuel : Nat) → Value → List (Value × Value)) : List (Value × Value) :=
  (Value.itemsOrNone (section? v name)).flatMap (ofItem v.depth)

/-- A choice that names the macro `b`. -/
def naming (id : String) : Entries :=
  record [("id", .text id), ("name", .text id), ("type", .text "Macro"), ("macroId", .text "b")]

/-- A command that runs a choice which names `b`. -/
def runNaming : Entries :=
  record [("id", .text "run"), ("type", .text "NestedChoice"), ("choice", .map (naming "inner"))]

/-- A document with a macro `b`, a macro `a` with that command, and a choice that names `b`. -/
def namingValue : Value :=
  .map (record [
    ("macros", .list [
      .map (record [("id", .text "b")]),
      .map (record [("id", .text "a"), ("commands", .list [.map runNaming])])]),
    ("choices", .list [.map (naming "outer")])])

/-- What the document is read as. The choice inside of `a` is left without a macro. -/
def named : Document :=
  let b : Macro := .mk (.text "b") (.text "") [] false
  let inner : Choice := .ofMacro ⟨.text "inner", .text "inner", false⟩ none
  let a : Macro := .mk (.text "a") (.text "") [.nested ⟨.text "", .text "run"⟩ (some inner)] false
  ⟨[.ofMacro ⟨.text "outer", .text "outer", false⟩ (some b)], [b, a], []⟩

private theorem runOn_namingValue : (ofValue namingValue).runOn .start =
    (.ok named, ⟨0, 0, ["Macro choice 'inner' references unknown macro id 'b'"]⟩) := by
  with_unfolding_all rfl

private theorem same_named : ∃ b ∈ named.macros, b.id.same (.text "b") = true :=
  ⟨_, List.mem_cons_self, by with_unfolding_all rfl⟩

private theorem names_naming (id : String) : (naming id).Names (.text "b") := by
  refine ⟨?_, ?_, ?_⟩ <;> with_unfolding_all rfl

/-- **A choice of a document gets the macro that it names; a choice inside of a macro that is kept
beside the choices does not.** Let a document be read from any value. Every value at a place for a
choice, at whatever depth below the choices of the document or inside of the macros beside them, is
read as a choice. Of those that name a macro, the first sort have a macro with that id if there is
one, and the second have none. There is a warning for each name inside of the macros, and then for
each name below the choices that is the id of no macro; there are no other warnings. -/
theorem ofValue_resolves {v : Value} {d : Document} {r s : Reading}
    (h : (ofValue v).runOn r = (.ok d, s)) :
    (∀ w ∈ Value.itemsOrNone (section? v "choices"), ∀ w', Value.HasWithin .choice w .choice w' →
      ∃ c, d.InChoices v w' c) ∧
    (∀ w ∈ Value.itemsOrNone (section? v "macros"), ∀ w', Value.HasWithin .body w .choice w' →
      ∃ c, d.InMacros v w' c) ∧
    (∀ (m : Entries) c id, d.InChoices v (.map m) c → m.Names id →
      (∃ b ∈ d.macros, b.id.same id = true) →
      ∃ b ∈ d.macros, b.id.same id = true ∧ c.body? = some b) ∧
    (∀ (m : Entries) c id, d.InMacros v (.map m) c → m.Names id → c.body? = none) ∧
    s.warnings = r.warnings ++ (references v "macros" Load.bodyReferences).map Load.unknown ++
      ((references v "choices" Load.choiceReferences).filter fun e =>
        d.macros.all fun b => !b.id.same e.2).map Load.unknown := by
  obtain ⟨t, u, hmacros, hchoices, hwarnings⟩ := runOn_sections h
  have hbodies := Gives.itemized _ _ _ _ _ hmacros
  have hitems := Gives.itemized _ _ _ _ _ hchoices
  have hbody : ∀ {w b}, (w, b) ∈ (Value.itemsOrNone (section? v "macros")).zip d.macros →
      Load.Reads [] w (.body b) := fun hw => ⟨v.depth, hbodies.read _ _ hw⟩
  have hitem : ∀ {w c}, (w, c) ∈ (Value.itemsOrNone (section? v "choices")).zip d.choices →
      Load.Reads d.table w (.choice c) := fun hw => ⟨v.depth, hitems.read _ _ hw⟩
  refine ⟨fun w hw w' hw' => ?_, fun w hw w' hw' => ?_, ?_, ?_, ?_⟩
  · obtain ⟨c, hc⟩ := hitems.total w hw
    obtain ⟨y, hy, hwithin⟩ := (hitem hc).total hw'
    cases y with
    | choice c' => exact ⟨c', w, c, hc, hwithin⟩
    | _ => cases hy
  · obtain ⟨b, hb⟩ := hbodies.total w hw
    obtain ⟨y, hy, hwithin⟩ := (hbody hb).total hw'
    cases y with
    | choice c' => exact ⟨c', w, b, hb, hwithin⟩
    | _ => cases hy
  · rintro m c id ⟨w, c', hw, hwithin⟩ hid ⟨b, hb, hsame⟩
    have hc := ((hitem hw).within hwithin).body_eq hid
    rcases d.macroById?_table id with ⟨b', hb', hsame', hfound⟩ | ⟨hnone, -⟩
    · exact ⟨b', hb', hsame', hc.trans hfound⟩
    · exact absurd hsame (Bool.eq_false_iff.mp (hnone b hb))
  · rintro m c id ⟨w, b, hw, hwithin⟩ hid
    exact ((hbody hw).within hwithin).body_eq hid
  · have hfirst := Load.Warns.listOf (Load.warns_unresolved [] v.depth).2.1 _ _ _ _ hmacros
    have hsecond := Load.Warns.listOf (Load.warns_unresolved d.table v.depth).2.2 _ _ _ _ hchoices
    rw [hwarnings, hsecond, hfirst, ← Load.unresolved_flatMap, ← Load.unresolved_flatMap,
      unresolved_nil, unresolved_table]
    rfl

/-- The choice `outer` of the document gets the macro that it names. -/
theorem ofValue_resolves_naming :
    (ofValue namingValue).runOn .start =
        (.ok named, ⟨0, 0, ["Macro choice 'inner' references unknown macro id 'b'"]⟩) ∧
      ∃ b ∈ named.macros, b.id.same (.text "b") = true ∧
        (Choice.ofMacro ⟨.text "outer", .text "outer", false⟩
          (some (.mk (.text "b") (.text "") [] false))).body? = some b := by
  have houter : named.InChoices namingValue (.map (naming "outer"))
      (.ofMacro ⟨.text "outer", .text "outer", false⟩
        (some (.mk (.text "b") (.text "") [] false))) := by
    have hzip : (Value.itemsOrNone (section? namingValue "choices")).zip named.choices =
        [(.map (naming "outer"), .ofMacro ⟨.text "outer", .text "outer", false⟩
          (some (.mk (.text "b") (.text "") [] false)))] := by
      with_unfolding_all rfl
    exact ⟨_, _, by rw [hzip]; exact List.mem_cons_self, .self⟩
  exact ⟨runOn_namingValue, (ofValue_resolves runOn_namingValue).2.2.1 (naming "outer") _ _ houter
    (names_naming "outer") same_named⟩

/-- A choice inside of a macro beside the choices names one of these macros, has none, and is
warned about. -/
theorem ofValue_naming :
    ∃ d s c, (ofValue namingValue).runOn .start = (.ok d, s) ∧
      d.InMacros namingValue (.map (naming "inner")) c ∧ (naming "inner").Names (.text "b") ∧
      (∃ b ∈ d.macros, b.id.same (.text "b") = true) ∧ c.body? = none ∧
      s.warnings = ["Macro choice 'inner' references unknown macro id 'b'"] := by
  refine ⟨named, _, .ofMacro ⟨.text "inner", .text "inner", false⟩ none, runOn_namingValue, ?_,
    names_naming "inner", same_named, rfl, rfl⟩
  let a : Entries := record [("id", .text "a"), ("commands", .list [.map runNaming])]
  let inner : Choice := .ofMacro ⟨.text "inner", .text "inner", false⟩ none
  let run : Command := .nested ⟨.text "", .text "run"⟩ (some inner)
  have hmacros : (Value.itemsOrNone (section? namingValue "macros")).zip named.macros =
      [(.map (record [("id", .text "b")]), .mk (.text "b") (.text "") [] false),
        (.map a, .mk (.text "a") (.text "") [run] false)] := by
    with_unfolding_all rfl
  have hcommands : (Value.itemsOrNone (a.field? "commands")).zip [run] =
      [(.map runNaming, run)] := by
    with_unfolding_all rfl
  have hbody : Part.Holds (.map a) (.body (.mk (.text "a") (.text "") [run] false))
      (.map runNaming) (.command run) := .body (hcommands ▸ List.mem_cons_self)
  have hnested : Part.Holds (.map runNaming) (.command run) (.map (naming "inner"))
      (.choice inner) := .nested (by with_unfolding_all rfl)
  refine ⟨.map a, .mk (.text "a") (.text "") [run] false, ?_, .inner (.inner .self hbody) hnested⟩
  rw [hmacros]
  exact List.mem_cons_of_mem _ List.mem_cons_self

end Document

end Choicebook
