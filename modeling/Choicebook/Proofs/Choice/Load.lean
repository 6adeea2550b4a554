import Choicebook.Choice.Reader
import Choicebook.Proofs.Choice.Stored

/-!
# Reading as a program

Two judgements about a part of reading. `Load.Gives a P` is what a round trip needs to know about
the first reading: whatever `a` reads, if it reads anything, has `P`. `Load.Quiet a P` is what it
has to show about the second: from any state, `a` reads something that has `P`, makes no id and
warns about nothing. Slots are handed out as ever.

The rest is about the outer layer of the readers: how the head of a choice or a command is read, and
that the parts of a value are less deep than the value.
-/

namespace Choicebook

namespace Load

variable {α β : Type}

/-- Runs a part of reading from a state. -/
def runOn (a : Load α) (r : Reading) : Except Fault α × Reading :=
  StateT.run (ExceptT.run a) r

theorem runOn_pure (x : α) (r : Reading) : (pure x : Load α).runOn r = (.ok x, r) := rfl

theorem runOn_throw (e : Fault) (r : Reading) : (throw e : Load α).runOn r = (.error e, r) := rfl

theorem runOn_lift (x : Except Fault α) (r : Reading) : (lift x).runOn r = (x, r) := rfl

theorem runOn_bind_ok {a : Load α} {r s : Reading} {x : α} (h : a.runOn r = (.ok x, s))
    (f : α → Load β) : (a >>= f).runOn r = (f x).runOn s := by
  change StateT.run (ExceptT.bindCont f (a.runOn r).1) (a.runOn r).2 = _
  rw [h]
  rfl

theorem runOn_bind_error {a : Load α} {r s : Reading} {e : Fault} (h : a.runOn r = (.error e, s))
    (f : α → Load β) : (a >>= f).runOn r = (.error e, s) := by
  change StateT.run (ExceptT.bindCont f (a.runOn r).1) (a.runOn r).2 = _
  rw [h]
  rfl

/-- What has been read is what comes next. -/
theorem lift_ok_bind (x : α) (f : α → Load β) : (lift (.ok x) >>= f) = f x := rfl

/-! ### What is read -/

/-- Whatever is read has a property. -/
def Gives (a : Load α) (P : α → Prop) : Prop :=
  ∀ r x s, a.runOn r = (.ok x, s) → P x

namespace Gives

variable {P : α → Prop} {Q : β → Prop}

theorem pure {x : α} (h : P x) : Gives (pure x) P := by
  intro r y s hrun
  rw [runOn_pure] at hrun
  cases hrun
  exact h

theorem throw (e : Fault) : Gives (throw e : Load α) P := by
  intro r x s hrun
  rw [runOn_throw] at hrun
  cases hrun

theorem lift {a : Except Fault α} (h : ∀ x, a = .ok x → P x) : Gives (Load.lift a) P := by
  intro r x s hrun
  exact h x (congrArg Prod.fst hrun)

/-- Nothing has to be known about what is read. -/
theorem trivial (a : Load α) : Gives a fun _ => True :=
  fun _ _ _ _ => True.intro

theorem bind {a : Load α} {f : α → Load β} (ha : Gives a P) (hf : ∀ x, P x → Gives (f x) Q) :
    Gives (a >>= f) Q := by
  intro r y s hrun
  rcases h : a.runOn r with ⟨e | x, t⟩
  · rw [runOn_bind_error h] at hrun
    cases hrun
  · rw [runOn_bind_ok h] at hrun
    exact hf x (ha r x t h) t y s hrun

theorem mapM {γ : Type} {f : γ → Load α} (hf : ∀ v, Gives (f v) P) (vs : List γ) :
    Gives (vs.mapM f) fun xs => ∀ x ∈ xs, P x := by
  induction vs with
  | nil => exact pure (List.forall_mem_nil _)
  | cons v vs ih =>
    rw [List.mapM_cons]
    refine (hf v).bind fun x hx => ih.bind fun xs hxs => pure ?_
    exact List.forall_mem_cons.mpr ⟨hx, hxs⟩

theorem listOf {read : Value → Load α} (h : ∀ v, Gives (read v) P) (v : Option Value) :
    Gives (Load.listOf read v) fun xs => ∀ x ∈ xs, P x :=
  (trivial _).bind fun vs _ => mapM h vs

end Gives

/-! ### Reading without ids and warnings -/

/-- Something is read that has a property; no id is made, and nothing is worth a warning. -/
def Quiet (a : Load α) (P : α → Prop) : Prop :=
  ∀ r, ∃ x s, a.runOn r = (.ok x, s) ∧ P x ∧ s.ids = r.ids ∧ s.warnings = r.warnings

namespace Quiet

variable {P : α → Prop} {Q : β → Prop}

theorem pure {x : α} (h : P x) : Quiet (pure x) P :=
  fun r => ⟨x, r, rfl, h, rfl, rfl⟩

theorem lift {x : α} {a : Except Fault α} (ha : a = .ok x) (h : P x) : Quiet (Load.lift a) P :=
  fun r => ⟨x, r, by rw [runOn_lift, ha], h, rfl, rfl⟩

theorem newSlot : Quiet newSlot fun _ => True :=
  fun r => ⟨r.slots, { r with slots := r.slots + 1 }, rfl, True.intro, rfl, rfl⟩

theorem bind {a : Load α} {f : α → Load β} (ha : Quiet a P) (hf : ∀ x, P x → Quiet (f x) Q) :
    Quiet (a >>= f) Q := by
  intro r
  obtain ⟨x, s, hx, hP, hids, hwarn⟩ := ha r
  obtain ⟨y, t, hy, hQ, hids', hwarn'⟩ := hf x hP s
  exact ⟨y, t, (runOn_bind_ok hx f).trans hy, hQ, hids'.trans hids, hwarn'.trans hwarn⟩

theorem mono {P' : α → Prop} {a : Load α} (ha : Quiet a P) (h : ∀ x, P x → P' x) :
    Quiet a P' := by
  intro r
  obtain ⟨x, s, hx, hP, hrest⟩ := ha r
  exact ⟨x, s, hx, h x hP, hrest⟩

/-- Items that are each read back as the same thing are read back as the same list. -/
theorem mapM_map {f : Value → Load α} {store : α → Value} {xs : List α}
    (h : ∀ x ∈ xs, Quiet (f (store x)) fun y => store y = store x) :
    Quiet ((xs.map store).mapM f) fun ys => ys.map store = xs.map store := by
  induction xs with
  | nil => exact pure rfl
  | cons x xs ih =>
    rw [List.forall_mem_cons] at h
    rw [List.map_cons, List.mapM_cons]
    refine h.1.bind fun y hy => (ih h.2).bind fun ys hys => pure ?_
    rw [List.map_cons, hy, hys]

/-- The same for a list inside of a mapping. -/
theorem listOf_map {f : Value → Load α} {store : α → Value} {xs : List α}
    (h : ∀ x ∈ xs, Quiet (f (store x)) fun y => store y = store x) :
    Quiet (Load.listOf f (some (.list (xs.map store)))) fun ys =>
      ys.map store = xs.map store := by
  have hitems : Value.itemsIfAny (some (.list (xs.map store))) = .ok (xs.map store) := by
    cases xs <;> rfl
  exact (lift hitems rfl).bind fun _ heq => heq ▸ mapM_map h

end Quiet

end Load

/-! ### Fields -/

/-- What is found at two places in turn is related if it is at each of them. -/
theorem rel_or {α : Type} {R : α → α → Prop} {x x' y y' : Option α} (hx : Option.Rel R x x')
    (hy : Option.Rel R y y') : Option.Rel R (x.or y) (x'.or y') := by
  cases hx with
  | none => exact hy
  | some h => exact .some h

namespace Entries

@[simp]
theorem first?_nil (m : Entries) : m.first? [] = none := rfl

@[simp]
theorem first?_cons (m : Entries) (n : String) (names : List String) :
    m.first? (n :: names) = (m.field? n).or (m.first? names) := by
  rw [first?, List.findSome?_cons]
  cases m.field? n <;> rfl

@[simp]
theorem firstText_eq (m : Entries) (names : List String) (preset : String) :
    m.firstText names preset = ((m.first? names).map Value.written).getD (.ok preset) := by
  rw [firstText]
  cases m.first? names <;> rfl

@[simp]
theorem firstTruth_eq (m : Entries) (names : List String) :
    m.firstTruth names = (m.first? names).any Value.isTruthy := rfl

end Entries

theorem Value.toEntriesIfAny_map (es : Entries) : toEntriesIfAny (some (.map es)) = .ok es := by
  cases es <;> rfl

@[simp]
theorem Value.isTruthy_bool (b : Bool) : (Value.bool b).isTruthy = b := rfl

@[simp]
theorem Value.isTruthy_null : Value.null.isTruthy = false := rfl

@[simp]
theorem Value.display_text (s : String) : (Value.text s).display = s := rfl

@[simp]
theorem Value.written_text (s : String) : (Value.text s).written = .ok s := rfl

/-! ### Heads -/

/-- What stands at the head of a mapping that is read. -/
structure Entries.Headed (m : Entries) (kind : String) (name id : Value) : Prop where
  type_eq : m.field? "type" = some (.text kind)
  name_eq : m.field? "name" = some name
  id_eq : m.field? "id" = some id
  truthy : id.isTruthy = true

namespace Load

variable {m : Entries} {kind : String} {name id : Value} (table : Table) (fuel : Nat)

/-- An id that is missing or empty is made, and one that is made is not empty. -/
theorem Gives.idOf (m : Entries) : Gives (idOf m) fun v => v.isTruthy = true := by
  have hnew : Gives newId fun v => v.isTruthy = true := by
    intro r x s hrun
    cases hrun
    simp [Value.isTruthy]
  rw [Load.idOf]
  split
  · split
    · next h => exact Gives.pure h
    · exact hnew
  · exact hnew

theorem idOf_headed (h : m.Headed kind name id) : idOf m = pure id := by
  rw [idOf, h.id_eq]
  exact if_pos h.truthy

theorem command_headed (h : m.Headed kind name id) (hkind : kind ∈ Command.kinds) :
    command table (fuel + 1) (.map m) =
      commandOf (choice table fuel) (command table fuel) kind m ⟨name, id⟩ := by
  have hk : m.kind? Command.kinds = some kind := by
    simp [Entries.kind?, h.type_eq, Value.asText?, Option.filter, hkind]
  rw [command, Value.fields, lift_ok_bind, hk]
  simp only [idOf_headed h, pure_bind, h.name_eq, Option.getD_some]

theorem choice_headed (h : m.Headed kind name id) (hkind : kind ∈ Choice.kinds) :
    choice table (fuel + 1) (.map m) =
      choiceOf table (macroOf table fuel) (choice table fuel) kind m
        ⟨name, id, m.firstTruth ["command"]⟩ := by
  have hk : m.kind? Choice.kinds = some kind := by
    simp [Entries.kind?, h.type_eq, Value.asText?, Option.filter, hkind]
  rw [choice, Value.fields, lift_ok_bind, hk]
  simp only [idOf_headed h, pure_bind, h.name_eq, Option.getD_some]

end Load

/-! ### Depth -/

namespace Value

theorem depth_pos (v : Value) : 0 < v.depth := by
  cases v <;> simp [depth]

private theorem depth_le_depthAll {x : Value} {xs : List Value} (h : x ∈ xs) :
    x.depth ≤ depthAll xs := by
  induction xs with
  | nil => cases h
  | cons y xs ih =>
    rw [depthAll]
    rcases List.mem_cons.mp h with rfl | h
    · exact Nat.le_max_left _ _
    · exact (ih h).trans (Nat.le_max_right _ _)

private theorem depth_le_depthEntries {e : Value × Value} {es : Entries} (h : e ∈ es) :
    e.2.depth ≤ depthEntries es := by
  induction es with
  | nil => cases h
  | cons e' es ih =>
    rw [depthEntries]
    rcases List.mem_cons.mp h with rfl | h
    · exact Nat.le_max_left _ _
    · exact (ih h).trans (Nat.le_max_right _ _)

/-- The items of a list are less deep than the list. -/
theorem depth_lt_of_mem {x : Value} {xs : List Value} (h : x ∈ xs) :
    x.depth < (Value.list xs).depth := by
  rw [depth]
  exact Nat.lt_succ_of_le (depth_le_depthAll h)

/-- The value of a field is less deep than the mapping. -/
theorem depth_lt_of_field {m : Entries} {n : String} {v : Value} (h : m.field? n = some v) :
    v.depth < (Value.map m).depth := by
  obtain ⟨e, he, rfl⟩ := Option.map_eq_some_iff.mp h
  rw [depth]
  exact Nat.lt_succ_of_le (depth_le_depthEntries (List.mem_of_find?_eq_some he))

end Value

namespace Load

variable {α : Type} {read : (fuel : Nat) → Value → Load α} {store : α → Value}

/-- What is stored of `x` is read, given enough fuel, as something of which the same is stored. -/
def ReadBack (read : (fuel : Nat) → Value → Load α) (store : α → Value) (x : α) : Prop :=
  ∀ fuel, (store x).depth ≤ fuel → Quiet (read fuel (store x)) fun y => store y = store x

theorem ReadBack.of_succ {x : α} (h : ∀ fuel, (store x).depth ≤ fuel + 1 →
    Quiet (read (fuel + 1) (store x)) fun y => store y = store x) : ReadBack read store x := by
  intro fuel hfuel
  cases fuel with
  | zero => exact absurd (store x).depth_pos (by omega)
  | succ fuel => exact h fuel hfuel

/-- A part that is stored in a field is read with the fuel that is left for it. -/
theorem ReadBack.field {x : α} (h : ReadBack read store x) {m : Entries} {n : String} {fuel : Nat}
    (hfield : m.field? n = some (store x)) (hdepth : (Value.map m).depth ≤ fuel + 1) :
    Quiet (read fuel (store x)) fun y => store y = store x := by
  have hpart := Value.depth_lt_of_field hfield
  exact h fuel (by omega)

/-- So is a list of parts. -/
theorem ReadBack.listOf {xs : List α} (h : ∀ x ∈ xs, ReadBack read store x) {m : Entries}
    {n : String} {fuel : Nat} (hfield : m.field? n = some (.list (xs.map store)))
    (hdepth : (Value.map m).depth ≤ fuel + 1) :
    Quiet (Load.listOf (read fuel) (some (.list (xs.map store)))) fun ys =>
      ys.map store = xs.map store := by
  refine Quiet.listOf_map fun x hx => h x hx fuel ?_
  have hlist := Value.depth_lt_of_field hfield
  have hitem := Value.depth_lt_of_mem (List.mem_map_of_mem (f := store) hx)
  omega

end Load

end Choicebook
