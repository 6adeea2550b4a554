import Choicebook.Proofs.Number.Numeral
import Choicebook.Proofs.Session.Exports
import Choicebook.Proofs.Value.Names

/-!
# Members that are missing

Names are followed into an export from member to member. In data, as a document has it, what a name
stands for can be said without any look-up (`Value.HasMember`): the value under a text in a mapping,
and in a list or a tuple the item at the position that a numeral writes. Everything else has no
members.

The main theorem, `Value.follow_of_isData`, says when names are followed to the end and which fault
there is otherwise. It is the first name without a member that is reported, or the last name if null
stands at the end. The one exception are names of digits that are no number (`Text.IsMisleading`):
in a list or a tuple, they are taken for a position and fail as a number.
-/

namespace Choicebook

namespace Value

open Text (IsNumeral IsMisleading numeralValue)

/-! ### Data and what is in it -/

/-- The items of a list or a tuple. Their names are their positions. -/
def itemsByPosition? : Value → Option (List Value)
  | .list xs | .tuple xs => some xs
  | _ => none

/-- Null, primitives, and lists, tuples and mappings of names to other data. -/
inductive IsData : Value → Prop where
  | null : IsData .null
  | primitive {v : Value} (hv : v.isPrimitive = true) : IsData v
  | items {v : Value} {xs : List Value} (hv : v.itemsByPosition? = some xs)
    (hxs : ∀ x ∈ xs, IsData x) : IsData v
  | map {es : Entries} (hkeys : es.Named) (hes : ∀ e ∈ es, IsData e.2) : IsData (.map es)

/-- A value has a member under a name. -/
inductive HasMember : Value → String → Value → Prop where
  | item {v m : Value} {xs : List Value} {key : String} (hv : v.itemsByPosition? = some xs)
    (hkey : IsNumeral key) (hm : xs[numeralValue key]? = some m) : HasMember v key m
  | entry {es : Entries} {key : String} {m : Value} (hm : (.text key, m) ∈ es) :
    HasMember (.map es) key m

/-- All names of a path have members, one in the other, and this is the last of them. -/
inductive Reaches : Value → List String → Value → Prop where
  | here {v : Value} : Reaches v [] v
  | member {v m w : Value} {key : String} {path : List String} (hm : v.HasMember key m)
    (hrest : Reaches m path w) : Reaches v (key :: path) w

/-- A value takes a name for a position that is not even a number. -/
def Misreads (v : Value) (key : String) : Prop :=
  v.itemsByPosition?.isSome = true ∧ IsMisleading key

theorem itemsByPosition?_of_isPrimitive {v : Value} (hv : v.isPrimitive = true) :
    v.itemsByPosition? = none := by
  cases v with
  | list | tuple => cases hv
  | _ => rfl

theorem IsData.of_items {v : Value} {xs : List Value} (hv : v.IsData)
    (h : v.itemsByPosition? = some xs) : ∀ x ∈ xs, x.IsData := by
  cases hv with
  | null => cases h
  | primitive hv => cases (itemsByPosition?_of_isPrimitive hv).symm.trans h
  | items hxs hdata =>
    cases h.symm.trans hxs
    exact hdata
  | map => cases h

theorem IsData.of_map {es : Entries} (hv : (Value.map es).IsData) :
    es.Named ∧ ∀ e ∈ es, e.2.IsData := by
  cases hv with
  | primitive hv => cases hv
  | items hv => cases hv
  | map hkeys hes => exact ⟨hkeys, hes⟩

theorem IsData.of_hasMember {v m : Value} {key : String} (hv : v.IsData) (hm : v.HasMember key m) :
    m.IsData := by
  cases hm with
  | item hxs _ hm => exact hv.of_items hxs m (List.mem_of_getElem? hm)
  | entry hm => exact hv.of_map.2 _ hm

theorem IsData.of_reaches {v w : Value} {path : List String} (hv : v.IsData)
    (h : v.Reaches path w) : w.IsData := by
  induction h with
  | here => exact hv
  | member hm _ ih => exact ih (hv.of_hasMember hm)

/-! ### The look-up of one member -/

/-- What the look-up of a name comes to: the member, nothing, or a fault if the name is misread. -/
inductive Sought (v : Value) (key : String) : Except Fault (Option Value) → Prop where
  | found {m : Value} (hm : v.HasMember key m) : Sought v key (.ok (some m))
  | missing (hnone : ∀ m, ¬v.HasMember key m) (hkey : ¬v.Misreads key) : Sought v key (.ok none)
  | misread (hnone : ∀ m, ¬v.HasMember key m) (hkey : v.Misreads key) :
    Sought v key (.error (.misuse .badValue))

private theorem sought_item {v : Value} {key : String} {xs : List Value}
    (hv : v.itemsByPosition? = some xs)
    (hmember : v.member? key = (fun i => i.bind fun i => xs[i]?) <$> position? key) :
    v.Sought key (v.member? key) := by
  have hitem : ∀ m, v.HasMember key m → IsNumeral key ∧ xs[numeralValue key]? = some m := by
    rintro m (⟨hxs, hkey, hm⟩ | hm)
    · cases hv.symm.trans hxs
      exact ⟨hkey, hm⟩
    · cases hv
  rw [hmember]
  rcases Text.isNumeral_or_isMisleading key with hkey | hkey | hkey
  · have hfound : (fun i => i.bind fun i => xs[i]?) <$> position? key =
        .ok xs[numeralValue key]? := by
      rw [position?_of_isNumeral hkey]
      rfl
    rw [hfound]
    cases hm : xs[numeralValue key]? with
    | some m => exact .found (.item hv hkey hm)
    | none =>
      refine .missing (fun m hmem => ?_) fun hmis => hmis.2.2 hkey
      cases hm.symm.trans (hitem m hmem).2
  · rw [position?_of_isMisleading hkey]
    exact .misread (fun m hmem => hkey.2 (hitem m hmem).1) ⟨by rw [hv]; rfl, hkey⟩
  · rw [position?_of_not_allDigits hkey]
    refine .missing (fun m hmem => ?_) fun hmis => ?_
    · rw [(hitem m hmem).1.allDigits] at hkey
      cases hkey
    · rw [hmis.2.1] at hkey
      cases hkey

/-- In data, the look-up comes to what the name stands for. -/
theorem IsData.sought {v : Value} (hv : v.IsData) (key : String) :
    v.Sought key (v.member? key) := by
  have hnothing : v.itemsByPosition? = none → (∀ es, v ≠ .map es) → v.Sought key (.ok none) := by
    intro hitems hmap
    refine .missing (fun m hm => ?_) fun hmis => ?_
    · cases hm with
      | item hxs => cases hitems.symm.trans hxs
      | entry => exact hmap _ rfl
    · rw [Misreads, hitems] at hmis
      cases hmis.1
  cases hv with
  | null => exact hnothing rfl nofun
  | primitive hv =>
    cases v with
    | text | int | float | bool => exact hnothing rfl nofun
    | _ => cases hv
  | items hv _ =>
    cases v with
    | list xs => exact sought_item rfl rfl
    | tuple xs => exact sought_item rfl rfl
    | _ => cases hv
  | @map es hkeys _ =>
    have hfound : ∀ m, Entries.field? es key = some m ↔ (Value.map es).HasMember key m := by
      intro m
      rw [hkeys.distinct.field?_eq_some_iff]
      refine ⟨.entry, fun hm => ?_⟩
      cases hm with
      | item hxs => cases hxs
      | entry hm => exact hm
    have hmember : (Value.map es).member? key = .ok (Entries.field? es key) := rfl
    rw [hmember]
    cases hm : Entries.field? es key with
    | some m => exact .found ((hfound m).mp hm)
    | none =>
      refine .missing (fun m hmem => ?_) nofun
      cases hm.symm.trans ((hfound m).mpr hmem)

/-- A name stands for one member at most. -/
theorem IsData.hasMember_unique {v m m' : Value} {key : String} (hv : v.IsData)
    (hm : v.HasMember key m) (hm' : v.HasMember key m') : m = m' := by
  cases hm with
  | item hxs _ hm =>
    cases hm' with
    | item hxs' _ hm' =>
      cases hxs.symm.trans hxs'
      exact Option.some.inj (hm.symm.trans hm')
    | entry => cases hxs
  | entry hm =>
    cases hm' with
    | item hxs => cases hxs
    | entry hm' =>
      have hdistinct := hv.of_map.1.distinct
      have hfound := hdistinct.field?_eq_some_iff.mpr hm
      exact Option.some.inj (hfound.symm.trans (hdistinct.field?_eq_some_iff.mpr hm'))

theorem IsData.member?_eq_some_iff {v m : Value} {key : String} (hv : v.IsData) :
    v.member? key = .ok (some m) ↔ v.HasMember key m := by
  have hsought := hv.sought key
  constructor
  · intro h
    rw [h] at hsought
    cases hsought with
    | found hm => exact hm
  · intro hm
    generalize v.member? key = found at hsought
    cases hsought with
    | found hm' => rw [hv.hasMember_unique hm hm']
    | missing hnone => exact absurd hm (hnone m)
    | misread hnone => exact absurd hm (hnone m)

/-! ### Following names -/

/-- Following names one by one fails at the first one that fails, having followed those before. -/
private theorem foldlM_eq_error_iff {α β ε : Type} {find : β → α → Except ε β} {path : List α}
    {v : β} {f : ε} :
    path.foldlM find v = .error f ↔ ∃ before key after w, path = before ++ key :: after ∧
      before.foldlM find v = .ok w ∧ find w key = .error f := by
  induction path generalizing v with
  | nil =>
    constructor
    · rintro ⟨⟩
    · rintro ⟨before, key, after, w, hpath, -⟩
      cases List.append_ne_nil_of_right_ne_nil before (List.cons_ne_nil key after) hpath.symm
  | cons name path ih =>
    rw [List.foldlM_cons]
    cases hu : find v name with
    | error g =>
      -- the first name fails, so nothing has been followed before the one that does
      constructor
      · rintro ⟨⟩
        exact ⟨[], name, path, v, rfl, rfl, hu⟩
      · rintro ⟨before, key, after, w, hpath, hbefore, hkey⟩
        cases before with
        | nil =>
          cases hbefore
          cases hpath
          cases hu.symm.trans hkey
          rfl
        | cons first before =>
          cases hpath
          rw [List.foldlM_cons, hu] at hbefore
          cases hbefore
    | ok u =>
      refine ih.trans ⟨?_, ?_⟩
      · rintro ⟨before, key, after, w, rfl, hbefore, hkey⟩
        refine ⟨name :: before, key, after, w, rfl, ?_, hkey⟩
        rw [List.foldlM_cons, hu]
        exact hbefore
      · rintro ⟨before, key, after, w, hpath, hbefore, hkey⟩
        cases before with
        | nil =>
          cases hbefore
          cases hpath
          cases hu.symm.trans hkey
        | cons first before =>
          cases hpath
          rw [List.foldlM_cons, hu] at hbefore
          exact ⟨before, key, after, w, rfl, hbefore, hkey⟩

/-- The member under a name, or the fault that it is missing. -/
def expectMember (owner : String) (v : Value) (key : String) : Except Fault Value := do
  match ← v.member? key with
  | some m => .ok m
  | none => .error (.missingMember owner key)

theorem expectMember_eq_ok_iff {owner key : String} {v m : Value} :
    v.expectMember owner key = .ok m ↔ v.member? key = .ok (some m) := by
  rw [expectMember]
  rcases v.member? key with f | _ | u
  · exact iff_of_false nofun nofun
  · exact iff_of_false nofun nofun
  · exact ⟨fun h => by cases h; rfl, fun h => by cases h; rfl⟩

theorem expectMember_eq_error_iff {owner key : String} {v : Value} {f : Fault} :
    v.expectMember owner key = .error f ↔
      v.member? key = .error f ∨ v.member? key = .ok none ∧ f = .missingMember owner key := by
  rw [expectMember]
  rcases v.member? key with g | _ | u
  · refine ⟨fun h => by cases h; exact .inl rfl, ?_⟩
    rintro (h | ⟨h, -⟩)
    · cases h
      rfl
    · cases h
  · refine ⟨fun h => by cases h; exact .inr ⟨rfl, rfl⟩, ?_⟩
    rintro (h | ⟨-, rfl⟩)
    · cases h
    · rfl
  · refine iff_of_false nofun ?_
    rintro (h | ⟨h, -⟩)
    · cases h
    · cases h

private theorem bind_eq_error_iff {x : Except Fault Value} {g : Value → Except Fault Value}
    {f : Fault} : (x >>= g) = .error f ↔ x = .error f ∨ ∃ m, x = .ok m ∧ g m = .error f := by
  cases x with
  | error e =>
    refine ⟨.inl, ?_⟩
    rintro (h | ⟨m, h, -⟩)
    · exact h
    · cases h
  | ok m =>
    refine ⟨fun h => .inr ⟨m, rfl, h⟩, ?_⟩
    rintro (h | ⟨m', h, hg⟩)
    · cases h
    · cases h
      exact hg

/-- Names fail to be followed where a look-up fails, or if null is at the end. -/
theorem follow_eq_error_iff {owner : String} {path : List String} {v : Value} {f : Fault} :
    v.follow owner path = .error f ↔
      (∃ before key after w, path = before ++ key :: after ∧ Names v before w ∧
        (w.member? key = .error f ∨ w.member? key = .ok none ∧ f = .missingMember owner key)) ∨
      ∃ before key, path = before ++ [key] ∧ Names v path .null ∧ f = .missingMember owner key := by
  have hnames : ∀ {before w}, before.foldlM (expectMember owner) v = .ok w ↔ Names v before w :=
    foldlM_eq_ok_iff fun _ _ _ => expectMember_eq_ok_iff
  rw [follow]
  change (path.foldlM (expectMember owner) v >>= _) = .error f ↔ _
  rw [bind_eq_error_iff]
  refine or_congr ?_ ⟨?_, ?_⟩
  · simp only [foldlM_eq_error_iff, hnames, expectMember_eq_error_iff]
  · rintro ⟨w, hw, hend⟩
    split at hend
    · next last hlast =>
      cases hend
      obtain ⟨before, rfl⟩ := List.getLast?_eq_some_iff.mp hlast
      exact ⟨before, last, rfl, hnames.mp hw, rfl⟩
    · cases hend
  · rintro ⟨before, key, rfl, hw, rfl⟩
    refine ⟨.null, hnames.mpr hw, ?_⟩
    rw [List.getLast?_concat]

/-- In data, names are followed through what they stand for. -/
theorem IsData.names_iff_reaches {v w : Value} {path : List String} (hv : v.IsData) :
    Names v path w ↔ v.Reaches path w := by
  constructor
  · intro h
    induction h with
    | nil => exact .here
    | cons hu _ ih =>
      have hm := hv.member?_eq_some_iff.mp hu
      exact .member hm (ih (hv.of_hasMember hm))
  · intro h
    induction h with
    | here => exact .nil
    | member hm _ ih => exact .cons (hv.member?_eq_some_iff.mpr hm) (ih (hv.of_hasMember hm))

/-- Where the look-up in data finds nothing, with or without a fault. -/
theorem IsData.unfound_iff {owner key : String} {v : Value} {f : Fault} (hv : v.IsData) :
    (v.member? key = .error f ∨ v.member? key = .ok none ∧ f = .missingMember owner key) ↔
      (∀ m, ¬v.HasMember key m) ∧ (v.Misreads key → f = .misuse .badValue) ∧
        (¬v.Misreads key → f = .missingMember owner key) := by
  have hsought := hv.sought key
  generalize v.member? key = found at hsought
  cases hsought with
  | found hm =>
    refine iff_of_false ?_ fun h => h.1 _ hm
    rintro (h | ⟨h, -⟩)
    · cases h
    · cases h
  | missing hnone hkey =>
    refine ⟨?_, fun h => .inr ⟨rfl, h.2.2 hkey⟩⟩
    rintro (h | ⟨-, rfl⟩)
    · cases h
    · exact ⟨hnone, fun hmis => absurd hmis hkey, fun _ => rfl⟩
  | misread hnone hkey =>
    refine ⟨?_, fun h => .inl (by rw [h.2.1 hkey])⟩
    rintro (h | ⟨h, -⟩)
    · cases h
      exact ⟨hnone, fun _ => rfl, fun hread => absurd hkey hread⟩
    · cases h

/-- **What following names in data comes to.** All names of a path are followed, and lead to the
value that they stand for, unless this is null; otherwise the fault is that of the first name
without a member, or that of the last name if null is at the end. The fault says that this name is
missing from the macro. Only a name of digits that is not a number is another fault, where a
position is expected. -/
theorem follow_of_isData {v : Value} (hv : v.IsData) (owner : String) (path : List String) :
    (∀ w, v.follow owner path = .ok w ↔ v.Reaches path w ∧ (w = .null → path = [])) ∧
    ∀ f, v.follow owner path = .error f ↔
      (∃ before key after w, path = before ++ key :: after ∧ v.Reaches before w ∧
        (∀ m, ¬w.HasMember key m) ∧ (w.Misreads key → f = .misuse .badValue) ∧
        (¬w.Misreads key → f = .missingMember owner key)) ∨
      ∃ before key, path = before ++ [key] ∧ v.Reaches path .null ∧
        f = .missingMember owner key := by
  refine ⟨fun w => ?_, fun f => ?_⟩
  · rw [follow_eq_ok_iff, hv.names_iff_reaches]
  · rw [follow_eq_error_iff, hv.names_iff_reaches]
    refine or_congr_left (exists_congr fun before => exists_congr fun key =>
      exists_congr fun after => exists_congr fun w => and_congr_right' ?_)
    rw [hv.names_iff_reaches]
    exact and_congr_right fun hw => (hv.of_reaches hw).unfound_iff

/-- A table in which positions are found in any script, one is too far, and one holds nothing. -/
theorem follow_of_isData_table :
    let table : Value := .map [(.text "rows", .list [.null, .map [(.text "name", .text "x")]])]
    table.follow "M" ["rows", "١", "name"] = .ok (.text "x") ∧
      table.follow "M" ["rows", "2", "name"] = .error (.missingMember "M" "2") ∧
      table.follow "M" ["rows", "0"] = .error (.missingMember "M" "0") := by
  intro table
  have hnamed : ∀ (name : String) (x : Value), Entries.Named [(.text name, x)] := fun name x =>
    Entries.named_nil.insert name x
  have hrow : IsData (.map [(.text "name", .text "x")]) :=
    .map (hnamed "name" _) (List.forall_mem_singleton.mpr (.primitive rfl))
  have hrows : IsData (.list [.null, .map [(.text "name", .text "x")]]) :=
    .items rfl (List.forall_mem_cons.mpr ⟨.null, List.forall_mem_singleton.mpr hrow⟩)
  have htable : table.IsData := .map (hnamed "rows" _) (List.forall_mem_singleton.mpr hrows)
  have hentry : table.HasMember "rows" (.list [.null, .map [(.text "name", .text "x")]]) :=
    .entry (List.mem_singleton_self _)
  have hone : IsNumeral "١" := by decide
  have hzero : IsNumeral "0" := by decide
  refine ⟨?_, ?_, ?_⟩
  · refine ((follow_of_isData htable "M" _).1 _).mpr ⟨?_, nofun⟩
    exact .member hentry (.member (.item rfl hone rfl)
      (.member (.entry (List.mem_singleton_self _)) .here))
  · refine ((follow_of_isData htable "M" _).2 _).mpr (.inl ⟨["rows"], "2", ["name"], _, rfl,
      .member hentry .here, ?_, ?_, fun _ => rfl⟩)
    · rintro m (⟨⟨⟩, -, hm⟩ | _)
      cases hm
    · rintro ⟨-, -, hnumeral⟩
      exact absurd (by decide) hnumeral
  · refine ((follow_of_isData htable "M" _).2 _).mpr (.inr ⟨["rows"], "0", rfl, ?_, rfl⟩)
    exact .member hentry (.member (.item rfl hzero rfl) .here)

/-- A digit that is raised is no position, and what is reported is not that it is missing. -/
theorem follow_raised_digit :
    let items : Value := .list [.text "a"]
    items.IsData ∧ (∀ m, ¬items.HasMember "²" m) ∧
      items.follow "M" ["²"] = .error (.misuse .badValue) ∧
      items.follow "M" ["²"] ≠ .error (.missingMember "M" "²") := by
  intro items
  have hitems : items.IsData := .items rfl (List.forall_mem_singleton.mpr (.primitive rfl))
  have hfault : items.follow "M" ["²"] = .error (.misuse .badValue) := by rfl
  refine ⟨hitems, ?_, hfault, ?_⟩
  · intro m (hm : HasMember (.list [.text "a"]) "²" m)
    cases hm with
    | item _ hkey _ => exact absurd (hkey.decimal '²' List.mem_cons_self) (by decide)
  · rw [hfault]
    rintro ⟨⟩

end Value

end Choicebook
