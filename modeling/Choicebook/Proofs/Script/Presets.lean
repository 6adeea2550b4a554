import Choicebook.Proofs.Value.Entries
import Choicebook.Script.Export

/-!
# Presets of settings

The settings that a script declares have options, and an option may declare a default. Before a
member of the script is run, the defaults become settings of the command where there is no setting
yet, and null counts as none. The main theorem, `Entries.withPresets_fills`, says that this fills
the gaps and does nothing else, that doing it again changes nothing, and that the order of the
options does not matter.

For names that can be looked up it follows from one equation (`Entries.get?_withPresets`): the value
is the setting of before unless it is null, or else the default, or else what there was. The
equation is proved option by option. A gap that one option has filled is no gap for a later one, but
as no two options have the same name, no later one has a default for it anyway.

Names are compared by `Value.same`. A value that is not the same as itself, such as not a number,
names no setting that could be looked up, so an option of that name is set anew each time. What
becomes of the entries as such, whatever their names, is said by `Entries.Filled`. It holds of one
option (`Entries.filled_fillIn`) and is passed on from option to option (`Entries.Filled.trans`).
-/

namespace Choicebook

/-- The default that an option declares, if it declares one and that is not null. -/
def Value.preset? : Value → Option Value
  | .map option => (Entries.field? option "defaultValue").filter (!·.isNull)
  | _ => none

theorem Value.isNull_of_preset? {option v : Value} (h : option.preset? = some v) :
    v.isNull = false := by
  cases option with
  | map option => simpa using (Option.filter_eq_some_iff.mp h).2
  | _ => cases h

namespace Entries

variable {declared settings : Entries} {name v : Value}

/-- The options of declared settings, by name. -/
def options (declared : Entries) : Entries :=
  ((declared.field? "options").bind Value.asMap?).getD []

/-- The default that is declared for a name. -/
def preset? (declared : Entries) (name : Value) : Option Value :=
  (declared.options.get? name).bind Value.preset?

/-- The setting of a name, unless it is null. -/
def setting? (settings : Entries) (name : Value) : Option Value :=
  (settings.get? name).filter (!·.isNull)

/-- The defaults that options have, by name. -/
def presets (options : Entries) : Entries :=
  options.filterMap fun option => option.2.preset?.map (option.1, ·)

/-- Settings and what options make of them. Every entry keeps its place and its name. It also keeps
its value, unless that is null and an option of the name has a default. After the entries of before
come defaults of options, in the order of the options. -/
inductive Filled (options : Entries) : (settings filled : Entries) → Prop
  | added {added : Entries} (h : added.Sublist options.presets) : Filled options [] added
  | kept (entry : Value × Value) {settings filled : Entries} (h : Filled options settings filled) :
      Filled options (entry :: settings) (entry :: filled)
  | preset {name gap v : Value} {settings filled : Entries} {option : Value × Value}
      (hgap : gap.isNull = true) (hmem : option ∈ options) (hname : name.same option.1 = true)
      (hv : option.2.preset? = some v) (h : Filled options settings filled) :
      Filled options ((name, gap) :: settings) ((name, v) :: filled)

/-- What it means to fill the gaps in settings with declared defaults, and to do nothing else. -/
structure FillsGaps (declared settings filled : Entries) : Prop where
  /-- A setting that is not null stays as it is. -/
  kept : ∀ {name v : Value}, name.canBeKey = true → settings.get? name = some v →
    v.isNull = false → filled.get? name = some v
  /-- An option that is not set, or set to null, and that has a default is set to it. -/
  preset : ∀ {name v : Value}, name.canBeKey = true → settings.setting? name = none →
    declared.preset? name = some v → filled.get? name = some v
  /-- No other name is set, changed or removed. -/
  framed : ∀ {name : Value}, name.canBeKey = true →
    settings.setting? name ≠ none ∨ declared.preset? name = none →
    filled.get? name = settings.get? name
  /-- Entry by entry, whether or not its name can be looked up, nothing else happens. -/
  entries : Filled declared.options settings filled

/-! ### One option -/

/-- Settings after an option has been looked at. -/
def fillIn (settings : Entries) (option : Value × Value) : Entries :=
  match settings.setting? option.1, option.2.preset? with
  | none, some preset => settings.insert option.1 preset
  | _, _ => settings

theorem withPresets_eq_foldl (declared settings : Entries) :
    withPresets declared settings = declared.options.foldl fillIn settings := by
  rw [withPresets, options]
  cases declared.field? "options" with
  | none => rfl
  | some v =>
    cases v with
    | map options =>
      refine congrArg (fun step => options.foldl step settings) (funext₂ fun settings option => ?_)
      obtain ⟨name, option⟩ := option
      rw [fillIn, setting?]
      cases (settings.get? name).filter (!·.isNull) with
      | some => cases option <;> rfl
      | none =>
        cases option with
        | map option =>
          dsimp only [Value.preset?]
          cases (field? option "defaultValue").filter (!·.isNull) <;> rfl
        | _ => rfl
    | _ => rfl

private theorem filter_or_self {α : Type} (p : α → Bool) (x : Option α) :
    (x.filter p).or x = x := by
  cases x with
  | none => rfl
  | some a =>
    rw [Option.filter_some]
    split <;> rfl

/-- A setting that is not null is what a look-up finds first. -/
theorem setting?_or_get? (settings : Entries) (name : Value) :
    (settings.setting? name).or (settings.get? name) = settings.get? name :=
  filter_or_self _ _

/-- An option fills the gap of its own name and leaves every other name alone. -/
theorem get?_fillIn (settings : Entries) (option : Value × Value) (hname : name.canBeKey = true) :
    (settings.fillIn option).get? name =
      if option.1.same name then
        (settings.setting? name).or (option.2.preset?.or (settings.get? name))
      else settings.get? name := by
  split
  · next hsame =>
    have hsetting : settings.setting? option.1 = settings.setting? name := by
      rw [setting?, setting?, get?_congr settings hsame hname]
    rw [fillIn, hsetting]
    cases hv : settings.setting? name with
    | some v => rw [← setting?_or_get?, hv, Option.some_or, Option.some_or]
    | none =>
      cases option.2.preset? with
      | none => rfl
      | some preset => exact (get?_insert settings preset hname).trans (if_pos hsame)
  · next hother =>
    rw [fillIn]
    split
    · exact (get?_insert settings _ hname).trans (if_neg hother)
    · rfl

/-! ### All options -/

private theorem get?_foldl_fillIn {options : Entries} (hoptions : options.Distinct)
    (settings : Entries) (hname : name.canBeKey = true) :
    (options.foldl fillIn settings).get? name =
      (settings.setting? name).or
        (((options.get? name).bind Value.preset?).or (settings.get? name)) := by
  induction hoptions generalizing settings with
  | nil => exact (setting?_or_get? settings name).symm
  | @cons option options hapart _ ih =>
    have hfilled := get?_fillIn settings option hname
    rw [List.foldl_cons, ih, get?_cons]
    split at hfilled
    · next hsame =>
      -- no later option has the name
      rw [get?_eq_none_of_apart hapart hsame hname, Option.bind_none, Option.none_or,
        setting?_or_get?, hfilled, if_pos hsame, Option.bind_some]
    · next hother => rw [setting?, hfilled, ← setting?, if_neg hother]

/-- The value of a name after the presets: its setting unless that is null, or else its default, or
else what there was. -/
theorem get?_withPresets (hoptions : declared.options.Distinct) (settings : Entries)
    (hname : name.canBeKey = true) :
    (withPresets declared settings).get? name =
      (settings.setting? name).or ((declared.preset? name).or (settings.get? name)) := by
  rw [withPresets_eq_foldl]
  exact get?_foldl_fillIn hoptions settings hname

/-- No default is null. -/
theorem isNull_of_preset? (h : declared.preset? name = some v) : v.isNull = false := by
  obtain ⟨option, -, hpreset⟩ := Option.bind_eq_some_iff.mp h
  exact Value.isNull_of_preset? hpreset

/-- After the presets a name is set if it was before or if it has a default. -/
theorem setting?_withPresets (hoptions : declared.options.Distinct) (settings : Entries)
    (hname : name.canBeKey = true) :
    (withPresets declared settings).setting? name =
      (settings.setting? name).or (declared.preset? name) := by
  rw [setting?, get?_withPresets hoptions settings hname]
  cases hsetting : settings.setting? name with
  | some v =>
    have hv := (Option.filter_eq_some_iff.mp hsetting).2
    exact Option.filter_eq_some_iff.mpr ⟨rfl, hv⟩
  | none =>
    cases hpreset : declared.preset? name with
    | some v =>
      have hv := isNull_of_preset? hpreset
      exact Option.filter_eq_some_iff.mpr ⟨rfl, by rw [hv]; rfl⟩
    | none => exact hsetting

/-! ### The entries -/

theorem presets_cons (option : Value × Value) (options : Entries) :
    presets (option :: options) = presets [option] ++ options.presets :=
  List.filterMap_append (l := [option])

theorem isNull_of_mem_presets {options : Entries} {entry : Value × Value}
    (h : entry ∈ options.presets) : entry.2.isNull = false := by
  obtain ⟨option, -, hentry⟩ := List.mem_filterMap.mp h
  obtain ⟨v, hv, rfl⟩ := Option.map_eq_some_iff.mp hentry
  exact Value.isNull_of_preset? hv

namespace Filled

variable {options filled : Entries} {option : Value × Value}

theorem refl (options : Entries) : ∀ settings : Entries, Filled options settings settings
  | [] => .added (List.nil_sublist _)
  | entry :: settings => .kept entry (refl options settings)

/-- Where there is no gap, entries are only added. -/
theorem exists_added (h : Filled options settings filled)
    (hfull : ∀ entry ∈ settings, entry.2.isNull = false) :
    ∃ added : Entries, added.Sublist options.presets ∧ filled = settings ++ added := by
  induction h with
  | added h => exact ⟨_, h, rfl⟩
  | kept entry _ ih =>
    obtain ⟨added, hadded, rfl⟩ := ih (List.forall_mem_cons.mp hfull).2
    exact ⟨added, hadded, rfl⟩
  | preset hgap => exact absurd hgap (by rw [(List.forall_mem_cons.mp hfull).1]; decide)

/-- What one option makes of settings and then others of the result, they make of it together. -/
theorem trans {between : Entries} (hfirst : Filled [option] settings between)
    (hrest : Filled options between filled) : Filled (option :: options) settings filled := by
  induction hfirst generalizing filled with
  | added hfirst =>
    -- a default that has just been set is no gap
    obtain ⟨added, hadded, rfl⟩ := hrest.exists_added fun entry hentry =>
      isNull_of_mem_presets (hfirst.subset hentry)
    refine .added ?_
    rw [presets_cons]
    exact hfirst.append hadded
  | kept entry _ ih =>
    cases hrest with
    | kept _ hrest => exact .kept entry (ih hrest)
    | preset hgap hmem hname hv hrest =>
      exact .preset hgap (List.mem_cons_of_mem _ hmem) hname hv (ih hrest)
  | preset hgap hmem hname hv _ ih =>
    obtain rfl := List.mem_singleton.mp hmem
    cases hrest with
    | kept _ hrest => exact .preset hgap List.mem_cons_self hname hv (ih hrest)
    | preset hnull => exact absurd hnull (by rw [Value.isNull_of_preset? hv]; decide)

/-- To set a default where there is a gap is all that an option does. -/
theorem insert {v : Value} (hv : option.2.preset? = some v)
    (hgap : settings.setting? option.1 = none) :
    Filled [option] settings (Entries.insert option.1 v settings) := by
  induction settings with
  | nil =>
    refine .added ?_
    rw [presets, List.filterMap_cons, hv]
    exact List.Sublist.refl _
  | cons entry settings ih =>
    rw [setting?, get?_cons] at hgap
    rw [Entries.insert]
    split
    · next hsame =>
      rw [if_pos hsame, Option.filter_eq_none_iff] at hgap
      have hnull : entry.2.isNull = true := by simpa using hgap entry.2 rfl
      exact .preset hnull List.mem_cons_self hsame hv (refl _ _)
    · next hother =>
      rw [if_neg hother] at hgap
      exact .kept entry (ih hgap)

end Filled

theorem filled_fillIn (settings : Entries) (option : Value × Value) :
    Filled [option] settings (settings.fillIn option) := by
  rw [fillIn]
  split
  · next hgap hv => exact .insert hv hgap
  · exact .refl _ _

private theorem filled_foldl_fillIn (options settings : Entries) :
    Filled options settings (options.foldl fillIn settings) := by
  induction options generalizing settings with
  | nil => exact .refl _ _
  | cons option options ih => exact (filled_fillIn settings option).trans (ih _)

/-! ### Doing it again -/

private theorem foldl_fillIn_of_fixed {options filled : Entries}
    (h : ∀ option ∈ options, filled.fillIn option = filled) :
    options.foldl fillIn filled = filled := by
  induction options with
  | nil => rfl
  | cons option options ih =>
    obtain ⟨hoption, hoptions⟩ := List.forall_mem_cons.mp h
    rw [List.foldl_cons, hoption, ih hoptions]

/-- After the presets there is nothing left for an option to fill. -/
theorem fillIn_withPresets (hoptions : declared.options.Distinct) (settings : Entries)
    {option : Value × Value} (hmem : option ∈ declared.options)
    (hkey : option.1.canBeKey = true) (hsame : option.1.same option.1 = true) :
    (withPresets declared settings).fillIn option = withPresets declared settings := by
  have hget : declared.options.get? option.1 = some option.2 :=
    (hoptions.get?_eq_some_iff hkey).mpr ⟨option, hmem, hsame, rfl⟩
  have hsetting := setting?_withPresets hoptions settings hkey
  rw [preset?, hget, Option.bind_some] at hsetting
  rw [fillIn, hsetting]
  cases settings.setting? option.1 with
  | some => rfl
  | none => cases option.2.preset? <;> rfl

/-! ### Filling the gaps -/

/-- **Presets of settings.** Presets fill the gaps and do nothing else. As far as names can be
looked up, to set them again changes nothing, and they do not depend on the order of the options. If
each name of an option is the same as itself, to set them again changes nothing at all. -/
theorem withPresets_fills (hoptions : declared.options.Distinct) (settings : Entries) :
    FillsGaps declared settings (withPresets declared settings) ∧
      (∀ name : Value, name.canBeKey = true →
        (withPresets declared (withPresets declared settings)).get? name =
          (withPresets declared settings).get? name) ∧
      ((∀ option ∈ declared.options, option.1.canBeKey = true ∧ option.1.same option.1 = true) →
        withPresets declared (withPresets declared settings) = withPresets declared settings) ∧
      ∀ reordered : Entries, reordered.options.Distinct →
        reordered.options.Perm declared.options → ∀ name : Value, name.canBeKey = true →
          (withPresets reordered settings).get? name =
            (withPresets declared settings).get? name := by
  refine ⟨⟨?_, ?_, ?_, ?_⟩, ?_, ?_, ?_⟩
  · intro name v hname hv hnull
    have hsetting : settings.setting? name = some v := by
      rw [setting?, hv, Option.filter_some, hnull]
      rfl
    rw [get?_withPresets hoptions settings hname, hsetting, Option.some_or]
  · intro name v hname hgap hpreset
    rw [get?_withPresets hoptions settings hname, hgap, hpreset, Option.none_or, Option.some_or]
  · intro name hname hother
    rw [get?_withPresets hoptions settings hname]
    rcases hother with hset | hpreset
    · obtain ⟨v, hv⟩ := Option.ne_none_iff_exists'.mp hset
      rw [← setting?_or_get? settings name, hv, Option.some_or, Option.some_or]
    · rw [hpreset, Option.none_or, setting?_or_get?]
  · rw [withPresets_eq_foldl]
    exact filled_foldl_fillIn declared.options settings
  · intro name hname
    rw [get?_withPresets hoptions _ hname, setting?_withPresets hoptions settings hname,
      get?_withPresets hoptions settings hname]
    cases settings.setting? name with
    | some => rfl
    | none => cases declared.preset? name <;> rfl
  · intro hnames
    rw [withPresets_eq_foldl declared (withPresets declared settings)]
    refine foldl_fillIn_of_fixed fun option hmem => ?_
    obtain ⟨hkey, hsame⟩ := hnames option hmem
    exact fillIn_withPresets hoptions settings hmem hkey hsame
  · intro reordered hdistinct hperm name hname
    have hpreset : reordered.preset? name = declared.preset? name := by
      rw [preset?, preset?, hdistinct.get?_perm hoptions hperm hname]
    rw [get?_withPresets hdistinct settings hname, hpreset,
      get?_withPresets hoptions settings hname]

/-- A null setting is filled, a null default and an option without one fill nothing, a setting of
its own is kept, and a name that was missing comes last. -/
theorem withPresets_fills_mixed :
    let declared : Entries := [(.text "options", .map [
      (.text "tone", .map [(.text "defaultValue", .text "dry")]),
      (.text "size", .map [(.text "defaultValue", .null)]),
      (.text "hint", .text "free text"),
      (.int 7, .map [(.text "defaultValue", .list [])]),
      (.text "mode", .map [(.text "defaultValue", .int 1)])])]
    let settings : Entries := [(.text "tone", .null), (.text "mode", .bool false)]
    let filled : Entries :=
      [(.text "tone", .text "dry"), (.text "mode", .bool false), (.int 7, .list [])]
    declared.options.Distinct ∧ FillsGaps declared settings filled ∧
      withPresets declared filled = filled := by
  intro declared settings filled
  have hoptions : declared.options.Distinct := by decide +kernel
  have hfilled : withPresets declared settings = filled := by with_unfolding_all rfl
  have hnames : ∀ option ∈ declared.options,
      option.1.canBeKey = true ∧ option.1.same option.1 = true := by decide +kernel
  obtain ⟨hfills, -, hagain, -⟩ := withPresets_fills hoptions settings
  rw [hfilled] at hfills hagain
  exact ⟨hoptions, hfills, hagain hnames⟩

end Entries

end Choicebook
