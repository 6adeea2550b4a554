import Choicebook.Choice.Tree
import Choicebook.Proofs.Choice.RoundTrip

/-!
# The list of macros

`Document.allMacros` lists the macros of a document: those beside the choices, then those that macro
choices own, each id once. A document is stored with a macro at every place where it stands, so one
that several choices name becomes several macros with the same id, and ids can coincide otherwise.
Of those with the same id the first one is listed, and nothing is listed twice or missed
(`Document.Lists`).

The list depends on the ids alone (`Document.distinct_keys`), and these can be told from what is
stored. So the list of a document that is stored and read again has the same ids, in the same order,
and so have the macros that are run at the start (`Document.allMacros_once`). What this takes is
that no payload hides what stands in a menu or in a macro choice: payloads that are read have none
of the names of the head (`Choice.Tidy`).
-/

namespace Choicebook

open Encoding (plain plainField)
open Load (Gives)

/-! ### The tree of choices -/

/-- A choice stands in a list of choices or, at any depth, in a menu of the list. -/
inductive Choice.Within : Choice → List Choice → Prop
  | here {c : Choice} {cs : List Choice} (h : c ∈ cs) : Within c cs
  | inside {c : Choice} {cs inner : List Choice} {h : ChoiceHead} {collapsed : Bool}
      (hmenu : .multi h inner collapsed ∈ cs) (hc : Within c inner) : Within c cs

namespace Choice

variable {c c' : Choice} {cs cs' : List Choice}

/-- Induction on the tree of menus. What commands have inside of them is no part of it. -/
@[elab_as_elim]
theorem menuInduction {motive : Choice → Prop}
    (template : ∀ h payload, motive (.template h payload))
    (capture : ∀ h payload, motive (.capture h payload))
    (ofMacro : ∀ h body, motive (.ofMacro h body))
    (multi : ∀ h cs collapsed, (∀ c ∈ cs, motive c) → motive (.multi h cs collapsed)) :
    (c : Choice) → motive c
  | .template h payload => template h payload
  | .capture h payload => capture h payload
  | .ofMacro h body => ofMacro h body
  | .multi h cs collapsed => multi h cs collapsed fun c _ =>
      menuInduction template capture ofMacro multi c
termination_by c => sizeOf c
decreasing_by
  have hlt := List.sizeOf_lt_of_mem ‹c ∈ cs›
  rw [Choice.multi.sizeOf_spec]
  omega

theorem flattenAll_eq (cs : List Choice) : flattenAll cs = cs.flatMap flatten := by
  induction cs with
  | nil => rfl
  | cons c cs ih => rw [flattenAll, ih, List.flatMap_cons]

theorem mem_flattenAll : c ∈ flattenAll cs ↔ ∃ t ∈ cs, c ∈ flatten t := by
  rw [flattenAll_eq, List.mem_flatMap]

/-- What stands in a member of a list stands in the list. -/
theorem Within.of_mem {t : Choice} (h : Within c [t]) (ht : t ∈ cs) : Within c cs := by
  cases h with
  | here h => exact .here (List.mem_singleton.mp h ▸ ht)
  | inside hmenu hc => exact .inside (List.mem_singleton.mp hmenu ▸ ht) hc

private theorem within_of_mem_flatten {t : Choice} (h : c ∈ flatten t) : Within c [t] := by
  induction t using menuInduction with
  | template => exact .here h
  | capture => exact .here h
  | ofMacro => exact .here h
  | multi head inner collapsed ih =>
    rcases List.mem_cons.mp h with rfl | h
    · exact .here List.mem_cons_self
    · obtain ⟨t, ht, hc⟩ := mem_flattenAll.mp h
      exact .inside List.mem_cons_self ((ih t ht hc).of_mem ht)

/-- The flat list of choices has what stands in the tree. -/
theorem mem_flattenAll_iff : c ∈ flattenAll cs ↔ Within c cs := by
  refine ⟨fun h => ?_, fun h => ?_⟩
  · obtain ⟨t, ht, hc⟩ := mem_flattenAll.mp h
    exact (within_of_mem_flatten hc).of_mem ht
  · induction h with
    | here h =>
      refine mem_flattenAll.mpr ⟨_, h, ?_⟩
      cases c <;> exact List.mem_cons_self
    | inside hmenu _ ih => exact mem_flattenAll.mpr ⟨_, hmenu, List.mem_cons_of_mem _ ih⟩

end Choice

/-! ### Each id once -/

namespace Document

variable {d : Document} {b : Macro} {bs ms : List Macro}

/-- The macros of a document wherever they stand: those beside the choices, then those that macro
choices own, in the order of the tree. -/
def occurrences (d : Document) : List Macro :=
  d.macros ++ (Choice.flattenAll d.choices).filterMap Choice.body?

/-- A macro stands beside the choices, or a macro choice in the tree owns it. -/
def Has (d : Document) (b : Macro) : Prop :=
  b ∈ d.macros ∨ ∃ h, Choice.Within (.ofMacro h (some b)) d.choices

theorem mem_occurrences : b ∈ d.occurrences ↔ d.Has b := by
  rw [occurrences, Has, List.mem_append, List.mem_filterMap]
  refine or_congr_right ⟨?_, ?_⟩
  · rintro ⟨c, hc, hbody⟩
    cases c with
    | ofMacro h body =>
      obtain rfl : body = some b := hbody
      exact ⟨h, Choice.mem_flattenAll_iff.mp hc⟩
    | template => cases hbody
    | capture => cases hbody
    | multi => cases hbody
  · rintro ⟨h, hc⟩
    exact ⟨_, Choice.mem_flattenAll_iff.mpr hc, rfl⟩

/-- Among some macros, one comes before all others with its id. -/
def FirstIn (bs : List Macro) (b : Macro) : Prop :=
  ∃ before after, bs = before ++ b :: after ∧ ∀ b' ∈ before, b'.id ≠ b.id

/-- The first of some macros with their ids, apart from ids that are taken. -/
structure Firsts (taken : List Value) (bs ms : List Macro) : Prop where
  nodup : (ms.map Macro.id).Nodup
  free : ∀ i ∈ ms.map Macro.id, i ∉ taken
  covers : ∀ b ∈ bs, b.id ∈ taken ∨ b.id ∈ ms.map Macro.id
  order : ms.Sublist bs
  first : ∀ b ∈ ms, FirstIn bs b

namespace Firsts

variable {taken : List Value}

theorem nil : Firsts taken [] [] where
  nodup := List.nodup_nil
  free := List.forall_mem_nil _
  covers := List.forall_mem_nil _
  order := .refl _
  first := List.forall_mem_nil _

/-- A macro whose id is taken is left out. -/
theorem skip (h : Firsts taken bs ms) (hid : b.id ∈ taken) : Firsts taken (b :: bs) ms where
  nodup := h.nodup
  free := h.free
  covers := List.forall_mem_cons.mpr ⟨.inl hid, h.covers⟩
  order := h.order.cons b
  first m hm := by
    obtain ⟨before, after, rfl, hbefore⟩ := h.first m hm
    have hne : b.id ≠ m.id := fun heq => h.free m.id (List.mem_map_of_mem hm) (heq ▸ hid)
    exact ⟨b :: before, after, rfl, List.forall_mem_cons.mpr ⟨hne, hbefore⟩⟩

/-- A macro whose id is new is listed, and its id is taken from then on. -/
theorem take (h : Firsts (b.id :: taken) bs ms) (hid : b.id ∉ taken) :
    Firsts taken (b :: bs) (b :: ms) where
  nodup := by
    rw [List.map_cons, List.nodup_cons]
    exact ⟨fun hmem => h.free b.id hmem List.mem_cons_self, h.nodup⟩
  free := by
    rw [List.map_cons]
    exact List.forall_mem_cons.mpr
      ⟨hid, fun i hi htaken => h.free i hi (List.mem_cons_of_mem _ htaken)⟩
  covers := by
    rw [List.map_cons]
    refine List.forall_mem_cons.mpr ⟨.inr List.mem_cons_self, fun m hm => ?_⟩
    rcases h.covers m hm with htaken | hlisted
    · rcases List.mem_cons.mp htaken with heq | htaken
      · exact .inr (heq ▸ List.mem_cons_self)
      · exact .inl htaken
    · exact .inr (List.mem_cons_of_mem _ hlisted)
  order := h.order.cons_cons b
  first := by
    refine List.forall_mem_cons.mpr ⟨⟨[], bs, rfl, List.forall_mem_nil _⟩, fun m hm => ?_⟩
    obtain ⟨before, after, rfl, hbefore⟩ := h.first m hm
    have hne : b.id ≠ m.id := fun heq =>
      h.free m.id (List.mem_map_of_mem hm) (heq ▸ List.mem_cons_self)
    exact ⟨b :: before, after, rfl, List.forall_mem_cons.mpr ⟨hne, hbefore⟩⟩

end Firsts

/-- Among ids that are texts, those that are the same are equal. -/
private theorem any_same_iff {taken : List Value} {i : Value} (hi : ∃ s, i = .text s) :
    taken.any (·.same i) = true ↔ i ∈ taken := by
  obtain ⟨s, rfl⟩ := hi
  rw [List.any_eq_true]
  refine ⟨fun ⟨j, hj, hsame⟩ => ?_, fun hmem => ⟨_, hmem, Value.same_text_iff.mpr rfl⟩⟩
  exact Value.same_text_iff.mp hsame ▸ hj

/-- Macros with texts for ids are listed by their first occurrences. -/
theorem exists_distinct (hids : ∀ b ∈ bs, ∃ i, b.id = .text i) (taken : List Value) :
    ∃ ms, distinct taken bs = .ok ms ∧ Firsts taken bs ms := by
  induction bs generalizing taken with
  | nil => exact ⟨[], rfl, .nil⟩
  | cons b bs ih =>
    obtain ⟨hid, hids⟩ := List.forall_mem_cons.mp hids
    have hkey : b.id.canBeKey = true := by
      obtain ⟨s, hs⟩ := hid
      simp [hs, Value.canBeKey]
    rw [distinct, if_neg (by rw [hkey]; exact Bool.false_ne_true)]
    by_cases htaken : b.id ∈ taken
    · obtain ⟨ms, hms, hfirsts⟩ := ih hids taken
      rw [if_pos ((any_same_iff hid).mpr htaken)]
      exact ⟨ms, hms, hfirsts.skip htaken⟩
    · obtain ⟨ms, hms, hfirsts⟩ := ih hids (b.id :: taken)
      rw [if_neg fun hany => htaken ((any_same_iff hid).mp hany), hms]
      exact ⟨b :: ms, rfl, hfirsts.take htaken⟩

/-- A list of macros is that of a document: it has each id that a macro of the document has, and has
it once, and each macro is the first one with its id. -/
structure Lists (d : Document) (ms : List Macro) : Prop where
  all : d.allMacros = .ok ms
  nodup : (ms.map Macro.id).Nodup
  ids : ∀ i, i ∈ ms.map Macro.id ↔ ∃ b, d.Has b ∧ b.id = i
  order : ms.Sublist d.occurrences
  first : ∀ b ∈ ms, FirstIn d.occurrences b

theorem exists_lists (hids : ∀ b ∈ d.occurrences, ∃ i, b.id = .text i) : ∃ ms, d.Lists ms := by
  obtain ⟨ms, hall, h⟩ := exists_distinct hids []
  refine ⟨ms, hall, h.nodup, fun i => ⟨fun hi => ?_, ?_⟩, h.order, h.first⟩
  · obtain ⟨b, hb, rfl⟩ := List.mem_map.mp hi
    exact ⟨b, mem_occurrences.mp (h.order.subset hb), rfl⟩
  · rintro ⟨b, hb, rfl⟩
    exact (h.covers b (mem_occurrences.mpr hb)).resolve_left List.not_mem_nil

end Document

/-! ### Payloads that hide nothing -/

/-- No payload in the tree of the choice has a name of the head. -/
def Choice.Tidy (c : Choice) : Prop :=
  ∀ c' ∈ flatten c, Entries.Free headNames c'.payload

namespace Choice

theorem Tidy.payload {c : Choice} (h : c.Tidy) : Entries.Free headNames c.payload := by
  refine h c ?_
  cases c <;> exact List.mem_cons_self

theorem Tidy.inner {h : ChoiceHead} {cs : List Choice} {collapsed : Bool}
    (htidy : (multi h cs collapsed).Tidy) : ∀ c ∈ cs, c.Tidy := fun c hc c' hc' =>
  htidy c' (List.mem_cons_of_mem _ (mem_flattenAll.mpr ⟨c, hc, hc'⟩))

theorem tidy_multi {h : ChoiceHead} {cs : List Choice} (hcs : ∀ c ∈ cs, c.Tidy)
    (collapsed : Bool) : (multi h cs collapsed).Tidy := by
  refine List.forall_mem_cons.mpr ⟨List.forall_mem_nil _, fun c' hc' => ?_⟩
  obtain ⟨c, hc, hmem⟩ := mem_flattenAll.mp hc'
  exact hcs c hc c' hmem

end Choice

namespace Load

/-- Choices that are read are tidy, however deep. -/
theorem gives_tidy (table : Table) (fuel : Nat) (v : Value) :
    Gives (choice table fuel v) Choice.Tidy := by
  induction fuel generalizing v with
  | zero => exact Gives.throw _
  | succ fuel ih =>
    rw [choice]
    refine (Gives.trivial _).bind fun m _ => ?_
    split
    · exact Gives.throw _
    · refine (Gives.trivial _).bind fun id _ => ?_
      unfold choiceOf
      split
      · -- a macro choice has no payload, wherever its macro comes from
        have hbody (h : ChoiceHead) (body : Option Macro) : (Choice.ofMacro h body).Tidy :=
          List.forall_mem_singleton.mpr (List.forall_mem_nil _)
        split
        · exact (Gives.trivial _).bind fun b _ => Gives.pure (hbody _ _)
        · exact (Gives.trivial _).bind fun b _ => Gives.pure (hbody _ _)
      · exact (Gives.listOf ih _).bind fun cs hcs => Gives.pure (Choice.tidy_multi hcs _)
      · exact Gives.pure (List.forall_mem_singleton.mpr (Entries.Free.of_without m _))
      · exact Gives.pure (List.forall_mem_singleton.mpr (Entries.Free.of_without m _))

end Load

theorem Document.gives_tidy (v : Value) :
    Gives (ofValue v) fun d => ∀ c ∈ d.choices, c.Tidy := by
  unfold ofValue
  split
  · exact Gives.pure (List.forall_mem_nil _)
  · exact (Gives.mapM (Load.gives_tidy [] _) _).bind fun cs hcs => Gives.pure hcs
  · refine (Gives.trivial _).bind fun bs _ => ?_
    split
    · exact Gives.throw _
    · refine (Gives.listOf (Load.gives_tidy _ _) _).bind fun cs hcs => ?_
      exact (Gives.trivial _).bind fun settings _ => Gives.pure hcs
  · exact Gives.throw _

/-! ### What is stored of a tree -/

namespace Choice

variable {c c' : Choice} {cs cs' : List Choice}

/-- The macros that the choices in the tree of a choice own. -/
def bodies (c : Choice) : List Macro := (flatten c).filterMap body?

theorem bodies_ofMacro (h : ChoiceHead) (body : Option Macro) :
    (ofMacro h body).bodies = body.toList := by
  cases body <;> rfl

theorem bodies_multi (h : ChoiceHead) (cs : List Choice) (collapsed : Bool) :
    (multi h cs collapsed).bodies = cs.flatMap bodies := by
  rw [bodies, flatten, List.filterMap_cons_none rfl, flattenAll_eq, List.filterMap_flatMap]
  rfl

/-- Tidy choices of which the same is stored have the same entries. -/
theorem entries_of_stored (hc : c.Tidy) (hc' : c'.Tidy) (h : c'.stored = c.stored) :
    c'.entries = c.entries :=
  Value.map.inj ((stored_eq hc'.payload).symm.trans (h.trans (stored_eq hc.payload)))

/-- A field that two choices with the same entries have is stored with the same value. -/
theorem field_of_entries (h : c'.entries = c.entries) {n : String} {v v' : Value}
    (hv : (n, v) ∈ c.fields) (hv' : (n, v') ∈ c'.fields) : plain v' = plain v := by
  have hfield' := entries_field hv'
  rw [h, entries_field hv] at hfield'
  exact (Option.some.inj hfield').symm

theorem kind_of_stored (hc : c.Tidy) (hc' : c'.Tidy) (h : c'.stored = c.stored) :
    c'.kind = c.kind := by
  have htype (c : Choice) : ("type", .text c.kind) ∈ c.fields := by simp [fields]
  have hplain := field_of_entries (entries_of_stored hc hc' h) (htype c) (htype c')
  rw [Encoding.plain_text, Encoding.plain_text] at hplain
  exact Value.text.inj hplain

/-- A macro is not stored as null, so it is not taken for none. -/
private theorem map_stored_of_plain {body body' : Option Macro}
    (h : plain ((body'.map Macro.toValue).getD .null) =
      plain ((body.map Macro.toValue).getD .null)) :
    body'.map Macro.stored = body.map Macro.stored := by
  have hne (b : Macro) : plain b.toValue ≠ plain .null := by
    rw [← Macro.stored, Macro.stored_eq, Encoding.plain_null]
    rintro ⟨⟩
  cases body with
  | none =>
    cases body' with
    | none => rfl
    | some b' => exact absurd h (hne b')
  | some b =>
    cases body' with
    | none => exact absurd h.symm (hne b)
    | some b' => exact congrArg some h

theorem body_of_stored {h h' : ChoiceHead} {body body' : Option Macro}
    (hc : (ofMacro h body).Tidy) (hc' : (ofMacro h' body').Tidy)
    (heq : (ofMacro h' body').stored = (ofMacro h body).stored) :
    body'.map Macro.stored = body.map Macro.stored := by
  have hfield (h : ChoiceHead) (b : Option Macro) :
      ("macro", (b.map Macro.toValue).getD .null) ∈ (ofMacro h b).fields := by
    simp [fields, ownFields]
  exact map_stored_of_plain
    (field_of_entries (entries_of_stored hc hc' heq) (hfield h body) (hfield h' body'))

theorem inner_of_stored {h h' : ChoiceHead} {collapsed collapsed' : Bool}
    (hc : (multi h cs collapsed).Tidy) (hc' : (multi h' cs' collapsed').Tidy)
    (heq : (multi h' cs' collapsed').stored = (multi h cs collapsed).stored) :
    cs'.map stored = cs.map stored := by
  have hfield (h : ChoiceHead) (cs : List Choice) (b : Bool) :
      ("choices", .list (cs.map toValue)) ∈ (multi h cs b).fields := by
    simp [fields, ownFields]
  have hlist := field_of_entries (entries_of_stored hc hc' heq) (hfield h cs collapsed)
    (hfield h' cs' collapsed')
  rw [plain_list, plain_list] at hlist
  exact Value.list.inj hlist

/-- Other choices of which the same is stored own macros of which the same is stored. -/
def Bequeaths (c : Choice) : Prop :=
  ∀ c' : Choice, c'.Tidy → c'.stored = c.stored →
    c'.bodies.map Macro.stored = c.bodies.map Macro.stored

theorem bequeaths_all (h : ∀ c ∈ cs, c.Bequeaths) (htidy : ∀ c ∈ cs', c.Tidy)
    (heq : cs'.map stored = cs.map stored) :
    (cs'.flatMap bodies).map Macro.stored = (cs.flatMap bodies).map Macro.stored := by
  induction cs generalizing cs' with
  | nil => rw [List.map_eq_nil_iff.mp heq]
  | cons c cs ih =>
    obtain ⟨c', rest, rfl, hfirst, hrest⟩ := List.map_eq_cons_iff.mp heq
    obtain ⟨hc, hcs⟩ := List.forall_mem_cons.mp h
    obtain ⟨hc', hcs'⟩ := List.forall_mem_cons.mp htidy
    rw [List.flatMap_cons, List.flatMap_cons, List.map_append, List.map_append,
      hc c' hc' hfirst, ih hcs hcs' hrest]

/-- **The macros in a tree can be told from what is stored of it.** -/
theorem Tidy.bequeaths (hc : c.Tidy) : c.Bequeaths := by
  intro c' hc' h
  -- the kind is stored, so the other choice is of the same kind
  have hkind := kind_of_stored hc hc' h
  induction c using menuInduction generalizing c' with
  | template =>
    cases c' with
    | template => rfl
    | _ => simp [kind] at hkind
  | capture =>
    cases c' with
    | capture => rfl
    | _ => simp [kind] at hkind
  | ofMacro head body =>
    cases c' with
    | ofMacro head' body' =>
      have hbody := body_of_stored hc hc' h
      rw [bodies_ofMacro, bodies_ofMacro, ← Option.toList_map, ← Option.toList_map, hbody]
    | _ => simp [kind] at hkind
  | multi head cs collapsed ih =>
    cases c' with
    | multi head' cs' collapsed' =>
      have hinner : ∀ c ∈ cs, c.Bequeaths := fun c hmem c' hc' h =>
        ih c hmem (hc.inner c hmem) c' hc' h (kind_of_stored (hc.inner c hmem) hc' h)
      rw [bodies_multi, bodies_multi]
      exact bequeaths_all hinner hc'.inner (inner_of_stored hc hc' h)
    | _ => simp [kind] at hkind

end Choice

/-! ### Listing what has been stored -/

theorem Macro.runOnStartup_of_stored {b b' : Macro} (h : b'.stored = b.stored) :
    b'.runOnStartup = b.runOnStartup := by
  rw [Macro.stored_eq, Macro.stored_eq] at h
  simp only [Macro.fields, record, List.map_cons, Value.map.injEq, List.cons.injEq,
    Prod.mk.injEq, plainField, Encoding.plain_bool, Value.bool.injEq] at h
  exact h.2.2.1.2

/-- What a list of macros is about: ids, and whether the macros are run at the start. -/
def Macro.key (b : Macro) : Value × Bool := (b.id, b.runOnStartup)

namespace Document

variable {d d' : Document} {bs bs' ms ms' : List Macro}

/-- Which macros are listed depends on the ids alone. -/
theorem distinct_keys (h : bs'.map Macro.key = bs.map Macro.key) (taken : List Value) :
    (distinct taken bs').map (List.map Macro.key) =
      (distinct taken bs).map (List.map Macro.key) := by
  have hcons (b : Macro) (rest : Except Fault (List Macro)) :
      ((b :: ·) <$> rest).map (List.map Macro.key) =
        (rest.map (List.map Macro.key)).map (b.key :: ·) := by
    cases rest <;> rfl
  induction bs generalizing bs' taken with
  | nil => rw [List.map_eq_nil_iff.mp h]
  | cons b bs ih =>
    obtain ⟨b', rest, rfl, hkey, hrest⟩ := List.map_eq_cons_iff.mp h
    have hid : b'.id = b.id := congrArg Prod.fst hkey
    rw [distinct, distinct, hid]
    split
    · rfl
    · split
      · exact ih hrest taken
      · rw [hcons, hcons, ih hrest, hkey]

/-- What is stored of macros tells their keys, if the ids are texts. -/
theorem keys_of_stored (hids : ∀ b ∈ bs, ∃ i, b.id = .text i)
    (h : bs'.map Macro.stored = bs.map Macro.stored) : bs'.map Macro.key = bs.map Macro.key := by
  induction bs generalizing bs' with
  | nil => rw [List.map_eq_nil_iff.mp h]
  | cons b bs ih =>
    obtain ⟨b', rest, rfl, hstored, hrest⟩ := List.map_eq_cons_iff.mp h
    obtain ⟨hid, hids⟩ := List.forall_mem_cons.mp hids
    have hkey : b'.key = b.key :=
      Prod.ext (id_of_stored_text hstored hid) (Macro.runOnStartup_of_stored hstored)
    rw [List.map_cons, List.map_cons, hkey, ih hids hrest]

theorem choices_of_stored (h : d'.stored = d.stored) :
    d'.choices.map Choice.stored = d.choices.map Choice.stored := by
  rw [stored_eq_entries, stored_eq_entries] at h
  have hfield := d'.entries_choices
  rw [Value.map.inj h, entries_choices] at hfield
  exact (Value.list.inj (Option.some.inj hfield)).symm

theorem itemsIfAny_macros (d : Document) :
    Value.itemsIfAny (d.entries.field? "macros") = .ok (d.macros.map Macro.stored) := by
  rw [entries_field_macros]
  cases d.macros <;> rfl

theorem macros_of_stored (h : d'.stored = d.stored) :
    d'.macros.map Macro.stored = d.macros.map Macro.stored := by
  rw [stored_eq_entries, stored_eq_entries] at h
  have hitems := d'.itemsIfAny_macros
  rw [Value.map.inj h, itemsIfAny_macros] at hitems
  exact (Except.ok.inj hitems).symm

theorem occurrences_eq (d : Document) :
    d.occurrences = d.macros ++ d.choices.flatMap Choice.bodies := by
  rw [occurrences, Choice.flattenAll_eq, List.filterMap_flatMap]
  rfl

/-- What is stored tells which macros stand where. -/
theorem occurrences_of_stored (hd : ∀ c ∈ d.choices, c.Tidy) (hd' : ∀ c ∈ d'.choices, c.Tidy)
    (h : d'.stored = d.stored) :
    d'.occurrences.map Macro.stored = d.occurrences.map Macro.stored := by
  have howned := Choice.bequeaths_all (fun c hc => (hd c hc).bequeaths) hd' (choices_of_stored h)
  rw [occurrences_eq, occurrences_eq, List.map_append, List.map_append, macros_of_stored h, howned]

theorem texts_of_keys (hids : ∀ b ∈ bs, ∃ i, b.id = .text i)
    (h : bs'.map Macro.key = bs.map Macro.key) : ∀ b' ∈ bs', ∃ i, b'.id = .text i := by
  intro b' hb'
  have hmem := List.mem_map_of_mem (f := Macro.key) hb'
  rw [h] at hmem
  obtain ⟨b, hb, hkey⟩ := List.mem_map.mp hmem
  obtain ⟨i, hi⟩ := hids b hb
  exact ⟨i, (congrArg Prod.fst hkey).symm.trans hi⟩

theorem Lists.keys_eq (hms : d.Lists ms) (hms' : d'.Lists ms')
    (h : d'.occurrences.map Macro.key = d.occurrences.map Macro.key) :
    ms'.map Macro.key = ms.map Macro.key := by
  have hdistinct := distinct_keys h []
  have hall : distinct [] d.occurrences = .ok ms := hms.all
  have hall' : distinct [] d'.occurrences = .ok ms' := hms'.all
  rw [hall, hall'] at hdistinct
  exact Except.ok.inj hdistinct

theorem startup_of_keys (h : ms'.map Macro.key = ms.map Macro.key) :
    (ms'.filter Macro.runOnStartup).map Macro.id =
      (ms.filter Macro.runOnStartup).map Macro.id := by
  have hstart (ms : List Macro) : (ms.filter Macro.runOnStartup).map Macro.id =
      ((ms.map Macro.key).filter Prod.snd).map Prod.fst := by
    rw [List.filter_map, List.map_map]
    rfl
  rw [hstart, hstart, h]

/-- **Each macro is listed once, before and after storing.** Let a document be read from any value,
with texts for the ids of its macros. Its list of macros has the id of every macro beside the
choices and of every macro that a macro choice of the tree owns, each once, and has the first macro
with each. What is stored of the document is read again as one whose list has the same ids in the
same order, of macros that are run at the start as before. -/
theorem allMacros_once {v : Value} {r s : Reading} (hread : (ofValue v).runOn r = (.ok d, s))
    (hids : ∀ b, d.Has b → ∃ i, b.id = .text i) (r' : Reading) :
    ∃ ms, d.Lists ms ∧ ∃ d' s' ms', (ofValue (plain d.toValue)).runOn r' = (.ok d', s') ∧
      d'.Lists ms' ∧ ms'.map Macro.key = ms.map Macro.key ∧
      (ms'.filter Macro.runOnStartup).map Macro.id =
        (ms.filter Macro.runOnStartup).map Macro.id := by
  have hbeside : ∀ b ∈ d.macros, ∃ i, b.id = .text i := fun b hb => hids b (.inl hb)
  have hoccur : ∀ b ∈ d.occurrences, ∃ i, b.id = .text i := fun b hb =>
    hids b (mem_occurrences.mp hb)
  obtain ⟨d', s', hread', hstored, -⟩ := stored_quiet (ofValue_gives v r d s hread) hbeside r'
  have hkeys : d'.occurrences.map Macro.key = d.occurrences.map Macro.key :=
    keys_of_stored hoccur (occurrences_of_stored (gives_tidy v r d s hread)
      (gives_tidy _ r' d' s' hread') hstored)
  obtain ⟨ms, hms⟩ := exists_lists hoccur
  obtain ⟨ms', hms'⟩ := exists_lists (texts_of_keys hoccur hkeys)
  have hlists := hms.keys_eq hms' hkeys
  exact ⟨ms, hms, d', s', ms', hread', hms', hlists, startup_of_keys hlists⟩

/-- A macro beside the choices that two choices name, one of them in a menu. The menu has two more
macros, of which one has the same id. -/
def sharedValue : Value :=
  let named : Value := .map (record [("id", .text "a"), ("type", .text "Macro"),
    ("macroId", .text "m")])
  let owner (id : String) (flag : Bool) : Value := .map (record [("id", .text "b"),
    ("type", .text "Macro"),
    ("macro", .map (record [("id", .text id), ("runOnStartup", .bool flag)]))])
  .map (record [
    ("macros", .list [.map (record [("id", .text "m"), ("runOnStartup", .bool true)])]),
    ("choices", .list [named, .map (record [("id", .text "c"), ("type", .text "Multi"),
      ("choices", .list [named, owner "m" false, owner "x" true])])])])

/-- The document that it is read as. -/
def shared : Document :=
  let macroOf (id : String) (flag : Bool) := Macro.mk (.text id) (.text "") [] flag
  let owner (id : String) (b : Macro) := Choice.ofMacro ⟨.text "", .text id, false⟩ (some b)
  ⟨[owner "a" (macroOf "m" true),
    .multi ⟨.text "", .text "c", false⟩
      [owner "a" (macroOf "m" true), owner "b" (macroOf "m" false), owner "b" (macroOf "x" true)]
      false],
    [macroOf "m" true], []⟩

theorem allMacros_once_shared :
    (ofValue sharedValue).runOn .start = (.ok shared, .start) ∧
      ∃ d' s' ms', (ofValue (plain shared.toValue)).runOn .start = (.ok d', s') ∧
        d'.Lists ms' ∧ ms'.map Macro.key = [(.text "m", true), (.text "x", true)] := by
  have hread : (ofValue sharedValue).runOn .start = (.ok shared, .start) := by
    with_unfolding_all rfl
  have hids : ∀ b ∈ shared.occurrences, ∃ i, b.id = .text i := by
    have hoccur : shared.occurrences.map Macro.id = ["m", "m", "m", "m", "x"].map Value.text := by
      with_unfolding_all rfl
    intro b hb
    have hmem := List.mem_map_of_mem (f := Macro.id) hb
    rw [hoccur] at hmem
    obtain ⟨i, -, hi⟩ := List.mem_map.mp hmem
    exact ⟨i, hi.symm⟩
  obtain ⟨ms, hms, d', s', ms', hread', hms', hkeys, -⟩ :=
    allMacros_once hread (fun b hb => hids b (mem_occurrences.mpr hb)) .start
  have hall : shared.allMacros =
      .ok [.mk (.text "m") (.text "") [] true, .mk (.text "x") (.text "") [] true] := by
    with_unfolding_all rfl
  obtain rfl := Except.ok.inj (hall.symm.trans hms.all)
  exact ⟨hread, d', s', ms', hread', hms', hkeys⟩

end Document

end Choicebook
