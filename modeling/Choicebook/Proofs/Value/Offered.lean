import Choicebook.Proofs.Number.Numeral
import Choicebook.Proofs.Value.Names

/-!
# Members that are offered

The user selects a member of an export by its name, and the member is then looked up by that name.
`Value.offers` has all members that are offered, each under what it is listed for, and
`Value.member?_of_mem_memberNames` says what the look-up finds: what is offered under the name
itself.

So the members of lists, tuples, objects and libraries are found under the names that are shown for
them. The members of lists and tuples are offered by their positions, and here the look-up reads
back a number that was written. In a mapping, only the members under texts are found. Any other key
is shown as a text, and a text is a different key.
-/

namespace Choicebook

namespace Value

/-- The members of a list, each under its position. -/
def itemOffers (xs : List Value) : Entries :=
  (xs.zipIdx.map fun p => (.text (toString p.2), p.1)).filter fun e =>
    e.1.display.length ≤ Number.digitLimit

/-- The members that a container offers, each under what it is listed for: its key in a mapping, and
its name everywhere else. -/
def offers : Value → Entries
  | .map es => es
  | .list xs | .tuple xs => itemOffers xs
  | .object ms | .library ms =>
    (ms.filter fun m => !Text.startsWith m.1 "_").map fun m => (.text m.1, m.2)
  | _ => []

/-- Neither a key of a mapping nor a name of an object or library is there twice. -/
def Unambiguous : Value → Prop
  | .map es => Entries.Distinct es
  | .object ms | .library ms => (ms.map (·.1)).Nodup
  | _ => True

/-! ### What is offered -/

/-- What is offered is offered by the text that it is shown as. -/
theorem memberNames_eq (v : Value) : v.memberNames = v.offers.map (·.1.display) := by
  have hitems : ∀ xs : List Value, positionNames xs.length = (itemOffers xs).map (·.1.display) := by
    intro xs
    have hrange : List.range xs.length = xs.zipIdx.map Prod.snd := by
      rw [List.zipIdx_map_snd, List.range_eq_range']
    rw [positionNames, itemOffers, hrange, List.map_map, List.filter_map, List.filter_map,
      List.map_map]
    rfl
  have hmembers : ∀ ms : List (String × Value),
      (ms.map (·.1)).filter (fun n => !Text.startsWith n "_") =
        ((ms.filter fun m => !Text.startsWith m.1 "_").map fun m => (Value.text m.1, m.2)).map
          (·.1.display) := by
    intro ms
    rw [List.map_map, List.filter_map]
    rfl
  cases v with
  | list xs => exact hitems xs
  | tuple xs => exact hitems xs
  | object ms => exact hmembers ms
  | library ms => exact hmembers ms
  | _ => rfl

theorem mem_itemOffers_iff {xs : List Value} {k m : Value} :
    (k, m) ∈ itemOffers xs ↔
      ∃ i : Nat, k = .text (toString i) ∧ (toString i).length ≤ Number.digitLimit ∧
        xs[i]? = some m := by
  rw [itemOffers, List.mem_filter, List.mem_map]
  constructor
  · rintro ⟨⟨⟨x, i⟩, hx, heq⟩, hshort⟩
    cases heq
    exact ⟨i, rfl, of_decide_eq_true hshort, List.mem_zipIdx_iff_getElem?.mp hx⟩
  · rintro ⟨i, rfl, hshort, hm⟩
    exact ⟨⟨(m, i), List.mem_zipIdx_iff_getElem?.mpr hm, rfl⟩, decide_eq_true hshort⟩

/-- No two positions are written alike. -/
theorem distinct_itemOffers (xs : List Value) : (itemOffers xs).Distinct := by
  have hpositions : xs.zipIdx.Pairwise fun p q => p.2 ≠ q.2 := by
    have hnodup : (xs.zipIdx.map Prod.snd).Nodup := by
      rw [List.zipIdx_map_snd]
      exact List.nodup_range'
    exact List.pairwise_map.mp hnodup
  refine (List.pairwise_map.mpr (hpositions.imp fun {p q} hne => ?_)).filter _
  rw [← Bool.not_eq_true, same_text_iff, text.injEq]
  intro heq
  have hvalues := congrArg Text.numeralValue heq
  rw [Text.numeralValue_toString, Text.numeralValue_toString] at hvalues
  exact hne hvalues

/-- Where nothing is ambiguous, nothing is offered twice under the same key. -/
theorem Unambiguous.distinct_offers {v : Value} (h : v.Unambiguous) : v.offers.Distinct := by
  have hmembers : ∀ ms : List (String × Value), (ms.map (·.1)).Nodup →
      Entries.Distinct
        ((ms.filter fun m => !Text.startsWith m.1 "_").map fun m => (Value.text m.1, m.2)) := by
    intro ms hms
    refine List.pairwise_map.mpr (((List.pairwise_map.mp hms).filter _).imp fun {p q} hne => ?_)
    rw [← Bool.not_eq_true, same_text_iff, text.injEq]
    exact hne
  cases v with
  | map es => exact h
  | list xs => exact distinct_itemOffers xs
  | tuple xs => exact distinct_itemOffers xs
  | object ms => exact hmembers ms h
  | library ms => exact hmembers ms h
  | _ => exact Entries.distinct_nil

/-! ### What is found -/

private theorem item_of_mem {xs : List Value} {key : String}
    (hkey : key ∈ (itemOffers xs).map (·.1.display)) :
    (fun i => i.bind fun i => xs[i]?) <$> position? key =
      .ok (Entries.field? (itemOffers xs) key) := by
  obtain ⟨⟨k, m⟩, hoffer, hshown⟩ := List.mem_map.mp hkey
  obtain ⟨i, rfl, hshort, hm⟩ := mem_itemOffers_iff.mp hoffer
  obtain rfl : toString i = key := hshown
  rw [(distinct_itemOffers xs).field?_eq_some_iff.mpr hoffer,
    position?_of_isNumeral (Text.isNumeral_toString hshort), Text.numeralValue_toString]
  exact congrArg Except.ok hm

/-- A name that is not hidden is looked up among the names that are not. -/
private theorem lookup_eq_field? (ms : List (String × Value)) {key : String}
    (hkey : Text.startsWith key "_" = false) :
    ms.lookup key = Entries.field?
      ((ms.filter fun m => !Text.startsWith m.1 "_").map fun m => (.text m.1, m.2)) key := by
  induction ms with
  | nil => rfl
  | cons m ms ih =>
    obtain ⟨name, x⟩ := m
    rw [List.lookup_cons]
    by_cases hname : name = key
    · subst hname
      rw [List.filter_cons_of_pos (by rw [hkey]; rfl), List.map_cons, Entries.field?,
        Entries.get?_cons, if_pos (same_text_iff.mpr rfl), beq_self_eq_true]
    · have hne : (key == name) = false := beq_eq_false_iff_ne.mpr (Ne.symm hname)
      simp only [hne]
      rw [List.filter_cons]
      split
      · rw [List.map_cons, Entries.field?, Entries.get?_cons,
          if_neg (mt same_text_iff.mp (mt text.inj hname))]
        exact ih
      · exact ih

/-- By a name that is offered, the look-up finds what is offered under this name itself. -/
theorem member?_of_mem_memberNames {v : Value} {key : String} (hkey : key ∈ v.memberNames) :
    v.member? key = .ok (v.offers.field? key) := by
  have hvisible : ∀ ms : List (String × Value),
      key ∈ (ms.map (·.1)).filter (fun n => !Text.startsWith n "_") →
        Text.startsWith key "_" = false := fun ms hname => by
    simpa using (List.mem_filter.mp hname).2
  cases v with
  | map es => rfl
  | list xs => exact item_of_mem (memberNames_eq (.list xs) ▸ hkey)
  | tuple xs => exact item_of_mem (memberNames_eq (.tuple xs) ▸ hkey)
  | object ms => exact congrArg Except.ok (lookup_eq_field? ms (hvisible ms hkey))
  | library ms => exact congrArg Except.ok (lookup_eq_field? ms (hvisible ms hkey))
  | _ => cases hkey

/-- Only a mapping can offer something under a key that is not a text. -/
theorem texts_offers {v : Value} (h : ∀ es : Entries, v = .map es → es.Texts) : v.offers.Texts := by
  cases v with
  | map es => exact h es rfl
  | list xs | tuple xs =>
    rintro ⟨k, m⟩ hoffer
    obtain ⟨i, rfl, -⟩ := mem_itemOffers_iff.mp hoffer
    exact ⟨_, rfl⟩
  | object ms | library ms => exact List.forall_mem_map.mpr fun m _ => ⟨m.1, rfl⟩
  | _ => exact List.forall_mem_nil _

/-- The keys of a mapping can be written as texts if none of them has a number that is too long. -/
theorem mapM_written_keys (es : Entries) :
    (es.mapM fun e => e.1.written) =
      if es.all (·.1.isWritable) then .ok (es.map (·.1.display)) else .error (.misuse .badValue) := by
  induction es with
  | nil => rfl
  | cons e es ih =>
    rw [List.mapM_cons, ih, List.all_cons, List.map_cons]
    cases hkey : e.1.isWritable with
    | false =>
      rw [written_of_not_isWritable hkey]
      rfl
    | true =>
      rw [written_of_isWritable hkey, Bool.true_and]
      split <;> rfl

theorem all_isWritable_of_texts {es : Entries} (h : es.Texts) :
    es.all (·.1.isWritable) = true := by
  refine List.all_eq_true.mpr fun e he => ?_
  obtain ⟨name, hname⟩ := h e he
  rw [hname]
  rfl

/-- The names can be offered if all that the members are listed for can be written. -/
theorem offeredNames_eq (v : Value) :
    v.offeredNames =
      if v.offers.all (·.1.isWritable) then .ok v.memberNames else .error (.misuse .badValue) := by
  cases v with
  | map es => exact mapM_written_keys es
  | _ => exact (if_pos (all_isWritable_of_texts (texts_offers fun es hes => by cases hes))).symm

/-- Names that are texts can be offered. -/
theorem offeredNames_of_texts {v : Value} (h : ∀ es : Entries, v = .map es → es.Texts) :
    v.offeredNames = .ok v.memberNames :=
  v.offeredNames_eq.trans (if_pos (all_isWritable_of_texts (texts_offers h)))

/-- No name is offered if there is a key that cannot be written. -/
theorem offeredNames_of_not_isWritable {v k listed : Value} (hlisted : (k, listed) ∈ v.offers)
    (hkey : k.isWritable = false) : v.offeredNames = .error (.misuse .badValue) := by
  refine v.offeredNames_eq.trans (if_neg fun hall => ?_)
  rw [List.all_eq_true.mp hall _ hlisted] at hkey
  cases hkey

/-- Names that can be offered are those of the members. -/
theorem eq_of_offeredNames {v : Value} {names : List String} (h : v.offeredNames = .ok names) :
    names = v.memberNames := by
  rw [offeredNames_eq] at h
  split at h
  · exact (Except.ok.inj h).symm
  · cases h

/-- Every name that is offered leads to a member. -/
theorem exists_member?_of_mem_memberNames {v : Value} {key : String}
    (htexts : ∀ es : Entries, v = .map es → es.Texts) (hkey : key ∈ v.memberNames) :
    ∃ u, v.member? key = .ok (some u) := by
  rw [member?_of_mem_memberNames hkey]
  rw [memberNames_eq] at hkey
  obtain ⟨e, he, rfl⟩ := List.mem_map.mp hkey
  obtain ⟨name, hname⟩ := texts_offers htexts e he
  have hfound : v.offers.field? name ≠ none :=
    Entries.mem_names_iff.mp (List.mem_filterMap.mpr ⟨e, he, by rw [hname]; rfl⟩)
  obtain ⟨u, hu⟩ := Option.ne_none_iff_exists'.mp hfound
  exact ⟨u, by rw [hname]; exact congrArg Except.ok hu⟩

end Value

end Choicebook
