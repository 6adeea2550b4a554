import Choicebook.Proofs.Session.Selection

/-!
# Going down into an export

While an export is an object, the user picks one of its members by its name, and the name is looked
up. `Dispatcher.Descent` is how far this gets: at each step, what the look-up finds is what the
object offers under the name itself. From there on the dispatch is that of the value that has been
reached, or nothing is picked from it (`Dispatcher.run_descends`).

The name that is shown for a key is a text. So in a mapping with other keys it may lead to another
member, or to none, and then an answer that the user could give is a fault
(`Dispatcher.Refuses.astray`). A key with a number in it that is too long to be written has no name
at all, and then nothing is offered (`Dispatcher.Refuses.unwritten`).
-/

namespace Choicebook

variable {σ : Type}

/-! ### What is found for what is offered -/

namespace Value

/-- Under the name of an offer, the look-up finds what is offered under this name as a text. -/
theorem Unambiguous.member?_display {v k listed : Value} (hv : v.Unambiguous)
    (hoffer : (k, listed) ∈ v.offers) :
    ∃ found, v.member? k.display = .ok found ∧
      ∀ m, found = some m ↔ (.text k.display, m) ∈ v.offers := by
  have hname : k.display ∈ v.memberNames := by
    rw [memberNames_eq]
    exact List.mem_map_of_mem hoffer
  exact ⟨_, member?_of_mem_memberNames hname, fun m => hv.distinct_offers.field?_eq_some_iff⟩

theorem smallerMember?_eq_none {v : Value} {key : String} (h : v.member? key = .ok none) :
    v.smallerMember? key = .ok none := by
  rw [smallerMember?]
  split
  · next hw => cases hw.symm.trans h
  · rfl
  · next hw => cases hw.symm.trans h

end Value

namespace Dispatcher

variable {d : Dispatcher σ}

/-! ### One step -/

/-- The user is asked for a member of the value: it is an object, and if there are settings, it has
no entry that takes them. -/
def Asks (d : Dispatcher σ) (v : Value) : Prop :=
  v.isContainer = true ∧ (d.settings.isSome = true → v.hasEntry = false)

/-- The question which member it is, by the names that are offered. -/
def question (d : Dispatcher σ) (v : Value) : Act σ (Option Nat) := do
  let names ← Act.expect v.offeredNames
  Act.ask (.suggest (names.map .text) .null) (d.host.suggest (names.map .text) names.length .null)

/-- Why nothing is picked from a value, and in which state this ends. -/
inductive Refuses (d : Dispatcher σ) (v : Value) (s : Session σ) : Fault → Session σ → Prop where
  /-- There is nothing to pick. -/
  | empty (h : v.offers = []) :
    Refuses d v s (.emptyExport d.owner.display)
      (s.remember (.failed (.emptyExport d.owner.display)))
  /-- Something is listed for a key with a number in it that is too long to be written. -/
  | unwritten {k listed : Value} (hlisted : (k, listed) ∈ v.offers) (hkey : k.isWritable = false) :
    Refuses d v s (.misuse .badValue) (s.remember (.failed (.misuse .badValue)))
  /-- The host fails to ask. -/
  | unasked {f : Fault} {t : Session σ} (h : (d.question v).runOn s = (.error f, t)) :
    Refuses d v s f t
  /-- The user picks nothing. -/
  | unanswered {chosen : Option Nat} {t : Session σ} (h : (d.question v).runOn s = (.ok chosen, t))
    (hchosen : ∀ i, chosen = some i → v.offers.length ≤ i) :
    Refuses d v s .inputCancelled (t.remember (.failed .inputCancelled))
  /-- What is picked is listed for a key that is not a text, and the text shown for it is no key. -/
  | astray {i : Nat} {k listed : Value} {t : Session σ}
    (h : (d.question v).runOn s = (.ok (some i), t)) (hlisted : v.offers[i]? = some (k, listed))
    (hkey : ∀ name, k ≠ .text name) (hnone : ∀ m, (.text k.display, m) ∉ v.offers) :
    Refuses d v s (.misuse .missingKey) (t.remember (.failed (.misuse .missingKey)))

/-- From a value in one state to a value in another one, by members that are picked: each answer is
for something that is offered, and leads to what is offered under the text that is shown for it. -/
inductive Descent (d : Dispatcher σ) : Value → Session σ → Value → Session σ → Prop where
  | here {v : Value} {s : Session σ} : Descent d v s v s
  | pick {v m w k listed : Value} {s t u : Session σ} {i : Nat} (hv : d.Asks v)
    (h : (d.question v).runOn s = (.ok (some i), t)) (hlisted : v.offers[i]? = some (k, listed))
    (hm : (.text k.display, m) ∈ v.offers) (hrest : Descent d m t w u) : Descent d v s w u

theorem question_eq {v : Value} {names : List String} (h : v.offeredNames = .ok names) :
    d.question v = Act.ask (.suggest (names.map .text) .null)
      (d.host.suggest (names.map .text) names.length .null) := by
  rw [question, h, Act.expect, pure_bind]

/-- Nothing is asked if a key cannot be written. -/
theorem runOn_select_unwritten {v k listed : Value} (hlisted : (k, listed) ∈ v.offers)
    (hkey : k.isWritable = false) (s : Session σ) :
    (d.select v).runOn s =
      (.error (.misuse .badValue), s.remember (.failed (.misuse .badValue))) := by
  rw [select, Value.offeredNames_of_not_isWritable hlisted hkey]
  rfl

/-- A selection picks what is offered under the text that is shown for the answer, or nothing is
picked. -/
theorem runOn_select_cases {v : Value} (hv : v.Unambiguous) (s : Session σ) :
    (∃ i k listed m t hm, (d.question v).runOn s = (.ok (some i), t) ∧
      v.offers[i]? = some (k, listed) ∧ (.text k.display, m) ∈ v.offers ∧
      v.member? k.display = .ok (some m) ∧ (d.select v).runOn s = (.ok ⟨m, hm⟩, t)) ∨
    ∃ f t, (d.select v).runOn s = (.error f, t) ∧ d.Refuses v s f t := by
  have hnames : ∀ i : Nat, v.memberNames[i]? = v.offers[i]?.map (·.1.display) := fun i => by
    rw [Value.memberNames_eq, List.getElem?_map]
  by_cases hkeys : v.offers.all (·.1.isWritable) = true
  swap
  · -- a key that cannot be written is refused before anything is asked
    obtain ⟨⟨k, listed⟩, hlisted, hkey⟩ := List.all_eq_false.mp (Bool.eq_false_iff.mpr hkeys)
    have hkey : k.isWritable = false := Bool.eq_false_iff.mpr hkey
    exact .inr ⟨_, _, runOn_select_unwritten hlisted hkey s, .unwritten hlisted hkey⟩
  have hoffered : v.offeredNames = .ok v.memberNames := v.offeredNames_eq.trans (if_pos hkeys)
  rw [select, hoffered, Act.expect, pure_bind]
  split
  · next hempty =>
    have hoffers : v.offers = [] := by
      rwa [List.isEmpty_iff, Value.memberNames_eq, List.map_eq_nil_iff] at hempty
    exact .inr ⟨_, _, rfl, .empty hoffers⟩
  · dsimp only
    rw [← question_eq hoffered]
    generalize hrun : (d.question v).runOn s = run
    obtain ⟨f | chosen, t⟩ := run
    · exact .inr ⟨f, t, Act.runOn_bind_error hrun _, .unasked hrun⟩
    · rw [Act.runOn_bind_ok hrun]
      split
      · next hnone =>
        refine .inr ⟨_, _, rfl, .unanswered hrun fun i hi => ?_⟩
        rwa [hi, Option.bind_some, hnames, Option.map_eq_none_iff, List.getElem?_eq_none_iff]
          at hnone
      · next name hname =>
        obtain ⟨i, rfl, hi⟩ := Option.bind_eq_some_iff.mp hname
        rw [hnames] at hi
        obtain ⟨⟨k, listed⟩, hlisted, rfl⟩ := Option.map_eq_some_iff.mp hi
        -- the member is sought by the text that was shown, which need not be its key
        obtain ⟨found, hfound, hoffered⟩ := hv.member?_display (List.mem_of_getElem? hlisted)
        cases found with
        | some m =>
          obtain ⟨hm, hsmaller⟩ := Value.smallerMember?_eq hfound
          refine .inl ⟨i, k, listed, m, t, hm, rfl, hlisted, (hoffered m).mp rfl, hfound, ?_⟩
          rw [hsmaller]
          rfl
        | none =>
          have hnone : ∀ m, (.text k.display, m) ∉ v.offers := fun m hm => by
            cases (hoffered m).mpr hm
          refine .inr ⟨_, _, ?_, .astray hrun hlisted (fun name hk => ?_) hnone⟩
          · rw [Value.smallerMember?_eq_none hfound]
            rfl
          · subst hk
            exact hnone listed (List.mem_of_getElem? hlisted)

/-- An answer that is shown for a key is a fault where no key is the text that is shown. -/
theorem runOn_select_astray {v k listed : Value} (hv : v.Unambiguous) {s t : Session σ} {i : Nat}
    (h : (d.question v).runOn s = (.ok (some i), t)) (hlisted : v.offers[i]? = some (k, listed))
    (hnone : ∀ m, (.text k.display, m) ∉ v.offers) :
    (d.select v).runOn s =
      (.error (.misuse .missingKey), t.remember (.failed (.misuse .missingKey))) := by
  rcases runOn_select_cases hv s with
    ⟨j, k', listed', m, t', hm, hrun, hlisted', hoffer, -⟩ | ⟨f, t', hselect, hrefuses⟩
  · cases hrun.symm.trans h
    cases hlisted'.symm.trans hlisted
    exact absurd hoffer (hnone m)
  · rw [hselect]
    cases hrefuses with
    | empty hempty =>
      rw [hempty] at hlisted
      cases hlisted
    | unwritten hoffer hkey =>
      -- then the question could not have been answered
      rw [question, Value.offeredNames_of_not_isWritable hoffer hkey] at h
      cases h
    | unasked hrun => cases hrun.symm.trans h
    | unanswered hrun hchosen =>
      cases hrun.symm.trans h
      rw [List.getElem?_eq_none (hchosen i rfl)] at hlisted
      cases hlisted
    | astray hrun =>
      cases hrun.symm.trans h
      rfl

/-- **Where the answers of the user lead.** Let no object inside of an export have the same key
twice. Then all that such an object offers is listed by the text that is shown for it, or nothing
is if there is a key that cannot be written. The look-up by such a text finds what the object offers
under the text itself, if it does. In a mapping with no other keys than texts, and in any other
object, this is the member that was listed.

So the dispatch goes down by members that are picked in this way, and then it is the dispatch of a
value of which nothing is asked, or nothing is picked: because there is nothing, because a key
cannot be written and so nothing is offered, because the host fails or the user gives up, or because
the answer is shown for a key that is not a text. -/
theorem run_descends {v : Value} (hv : ∀ w, v.Leads w → w.Unambiguous) :
    (∀ w, v.Leads w → w.memberNames = w.offers.map (·.1.display) ∧
      w.offeredNames = (if w.offers.all (·.1.isWritable) then .ok w.memberNames
        else .error (.misuse .badValue)) ∧
      (∀ k listed, (k, listed) ∈ w.offers → ∃ found, w.member? k.display = .ok found ∧
        ∀ m, found = some m ↔ (.text k.display, m) ∈ w.offers) ∧
      ((∀ es : Entries, w = .map es → es.Texts) → ∀ k listed, (k, listed) ∈ w.offers →
        w.member? k.display = .ok (some listed))) ∧
    ∀ s, ∃ w t, d.Descent v s w t ∧
      (¬d.Asks w ∧ (d.run v).runOn s = (d.run w).runOn t ∨
        d.Asks w ∧ ∃ f u, (d.run v).runOn s = (.error f, u) ∧ d.Refuses w t f u) := by
  refine ⟨fun w hw => ⟨w.memberNames_eq, w.offeredNames_eq, fun k listed => (hv w hw).member?_display,
    fun htexts k listed hoffer => ?_⟩, ?_⟩
  · obtain ⟨name, rfl⟩ := Value.texts_offers htexts _ hoffer
    obtain ⟨found, hfound, honly⟩ := (hv w hw).member?_display hoffer
    rw [hfound, (honly listed).mpr hoffer]
  -- a member is smaller, and what it leads to is inside of the export, too
  induction hsize : sizeOf v using Nat.strong_induction_on generalizing v with
  | _ n ih =>
    intro s
    by_cases hasks : d.Asks v
    · rcases runOn_select_cases (d := d) (hv v .self) s with
        ⟨i, k, listed, m, t, hm, hrun, hlisted, hoffer, hfound, hselect⟩ | ⟨f, t, hselect, hrefuses⟩
      · have hmember : v.memberOf? (.text k.display) = .ok (some m) := hfound
        have hinside : ∀ w, m.Leads w → w.Unambiguous := fun w hw =>
          hv w ((Value.Leads.self.member hmember).trans hw)
        obtain ⟨w, u, hdescent, hend⟩ := ih (sizeOf m) (hsize ▸ hm) hinside rfl t
        refine ⟨w, u, .pick hasks hrun hlisted hoffer hdescent, ?_⟩
        rwa [run_eq_select_bind hasks.1 hasks.2, Act.runOn_bind_ok hselect]
      · refine ⟨v, s, .here, .inr ⟨hasks, f, t, ?_, hrefuses⟩⟩
        rw [run_eq_select_bind hasks.1 hasks.2, Act.runOn_bind_error hselect]
    · exact ⟨v, s, .here, .inl ⟨hasks, rfl⟩⟩

/-! ### Keys that are not texts -/

private theorem leads_texts {es : Entries} (hes : ∀ e ∈ es, ∃ shown, e.2 = .text shown) {w : Value}
    (h : (Value.map es).Leads w) : w = .map es ∨ ∃ shown, w = .text shown := by
  have hvalues : ∀ k m, Entries.get? es k = some m → ∃ shown, m = .text shown := by
    intro k m hm
    obtain ⟨e, he, rfl⟩ := Option.map_eq_some_iff.mp hm
    exact hes e (List.mem_of_find?_eq_some he)
  induction h with
  | self => exact .inl rfl
  | @member w m key _ hm ih =>
    rcases ih with rfl | ⟨shown, rfl⟩
    · refine .inr ?_
      cases key with
      | text name => exact hvalues _ _ (Except.ok.inj hm)
      | _ =>
        simp only [Value.memberOf?] at hm
        split at hm
        · exact hvalues _ _ (Except.ok.inj hm)
        · cases hm
    · cases key <;> cases hm

/-- A key that is a number, and another one that is its text: by either answer, the user gets what
the text is the key of. -/
theorem run_descends_numbered :
    let v : Value := .map [(.int 1, .text "one"), (.text "1", .text "uno")]
    let d : Dispatcher Rehearsal := ⟨Rehearsal.host, Choice.execute Rehearsal.host, true,
      .text "kit", none⟩
    let s := Rehearsal.beforeTools .null [.int 0]
    (∀ w, v.Leads w → w.Unambiguous) ∧ v.memberNames = ["1", "1"] ∧
      v.member? "1" = .ok (some (.text "uno")) ∧
      ∃ w t, d.Descent v s w t ∧
        (¬d.Asks w ∧ (d.run v).runOn s = (d.run w).runOn t ∨
          d.Asks w ∧ ∃ f u, (d.run v).runOn s = (.error f, u) ∧ d.Refuses w t f u) := by
  intro v d s
  have hv : ∀ w, v.Leads w → w.Unambiguous := by
    intro w hw
    have htexts : ∀ e ∈ [(Value.int 1, Value.text "one"), (.text "1", .text "uno")],
        ∃ shown, e.2 = .text shown :=
      List.forall_mem_cons.mpr ⟨⟨_, rfl⟩, List.forall_mem_singleton.mpr ⟨_, rfl⟩⟩
    rcases leads_texts htexts hw with rfl | ⟨shown, rfl⟩
    · exact (List.pairwise_pair).mpr (by cbv)
    · trivial
  obtain ⟨hoffers, hruns⟩ := run_descends (d := d) hv
  obtain ⟨found, hfound, huno⟩ := (hoffers v .self).2.2.1 (.int 1) (.text "one") List.mem_cons_self
  have hmember : found = some (.text "uno") :=
    (huno _).mpr (List.mem_cons_of_mem _ (List.mem_singleton_self _))
  exact ⟨hv, rfl, hmember ▸ hfound, hruns s⟩

/-- A key that is a number is listed by its text, and under this text there is nothing to pick. -/
theorem run_astray :
    let v : Value := .map [(.int 1, .text "one")]
    let d : Dispatcher Rehearsal := ⟨Rehearsal.host, Choice.execute Rehearsal.host, true,
      .text "kit", none⟩
    let s := Rehearsal.beforeTools .null [.text "1"]
    v.memberNames = ["1"] ∧ v.member? "1" = .ok none ∧
      ((d.run v).runOn s).1 = .error (.misuse .missingKey) := by
  intro v d s
  have hnames : v.offeredNames = .ok ["1"] :=
    v.offeredNames_eq.trans (if_pos (by decide +kernel))
  have hanswer : ((d.question v).runOn s).1 = .ok (some 0) := by
    rw [question_eq hnames]
    dsimp only [d, s]
    cbv
  generalize hasked : (d.question v).runOn s = run at hanswer
  obtain ⟨answer, t⟩ := run
  obtain rfl : answer = .ok (some 0) := hanswer
  have hnone : ∀ m, (.text (Value.int 1).display, m) ∉ v.offers := by
    intro m hm
    have hkey := congrArg Prod.fst (List.mem_singleton.mp hm)
    cases hkey
  have hdistinct : v.Unambiguous := List.pairwise_singleton _ _
  refine ⟨rfl, by dsimp only [v]; cbv, ?_⟩
  rw [run_of_isContainer rfl rfl,
    Act.runOn_bind_error (runOn_select_astray hdistinct hasked rfl hnone)]

end Dispatcher

end Choicebook
