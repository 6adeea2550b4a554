import Choicebook.Files.Tree
import Choicebook.Session.Entry

/-!
# What goes wrong with values

Looking into values needs no session, nor does looking into files. Where it fails, the fault is that
a value or a file does not allow what is done with it: `Misuses`. So it is never a cancellation, and
never the end of everything.
-/

namespace Choicebook

/-- Whatever goes wrong here is that a value does not allow what is done with it. -/
def Misuses {α : Type} (x : Except Fault α) : Prop := ∀ f, x = .error f → ∃ m, f = .misuse m

namespace Misuses

variable {α β : Type}

@[simp]
theorem ok (a : α) : Misuses (.ok a : Except Fault α) := nofun

@[simp]
theorem pure (a : α) : Misuses (pure a : Except Fault α) := nofun

@[simp]
theorem misuse (m : Misuse) : Misuses (.error (.misuse m) : Except Fault α) :=
  fun _ h => ⟨m, (Except.error.inj h).symm⟩

theorem bind {x : Except Fault α} {f : α → Except Fault β} (hx : Misuses x)
    (hf : ∀ a, Misuses (f a)) : Misuses (x >>= f) := by
  cases x with
  | ok a => exact hf a
  | error e =>
    obtain ⟨m, rfl⟩ := hx e rfl
    exact misuse m

theorem map {x : Except Fault α} (f : α → β) (hx : Misuses x) : Misuses (f <$> x) := by
  rw [map_eq_pure_bind]
  exact hx.bind fun _ => pure _

theorem ite {x y : Except Fault α} (p : Prop) [Decidable p] (hx : Misuses x) (hy : Misuses y) :
    Misuses (if p then x else y) := by
  split
  · exact hx
  · exact hy

theorem mapM {f : α → Except Fault β} (hf : ∀ a, Misuses (f a)) (xs : List α) :
    Misuses (xs.mapM f) := by
  induction xs with
  | nil => exact pure _
  | cons x xs ih =>
    rw [List.mapM_cons]
    exact (hf x).bind fun _ => ih.bind fun _ => pure _

theorem ne_endless {x : Except Fault α} (hx : Misuses x) : x ≠ .error .endless := by
  intro h
  obtain ⟨m, hm⟩ := hx _ h
  cases hm

theorem ne_endless_of_eq {x : Except Fault α} {f : Fault} (hx : Misuses x) (h : x = .error f) :
    f ≠ .endless := by
  rintro rfl
  exact hx.ne_endless h

end Misuses

theorem bind_ne_endless {α β : Type} {x : Except Fault α} {f : α → Except Fault β}
    (hx : x ≠ .error .endless) (hf : ∀ a, f a ≠ .error .endless) : (x >>= f) ≠ .error .endless := by
  cases x with
  | ok a => exact hf a
  | error e => exact fun h => hx (congrArg Except.error (Except.error.inj h))

/-- What a script fails with on purpose is not the end of everything. -/
theorem Fault.ofRaise_ne_endless (kind message : String) : ofRaise kind message ≠ .endless := by
  rw [ofRaise]
  split <;> nofun

/-! ### Texts and numbers -/

namespace Value

theorem misuses_written (v : Value) : Misuses v.written := by
  rw [written]
  split
  · exact .ok _
  · exact .misuse _

theorem misuses_comparedText (v : Value) : Misuses v.comparedText := by
  rw [comparedText.eq_def]
  split
  · exact .ok _
  · exact .ok _
  · split <;> exact .ok _
  · exact misuses_written _

theorem misuses_resultText (v : Value) : Misuses v.resultText := by
  rw [resultText.eq_def]
  split
  · split
    · exact .ok _
    · exact misuses_written _
  · split
    · exact .ok _
    · exact misuses_written _
  · exact .ok _
  · exact .ok _
  · exact misuses_written _

theorem misuses_toDouble (v : Value) : Misuses v.toDouble := by
  rw [toDouble.eq_def]
  split
  · exact .ok _
  · split
    · exact .ok _
    · exact .misuse _
  · exact .ok _
  · exact .ok _
  · exact (misuses_written _).map _

theorem misuses_normalized (type : ValueType) (v : Value) : Misuses (v.normalized type) := by
  rw [normalized.eq_def]
  split
  · split
    · exact .ok _
    · exact .ok _
    · exact (misuses_toDouble _).map _
  · exact .ok _
  · exact (misuses_comparedText _).map _

end Value

/-! ### Members -/

namespace Value

theorem misuses_offeredNames (v : Value) : Misuses v.offeredNames := by
  rw [offeredNames.eq_def]
  split
  · exact .mapM (fun e => e.1.misuses_written) _
  · exact .ok _

theorem misuses_position? (key : String) : Misuses (position? key) := by
  rw [position?]
  split
  · split
    · exact .ok _
    · exact .misuse _
  · exact .ok _

theorem misuses_member? (v : Value) (key : String) : Misuses (v.member? key) := by
  rw [member?.eq_def]
  split
  · exact .ok _
  · exact (misuses_position? key).map _
  · exact (misuses_position? key).map _
  · exact .ok _
  · exact .ok _
  · exact .ok _

theorem misuses_smallerMember? (v : Value) (key : String) : Misuses (v.smallerMember? key) := by
  rw [smallerMember?]
  split
  · exact .ok _
  · exact .ok _
  · next f h =>
    obtain ⟨m, rfl⟩ := misuses_member? v key f h
    exact .misuse m

theorem misuses_memberOf? (v key : Value) : Misuses (v.memberOf? key) := by
  rw [memberOf?.eq_def]
  split
  · exact misuses_member? v _
  · split
    · split
      · exact .ok _
      · exact .misuse _
    · exact .misuse _
    · exact .misuse _
    · split
      · exact .ok _
      · exact .misuse _

/-- A member that is missing is not the end of everything, either. -/
theorem follow_ne_endless (owner : String) (path : List String) (v : Value) :
    v.follow owner path ≠ .error .endless := by
  rw [follow]
  refine bind_ne_endless ?_ fun found => ?_
  · induction path generalizing v with
    | nil => nofun
    | cons key path ih =>
      rw [List.foldlM_cons]
      refine bind_ne_endless (bind_ne_endless (misuses_member? v key).ne_endless ?_) ih
      rintro (_ | m) <;> nofun
  · split <;> nofun

theorem misuses_items (v : Value) : Misuses v.items := by
  cases v with
  | list xs => exact .ok _
  | tuple xs => exact .ok _
  | set xs => exact .ok _
  | text s => exact .ok _
  | bytes bs => exact .ok _
  | map es => exact .ok _
  | _ => exact .misuse _

theorem misuses_asEntry (v : Value) : Misuses v.asEntry := by
  refine (misuses_items v).bind fun items => ?_
  split
  · split
    · exact .ok _
    · exact .misuse _
  · exact .misuse _

theorem misuses_toEntries (v : Value) : Misuses v.toEntries := by
  rw [toEntries.eq_def]
  split
  · exact .ok _
  · exact (misuses_items _).bind fun xs => (Misuses.mapM misuses_asEntry xs).bind fun _ => .ok _

end Value

theorem Call.misuses_sortedKeys (m : Entries) : Misuses (sortedKeys m) := by
  rw [sortedKeys]
  split
  · exact .ok _
  · split
    · exact .ok _
    · exact .misuse _

/-! ### Conditions -/

namespace Operator

theorem misuses_lookedUp {α : Type} (v : Value) (a : α) : Misuses (lookedUp v a) := by
  rw [lookedUp]
  split
  · exact .ok _
  · exact .misuse _

theorem misuses_needsExpected (o : Operator) : Misuses o.needsExpected := by
  cases o with
  | known t => exact .ok _
  | other v => exact misuses_lookedUp v _

end Operator

namespace VariableCondition

variable (c : VariableCondition)

theorem misuses_expectedValue? : Misuses c.expectedValue? := by
  refine (Operator.misuses_needsExpected _).bind fun needed => ?_
  split <;> exact .ok _

theorem misuses_anyItem (type : ValueType) (expected : Value) (xs : List Value) :
    Misuses (anyItem type expected xs) := by
  induction xs with
  | nil => exact .ok _
  | cons x xs ih =>
    rw [anyItem]
    refine (Value.misuses_normalized type x).bind fun v => ?_
    split
    · exact .ok _
    · exact ih

theorem misuses_containing (actual expected : Value) : Misuses (c.containing actual expected) := by
  rw [containing.eq_def]
  split
  · exact .ok _
  · exact .ok _
  · exact (misuses_anyItem _ _ _).map _
  · exact (misuses_anyItem _ _ _).map _
  · exact (misuses_anyItem _ _ _).map _
  · exact (Value.misuses_comparedText _).bind fun _ => .ok _
  · split
    · exact .ok _
    · exact (Value.misuses_comparedText _).bind fun _ =>
        (Value.misuses_comparedText _).bind fun _ => .ok _

theorem misuses_comparing (t : Test) (actual expected : Value) :
    Misuses (c.comparing t actual expected) := by
  refine (Value.misuses_normalized _ _).bind fun v => ?_
  split
  · exact .ok _
  · exact .ok _
  · refine (Value.misuses_toDouble _).bind fun x => (Value.misuses_toDouble _).bind fun y => ?_
    split <;> exact .ok _

theorem misuses_testing (t : Test) (actual : Value) : Misuses (c.testing t actual) := by
  rw [testing.eq_def]
  split
  · exact .ok _
  · exact .ok _
  · refine c.misuses_expectedValue?.bind fun expected => ?_
    split
    · exact .ok _
    · split
      · exact c.misuses_containing _ _
      · exact (c.misuses_containing _ _).bind fun _ => .ok _
      · exact c.misuses_comparing _ _ _

/-- Whether a condition on a variable holds is a matter of values. -/
theorem misuses_evaluate (vars : Entries) : Misuses (c.evaluate vars) := by
  rw [evaluate]
  split
  · exact .ok _
  · split
    · exact .ok _
    · split
      · exact c.misuses_testing _ _
      · exact Operator.misuses_lookedUp _ _

end VariableCondition

/-! ### Documents -/

theorem SingleMacro.misuses_bareName (v : Value) : Misuses (bareName v) := by
  rw [bareName.eq_def]
  split
  · exact .ok _
  · split
    · exact .misuse _
    · exact .ok _

theorem SingleMacro.misuses_exactly? (wanted : String) (cs : List Choice) :
    Misuses (exactly? wanted cs) := by
  induction cs with
  | nil => exact .ok _
  | cons c cs ih =>
    rw [exactly?]
    refine (misuses_bareName _).bind fun name => ?_
    split
    · exact .ok _
    · exact ih

theorem Document.misuses_allMacros (d : Document) : Misuses d.allMacros := by
  have hdistinct : ∀ (ms : List Macro) (seen : List Value), Misuses (distinct seen ms) := by
    intro ms
    induction ms with
    | nil => exact fun _ => .ok _
    | cons m ms ih =>
      intro seen
      rw [distinct]
      split
      · exact .misuse _
      · split
        · exact ih _
        · exact (ih _).map _
  exact hdistinct _ []

/-! ### Files -/

namespace Files.Tree

variable (t : Tree) (p : Path)

theorem misuses_read : Misuses (t.read p) := by
  rw [read]
  split
  · exact .ok _
  · exact .misuse _
  · exact .misuse _
  · exact .misuse _
  · exact .misuse _

theorem misuses_readText : Misuses (t.readText p) := by
  refine (t.misuses_read p).bind fun body => ?_
  split
  · exact .ok _
  · split
    · exact .ok _
    · exact .misuse _
  · exact .ok _

theorem misuses_readRaw : Misuses (t.readRaw p) := by
  refine (t.misuses_read p).bind fun body => ?_
  split <;> exact .ok _

theorem misuses_writeText (s : String) : Misuses (t.writeText p s) := by
  rw [writeText]
  split
  · exact .ite _ (.misuse _) (.ok _)
  · exact .ite _ (.misuse _) (.ok _)
  · exact .misuse _
  · exact .misuse _
  · exact .misuse _

theorem misuses_makeAt (l : Location) : Misuses (t.makeAt l) := .ite _ (.misuse _) (.ok _)

theorem misuses_makeDirectories (count : Nat) (p : Path) : Misuses (t.makeDirectories count p) := by
  induction count generalizing p with
  | zero => exact .ok _
  | succ count ih =>
    rw [makeDirectories]
    split
    · exact .ok _
    · exact .misuse _
    · exact .misuse _
    · exact t.misuses_makeAt _
    · refine (ih _).bind fun made => ?_
      split
      · exact made.misuses_makeAt _
      · exact .ok _
      · exact .misuse _

theorem misuses_withDirectory : Misuses (t.withDirectory p) := t.misuses_makeDirectories _ p

end Files.Tree

end Choicebook
