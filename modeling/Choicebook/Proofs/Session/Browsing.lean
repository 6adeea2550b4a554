import Mathlib
import Choicebook.Proofs.Session.Places
import Choicebook.Proofs.Session.Rehearsal
import Choicebook.Session.Interpreter

/-!
# Going through menus

While the user goes through the menus of a choice, the session keeps the lists that the way back
leads to on a stack. Here the menus that are shown are described without one: a `Menu.Tour` is what
can be told from the menus and the answers alone. There is a way back as long as more menus were
entered than were left again, where the list that the choice stands in counts as one that was
entered before the start. The way back out of a menu leads to the list that it was entered from,
which is the list of the last visit that has not been left again (`Menu.EnteredFrom`). It can lead
out of the menu of the start, and from there back into it.

The stack is what `Menu.Trace` reads off the visits: one step of a walk keeps it, so all menus of a
run are on a tour (`Menu.Walk.tour`). `Choice.perform_multi` puts this together with how such a run
begins and ends. It begins with the list that the choice stands in, which is looked for in the
document (`Placed.Below`).
-/

namespace Choicebook

variable {σ : Type}

/-- Selections do not fail, an answer is a position among what is offered, and the host leaves the
trail alone. -/
structure Host.Selects (h : Host σ) : Prop where
  suggest : ∀ labels count placeholder s,
    ∃ r t, (h.suggest labels count placeholder).runOn s = (.ok r, t) ∧ ∀ i ∈ r, i < count
  trail : ∀ labels count placeholder s,
    ((h.suggest labels count placeholder).runOn s).2.trail = s.trail

namespace Placed

/-- What is below the menu of a choice at the start: the list of the document in which the choice
stands. There is one exactly if something stands at its place, and for a choice of the document it
is the choice itself that stands there. -/
structure Below (d : Document) (p : Placed) (parent : Option (List Choice)) : Prop where
  stands : ∀ l, parent = some l ↔ ∃ place c, p.place = some place ∧ Stands d.choices place l c
  of_mem : p ∈ all d → ∃ place l, p.place = some place ∧ parent = some l ∧
    Stands d.choices place l p.choice

/-- The search finds what is below the menu. -/
theorem below_list? (d : Document) (p : Placed) : Below d p (list? d p) where
  stands _ := list?_eq_some_iff
  of_mem hp := by
    obtain ⟨place, l, hplace, hstands⟩ := stands_of_mem_all hp
    exact ⟨place, l, hplace, list?_eq_some_iff.mpr ⟨place, _, hplace, hstands⟩, hstands⟩

end Placed

namespace Menu

/-! ### Visits -/

/-- Where an answer leads. -/
inductive Turn where
  | cancelled
  /-- To the choices of a choice that has choices of its own. -/
  | entered (h : ChoiceHead) (choices : List Choice)
  | back
  | picked (c : Choice)

namespace Turn

def isEntry : Turn → Bool
  | entered .. => true
  | _ => false

def isReturn : Turn → Bool
  | back => true
  | _ => false

/-- Whether another menu is shown then. -/
def goesOn (turn : Turn) : Bool :=
  turn.isEntry || turn.isReturn

end Turn

/-- One time that a menu is shown, with the answer. -/
structure Visit where
  choices : List Choice
  placeholder : Value
  hasBack : Bool
  answer : Option Nat

namespace Visit

/-- What is offered: the names of the choices in their order, and last the way back if there
is one. -/
def labels (v : Visit) : List Value :=
  v.choices.map Choice.name ++ (if v.hasBack then [.text backLabel] else [])

/-- The mark that the visit leaves on the trail. -/
def mark (v : Visit) : Mark :=
  .asked (.suggest v.labels v.placeholder)

/-- Where the answer leads. What is offered behind the choices is the way back. -/
def turn (v : Visit) : Turn :=
  match v.answer with
  | none => .cancelled
  | some i =>
    match v.choices[i]? with
    | some (.multi h cs _) => .entered h cs
    | some c => .picked c
    | none => .back

/-- Only what is offered is picked, and a choice with choices of its own is entered. -/
theorem of_picked {v : Visit} {c : Choice} (h : v.turn = .picked c) :
    c ∈ v.choices ∧ ∀ head cs isCollapsed, c ≠ .multi head cs isCollapsed := by
  rw [turn] at h
  split at h
  · cases h
  · split at h
    · cases h
    · next c' hnot hc' =>
      cases h
      exact ⟨List.mem_of_getElem? hc', hnot⟩
    · cases h

end Visit

def entries (visits : List Visit) : Nat := visits.countP (·.turn.isEntry)

def returns (visits : List Visit) : Nat := visits.countP (·.turn.isReturn)

theorem count_append (visits more : List Visit) :
    entries (visits ++ more) = entries visits + entries more ∧
      returns (visits ++ more) = returns visits + returns more :=
  ⟨List.countP_append, List.countP_append⟩

theorem count_cons_entry {v : Visit} (h : v.turn.isEntry) (visits : List Visit) :
    entries (v :: visits) = entries visits + 1 ∧ returns (v :: visits) = returns visits := by
  have hno : ¬ v.turn.isReturn := by
    cases hv : v.turn <;> rw [hv] at h <;> simp_all [Turn.isEntry, Turn.isReturn]
  exact ⟨List.countP_cons_of_pos h, List.countP_cons_of_neg hno⟩

theorem count_cons_return {v : Visit} (h : v.turn.isReturn) (visits : List Visit) :
    entries (v :: visits) = entries visits ∧ returns (v :: visits) = returns visits + 1 := by
  have hno : ¬ v.turn.isEntry := by
    cases hv : v.turn <;> rw [hv] at h <;> simp_all [Turn.isEntry, Turn.isReturn]
  exact ⟨List.countP_cons_of_neg hno, List.countP_cons_of_pos h⟩

/-- Visits that lead back to where they began: every menu that is entered in them is left again. -/
inductive Balanced : List Visit → Prop
  | nil : Balanced []
  | group {e b : Visit} {inner later : List Visit} : e.turn.isEntry → Balanced inner →
    b.turn.isReturn → Balanced later → Balanced (e :: inner ++ b :: later)

/-- After some visits, the menu of the list `current` was entered from the list `l`: at the last
visit that has not been left again, or before the start. -/
inductive EnteredFrom (start : List Choice) (parent : Option (List Choice)) :
    (before : List Visit) → (current l : List Choice) → Prop
  | visit {earlier inner : List Visit} {e : Visit} {h : ChoiceHead} {current : List Choice} :
    e.turn = .entered h current → Balanced inner →
    EnteredFrom start parent (earlier ++ e :: inner) current e.choices
  | parent {before : List Visit} {l : List Choice} : Balanced before → parent = some l →
    EnteredFrom start parent before start l

/-- The visits of a run that begins with the menu of a choice, whose own list is `parent`. -/
structure Tour (head : ChoiceHead) (start : List Choice) (parent : Option (List Choice))
    (visits : List Visit) : Prop where
  first : ∀ v ∈ visits.head?, v.choices = start ∧ v.placeholder = head.name
  /-- Answers are positions among what is offered. -/
  answered : ∀ v ∈ visits, ∀ i ∈ v.answer, i < v.labels.length
  hasBack : ∀ before v later, visits = before ++ v :: later →
    (v.hasBack ↔ returns before < entries before + parent.toList.length)
  /-- What is shown next is what is entered, or the one list that the menu was entered from. -/
  next : ∀ before v w later, visits = before ++ v :: w :: later →
    (∃ h, v.turn = .entered h w.choices ∧ w.placeholder = h.name) ∨
    (v.turn = .back ∧ w.placeholder = .null ∧
      ∀ l, EnteredFrom start parent before v.choices l ↔ l = w.choices)

/-! ### The stack -/

theorem Balanced.append {visits more : List Visit} (h : Balanced visits) (hmore : Balanced more) :
    Balanced (visits ++ more) := by
  induction h with
  | nil => exact hmore
  | group he hinner hb _ _ ih =>
    rw [List.append_assoc, List.cons_append]
    exact .group he hinner hb ih

/-- As many menus are entered as are left again. -/
theorem Balanced.count {visits : List Visit} (h : Balanced visits) :
    entries visits = returns visits := by
  induction h with
  | nil => rfl
  | @group e b inner later he _ hb _ hinner hlater =>
    have hentry := count_cons_entry he inner
    have hreturn := count_cons_return hb later
    have happend := count_append (e :: inner) (b :: later)
    omega

/-- At the end of such visits, nothing is entered that is not left again. -/
theorem Balanced.count_suffix {visits : List Visit} (h : Balanced visits) :
    ∀ rest, rest <:+ visits → entries rest ≤ returns rest := by
  induction h with
  | nil =>
    intro rest hrest
    rw [List.suffix_nil.mp hrest]
    exact le_refl _
  | @group e b inner later he hinner hb hlater ihinner ihlater =>
    have hentry := count_cons_entry he inner
    have hreturn := count_cons_return hb later
    have hsame := hinner.count
    have hsame' := hlater.count
    intro rest hrest
    rcases List.suffix_or_suffix_of_suffix hrest (List.suffix_append _ _) with hshort | hlong
    · rcases List.suffix_cons_iff.mp hshort with rfl | hshort
      · omega
      · exact ihlater rest hshort
    · obtain ⟨front, rfl⟩ := hlong
      obtain ⟨gone, hgone⟩ := hrest
      rw [← List.append_assoc] at hgone
      have hfront : front <:+ e :: inner := ⟨gone, List.append_cancel_right hgone⟩
      have happend := count_append front (b :: later)
      rcases List.suffix_cons_iff.mp hfront with rfl | hfront
      · omega
      · have hrest := ihinner front hfront
        omega

/-- The list that a menu was entered from is determined by the visits. -/
theorem EnteredFrom.unique {start current l l' : List Choice} {parent : Option (List Choice)}
    {before : List Visit} (h : EnteredFrom start parent before current l)
    (h' : EnteredFrom start parent before current l') : l = l' := by
  -- a menu that was entered and has not been left is in no visits that lead back
  have hopen : ∀ {e : Visit} {head : ChoiceHead} {cs : List Choice} {inner visits : List Visit},
      e.turn = .entered head cs → Balanced inner → Balanced visits →
      ¬ (e :: inner) <:+ visits := by
    intro e head cs inner visits he hinner hvisits hsuffix
    have hentry := count_cons_entry (v := e) (by rw [he]; rfl) inner
    have hcount := hinner.count
    have hless := hvisits.count_suffix _ hsuffix
    omega
  cases h with
  | @visit earlier inner e head _ he hinner =>
    generalize hbefore : earlier ++ e :: inner = before at h'
    cases h' with
    | @visit earlier' inner' e' head' _ he' hinner' =>
      have hsuffix : (e :: inner) <:+ earlier' ++ e' :: inner' := ⟨earlier, hbefore⟩
      rcases List.suffix_or_suffix_of_suffix hsuffix (List.suffix_append _ _) with hin | hin
      · rcases List.suffix_cons_iff.mp hin with heq | hin
        · rw [(List.cons.inj heq).1]
        · exact absurd hin (hopen he hinner hinner')
      · rcases List.suffix_cons_iff.mp hin with heq | hin
        · rw [(List.cons.inj heq).1]
        · exact absurd hin (hopen he' hinner' hinner)
    | parent hbalanced _ =>
      exact absurd ⟨earlier, hbefore⟩ (hopen he hinner hbalanced)
  | parent hbalanced hl =>
    cases h' with
    | visit he' hinner' => exact absurd (List.suffix_append _ _) (hopen he' hinner' hbalanced)
    | parent _ hl' => exact Option.some.inj (hl.symm.trans hl')

/-- What the visits of a run that begins at `start` say about the present: the list that is shown
and the lists that the way back leads to, the nearest first. -/
inductive Trace (start : List Choice) (parent : Option (List Choice)) :
    List Visit → (current : List Choice) → (outer : List (List Choice)) → Prop
  | start {visits : List Visit} : Balanced visits → Trace start parent visits start parent.toList
  | entered {earlier inner : List Visit} {e : Visit} {h : ChoiceHead} {current : List Choice}
    {outer : List (List Choice)} : Trace start parent earlier e.choices outer →
    e.turn = .entered h current → Balanced inner →
    Trace start parent (earlier ++ e :: inner) current (e.choices :: outer)
  /-- Out of the menu of the start there is one way back only. -/
  | left {earlier later : List Visit} {b : Visit} {l : List Choice} : parent = some l →
    Balanced earlier → b.turn.isReturn → Balanced later →
    Trace start parent (earlier ++ b :: later) l []

namespace Trace

variable {start current : List Choice} {parent : Option (List Choice)} {visits : List Visit}
  {outer : List (List Choice)}

theorem append (h : Trace start parent visits current outer) {more : List Visit}
    (hmore : Balanced more) : Trace start parent (visits ++ more) current outer := by
  cases h with
  | start hvisits => exact .start (hvisits.append hmore)
  | entered hearlier he hinner =>
    rw [List.append_assoc, List.cons_append]
    exact .entered hearlier he (hinner.append hmore)
  | left hparent hearlier hb hlater =>
    rw [List.append_assoc, List.cons_append]
    exact .left hparent hearlier hb (hlater.append hmore)

/-- There are as many lists on the stack as there are menus that have not been left again. -/
theorem count (h : Trace start parent visits current outer) :
    outer.length + returns visits = entries visits + parent.toList.length := by
  induction h with
  | start hvisits =>
    have hcount := hvisits.count
    omega
  | @entered earlier inner e head current outer _ he hinner ih =>
    have hentry := count_cons_entry (v := e) (by rw [he]; rfl) inner
    have happend := count_append earlier (e :: inner)
    have hcount := hinner.count
    rw [List.length_cons]
    omega
  | @left earlier later b l hparent hearlier hb hlater =>
    have hreturn := count_cons_return hb later
    have happend := count_append earlier (b :: later)
    have hbefore := hearlier.count
    have hafter := hlater.count
    rw [hparent, Option.toList_some, List.length_singleton, List.length_nil]
    omega

/-- After a way back. -/
theorem back {v : Visit} {l : List Choice} (h : Trace start parent visits v.choices (l :: outer))
    (hv : v.turn = .back) :
    Trace start parent (visits ++ [v]) l outer ∧ EnteredFrom start parent visits v.choices l := by
  have hreturn : v.turn.isReturn := by
    rw [hv]
    rfl
  generalize hcurrent : v.choices = current at h ⊢
  generalize hstack : l :: outer = stack at h
  cases h with
  | start hvisits =>
    cases hparent : parent with
    | none =>
      rw [hparent] at hstack
      cases hstack
    | some l' =>
      rw [hparent] at hstack
      cases hstack
      exact ⟨.left rfl hvisits hreturn .nil, .parent hvisits rfl⟩
  | @entered earlier inner e h current outer' hearlier he hinner =>
    obtain ⟨rfl, rfl⟩ := List.cons.inj hstack
    have hentry : e.turn.isEntry := by
      rw [he]
      rfl
    constructor
    · have hgroup : Balanced (e :: inner ++ v :: []) := .group hentry hinner hreturn .nil
      rw [List.append_assoc]
      exact hearlier.append hgroup
    · exact .visit he hinner
  | left => cases hstack

end Trace

/-! ### Walks -/

/-- What is seen of a menu when it is shown. -/
def visit (m : Menu) (answer : Option Nat) : Visit :=
  ⟨m.choices, m.placeholder, !m.outer.isEmpty, answer⟩

theorem labels_visit (m : Menu) (answer : Option Nat) : (m.visit answer).labels = m.labels := by
  obtain ⟨choices, outer, placeholder⟩ := m
  cases outer with
  | nil => rfl
  | cons l more => rfl

/-- An answer opens another menu. -/
inductive Opens (m : Menu) (answer : Option Nat) : Menu → Prop
  | entered {h : ChoiceHead} {cs : List Choice} : (m.visit answer).turn = .entered h cs →
    Opens m answer ⟨cs, m.choices :: m.outer, h.name⟩
  | back {l : List Choice} {more : List (List Choice)} : (m.visit answer).turn = .back →
    m.outer = l :: more → Opens m answer ⟨l, more, .null⟩

theorem Opens.goesOn {m inner : Menu} {answer : Option Nat} (h : Opens m answer inner) :
    (m.visit answer).turn.goesOn := by
  cases h with
  | entered hturn =>
    rw [hturn]
    rfl
  | back hturn _ =>
    rw [hturn]
    rfl

/-- An answer among what is offered leads where the visit says. -/
theorem select_answered {m : Menu} {answer : Option Nat}
    (h : ∀ i ∈ answer, i < m.labels.length) :
    (m.select answer = .cancelled ∧ (m.visit answer).turn = .cancelled) ∨
    (∃ c, m.select answer = .run c ∧ (m.visit answer).turn = .picked c) ∨
    ∃ inner, m.select answer = .open inner ∧ m.Opens answer inner := by
  cases answer with
  | none => exact .inl ⟨rfl, rfl⟩
  | some i =>
    have hturn : (m.visit (some i)).turn = match m.choices[i]? with
      | some (.multi h cs _) => .entered h cs
      | some c => .picked c
      | none => .back := rfl
    rw [select]
    cases hi : m.choices[i]? with
    | some c =>
      rw [hi] at hturn
      cases c with
      | multi head cs isCollapsed => exact .inr (.inr ⟨_, rfl, .entered hturn⟩)
      | template => exact .inr (.inl ⟨_, rfl, hturn⟩)
      | capture => exact .inr (.inl ⟨_, rfl, hturn⟩)
      | ofMacro => exact .inr (.inl ⟨_, rfl, hturn⟩)
    | none =>
      -- what is offered behind the choices is the way back, so there is an outer menu
      rw [hi] at hturn
      cases houter : m.outer with
      | nil =>
        have hlength := h i rfl
        rw [labels, houter, List.isEmpty_nil, if_pos rfl, List.append_nil, List.length_map]
          at hlength
        exact absurd (List.getElem?_eq_none_iff.mp hi) (Nat.not_le_of_lt hlength)
      | cons l more => exact .inr (.inr ⟨_, rfl, .back hturn houter⟩)

/-- Menus that are shown one after the other, each opened by the answer to the one before. -/
inductive Walk : Menu → List Visit → Prop
  | nil {m : Menu} : Walk m []
  | last {m : Menu} {answer : Option Nat} : (∀ i ∈ answer, i < m.labels.length) →
    Walk m [m.visit answer]
  | step {m inner : Menu} {answer : Option Nat} {visits : List Visit} :
    (∀ i ∈ answer, i < m.labels.length) → m.Opens answer inner → Walk inner visits →
    Walk m (m.visit answer :: visits)

variable {start : List Choice} {parent : Option (List Choice)}

/-- An answer keeps what the visits say about the stack. -/
theorem Trace.step {m inner : Menu} {answer : Option Nat} {visits : List Visit}
    (h : Trace start parent visits m.choices m.outer) (hopens : m.Opens answer inner) :
    Trace start parent (visits ++ [m.visit answer]) inner.choices inner.outer := by
  cases hopens with
  | entered hturn => exact .entered (e := m.visit answer) h hturn .nil
  | back hturn houter =>
    rw [houter] at h
    exact (Trace.back (v := m.visit answer) h hturn).1

/-- The rest of a walk is a walk, and the visits before it say where it begins. -/
theorem Walk.drop {m : Menu} {earlier before later : List Visit} (h : Walk m (before ++ later))
    (hm : Trace start parent earlier m.choices m.outer) (hlater : later ≠ []) :
    ∃ m', Walk m' later ∧ Trace start parent (earlier ++ before) m'.choices m'.outer := by
  induction before generalizing m earlier with
  | nil => exact ⟨m, h, by rwa [List.append_nil]⟩
  | cons v before ih =>
    rw [List.cons_append] at h
    generalize hrest : before ++ later = rest at h
    cases h with
    | last => exact absurd (List.append_eq_nil_iff.mp hrest).2 hlater
    | step _ hopens hwalk =>
      subst hrest
      obtain ⟨m', hwalk', htrace⟩ := ih hwalk (hm.step hopens)
      refine ⟨m', hwalk', ?_⟩
      rwa [List.append_assoc] at htrace

/-- **A walk from the menu of a choice is a tour.** -/
theorem Walk.tour {head : ChoiceHead} {visits : List Visit}
    (h : Walk ⟨start, parent.toList, head.name⟩ visits) : Tour head start parent visits := by
  -- each clause cuts the walk at a visit and looks at the trace that leads there
  have hstart : Trace start parent [] start parent.toList := .start .nil
  constructor
  · intro v hv
    cases h with
    | nil => cases hv
    | last =>
      cases hv
      exact ⟨rfl, rfl⟩
    | step =>
      cases hv
      exact ⟨rfl, rfl⟩
  · intro v hv
    obtain ⟨before, later, rfl⟩ := List.append_of_mem hv
    obtain ⟨m, hwalk, -⟩ := h.drop hstart (List.cons_ne_nil _ _)
    cases hwalk with
    | last hanswer =>
      rw [labels_visit]
      exact hanswer
    | step hanswer =>
      rw [labels_visit]
      exact hanswer
  · rintro before v later rfl
    obtain ⟨m, hwalk, htrace⟩ := h.drop hstart (List.cons_ne_nil _ _)
    have hback : v.hasBack = !m.outer.isEmpty := by
      cases hwalk <;> rfl
    -- there are as many menus below as have been entered and not left
    have hcount := htrace.count
    rw [List.nil_append] at hcount
    have hempty : m.outer.isEmpty ↔ m.outer.length = 0 := by
      rw [List.isEmpty_iff_length_eq_zero]
    rw [hback, Bool.not_eq_true', ← Bool.not_eq_true, hempty]
    omega
  · rintro before v w later rfl
    obtain ⟨m, hwalk, htrace⟩ := h.drop hstart (List.cons_ne_nil _ _)
    rw [List.nil_append] at htrace
    cases hwalk with
    | @step _ inner answer _ _ hopens hnext =>
      have hw : w.choices = inner.choices ∧ w.placeholder = inner.placeholder := by
        cases hnext <;> exact ⟨rfl, rfl⟩
      rw [hw.1, hw.2]
      cases hopens with
      | entered hturn => exact .inl ⟨_, hturn, rfl⟩
      | back hturn houter =>
        rw [houter] at htrace
        have hfrom := (Trace.back (v := m.visit answer) htrace hturn).2
        exact .inr ⟨hturn, rfl, fun l => ⟨fun hl => hl.unique hfrom, fun hl => hl ▸ hfrom⟩⟩

/-! ### Runs -/

/-- All that a run has added to the trail are these visits. -/
def Shown (visits : List Visit) (s t : Session σ) : Prop :=
  t.trail.map Moment.mark = (visits.map Visit.mark).reverse ++ s.trail.map Moment.mark

theorem Shown.cons {v : Visit} {visits : List Visit} {s t u : Session σ} (h : Shown [v] s t)
    (hlater : Shown visits t u) : Shown (v :: visits) s u := by
  have hreverse : ((v :: visits).map Visit.mark).reverse =
      (visits.map Visit.mark).reverse ++ [v.mark] := by
    rw [List.map_cons, List.reverse_cons]
  rw [Shown] at h hlater ⊢
  rw [hlater, h, hreverse, List.append_assoc]
  rfl

/-- The last visit ends the walk, with this result. -/
inductive Ended : List Visit → Option Choice → Prop
  | cancelled (before : List Visit) {v : Visit} : v.turn = .cancelled → Ended (before ++ [v]) none
  | picked (before : List Visit) {v : Visit} {c : Choice} : v.turn = .picked c →
    Ended (before ++ [v]) (some c)

theorem Ended.cons {visits : List Visit} {result : Option Choice} (h : Ended visits result)
    (v : Visit) : Ended (v :: visits) result := by
  cases h with
  | cancelled before hv => exact .cancelled (v :: before) hv
  | picked before hv => exact .picked (v :: before) hv

variable {host : Host σ}

/-- One selection: the answer, and what is done about it. -/
theorem runOn_offer (hs : host.Selects) (browse : Menu → Act σ (Option Choice)) (m : Menu)
    (s : Session σ) : ∃ answer t, (∀ i ∈ answer, i < m.labels.length) ∧
      Shown [m.visit answer] s t ∧
      (host.Exhaustible → answer.isSome → host.patience t.host < host.patience s.host) ∧
      (m.offer host browse).runOn s = match m.select answer with
        | .cancelled => (.ok none, t)
        | .run c => (.ok (some c), t)
        | .open inner => (browse inner).runOn t := by
  let asked := s.remember (.asked (.suggest m.labels m.placeholder))
  obtain ⟨answer, t, hrun, hanswer⟩ :=
    hs.suggest m.labels m.labels.length m.placeholder asked
  have hask : (Act.ask (.suggest m.labels m.placeholder)
      (host.suggest m.labels m.labels.length m.placeholder)).runOn s = (.ok answer, t) := by
    rw [Act.runOn_ask, hrun, Act.proceed_ok]
  refine ⟨answer, t, hanswer, ?_, ?_, ?_⟩
  · have htrail := hs.trail m.labels m.labels.length m.placeholder asked
    rw [hrun] at htrail
    rw [Shown, htrail, Session.remember_trail, List.map_cons, Session.moment_mark,
      List.map_singleton, Visit.mark, labels_visit]
    rfl
  · intro he hsome
    obtain ⟨i, rfl⟩ := Option.isSome_iff_exists.mp hsome
    exact he.answered _ _ _ asked i t hrun
  · rw [offer, Act.runOn_bind_ok hask]
    cases m.select answer <;> rfl

/-- **Going through menus is a walk.** It ends with its last visit, or it has shown as many menus as
it may, and then there can be as many selections. -/
theorem runOn_navigate (hs : host.Selects) (fuel : Nat) (m : Menu) (s : Session σ) :
    ∃ visits result t, Walk m visits ∧ Shown visits s t ∧
      (m.navigate host fuel).runOn s = (.ok result, t) ∧
      (Ended visits result ∨ visits.length = fuel ∧ (∀ v ∈ visits, v.turn.goesOn) ∧
        (host.Exhaustible → fuel ≤ host.patience s.host)) := by
  induction fuel generalizing m s with
  | zero => exact ⟨[], none, s, .nil, rfl, rfl, .inr ⟨rfl, nofun, fun _ => Nat.zero_le _⟩⟩
  | succ fuel ih =>
    obtain ⟨answer, t, hanswer, hshown, hless, hrun⟩ := runOn_offer hs (navigate host fuel) m s
    rw [navigate, hrun]
    rcases select_answered hanswer with ⟨hselect, hturn⟩ | ⟨c, hselect, hturn⟩ |
      ⟨inner, hselect, hopens⟩
    · rw [hselect]
      exact ⟨_, _, t, .last hanswer, hshown, rfl, .inl (.cancelled [] hturn)⟩
    · rw [hselect]
      exact ⟨_, _, t, .last hanswer, hshown, rfl, .inl (.picked [] hturn)⟩
    · rw [hselect]
      obtain ⟨visits, result, u, hwalk, hlater, hrest, hend⟩ := ih inner t
      refine ⟨_ :: visits, result, u, .step hanswer hopens hwalk, hshown.cons hlater, hrest, ?_⟩
      rcases hend with hended | ⟨hlength, hall, hpatience⟩
      · exact .inl (hended.cons _)
      · refine .inr ⟨by rw [List.length_cons, hlength], ?_, ?_⟩
        · intro v hv
          rcases List.mem_cons.mp hv with rfl | hv
          · exact hopens.goesOn
          · exact hall v hv
        · intro he
          have hsome : answer.isSome := by
            cases answer with
            | none => cases hselect
            | some i => rfl
          exact (hpatience he).trans_lt (hless he hsome)

end Menu

namespace Rehearsal

theorem host_selects : host.Selects where
  suggest labels count placeholder s := by
    cases h : s.host.answers with
    | nil => exact ⟨_, _, runOn_suggest_nil h, nofun⟩
    | cons v rest =>
      refine ⟨_, _, runOn_suggest_cons h, ?_⟩
      intro i hi
      exact of_decide_eq_true (Option.filter_eq_some_iff.mp hi).2
  trail labels count placeholder s := host_discreet.trail (.suggest labels count placeholder) s

/-- A choice that stands in the list of another one, which stands in a list itself. -/
def outer : Choice :=
  let go : Choice := .template ⟨.text "go", .text "go", false⟩ []
  .multi ⟨.text "outer", .text "outer", false⟩
    [.multi ⟨.text "inner", .text "inner", false⟩ [go] false, go] false

/-- A session in which the user goes into a menu, back out of it and out of the one before, and in
again. -/
def wandering : Session Rehearsal :=
  let back : Value := .text Menu.backLabel
  .start .preset ⟨[outer], [], []⟩ .start
    ⟨[], [.text "inner", back, back, .text "outer", .text "go"], [], [], false, none, false⟩

end Rehearsal

namespace Choice

/-- How a run of a choice with choices of its own ends, after some visits: there is nothing to
choose from, or the last selection is cancelled, or it picks a choice without choices of its own,
which is run then. -/
inductive MenuEnds (host : Host σ) (execute : Placed → Act σ Unit) (c : Choice) :
    (choices : List Choice) → List Menu.Visit → Session σ → Except Fault Unit × Session σ →
    Prop
  | empty {t : Session σ} : MenuEnds host execute c [] [] t (.ok (), t)
  | cancelled {choices : List Choice} {before : List Menu.Visit} {v : Menu.Visit} {t : Session σ} :
    v.turn = .cancelled → MenuEnds host execute c choices (before ++ [v]) t
      ((Act.recordCancellation host c "Choice selection aborted"
        "Choice selection cancelled by user").runOn t)
  | picked {choices : List Choice} {before : List Menu.Visit} {v : Menu.Visit} {t : Session σ}
    {picked : Choice} : v.turn = .picked picked → picked ∈ v.choices →
    (∀ h cs isCollapsed, picked ≠ .multi h cs isCollapsed) →
    MenuEnds host execute c choices (before ++ [v]) t ((execute ⟨picked, none⟩).runOn t)

variable {host : Host σ}

/-- A run with as many selections as are allowed shows the menus of a tour. -/
theorem runOn_perform_multi (hs : host.Selects) {p : Placed} {h : ChoiceHead}
    {choices : List Choice} {isCollapsed : Bool} (hp : p.choice = .multi h choices isCollapsed)
    (s : Session σ) (fuel : Nat) :
    ∃ visits t, Menu.Tour h choices (Placed.list? s.document p) visits ∧ Menu.Shown visits s t ∧
      ((∀ execute, MenuEnds host execute p.choice choices visits t
        ((perform host (Menu.navigate host fuel) execute p).runOn s)) ∨
      visits.length = fuel ∧ (∀ v ∈ visits, v.turn.goesOn) ∧
        (host.Exhaustible → fuel ≤ host.patience s.host)) := by
  obtain ⟨c, place⟩ := p
  subst hp
  cases choices with
  | nil =>
    refine ⟨[], s.note (.warning ("multi choice '" ++ h.name.display ++ "' has no choices")),
      Menu.Walk.tour .nil, rfl, .inl ?_⟩
    intro execute
    exact .empty
  | cons first choices =>
    let c : Choice := .multi h (first :: choices) isCollapsed
    obtain ⟨visits, result, t, hwalk, hshown, hrun, hend⟩ := Menu.runOn_navigate hs fuel
      ⟨first :: choices, (Placed.list? s.document ⟨c, place⟩).toList, h.name⟩ s
    refine ⟨visits, t, hwalk.tour, hshown, hend.imp_left ?_⟩
    intro hended execute
    cases hended with
    | cancelled _ hturn =>
      have hmenu : (perform host (Menu.navigate host fuel) execute ⟨c, place⟩).runOn s =
          (Act.recordCancellation host c "Choice selection aborted"
            "Choice selection cancelled by user").runOn t :=
        Act.runOn_bind_ok hrun _
      rw [hmenu]
      exact .cancelled hturn
    | @picked _ _ picked hturn =>
      have hmenu : (perform host (Menu.navigate host fuel) execute ⟨c, place⟩).runOn s =
          (execute ⟨picked, none⟩).runOn t :=
        Act.runOn_bind_ok hrun _
      obtain ⟨hmem, hkind⟩ := Menu.Visit.of_picked hturn
      rw [hmenu]
      exact .picked hturn hmem hkind

/-- **Going through the menus of a choice.** What is below the first menu is the list in which the
choice stands in the document, and nothing if it does not stand there. The menus that are shown are
those of a tour: each offers the choices of one list by their names and in their order, there is a
way back exactly if there is something below, and the way back leads to the list that the menu was
entered from, however the user goes to and fro. This is so after any number of selections. If
selections come to an end, so does the run, in one of three ways (`Choice.MenuEnds`); what runs the
choice that is picked is not called before. -/
theorem perform_multi (hs : host.Selects) {p : Placed} {h : ChoiceHead} {choices : List Choice}
    {isCollapsed : Bool} (hp : p.choice = .multi h choices isCollapsed) (s : Session σ) :
    ∃ parent, Placed.Below s.document p parent ∧
      (∀ fuel, ∃ visits t, Menu.Tour h choices parent visits ∧ Menu.Shown visits s t ∧
        ((∀ execute, MenuEnds host execute p.choice choices visits t
          ((perform host (Menu.navigate host fuel) execute p).runOn s)) ∨
        visits.length = fuel ∧ ∀ v ∈ visits, v.turn.goesOn)) ∧
      (host.Exhaustible → ∃ visits t, Menu.Tour h choices parent visits ∧
        Menu.Shown visits s t ∧ ∀ execute, MenuEnds host execute p.choice choices visits t
          ((perform host (Menu.browse host) execute p).runOn s)) := by
  refine ⟨_, Placed.below_list? s.document p, ?_, ?_⟩
  · intro fuel
    obtain ⟨visits, t, htour, hshown, hend⟩ := runOn_perform_multi hs hp s fuel
    exact ⟨visits, t, htour, hshown, hend.imp_right fun hlong => ⟨hlong.1, hlong.2.1⟩⟩
  · intro he
    obtain ⟨visits, t, htour, hshown, hend⟩ :=
      runOn_perform_multi hs hp s (host.patience s.host + 1)
    refine ⟨visits, t, htour, hshown, ?_⟩
    intro execute
    rcases hend with hended | ⟨-, -, hpatience⟩
    · have hbrowse : (perform host (Menu.browse host) execute p).runOn s =
          (perform host (Menu.navigate host (host.patience s.host + 1)) execute p).runOn s := by
        obtain ⟨c, place⟩ := p
        subst hp
        cases choices with
        | nil => rfl
        | cons first choices => rfl
      rw [hbrowse]
      exact hended execute
    · exact absurd (hpatience he) (Nat.not_succ_le_self _)

/-- In and out, with the menus that are shown. The choice is the only one of the document, so its
own list is below its menu and above it there is nothing. -/
theorem perform_multi_wandering :
    let p : Placed := ⟨Rehearsal.outer, some [0]⟩
    let head : ChoiceHead := ⟨.text "outer", .text "outer", false⟩
    let go : Choice := .template ⟨.text "go", .text "go", false⟩ []
    let choices : List Choice := [.multi ⟨.text "inner", .text "inner", false⟩ [go] false, go]
    (Rehearsal.host.Selects ∧ Rehearsal.host.Exhaustible) ∧
    p ∈ Placed.all Rehearsal.wandering.document ∧
    (∃ parent, Placed.Below Rehearsal.wandering.document p parent ∧
      parent = some Rehearsal.wandering.document.choices ∧
      ∃ visits t, Menu.Tour head choices parent visits ∧
        Menu.Shown visits Rehearsal.wandering t ∧
        ∀ execute, MenuEnds Rehearsal.host execute p.choice choices visits t
          ((perform Rehearsal.host (Menu.browse Rehearsal.host) execute p).runOn
            Rehearsal.wandering)) ∧
    ((perform Rehearsal.host (Menu.browse Rehearsal.host) (fun _ => return ()) p).runOn
      Rehearsal.wandering).2.events =
        #[.suggest [.text "inner", .text "go", .text "← Back"] (.text "outer"),
          .suggest [.text "go", .text "← Back"] (.text "inner"),
          .suggest [.text "inner", .text "go", .text "← Back"] .null,
          .suggest [.text "outer"] .null,
          .suggest [.text "inner", .text "go", .text "← Back"] (.text "outer")] := by
  intro p head go choices
  refine ⟨⟨Rehearsal.host_selects, Rehearsal.host_exhaustible⟩, .head _, ?_, ?_⟩
  · obtain ⟨parent, hbelow, -, hbrowse⟩ := perform_multi Rehearsal.host_selects
      (show p.choice = .multi head choices false from rfl) Rehearsal.wandering
    exact ⟨parent, hbelow, (hbelow.stands _).mpr ⟨[0], _, rfl, .here rfl⟩,
      hbrowse Rehearsal.host_exhaustible⟩
  · cbv

end Choice

end Choicebook
