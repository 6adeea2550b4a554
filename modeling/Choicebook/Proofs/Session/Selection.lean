import Choicebook.Proofs.Session.Members
import Choicebook.Proofs.Value.Offered

/-!
# Selecting and indexing

An export that is an object is taken apart by the user: the names of its members are offered, the
one that is selected is dispatched in turn, and so on down to something that is not an object. A
list of names can also be followed at once (`Value.follow`). The two come to the same value, and
from there on to the same result and the same effects (`Dispatcher.run_selected`).

What it takes for that is said of the path alone (`Value.Selectable`): which names are offered, and
where settings would call an entry instead of asking. That each name leads to a member is not
assumed. It follows from being offered.

The two runs do not begin in the same state of the host, since one of them has been given the names
as answers. So the dispatch of the value at the end is compared through its records, which come
after those of before in either run (`Session.following`).
-/

namespace Choicebook

/-! ### Paths -/

namespace Value

/-- The names of a path can be selected one after the other. Each value before the end is an object
that offers its name, with texts as keys if it is a mapping, and without an entry if there are
settings for one; at the end there is something. -/
inductive Selectable (settings : Bool) : Value → List String → Prop where
  | here {v : Value} (hv : v.isNull = false) : Selectable settings v []
  | member {v : Value} {key : String} {path : List String} (hv : v.isContainer = true)
    (hentry : settings = true → v.hasEntry = false)
    (htexts : ∀ es : Entries, v = .map es → es.Texts) (hkey : key ∈ v.memberNames)
    (hrest : ∀ u, v.member? key = .ok (some u) → Selectable settings u path) :
    Selectable settings v (key :: path)

/-- What the user is asked along a path: at each value before the end, which member it is. -/
def questions : Value → List String → List Event
  | _, [] => []
  | v, key :: path =>
    .suggest (v.memberNames.map .text) .null ::
      match v.member? key with
      | .ok (some u) => u.questions path
      | _ => []

theorem questions_cons {v u : Value} {key : String} (h : v.member? key = .ok (some u))
    (path : List String) :
    v.questions (key :: path) = .suggest (v.memberNames.map .text) .null :: u.questions path := by
  rw [questions, h]

/-- There is one question for each name. -/
theorem Selectable.length_questions {settings : Bool} {v : Value} {path : List String}
    (h : v.Selectable settings path) : (v.questions path).length = path.length := by
  induction h with
  | here => rfl
  | member _ _ htexts hkey _ ih =>
    obtain ⟨u, hu⟩ := exists_member?_of_mem_memberNames htexts hkey
    rw [questions_cons hu, List.length_cons, List.length_cons, ih u hu]

end Value

variable {σ : Type}

/-- The selector of a host answers the names of a path, one after the other, wherever it is asked
for a member. -/
inductive Host.Picks (host : Host σ) : Value → List String → σ → σ → Prop where
  | done {v : Value} {h : σ} : Picks host v [] h h
  | member {v : Value} {key : String} {path : List String} {i : Nat} {h h' h'' : σ}
    (hkey : v.memberNames[i]? = some key)
    (hanswer : (host.suggest (v.memberNames.map .text) v.memberNames.length .null).Gives (some i)
      h h')
    (hrest : ∀ u, v.member? key = .ok (some u) → Picks host u path h' h'') :
    Picks host v (key :: path) h h''

namespace Dispatcher

variable {d : Dispatcher σ}

/-- Something has only been selected if all names could be offered. -/
theorem offeredNames_of_runOn_select {v : Value} {s t : Session σ} {m : v.Smaller}
    (h : (d.select v).runOn s = (.ok m, t)) : v.offeredNames = .ok v.memberNames := by
  rw [select] at h
  cases hnames : v.offeredNames with
  | error f =>
    rw [hnames] at h
    cases h
  | ok names => rw [Value.eq_of_offeredNames hnames]

/-- What has been selected is the member with one of the names that were offered. -/
theorem of_runOn_select {v : Value} {s t : Session σ} {m : v.Smaller}
    (h : (d.select v).runOn s = (.ok m, t)) :
    ∃ i key, (Act.ask (.suggest (v.memberNames.map .text) .null)
        (d.host.suggest (v.memberNames.map .text) v.memberNames.length .null)).runOn s =
        (.ok (some i), t) ∧
      v.memberNames[i]? = some key ∧ v.member? key = .ok (some m.1) := by
  have hnames := offeredNames_of_runOn_select h
  rw [select, hnames, Act.expect, pure_bind] at h
  split at h
  · cases h
  · obtain ⟨chosen, u, hask, hrest⟩ := Act.exists_of_runOn_bind h
    split at hrest
    · cases hrest
    · next key hkey =>
      obtain ⟨i, rfl, hi⟩ := Option.bind_eq_some_iff.mp hkey
      obtain ⟨found, w, hfound, hgiven⟩ := Act.exists_of_runOn_bind hrest
      cases hm : v.smallerMember? key with
      | error f =>
        rw [hm] at hfound
        cases hfound
      | ok found =>
        rw [hm] at hfound
        cases hfound
        cases found with
        | none => cases hgiven
        | some m' =>
          cases hgiven
          exact ⟨i, key, hask, hi, Value.memberOf?_of_smaller hm⟩

/-- The question for a member is the one moment that a selection adds. -/
theorem trail_of_runOn_select (hd : d.host.Discreet) {v : Value} {s t : Session σ} {m : v.Smaller}
    (h : (d.select v).runOn s = (.ok m, t)) :
    t.trail = s.moment (.asked (.suggest (v.memberNames.map .text) .null)) :: s.trail := by
  obtain ⟨i, key, hask, -, -⟩ := of_runOn_select h
  have htrail := hd.trail (.suggest (v.memberNames.map .text) v.memberNames.length .null)
    (s.remember (.asked (.suggest (v.memberNames.map .text) .null)))
  rwa [Act.runOn_of_runOn_ask hask] at htrail

/-- An object is selected from unless there are settings for its entry. -/
theorem run_eq_select_bind {v : Value} (hv : v.isContainer = true)
    (hentry : d.settings.isSome = true → v.hasEntry = false) :
    d.run v = d.select v >>= fun m => d.run m.1 := by
  cases hsettings : d.settings with
  | none => exact run_of_isContainer hsettings hv
  | some settings =>
    rw [run, Value.shape_of_isContainer hv, hentry (by rw [hsettings]; rfl)]
    rfl

/-- The names are selected, and then what they lead to is dispatched. -/
theorem runOn_picks (hd : d.host.Discreet) {v : Value} {path : List String}
    (hv : v.Selectable d.settings.isSome path) {h h' : σ} (hpicks : d.host.Picks v path h h')
    {s : Session σ} (hs : s.host = h) :
    ∃ w asked new, v.Names path w ∧ w.isNull = false ∧ s.Moved h' asked ∧
      asked.trail = new ++ s.trail ∧
      new.reverse.map Moment.mark = (v.questions path).map .asked ∧
      (d.run v).runOn s = (d.run w).runOn asked := by
  induction hv generalizing h s with
  | @here v hv =>
    cases hpicks
    exact ⟨v, s, [], .nil, hv, hs ▸ .refl s, rfl, rfl, rfl⟩
  | @member v key path hv hentry htexts hoffered _ ih =>
    obtain _ | ⟨hkey, hanswer, hrest⟩ := hpicks
    obtain ⟨u, hu⟩ := Value.exists_member?_of_mem_memberNames htexts hoffered
    obtain ⟨t, hsmaller, ht, hselect⟩ :=
      runOn_select (Value.offeredNames_of_texts htexts) hkey hu hanswer hs
    obtain ⟨w, asked, new, hnames, hw, hasked, htrail, hmarks, hrun⟩ :=
      ih u hu (hrest u hu) ht.host
    refine ⟨w, asked, new ++ [s.moment (.asked (.suggest (v.memberNames.map .text) .null))],
      .cons hu hnames, hw, ht.trans hasked, ?_, ?_, ?_⟩
    · rw [htrail, trail_of_runOn_select hd hselect, List.append_assoc, List.singleton_append]
    · rw [List.reverse_append, List.map_append, hmarks, Value.questions_cons hu]
      rfl
    · rw [run_eq_select_bind hv hentry, Act.runOn_bind_ok hselect, hrun]

/-- **Selecting a member is indexing, and then dispatching.** Let a path be selectable in an export,
with or without settings, and let the selector answer its names. Then the names lead to a value, and
the dispatch of the export asks one question for each name, about all members of the value reached
so far, and does for the rest what the dispatch of the value at the end does, with the answers that
are left: it ends with the same result or fault, and in a state that differs only by what has been
recorded before. -/
theorem run_selected (ho : d.host.Oblivious) (hd : d.host.Discreet)
    (hexec : ∀ p, (d.execute p).Oblivious) {v : Value} {path : List String}
    (hv : v.Selectable d.settings.isSome path) {h h' : σ} (hpicks : d.host.Picks v path h h')
    {s : Session σ} (hs : s.host = h) :
    ∃ w, (∀ owner, v.follow owner path = .ok w) ∧
      (v.questions path).length = path.length ∧
      ∃ asked new, s.Moved h' asked ∧ asked.trail = new ++ s.trail ∧
        new.reverse.map Moment.mark = (v.questions path).map .asked ∧
      ∃ x, ∃ u : Session σ,
        (d.run w).runOn { s with host := h' } = (x, u.following { s with host := h' }) ∧
        (d.run v).runOn s = (x, u.following asked) := by
  obtain ⟨w, asked, new, hnames, hw, hasked, htrail, hmarks, hrun⟩ := runOn_picks hd hv hpicks hs
  have hfollow : ∀ owner, v.follow owner path = .ok w := fun owner =>
    Value.follow_eq_ok_iff.mpr ⟨hnames, fun hnull => by rw [hnull] at hw; cases hw⟩
  have hoblivious : (d.run w).Oblivious := by
    have c : Comparison d.host d.execute d.execute fun {α} (a _ : Act σ α) => a.Oblivious :=
      (Act.Oblivious.uniform ho).comparison hexec
    exact c.dispatch d.inSession d.owner d.settings w
  refine ⟨w, hfollow, hv.length_questions, asked, new, hasked, htrail, hmarks, ?_⟩
  -- both dispatches are this one, after different records
  let blank : Session σ := { s with host := h', events := #[], trail := [] }
  have hblank : ∀ t, s.Moved h' t →
      (d.run w).runOn t = (((d.run w).runOn blank).1, ((d.run w).runOn blank).2.following t) := by
    rintro _ ⟨events, trail, rfl⟩
    rw [← hoblivious blank]
    simp [blank, Session.following]
  refine ⟨_, _, hblank _ ⟨s.events, s.trail, rfl⟩, ?_⟩
  rw [hrun, hblank asked hasked]

end Dispatcher

/-! ### A tool that takes settings -/

namespace Rehearsal

private theorem member?_tools (tool : Value) :
    (tools tool).member? "tools" = .ok (some (.object [("tool", tool)])) := by
  cbv

/-- The names of the members lead to the tool, whether or not there are settings. -/
theorem selectable_tool (settings : Bool) {tool : Value} (h : tool.isCallable = true) :
    (tools tool).Selectable settings ["tools", "tool"] := by
  have htools : (tools tool).memberNames = ["tools"] := by cbv
  have hobject : (Value.object [("tool", tool)]).memberNames = ["tool"] := by cbv
  have hnull : tool.isNull = false := Value.isNull_of_leaf (.inr h)
  refine .member rfl (fun _ => by cbv) ?_ (htools ▸ List.mem_singleton_self _) fun u hu => ?_
  · rintro es ⟨⟩
    exact List.forall_mem_singleton.mpr ⟨"tools", rfl⟩
  · cases (member?_tools tool).symm.trans hu
    refine .member rfl (fun _ => by cbv) ?_ (hobject ▸ List.mem_singleton_self _) fun u hu => ?_
    · rintro es ⟨⟩
    · cases hu
      exact .here hnull

/-- The user selects the tool, and has more answers after that. -/
theorem picks_tool (tool : Value) (rest : List Value) :
    host.Picks (tools tool) ["tools", "tool"]
      (withTools tool (.text "tools" :: .text "tool" :: rest)) (withTools tool rest) := by
  refine .member (i := 0) (by cbv) (gives_suggest rfl (by cbv)) fun u hu => ?_
  cases (member?_tools tool).symm.trans hu
  refine .member (i := 0) (by cbv) (gives_suggest rfl (by cbv)) fun u hu => ?_
  exact .done

end Rehearsal

namespace Dispatcher

/-- A tool that takes the settings and lets the user pick in turn. -/
theorem run_selected_tool :
    let tool : Value := .function "tool" .two
      [.pick [.text "red", .text "blue"] [.int 1, .int 2] none "colour", .finish (.setting "size")]
    let d : Dispatcher Rehearsal := ⟨Rehearsal.host, Choice.execute Rehearsal.host, true,
      .text "kit", some [(.text "size", .int 3)]⟩
    let s := Rehearsal.beforeTools tool [.text "tools", .text "tool", .text "blue"]
    let selected := (d.run (Rehearsal.tools tool)).runOn s
    let direct := (d.run tool).runOn { s with host := Rehearsal.withTools tool [.text "blue"] }
    selected.1 = direct.1 ∧ selected.2.frame = direct.2.frame ∧
      direct.1 = .ok (some (.int 3)) ∧ direct.2.frame = [(.text "colour", .int 2)] := by
  intro tool d s selected direct
  obtain ⟨w, hfollow, -, asked, new, -, -, -, x, u, hdirect, hselected⟩ :=
    run_selected (d := d) (s := s) Rehearsal.host_oblivious Rehearsal.host_discreet
      (Choice.execute_oblivious Rehearsal.host_oblivious) (Rehearsal.selectable_tool true rfl)
      (Rehearsal.picks_tool tool [.text "blue"]) rfl
  obtain rfl : tool = w := by
    have htool : (Rehearsal.tools tool).follow "kit" ["tools", "tool"] = .ok tool := by cbv
    exact Except.ok.inj (htool.symm.trans (hfollow "kit"))
  have hresult : direct.1 = .ok (some (.int 3)) := by
    dsimp only [direct, d, s, tool]
    cbv
  have hframe : direct.2.frame = [(.text "colour", .int 2)] := by
    dsimp only [direct, d, s, tool]
    cbv
  refine ⟨?_, ?_, hresult, hframe⟩
  · exact (congrArg Prod.fst hselected).trans (congrArg Prod.fst hdirect).symm
  · have hsame : selected.2.frame = u.frame := congrArg (fun run => run.2.frame) hselected
    exact hsame.trans (congrArg (fun run => run.2.frame) hdirect).symm

end Dispatcher

end Choicebook
