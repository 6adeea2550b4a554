import Choicebook.Proofs.Session.Host
import Choicebook.Session.Rehearsal

/-!
# What rehearsals leave alone

A rehearsal is a host that can be relied on in every respect (`Rehearsal.host_discreet` and those
after it). What it offers is put together from few means, so a property of acts that these have, and
that composition keeps, is a property of everything that it offers (`Rehearsal.Law.offers`).
-/

namespace Choicebook

namespace Rehearsal

/-- A property of acts that the means of a rehearsal have that do not concern the shared variables,
and that composition keeps. A rehearsal does not pause. -/
structure Means (L : ∀ {α : Type}, Act Rehearsal α → Prop) : Prop where
  pure : ∀ {α : Type} (x : α), L (pure x : Act Rehearsal α)
  bind : ∀ {α β : Type} {a : Act Rehearsal α} {f : α → Act Rehearsal β}, L a → (∀ x, L (f x)) →
    L (a >>= f)
  read : ∀ {β : Type} {f : Session Rehearsal → Act Rehearsal β},
    (∀ s t, s.host = t.host → f s = f t) → (∀ s, L (f s)) → L (get >>= f)
  throw : ∀ {α : Type} {f : Fault}, f ≠ .endless → L (throw f : Act Rehearsal α)
  note : ∀ e : Event, e.isPause = false → L (Act.note e : Act Rehearsal Unit)
  nextAnswer : L nextAnswer

/-- The same for all means of a rehearsal. -/
structure Law (L : ∀ {α : Type}, Act Rehearsal α → Prop) : Prop extends Means L where
  noteShared : ∀ event : Entries → Event,
    L (do Act.note (event (← get).shared) : Act Rehearsal Unit)
  updateShared : ∀ extra : Entries, L (Act.updateShared extra : Act Rehearsal Unit)

variable {L : ∀ {α : Type}, Act Rehearsal α → Prop}

/-- Everything that a rehearsal offers, except for templates and captures, has the property. -/
theorem Means.serves (l : Means L) {α : Type} {a : Act Rehearsal α} (h : host.Serves a) : L a := by
  cases h with
  | runCommand id =>
    refine l.bind (l.note _ rfl) fun _ => l.read (fun _ _ h => by rw [h]) fun s => ?_
    dsimp only
    split
    · exact l.throw (by rintro ⟨⟩)
    · split
      · exact l.throw (by rintro ⟨⟩)
      · exact l.pure _
  | suggest => exact l.bind (l.note _ rfl) fun _ => l.bind l.nextAnswer fun _ => l.pure _
  | edit => exact l.note _ rfl
  | loadScript =>
    exact l.bind (l.note _ rfl) fun _ => l.read (fun _ _ h => by rw [h]) fun _ => l.pure _
  | prompt =>
    refine l.read (fun _ _ h => by rw [h]) fun s => ?_
    split
    · exact l.bind (l.note _ rfl) fun _ => l.bind l.nextAnswer fun _ => l.pure _
    · exact l.throw (by rintro ⟨⟩)
  | runAssistant =>
    refine l.read (fun _ _ h => by rw [h]) fun s => ?_
    split
    · exact l.bind (l.note _ rfl) fun _ => l.pure _
    · exact l.throw (by rintro ⟨⟩)
  | openFile =>
    refine l.read (fun _ _ h => by rw [h]) fun s => ?_
    split
    · exact l.note _ rfl
    · exact l.throw (by rintro ⟨⟩)
  | notify => exact l.note _ rfl

namespace Law

theorem pretend (l : Law L) (payload : Entries) : L (pretend payload) := by
  rw [Rehearsal.pretend]
  refine l.bind (l.updateShared _) fun _ => ?_
  split
  · exact l.throw nofun
  · exact l.throw nofun
  · exact l.pure _

/-- A template or a capture. -/
theorem delegate (l : Law L) (payload : Entries) (event : Entries → Event) :
    L (do Act.note (event (← get).shared); Rehearsal.pretend payload) := by
  have h := l.bind (l.noteShared event) fun _ => l.pretend payload
  rwa [bind_assoc] at h

/-- Everything that a rehearsal offers has the property. -/
theorem offers (l : Law L) {α : Type} {a : Act Rehearsal α} (h : host.Offers a) : L a := by
  cases h with
  | runTemplate c payload => exact l.delegate payload (.template c.name payload)
  | runCapture c payload => exact l.delegate payload (.capture c.name payload)
  | runCommand id => exact l.serves (.runCommand id)
  | suggest labels count placeholder => exact l.serves (.suggest labels count placeholder)
  | edit action => exact l.serves (.edit action)
  | loadScript path => exact l.serves (.loadScript path)
  | prompt header preset => exact l.serves (.prompt header preset)
  | runAssistant name payload vars => exact l.serves (.runAssistant name payload vars)
  | openFile path inNewTab direction => exact l.serves (.openFile path inNewTab direction)
  | notify text => exact l.serves (.notify text)

end Law

theorem runOn_nextAnswer_nil {s : Session Rehearsal} (h : s.host.answers = []) :
    nextAnswer.runOn s = (.ok .null, s) := by
  rw [nextAnswer, Act.runOn_get_bind, h]
  rfl

theorem runOn_nextAnswer_cons {s : Session Rehearsal} {v : Value} {rest : List Value}
    (h : s.host.answers = v :: rest) :
    nextAnswer.runOn s = (.ok v, { s with host := { s.host with answers := rest } }) := by
  rw [nextAnswer, Act.runOn_get_bind, h]
  rfl

/-! ### The state of the session -/

/-- Two states that are the same in everything that a rehearsal leaves alone. -/
structure Undisturbed (s t : Session Rehearsal) : Prop where
  config : t.config = s.config
  pending : t.pending = s.pending
  depth : t.depth = s.depth
  running : t.running = s.running
  trail : t.trail = s.trail
  frame : t.frame = s.frame
  answers : t.host.answers.length ≤ s.host.answers.length

theorem Undisturbed.refl (s : Session Rehearsal) : Undisturbed s s :=
  ⟨rfl, rfl, rfl, rfl, rfl, rfl, le_refl _⟩

theorem Undisturbed.trans {s t u : Session Rehearsal} (h : Undisturbed s t)
    (g : Undisturbed t u) : Undisturbed s u :=
  ⟨g.config.trans h.config, g.pending.trans h.pending, g.depth.trans h.depth,
    g.running.trans h.running, g.trail.trans h.trail, g.frame.trans h.frame,
    g.answers.trans h.answers⟩

private theorem undisturbed_law :
    Law fun {α} (a : Act Rehearsal α) => ∀ s, Undisturbed s (a.runOn s).2 where
  pure _ := Undisturbed.refl
  bind ha hf := fun s =>
    Act.runOn_bind_keeps (P := Undisturbed s) (ha s) fun x t ht => ht.trans (hf x t)
  read _ hf := fun s => hf s s
  throw _ := Undisturbed.refl
  note _ _ := fun _ => ⟨rfl, rfl, rfl, rfl, rfl, rfl, le_refl _⟩
  noteShared _ := fun _ => ⟨rfl, rfl, rfl, rfl, rfl, rfl, le_refl _⟩
  updateShared _ := fun _ => ⟨rfl, rfl, rfl, rfl, rfl, rfl, le_refl _⟩
  nextAnswer := by
    intro s
    cases h : s.host.answers with
    | nil =>
      rw [runOn_nextAnswer_nil h]
      exact .refl s
    | cons v rest =>
      rw [runOn_nextAnswer_cons h]
      exact ⟨rfl, rfl, rfl, rfl, rfl, rfl, by rw [h]; exact Nat.le_succ _⟩

/-- Nothing that a rehearsal does concerns the session. -/
theorem undisturbed_of_offers {α : Type} {a : Act Rehearsal α} (h : host.Offers a)
    (s : Session Rehearsal) : Undisturbed s (a.runOn s).2 :=
  undisturbed_law.offers h s

theorem host_discreet : host.Discreet where
  pending h s := (undisturbed_of_offers h s).pending
  depth h s := (undisturbed_of_offers h s).depth
  trail h s := (undisturbed_of_offers h s).trail

theorem host_tidy : host.Tidy where
  trail h s := (undisturbed_of_offers h s).trail
  frame h s hd := (undisturbed_of_offers h s).frame ▸ hd

private theorem shared_law : Law fun {α} (a : Act Rehearsal α) =>
    ∀ s, s.shared.Distinct → (a.runOn s).2.shared.Distinct where
  pure _ := fun _ h => h
  bind ha hf := fun s hs => Act.runOn_bind_keeps (ha s hs) hf
  read _ hf := fun s => hf s s
  throw _ := fun _ h => h
  note _ _ := fun _ h => h
  noteShared _ := fun _ h => h
  updateShared extra := fun _ h => h.update extra
  nextAnswer := by
    intro s h
    cases ha : s.host.answers with
    | nil => rwa [runOn_nextAnswer_nil ha]
    | cons v rest => rwa [runOn_nextAnswer_cons ha]

theorem host_neat : host.Neat where
  frame := host_tidy.frame
  shared := shared_law.offers

theorem host_aloof : host.Aloof where
  config h s := (undisturbed_of_offers h s).config
  depth h s := (undisturbed_of_offers h s).depth
  running h s := (undisturbed_of_offers h s).running
  trail h s := (undisturbed_of_offers h s).trail

/-! ### The answers -/

variable {labels : List Value} {count : Nat} {placeholder : Value} {s : Session Rehearsal}

/-- Without answers left nothing is selected. -/
theorem runOn_suggest_nil (h : s.host.answers = []) :
    (host.suggest labels count placeholder).runOn s =
      (.ok none, s.note (.suggest labels placeholder)) := by
  change (suggest labels count placeholder).runOn s = _
  have hnext := runOn_nextAnswer_nil (s := s.note (.suggest labels placeholder)) h
  rw [suggest, Act.runOn_bind_ok (Act.runOn_note _ s), Act.runOn_bind_ok hnext]
  rfl

theorem runOn_suggest_cons {v : Value} {rest : List Value} (h : s.host.answers = v :: rest) :
    (host.suggest labels count placeholder).runOn s = (.ok (selected labels count v),
      { s.note (.suggest labels placeholder) with host := { s.host with answers := rest } }) := by
  change (suggest labels count placeholder).runOn s = _
  have hnext := runOn_nextAnswer_cons (s := s.note (.suggest labels placeholder)) h
  rw [suggest, Act.runOn_bind_ok (Act.runOn_note _ s), Act.runOn_bind_ok hnext]
  rfl

theorem host_steady : host.Steady where
  suggest labels count placeholder s := by
    cases h : s.host.answers with
    | nil => exact ⟨_, _, runOn_suggest_nil h⟩
    | cons v rest => exact ⟨_, _, runOn_suggest_cons h⟩
  notify text s := ⟨_, rfl⟩

theorem host_exhaustible : host.Exhaustible where
  answered labels count placeholder s i t hrun := by
    cases h : s.host.answers with
    | nil => cases (runOn_suggest_nil h).symm.trans hrun
    | cons v rest =>
      obtain ⟨-, rfl⟩ := Prod.mk.inj ((runOn_suggest_cons h).symm.trans hrun)
      change rest.length < s.host.answers.length
      rw [h]
      exact Nat.lt_succ_self _
  patience h s := (undisturbed_of_offers h s).answers

private theorem prompt_law :
    Law fun {α} (a : Act Rehearsal α) => ∀ s, (a.runOn s).1 ≠ .error .endless where
  pure _ := nofun
  bind := Act.bind_ne_endless
  read _ hf := fun s => hf s s
  throw hf := fun _ h => hf (Except.error.inj h)
  note _ _ := nofun
  noteShared _ := nofun
  updateShared _ := nofun
  nextAnswer := by
    intro s
    cases h : s.host.answers with
    | nil => rw [runOn_nextAnswer_nil h]; nofun
    | cons v rest => rw [runOn_nextAnswer_cons h]; nofun

theorem host_prompt : host.Prompt := prompt_law.offers

/-! ### The records -/

private theorem oblivious_law : Law fun {α} (a : Act Rehearsal α) => a.Oblivious where
  pure := .pure
  bind := Act.Oblivious.bind
  read h := .read fun _ _ hst => h _ _ hst.host
  throw _ := .throw _
  note e _ := .note e
  noteShared _ := .read (fun _ _ h => by rw [h.shared]) fun _ => .note _
  updateShared _ := .modify fun _ _ => rfl
  nextAnswer := by
    refine .read (fun _ _ h => by rw [h.host]) fun s => ?_
    split
    · exact .pure _
    · exact .bind (.modify fun _ _ => rfl) fun _ => .pure _

theorem host_oblivious : host.Oblivious := oblivious_law.offers

/-! ### A rehearsal to look at -/

/-- A macro that first runs a macro whose only command is `stop`, and then the command `next`. -/
def interrupted : Placed :=
  let head (name : String) : CommandHead := ⟨.text name, .text name⟩
  let inner : Choice := .ofMacro ⟨.text "inner", .text "inner", false⟩
    (some (.mk (.text "inner") (.text "inner") [.host (head "stop") "stop"] false))
  let outer : Choice := .ofMacro ⟨.text "outer", .text "outer", false⟩
    (some (.mk (.text "outer") (.text "outer")
      [.nested (head "inner") (some inner), .host (head "next") "next"] false))
  ⟨outer, none⟩

/-- A session that has just begun, with a host that cancels the command `stop`. -/
def fresh : Session Rehearsal :=
  .start .preset .empty .start ⟨[], [], [], [("stop", some "enough")], false, none, false⟩

end Rehearsal

end Choicebook
