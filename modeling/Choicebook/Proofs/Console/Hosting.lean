import Choicebook.Proofs.Console.Means
import Choicebook.Proofs.Console.Selecting
import Choicebook.Proofs.Session.Route
import Choicebook.Proofs.Session.Solitude

/-!
# What a console leaves alone

Like a rehearsal, a console can be relied on in every respect but one: a selection can fail, namely
by digits that are no number. Whatever it does for a session, and whatever renders its templates, it
leaves the session as it is but for the events and its own state (`Console.host_discreet` and those
after it). It always comes back, and it looks at nothing that was recorded before.

An answered selection takes a line, so the lines to come bound how many of them there can be.
-/

namespace Choicebook.Console

variable {r : Renderer} {skipsPauses : Bool}

/-! ### The state of the session -/

/-- Two states that are the same in everything that a console leaves alone, apart from the trail;
scripts have one while they run. -/
structure Undisturbed (s t : Session Console) : Prop where
  config : t.config = s.config
  shared : t.shared = s.shared
  frame : t.frame = s.frame
  pending : t.pending = s.pending
  depth : t.depth = s.depth
  running : t.running = s.running
  pauses : t.pauses = s.pauses
  lines : t.host.lines.length ≤ s.host.lines.length

namespace Undisturbed

variable {s t u : Session Console}

theorem refl (s : Session Console) : Undisturbed s s :=
  ⟨rfl, rfl, rfl, rfl, rfl, rfl, rfl, le_refl _⟩

theorem trans (h : Undisturbed s t) (g : Undisturbed t u) : Undisturbed s u :=
  ⟨g.config.trans h.config, g.shared.trans h.shared, g.frame.trans h.frame,
    g.pending.trans h.pending, g.depth.trans h.depth, g.running.trans h.running,
    g.pauses.trans h.pauses, g.lines.trans h.lines⟩

theorem note (s : Session Console) {e : Event} (h : e.isPause = false) :
    Undisturbed s (s.note e) := by
  refine ⟨rfl, rfl, rfl, rfl, rfl, rfl, ?_, le_refl _⟩
  rw [Session.pauses_note, List.filter_singleton, h]
  exact List.append_nil _

/-- The host may change as it likes, apart from its lines. -/
theorem change (s : Session Console) {f : Console → Console} (h : ∀ c, (f c).lines = c.lines) :
    Undisturbed s { s with host := f s.host } :=
  ⟨rfl, rfl, rfl, rfl, rfl, rfl, rfl, le_of_eq (congrArg List.length (h s.host))⟩

theorem taken {line : Option String} {rest : List (Option String)}
    (h : s.host.lines = line :: rest) :
    Undisturbed s { s with host := { s.host with lines := rest } } := by
  refine ⟨rfl, rfl, rfl, rfl, rfl, rfl, rfl, ?_⟩
  rw [h]
  exact Nat.le_succ _

end Undisturbed

/-- The act leaves the session alone, apart from the trail. -/
def Undisturbing {α : Type} (a : Act Console α) : Prop := ∀ s, Undisturbed s (a.runOn s).2

theorem undisturbing_bare : Act.Bare (σ := Console) fun {α} => Undisturbing (α := α) :=
  .of_relation .refl .trans (fun _ _ => ⟨rfl, rfl, rfl, rfl, rfl, rfl, rfl, le_refl _⟩)
    fun s _ _ h => .note s h

theorem Undisturbing.aside {α : Type} {a : Act Console α} (ha : Undisturbing a) :
    Undisturbing (Act.aside a) := fun s =>
  ⟨(ha s).config, (ha s).shared, (ha s).frame, (ha s).pending, (ha s).depth, (ha s).running,
    (ha s).pauses, (ha s).lines⟩

theorem undisturbing_law : Law fun {α} => Undisturbing (α := α) where
  toMeans := .of_relation .refl .trans (fun s _ _ h => .note s h) (fun s _ _ h => .change s h)
    .taken (bare_callInTemplate (L := fun {α} => Undisturbing (α := α)) undisturbing_bare
      (fun _ => .refl) .aside)
  log _ h := fun s => .note s h
  setTree tree := fun s => .change (f := fun c => { c with tree := tree }) s fun _ => rfl
  script := bare_script undisturbing_bare .aside

/-- The trail of a script is put aside. -/
theorem trail_law : Law fun {α} (a : Act Console α) => ∀ s, (a.runOn s).2.trail = s.trail where
  toMeans := .of_relation (R := fun s t => t.trail = s.trail) (fun _ => rfl)
    (fun h g => g.trans h) (fun _ _ _ _ => rfl) (fun _ _ _ _ => rfl) (fun _ => rfl)
    fun _ _ _ => rfl
  log _ _ := fun _ => rfl
  setTree _ := fun _ => rfl
  script _ := fun _ => rfl

theorem undisturbed_of_offers {α : Type} {a : Act Console α} (h : (host r skipsPauses).Offers a)
    (s : Session Console) : Undisturbed s (a.runOn s).2 :=
  undisturbing_law.offers h s

theorem host_discreet : (host r skipsPauses).Discreet where
  pending h s := (undisturbed_of_offers h s).pending
  depth h s := (undisturbed_of_offers h s).depth
  trail := trail_law.offers

theorem host_tidy : (host r skipsPauses).Tidy where
  trail := trail_law.offers
  frame h s hd := (undisturbed_of_offers h s).frame ▸ hd

theorem host_neat : (host r skipsPauses).Neat where
  frame := host_tidy.frame
  shared h s hd := (undisturbed_of_offers h s).shared ▸ hd

theorem host_aloof : (host r skipsPauses).Aloof where
  config h s := (undisturbed_of_offers h s).config
  depth h s := (undisturbed_of_offers h s).depth
  running h s := (undisturbed_of_offers h s).running
  trail := trail_law.offers

/-- Templates and captures do not change shared variables, either. -/
theorem host_reserved : (host r skipsPauses).Reserved fun _ => True where
  toDiscreet := host_discreet
  shared h s := (undisturbed_of_offers h.offers s).shared
  keeps _ _ _ := trivial

theorem host_detached : (host r skipsPauses).Detached where
  toDiscreet := host_discreet
  frame h s := (undisturbed_of_offers h.offers s).frame
  shared := host_reserved.shared
  pauses h s := (undisturbed_of_offers h.offers s).pauses

/-! ### The lines -/

/-- An answer that selects something has taken a line. -/
theorem lines_lt_of_askUntilChosen {labels : List Value} {count fuel i : Nat}
    {s t : Session Console}
    (h : (askUntilChosen labels count fuel).runOn s = (.ok (some i), t)) :
    t.host.lines.length < s.host.lines.length := by
  cases fuel with
  | zero => cases h
  | succ fuel =>
    obtain ⟨u, hread, hlines, -, -⟩ := runOn_readLine "> " s
    have hrest := undisturbing_law.onAnswer labels count
      (undisturbing_law.askUntilChosen labels count fuel) (s.host.lines.headD none) u
    rw [askUntilChosen, Act.runOn_bind_ok hread] at h
    rw [h] at hrest
    cases hs : s.host.lines with
    | nil =>
      -- the end of the input gives up
      rw [hs] at h
      cases h
    | cons line rest =>
      have hle := hrest.lines
      rw [hlines, hs] at hle
      exact Nat.lt_succ_of_le hle

theorem host_exhaustible : (host r skipsPauses).Exhaustible where
  answered labels count placeholder s i t h := by
    obtain ⟨_, u, hshown, hasked⟩ := Act.exists_of_runOn_bind h
    have hle := (undisturbing_law.showItems labels placeholder s).lines
    rw [hshown] at hle
    exact lt_of_lt_of_le (lines_lt_of_askUntilChosen hasked) hle
  patience h s := (undisturbed_of_offers h s).lines

/-! ### Coming to an end -/

/-- The act comes to an end. -/
def Ends {α : Type} (a : Act Console α) : Prop := ∀ s, (a.runOn s).1 ≠ .error .endless

private theorem ends_bare : Act.Bare (σ := Console) fun {α} => Ends (α := α) where
  pure _ := by rintro _ ⟨⟩
  bind := Act.bind_ne_endless
  read _ hf := fun s => hf s s
  fail hf := fun _ h => hf (Except.error.inj h)
  note _ _ := by rintro _ ⟨⟩
  rescue {α a carryOn} ha hc s := by
    have hrun := ha s
    rw [Act.runOn_rescue]
    generalize a.runOn s = run at hrun ⊢
    obtain ⟨f | x, t⟩ := run
    · rw [Act.proceed_error]
      split
      · exact hrun
      · exact hc f _
    · rintro ⟨⟩

private theorem ends_law : Law fun {α} => Ends (α := α) where
  pure _ := by rintro _ ⟨⟩
  bind := Act.bind_ne_endless
  read _ hf := fun s => hf s s
  throw hf := fun _ h => hf (Except.error.inj h)
  note _ _ := by rintro _ ⟨⟩
  change _ _ := by rintro _ ⟨⟩
  nextLine := by
    intro s
    rw [nextLine, Act.runOn_get_bind]
    split <;> rintro ⟨⟩
  callInTemplate := bare_callInTemplate ends_bare (fun hf _ h => hf (Except.error.inj h)) id
  log _ _ := by rintro _ ⟨⟩
  setTree := by rintro _ _ ⟨⟩
  script := bare_script ends_bare id

theorem host_prompt : (host r skipsPauses).Prompt := ends_law.offers

/-! ### The records -/

private theorem oblivious_bare : Act.Bare fun {α} (a : Act Console α) => a.Oblivious where
  pure := .pure
  bind := .bind
  read := .read
  fail _ := .bind (.modify fun _ _ => rfl) fun _ => .throw _
  note _ _ := .note _
  rescue := .rescue

private theorem oblivious_law : Law fun {α} (a : Act Console α) => a.Oblivious where
  pure := .pure
  bind := .bind
  read := .read
  throw _ := .throw _
  note _ _ := .note _
  change _ _ := .modify fun _ _ => rfl
  nextLine := by
    refine .read (fun s t h => by rw [h.host]) fun s => ?_
    split
    · exact .bind (.modify fun _ _ => rfl) fun _ => .pure _
    · exact .bind (.modify fun _ _ => rfl) fun _ => .pure _
  callInTemplate := bare_callInTemplate oblivious_bare (fun _ => .throw _) .aside
  log _ _ := .note _
  setTree _ := .modify fun _ _ => rfl
  script := bare_script oblivious_bare .aside

theorem host_oblivious : (host r skipsPauses).Oblivious := oblivious_law.offers

end Choicebook.Console
