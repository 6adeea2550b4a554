import Choicebook.Proofs.Console.Looking
import Choicebook.Proofs.Files.Breaks
import Choicebook.Proofs.Files.Directories
import Choicebook.Proofs.Files.Path
import Choicebook.Proofs.Template.Rendering
import Choicebook.Proofs.Value.Plain

/-!
# What notes do to the files

A template choice and a capture choice look around first and write one file in the end. So a run of
either touches no file at all, or it comes to its end without a line in the log and touches the file
that its target leads to, and no other (`Console.run_touches`).

Whether there is a file at the target already is looked up before the directories for it are made.
A target with a double dot behind a directory that is missing leads nowhere at that time, and to a
file that has been there all along when the text is written. So such a file is overwritten without
being asked for (`Console.runTemplate_astray`). This is the only exception.

A capture keeps the text of its file, in front of what it adds or behind it, and has at most one
newline in between (`Console.runCapture_adds`). But the text is kept as it is read, with newlines as
its only line breaks, and so files with carriage returns are rewritten.
-/

namespace Choicebook

/-! ### Writing -/

/-- Between two states no file has been made, changed or removed. -/
def Session.Spared (s t : Session Console) : Prop :=
  ∀ l, t.host.tree.fileAt? l = s.host.tree.fileAt? l

/-- Between two states the directories of a path have been made, a text has been put where the path
leads then, and nothing was logged. -/
structure Session.Written (target : Files.Path) (l : Files.Location) (text : String)
    (s t : Session Console) : Prop where
  tree : ∃ tree, s.host.tree.withDirectory target.parent = .ok tree ∧
    (tree.find target).location? = some l ∧ t.host.tree = tree.putAt l (.text text)
  log : t.log = s.log

namespace Session

variable {s t u : Session Console} {target : Files.Path} {l : Files.Location} {text : String}

theorem Modest.spared (h : s.Modest t) : s.Spared t := fun l => by rw [h.tree]

theorem Spared.trans (h : s.Spared t) (g : t.Spared u) : s.Spared u := fun l => (g l).trans (h l)

namespace Written

theorem of_modest (h : s.Modest t) (g : Written target l text t u) : Written target l text s u :=
  ⟨by rw [← h.tree]; exact g.tree, g.log.trans h.log⟩

theorem before_modest (h : Written target l text s t) (g : t.Modest u) :
    Written target l text s u :=
  ⟨by rw [g.tree]; exact h.tree, g.log.trans h.log⟩

/-- The path leads to the text. -/
theorem find_eq (h : Written target l text s t) :
    t.host.tree.find target = .file l (.text text) := by
  obtain ⟨tree, -, hlocation, heq⟩ := h.tree
  rw [heq, Files.Tree.find_putAt hlocation]

theorem fileAt?_of_ne (h : Written target l text s t) {other : Files.Location} (hne : other ≠ l) :
    t.host.tree.fileAt? other = s.host.tree.fileAt? other := by
  obtain ⟨tree, hmade, -, heq⟩ := h.tree
  rw [heq, Files.Tree.fileAt?_putAt, if_neg hne, Files.Tree.fileAt?_of_withDirectory hmade]

/-- A file that was there already was found, unless the path led nowhere for want of a
directory. -/
theorem holds_or_missing (h : Written target l text s t)
    (hfile : (s.host.tree.fileAt? l).isSome = true) :
    s.host.tree.holds target = true ∨ s.host.tree.find target = .missing := by
  obtain ⟨tree, hmade, hlocation, -⟩ := h.tree
  rw [Files.Tree.holds]
  cases hfind : s.host.tree.find target with
  | file => exact .inl rfl
  | directory => exact .inl rfl
  | missing => exact .inr rfl
  | blocked =>
    obtain ⟨f, hf⟩ := Files.Tree.withDirectory_of_blocked hfind
    cases hmade.symm.trans hf
  | free l' =>
    -- the directory is there, so the tree is still the same
    have hfree : (s.host.tree.find target).location? = some l' := by rw [hfind]; rfl
    have hsame := Files.Tree.withDirectory_of_directory (Files.Tree.find_parent hfree)
    obtain rfl := Except.ok.inj (hmade.symm.trans hsame)
    obtain ⟨body, hbody⟩ := Option.isSome_iff_exists.mp hfile
    rw [Files.Tree.find_eq_of_location hlocation, hbody] at hfind
    cases hfind

/-- A file that was there already without being found was behind a missing directory, and behind
double dots. -/
theorem missing_of_holds (h : Written target l text s t)
    (hfile : (s.host.tree.fileAt? l).isSome = true) (hfree : s.host.tree.holds target = false) :
    s.host.tree.find target = .missing ∧ (s.host.tree.Sound → ".." ∈ target.names) := by
  have hmissing : s.host.tree.find target = .missing :=
    (h.holds_or_missing hfile).resolve_left (by rw [hfree]; exact Bool.false_ne_true)
  obtain ⟨tree, hmade, hlocation, -⟩ := h.tree
  have hstart := (Files.Tree.widened_of_withDirectory hmade).start_eq target.base
  exact ⟨hmissing, fun hsound => hsound.dots_of_missing hstart hlocation hfile hmissing⟩

end Written

end Session

/-! ### Steps that may fail -/

/-- An act that only looks around fails, or what comes next goes on from the same files. -/
theorem Act.Modest.runOn_bind_cases {α β : Type} {a : Act Console α} (h : a.Modest)
    (f : α → Act Console β) (s : Session Console) :
    (∃ e t, (a >>= f).runOn s = (.error e, t) ∧ s.Modest t) ∨
      ∃ x t, a.runOn s = (.ok x, t) ∧ s.Modest t ∧ (a >>= f).runOn s = (f x).runOn t := by
  have hmodest := h s
  cases hrun : a.runOn s with
  | mk result t =>
    rw [hrun] at hmodest
    cases result with
    | error e => exact .inl ⟨e, t, Act.runOn_bind_error hrun f, hmodest⟩
    | ok x => exact .inr ⟨x, t, rfl, hmodest, Act.runOn_bind_ok hrun f⟩

namespace Console

variable {r : Renderer} {s t : Session Console}

theorem runOn_visit (p : Files.Path) (s : Session Console) : ∃ t, s.Modest t ∧
    (visit p).runOn s = (.ok s.host.tree, t) :=
  ⟨_, modest_means.visit p s, rfl⟩

theorem runOn_holds (p : Files.Path) (s : Session Console) : ∃ t, s.Modest t ∧
    (holds p).runOn s = (.ok (s.host.tree.holds p), t) :=
  ⟨_, modest_means.holds p s, rfl⟩

theorem runOn_makeDirectory {p : Files.Path} {made : Files.Tree}
    (hmade : s.host.tree.withDirectory p.parent = .ok made) :
    ∃ t, (makeDirectory p).runOn s = (.ok (), t) ∧ t.host.tree = made ∧ t.log = s.log := by
  obtain ⟨u, hmodest, hvisit⟩ := runOn_visit p s
  rw [makeDirectory, Act.runOn_bind_ok hvisit, hmade]
  exact ⟨{ u with host := { u.host with tree := made } }, rfl, rfl, hmodest.log⟩

theorem runOn_makeDirectory_cases (p : Files.Path) (s : Session Console) :
    (∃ f t, (makeDirectory p).runOn s = (.error f, t) ∧ s.Modest t) ∨
      ∃ t, (makeDirectory p).runOn s = (.ok (), t) ∧
        s.host.tree.withDirectory p.parent = .ok t.host.tree ∧ t.log = s.log := by
  cases hmade : s.host.tree.withDirectory p.parent with
  | error f =>
    obtain ⟨u, hmodest, hvisit⟩ := runOn_visit p s
    rw [makeDirectory, Act.runOn_bind_ok hvisit, hmade]
    exact .inl ⟨f, u, rfl, hmodest⟩
  | ok made =>
    obtain ⟨t, hrun, rfl, hlog⟩ := runOn_makeDirectory hmade
    exact .inr ⟨t, hrun, rfl, hlog⟩

theorem runOn_writeText {p : Files.Path} {l : Files.Location}
    (hlocation : (s.host.tree.find p).location? = some l) (hopen : s.host.tree.IsOpen l)
    (text : String) :
    ∃ t, (writeText p text).runOn s = (.ok (), t) ∧
      t.host.tree = s.host.tree.putAt l (.text text) ∧ t.log = s.log := by
  obtain ⟨u, hmodest, hvisit⟩ := runOn_visit p s
  rw [writeText, Act.runOn_bind_ok hvisit, Files.Tree.writeText_of_isOpen hlocation hopen]
  exact ⟨{ u with host := { u.host with tree := s.host.tree.putAt l (.text text) } }, rfl, rfl,
    hmodest.log⟩

theorem runOn_writeText_cases (p : Files.Path) (text : String) (s : Session Console) :
    (∃ f t, (writeText p text).runOn s = (.error f, t) ∧ s.Modest t) ∨
      ∃ l t, (writeText p text).runOn s = (.ok (), t) ∧ (s.host.tree.find p).location? = some l ∧
        t.host.tree = s.host.tree.putAt l (.text text) ∧ t.log = s.log := by
  obtain ⟨u, hmodest, hvisit⟩ := runOn_visit p s
  cases hwrite : s.host.tree.writeText p text with
  | error f =>
    rw [writeText, Act.runOn_bind_ok hvisit, hwrite]
    exact .inl ⟨f, u, rfl, hmodest⟩
  | ok tree =>
    obtain ⟨l, hlocation, rfl⟩ := Files.Tree.writeText_eq_ok hwrite
    refine .inr ⟨l, { u with host := { u.host with tree := s.host.tree.putAt l (.text text) } },
      ?_, hlocation, rfl, hmodest.log⟩
    rw [writeText, Act.runOn_bind_ok hvisit, hwrite]
    rfl

/-- With the directories made, a text is written where the path leads, or nothing happens. -/
theorem runOn_writeText_made {u v : Session Console} {target : Files.Path}
    (hmade : s.host.tree.withDirectory target.parent = .ok u.host.tree) (hlog : u.log = s.log)
    (hmodest : u.Modest v) (text : String) :
    (∃ f t, (writeText target text).runOn v = (.error f, t) ∧ s.Spared t) ∨
      ∃ l t, (writeText target text).runOn v = (.ok (), t) ∧ s.Written target l text t := by
  have hspared : s.Spared v := fun l => by
    rw [hmodest.tree, Files.Tree.fileAt?_of_withDirectory hmade]
  rcases runOn_writeText_cases target text v with
    ⟨f, t, hrun, ht⟩ | ⟨l, t, hrun, hlocation, htree, ht⟩
  · exact .inl ⟨f, t, hrun, hspared.trans ht.spared⟩
  · rw [hmodest.tree] at hlocation htree
    exact .inr ⟨l, t, hrun, ⟨_, hmade, hlocation, htree⟩, ht.trans (hmodest.log.trans hlog)⟩

theorem runOn_openPath (path : String) (s : Session Console) :
    ∃ t, (openPath path).runOn s = (.ok (), t) ∧ s.Modest t :=
  ⟨_, rfl, modest_means.openPath path s⟩

/-! ### Templates -/

/-- The ending of the names of notes. -/
private theorem ends_ofText {text : String} (h : Text.endsWith text ".md" = true) :
    Text.endsWith (Files.Path.ofText text).name ".md" = true :=
  Files.Path.ends_ofText (by decide) (by decide) h

theorem ends_of_newFileName {payload : Entries} {name : String}
    (h : (newFileName r payload).runOn s = (.ok name, t)) : Text.endsWith name ".md" = true := by
  rcases (modest_means.givenName payload).runOn_bind_cases _ s with
    ⟨e, u, hrun, -⟩ | ⟨given, u, -, -, hrest⟩
  · cases hrun.symm.trans h
  · obtain rfl := Except.ok.inj (Prod.mk.inj (hrest.symm.trans h)).1
    split
    · assumption
    · rw [Text.endsWith_iff, String.toList_append]
      exact List.suffix_append _ _

/-- The path is the home directory of a user whose name has the ending of notes. -/
def IsHome (tree : Files.Tree) (p : Files.Path) : Prop :=
  ∃ user home, tree.homes.lookup user = some home ∧ Text.endsWith user ".md" = true ∧
    p = ⟨.root, home⟩

theorem runOn_atHome (p : Files.Path) (s : Session Console) :
    (atHome p).runOn s = (.ok (match p.homeOf? with
      | none => some p
      | some user => (s.host.tree.homes.lookup user).map fun home => ⟨.root, home ++ p.names.tail⟩),
      s) := by
  rw [atHome]
  cases p.homeOf? <;> rfl

theorem ends_of_resolve {text : String} (htext : Text.endsWith text ".md" = true)
    {p : Files.Path} (h : (resolve text).runOn s = (.ok p, t)) :
    Text.endsWith p.name ".md" = true ∨ IsHome s.host.tree p := by
  have hends := ends_ofText htext
  rw [resolve, Act.runOn_bind_ok (runOn_atHome _ s)] at h
  cases huser : (Files.Path.ofText text).homeOf? with
  | none =>
    rw [huser] at h
    cases h
    exact .inl (Files.Path.ends_join (by decide) hends)
  | some user =>
    rw [huser] at h
    cases hhome : s.host.tree.homes.lookup user with
    | none =>
      dsimp only at h
      rw [hhome] at h
      cases h
    | some home =>
      dsimp only at h
      rw [hhome] at h
      cases h
      refine (Files.Path.ends_of_homeOf? (by decide) (by decide) huser hends).imp_right ?_
      rintro ⟨hnames, hname⟩
      refine ⟨user, home, hhome, hname, ?_⟩
      simp only [hnames, List.append_nil]
      rfl

/-- The name of a new file has the ending of notes. -/
theorem ends_of_newFilePath {payload : Entries} {target : Files.Path}
    (h : (newFilePath r payload).runOn s = (.ok target, t)) :
    Text.endsWith target.name ".md" = true ∨ IsHome s.host.tree target := by
  rcases (modest_means.newFileName payload).runOn_bind_cases _ s with
    ⟨e, u, hrun, -⟩ | ⟨name, u, hname, hmodest, hrest⟩
  · cases hrun.symm.trans h
  · have hends := ends_of_newFileName hname
    rw [newFilePath, hrest] at h
    rw [← hmodest.tree]
    cases hfolder : folderOf? payload with
    | error f =>
      rw [hfolder] at h
      cases h
    | ok folder =>
      rw [hfolder] at h
      cases folder with
      | none => exact ends_of_resolve hends h
      | some folder =>
        refine ends_of_resolve (Files.Path.ends_text (by decide) ?_) h
        exact Files.Path.ends_join (by decide) (ends_ofText hends)

/-- Writes a new file and opens it, if that is wanted. -/
private theorem create_cases (target : Files.Path) (body : String) (isOpened : Bool)
    (s : Session Console) :
    let run := (do
      makeDirectory target
      writeText target body
      if isOpened then openPath target.text : Act Console Unit).runOn s
    s.Spared run.2 ∨ run.1 = .ok () ∧ ∃ l text, s.Written target l text run.2 := by
  intro run
  rcases runOn_makeDirectory_cases target s with ⟨f, t, hdir, ht⟩ | ⟨u, hdir, hmade, hlog⟩
  · have hrun : run = (.error f, t) := Act.runOn_bind_error hdir _
    rw [hrun]
    exact .inl ht.spared
  · rcases runOn_writeText_made hmade hlog (.refl u) body with
      ⟨f, t, hwrite, ht⟩ | ⟨l, t, hwrite, ht⟩
    · have hrun : run = (.error f, t) :=
        (Act.runOn_bind_ok hdir _).trans (Act.runOn_bind_error hwrite _)
      rw [hrun]
      exact .inl ht
    · have hrun : run = (if isOpened then openPath target.text else pure ()).runOn t :=
        (Act.runOn_bind_ok hdir _).trans (Act.runOn_bind_ok hwrite _)
      rw [hrun]
      right
      cases isOpened with
      | false => exact ⟨rfl, l, body, ht⟩
      | true =>
        obtain ⟨v, hopen, hv⟩ := runOn_openPath target.text t
        rw [if_pos rfl, hopen]
        exact ⟨rfl, l, body, ht.before_modest hv⟩

/-- A template choice touches no file, or it writes its target. It does so only if it may overwrite
files or has found none. -/
theorem createFrom_cases (source target : Files.Path) (owner : String) (payload : Entries)
    (s : Session Console) :
    let run := (createFrom r source target owner payload).runOn s
    s.Spared run.2 ∨ run.1 = .ok () ∧ (∃ l text, s.Written target l text run.2) ∧
      (payload.field? "fileExistsMode" = some (.text "Overwrite the file") ∨
        s.host.tree.holds target = false) := by
  intro run
  have hrun : run = (createFrom r source target owner payload).runOn s := rfl
  obtain ⟨s₁, hs₁, hholds⟩ := runOn_holds target s
  rw [createFrom, Act.runOn_bind_ok hholds] at hrun
  split at hrun
  · -- the file is left alone
    rw [hrun]
    exact .inl hs₁.spared
  · next hguard =>
    -- nothing is written before the template is read and rendered
    rcases (modest_means.readText source).runOn_bind_cases _ s₁ with
      ⟨e, s₂, hrest, hs₂⟩ | ⟨template, s₂, -, hs₂, hrest⟩
    · rw [hrun, hrest]
      exact .inl (hs₁.trans hs₂).spared
    · rw [hrest] at hrun
      rcases (modest_means.renderShared template _).runOn_bind_cases _ s₂ with
        ⟨e, s₃, hrest, hs₃⟩ | ⟨body, s₃, -, hs₃, hrest⟩
      · rw [hrun, hrest]
        exact .inl ((hs₁.trans hs₂).trans hs₃).spared
      · rw [hrun, hrest]
        have hmodest := (hs₁.trans hs₂).trans hs₃
        rcases create_cases target body ((payload.field? "openFile").getD .null).isTruthy s₃ with
          hspared | ⟨hok, l, text, hwritten⟩
        · exact .inl (hmodest.spared.trans hspared)
        · refine .inr ⟨hok, ⟨l, text, hwritten.of_modest hmodest⟩, ?_⟩
          cases hfound : s.host.tree.holds target with
          | false => exact .inr rfl
          | true =>
            rw [hfound, Bool.true_and, Bool.not_eq_true, Bool.not_eq_false'] at hguard
            have hmode := Value.same_text_iff.mp hguard
            cases hfield : payload.field? "fileExistsMode" with
            | none =>
              rw [hfield] at hmode
              cases hmode
            | some mode =>
              rw [hfield] at hmode
              exact .inl (congrArg some hmode)

/-- Without a template nothing happens to the files, and with one nothing has happened yet. -/
theorem runOn_templateOf?_cases (owner : String) (payload : Entries) (s : Session Console) :
    (∃ e t, (templateOf? owner payload).runOn s = (.error e, t) ∧ s.Spared t) ∨
      (∃ t, (templateOf? owner payload).runOn s = (.ok none, t) ∧ s.Spared t) ∨
      ∃ source t, (templateOf? owner payload).runOn s = (.ok (some source), t) ∧ s.Modest t := by
  rw [templateOf?]
  split
  · exact .inr (.inl ⟨_, rfl, fun _ => rfl⟩)
  · split
    · next path _ =>
      rcases (modest_means.resolve path).runOn_bind_cases _ s with
        ⟨e, t, hrun, ht⟩ | ⟨source, t, -, ht, hrest⟩
      · exact .inl ⟨e, t, hrun, ht.spared⟩
      · rw [hrest]
        rcases (modest_means.isFile source).runOn_bind_cases _ t with
          ⟨e, u, hrun, hu⟩ | ⟨found, u, -, hu, hrest⟩
        · exact .inl ⟨e, u, hrun, (ht.trans hu).spared⟩
        · rw [hrest]
          cases found with
          | true => exact .inr (.inr ⟨source, u, rfl, ht.trans hu⟩)
          | false => exact .inr (.inl ⟨_, rfl, (ht.trans hu).spared⟩)
    · exact .inl ⟨_, s, rfl, fun _ => rfl⟩

/-! ### Captures -/

theorem runOn_captureTarget?_cases (owner : String) (payload : Entries) (s : Session Console) :
    (∃ e t, (captureTarget? r owner payload).runOn s = (.error e, t) ∧ s.Spared t) ∨
      (∃ t, (captureTarget? r owner payload).runOn s = (.ok none, t) ∧ s.Spared t ∧
        ((payload.field? "captureTo").getD .null).isTruthy = false) ∨
      ∃ target t, (captureTarget? r owner payload).runOn s = (.ok (some target), t) ∧ s.Modest t := by
  rw [captureTarget?]
  split
  · next hplace =>
    exact .inr (.inl ⟨_, rfl, fun _ => rfl, (Bool.not_eq_true' _).mp hplace⟩)
  · generalize ((payload.field? "captureTo").getD .null).written = place
    obtain e | place := place
    · exact .inl ⟨e, s, rfl, fun _ => rfl⟩
    have hplace : (Act.lift (.ok place) : Act Console String) = pure place := rfl
    rw [hplace, pure_bind]
    rcases (modest_means.renderShared place []).runOn_bind_cases _ s with
      ⟨e, t, hrun, ht⟩ | ⟨path, t, -, ht, hrest⟩
    · exact .inl ⟨e, t, hrun, ht.spared⟩
    · rw [hrest]
      rcases (modest_means.resolve path).runOn_bind_cases _ t with
        ⟨e, u, hrun, hu⟩ | ⟨target, u, -, hu, hrest⟩
      · exact .inl ⟨e, u, hrun, (ht.trans hu).spared⟩
      · rw [hrest]
        exact .inr (.inr ⟨target, u, rfl, ht.trans hu⟩)

/-- A text is what is read of the file at a location: nothing, if there is no file. -/
def ReadAt (tree : Files.Tree) (l : Files.Location) (existing : String) : Prop :=
  match tree.fileAt? l with
  | none => existing = ""
  | some body => ∃ old, body.stored? = some old ∧
      existing.toList = Files.Tree.normalBreaks old

theorem readAt_of_textOf {target : Files.Path} {l : Files.Location} {existing : String}
    (hlocation : (s.host.tree.find target).location? = some l)
    (h : (textOf target).runOn s = (.ok existing, t)) : ReadAt s.host.tree l existing := by
  obtain ⟨u, hu, hholds⟩ := runOn_holds target s
  have hfind := Files.Tree.find_eq_of_location hlocation
  rw [textOf, Act.runOn_bind_ok hholds, Files.Tree.holds] at h
  rw [ReadAt]
  cases hfile : s.host.tree.fileAt? l with
  | none =>
    rw [hfile] at hfind
    rw [hfind] at h
    cases h
    rfl
  | some body =>
    rw [hfile] at hfind
    rw [hfind] at h
    obtain ⟨v, -, hvisit⟩ := runOn_visit target u
    rw [if_pos rfl, readText, Act.runOn_bind_ok hvisit, hu.tree] at h
    exact Files.Tree.readText_eq_ok hfind (Prod.mk.inj h).1

/-- Adding a text to a file fails and touches no file, or it writes the target. -/
theorem addTo_cases (target : Files.Path) (toFront : Bool) (text : String) (s : Session Console) :
    let run := (addTo target toFront text).runOn s
    (∃ f, run.1 = .error f) ∧ s.Spared run.2 ∨ run.1 = .ok () ∧ ∃ l existing,
      s.Written target l (added toFront existing text) run.2 ∧
        ReadAt s.host.tree l existing := by
  intro run
  have hrun : run = (addTo target toFront text).runOn s := rfl
  rw [addTo] at hrun
  rcases runOn_makeDirectory_cases target s with ⟨f, t, hdir, ht⟩ | ⟨u, hdir, hmade, hlog⟩
  · rw [hrun, Act.runOn_bind_error hdir]
    exact .inl ⟨⟨f, rfl⟩, ht.spared⟩
  · have hspared : s.Spared u := Files.Tree.fileAt?_of_withDirectory hmade
    rw [Act.runOn_bind_ok hdir] at hrun
    rcases (modest_means.textOf target).runOn_bind_cases _ u with
      ⟨f, v, hrest, hv⟩ | ⟨existing, v, hread, hv, hrest⟩
    · rw [hrun, hrest]
      exact .inl ⟨⟨f, rfl⟩, hspared.trans hv.spared⟩
    · rw [hrest] at hrun
      rcases runOn_writeText_made hmade hlog hv (added toFront existing text) with
        ⟨f, t, hwrite, ht⟩ | ⟨l, t, hwrite, ht⟩
      · rw [hrun, hwrite]
        exact .inl ⟨⟨f, rfl⟩, ht⟩
      · rw [hrun, hwrite]
        obtain ⟨tree, htree, hlocation, -⟩ := ht.tree
        obtain rfl := Except.ok.inj (hmade.symm.trans htree)
        have hreadAt := readAt_of_textOf hlocation hread
        rw [ReadAt, hspared l] at hreadAt
        exact .inr ⟨rfl, l, existing, ht, hreadAt⟩

/-! ### Both sorts of notes -/

/-- The target of a template choice, which it looks up when it has found its template. -/
def templateTarget? (r : Renderer) (owner : String) (payload : Entries) : Act Console (Option Files.Path) := do
  match ← templateOf? owner payload with
  | none => return none
  | some _ => return some (← newFilePath r payload)

/-- A run has come to its end without a line in the log, and of all files it has touched at most the
one that its target leads to. -/
structure Touches (target? : Act Console (Option Files.Path)) (s : Session Console)
    (run : Except Fault Unit × Session Console) (target : Files.Path) (l : Files.Location) :
    Prop where
  completed : run.1 = .ok ()
  quiet : run.2.log = s.log
  leads : (target?.runOn s).1 = .ok (some target)
  found : ∃ text, run.2.host.tree.find target = .file l (.text text)
  others : ∀ other, other ≠ l → run.2.host.tree.fileAt? other = s.host.tree.fileAt? other

theorem touches_of_written {target? : Act Console (Option Files.Path)}
    {run : Except Fault Unit × Session Console} {target : Files.Path} {l : Files.Location}
    {text : String} (hok : run.1 = .ok ()) (htarget : (target?.runOn s).1 = .ok (some target))
    (h : s.Written target l text run.2) : Touches target? s run target l :=
  ⟨hok, h.log, htarget, ⟨text, h.find_eq⟩, fun _ => h.fileAt?_of_ne⟩

/-- A template choice touches no file, or the one of its target. -/
theorem runTemplate_cases (head : ChoiceHead) (payload : Entries) (s : Session Console) :
    let run := (runTemplate r head payload).runOn s
    s.Spared run.2 ∨ ∃ target l,
      Touches (templateTarget? r head.name.display payload) s run target l ∧
        (Text.endsWith target.name ".md" = true ∨ IsHome s.host.tree target) ∧
        ((s.host.tree.fileAt? l).isSome = true →
          payload.field? "fileExistsMode" = some (.text "Overwrite the file") ∨
            s.host.tree.find target = .missing ∧
              (s.host.tree.Sound → ".." ∈ target.names)) := by
  intro run
  have hrun : run = (runTemplate r head payload).runOn s := rfl
  rw [runTemplate] at hrun
  rcases runOn_templateOf?_cases head.name.display payload s with
    ⟨e, t, hsource, ht⟩ | ⟨t, hsource, ht⟩ | ⟨source, t, hsource, ht⟩
  · rw [hrun, Act.runOn_bind_error hsource]
    exact .inl ht
  · rw [hrun, Act.runOn_bind_ok hsource]
    exact .inl ht
  · rw [Act.runOn_bind_ok hsource] at hrun
    rcases (modest_means.newFilePath payload).runOn_bind_cases _ t with
      ⟨e, u, hrest, hu⟩ | ⟨target, u, hpath, hu, hrest⟩
    · rw [hrun, hrest]
      exact .inl (ht.trans hu).spared
    · rw [hrun, hrest]
      have hmodest := ht.trans hu
      rcases createFrom_cases source target head.name.display payload u with
        hspared | ⟨hok, ⟨l, text, hwritten⟩, hallowed⟩
      · exact .inl (hmodest.spared.trans hspared)
      · have hs := hwritten.of_modest hmodest
        have htarget : ((templateTarget? r head.name.display payload).runOn s).1 =
            .ok (some target) := by
          rw [templateTarget?, Act.runOn_bind_ok hsource, Act.runOn_bind_ok hpath]
          rfl
        rw [hmodest.tree] at hallowed
        have hends := ends_of_newFilePath hpath
        rw [ht.tree] at hends
        exact .inr ⟨target, l, touches_of_written hok htarget hs, hends,
          fun hfile => hallowed.imp_right (hs.missing_of_holds hfile)⟩

/-- A capture choice touches no file, or the one of its target. -/
theorem runCapture_cases (head : ChoiceHead) (payload : Entries) (s : Session Console) :
    let run := (runCapture r head payload).runOn s
    s.Spared run.2 ∨ ∃ target l,
      Touches (captureTarget? r head.name.display payload) s run target l := by
  intro run
  have hrun : run = (runCapture r head payload).runOn s := rfl
  rw [runCapture] at hrun
  rcases runOn_captureTarget?_cases head.name.display payload s with
    ⟨e, t, htarget, ht⟩ | ⟨t, htarget, ht, -⟩ | ⟨target, t, htarget, ht⟩
  · rw [hrun, Act.runOn_bind_error htarget]
    exact .inl ht
  · rw [hrun, Act.runOn_bind_ok htarget]
    exact .inl ht
  · rw [Act.runOn_bind_ok htarget] at hrun
    rcases (modest_means.capturedText head payload).runOn_bind_cases _ t with
      ⟨e, u, hrest, hu⟩ | ⟨text, u, -, hu, hrest⟩
    · rw [hrun, hrest]
      exact .inl (ht.trans hu).spared
    · rw [hrun, hrest]
      have hmodest := ht.trans hu
      rcases addTo_cases target ((payload.field? "prepend").getD .null).isTruthy text u with
        ⟨-, hspared⟩ | ⟨hok, l, existing, hwritten, -⟩
      · exact .inl (hmodest.spared.trans hspared)
      · have htarget' : ((captureTarget? r head.name.display payload).runOn s).1 =
            .ok (some target) := by rw [htarget]
        exact .inr ⟨target, l, touches_of_written hok htarget' (hwritten.of_modest hmodest)⟩

/-- **A note touches one file, or none.** A run of a template choice or of a capture choice leaves
all files as they are, which it does whenever it fails or logs something, or it touches the one that
its target leads to. The name of a new file has the ending of notes, unless the target is the home
directory of a user whose name has it. If the file was there already, the choice may overwrite
files, or a directory was missing on a way with double dots. -/
theorem run_touches (r : Renderer) (head : ChoiceHead) (payload : Entries) (s : Session Console) :
    let template := (runTemplate r head payload).runOn s
    let capture := (runCapture r head payload).runOn s
    (s.Spared template.2 ∨ ∃ target l,
      Touches (templateTarget? r head.name.display payload) s template target l ∧
        (Text.endsWith target.name ".md" = true ∨ IsHome s.host.tree target) ∧
        ((s.host.tree.fileAt? l).isSome = true →
          payload.field? "fileExistsMode" = some (.text "Overwrite the file") ∨
            s.host.tree.find target = .missing ∧
              (s.host.tree.Sound → ".." ∈ target.names))) ∧
    (s.Spared capture.2 ∨ ∃ target l,
      Touches (captureTarget? r head.name.display payload) s capture target l) :=
  ⟨runTemplate_cases head payload s, runCapture_cases head payload s⟩

/-- A folder that is not there, and back out of it: the file that has been there all along is
overwritten, although nothing says that it may be. -/
theorem runTemplate_astray :
    let payload : Entries := [(.text "templatePath", .text "letter.txt"),
      (.text "folder", .text "new/.."), (.text "fileNameFormat", .text "note")]
    let tree := ((Files.Tree.empty ["work"] []).plant ["work", "letter.txt"] (.text "fresh")).plant
      ["work", "note.md"] (.text "kept")
    let s : Session Console :=
      .start .preset .empty .start (start ⟨2024, 2, 29⟩ .here tree [] false)
    let run := (runTemplate .standard ⟨.text "letter", .text "letter", false⟩ payload).runOn s
    s.host.tree.Sound ∧ (payload.field? "fileExistsMode").isNone = true ∧
      (s.host.tree.fileAt? ["work", "note.md"]).bind Files.Body.stored? = some "kept".toList ∧
      (run.2.host.tree.fileAt? ["work", "note.md"]).bind Files.Body.stored? =
        some "fresh".toList :=
  ⟨((Files.Tree.sound_empty _ _).plant _ _).plant _ _, by decide +kernel⟩

/-! ### What a capture adds -/

/-- What is between two parts of a file, one of which is old: a newline, unless the old part is
empty or the first part ends with one. -/
def joint (old first : List Char) : List Char :=
  if old = [] ∨ first.getLast? = some '\n' then [] else ['\n']

/-- Adding a text to an old one gives a new one: the old one with newlines as line breaks, and the
text behind it or in front of it. -/
structure Adds (toFront : Bool) (old text new : List Char) : Prop where
  content : new =
    if toFront then text ++ joint old text ++ Files.Tree.normalBreaks old
    else Files.Tree.normalBreaks old ++ joint old (Files.Tree.normalBreaks old) ++ text
  keeps_iff : (if toFront then old <:+ new else old <+: new) ↔ '\r' ∉ old

theorem endsWith_newline_iff {text : String} :
    Text.endsWith text "\n" = true ↔ text.toList.getLast? = some '\n' := by
  rw [Text.endsWith_iff, List.getLast?_eq_some_iff]
  exact exists_congr fun _ => eq_comm

private theorem toList_added {toFront : Bool} {existing text : String} {old : List Char}
    (h : existing.toList = Files.Tree.normalBreaks old) :
    (added toFront existing text).toList =
      if toFront then text.toList ++ joint old text.toList ++ Files.Tree.normalBreaks old
      else
        Files.Tree.normalBreaks old ++ joint old (Files.Tree.normalBreaks old) ++ text.toList := by
  have hempty : existing = "" ↔ old = [] := by
    rw [← String.toList_eq_nil_iff, h, Files.Tree.normalBreaks_eq_nil_iff]
  cases toFront with
  | true =>
    simp only [added, joint, Bool.not_true, Bool.false_eq_true, if_false, if_true,
      Bool.or_eq_true, decide_eq_true_eq, hempty, endsWith_newline_iff]
    split <;> simp [h]
  | false =>
    simp only [added, onNewLine, joint, Bool.not_false, Bool.false_eq_true, if_false, if_true,
      Bool.or_eq_true, decide_eq_true_eq, hempty, endsWith_newline_iff, h]
    split <;> simp [h]

private theorem getLast?_joint {old first : List Char} (hne : old ≠ []) :
    (first ++ joint old first).getLast? = some '\n' := by
  by_cases hfirst : first.getLast? = some '\n'
  · rw [joint, if_pos (.inr hfirst), List.append_nil, hfirst]
  · rw [joint, if_neg (not_or.mpr ⟨hne, hfirst⟩), List.getLast?_concat]

theorem adds_added (toFront : Bool) {existing : String} {old : List Char} (text : String)
    (h : existing.toList = Files.Tree.normalBreaks old) :
    Adds toFront old text.toList (added toFront existing text).toList := by
  refine ⟨toList_added h, ?_⟩
  rw [toList_added h]
  cases toFront with
  | false =>
    rw [if_neg Bool.false_ne_true, if_neg Bool.false_ne_true, List.append_assoc]
    exact Files.Tree.prefix_normalBreaks_iff
  | true =>
    rw [if_pos rfl, if_pos rfl]
    by_cases hne : old = []
    · subst hne
      exact iff_of_true List.nil_suffix List.not_mem_nil
    · exact Files.Tree.suffix_normalBreaks_iff (getLast?_joint hne)

private theorem added_empty (toFront : Bool) (text : String) : added toFront "" text = text := by
  cases toFront <;> simp [added, onNewLine]

/-- **A capture keeps what it reads.** A capture that completes with a text puts it into the file
that its target leads to. If there was none, it is all that is in the file. Otherwise the old text
is kept, in front of what is added or behind it, except that its line breaks become newlines: it is
kept as it was stored if and only if there was no carriage return in it. -/
theorem runCapture_adds (r : Renderer) (head : ChoiceHead) (payload : Entries) (s : Session Console)
    (hplace : ((payload.field? "captureTo").getD .null).isTruthy = true)
    (h : ((runCapture r head payload).runOn s).1 = .ok ()) :
    ∃ target u text v l new,
      (captureTarget? r head.name.display payload).runOn s = (.ok (some target), u) ∧
      (capturedText r head payload).runOn u = (.ok text, v) ∧
      ((runCapture r head payload).runOn s).2.host.tree.find target = .file l (.text new) ∧
      match s.host.tree.fileAt? l with
      | none => new = text
      | some body => ∃ old, body.stored? = some old ∧
          Adds ((payload.field? "prepend").getD .null).isTruthy old text.toList new.toList := by
  rcases runOn_captureTarget?_cases head.name.display payload s with
    ⟨e, t, htarget, -⟩ | ⟨t, -, -, hnone⟩ | ⟨target, u, htarget, hu⟩
  · rw [runCapture, Act.runOn_bind_error htarget] at h
    cases h
  · exact absurd hplace (by rw [hnone]; exact Bool.false_ne_true)
  · rcases (modest_means.capturedText head payload).runOn_bind_cases
        (addTo target ((payload.field? "prepend").getD .null).isTruthy) u with
      ⟨e, v, hrest, -⟩ | ⟨text, v, htext, hv, hrest⟩
    · rw [runCapture, Act.runOn_bind_ok htarget, hrest] at h
      cases h
    · have hrun : (runCapture r head payload).runOn s =
          (addTo target ((payload.field? "prepend").getD .null).isTruthy text).runOn v := by
        rw [runCapture, Act.runOn_bind_ok htarget, hrest]
      rw [hrun] at h ⊢
      rcases addTo_cases target ((payload.field? "prepend").getD .null).isTruthy text v with
        ⟨⟨f, hf⟩, -⟩ | ⟨-, l, existing, hwritten, hread⟩
      · cases hf.symm.trans h
      · refine ⟨target, u, text, v, l, _, htarget, htext, hwritten.find_eq, ?_⟩
        rw [ReadAt, (hu.trans hv).tree] at hread
        cases hfile : s.host.tree.fileAt? l with
        | none =>
          rw [hfile] at hread
          subst hread
          exact added_empty _ text
        | some body =>
          rw [hfile] at hread
          obtain ⟨old, hstored, hexisting⟩ := hread
          exact ⟨old, hstored, adds_added _ text hexisting⟩

/-- A session with two lines in a file of which the first one ends with a carriage return as well,
and a third line to come. -/
def threeLines : Session Console :=
  let tree := (Files.Tree.empty ["work"] []).plant ["work", "log.md"] (.text "one\r\ntwo")
  .start .preset .empty .start (start ⟨2024, 2, 29⟩ .here tree [some "three"] false)

private theorem eq_ok_of_isOk {r : Except Fault Unit} (h : r.isOk = true) : r = .ok () := by
  cases r with
  | ok x => rfl
  | error e => cases h

theorem runCapture_adds_threeLines :
    let head : ChoiceHead := ⟨.text "log", .text "log", false⟩
    let payload : Entries := [(.text "captureTo", .text "log.md")]
    let run := (runCapture .standard head payload).runOn threeLines
    run.1 = .ok () ∧ ∃ target u text v l new,
      (captureTarget? .standard "log" payload).runOn threeLines = (.ok (some target), u) ∧
      (capturedText .standard head payload).runOn u = (.ok text, v) ∧
      run.2.host.tree.find target = .file l (.text new) ∧
      match threeLines.host.tree.fileAt? l with
      | none => new = text
      | some body => ∃ old, body.stored? = some old ∧
          Adds ((payload.field? "prepend").getD .null).isTruthy old text.toList new.toList := by
  intro head payload run
  have hok : run.1 = .ok () := eq_ok_of_isOk (by decide +kernel)
  exact ⟨hok, runCapture_adds .standard head payload threeLines (by decide +kernel) hok⟩

/-- The first line of the file is not as it was any more. -/
theorem runCapture_rewrites :
    let payload : Entries := [(.text "captureTo", .text "log.md")]
    let run := (runCapture .standard ⟨.text "log", .text "log", false⟩ payload).runOn threeLines
    let old := (threeLines.host.tree.fileAt? ["work", "log.md"]).bind Files.Body.stored?
    let new := (run.2.host.tree.fileAt? ["work", "log.md"]).bind Files.Body.stored?
    run.1.isOk = true ∧ old = some "one\r\ntwo".toList ∧ new = some "one\ntwo\nthree".toList := by
  decide +kernel

end Console

end Choicebook
