import Choicebook.Proofs.Files.Tree

/-!
# Making directories

Before a file is written, the directories on the way to it are made (`Tree.withDirectory`). This
leaves the files alone, and no directory is made where there is a file, or in a directory in which
nothing may be made (`Tree.Widened`). If it does not fail, the path leads to a directory
(`Tree.find_of_withDirectory`).

A path *reaches* a location if it leads there once the directories on the way have been made
(`Tree.Reaches`). In a tree with more directories, and a file at this location, the path still
reaches it (`Tree.Reaches.grown`): a directory that was missing is one that can be made, unless a
file stands in its place, and the only new file is where the path ends.
-/

namespace Choicebook.Files.Tree

variable {t u made : Tree} {l d : Location} {p : Path} {current : Location} {names : List String}

/-! ### Where directories are made -/

/-- Directories have been made at places without a file, and nothing else has happened. -/
structure Widened (t made : Tree) : Prop where
  files : made.files = t.files
  working : made.working = t.working
  locked : made.locked = t.locked
  kept : ∀ d, t.hasDirectory d = true → made.hasDirectory d = true
  free : ∀ d, made.hasDirectory d = true → t.hasDirectory d = true ∨
    t.fileAt? d = none ∧ t.locked.contains d.dropLast = false

namespace Widened

theorem refl (t : Tree) : Widened t t := ⟨rfl, rfl, rfl, fun _ h => h, fun _ h => .inl h⟩

theorem fileAt?_eq (h : Widened t made) (l : Location) : made.fileAt? l = t.fileAt? l := by
  rw [fileAt?, fileAt?, h.files]

theorem start_eq (h : Widened t made) (b : Base) : made.start b = t.start b := by
  rw [start.eq_def, start.eq_def, h.working]

theorem trans (h : Widened t u) (g : Widened u made) : Widened t made where
  files := g.files.trans h.files
  working := g.working.trans h.working
  locked := g.locked.trans h.locked
  kept d hd := g.kept d (h.kept d hd)
  free d hd := by
    rcases g.free d hd with hu | hfree
    · exact h.free d hu
    · rw [h.fileAt?_eq, h.locked] at hfree
      exact .inr hfree

theorem hasDirectory_eq_false (h : Widened t made) (hl : made.hasDirectory l = false) :
    t.hasDirectory l = false := by
  rw [← Bool.not_eq_true] at hl ⊢
  exact fun hd => hl (h.kept l hd)

end Widened

/-- A tree with one more directory. -/
def withOne (t : Tree) (l : Location) : Tree :=
  { t with directories := t.directories ++ [l] }

theorem start_withOne (t : Tree) (l : Location) (b : Base) :
    (t.withOne l).start b = t.start b := by
  cases b <;> rfl

theorem hasDirectory_withOne : (t.withOne l).hasDirectory d = true ↔
    t.hasDirectory d = true ∨ d = l := by
  simp only [withOne, hasDirectory, Bool.or_eq_true, List.contains_iff_mem, List.mem_append,
    List.mem_singleton, or_assoc]

/-- Nothing is at a place that is found free. -/
theorem fileAt?_of_free (h : t.find p = .free l) : t.fileAt? l = none := by
  have hlocation : (t.find p).location? = some l := by rw [h]; rfl
  have hfind := find_eq_of_location hlocation
  cases hfile : t.fileAt? l with
  | none => rfl
  | some body =>
    rw [h, hfile] at hfind
    cases hfind

theorem widened_withOne (h : t.find p = .free l) (hopen : t.locked.contains l.dropLast = false) :
    Widened t (t.withOne l) where
  files := rfl
  working := rfl
  locked := rfl
  kept d hd := hasDirectory_withOne.mpr (.inl hd)
  free d hd := by
    rcases hasDirectory_withOne.mp hd with hold | rfl
    · exact .inl hold
    · exact .inr ⟨fileAt?_of_free h, hopen⟩

/-- Names that lead to a location lead to a directory once there is one. -/
theorem Leads.follow_withOne (h : t.Leads current names l) :
    (t.withOne l).follow current names = .directory := by
  induction h with
  | here hn _ => rw [follow_into hn (hasDirectory_withOne.mpr (.inr rfl)), follow]
  | into hn h _ ih => rw [follow_into hn (hasDirectory_withOne.mpr (.inl h)), ih]
  | back _ ih => rw [follow_back, ih]

theorem find_withOne (h : t.find p = .free l) : (t.withOne l).find p = .directory := by
  have hlocation : (t.find p).location? = some l := by rw [h]; rfl
  rw [find, start_withOne]
  exact (leads_of_find hlocation).follow_withOne

/-- A directory is made where that is not forbidden. -/
theorem makeAt_eq_ok (h : t.makeAt l = .ok made) :
    t.locked.contains l.dropLast = false ∧ made = t.withOne l := by
  rw [makeAt] at h
  split at h
  · cases h
  · next hopen => exact ⟨Bool.eq_false_iff.mpr hopen, (Except.ok.inj h).symm⟩

theorem makeAt_of_open (h : t.locked.contains l.dropLast = false) :
    t.makeAt l = .ok (t.withOne l) := by
  rw [makeAt, h]
  rfl

/-- What it takes to make the directory at the end of a path: it is there, or it is made in a
directory that is there, or its own directory is made first. -/
theorem makeDirectories_cases {count : Nat} (h : t.makeDirectories (count + 1) p = .ok made) :
    t.find p = .directory ∧ made = t ∨
      (∃ l, t.find p = .free l ∧ t.locked.contains l.dropLast = false ∧ made = t.withOne l) ∨
      t.find p = .missing ∧ ∃ u, t.makeDirectories count p.parent = .ok u ∧
        (u.find p = .directory ∧ made = u ∨
          ∃ l, u.find p = .free l ∧ u.locked.contains l.dropLast = false ∧
            made = u.withOne l) := by
  rw [makeDirectories] at h
  split at h
  · next hfind => exact .inl ⟨hfind, (Except.ok.inj h).symm⟩
  · cases h
  · cases h
  · next l hfind => exact .inr (.inl ⟨l, hfind, makeAt_eq_ok h⟩)
  · next hfind =>
    cases hparent : t.makeDirectories count p.parent with
    | error f =>
      rw [hparent] at h
      cases h
    | ok u =>
      rw [hparent] at h
      dsimp only [bind, Except.bind] at h
      refine .inr (.inr ⟨hfind, u, rfl, ?_⟩)
      split at h
      · next l hfree => exact .inr ⟨l, hfree, makeAt_eq_ok h⟩
      · next hdir => exact .inl ⟨hdir, (Except.ok.inj h).symm⟩
      · cases h

private theorem widened_of_makeDirectories {count : Nat}
    (h : t.makeDirectories count p = .ok made) : Widened t made := by
  induction count generalizing p made with
  | zero =>
    cases h
    exact .refl t
  | succ count ih =>
    rcases makeDirectories_cases h with
      ⟨-, rfl⟩ | ⟨l, hfree, hopen, rfl⟩ | ⟨-, u, hu, ⟨-, rfl⟩ | ⟨l, hfree, hopen, rfl⟩⟩
    · exact .refl _
    · exact widened_withOne hfree hopen
    · exact ih hu
    · exact (ih hu).trans (widened_withOne hfree hopen)

theorem widened_of_withDirectory (h : t.withDirectory p = .ok made) : Widened t made :=
  widened_of_makeDirectories h

/-- Making directories leaves the files alone. -/
theorem fileAt?_of_withDirectory (h : t.withDirectory p = .ok made) (l : Location) :
    made.fileAt? l = t.fileAt? l :=
  (widened_of_withDirectory h).fileAt?_eq l

/-- A path without names leads to a directory. -/
private theorem find_of_names (h : p.names = []) (t : Tree) : t.find p = .directory := by
  rw [find, h]
  rfl

/-- The directory that has been made is there. -/
theorem find_of_withDirectory (h : t.withDirectory p = .ok made) : made.find p = .directory := by
  rw [withDirectory] at h
  cases hcount : p.names.length with
  | zero => exact find_of_names (List.length_eq_zero_iff.mp hcount) made
  | succ count =>
    rw [hcount] at h
    rcases makeDirectories_cases h with
      ⟨hdir, rfl⟩ | ⟨l, hfree, -, rfl⟩ | ⟨-, u, -, ⟨hdir, rfl⟩ | ⟨l, hfree, -, rfl⟩⟩
    · exact hdir
    · exact find_withOne hfree
    · exact hdir
    · exact find_withOne hfree

/-- A directory that is there is not made. -/
theorem withDirectory_of_directory (h : t.find p = .directory) : t.withDirectory p = .ok t := by
  rw [withDirectory]
  cases p.names.length with
  | zero => rfl
  | succ count => rw [makeDirectories, h]

/-- No directory can be made behind a file. -/
theorem withDirectory_of_blocked (h : t.find p = .blocked) :
    ∃ f, t.withDirectory p.parent = .error f := by
  have hways : t.find p.parent = .blocked ∨ ∃ l body, t.find p.parent = .file l body :=
    follow_dropLast_of_blocked h
  rw [withDirectory]
  cases hcount : p.parent.names.length with
  | zero =>
    -- where paths start is no file
    rw [find_of_names (List.length_eq_zero_iff.mp hcount)] at hways
    rcases hways with hblocked | ⟨_, _, hfile⟩
    · cases hblocked
    · cases hfile
  | succ count =>
    rw [makeDirectories]
    rcases hways with hblocked | ⟨_, _, hfile⟩
    · rw [hblocked]
      exact ⟨_, rfl⟩
    · rw [hfile]
      exact ⟨_, rfl⟩

/-- A directory that is made is made in one that could be made before. -/
theorem exists_parent_of_withDirectory (h : t.withDirectory p = .ok made) :
    t.find p = .directory ∨ ∃ u, t.withDirectory p.parent = .ok u ∧ Widened u made := by
  rw [withDirectory] at h
  cases hcount : p.names.length with
  | zero => exact .inl (find_of_names (List.length_eq_zero_iff.mp hcount) t)
  | succ count =>
    have hparent : p.parent.names.length = count := by
      rw [Path.parent, List.length_dropLast, hcount, Nat.add_sub_cancel]
    rw [hcount] at h
    rcases makeDirectories_cases h with
      ⟨hdir, -⟩ | ⟨l, hfree, hopen, rfl⟩ | ⟨-, u, hu, hmade⟩
    · exact .inl hdir
    · have hlocation : (t.find p).location? = some l := by rw [hfree]; rfl
      exact .inr ⟨t, withDirectory_of_directory (find_parent hlocation),
        widened_withOne hfree hopen⟩
    · refine .inr ⟨u, by rw [withDirectory, hparent, hu], ?_⟩
      rcases hmade with ⟨-, rfl⟩ | ⟨l, hfree, hopen, rfl⟩
      · exact .refl _
      · exact widened_withOne hfree hopen

/-! ### Paths in a tree with more directories -/

/-- There is no directory at the location that names lead to. -/
theorem Leads.hasDirectory_eq (h : t.Leads current names l) : t.hasDirectory l = false := by
  induction h with
  | here _ h => exact h
  | into _ _ _ ih => exact ih
  | back _ ih => exact ih

theorem Leads.location?_find (h : t.Leads (t.start p.base) p.names l) :
    (t.find p).location? = some l := by
  rw [find, h.follow_eq]
  cases t.fileAt? l <;> rfl

/-- Names that lead to a location in one tree do so in another one, where all names but the last
one lead to a directory. -/
theorem Leads.of_follow (h : t.Leads current names l)
    (hdir : u.follow current names.dropLast = .directory) (hl : u.hasDirectory l = false) :
    u.Leads current names l := by
  induction h with
  | here hn _ => exact .here hn hl
  | @into current _ n rest hn _ hrest ih =>
    have hne : rest ≠ [] := by rintro rfl; cases hrest
    rw [List.dropLast_cons_of_ne_nil hne] at hdir
    cases hnext : u.hasDirectory (current ++ [n]) with
    | true =>
      rw [follow_into hn hnext] at hdir
      exact .into hn hnext (ih hdir hl)
    | false =>
      rw [follow_stop hn hnext] at hdir
      split at hdir <;> split at hdir <;> cases hdir
  | @back current _ rest hrest ih =>
    have hne : rest ≠ [] := by rintro rfl; cases hrest
    rw [List.dropLast_cons_of_ne_nil hne, follow_back] at hdir
    exact .back (ih hdir hl)

/-- Names that lead to a directory in one tree do so in another one, or they stop at a place where
only the first one has a directory: at a file, at the end of the names, or before it. -/
theorem follow_of_directory (h : made.follow current names = .directory) (u : Tree) :
    u.follow current names = .directory ∨
      ∃ d, made.hasDirectory d = true ∧ u.hasDirectory d = false ∧
        ((u.fileAt? d).isSome = true ∨ u.follow current names = .free d ∨
          u.follow current names = .missing ∧ u.follow current names.dropLast ≠ .directory) := by
  induction names generalizing current with
  | nil => exact .inl rfl
  | cons n rest ih =>
    -- names that are missing have not come to their end
    have hlonger : ∀ {current : Location}, u.follow current rest = .missing →
        (n :: rest).dropLast = n :: rest.dropLast := by
      intro current hmissing
      refine List.dropLast_cons_of_ne_nil ?_
      rintro rfl
      cases hmissing
    by_cases hn : n = ".."
    · subst hn
      rw [follow_back] at h ⊢
      rcases ih h with hdir | ⟨d, hmade, hu, hfile | hfree | ⟨hmissing, hstop⟩⟩
      · exact .inl hdir
      · exact .inr ⟨d, hmade, hu, .inl hfile⟩
      · exact .inr ⟨d, hmade, hu, .inr (.inl hfree)⟩
      · refine .inr ⟨d, hmade, hu, .inr (.inr ⟨hmissing, ?_⟩)⟩
        rwa [hlonger hmissing, follow_back]
    · have hmade : made.hasDirectory (current ++ [n]) = true := by
        by_contra hnot
        rw [follow_stop hn (Bool.eq_false_iff.mpr hnot)] at h
        split at h <;> split at h <;> cases h
      rw [follow_into hn hmade] at h
      cases hnext : u.hasDirectory (current ++ [n]) with
      | true =>
        rw [follow_into hn hnext]
        rcases ih h with hdir | ⟨d, hmade, hu, hfile | hfree | ⟨hmissing, hstop⟩⟩
        · exact .inl hdir
        · exact .inr ⟨d, hmade, hu, .inl hfile⟩
        · exact .inr ⟨d, hmade, hu, .inr (.inl hfree)⟩
        · refine .inr ⟨d, hmade, hu, .inr (.inr ⟨hmissing, ?_⟩)⟩
          rwa [hlonger hmissing, follow_into hn hnext]
      | false =>
        refine .inr ⟨current ++ [n], hmade, hnext, ?_⟩
        cases hfile : u.fileAt? (current ++ [n]) with
        | some body => exact .inl rfl
        | none =>
          rw [follow_stop hn hnext, hfile]
          cases rest with
          | nil => exact .inr (.inl rfl)
          | cons m rest =>
            refine .inr (.inr ⟨rfl, ?_⟩)
            rw [List.dropLast_cons_of_ne_nil (List.cons_ne_nil m rest), follow_stop hn hnext, hfile]
            dsimp only
            split <;> exact nofun

/-- A tree has the directories of another one, and more, but none at a location. There may be a file
there; all other files are those of the other tree. -/
structure Grown (l : Location) (t u : Tree) : Prop where
  working : u.working = t.working
  locked : u.locked = t.locked
  kept : ∀ d, t.hasDirectory d = true → u.hasDirectory d = true
  files : ∀ d, d ≠ l → u.fileAt? d = t.fileAt? d
  apart : u.hasDirectory l = false

namespace Grown

theorem start_eq (h : Grown l t u) (b : Base) : u.start b = t.start b := by
  rw [start.eq_def, start.eq_def, h.working]

theorem withOne (h : Grown l t u) (hne : d ≠ l) : Grown l t (u.withOne d) where
  working := h.working
  locked := h.locked
  kept d' hd' := hasDirectory_withOne.mpr (.inl (h.kept d' hd'))
  files := h.files
  apart := by
    rw [← Bool.not_eq_true, hasDirectory_withOne, not_or, Bool.not_eq_true]
    exact ⟨h.apart, hne.symm⟩

/-- Directories are still there. -/
theorem find_eq_directory (h : Grown l t u) (hfind : t.find p = .directory) :
    u.find p = .directory := by
  rw [find] at hfind
  rw [find, h.start_eq]
  rcases follow_of_directory hfind u with hdir | ⟨d, hd, hu, -⟩
  · exact hdir
  · cases hu.symm.trans (h.kept d hd)

/-- A path at whose end a directory can be made leads to it, or to a place where it can be made, or
a directory is missing in front of it. -/
private theorem find_cases (h : Grown l t u) (hwide : Widened t made)
    (hl : made.hasDirectory l = false) (hmade : made.find p = .directory) :
    u.find p = .directory ∨
      (∃ d, u.find p = .free d ∧ d ≠ l ∧ u.locked.contains d.dropLast = false) ∨
      u.find p = .missing ∧ u.find p.parent ≠ .directory := by
  have hparent : u.find p.parent = u.follow (u.start p.base) p.names.dropLast := rfl
  rw [find, hwide.start_eq, ← h.start_eq] at hmade
  rw [hparent, find]
  rcases follow_of_directory hmade u with hdir | ⟨d, hd, hu, hfile | hfree | hmissing⟩
  · exact .inl hdir
  · -- a directory has been made at `d`, so there was no file
    exfalso
    have hne : d ≠ l := by
      rintro rfl
      cases hl.symm.trans hd
    rw [h.files d hne] at hfile
    rcases hwide.free d hd with hold | ⟨hnone, -⟩
    · cases hu.symm.trans (h.kept d hold)
    · rw [hnone] at hfile
      cases hfile
  · refine .inr (.inl ⟨d, hfree, ?_, ?_⟩)
    · rintro rfl
      cases hl.symm.trans hd
    · rcases hwide.free d hd with hold | ⟨-, hopen⟩
      · cases hu.symm.trans (h.kept d hold)
      · rwa [h.locked]
  · exact .inr (.inr hmissing)

/-- A directory that can be made in a tree can be made when the tree has grown. -/
theorem exists_withDirectory (h : Grown l t u) (hmade : t.withDirectory p = .ok made)
    (hl : made.hasDirectory l = false) :
    ∃ made', u.withDirectory p = .ok made' ∧ Grown l t made' := by
  generalize hcount : p.names.length = count
  induction count generalizing p made with
  | zero => exact ⟨u, by rw [withDirectory, hcount, makeDirectories], h⟩
  | succ count ih =>
    have hwide := widened_of_withDirectory hmade
    have hdir := find_of_withDirectory hmade
    have hcount' : p.parent.names.length = count := by
      rw [Path.parent, List.length_dropLast, hcount, Nat.add_sub_cancel]
    have hmake : u.withDirectory p = u.makeDirectories (count + 1) p := by
      rw [withDirectory, hcount]
    rw [hmake, makeDirectories]
    rcases h.find_cases hwide hl hdir with hfind | ⟨d, hfind, hne, hopen⟩ | ⟨hfind, -⟩
    · exact ⟨u, by rw [hfind], h⟩
    · refine ⟨u.withOne d, ?_, h.withOne hne⟩
      rw [hfind]
      exact makeAt_of_open hopen
    · -- the directory in front of it can be made in the first tree, so it can be made here
      obtain ⟨made₁, hmade₁, hl₁⟩ : ∃ made₁, t.withDirectory p.parent = .ok made₁ ∧
          made₁.hasDirectory l = false := by
        rcases exists_parent_of_withDirectory hmade with hthere | ⟨made₁, hmade₁, hwide₁⟩
        · rw [h.find_eq_directory hthere] at hfind
          cases hfind
        · exact ⟨made₁, hmade₁, hwide₁.hasDirectory_eq_false hl⟩
      obtain ⟨u₁, hu₁, hgrown⟩ := ih (p := p.parent) hmade₁ hl₁ hcount'
      have hparent := find_of_withDirectory hu₁
      rw [withDirectory, hcount'] at hu₁
      rw [hfind, hu₁]
      dsimp only [bind, Except.bind]
      rcases hgrown.find_cases hwide hl hdir with hfind₁ | ⟨d, hfind₁, hne, hopen⟩ | ⟨-, hstop⟩
      · exact ⟨u₁, by rw [hfind₁], hgrown⟩
      · refine ⟨u₁.withOne d, ?_, hgrown.withOne hne⟩
        rw [hfind₁]
        exact makeAt_of_open hopen
      · exact absurd hparent hstop

end Grown

/-! ### Reaching a location -/

/-- The path leads to the location once the directories on the way to it have been made. -/
def Reaches (t : Tree) (p : Path) (l : Location) : Prop :=
  ∃ made, t.withDirectory p.parent = .ok made ∧ (made.find p).location? = some l

instance (t : Tree) (p : Path) (l : Location) : Decidable (t.Reaches p l) :=
  decidable_of_iff (((t.withDirectory p.parent).toOption.bind fun made =>
      (made.find p).location?) = some l) (by
    rw [Reaches]
    cases t.withDirectory p.parent with
    | error f => exact iff_of_false nofun nofun
    | ok made => exact ⟨fun h => ⟨made, rfl, h⟩, fun ⟨_, hmade, h⟩ => Except.ok.inj hmade ▸ h⟩)

/-- Where a file may be written it may be written in a tree with more directories, too. -/
theorem IsOpen.of_withDirectory (h : t.IsOpen l) (hmade : t.withDirectory p = .ok made) :
    made.IsOpen l := by
  have hlocked := (widened_of_withDirectory hmade).locked
  exact ⟨hlocked ▸ h.file, hlocked ▸ h.directory⟩

theorem IsOpen.grown (h : t.IsOpen l) (hgrown : Grown l t u) : u.IsOpen l :=
  ⟨hgrown.locked ▸ h.file, hgrown.locked ▸ h.directory⟩

/-- A file that is put where a path leads makes the tree grow at this place. -/
theorem grown_putAt (hmade : t.withDirectory p.parent = .ok made)
    (hlocation : (made.find p).location? = some l) (body : Body) :
    Grown l t (made.putAt l body) where
  working := by
    rw [working_putAt]
    exact (widened_of_withDirectory hmade).working
  locked := by
    rw [locked_putAt]
    exact (widened_of_withDirectory hmade).locked
  kept d hd := by
    rw [hasDirectory_putAt]
    exact (widened_of_withDirectory hmade).kept d hd
  files d hne := by rw [fileAt?_putAt, if_neg hne, fileAt?_of_withDirectory hmade]
  apart := by
    rw [hasDirectory_putAt]
    exact (leads_of_find hlocation).hasDirectory_eq

/-- **What a path reaches it still reaches when the tree has grown there.** -/
theorem Reaches.grown (h : t.Reaches p l) (hgrown : Grown l t u) : u.Reaches p l := by
  obtain ⟨made, hmade, hlocation⟩ := h
  have hleads := leads_of_find hlocation
  obtain ⟨made', hmade', hgrown'⟩ :=
    hgrown.exists_withDirectory (p := p.parent) hmade hleads.hasDirectory_eq
  have hstart : made.start p.base = made'.start p.base := by
    rw [(widened_of_withDirectory hmade).start_eq, hgrown'.start_eq]
  have hparent : made'.follow (made'.start p.base) p.names.dropLast = .directory :=
    find_of_withDirectory (p := p.parent) hmade'
  rw [hstart] at hleads
  exact ⟨made', hmade', (hleads.of_follow hparent hgrown'.apart).location?_find⟩

end Choicebook.Files.Tree
