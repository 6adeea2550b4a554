import Choicebook.Files.Tree
import Choicebook.Proofs.Text.Pieces

/-!
# Writing to files

What writing to a path changes, and what it depends on. A path is followed name by name, so where it
leads depends on the directories that are there: a path with a double dot behind a directory that is
missing leads nowhere, and once the directory has been made it leads back to what was there before.
Without double dots this cannot happen (`Tree.Sound.dots_of_missing`).

In the trees that `Tree.plant` builds, all directories that lead to a file are there (`Tree.Sound`).
-/

namespace Choicebook.Files

/-- Where a text can be written: at a file, or where nothing is in a directory. -/
def Spot.location? : Spot → Option Location
  | .file l _ | .free l => some l
  | .directory | .missing | .blocked => none

namespace Tree

variable {t t' : Tree} {l : Location} {body : Body} {p : Path}

/-! ### One file -/

private theorem lookup_map_replace (files : List (Location × Body)) (l : Location) (body : Body)
    (other : Location) :
    (files.map fun e => if e.1 = l then (l, body) else e).lookup other =
      if other = l then (files.lookup l).map fun _ => body else files.lookup other := by
  induction files with
  | nil => split <;> rfl
  | cons e files ih =>
    obtain ⟨k, b⟩ := e
    by_cases hk : k = l
    · subst hk
      by_cases ho : other = k
      · subst ho
        simp
      · have hne : (other == k) = false := beq_false_of_ne ho
        simp [List.lookup_cons, hne, ih, ho]
    · have hne : (l == k) = false := beq_false_of_ne (Ne.symm hk)
      by_cases ho : other = l
      · subst ho
        simp [List.lookup_cons, hne, hk, ih]
      · simp [List.lookup_cons, hk, ih, ho]

/-- Putting a file changes what is at its location, and nothing else. -/
theorem fileAt?_putAt (t : Tree) (l : Location) (body : Body) (other : Location) :
    (t.putAt l body).fileAt? other = if other = l then some body else t.fileAt? other := by
  rw [putAt]
  split
  · next h =>
    obtain ⟨old, hold⟩ := Option.isSome_iff_exists.mp h
    rw [fileAt?] at hold
    rw [fileAt?, lookup_map_replace, hold]
    rfl
  · next h =>
    rw [Option.not_isSome_iff_eq_none, fileAt?] at h
    rw [fileAt?, List.lookup_append, fileAt?]
    by_cases ho : other = l
    · subst ho
      rw [if_pos rfl, h]
      simp
    · have hne : (other == l) = false := beq_false_of_ne ho
      rw [if_neg ho]
      simp [List.lookup_cons, hne]

theorem hasDirectory_putAt (t : Tree) (l : Location) (body : Body) (d : Location) :
    (t.putAt l body).hasDirectory d = t.hasDirectory d := by
  rw [putAt]
  split <;> rfl

theorem working_putAt (t : Tree) (l : Location) (body : Body) :
    (t.putAt l body).working = t.working := by
  rw [putAt]
  split <;> rfl

theorem locked_putAt (t : Tree) (l : Location) (body : Body) :
    (t.putAt l body).locked = t.locked := by
  rw [putAt]
  split <;> rfl

/-- Where paths start does not depend on the files. -/
theorem start_putAt (t : Tree) (l : Location) (body : Body) (b : Base) :
    (t.putAt l body).start b = t.start b := by
  rw [start.eq_def, start.eq_def, working_putAt]

/-! ### Following names -/

/-- Some names lead from a directory to a location in a directory, where there is no directory but
there can be a file. -/
inductive Leads (t : Tree) : (current : Location) → List String → Location → Prop where
  | here {current : Location} {n : String} (hn : n ≠ "..")
    (h : t.hasDirectory (current ++ [n]) = false) : Leads t current [n] (current ++ [n])
  | into {current l : Location} {n : String} {rest : List String} (hn : n ≠ "..")
    (h : t.hasDirectory (current ++ [n]) = true) (hrest : Leads t (current ++ [n]) rest l) :
    Leads t current (n :: rest) l
  | back {current l : Location} {rest : List String}
    (hrest : Leads t current.dropLast rest l) : Leads t current (".." :: rest) l

section

variable {current : Location} {names : List String}

theorem follow_back (t : Tree) (current : Location) (rest : List String) :
    t.follow current (".." :: rest) = t.follow current.dropLast rest := by
  rw [follow, if_pos rfl]

theorem follow_into {n : String} (hn : n ≠ "..") (h : t.hasDirectory (current ++ [n]) = true)
    (rest : List String) : t.follow current (n :: rest) = t.follow (current ++ [n]) rest := by
  rw [follow, if_neg hn]
  exact if_pos h

/-- Where there is no directory, there has to be an end of the names. -/
theorem follow_stop {n : String} (hn : n ≠ "..") (h : t.hasDirectory (current ++ [n]) = false)
    (rest : List String) : t.follow current (n :: rest) =
      match t.fileAt? (current ++ [n]) with
      | some body => if rest.isEmpty then .file (current ++ [n]) body else .blocked
      | none => if rest.isEmpty then .free (current ++ [n]) else .missing := by
  rw [follow, if_neg hn]
  exact if_neg (by rw [h]; exact Bool.false_ne_true)

/-- What is at the location decides what is found there. -/
theorem Leads.follow_eq (h : t.Leads current names l) :
    t.follow current names = match t.fileAt? l with
      | some body => .file l body
      | none => .free l := by
  induction h with
  | here hn h =>
    rw [follow_stop hn h]
    rfl
  | into hn h _ ih => rw [follow_into hn h, ih]
  | back _ ih => rw [follow_back, ih]

/-- Where a text can be written the names lead. -/
theorem leads_of_location (h : (t.follow current names).location? = some l) :
    t.Leads current names l := by
  induction names generalizing current with
  | nil => cases h
  | cons n rest ih =>
    by_cases hn : n = ".."
    · subst hn
      rw [follow_back] at h
      exact .back (ih h)
    · cases hdir : t.hasDirectory (current ++ [n]) with
      | true =>
        rw [follow_into hn hdir] at h
        exact .into hn hdir (ih h)
      | false =>
        rw [follow_stop hn hdir] at h
        cases rest with
        | nil =>
          have hl : l = current ++ [n] := by
            split at h <;> exact (Option.some.inj h).symm
          subst hl
          exact .here hn hdir
        | cons m rest => split at h <;> cases h

theorem Leads.putAt (h : t.Leads current names l) (other : Location) (body : Body) :
    (t.putAt other body).Leads current names l := by
  induction h with
  | here hn h => exact .here hn (by rwa [hasDirectory_putAt])
  | into hn h _ ih => exact .into hn (by rwa [hasDirectory_putAt]) ih
  | back _ ih => exact .back ih

/-- All names but the last one lead to a directory. -/
theorem Leads.follow_dropLast (h : t.Leads current names l) :
    t.follow current names.dropLast = .directory := by
  induction h with
  | here => rfl
  | @into _ _ n rest hn h hrest ih =>
    have hne : rest ≠ [] := by rintro rfl; cases hrest
    rw [List.dropLast_cons_of_ne_nil hne, follow_into hn h, ih]
  | @back _ _ rest hrest ih =>
    have hne : rest ≠ [] := by rintro rfl; cases hrest
    rw [List.dropLast_cons_of_ne_nil hne, follow_back, ih]

/-- Without double dots, the location has the names of the path. -/
theorem Leads.eq_append (h : t.Leads current names l) (hplain : ".." ∉ names) :
    l = current ++ names := by
  induction h with
  | here => rfl
  | into hn h _ ih =>
    rw [ih fun hmem => hplain (List.mem_cons_of_mem _ hmem), List.append_assoc]
    rfl
  | back => exact absurd List.mem_cons_self hplain

/-- A file in the way is there for all names but the last one, too. -/
theorem follow_dropLast_of_blocked (h : t.follow current names = .blocked) :
    t.follow current names.dropLast = .blocked ∨
      ∃ l body, t.follow current names.dropLast = .file l body := by
  induction names generalizing current with
  | nil => cases h
  | cons n rest ih =>
    cases rest with
    | nil =>
      -- a single name is not in the way of anything
      rw [follow] at h
      split at h
      · cases h
      · dsimp only at h
        split at h
        · cases h
        · split at h <;> cases h
    | cons m rest =>
      rw [List.dropLast_cons_of_ne_nil (List.cons_ne_nil m rest)]
      by_cases hn : n = ".."
      · subst hn
        rw [follow_back] at h ⊢
        exact ih h
      · cases hdir : t.hasDirectory (current ++ [n]) with
        | true =>
          rw [follow_into hn hdir] at h ⊢
          exact ih h
        | false =>
          rw [follow_stop hn hdir] at h ⊢
          cases hfile : t.fileAt? (current ++ [n]) with
          | none =>
            rw [hfile] at h
            cases h
          | some body =>
            dsimp only
            split
            · exact .inr ⟨_, _, rfl⟩
            · exact .inl rfl

end

/-! ### Paths -/

/-- Where a text can be written, the names of the path lead. -/
theorem leads_of_find (h : (t.find p).location? = some l) : t.Leads (t.start p.base) p.names l :=
  leads_of_location h

/-- Where a text can be written there is what the tree has at that location. -/
theorem find_eq_of_location (h : (t.find p).location? = some l) :
    t.find p = match t.fileAt? l with
      | some body => .file l body
      | none => .free l := by
  rw [find, (leads_of_find h).follow_eq]

/-- Nothing forbids to write a file at a location, or to make one there. -/
structure IsOpen (t : Tree) (l : Location) : Prop where
  file : t.locked.contains l = false
  directory : t.locked.contains l.dropLast = false

theorem writeText_of_isOpen (h : (t.find p).location? = some l) (hopen : t.IsOpen l)
    (text : String) : t.writeText p text = .ok (t.putAt l (.text text)) := by
  rw [writeText, find_eq_of_location h]
  cases t.fileAt? l with
  | some body => simp only [hopen.file, Bool.false_eq_true, if_false]
  | none => simp only [hopen.directory, Bool.false_eq_true, if_false]

/-- A text is put where the path leads, if it is written at all. -/
theorem writeText_eq_ok {text : String} (h : t.writeText p text = .ok t') :
    ∃ l, (t.find p).location? = some l ∧ t' = t.putAt l (.text text) := by
  rw [writeText] at h
  split at h
  · next l _ hfind =>
    split at h
    · cases h
    · exact ⟨l, by rw [hfind]; rfl, (Except.ok.inj h).symm⟩
  · next l hfind =>
    split at h
    · cases h
    · exact ⟨l, by rw [hfind]; rfl, (Except.ok.inj h).symm⟩
  · cases h
  · cases h
  · cases h

/-- A file that has been put there is found. -/
theorem find_putAt (h : (t.find p).location? = some l) (body : Body) :
    (t.putAt l body).find p = .file l body := by
  rw [find, start_putAt, ((leads_of_find h).putAt l body).follow_eq, fileAt?_putAt, if_pos rfl]

/-- Where a text can be written is in a directory. -/
theorem find_parent (h : (t.find p).location? = some l) : t.find p.parent = .directory :=
  (leads_of_find h).follow_dropLast

/-! ### Paths to files that are there -/

/-- All directories that lead to a file are there. -/
def Sound (t : Tree) : Prop :=
  ∀ (l : Location) (rest : List String), rest ≠ [] → (t.fileAt? (l ++ rest)).isSome = true →
    t.hasDirectory l = true

/-- The names of a file that is there do not lead to nothing. -/
private theorem Sound.follow_ne_missing (h : t.Sound) {current : Location} {names : List String}
    (hplain : ".." ∉ names) (hfile : (t.fileAt? (current ++ names)).isSome = true) :
    t.follow current names ≠ .missing := by
  induction names generalizing current with
  | nil => exact nofun
  | cons n rest ih =>
    have hn : n ≠ ".." := fun heq => hplain (heq ▸ List.mem_cons_self)
    rw [List.append_cons] at hfile
    cases hdir : t.hasDirectory (current ++ [n]) with
    | true =>
      rw [follow_into hn hdir]
      exact ih (fun hmem => hplain (List.mem_cons_of_mem _ hmem)) hfile
    | false =>
      rw [follow_stop hn hdir]
      cases rest with
      | nil =>
        rw [List.append_nil] at hfile
        obtain ⟨body, hbody⟩ := Option.isSome_iff_exists.mp hfile
        rw [hbody]
        exact nofun
      | cons m rest => cases hdir.symm.trans (h _ _ (List.cons_ne_nil m rest) hfile)

/-- Let a text be written to a path after directories have been made for it. If a file was there,
but the path did not lead anywhere before, it has a double dot. -/
theorem Sound.dots_of_missing (h : t.Sound) (hstart : t'.start p.base = t.start p.base)
    (hl : (t'.find p).location? = some l) (hfile : (t.fileAt? l).isSome = true)
    (hmissing : t.find p = .missing) : ".." ∈ p.names := by
  by_contra hplain
  have hnames : l = t.start p.base ++ p.names := by
    rw [← hstart]
    exact (leads_of_find hl).eq_append hplain
  exact h.follow_ne_missing hplain (by rwa [hnames] at hfile) hmissing

theorem sound_empty (working : Location) (homes : List (String × Location)) :
    (empty working homes).Sound := fun _ _ _ h => by cases h

/-- A file is put into a tree with all directories that lead to it. -/
theorem Sound.plant (h : t.Sound) (names : Location) (body : Body) :
    (t.plant names body).Sound := by
  intro l rest hrest hfile
  let directories := t.directories ++ (above names).filter fun d => !t.directories.contains d
  have hplant : t.plant names body = { t with directories := directories }.putAt names body := rfl
  rw [hplant, fileAt?_putAt] at hfile
  rw [hplant, hasDirectory_putAt, hasDirectory, Bool.or_eq_true, List.contains_iff_mem]
  by_cases hl : l ++ rest = names
  · -- a part of the names of the new file
    by_cases hnil : l = []
    · exact .inl (List.isEmpty_iff.mpr hnil)
    · have hlength : names.length = l.length + rest.length := by rw [← hl, List.length_append]
      have hpos := List.length_pos_iff.mpr hnil
      have hrestpos := List.length_pos_iff.mpr hrest
      have habove : l ∈ above names := by
        refine List.mem_map.mpr ⟨l.length - 1, List.mem_range.mpr (by omega), ?_⟩
        rw [Nat.sub_add_cancel hpos, ← hl, List.take_left]
      refine .inr (List.mem_append.mpr ?_)
      by_cases hold : l ∈ t.directories
      · exact .inl hold
      · exact .inr (List.mem_filter.mpr ⟨habove, by simpa using hold⟩)
  · rw [if_neg hl] at hfile
    have hold := h l rest hrest hfile
    rw [hasDirectory, Bool.or_eq_true, List.contains_iff_mem] at hold
    exact hold.imp_right fun hmem => List.mem_append_left _ hmem

end Tree

end Choicebook.Files
