import Choicebook.Proofs.Console.Notes

/-!
# Captures into one file

Captures one after the other, all for one file, which is not there at first. Each adds a text at the
end of the file or at its front, and looks at what the earlier ones have left to see whether there
has to be a newline in between. If every text is on one line of its own (`Console.IsEntry`), the
file is a list of entries at all times, with newlines between them and none at the end: this is the
invariant, and one more text is one more entry (`Console.added_entries`).

No capture fails on the way if the file may be written and the directories for it can be made. This
is only asked of the tree at the start: captures make the tree grow, and what a path reaches in a
tree it still reaches then. With a file in the way the text is lost (`Console.captureAll_blocked`).
-/

namespace Choicebook.Console

/-! ### Files of entries -/

/-- What can be an entry of a file: a text that is not empty and has no line breaks. -/
structure IsEntry (text : String) : Prop where
  nonempty : text ≠ ""
  newline : '\n' ∉ text.toList
  carriage : '\r' ∉ text.toList

instance (text : String) : Decidable (IsEntry text) :=
  decidable_of_iff (text ≠ "" ∧ '\n' ∉ text.toList ∧ '\r' ∉ text.toList)
    ⟨fun ⟨hne, hn, hr⟩ => ⟨hne, hn, hr⟩, fun h => ⟨h.nonempty, h.newline, h.carriage⟩⟩

/-- Entries with one more, at the front or at the end. -/
def placed (toFront : Bool) (entries : List String) (text : String) : List String :=
  if toFront then text :: entries else entries ++ [text]

/-- The text that entries make up. -/
def page (entries : List String) : String := Text.join "\n" entries

/-- The file that entries make up. Without entries there is no file. -/
def fileOf? : List String → Option Files.Body
  | [] => none
  | entries => some (.text (page entries))

variable {entries : List String} {text : String} {toFront : Bool}

theorem IsEntry.placed (htext : IsEntry text) (h : ∀ e ∈ entries, IsEntry e) (toFront : Bool) :
    ∀ e ∈ placed toFront entries text, IsEntry e := by
  rw [Console.placed]
  split
  · exact List.forall_mem_cons.mpr ⟨htext, h⟩
  · exact List.forall_mem_append.mpr ⟨h, List.forall_mem_singleton.mpr htext⟩

theorem fileOf?_placed (toFront : Bool) (entries : List String) (text : String) :
    fileOf? (placed toFront entries text) = some (.text (page (placed toFront entries text))) := by
  cases toFront with
  | true => rfl
  | false =>
    cases entries with
    | nil => rfl
    | cons e entries => rfl

theorem IsEntry.not_endsWith (h : IsEntry text) : Text.endsWith text "\n" = false := by
  rw [← Bool.not_eq_true, endsWith_newline_iff]
  exact fun hlast => h.newline (List.mem_of_getLast? hlast)

/-- The last character of a page is that of its last entry. -/
theorem getLast?_page (h : ∀ e ∈ entries, IsEntry e) (hne : entries ≠ []) :
    ∃ c, (page entries).toList.getLast? = some c ∧ c ≠ '\n' := by
  obtain ⟨before, last, rfl⟩ := (List.eq_nil_or_concat entries).resolve_left hne
  rw [List.concat_eq_append] at h ⊢
  have hlast := h last (List.mem_append_right _ List.mem_cons_self)
  obtain ⟨front, hfront⟩ := Text.suffix_join "\n" before last
  have hsome : last.toList ≠ [] := fun hnil => hlast.nonempty (String.toList_eq_nil_iff.mp hnil)
  refine ⟨last.toList.getLast hsome, ?_, ?_⟩
  · rw [page, ← hfront, List.getLast?_append_of_ne_nil _ hsome, List.getLast?_eq_some_getLast hsome]
  · intro heq
    exact hlast.newline (heq ▸ List.getLast_mem hsome)

/-- A page is empty only without entries, and it does not end with a newline. -/
theorem page_cases (h : ∀ e ∈ entries, IsEntry e) :
    entries = [] ∨ page entries ≠ "" ∧ Text.endsWith (page entries) "\n" = false := by
  by_cases hne : entries = []
  · exact .inl hne
  · obtain ⟨c, hlast, hc⟩ := getLast?_page h hne
    refine .inr ⟨?_, ?_⟩
    · intro hempty
      rw [hempty] at hlast
      cases hlast
    · rw [← Bool.not_eq_true, endsWith_newline_iff, hlast]
      exact fun heq => hc (Option.some.inj heq)

/-- **One more text is one more entry.** -/
theorem added_entries (h : ∀ e ∈ entries, IsEntry e) (htext : IsEntry text) (toFront : Bool) :
    added toFront (page entries) text = page (placed toFront entries text) := by
  rcases page_cases h with rfl | ⟨hne, hend⟩
  · cases toFront <;> simp [added, onNewLine, page, Text.join, placed]
  · have hentries : entries ≠ [] := by
      rintro rfl
      exact hne rfl
    cases toFront with
    | true =>
      have hpage : page (text :: entries) = text ++ "\n" ++ page entries :=
        String.intercalate_cons_of_ne_nil hentries
      simp [added, placed, hne, htext.not_endsWith, hpage]
    | false =>
      have hpage : page (entries ++ [text]) = page entries ++ "\n" ++ text := by
        rw [page, Text.join, String.intercalate_append_of_ne_nil hentries (List.cons_ne_nil _ _),
          String.intercalate_singleton]
        rfl
      simp [added, onNewLine, placed, hne, hend, hpage]

/-- The lines of a page are its entries. -/
theorem splitOn_page (h : ∀ e ∈ entries, IsEntry e) (hne : entries ≠ []) :
    Text.splitOn ['\n'] (page entries).toList = entries.map String.toList :=
  Text.splitOn_join_newline hne fun s hs => (h s hs).newline

theorem carriage_not_mem_page (h : ∀ e ∈ entries, IsEntry e) : '\r' ∉ (page entries).toList := by
  induction entries with
  | nil => exact List.not_mem_nil
  | cons e entries ih =>
    obtain ⟨he, hentries⟩ := List.forall_mem_cons.mp h
    by_cases hne : entries = []
    · subst hne
      rw [page, Text.join, String.intercalate_singleton]
      exact he.carriage
    · rw [page, Text.join, String.intercalate_cons_of_ne_nil hne, String.toList_append,
        String.toList_append, List.mem_append, List.mem_append, not_or, not_or]
      exact ⟨⟨he.carriage, by decide⟩, ih hentries⟩

/-! ### One capture -/

section

variable {r : Renderer} {s t u : Session Console} {target : Files.Path} {l : Files.Location}

/-- A file of entries is read as it is, and so is one that is not there. -/
theorem runOn_textOf (hlocation : (s.host.tree.find target).location? = some l)
    (hfile : s.host.tree.fileAt? l = fileOf? entries) (h : ∀ e ∈ entries, IsEntry e) :
    ∃ t, (textOf target).runOn s = (.ok (page entries), t) ∧ s.Modest t := by
  obtain ⟨u, hu, hholds⟩ := runOn_holds target s
  have hfind := Files.Tree.find_eq_of_location hlocation
  rw [textOf, Act.runOn_bind_ok hholds, Files.Tree.holds]
  rw [hfile] at hfind
  cases entries with
  | nil =>
    have hfree : s.host.tree.find target = .free l := hfind
    rw [hfree]
    exact ⟨u, rfl, hu⟩
  | cons e es =>
    have hthere : s.host.tree.find target = .file l (.text (page (e :: es))) := hfind
    obtain ⟨v, hv, hvisit⟩ := runOn_visit target u
    have hread : u.host.tree.readText target = .ok (page (e :: es)) := by
      rw [hu.tree, Files.Tree.readText, Files.Tree.read, hthere]
      refine congrArg Except.ok ?_
      rw [Files.Tree.normalBreaks_eq_self (carriage_not_mem_page h), String.ofList_toList]
    rw [hthere, if_pos rfl, readText, Act.runOn_bind_ok hvisit, hread]
    exact ⟨v, rfl, hu.trans hv⟩

/-- **A text is added as an entry of the file**, whichever path leads there. -/
theorem runOn_addTo (hreach : s.host.tree.Reaches target l) (hopen : s.host.tree.IsOpen l)
    (hfile : s.host.tree.fileAt? l = fileOf? entries) (h : ∀ e ∈ entries, IsEntry e)
    (htext : IsEntry text) (toFront : Bool) :
    ∃ t, (addTo target toFront text).runOn s = (.ok (), t) ∧
      Files.Tree.Grown l s.host.tree t.host.tree ∧
      t.host.tree.fileAt? l = fileOf? (placed toFront entries text) := by
  obtain ⟨made, hmade, hlocation⟩ := hreach
  obtain ⟨u, hdir, rfl, -⟩ := runOn_makeDirectory hmade
  have hread : u.host.tree.fileAt? l = fileOf? entries := by
    rw [Files.Tree.fileAt?_of_withDirectory hmade, hfile]
  obtain ⟨v, hexisting, hv⟩ := runOn_textOf hlocation hread h
  -- reading does not change the tree, so the path still leads where it led
  rw [← hv.tree] at hlocation
  have hstill : v.host.tree.IsOpen l := by
    rw [hv.tree]
    exact hopen.of_withDirectory hmade
  obtain ⟨t, hwrite, htree, -⟩ :=
    runOn_writeText hlocation hstill (added toFront (page entries) text)
  rw [hv.tree] at hlocation htree
  refine ⟨t, ?_, ?_, ?_⟩
  · rw [addTo, Act.runOn_bind_ok hdir, Act.runOn_bind_ok hexisting, hwrite]
  · rw [htree]
    exact Files.Tree.grown_putAt hmade hlocation _
  · rw [htree, Files.Tree.fileAt?_putAt, if_pos rfl, added_entries h htext, fileOf?_placed]

/-! ### Captures one after the other -/

/-- A capture, and what happens in front of it: anything that leaves the files alone. -/
structure Capture where
  before : Session Console → Session Console
  head : ChoiceHead
  payload : Entries
  kept : ∀ s, (before s).host.tree = s.host.tree

def Capture.act (r : Renderer) (c : Capture) : Act Console Unit := do
  modify c.before
  runCapture r c.head c.payload

/-- Captures one after the other. A failure of one would end them. -/
def captureAll (r : Renderer) : List Capture → Act Console Unit
  | [] => return ()
  | c :: captures => do
    c.act r
    captureAll r captures

/-- A text for the front or the end of a file. -/
structure Addition where
  path : Files.Path
  toFront : Bool
  text : String

/-- How the target of a capture is looked up. -/
def Capture.lookUp (r : Renderer) (c : Capture) (s : Session Console) :
    Except Fault (Option Files.Path) × Session Console :=
  (captureTarget? r c.head.name.display c.payload).runOn (c.before s)

/-- In a session, a capture has a target and then a text: those of an addition. -/
structure Capture.Gives (r : Renderer) (c : Capture) (s : Session Console) (a : Addition) :
    Prop where
  toFront : ((c.payload.field? "prepend").getD .null).isTruthy = a.toFront
  target : (c.lookUp r s).1 = .ok (some a.path)
  text : ((capturedText r c.head c.payload).runOn (c.lookUp r s).2).1 = .ok a.text

instance (r : Renderer) (c : Capture) (s : Session Console) (a : Addition) :
    Decidable (c.Gives r s a) :=
  decidable_of_iff (((c.payload.field? "prepend").getD .null).isTruthy = a.toFront ∧
      (c.lookUp r s).1 = .ok (some a.path) ∧
      ((capturedText r c.head c.payload).runOn (c.lookUp r s).2).1 = .ok a.text)
    ⟨fun ⟨hfront, hpath, htext⟩ => ⟨hfront, hpath, htext⟩,
      fun h => ⟨h.toFront, h.target, h.text⟩⟩

/-- What captures have to add, each in the session that the earlier ones leave. -/
inductive Adding (r : Renderer) : Session Console → List Capture → List Addition → Prop
  | nil {s : Session Console} : Adding r s [] []
  | cons {s : Session Console} {c : Capture} {captures : List Capture} {a : Addition}
      {additions : List Addition} (h : c.Gives r s a)
      (more : Adding r ((c.act r).runOn s).2 captures additions) :
      Adding r s (c :: captures) (a :: additions)

/-- Entries with additions, one after the other. -/
def arranged (entries : List String) (additions : List Addition) : List String :=
  additions.foldl (fun entries a => placed a.toFront entries a.text) entries

variable {c : Capture} {captures : List Capture} {a : Addition} {additions : List Addition}

theorem arranged_perm : (arranged entries additions).Perm (entries ++ additions.map (·.text)) := by
  induction additions generalizing entries with
  | nil => rw [arranged, List.foldl_nil, List.map_nil, List.append_nil]
  | cons a additions ih =>
    have hplaced : (placed a.toFront entries a.text).Perm (entries ++ [a.text]) := by
      rw [placed]
      split
      · exact (List.perm_append_singleton a.text entries).symm
      · exact .refl _
    rw [List.map_cons, List.append_cons]
    exact ih.trans (hplaced.append_right _)

theorem tree_of_captureTarget? {owner : String} {payload : Entries}
    (h : (captureTarget? r owner payload).runOn s = (.ok (some target), t)) :
    t.host.tree = s.host.tree := by
  rcases runOn_captureTarget?_cases owner payload s with
    ⟨e, u, hrun, -⟩ | ⟨u, hrun, -⟩ | ⟨target', u, hrun, hu⟩
  · cases hrun.symm.trans h
  · cases hrun.symm.trans h
  · cases hrun.symm.trans h
    exact hu.tree

theorem tree_of_capturedText {head : ChoiceHead} {payload : Entries} {result : Except Fault String}
    (h : (capturedText r head payload).runOn s = (result, t)) : t.host.tree = s.host.tree := by
  have hmodest := modest_means.capturedText (r := r) head payload s
  rw [h] at hmodest
  exact hmodest.tree

theorem Capture.Gives.runs (h : c.Gives r s a) : ∃ t u,
    (captureTarget? r c.head.name.display c.payload).runOn (c.before s) = (.ok (some a.path), t) ∧
      (capturedText r c.head c.payload).runOn t = (.ok a.text, u) :=
  ⟨_, _, Prod.ext h.target rfl, Prod.ext h.text rfl⟩

/-- One capture adds what it gives. -/
theorem Capture.Gives.runOn_act (hgives : c.Gives r s a) (hreach : s.host.tree.Reaches a.path l)
    (hopen : s.host.tree.IsOpen l) (hfile : s.host.tree.fileAt? l = fileOf? entries)
    (h : ∀ e ∈ entries, IsEntry e) (htext : IsEntry a.text) :
    ∃ t, (c.act r).runOn s = (.ok (), t) ∧ Files.Tree.Grown l s.host.tree t.host.tree ∧
      t.host.tree.fileAt? l = fileOf? (placed a.toFront entries a.text) := by
  obtain ⟨t, u, htarget, hcaptured⟩ := hgives.runs
  have htree : u.host.tree = s.host.tree := by
    rw [tree_of_capturedText hcaptured, tree_of_captureTarget? htarget, c.kept]
  rw [← htree] at hreach hopen hfile ⊢
  obtain ⟨v, hadd, hv⟩ := runOn_addTo hreach hopen hfile h htext a.toFront
  refine ⟨v, ?_, hv⟩
  rw [Capture.act, Act.runOn_modify_bind, runCapture, Act.runOn_bind_ok htarget,
    Act.runOn_bind_ok hcaptured, hgives.toFront, hadd]

/-- The captures add what they give to the entries that are there. -/
theorem runOn_captureAll (hadding : Adding r s captures additions)
    (hreach : ∀ a ∈ additions, s.host.tree.Reaches a.path l) (hopen : s.host.tree.IsOpen l)
    (hfile : s.host.tree.fileAt? l = fileOf? entries) (h : ∀ e ∈ entries, IsEntry e)
    (htexts : ∀ a ∈ additions, IsEntry a.text) :
    ∃ t, (captureAll r captures).runOn s = (.ok (), t) ∧
      t.host.tree.fileAt? l = fileOf? (arranged entries additions) ∧
      ∀ e ∈ arranged entries additions, IsEntry e := by
  -- at all times the file is made up of entries, and the paths that are left reach it
  induction hadding generalizing entries with
  | nil => exact ⟨_, rfl, hfile, h⟩
  | @cons s c captures a additions hgives _ ih =>
    obtain ⟨hreach, hmore⟩ := List.forall_mem_cons.mp hreach
    obtain ⟨htext, htexts⟩ := List.forall_mem_cons.mp htexts
    obtain ⟨t, hrun, hgrown, hplaced⟩ := hgives.runOn_act hreach hopen hfile h htext
    rw [hrun] at ih
    obtain ⟨u, hrest, hu⟩ := ih (fun a ha => (hmore a ha).grown hgrown) (hopen.grown hgrown)
      hplaced (htext.placed h a.toFront) htexts
    exact ⟨u, by rw [captureAll, Act.runOn_bind_ok hrun, hrest], hu⟩

/-- **Captures keep every entry in place.** Captures for a file that is not there, but that can be
made and written, each with one line of text, all come to their end. Then the file is made up of
their texts, as they have been added at the front or at the end: each of them once, on a line of its
own, and no other line. -/
theorem captureAll_entries (r : Renderer) (hadding : Adding r s captures additions)
    (hreach : ∀ a ∈ additions, s.host.tree.Reaches a.path l) (hopen : s.host.tree.IsOpen l)
    (hnone : s.host.tree.fileAt? l = none) (htexts : ∀ a ∈ additions, IsEntry a.text) :
    ∃ t, (captureAll r captures).runOn s = (.ok (), t) ∧
      t.host.tree.fileAt? l = fileOf? (arranged [] additions) ∧
      (arranged [] additions).Perm (additions.map (·.text)) ∧
      (additions ≠ [] → Text.splitOn ['\n'] (page (arranged [] additions)).toList =
        (arranged [] additions).map String.toList) := by
  have hempty : s.host.tree.fileAt? l = fileOf? [] := hnone
  obtain ⟨t, hrun, hfile, hentries⟩ := runOn_captureAll hadding hreach hopen hempty
    (List.forall_mem_nil IsEntry) htexts
  have hperm : (arranged [] additions).Perm (additions.map (·.text)) := arranged_perm
  refine ⟨t, hrun, hfile, hperm, fun hne => splitOn_page hentries fun hnil => hne ?_⟩
  rw [hnil] at hperm
  exact List.map_eq_nil_iff.mp hperm.nil_eq.symm

/-- A diary with an entry that is asked for, one that the shared variables give and that comes to
the front, and one more, which is asked for with a way around to the same file. -/
def diary : List Capture :=
  let head : ChoiceHead := ⟨.text "diary", .text "diary", false⟩
  [⟨id, head, [(.text "captureTo", .text "daily/log.md")], fun _ => rfl⟩,
    ⟨fun s => { s with shared := [(.text "day", .text "Monday")] }, head,
      [(.text "captureTo", .text "daily/log.md"), (.text "prepend", .bool true),
        (.text "format", .text "# \x7b\x7bday\x7d\x7d")], fun _ => rfl⟩,
    ⟨id, head, [(.text "captureTo", .text "daily/../daily/log.md"),
      (.text "format", .text "- \x7b\x7bvalue\x7d\x7d")], fun _ => rfl⟩]

def diaryTexts : List Addition :=
  [⟨⟨.relative, ["daily", "log.md"]⟩, false, "one"⟩,
    ⟨⟨.relative, ["daily", "log.md"]⟩, true, "# Monday"⟩,
    ⟨⟨.relative, ["daily", "..", "daily", "log.md"]⟩, false, "- two"⟩]

def diaryStart : Session Console :=
  .start .preset .empty .start
    (start ⟨2024, 2, 29⟩ .here (.empty ["work"] []) [some "one", some "two"] false)

theorem adding_diary : Adding .standard diaryStart diary diaryTexts := by
  refine .cons ?_ (.cons ?_ (.cons ?_ .nil)) <;> decide +kernel

theorem captureAll_entries_diary :
    ∃ t, (captureAll .standard diary).runOn diaryStart = (.ok (), t) ∧
      t.host.tree.fileAt? ["work", "daily", "log.md"] =
        some (.text "# Monday\none\n- two") := by
  have hreach : ∀ a ∈ diaryTexts,
      diaryStart.host.tree.Reaches a.path ["work", "daily", "log.md"] := by decide +kernel
  have htexts : ∀ a ∈ diaryTexts, IsEntry a.text := by decide +kernel
  obtain ⟨t, hrun, hfile, -⟩ :=
    captureAll_entries .standard adding_diary hreach ⟨rfl, rfl⟩ rfl htexts
  exact ⟨t, hrun, hfile⟩

/-- A capture for a file behind another file: there is no such file afterwards. -/
theorem captureAll_blocked :
    let tree := (Files.Tree.empty ["work"] []).plant ["work", "daily"] (.text "note")
    let s : Session Console :=
      .start .preset .empty .start (start ⟨2024, 2, 29⟩ .here tree [some "one"] false)
    let capture : Capture := ⟨id, ⟨.text "diary", .text "diary", false⟩,
      [(.text "captureTo", .text "daily/log.md")], fun _ => rfl⟩
    let run := (captureAll .standard [capture]).runOn s
    Adding .standard s [capture] [⟨⟨.relative, ["daily", "log.md"]⟩, false, "one"⟩] ∧
      IsEntry "one" ∧ (s.host.tree.fileAt? ["work", "daily", "log.md"]).isNone = true ∧
      run.1.isOk = false ∧ (run.2.host.tree.fileAt? ["work", "daily", "log.md"]).isNone = true := by
  intro tree s capture run
  refine ⟨.cons ?_ .nil, ?_⟩ <;> decide +kernel

end

end Choicebook.Console
