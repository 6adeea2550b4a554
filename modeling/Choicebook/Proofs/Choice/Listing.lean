import Choicebook.Choice.Listing
import Choicebook.Proofs.Text.Pieces
import Mathlib.Data.List.Forall2

/-!
# Listings further in

A listing that starts some levels further in has the same lines, each with the blanks of those
levels in front (`Listed.listing_further`). So a part of a tree is listed in the same way wherever
it hangs.

The margin of a listing goes down through all sorts of choices and commands, and each of them adds
levels of its own. What that amounts to is said once, for two margins side by side
(`Choice.lines_beside`, `Command.lines_beside`): if a relation holds between any text behind the one
margin and the same text behind the other, at every number of levels further in, then it holds line
by line between the two listings. Two such relations are needed. Behind a margin that is further in
there are more blanks in front, and behind any margin a new line stands in a line or it does not.
-/

namespace Choicebook

variable {R : String → String → Prop}

/-! ### Margins side by side -/

namespace Margin

variable {m m' : Margin}

/-- The margin some levels further in. -/
def further (m : Margin) (k : Nat) : Margin := { m with level := m.level + k }

@[simp]
theorem unit_further (m : Margin) (k : Nat) : (m.further k).unit = m.unit := rfl

theorem further_further (m : Margin) (j k : Nat) : (m.further j).further k = m.further (j + k) := by
  simp [further, Int.add_assoc]

theorem deeper_eq_further (m : Margin) : m.deeper = m.further 1 := rfl

/-- The blanks of the levels further in stand in front of those of the margin. -/
theorem pad_further (hm : 0 ≤ m.level) (k : Nat) :
    (m.further k).pad = Text.repeated m.unit k ++ m.pad := by
  have hlevel : (m.level + k).toNat = k + m.level.toNat := by omega
  rw [pad, pad, unit_further, further, hlevel, Text.repeated, List.replicate_add,
    String.join_append]
  rfl

/-- One level more is one more unit, also if it is added at the end. -/
theorem pad_deeper (hm : 0 ≤ m.level) : m.deeper.pad = m.pad ++ m.unit := by
  have hlevel : (m.level + 1).toNat = m.level.toNat + 1 := by omega
  rw [pad, pad, deeper, hlevel, Text.repeated, List.replicate_succ', String.join_append,
    String.join_cons, String.join_nil, String.append_empty]
  rfl

/-- Two margins side by side: `R` holds between a text behind the one and the same text behind the
other, and so it does further in. -/
structure Beside (R : String → String → Prop) (m m' : Margin) : Prop where
  level : 0 ≤ m.level
  level' : 0 ≤ m'.level
  texts (k : Nat) (text : String) : R ((m.further k).pad ++ text) ((m'.further k).pad ++ text)

theorem Beside.text (h : m.Beside R m') (text : String) : R (m.pad ++ text) (m'.pad ++ text) := by
  have hnow := h.texts 0 text
  simpa [further] using hnow

theorem Beside.deeper (h : m.Beside R m') : m.deeper.Beside R m'.deeper where
  level := Int.le_add_one h.level
  level' := Int.le_add_one h.level'
  texts k text := by
    rw [deeper_eq_further, deeper_eq_further, further_further, further_further]
    exact h.texts (1 + k) text

end Margin

/-! ### Listings side by side -/

/-- Two ways to list something: either with lines that `R` holds between, one by one, or with the
same failure. -/
inductive Alike (R : String → String → Prop) :
    Except Fault (List String) → Except Fault (List String) → Prop
  | ok {xs ys : List String} (h : List.Forall₂ R xs ys) : Alike R (.ok xs) (.ok ys)
  | error (f : Fault) : Alike R (.error f) (.error f)

namespace Alike

variable {x y : Except Fault (List String)}

theorem single {s t : String} (h : R s t) : Alike R (.ok [s]) (.ok [t]) :=
  .ok (.cons h .nil)

theorem bind (h : Alike R x y) {f g : List String → Except Fault (List String)}
    (hf : ∀ xs ys, List.Forall₂ R xs ys → Alike R (f xs) (g ys)) :
    Alike R (x >>= f) (y >>= g) := by
  cases h with
  | ok h => exact hf _ _ h
  | error f => exact .error f

/-- A part of a listing that no margin matters for. -/
theorem of_bind {α : Type} (a : Except Fault α) {f g : α → Except Fault (List String)}
    (hf : ∀ x, Alike R (f x) (g x)) : Alike R (a >>= f) (a >>= g) := by
  cases a with
  | ok x => exact hf x
  | error f => exact .error f

end Alike

/-- The line of a choice is a text behind the margin. -/
theorem Choice.headLine_eq (m : Margin) (c : Choice) :
    c.headLine m = m.pad ++ (c.kind ++ ": " ++ c.name.display ++
      if c.head.isCommand then " [command]" else "") := by
  simp only [headLine, String.append_assoc]

/-- So is the line of a command. -/
theorem Command.headLine_eq (m : Margin) (c : Command) (remark : String) :
    c.headLine m remark =
      m.pad ++ ("- " ++ c.kind ++ ": " ++ (if c.name.isTruthy then c.name.display else c.kind) ++
        if remark.isEmpty then "" else " (" ++ remark ++ ")") := by
  simp only [headLine, String.append_assoc]

section Beside

variable {m m' : Margin}

theorem Choice.headLine_beside (h : m.Beside R m') (c : Choice) :
    R (c.headLine m) (c.headLine m') := by
  rw [headLine_eq, headLine_eq]
  exact h.text _

theorem Command.headLine_beside (h : m.Beside R m') (c : Command) (remark : String) :
    R (c.headLine m remark) (c.headLine m' remark) := by
  rw [headLine_eq, headLine_eq]
  exact h.text _

/-- The line of a menu that does not show what is in it. -/
theorem Choice.hiddenLine_beside (h : m.Beside R m') (c : Choice) (count : Nat) :
    R (c.headLine m ++ " (" ++ toString count ++ " hidden)")
      (c.headLine m' ++ " (" ++ toString count ++ " hidden)") := by
  rw [headLine_eq, headLine_eq]
  simp only [String.append_assoc]
  exact h.text _

/-- What stands in for an empty branch, two levels in. -/
theorem Margin.Beside.nothing (h : m.Beside R m') :
    R (m.deeper.pad ++ m.unit ++ "(nothing)") (m'.deeper.pad ++ m'.unit ++ "(nothing)") := by
  have hline := h.deeper.deeper.text "(nothing)"
  rwa [Margin.pad_deeper h.deeper.level, Margin.pad_deeper h.deeper.level'] at hline

/-- The two branches of a conditional command, with what stands in for an empty one. -/
theorem Command.branches_beside (h : m.Beside R m') (question : String)
    {thens thens' elses elses' : List String} (hthens : List.Forall₂ R thens thens')
    (helses : List.Forall₂ R elses elses') (bare : Bool) :
    List.Forall₂ R
      ([m.pad ++ "- If " ++ question, m.deeper.pad ++ "then:"]
        ++ (if thens.isEmpty then [m.deeper.pad ++ m.unit ++ "(nothing)"] else thens)
        ++ (if bare then [] else (m.deeper.pad ++ "else:") :: elses))
      ([m'.pad ++ "- If " ++ question, m'.deeper.pad ++ "then:"]
        ++ (if thens'.isEmpty then [m'.deeper.pad ++ m'.unit ++ "(nothing)"] else thens')
        ++ (if bare then [] else (m'.deeper.pad ++ "else:") :: elses')) := by
  have hhead : List.Forall₂ R [m.pad ++ "- If " ++ question, m.deeper.pad ++ "then:"]
      [m'.pad ++ "- If " ++ question, m'.deeper.pad ++ "then:"] := by
    rw [String.append_assoc, String.append_assoc]
    exact .cons (h.text _) (.cons (h.deeper.text _) .nil)
  refine List.rel_append (List.rel_append hhead ?_) ?_
  · cases hthens with
    | nil => exact .cons h.nothing .nil
    | cons hfirst hrest => exact .cons hfirst hrest
  · cases bare with
    | true => exact .nil
    | false => exact .cons (h.deeper.text _) helses

mutual

/-- **A margin only goes in front.** Whatever holds between a text behind one margin and the same
text behind another holds line by line between a choice listed behind the one and behind the
other. -/
theorem Choice.lines_beside {m m' : Margin} (h : m.Beside R m') :
    ∀ c : Choice, Alike R (c.lines m) (c.lines m')
  | .template head payload => by
    rw [Choice.lines, Choice.lines]
    exact .single (Choice.headLine_beside h _)
  | .capture head payload => by
    rw [Choice.lines, Choice.lines]
    exact .single (Choice.headLine_beside h _)
  | .ofMacro head none => by
    rw [Choice.lines, Choice.lines]
    exact .ok (.cons (Choice.headLine_beside h _) (.cons (h.deeper.text _) .nil))
  | .ofMacro head (some b) => by
    rw [Choice.lines, Choice.lines]
    refine (Macro.bodyLines_beside h.deeper b).bind fun xs ys hxy => ?_
    exact .ok (.cons (Choice.headLine_beside h _) hxy)
  | .multi head cs true => by
    rw [Choice.lines, Choice.lines]
    exact .single (Choice.hiddenLine_beside h _ _)
  | .multi head cs false => by
    rw [Choice.lines, Choice.lines]
    refine (Choice.linesAll_beside h.deeper cs).bind fun xs ys hxy => ?_
    exact .ok (.cons (Choice.headLine_beside h _) hxy)

theorem Choice.linesAll_beside {m m' : Margin} (h : m.Beside R m') :
    ∀ cs : List Choice, Alike R (Choice.linesAll m cs) (Choice.linesAll m' cs)
  | [] => by
    rw [Choice.linesAll, Choice.linesAll]
    exact .ok .nil
  | c :: cs => by
    rw [Choice.linesAll, Choice.linesAll]
    refine (Choice.lines_beside h c).bind fun _ _ hfirst => ?_
    exact (Choice.linesAll_beside h cs).bind fun _ _ hrest => .ok (List.rel_append hfirst hrest)

theorem Macro.bodyLines_beside {m m' : Margin} (h : m.Beside R m') :
    ∀ b : Macro, Alike R (b.bodyLines m) (b.bodyLines m')
  | .mk id name cs startup => by
    rw [Macro.bodyLines, Macro.bodyLines]
    exact Command.linesAll_beside h cs

/-- The same for commands. -/
theorem Command.lines_beside {m m' : Margin} (h : m.Beside R m') :
    ∀ c : Command, Alike R (c.lines m) (c.lines m')
  | .nested head (some c) => by
    rw [Command.lines, Command.lines]
    refine (Choice.lines_beside h.deeper c).bind fun _ _ hinner => ?_
    exact .ok (.cons (Command.headLine_beside h _ _) hinner)
  | .conditional head c thens elses => by
    rw [Command.lines, Command.lines]
    refine .of_bind _ fun question => ?_
    refine (Command.linesAll_beside h.deeper.deeper thens).bind fun _ _ hthens => ?_
    refine (Command.linesAll_beside h.deeper.deeper elses).bind fun _ _ helses => ?_
    exact .ok (Command.branches_beside h question hthens helses _)
  | .host .. | .script .. | .choice .. | .nested _ none | .wait .. | .editor .. | .assistant ..
  | .openFile .. => by
    rw [Command.lines, Command.lines]
    exact .single (Command.headLine_beside h _ _)

theorem Command.linesAll_beside {m m' : Margin} (h : m.Beside R m') :
    ∀ cs : List Command, Alike R (Command.linesAll m cs) (Command.linesAll m' cs)
  | [] => by
    rw [Command.linesAll, Command.linesAll]
    exact .ok .nil
  | c :: cs => by
    rw [Command.linesAll, Command.linesAll]
    refine (Command.lines_beside h c).bind fun _ _ hfirst => ?_
    exact (Command.linesAll_beside h cs).bind fun _ _ hrest => .ok (List.rel_append hfirst hrest)

end

/-- The same for macros. -/
theorem Macro.lines_beside (h : m.Beside R m') (b : Macro) :
    Alike R (b.lines m) (b.lines m') := by
  rw [lines, lines]
  refine (bodyLines_beside h.deeper b).bind fun _ _ hbody => .ok (.cons ?_ hbody)
  rw [String.append_assoc, String.append_assoc]
  exact h.text _

end Beside

/-! ### Two margins -/

namespace Margin

variable {m : Margin}

theorem newline_not_mem_pad (m : Margin) : '\n' ∉ m.pad.toList := by
  simp [pad, unit, Text.repeated, String.toList_join, List.mem_flatMap, List.mem_replicate]

/-- Behind a margin that is further in there are more blanks in front. -/
theorem beside_further (hm : 0 ≤ m.level) (k : Nat) :
    m.Beside (fun s t => t = Text.repeated m.unit k ++ s) (m.further k) where
  level := hm
  level' := Int.add_nonneg hm (Int.natCast_nonneg k)
  texts j text := by
    have hlevel : 0 ≤ (m.further j).level := Int.add_nonneg hm (Int.natCast_nonneg j)
    rw [further_further, Nat.add_comm, ← further_further, pad_further hlevel, unit_further,
      String.append_assoc]

/-- A line without a new line in it has none behind another margin either. -/
theorem beside_newline {m' : Margin} (hm : 0 ≤ m.level) (hm' : 0 ≤ m'.level) :
    m.Beside (fun s t => '\n' ∉ s.toList → '\n' ∉ t.toList) m' where
  level := hm
  level' := hm'
  texts j text := by
    simp only [String.toList_append, List.mem_append, newline_not_mem_pad, false_or, imp_self]

end Margin

/-! ### There is a first line -/

private theorem ne_nil_of_bind {α : Type} {a : Except Fault α} {f : α → Except Fault (List String)}
    {ls : List String} (h : (a >>= f) = .ok ls) (hf : ∀ x, f x = .ok ls → ls ≠ []) : ls ≠ [] := by
  cases a with
  | error e => cases h
  | ok x => exact hf x h

private theorem cons_ne_nil_of_ok {first : String} {rest ls : List String}
    (h : (.ok (first :: rest) : Except Fault (List String)) = .ok ls) : ls ≠ [] := by
  cases h
  exact List.cons_ne_nil _ _

section First

variable {m : Margin} {ls : List String}

theorem Choice.lines_ne_nil {c : Choice} (h : c.lines m = .ok ls) : ls ≠ [] := by
  cases c with
  | template | capture => exact cons_ne_nil_of_ok (by rwa [lines] at h)
  | ofMacro _ body =>
    cases body with
    | none => exact cons_ne_nil_of_ok (by rwa [lines] at h)
    | some b =>
      rw [lines] at h
      exact ne_nil_of_bind h fun _ => cons_ne_nil_of_ok
  | multi _ cs collapsed =>
    cases collapsed with
    | true => exact cons_ne_nil_of_ok (by rwa [lines] at h)
    | false =>
      rw [lines] at h
      exact ne_nil_of_bind h fun _ => cons_ne_nil_of_ok

theorem Macro.lines_ne_nil {b : Macro} (h : b.lines m = .ok ls) : ls ≠ [] := by
  rw [lines] at h
  exact ne_nil_of_bind h fun _ => cons_ne_nil_of_ok

theorem Command.lines_ne_nil {c : Command} (h : c.lines m = .ok ls) : ls ≠ [] := by
  cases c with
  | nested _ inner =>
    cases inner with
    | none => exact cons_ne_nil_of_ok (by rwa [lines] at h)
    | some c =>
      rw [lines] at h
      exact ne_nil_of_bind h fun _ => cons_ne_nil_of_ok
  | conditional _ c thens elses =>
    rw [lines] at h
    refine ne_nil_of_bind h fun _ h => ne_nil_of_bind h fun _ h => ne_nil_of_bind h fun _ => ?_
    exact cons_ne_nil_of_ok
  | _ => exact cons_ne_nil_of_ok (by rwa [lines] at h)

end First

/-! ### Further in -/

/-- What is listed as a tree. -/
inductive Listed where
  | choice (c : Choice)
  | ofMacro (b : Macro)
  | command (c : Command)

/-- The lines of a text. -/
def Text.lines (s : String) : List String := (splitOn ['\n'] s.toList).map String.ofList

namespace Listed

/-- The lines of what is listed. -/
def lines (m : Margin) : Listed → Except Fault (List String)
  | choice c => c.lines m
  | ofMacro b => b.lines m
  | command c => c.lines m

/-- The listing as one text. -/
def listing (m : Margin) (x : Listed) : Except Fault String := (x.lines m).map joinLines

/-- What is printed has no new line in it: there is none in the lines without a margin, and these
are the texts that are printed. -/
def Unbroken (x : Listed) : Prop :=
  ∀ texts, x.lines ⟨0, 0⟩ = .ok texts → ∀ s ∈ texts, '\n' ∉ s.toList

variable {m m' : Margin} {x : Listed} {ls : List String}

theorem lines_beside (h : m.Beside R m') (x : Listed) : Alike R (x.lines m) (x.lines m') := by
  cases x with
  | choice c => exact c.lines_beside h
  | ofMacro b => exact b.lines_beside h
  | command c => exact c.lines_beside h

theorem lines_ne_nil (h : x.lines m = .ok ls) : ls ≠ [] := by
  cases x with
  | choice c => exact Choice.lines_ne_nil h
  | ofMacro b => exact Macro.lines_ne_nil h
  | command c => exact Command.lines_ne_nil h

/-- The lines further in are the same lines behind more blanks. -/
theorem lines_further (hm : 0 ≤ m.level) (k : Nat) (x : Listed) :
    x.lines (m.further k) = (x.lines m).map (List.map (Text.repeated m.unit k ++ ·)) := by
  have halike := x.lines_beside (Margin.beside_further hm k)
  generalize x.lines m = here at halike ⊢
  generalize x.lines (m.further k) = there at halike ⊢
  cases halike with
  | error f => rfl
  | ok h =>
    -- the relation is the graph of a function, so it holds between a list and its image only
    have heq := List.forall₂_map_left_iff.mpr (h.imp fun s t hst => hst.symm)
    rw [List.forall₂_eq_eq_eq] at heq
    exact congrArg Except.ok heq.symm

/-- What is printed without new lines has none behind any margin. -/
theorem Unbroken.newline_not_mem (hx : x.Unbroken) (hm : 0 ≤ m.level) (h : x.lines m = .ok ls) :
    ∀ s ∈ ls, '\n' ∉ s.toList := by
  have hlevel : 0 ≤ (⟨0, 0⟩ : Margin).level := Int.le_refl 0
  have halike := x.lines_beside (Margin.beside_newline hlevel hm)
  have htexts := hx
  rw [Unbroken] at htexts
  rw [h] at halike
  generalize x.lines ⟨0, 0⟩ = bare at halike htexts
  -- if the listing fails behind one margin it does so behind the other, and there are no lines
  cases halike with
  | ok hlines =>
    replace htexts := htexts _ rfl
    clear h
    induction hlines with
    | nil => exact List.forall_mem_nil _
    | cons hfirst _ ih =>
      obtain ⟨hs, hrest⟩ := List.forall_mem_cons.mp htexts
      exact List.forall_mem_cons.mpr ⟨hfirst hs, ih hrest⟩

/-- The lines of the listing as one text are its lines. -/
theorem listing_lines (hx : x.Unbroken) (hm : 0 ≤ m.level) :
    (x.listing m).map Text.lines = x.lines m := by
  rw [listing]
  generalize hls : x.lines m = here
  cases here with
  | error f => rfl
  | ok ls =>
    have hsplit := Text.splitOn_join_newline (lines_ne_nil hls) (hx.newline_not_mem hm hls)
    refine congrArg Except.ok ?_
    change (Text.splitOn ['\n'] (Text.join "\n" ls).toList).map String.ofList = ls
    rw [hsplit, List.map_map]
    exact (List.map_congr_left fun s _ => String.ofList_toList).trans (List.map_id _)

/-- **Listings shift with the level.** Let nothing that is printed of a choice, a macro or a command
have a new line in it. Then the lines of its listing from level `l + k` on are those of its listing
from level `l` on, each behind the blanks of `k` levels. If one of the two cannot be listed, the
other cannot be for the same reason. -/
theorem listing_further (hx : x.Unbroken) (width : Int) (l k : Nat) :
    (x.listing ⟨width, l + k⟩).map Text.lines =
      ((x.listing ⟨width, l⟩).map Text.lines).map
        (List.map (Text.repeated (Text.repeated " " width.toNat) k ++ ·)) := by
  have hl : 0 ≤ (⟨width, l⟩ : Margin).level := Int.natCast_nonneg l
  have hlk : 0 ≤ (⟨width, l + k⟩ : Margin).level := Int.add_nonneg hl (Int.natCast_nonneg k)
  rw [listing_lines hx hl, listing_lines hx hlk]
  exact lines_further hl k x

/-- A menu with a macro that asks a question and does nothing if the answer is yes, and with a menu
that does not show what is in it. -/
def agenda : Listed :=
  let head (name : String) : ChoiceHead := ⟨.text name, .text name, false⟩
  let question : Condition := .onVariable ⟨"late", .known .isTruthy, .boolean, none⟩
  let walk : Choice := .capture (head "Walk") []
  let morning : Macro := .mk (.text "m") (.text "Morning")
    [.conditional ⟨.text "If", .text "i"⟩ question [] [.nested ⟨.text "", .text "n"⟩ (some walk)]]
    false
  .choice (.multi (head "Day") [.ofMacro (head "Start") (some morning),
    .multi (head "More") [walk, walk] true] false)

theorem listing_further_agenda :
    agenda.Unbroken ∧ (agenda.listing ⟨2, 0 + 1⟩).map Text.lines = .ok
      ["  Multi: Day", "    Macro: Start", "      - If $late is truthy", "        then:",
        "          (nothing)", "        else:", "          - NestedChoice: NestedChoice",
        "            Capture: Walk", "    Multi: More (2 hidden)"] := by
  have hlist : agenda.lines ⟨0, 0⟩ = .ok
      ["Multi: Day", "Macro: Start", "- If $late is truthy", "then:", "(nothing)", "else:",
        "- NestedChoice: NestedChoice", "Capture: Walk", "Multi: More (2 hidden)"] := by
    with_unfolding_all rfl
  have hunbroken : agenda.Unbroken := by
    intro texts htexts
    rw [← Except.ok.inj (hlist.symm.trans htexts)]
    decide +kernel
  refine ⟨hunbroken, (listing_further hunbroken 2 0 1).trans ?_⟩
  rw [listing_lines hunbroken (Int.natCast_nonneg 0)]
  with_unfolding_all rfl

end Listed

end Choicebook
