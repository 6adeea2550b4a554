import Choicebook.Console.Host
import Choicebook.Proofs.Number.Numeral
import Choicebook.Proofs.Session.Act
import Choicebook.Proofs.Value.Plain

/-!
# Selecting in a console

A console shows a numbered list and reads lines until one of them settles the selection
(`Console.Settles`): it gives up, or it is the number of an item, or it is a label. Any other line
is rejected, and the console asks again.

The main theorem, `Console.runOn_suggest_settled`, is about all lines that are to come, the end of
the input among them. There is always a line that settles the selection, and the selection is what
the first such line says. There is one way for it to fail: a line of digits that is not a number
(`Text.IsMisleading`) is neither a number that is out of range nor rejected.
-/

namespace Choicebook

namespace Console

open Text (IsNumeral IsMisleading numeralValue trim)

/-! ### What a line says -/

/-- The line gives up. -/
def Cancels (line : String) : Prop := trim line = "" ∨ trim line = "q"

/-- The line is the number of one of so many items. -/
def Counts (count : Nat) (line : String) : Prop :=
  IsNumeral (trim line) ∧ 1 ≤ numeralValue (trim line) ∧ numeralValue (trim line) ≤ count

/-- A line that settles a selection, or the end of the input, and what comes of it: nothing, the
position of an item, or a fault. -/
inductive Settles (labels : List String) : Option String → Except Fault (Option Nat) → Prop where
  | ended : Settles labels none (.ok none)
  | cancelled {line : String} (h : Cancels line) : Settles labels (some line) (.ok none)
  | counted {line : String} (h : Counts labels.length line) :
    Settles labels (some line) (.ok (some (numeralValue (trim line) - 1)))
  /-- A label stands for the first item that has it. -/
  | labelled {line : String} (hcancels : ¬Cancels line) (hcounts : ¬Counts labels.length line)
    (hread : ¬IsMisleading (trim line)) (hlabel : trim line ∈ labels) :
    Settles labels (some line) (.ok (some (labels.idxOf (trim line))))
  | misread {line : String} (h : IsMisleading (trim line)) :
    Settles labels (some line) (.error (.misuse .badValue))

/-- A line that is rejected. -/
structure Rejects (labels : List String) (line : String) : Prop where
  goesOn : ¬Cancels line
  uncounted : ¬Counts labels.length line
  isRead : ¬IsMisleading (trim line)
  unlabelled : trim line ∉ labels

/-- A line of digits does not give up. -/
theorem not_cancels_of_allDigits {line : String} (h : Text.allDigits (trim line) = true) :
    ¬Cancels line := by
  obtain ⟨hne, hdigits⟩ := Text.allDigits_iff.mp h
  rintro (hempty | hq)
  · exact hne hempty
  · rw [hq] at hdigits
    exact absurd (hdigits 'q' List.mem_cons_self) (by decide)

/-- Every line settles the selection or is rejected. -/
theorem settles_or_rejects (labels : List String) (line : String) :
    (∃ result, Settles labels (some line) result) ∨ Rejects labels line := by
  by_cases hcancels : Cancels line
  · exact .inl ⟨_, .cancelled hcancels⟩
  by_cases hcounts : Counts labels.length line
  · exact .inl ⟨_, .counted hcounts⟩
  by_cases hread : IsMisleading (trim line)
  · exact .inl ⟨_, .misread hread⟩
  by_cases hlabel : trim line ∈ labels
  · exact .inl ⟨_, .labelled hcancels hcounts hread hlabel⟩
  · exact .inr ⟨hcancels, hcounts, hread, hlabel⟩

/-- Of the lines to come, some are rejected, and then a line or the end of the input settles the
selection. -/
inductive Settled (labels : List String) :
    List (Option String) → (rejected : List String) → Except Fault (Option Nat) → Prop where
  | now {lines : List (Option String)} {result : Except Fault (Option Nat)}
    (h : Settles labels (lines.headD none) result) : Settled labels lines [] result
  | later {line : String} {lines : List (Option String)} {rejected : List String}
    {result : Except Fault (Option Nat)} (h : Rejects labels line)
    (hrest : Settled labels lines rejected result) :
    Settled labels (some line :: lines) (line :: rejected) result

/-- Whatever the lines are, the selection is settled. -/
theorem exists_settled (labels : List String) (lines : List (Option String)) :
    ∃ rejected result, Settled labels lines rejected result := by
  induction lines with
  | nil => exact ⟨[], _, .now .ended⟩
  | cons line lines ih =>
    cases line with
    | none => exact ⟨[], _, .now .ended⟩
    | some line =>
      rcases settles_or_rejects labels line with ⟨result, h⟩ | h
      · exact ⟨[], result, .now h⟩
      · obtain ⟨rejected, result, hrest⟩ := ih
        exact ⟨line :: rejected, result, .later h hrest⟩

theorem Settled.length_rejected_le {labels : List String} {lines : List (Option String)}
    {rejected : List String} {result : Except Fault (Option Nat)}
    (h : Settled labels lines rejected result) : rejected.length ≤ lines.length := by
  induction h with
  | now => exact Nat.zero_le _
  | later _ _ ih => exact Nat.succ_le_succ ih

/-! ### What the console makes of an answer -/

/-- What is selected, if the answer is not a fault as a number. -/
theorem chosen?_of_position {labels : List Value} {count : Nat} {answer : String}
    {number : Option Nat} (h : Value.position? answer = .ok number) :
    chosen? labels count answer =
      match number.filter fun n => 1 ≤ n && n ≤ count with
      | some n => .ok (some (n - 1))
      | none =>
        match labels.findIdx? fun l => l.same (.text answer) with
        | none => .ok none
        | some i => if i < count then .ok (some i) else .error (.misuse .missingIndex) := by
  rw [chosen?, h]
  rfl

/-- An answer that is not a number in the range is looked for among the labels. -/
theorem chosen?_of_uncounted {labels : List String} {line : String}
    (hread : ¬IsMisleading (trim line)) (hcounts : ¬Counts labels.length line) :
    chosen? (labels.map .text) labels.length (trim line) = .ok (labels.idxOf? (trim line)) := by
  have hnumber : ∃ number, Value.position? (trim line) = .ok number ∧
      (number.filter fun n => 1 ≤ n && n ≤ labels.length) = none := by
    rcases Text.isNumeral_or_isMisleading (trim line) with h | h | h
    · refine ⟨_, Value.position?_of_isNumeral h, ?_⟩
      rw [Option.filter_some, if_neg]
      rw [Bool.and_eq_true, decide_eq_true_eq, decide_eq_true_eq]
      exact fun hrange => hcounts ⟨h, hrange⟩
    · exact absurd h hread
    · exact ⟨_, Value.position?_of_not_allDigits h, rfl⟩
  obtain ⟨number, hposition, hrange⟩ := hnumber
  have hlabels : (labels.map Value.text).findIdx? (fun l => l.same (.text (trim line))) =
      labels.idxOf? (trim line) := by
    have hsame : ∀ label : String,
        (Value.text label).same (.text (trim line)) = (label == trim line) := fun label => by
      rw [Bool.eq_iff_iff, Value.same_text_iff, Value.text.injEq, beq_iff_eq]
    rw [List.findIdx?_map, List.idxOf?]
    exact congrArg (fun p => List.findIdx? p labels) (funext hsame)
  have hbound : ∀ i, labels.idxOf? (trim line) = some i → i < labels.length := fun i hi =>
    (List.findIdx?_eq_some_iff_findIdx_eq.mp hi).1
  simp only [chosen?_of_position hposition, hrange, hlabels]
  cases hfound : labels.idxOf? (trim line) with
  | none => rfl
  | some i => exact if_pos (hbound i hfound)

theorem chosen?_of_counts (labels : List Value) {count : Nat} {line : String}
    (h : Counts count line) :
    chosen? labels count (trim line) = .ok (some (numeralValue (trim line) - 1)) := by
  have hrange : ((some (numeralValue (trim line))).filter fun n => 1 ≤ n && n ≤ count) =
      some (numeralValue (trim line)) := by
    rw [Option.filter_some, if_pos]
    rw [Bool.and_eq_true, decide_eq_true_eq, decide_eq_true_eq]
    exact h.2
  simp only [chosen?_of_position (Value.position?_of_isNumeral h.1), hrange]

theorem chosen?_of_isMisleading {labels : List Value} {count : Nat} {answer : String}
    (h : IsMisleading answer) : chosen? labels count answer = .error (.misuse .badValue) := by
  rw [chosen?, Value.position?_of_isMisleading h]
  rfl

/-! ### Asking -/

/-- The state after a text has been printed. -/
def printed (text : String) (s : Session Console) : Session Console :=
  { s with host := { s.host with output := s.host.output ++ text } }

theorem runOn_print (text : String) (s : Session Console) :
    (print text).runOn s = (.ok (), printed text s) := rfl

theorem printed_printed (text text' : String) (s : Session Console) :
    printed text' (printed text s) = printed (text ++ text') s := by
  simp only [printed, String.append_assoc]

theorem printed_empty (s : Session Console) : printed "" s = s := by
  simp only [printed, String.append_empty]

/-- What is printed in front of a line that is read. -/
def shownPrompt (s : Session Console) (prompt : String) : String :=
  if s.host.printsPrompts then prompt else ""

/-- Reading takes the next line, or finds the end of the input. -/
theorem runOn_readLine (prompt : String) (s : Session Console) :
    ∃ t, (readLine prompt).runOn s = (.ok (s.host.lines.headD none), t) ∧
      t.host.lines = s.host.lines.tail ∧ t.host.printsPrompts = s.host.printsPrompts ∧
      t.host.output = s.host.output ++ shownPrompt s prompt := by
  rw [readLine, Act.runOn_get_bind, shownPrompt]
  by_cases hprompts : s.host.printsPrompts = true
  · have hlines : (printed prompt s).host.lines = s.host.lines := rfl
    simp only [if_pos hprompts]
    rw [Act.runOn_bind_ok (runOn_print prompt s), nextLine, Act.runOn_get_bind, hlines]
    cases hlines : s.host.lines with
    | nil => exact ⟨_, rfl, hlines, rfl, rfl⟩
    | cons line rest => exact ⟨_, rfl, rfl, rfl, rfl⟩
  · have hnoted : (Act.note (.read prompt) : Act Console Unit).runOn s =
        (.ok (), s.note (.read prompt)) := rfl
    have hsame : (s.note (.read prompt)).host = s.host := rfl
    simp only [if_neg hprompts]
    rw [Act.runOn_bind_ok hnoted, nextLine, Act.runOn_get_bind, hsame]
    cases hlines : s.host.lines with
    | nil => exact ⟨_, rfl, hlines, rfl, String.append_empty.symm⟩
    | cons line rest => exact ⟨_, rfl, rfl, rfl, String.append_empty.symm⟩

/-- What the console has to say to a line that is rejected. -/
def rejection (line : String) : String := "Invalid selection: " ++ trim line ++ "\n"

private theorem cancels_iff (line : String) :
    (decide (trim line = "") || decide (trim line = "q")) = true ↔ Cancels line := by
  rw [Bool.or_eq_true, decide_eq_true_eq, decide_eq_true_eq, Cancels]

private theorem idxOf?_of_mem {labels : List String} {label : String} (h : label ∈ labels) :
    labels.idxOf? label = some (labels.idxOf label) :=
  List.findIdx?_eq_some_iff_findIdx_eq.mpr ⟨List.idxOf_lt_length_of_mem h, rfl⟩

/-- A line that settles the selection ends the questions. -/
theorem runOn_askUntilChosen_settles {labels : List String} {line : Option String}
    {result : Except Fault (Option Nat)} (h : Settles labels line result) (fuel : Nat)
    {s t : Session Console} (hread : (readLine "> ").runOn s = (.ok line, t)) :
    (askUntilChosen (labels.map .text) labels.length (fuel + 1)).runOn s = (result, t) := by
  rw [askUntilChosen, Act.runOn_bind_ok hread, onAnswer]
  cases h with
  | ended => rfl
  | cancelled hcancels => simp only [Option.getD_some, if_pos ((cancels_iff _).mpr hcancels)]; rfl
  | counted hcounts =>
    simp only [Option.getD_some,
      if_neg (mt (cancels_iff _).mp (not_cancels_of_allDigits hcounts.1.allDigits)),
      chosen?_of_counts (labels.map .text) hcounts]
    rfl
  | labelled hcancels hcounts hmisread hlabel =>
    simp only [Option.getD_some, if_neg (mt (cancels_iff _).mp hcancels),
      chosen?_of_uncounted hmisread hcounts, idxOf?_of_mem hlabel]
    rfl
  | misread hmisread =>
    simp only [Option.getD_some,
      if_neg (mt (cancels_iff _).mp (not_cancels_of_allDigits hmisread.1)),
      chosen?_of_isMisleading hmisread]
    rfl

/-- After a line that is rejected, the console says so and asks again. -/
theorem runOn_askUntilChosen_rejects {labels : List String} {line : String}
    (h : Rejects labels line) (fuel : Nat) {s t : Session Console}
    (hread : (readLine "> ").runOn s = (.ok (some line), t)) :
    (askUntilChosen (labels.map .text) labels.length (fuel + 1)).runOn s =
      (askUntilChosen (labels.map .text) labels.length fuel).runOn
        (printed (rejection line) t) := by
  rw [askUntilChosen, Act.runOn_bind_ok hread, onAnswer]
  simp only [Option.getD_some, if_neg (mt (cancels_iff _).mp h.goesOn),
    chosen?_of_uncounted h.isRead h.uncounted, List.idxOf?_eq_none_iff.mpr h.unlabelled]
  rfl

/-- The console asks until the selection is settled. -/
theorem runOn_askUntilChosen {labels : List String} {lines : List (Option String)}
    {rejected : List String} {result : Except Fault (Option Nat)}
    (h : Settled labels lines rejected result) {fuel : Nat} (hfuel : rejected.length < fuel)
    {s : Session Console} (hs : s.host.lines = lines) :
    ∃ t, (askUntilChosen (labels.map .text) labels.length fuel).runOn s = (result, t) ∧
      t.host.lines = lines.drop (rejected.length + 1) ∧
      t.host.output = s.host.output ++
        String.join (rejected.map fun line => shownPrompt s "> " ++ rejection line) ++
        shownPrompt s "> " := by
  obtain ⟨fuel, rfl⟩ := Nat.exists_eq_succ_of_ne_zero (Nat.ne_zero_of_lt hfuel)
  induction h generalizing s fuel with
  | now h =>
    subst hs
    obtain ⟨t, hread, hlines, -, houtput⟩ := runOn_readLine "> " s
    refine ⟨t, runOn_askUntilChosen_settles h fuel hread, ?_, ?_⟩
    · rw [hlines, List.length_nil, List.drop_one]
    · rw [houtput, List.map_nil, String.join_nil, String.append_empty]
  | @later line lines rejected result h hrest ih =>
    obtain ⟨t, hread, hlines, hprompts, houtput⟩ := runOn_readLine "> " s
    rw [hs] at hread hlines
    obtain ⟨fuel, rfl⟩ := Nat.exists_eq_succ_of_ne_zero
      (Nat.ne_zero_of_lt (Nat.lt_of_succ_lt_succ hfuel))
    obtain ⟨u, hrun, hleft, hprinted⟩ :=
      ih (s := printed (rejection line) t) hlines fuel (Nat.lt_of_succ_lt_succ hfuel)
    have hshown : shownPrompt (printed (rejection line) t) "> " = shownPrompt s "> " :=
      congrArg (fun b : Bool => if b then "> " else "") hprompts
    have hsaid : (printed (rejection line) t).host.output = t.host.output ++ rejection line := rfl
    refine ⟨u, (runOn_askUntilChosen_rejects h _ hread).trans hrun, ?_, ?_⟩
    · rw [hleft, List.length_cons, List.drop_succ_cons]
    · rw [hprinted, hshown, hsaid, houtput, List.map_cons, String.join_cons]
      simp only [String.append_assoc]

/-! ### The list of items -/

/-- One item of the numbered list. -/
def menuLine (label : String) (i : Nat) : String :=
  "  " ++ toString (i + 1) ++ ". " ++ label ++ "\n"

/-- What is printed before the first question. -/
def menu (labels : List String) (placeholder : Value) : String :=
  (if placeholder.isTruthy then placeholder.display ++ "\n" else "") ++
    String.join (labels.zipIdx.map fun item => menuLine item.1 item.2)

/-- The list is printed line by line. -/
private theorem runOn_printMenu (labels : List String) (first : Nat) (s : Session Console) :
    (forIn ((labels.map Value.text).zipIdx first) PUnit.unit fun x _ =>
      match x with
      | (label, i) => do
        printLine ("  " ++ toString (i + 1) ++ ". " ++ label.display)
        pure (ForInStep.yield PUnit.unit) : Act Console PUnit).runOn s =
      (.ok (), printed (String.join ((labels.zipIdx first).map fun item =>
        menuLine item.1 item.2)) s) := by
  induction labels generalizing first s with
  | nil => exact congrArg (Prod.mk _) (printed_empty s).symm
  | cons label labels ih =>
    have hline : (printLine ("  " ++ toString (first + 1) ++ ". " ++
        (Value.text label).display)).runOn s = (.ok (), printed (menuLine label first) s) := rfl
    rw [List.map_cons, List.zipIdx_cons, List.forIn_cons]
    dsimp only
    rw [bind_assoc, Act.runOn_bind_ok hline, pure_bind]
    dsimp only
    rw [ih, printed_printed, List.zipIdx_cons, List.map_cons, String.join_cons]

theorem runOn_showItems (labels : List String) (placeholder : Value) (s : Session Console) :
    (showItems (labels.map .text) placeholder).runOn s =
      (.ok (), printed (menu labels placeholder) s) := by
  rw [showItems, menu]
  split
  · have hheader : (printLine placeholder.display).runOn s =
        (.ok (), printed (placeholder.display ++ "\n") s) := rfl
    dsimp only
    rw [Act.runOn_bind_ok hheader, Act.runOn_bind_ok (runOn_printMenu labels 0 _),
      Act.runOn_pure, printed_printed]
  · dsimp only
    rw [Act.runOn_bind_ok (runOn_printMenu labels 0 s), Act.runOn_pure, String.empty_append]

theorem runOn_suggest_eq (labels : List String) (placeholder : Value) (s : Session Console) :
    (suggest (labels.map .text) labels.length placeholder).runOn s =
      (askUntilChosen (labels.map .text) labels.length (s.host.lines.length + 1)).runOn
        (printed (menu labels placeholder) s) := by
  rw [suggest, Act.runOn_bind_ok (runOn_showItems labels placeholder s), Act.runOn_get_bind]
  rfl

/-- What is selected is the position of an item. -/
theorem Settles.lt_length {labels : List String} {line : Option String}
    {result : Except Fault (Option Nat)} (h : Settles labels line result) {i : Nat}
    (hi : result = .ok (some i)) : i < labels.length := by
  cases h with
  | ended => cases hi
  | cancelled => cases hi
  | counted h =>
    have hvalue := Option.some.inj (Except.ok.inj hi)
    have hrange := h.2
    omega
  | labelled _ _ _ hlabel =>
    rw [← Option.some.inj (Except.ok.inj hi)]
    exact List.idxOf_lt_length_of_mem hlabel
  | misread => cases hi

theorem Settled.lt_length {labels : List String} {lines : List (Option String)}
    {rejected : List String} {result : Except Fault (Option Nat)}
    (h : Settled labels lines rejected result) {i : Nat} (hi : result = .ok (some i)) :
    i < labels.length := by
  induction h with
  | now h => exact h.lt_length hi
  | later _ _ ih => exact ih hi

/-- **A selection in a console is what the first line says that settles it.** Whatever the lines
are, some of them are rejected, and then one of them or the end of the input settles the selection.
Then this is what comes of the selection: the user has given up, an item is selected by its number
or by its label, or the line is a fault. The console has read no further, and it has printed the
list, an answer to each line that it has rejected, and a prompt in front of each line. -/
theorem runOn_suggest_settled (labels : List String) (placeholder : Value) (s : Session Console) :
    (∃ rejected result, Settled labels s.host.lines rejected result) ∧
    ∀ rejected result, Settled labels s.host.lines rejected result →
      (∀ i, result = .ok (some i) → i < labels.length) ∧
      ∃ t, (suggest (labels.map .text) labels.length placeholder).runOn s = (result, t) ∧
        t.host.lines = s.host.lines.drop (rejected.length + 1) ∧
        t.host.output = s.host.output ++ menu labels placeholder ++
          String.join (rejected.map fun line => shownPrompt s "> " ++ rejection line) ++
          shownPrompt s "> " := by
  refine ⟨exists_settled labels s.host.lines, fun rejected result h => ⟨?_, ?_⟩⟩
  · exact fun i => h.lt_length
  · -- each answer takes a line, so the fuel is enough
    rw [runOn_suggest_eq]
    exact runOn_askUntilChosen (s := printed (menu labels placeholder) s) h
      (Nat.lt_succ_of_le h.length_rejected_le) rfl

/-- A session in a console with some lines to come. -/
def withLines (lines : List (Option String)) : Session Console :=
  .start .preset .empty .start (.start ⟨2024, 1, 1⟩ .here (.empty [] []) lines true)

/-- An answer is rejected, and the next one is a number, with blanks around it and in the digits of
another script. -/
theorem runOn_suggest_settled_second :
    ∃ t, (suggest [.text "ant", .text "bee"] 2 (.text "Which?")).runOn
        (withLines [some "wasp", some " ٢ ", some "1"]) = (.ok (some 1), t) ∧
      t.host.lines = [some "1"] ∧
      t.host.output = menu ["ant", "bee"] (.text "Which?") ++ "> " ++ rejection "wasp" ++ "> " := by
  have hwasp : trim "wasp" = "wasp" := by decide +kernel
  have htwo : trim " ٢ " = "٢" := by decide +kernel
  have hnumeral : IsNumeral "٢" := by decide
  have hvalue : numeralValue "٢" = 2 := by decide
  have hnot : Text.allDigits "wasp" = false := by decide
  have hrejects : Rejects ["ant", "bee"] "wasp" := by
    refine ⟨?_, ?_, ?_, ?_⟩
    · rw [Cancels, hwasp]
      decide
    · intro h
      have hdigits := h.1.allDigits
      rw [hwasp, hnot] at hdigits
      cases hdigits
    · intro h
      have hdigits := h.1
      rw [hwasp, hnot] at hdigits
      cases hdigits
    · rw [hwasp]
      decide
  have hsettles : Settles ["ant", "bee"] (some " ٢ ") (.ok (some 1)) := by
    have hcounts : Counts 2 " ٢ " := by
      rw [Counts, htwo, hvalue]
      exact ⟨hnumeral, by decide, by decide⟩
    have h : Settles ["ant", "bee"] (some " ٢ ") (.ok (some (numeralValue (trim " ٢ ") - 1))) :=
      .counted hcounts
    rwa [htwo, hvalue] at h
  have hsettled : Settled ["ant", "bee"] (withLines [some "wasp", some " ٢ ", some "1"]).host.lines
      ["wasp"] (.ok (some 1)) := .later hrejects (.now hsettles)
  obtain ⟨-, t, hrun, hlines, houtput⟩ :=
    (runOn_suggest_settled ["ant", "bee"] (.text "Which?") _).2 _ _ hsettled
  refine ⟨t, hrun, hlines, houtput.trans ?_⟩
  have hblank : (withLines [some "wasp", some " ٢ ", some "1"]).host.output = "" := rfl
  have hshown : shownPrompt (withLines [some "wasp", some " ٢ ", some "1"]) "> " = "> " := rfl
  rw [hblank, hshown, List.map_singleton, String.join_cons, String.join_nil, String.append_empty,
    String.empty_append]
  simp only [String.append_assoc]

/-- A digit that is raised is neither a number nor rejected, although there is an answer to come. -/
theorem runOn_suggest_raised_digit :
    ((suggest [.text "ant"] 1 .null).runOn (withLines [some "²", some "1"])).1 =
      .error (.misuse .badValue) := by
  rfl

end Console

end Choicebook
