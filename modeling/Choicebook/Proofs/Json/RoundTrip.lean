import Mathlib.Data.List.Forall2
import Choicebook.Proofs.Json.Scalars
import Choicebook.Proofs.Value.Plain

/-!
# JSON that is read back

A text that is written for a value is read as that value at the front of whatever it stands in
(`Json.ReadBack`), as long as what follows is no more of a number. For names, numbers and texts this
is a matter of their characters. For containers it is a matter of their parts: lists and mappings
are read part by part in the same way, so what is shown of them is shown once, for any sort of
container that obeys a few laws (`Json.Container.Lawful`).

The readers take the number of steps they may make. Each step uses up a character, so the length of
the text is always enough.

JSON has a form of its own for some values (`Json.Native`), and all of these are read back in either
style (`Json.Native.exists_write`, `Json.ReadBack.read_eq`), as long as no whole number in them is too
long (`Json.Native.write_of_not_isWritable`).
-/

namespace Choicebook.Json

variable {rest gap : List Char}

/-! ### Blanks -/

theorem skip_blanks (h : ∀ c ∈ gap, isSpace c = true) {c : Char} (hc : isSpace c = false) :
    skip (gap ++ c :: rest) = c :: rest := by
  rw [skip, List.dropWhile_append_of_pos h, List.dropWhile_cons_of_neg (by simp [hc])]

/-- Neither a blank nor the end of a part is taken for more of a number. -/
theorem Ends.of_blanks (h : ∀ c ∈ gap, isSpace c = true) {c : Char}
    (hc : c = ',' ∨ c = ']' ∨ c = '\x7d') : Ends (gap ++ c :: rest) := by
  cases gap with
  | nil =>
    rintro d ⟨⟩
    rcases hc with rfl | rfl | rfl
    · decide
    · decide
    · decide
  | cons d gap =>
    rintro _ ⟨⟩
    have hd := h d List.mem_cons_self
    simp only [isSpace, Bool.or_eq_true, decide_eq_true_eq] at hd
    rcases hd with ((rfl | rfl) | rfl) | rfl
    · decide
    · decide
    · decide
    · decide

theorem Ends.comma (rest : List Char) : Ends (',' :: rest) :=
  Ends.of_blanks (List.forall_mem_nil _) (.inl rfl)

theorem skip_comma (rest : List Char) : skip (',' :: rest) = ',' :: rest :=
  skip_blanks (List.forall_mem_nil _) rfl

namespace Style

private theorem blank_line (n : Nat) :
    ∀ c ∈ ("\n" ++ String.ofList (List.replicate n ' ')).toList, isSpace c = true := by
  rw [String.toList_append, List.forall_mem_append]
  refine ⟨List.forall_mem_singleton.mpr rfl, fun c hc => ?_⟩
  rw [String.toList_ofList] at hc
  obtain rfl := List.eq_of_mem_replicate hc
  rfl

theorem blank_opening (style : Style) : ∀ c ∈ style.opening.toList, isSpace c = true := by
  cases style with
  | oneLine => exact List.forall_mem_nil _
  | lines level => exact blank_line _

theorem blank_closing (style : Style) : ∀ c ∈ style.closing.toList, isSpace c = true := by
  cases style with
  | oneLine => exact List.forall_mem_nil _
  | lines level => exact blank_line _

/-- Parts are set apart by a comma and blanks. -/
theorem exists_between (style : Style) :
    ∃ blanks, style.between.toList = ',' :: blanks ∧ ∀ c ∈ blanks, isSpace c = true := by
  cases style with
  | oneLine => exact ⟨[' '], rfl, List.forall_mem_singleton.mpr rfl⟩
  | lines level =>
    refine ⟨_, ?_, blank_line (2 * (level + 1))⟩
    rw [between, String.toList_append, String.toList_append]
    rfl

end Style

/-! ### Values that are read back -/

/-- A text that is read as the value at the front of whatever it stands in, and that begins with
neither a blank nor a bracket that closes. -/
structure ReadBack (v : Value) (s : String) : Prop where
  front : ∃ c cs, s.toList = c :: cs ∧ isSpace c = false ∧ c ≠ ']'
  read (fuel : Nat) (hfuel : s.toList.length ≤ fuel) (rest : List Char) (hrest : Ends rest) :
    readValue fuel (s.toList ++ rest) = .ok (v, rest)

namespace ReadBack

variable {v : Value} {s : String}

/-- What is neither a text nor a container is read as a name or a number. -/
theorem of_scalar (c : Char) (cs : List Char) (hcons : s.toList = c :: cs)
    (hspace : isSpace c = false) (hc : c ≠ ']' ∧ c ≠ '"' ∧ c ≠ '[' ∧ c ≠ '\x7b')
    (h : ∀ rest, Ends rest → readScalar (s.toList ++ rest) = .ok (v, rest)) : ReadBack v s where
  front := ⟨c, cs, hcons, hspace, hc.1⟩
  read fuel hfuel rest hrest := by
    have hread := h rest hrest
    rw [hcons, List.length_cons] at hfuel
    obtain ⟨fuel, rfl⟩ := Nat.exists_eq_succ_of_ne_zero (Nat.ne_zero_of_lt hfuel)
    rw [hcons, List.cons_append] at hread ⊢
    rw [readValue]
    · exact hread
    · rintro rest ⟨⟩
      exact hc.2.1 rfl
    · rintro rest ⟨⟩
      exact hc.2.2.1 rfl
    · rintro rest ⟨⟩
      exact hc.2.2.2 rfl

theorem null : ReadBack .null "null" :=
  of_scalar 'n' "ull".toList rfl rfl (by decide) fun rest _ => by
    simp [readScalar, names, afterName?]

theorem bool (b : Bool) : ReadBack (.bool b) (if b then "true" else "false") := by
  cases b with
  | true =>
    exact of_scalar 't' "rue".toList rfl rfl (by decide) fun rest _ => by
      simp [readScalar, names, afterName?]
  | false =>
    exact of_scalar 'f' "alse".toList rfl rfl (by decide) fun rest _ => by
      simp [readScalar, names, afterName?]

theorem int {n : Int} (h : Number.isWritable n = true) : ReadBack (.int n) (toString n) := by
  obtain ⟨c, cs, hcons, hc⟩ := Text.LeadsNumber.int n
  have hother (d : Char) (hd : d.isDigit = false ∧ d ≠ '-') : c ≠ d := by
    rintro rfl
    rcases hc with hc | hc
    · exact Bool.false_ne_true (hd.1.symm.trans hc)
    · exact hd.2 hc
  have hspace : isSpace c = false := by
    simp [isSpace, hother ' ' (by decide), hother '\t' (by decide), hother '\n' (by decide),
      hother '\r' (by decide)]
  exact of_scalar c cs hcons hspace ⟨hother ']' (by decide), hother '"' (by decide),
    hother '[' (by decide), hother '\x7b' (by decide)⟩ fun rest hrest => readScalar_int h hrest

end ReadBack

theorem toList_writeText (s : String) :
    (writeText s).toList = '"' :: (s.toList.flatMap writeChar ++ ['"']) := by
  rw [writeText, String.toList_ofList]

/-- A text between quotes is read back, whatever follows. -/
theorem readText_toList (s : String) (rest : List Char) :
    readText ((s.toList.flatMap writeChar ++ '"' :: rest).length + 1) []
      (s.toList.flatMap writeChar ++ '"' :: rest) = some (s, rest) := by
  have hlength := length_le_length_flatMap s.toList
  rw [readText_writeText, List.reverse_nil, List.nil_append, String.ofList_toList]
  rw [List.length_append]
  omega

theorem ReadBack.text (s : String) : ReadBack (.text s) (writeText s) where
  front := ⟨'"', _, toList_writeText s, rfl, by decide⟩
  read fuel hfuel rest hrest := by
    rw [toList_writeText, List.length_cons] at hfuel
    obtain ⟨fuel, rfl⟩ := Nat.exists_eq_succ_of_ne_zero (Nat.ne_zero_of_lt hfuel)
    rw [toList_writeText, List.cons_append, List.append_assoc, List.singleton_append, readValue,
      readText_toList]
    rfl

/-! ### Containers -/

/-- A sort of containers: the brackets around their parts, how the parts are read up to the closing
bracket, what they make, and which texts are read back as a part. -/
structure Container (α : Type) where
  left : Char
  right : Char
  readParts : (fuel : Nat) → List Char → Except Problem (List α × List Char)
  make : List α → Value
  Back : α → String → Prop

/-- Containers of a sort are read part by part. -/
structure Container.Lawful {α : Type} (k : Container α) : Prop where
  left : isSpace k.left = false ∧ k.left ≠ ']'
  right : k.right = ']' ∨ k.right = '\x7d'
  front {x : α} {s : String} (h : k.Back x s) :
    ∃ c cs, s.toList = c :: cs ∧ isSpace c = false ∧ c ≠ k.right
  /-- The last part is followed by the bracket. -/
  last {x : α} {s : String} (h : k.Back x s) {fuel : Nat} (hfuel : s.toList.length ≤ fuel)
    {rest tail : List Char} (hrest : Ends rest) (hskip : skip rest = k.right :: tail) :
    k.readParts (fuel + 1) (s.toList ++ rest) = .ok ([x], tail)
  /-- Any other part is followed by a comma. -/
  next {x : α} {s : String} (h : k.Back x s) {fuel : Nat} (hfuel : s.toList.length ≤ fuel)
    {rest more : List Char} (hrest : Ends rest) (hskip : skip rest = ',' :: more)
    {xs : List α} {tail : List Char} (hmore : k.readParts fuel (skip more) = .ok (xs, tail)) :
    k.readParts (fuel + 1) (s.toList ++ rest) = .ok (x :: xs, tail)
  empty (fuel : Nat) (tail : List Char) :
    readValue (fuel + 1) (k.left :: k.right :: tail) = .ok (k.make [], tail)
  opened (fuel : Nat) {c : Char} {cs tail : List Char} (hskip : skip tail = c :: cs)
    (hc : c ≠ k.right) : readValue (fuel + 1) (k.left :: tail) =
      (k.readParts fuel (c :: cs)).map fun r => (k.make r.1, r.2)

/-- What is joined begins like the first part. -/
private theorem front_intercalate (between s : String) (parts : List String) :
    ∃ more, (between.intercalate (s :: parts)).toList = s.toList ++ more := by
  cases parts with
  | nil => exact ⟨[], by rw [String.intercalate_singleton, List.append_nil]⟩
  | cons t parts =>
    refine ⟨between.toList ++ (between.intercalate (t :: parts)).toList, ?_⟩
    rw [String.intercalate_cons_cons, String.toList_append, String.toList_append,
      List.append_assoc]

section

variable (style : Style) {parts : List String}

private theorem toList_bracket_nil (left right : String) :
    (bracket style left right []).toList = left.toList ++ right.toList := by
  rw [bracket, if_pos List.isEmpty_nil, String.toList_append]

private theorem toList_bracket (left right : String) (hne : parts ≠ []) :
    (bracket style left right parts).toList = left.toList ++ (style.opening.toList ++
      ((style.between.intercalate parts).toList ++ (style.closing.toList ++ right.toList))) := by
  rw [bracket, if_neg (by simpa using hne)]
  simp only [String.toList_append, List.append_assoc]

end

namespace Container.Lawful

variable {α : Type} {k : Container α} {xs : List α} {parts : List String} {fuel : Nat}

theorem isSpace_right (hk : k.Lawful) : isSpace k.right = false := by
  rcases hk.right with h | h
  · rw [h]
    rfl
  · rw [h]
    rfl

/-- Parts that are read back, with what stands between them, are read back up to the bracket. -/
theorem readParts_intercalate (hk : k.Lawful) (style : Style) (h : List.Forall₂ k.Back xs parts)
    (hne : xs ≠ []) (hgap : ∀ c ∈ gap, isSpace c = true)
    (hfuel : (style.between.intercalate parts).toList.length < fuel) (rest : List Char) :
    k.readParts fuel ((style.between.intercalate parts).toList ++ (gap ++ k.right :: rest)) =
      .ok (xs, rest) := by
  -- a part needs at least one character, so what is left of the fuel is enough for the others
  induction h generalizing fuel with
  | nil => exact absurd rfl hne
  | @cons x s xs parts hx hxs ih =>
    obtain ⟨fuel, rfl⟩ := Nat.exists_eq_succ_of_ne_zero (Nat.ne_zero_of_lt hfuel)
    cases hxs with
    | nil =>
      rw [String.intercalate_singleton] at hfuel ⊢
      exact hk.last hx (by omega) (Ends.of_blanks hgap (.inr hk.right))
        (skip_blanks hgap hk.isSpace_right)
    | @cons y t ys parts hy hys =>
      obtain ⟨blanks, hbetween, hblanks⟩ := style.exists_between
      obtain ⟨more, hmore⟩ := front_intercalate style.between t parts
      obtain ⟨c, cs, hcons, hspace, -⟩ := hk.front hy
      rw [String.intercalate_cons_cons, String.toList_append, String.toList_append, hbetween,
        List.length_append, List.length_append, List.length_cons] at hfuel
      have hskip : skip (blanks ++ ((style.between.intercalate (t :: parts)).toList ++
          (gap ++ k.right :: rest))) =
          (style.between.intercalate (t :: parts)).toList ++ (gap ++ k.right :: rest) := by
        rw [hmore, hcons]
        exact skip_blanks hblanks hspace
      rw [String.intercalate_cons_cons, String.toList_append, String.toList_append, hbetween]
      simp only [List.append_assoc, List.cons_append]
      refine hk.next hx (by omega) (Ends.comma _) (skip_comma _) ?_
      rw [hskip]
      exact ih (List.cons_ne_nil _ _) (by omega)

/-- A container is read back if its parts are. -/
theorem readBack (hk : k.Lawful) (style : Style) (left right : String)
    (hleft : left.toList = [k.left]) (hright : right.toList = [k.right])
    (h : List.Forall₂ k.Back xs parts) : ReadBack (k.make xs) (bracket style left right parts) := by
  cases h with
  | nil =>
    have htext := toList_bracket_nil style left right
    rw [hleft, hright] at htext
    refine ⟨⟨k.left, _, htext, hk.left⟩, fun fuel hfuel rest hrest => ?_⟩
    rw [htext] at hfuel ⊢
    obtain ⟨fuel, rfl⟩ := Nat.exists_eq_succ_of_ne_zero (Nat.ne_zero_of_lt hfuel)
    exact hk.empty fuel rest
  | @cons x s xs parts hx hxs =>
    have htext := toList_bracket style left right (List.cons_ne_nil s parts)
    rw [hleft, hright, List.singleton_append] at htext
    refine ⟨⟨k.left, _, htext, hk.left⟩, fun fuel hfuel rest hrest => ?_⟩
    rw [htext] at hfuel ⊢
    simp only [List.length_cons, List.length_append, List.length_nil] at hfuel
    obtain ⟨fuel, rfl⟩ := Nat.exists_eq_succ_of_ne_zero (Nat.ne_zero_of_lt hfuel)
    have hparts := hk.readParts_intercalate style (.cons hx hxs) (List.cons_ne_nil x xs)
      style.blank_closing (by omega : _ < fuel) rest
    obtain ⟨c, cs, hcons, hspace, hbracket⟩ := hk.front hx
    obtain ⟨more, hmore⟩ := front_intercalate style.between s parts
    simp only [hmore, hcons, List.append_assoc, List.cons_append, List.nil_append] at hparts ⊢
    rw [hk.opened fuel (skip_blanks style.blank_opening hspace) hbracket, hparts]
    rfl

end Container.Lawful

/-! ### Lists and mappings -/

/-- Lists. -/
def items : Container Value := ⟨'[', ']', readItems, .list, ReadBack⟩

theorem items_lawful : items.Lawful where
  left := by decide
  right := .inl rfl
  front h := h.front
  last h fuel hfuel rest tail hrest hskip := by
    change readItems (fuel + 1) _ = _
    change skip rest = ']' :: tail at hskip
    rw [readItems, h.read fuel hfuel rest hrest]
    simp only [hskip]
  next h fuel hfuel rest more hrest hskip xs tail hmore := by
    change readItems fuel (skip more) = _ at hmore
    change readItems (fuel + 1) _ = _
    rw [readItems, h.read fuel hfuel rest hrest]
    simp only [hskip, hmore]
  empty _ _ := rfl
  opened fuel c cs tail hskip hc := by
    change readValue (fuel + 1) ('[' :: tail) = _
    rw [readValue, hskip]
    split
    · next heq => exact absurd (List.cons.inj heq).1 hc
    · rfl

private theorem toList_entry (key value : String) : (writeText key ++ ": " ++ value).toList =
    '"' :: (key.toList.flatMap writeChar ++ '"' :: ':' :: ' ' :: value.toList) := by
  have hcolon : ": ".toList = [':', ' '] := rfl
  rw [String.toList_append, String.toList_append, toList_writeText, hcolon]
  simp only [List.cons_append, List.append_assoc, List.nil_append]

/-- A text that is read as an entry, whose key is a text. -/
inductive EntryBack : Value × Value → String → Prop
  | intro (key : String) {v : Value} {value : String} (h : ReadBack v value) :
      EntryBack (.text key, v) (writeText key ++ ": " ++ value)

namespace EntryBack

variable {e : Value × Value} {s : String}

theorem front (h : EntryBack e s) :
    ∃ c cs, s.toList = c :: cs ∧ isSpace c = false ∧ c ≠ '\x7d' := by
  cases h with
  | intro key h => exact ⟨'"', _, toList_entry key _, rfl, by decide⟩

/-- An entry at the front is a key between quotes, a colon and a value. -/
theorem read (h : EntryBack e s) {fuel : Nat} (hfuel : s.toList.length ≤ fuel) {rest : List Char}
    (hrest : Ends rest) : ∃ key afterQuote afterKey afterColon,
      s.toList ++ rest = '"' :: afterQuote ∧
      readText (afterQuote.length + 1) [] afterQuote = some (key, afterKey) ∧
      skip afterKey = ':' :: afterColon ∧
      readValue fuel (skip afterColon) = .ok (e.2, rest) ∧ e.1 = .text key := by
  cases h with
  | @intro key v value hvalue =>
    obtain ⟨c, cs, hcons, hspace, -⟩ := hvalue.front
    have htext := toList_entry key value
    rw [htext] at hfuel
    simp only [List.length_cons, List.length_append] at hfuel
    have hblank : skip (' ' :: (value.toList ++ rest)) = value.toList ++ rest := by
      rw [hcons]
      exact skip_blanks (List.forall_mem_singleton.mpr rfl) hspace
    refine ⟨key, _, ':' :: ' ' :: (value.toList ++ rest), ' ' :: (value.toList ++ rest), ?_,
      readText_toList key _, skip_blanks (List.forall_mem_nil _) rfl, ?_, rfl⟩
    · rw [htext]
      simp only [List.cons_append, List.append_assoc]
    · rw [hblank]
      exact hvalue.read fuel (by omega) rest hrest

end EntryBack

/-- Mappings. -/
def entries : Container (Value × Value) :=
  ⟨'\x7b', '\x7d', readEntries, fun es => .map (Entries.ofPairs es), EntryBack⟩

theorem entries_lawful : entries.Lawful where
  left := by decide
  right := .inr rfl
  front h := h.front
  last {e s} h fuel hfuel rest tail hrest hskip := by
    obtain ⟨k, v⟩ := e
    obtain ⟨key, _, _, _, hs, hkey, hcolon, hvalue, rfl⟩ := h.read hfuel hrest
    change skip rest = '\x7d' :: tail at hskip
    change readEntries (fuel + 1) _ = _
    rw [hs, readEntries, hkey]
    simp only [hcolon, hvalue, hskip]
  next {e s} h fuel hfuel rest more hrest hskip xs tail hmore := by
    obtain ⟨k, v⟩ := e
    obtain ⟨key, _, _, _, hs, hkey, hcolon, hvalue, rfl⟩ := h.read hfuel hrest
    change readEntries fuel (skip more) = _ at hmore
    change readEntries (fuel + 1) _ = _
    rw [hs, readEntries, hkey]
    simp only [hcolon, hvalue, hskip, hmore]
  empty _ _ := rfl
  opened fuel c cs tail hskip hc := by
    change readValue (fuel + 1) ('\x7b' :: tail) = _
    rw [readValue, hskip]
    split
    · next heq => exact absurd (List.cons.inj heq).1 hc
    · rfl

/-! ### Values that JSON keeps -/

/-- A value that JSON has a form of its own for: null, truth values, whole numbers, texts, lists, and
mappings with distinct texts for keys. -/
inductive Native : Value → Prop
  | null : Native .null
  | bool (b : Bool) : Native (.bool b)
  | int (n : Int) : Native (.int n)
  | text (s : String) : Native (.text s)
  | list {xs : List Value} (h : ∀ x ∈ xs, Native x) : Native (.list xs)
  | map {es : Entries} (hdistinct : es.Distinct) (hkeys : ∀ e ∈ es, ∃ s, e.1 = .text s)
      (h : ∀ e ∈ es, Native e.2) : Native (.map es)

theorem exists_writeItems {style : Style} {xs : List Value}
    (h : ∀ x ∈ xs, ∃ s, writeStyled style x = .ok s ∧ ReadBack x s) :
    ∃ parts, writeItems style xs = .ok parts ∧ List.Forall₂ ReadBack xs parts := by
  induction xs with
  | nil => exact ⟨[], by rw [writeItems], .nil⟩
  | cons x xs ih =>
    obtain ⟨⟨s, hs, hback⟩, hxs⟩ := List.forall_mem_cons.mp h
    obtain ⟨parts, hparts, hbacks⟩ := ih hxs
    refine ⟨s :: parts, ?_, .cons hback hbacks⟩
    rw [writeItems, hs, hparts]
    rfl

theorem exists_writeEntries {style : Style} {es : Entries} (hkeys : ∀ e ∈ es, ∃ s, e.1 = .text s)
    (h : ∀ e ∈ es, ∃ s, writeStyled style e.2 = .ok s ∧ ReadBack e.2 s) :
    ∃ parts, writeEntries style es = .ok parts ∧ List.Forall₂ EntryBack es parts := by
  induction es with
  | nil => exact ⟨[], by rw [writeEntries], .nil⟩
  | cons e es ih =>
    obtain ⟨k, v⟩ := e
    obtain ⟨⟨key, rfl⟩, hrest⟩ := List.forall_mem_cons.mp hkeys
    obtain ⟨⟨s, hs, hback⟩, hes⟩ := List.forall_mem_cons.mp h
    obtain ⟨parts, hparts, hbacks⟩ := ih hrest hes
    refine ⟨_ :: parts, ?_, .cons (.intro key hback) hbacks⟩
    rw [writeEntries, keyText, hs, hparts]
    rfl

/-- What is written of a value that JSON keeps is read back. -/
theorem Native.exists_write {v : Value} (h : Native v) (hv : v.isWritable = true) (style : Style) :
    ∃ s, writeStyled style v = .ok s ∧ ReadBack v s := by
  induction h generalizing style with
  | null => exact ⟨_, by rw [writeStyled], .null⟩
  | bool b => exact ⟨_, by rw [writeStyled], .bool b⟩
  | int n =>
    have hn : Number.isWritable n = true := hv
    exact ⟨_, by rw [writeStyled, writeInt, if_pos hn], .int hn⟩
  | text s => exact ⟨_, by rw [writeStyled], .text s⟩
  | list _ ih =>
    have hitems := Value.itemsWritable_iff.mp hv
    obtain ⟨parts, hparts, hbacks⟩ :=
      exists_writeItems fun x hx => ih x hx (hitems x hx) style.inner
    refine ⟨bracket style "[" "]" parts, ?_, items_lawful.readBack style _ _ rfl rfl hbacks⟩
    rw [writeStyled, hparts]
    rfl
  | @map es hdistinct hkeys _ ih =>
    have hentries := Value.entriesWritable_iff.mp hv
    obtain ⟨parts, hparts, hbacks⟩ :=
      exists_writeEntries hkeys fun e he => ih e he (hentries e he).2 style.inner
    have hback : ReadBack (.map (Entries.ofPairs es)) (bracket style "\x7b" "\x7d" parts) :=
      entries_lawful.readBack style _ _ rfl rfl hbacks
    -- nothing is brought together on the way in, as the keys are distinct already
    rw [Entries.ofPairs_eq hdistinct] at hback
    refine ⟨bracket style "\x7b" "\x7d" parts, ?_, hback⟩
    rw [writeStyled, hparts]
    rfl

private theorem writeItems_of_error {style : Style} {f : Fault} {xs : List Value}
    (h : ∀ x ∈ xs, (∃ s, writeStyled style x = .ok s) ∨ writeStyled style x = .error f)
    (hsome : ∃ x ∈ xs, writeStyled style x = .error f) : writeItems style xs = .error f := by
  induction xs with
  | nil => exact absurd hsome nofun
  | cons x xs ih =>
    obtain ⟨⟨s, hs⟩ | hf, hxs⟩ := List.forall_mem_cons.mp h
    · have hlater : ∃ x ∈ xs, writeStyled style x = .error f := by
        obtain ⟨y, hy, hf⟩ := hsome
        obtain rfl | hy := List.mem_cons.mp hy
        · cases hs.symm.trans hf
        · exact ⟨y, hy, hf⟩
      rw [writeItems, hs, ih hxs hlater]
      rfl
    · rw [writeItems, hf]
      rfl

private theorem writeEntries_of_error {style : Style} {f : Fault} {es : Entries}
    (hkeys : ∀ e ∈ es, ∃ s, e.1 = .text s)
    (h : ∀ e ∈ es, (∃ s, writeStyled style e.2 = .ok s) ∨ writeStyled style e.2 = .error f)
    (hsome : ∃ e ∈ es, writeStyled style e.2 = .error f) : writeEntries style es = .error f := by
  induction es with
  | nil => exact absurd hsome nofun
  | cons e es ih =>
    obtain ⟨k, v⟩ := e
    obtain ⟨⟨key, rfl⟩, hrest⟩ := List.forall_mem_cons.mp hkeys
    obtain ⟨⟨s, hs⟩ | hf, hes⟩ := List.forall_mem_cons.mp h
    · have hlater : ∃ e ∈ es, writeStyled style e.2 = .error f := by
        obtain ⟨e, he, hf⟩ := hsome
        obtain rfl | he := List.mem_cons.mp he
        · cases hs.symm.trans hf
        · exact ⟨e, he, hf⟩
      rw [writeEntries, keyText, hs, ih hrest hes hlater]
      rfl
    · rw [writeEntries, keyText, hf]
      rfl

/-- A value that JSON keeps and that has a number in it that is too long is refused. -/
theorem Native.write_of_not_isWritable {v : Value} (h : Native v) (hv : v.isWritable = false)
    (style : Style) : writeStyled style v = .error (.misuse .badValue) := by
  -- a part is written or refused, and one part that is refused is enough
  have hpart {x : Value} (hx : Native x) (style : Style)
      (ih : x.isWritable = false → writeStyled style x = .error (.misuse .badValue)) :
      (∃ s, writeStyled style x = .ok s) ∨ writeStyled style x = .error (.misuse .badValue) := by
    cases hw : x.isWritable with
    | true => exact .inl ((hx.exists_write hw style).imp fun _ hs => hs.1)
    | false => exact .inr (ih hw)
  induction h generalizing style with
  | null | bool b | text s => cases hv
  | int n =>
    have hn : Number.isWritable n = false := hv
    rw [writeStyled, writeInt, if_neg (Bool.eq_false_iff.mp hn)]
  | @list xs hxs ih =>
    have hsome : ∃ x ∈ xs, x.isWritable = false := by
      by_contra hnone
      refine Bool.eq_false_iff.mp hv (Value.itemsWritable_iff.mpr fun x hx => ?_)
      exact Bool.of_not_eq_false fun hw => hnone ⟨x, hx, hw⟩
    obtain ⟨x, hx, hw⟩ := hsome
    rw [writeStyled, writeItems_of_error
      (fun y hy => hpart (hxs y hy) style.inner fun hw => ih y hy hw style.inner)
      ⟨x, hx, ih x hx hw style.inner⟩]
    rfl
  | @map es hdistinct hkeys hes ih =>
    have hsome : ∃ e ∈ es, e.2.isWritable = false := by
      by_contra hnone
      refine Bool.eq_false_iff.mp hv (Value.entriesWritable_iff.mpr fun e he => ⟨?_, ?_⟩)
      · obtain ⟨s, hs⟩ := hkeys e he
        rw [hs]
        rfl
      · exact Bool.of_not_eq_false fun hw => hnone ⟨e, he, hw⟩
    obtain ⟨e, he, hw⟩ := hsome
    rw [writeStyled, writeEntries_of_error hkeys
      (fun y hy => hpart (hes y hy) style.inner fun hw => ih y hy hw style.inner)
      ⟨e, he, ih e he hw style.inner⟩]
    rfl

/-- A text that is read back at the front of anything is read back as a whole. -/
theorem ReadBack.read_eq {v : Value} {s : String} (h : ReadBack v s) : Json.read s = .ok v := by
  obtain ⟨c, cs, hcons, hspace, -⟩ := h.front
  have hskip : skip s.toList = s.toList := by
    rw [hcons]
    exact skip_blanks (List.forall_mem_nil _) hspace
  have hends : Ends [] := by
    rintro c ⟨⟩
  have hread := h.read (s.toList.length + 2) (by omega) [] hends
  rw [List.append_nil] at hread
  rw [Json.read, hskip, hread]
  rfl

end Choicebook.Json
