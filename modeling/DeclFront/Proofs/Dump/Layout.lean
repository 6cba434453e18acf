import DeclFront.Dump.Outline
import DeclFront.Proofs.Text.Written

/-!
# Layouts that can be read back

The text of a JSON value determines the value, and the text of an outline determines the outline, if
its names are words. Both are shown for a value at any level and with anything that may stand after
it: if two such texts are the same, so are the values and what stands after them (`Json.write_inj`,
`Outline.Named.told`). A comma, a line end or nothing stands after a value, so nothing lengthens a
number or a name.

The sorts of values are told apart by one rune: the first one of a JSON value, and the first one
that is no letter of an outline. The level is the same on both sides, so the blanks at the head of a
line cancel. Where a line begins, it is either one more part or the closing line. In JSON the comma
before the line tells which, and in an outline the blanks do: the closing line has fewer.
-/

namespace DeclFront

/-- The runes by which the sorts of values are told apart. -/
def sortMarks : List Char :=
  ['"', '[', '\x7b', ' ', '(']

/-- The sort of values that a rune is the mark of; anything else is the mark of the last sort. -/
def sortOf (mark : Option Char) : Nat :=
  mark.elim sortMarks.length sortMarks.idxOf

/-- What is no mark stands for the last sort. -/
theorem sortOf_of_notMem {mark : Option Char} (h : ∀ r, mark = some r → r ∉ sortMarks) :
    sortOf mark = sortMarks.length := by
  cases mark with
  | none => rfl
  | some r => exact List.idxOf_eq_length (h r rfl)

/-! ### JSON -/

namespace Json

/-- What may stand after a value: nothing, or a rune that is no digit. -/
def Stops (rest : List Char) : Prop :=
  ∀ r, rest.head? = some r → r.isDigit = false

theorem stops_nil : Stops [] := by
  intro r hr
  cases hr

theorem stops_cons {r : Char} (hr : r.isDigit = false) (rest : List Char) : Stops (r :: rest) := by
  intro q hq
  obtain rfl := Option.some.inj hq
  exact hr

/-- A value stops where a new line begins. -/
theorem stops_newline (level : Nat) (rest : List Char) : Stops (newline level ++ rest) :=
  stops_cons rfl _

/-- Behind an item stands the comma before the next one, or the line with the closing bracket. -/
theorem stops_writeItems (level level' : Nat) (items : List Json) (rest : List Char) :
    Stops (writeItems level items ++ (newline level' ++ rest)) := by
  cases items with
  | nil => exact stops_newline level' rest
  | cons item items => exact stops_cons rfl _

/-- So it is behind a field. -/
theorem stops_writeFields (level level' : Nat) (fields : List (String × Json)) (rest : List Char) :
    Stops (writeFields level fields ++ (newline level' ++ rest)) := by
  cases fields with
  | nil => exact stops_newline level' rest
  | cons field fields => exact stops_cons rfl _

section Parts

variable {rest rest' : List Char}

/-- A text is read up to its closing quote. -/
theorem writeText_inj {s t : String} (h : writeText s ++ rest = writeText t ++ rest') :
    s = t ∧ rest = rest' := by
  obtain ⟨hrunes, hrest⟩ := quoted_inj_of_written written_escapeRune h
  exact ⟨String.toList_inj.1 hrunes, hrest⟩

/-- A key is a text and what stands between it and its value. -/
theorem writeKey_inj {key key' : String} (h : writeKey key ++ rest = writeKey key' ++ rest') :
    key = key' ∧ rest = rest' := by
  rw [writeKey, writeKey, List.append_assoc, List.append_assoc] at h
  obtain ⟨hkey, hrest⟩ := writeText_inj h
  exact ⟨hkey, List.append_cancel_left hrest⟩

/-- A number is read as far as its digits go, which is why something else must stand after it. -/
theorem number_inj {n m : Nat} (hrest : Stops rest) (hrest' : Stops rest')
    (h : Nat.toDigits 10 n ++ rest = Nat.toDigits 10 m ++ rest') : n = m ∧ rest = rest' := by
  have hdigits : ∀ n, ∀ r ∈ Nat.toDigits 10 n, r.isDigit = true := by
    intro n r hr
    exact Nat.isDigit_of_mem_toDigits (by decide) (by decide) hr
  obtain ⟨hsame, hrest⟩ := append_inj_of_run (hdigits n) (hdigits m) hrest hrest' h
  exact ⟨toDigits_injective (by decide) (by decide) hsame, hrest⟩

/-- The sorts of values, by the place of their first rune among the marks. -/
def sort : Json → Nat
  | text _ => 0
  | list _ => 1
  | record _ => 2
  | number _ => 5

/-- **The first rune tells the sort** of a value. -/
theorem sortOf_head?_write (level : Nat) (v : Json) (rest : List Char) :
    sortOf (v.write level ++ rest).head? = v.sort := by
  cases v with
  | number n =>
    -- a number begins with a digit, and no mark is one
    refine sortOf_of_notMem fun r hr hmark => ?_
    have hdigit : r ∈ Nat.toDigits 10 n := by
      rw [write, List.head?_append_of_ne_nil _ Nat.toDigits_ne_nil] at hr
      exact List.mem_of_mem_head? hr
    have hnone : ∀ q ∈ sortMarks, q.isDigit = false := by simp [sortMarks]
    have hfalse := hnone r hmark
    rw [Nat.isDigit_of_mem_toDigits (by decide) (by decide) hdigit] at hfalse
    cases hfalse
  | text s => rfl
  | list items => cases items <;> rfl
  | record fields => cases fields <;> rfl

end Parts

mutual

/-- **JSON values** can be told apart, and from what comes after them. -/
theorem write_inj {level : Nat} {rest rest' : List Char} (hrest : Stops rest) (hrest' : Stops rest')
    (v w : Json) (h : v.write level ++ rest = w.write level ++ rest') : v = w ∧ rest = rest' := by
  have hsort : v.sort = w.sort := by
    rw [← sortOf_head?_write level v rest, h, sortOf_head?_write]
  -- both are of one sort, so only the four cases on the diagonal are left
  cases v with
  | number n =>
    cases w with
    | number m =>
      obtain ⟨rfl, hsame⟩ := number_inj hrest hrest' h
      exact ⟨rfl, hsame⟩
    | _ => cases hsort
  | text s =>
    cases w with
    | text t =>
      obtain ⟨rfl, hsame⟩ := writeText_inj h
      exact ⟨rfl, hsame⟩
    | _ => cases hsort
  | list items =>
    cases w with
    | list others =>
      -- after the bracket, an empty list is closed and any other one begins a line
      cases items with
      | nil =>
        cases others with
        | nil => exact ⟨rfl, List.append_cancel_left h⟩
        | cons => exact absurd (List.cons.inj (List.cons.inj h).2).1 (by decide)
      | cons item items =>
        cases others with
        | nil => exact absurd (List.cons.inj (List.cons.inj h).2).1 (by decide)
        | cons other others =>
          -- with a comma before it, the first item is one like the others
          have hitems : writeItems (level + 1) (item :: items) ++ (newline level ++ ']' :: rest) =
              writeItems (level + 1) (other :: others) ++ (newline level ++ ']' :: rest') := by
            simpa [write, writeItems] using h
          obtain ⟨hsame, hclose⟩ := writeItems_inj (item :: items) (other :: others) hitems
          exact ⟨congrArg list hsame, (List.cons.inj hclose).2⟩
    | _ => cases hsort
  | record fields =>
    cases w with
    | record others =>
      -- an empty record is closed at once, as an empty list is
      cases fields with
      | nil =>
        cases others with
        | nil => exact ⟨rfl, List.append_cancel_left h⟩
        | cons => exact absurd (List.cons.inj (List.cons.inj h).2).1 (by decide)
      | cons field fields =>
        cases others with
        | nil => exact absurd (List.cons.inj (List.cons.inj h).2).1 (by decide)
        | cons other others =>
          have hfields :
              writeFields (level + 1) (field :: fields) ++ (newline level ++ '\x7d' :: rest) =
              writeFields (level + 1) (other :: others) ++ (newline level ++ '\x7d' :: rest') := by
            simpa [write, writeFields] using h
          obtain ⟨hsame, hclose⟩ := writeFields_inj (field :: fields) (other :: others) hfields
          exact ⟨congrArg record hsame, (List.cons.inj hclose).2⟩
    | _ => cases hsort

/-- Items after the first. -/
theorem writeItems_inj {level level' : Nat} {rest rest' : List Char} (items others : List Json)
    (h : writeItems level items ++ (newline level' ++ rest) =
      writeItems level others ++ (newline level' ++ rest')) :
    items = others ∧ rest = rest' := by
  cases items with
  | nil =>
    cases others with
    | nil => exact ⟨rfl, List.append_cancel_left h⟩
    | cons => exact absurd (List.cons.inj h).1 (by decide)
  | cons item items =>
    cases others with
    | nil => exact absurd (List.cons.inj h).1 (by decide)
    | cons other others =>
      -- the comma, the line end and the blanks are the same on both sides
      simp only [writeItems, List.cons_append, List.append_assoc, List.cons.injEq, true_and,
        List.append_cancel_left_eq] at h
      obtain ⟨rfl, hitems⟩ :=
        write_inj (stops_writeItems _ _ _ _) (stops_writeItems _ _ _ _) item other h
      obtain ⟨rfl, hrest⟩ := writeItems_inj items others hitems
      exact ⟨rfl, hrest⟩

/-- Fields after the first. -/
theorem writeFields_inj {level level' : Nat} {rest rest' : List Char}
    (fields others : List (String × Json))
    (h : writeFields level fields ++ (newline level' ++ rest) =
      writeFields level others ++ (newline level' ++ rest')) :
    fields = others ∧ rest = rest' := by
  cases fields with
  | nil =>
    cases others with
    | nil => exact ⟨rfl, List.append_cancel_left h⟩
    | cons => exact absurd (List.cons.inj h).1 (by decide)
  | cons field fields =>
    cases others with
    | nil => exact absurd (List.cons.inj h).1 (by decide)
    | cons other others =>
      obtain ⟨key, value⟩ := field
      obtain ⟨key', value'⟩ := other
      simp only [writeFields, List.cons_append, List.append_assoc, List.cons.injEq, true_and,
        List.append_cancel_left_eq] at h
      -- the key first, then its value, then the other fields
      obtain ⟨rfl, hvalue⟩ := writeKey_inj h
      obtain ⟨rfl, hfields⟩ :=
        write_inj (stops_writeFields _ _ _ _) (stops_writeFields _ _ _ _) value value' hvalue
      obtain ⟨rfl, hrest⟩ := writeFields_inj fields others hfields
      exact ⟨rfl, hrest⟩

end

/-- **A dump determines its value.** -/
theorem pretty_inj {v w : Json} (h : v.pretty = w.pretty) : v = w := by
  -- a whole text is a value at level zero with nothing after it
  have hwrite : v.write 0 ++ [] = w.write 0 ++ [] := congrArg (· ++ []) (String.ofList_inj.1 h)
  exact (write_inj stops_nil stops_nil v w hwrite).1

end Json

/-! ### Outlines -/

namespace Outline

/-- What may stand after a value: nothing, or a comma. -/
def Stops (rest : List Char) : Prop :=
  ∀ r, rest.head? = some r → r = ','

theorem stops_nil : Stops [] := by
  intro r hr
  cases hr

theorem stops_comma (rest : List Char) : Stops (',' :: rest) := by
  intro r hr
  exact (Option.some.inj hr).symm

/-- Whether a name is made of letters. -/
def IsWord (n : String) : Prop :=
  ∀ r ∈ n.toList, r.isAlpha = true

instance (n : String) : Decidable (IsWord n) :=
  decidable_of_iff (n.toList.all Char.isAlpha = true) List.all_eq_true

/-- The outlines whose names are words. -/
inductive Named : Outline → Prop
  | name {n : String} (hname : IsWord n) : Named (.name n)
  | text (s : String) : Named (.text s)
  | list {items : List Outline} (hitems : ∀ item ∈ items, Named item) : Named (.list items)
  | record {n : String} {fields : List (String × Outline)} (hname : IsWord n)
      (hkeys : ∀ key ∈ fields.map Prod.fst, IsWord key)
      (hvalues : ∀ field ∈ fields, Named field.2) : Named (.record n fields)
  | tagged {n : String} {value : Outline} (hname : IsWord n) (hvalue : Named value) :
      Named (.tagged n value)

section Parts

variable {v : Outline} {n m : String} {rest rest' : List Char}

/-- The head of a line has four blanks more at the next level. -/
theorem newline_succ (level : Nat) :
    newline (level + 1) = newline level ++ [' ', ' ', ' ', ' '] := by
  rw [newline, Nat.mul_add, List.replicate_add]
  rfl

/-- No name goes on where a value stops. -/
theorem Stops.isAlpha_eq_false (h : Stops rest) : ∀ r, rest.head? = some r → r.isAlpha = false := by
  intro r hr
  obtain rfl := h r hr
  rfl

/-- A word is read as far as its letters go. -/
theorem word_inj (hn : IsWord n) (hm : IsWord m)
    (hrest : ∀ r, rest.head? = some r → r.isAlpha = false)
    (hrest' : ∀ r, rest'.head? = some r → r.isAlpha = false)
    (h : n.toList ++ rest = m.toList ++ rest') : n = m ∧ rest = rest' := by
  obtain ⟨hsame, hrest⟩ := append_inj_of_run hn hm hrest hrest' h
  exact ⟨String.toList_inj.1 hsame, hrest⟩

/-- A word before a rune that is no letter. -/
theorem word_inj_of_cons {q : Char} (hq : q.isAlpha = false) (hn : IsWord n) (hm : IsWord m)
    (h : n.toList ++ q :: rest = m.toList ++ q :: rest') : n = m ∧ rest = rest' := by
  -- the rune is the same on both sides, so it is taken off with the word
  have hends : ∀ rest : List Char, ∀ r, (q :: rest).head? = some r → r.isAlpha = false := by
    intro rest r hr
    obtain rfl := Option.some.inj hr
    exact hq
  obtain ⟨hsame, hcons⟩ := word_inj hn hm (hends rest) (hends rest') h
  exact ⟨hsame, (List.cons.inj hcons).2⟩

/-- The sorts of values, by the place among the marks of their first rune that is no letter. -/
def sort : Outline → Nat
  | text _ => 0
  | list _ => 1
  | record _ _ => 3
  | tagged _ _ => 4
  | name _ => 5

/-- **Behind the letters of its name, one rune tells the sort** of a value. -/
theorem sortOf_dropWhile_write (hidden : Char → Bool) (level : Nat) (hv : Named v)
    (hrest : Stops rest) :
    sortOf ((v.write hidden level ++ rest).dropWhile Char.isAlpha).head? = v.sort := by
  cases hv with
  | name hname =>
    -- all of the name is letters, so the mark is what stands after it
    have hnone : rest.dropWhile Char.isAlpha = rest := by
      refine (takeWhile_eq_nil_of_head fun r hr => ?_).2
      rw [hrest.isAlpha_eq_false r hr]
      exact Bool.false_ne_true
    rw [write, List.dropWhile_append_of_pos hname, hnone]
    refine sortOf_of_notMem fun r hr => ?_
    rw [hrest r hr]
    decide
  -- a text has its quote in front, a list its bracket
  | text s => rfl
  | @list items hitems => cases items <;> rfl
  | record hname =>
    simp only [write, List.append_assoc]
    rw [List.dropWhile_append_of_pos hname]
    rfl
  | tagged hname =>
    simp only [write, List.append_assoc]
    rw [List.dropWhile_append_of_pos hname]
    rfl

end Parts

/-! ### Lines -/

section Lines

variable {hidden : Char → Bool} {level : Nat} {rest rest' : List Char} {close : Char}

/-- Items are written line by line, each with a comma behind it. -/
theorem writeItems_eq (level : Nat) (items : List Outline) : writeItems hidden level items =
    items.flatMap fun item => newline level ++ (write hidden level item ++ [',']) := by
  induction items with
  | nil => rfl
  | cons item items ih => simp only [writeItems, ih, List.flatMap_cons, List.append_assoc]

/-- The line of a field, up to its comma. -/
def fieldLine (hidden : Char → Bool) (level : Nat) (field : String × Outline) : List Char :=
  field.1.toList ++ ([':', ' '] ++ write hidden level field.2)

/-- So are fields. -/
theorem writeFields_eq (level : Nat) (fields : List (String × Outline)) :
    writeFields hidden level fields =
      fields.flatMap fun field => newline level ++ (fieldLine hidden level field ++ [',']) := by
  induction fields with
  | nil => rfl
  | cons field fields ih =>
    simp only [writeFields, ih, fieldLine, List.flatMap_cons, List.append_assoc]

/-- A line of one level more is not the closing line. -/
theorem newline_succ_ne (hclose : close ≠ ' ') :
    newline (level + 1) ++ rest ≠ newline level ++ close :: rest' := by
  intro h
  rw [newline_succ, List.append_assoc] at h
  exact hclose (List.cons.inj (List.append_cancel_left h)).1.symm

/-- **Lines, up to the closing line.** If a line can be told from every other up to its comma, so
can all of them. -/
theorem lines_inj {α : Type} {line : α → List Char} {parts others : List α} (hclose : close ≠ ' ')
    (hline : ∀ part ∈ parts, ∀ other ∈ others, ∀ rest rest',
      line part ++ ',' :: rest = line other ++ ',' :: rest' → part = other ∧ rest = rest')
    (h : (parts.flatMap fun part => newline (level + 1) ++ (line part ++ [','])) ++
        (newline level ++ close :: rest) =
      (others.flatMap fun other => newline (level + 1) ++ (line other ++ [','])) ++
        (newline level ++ close :: rest')) :
    parts = others ∧ rest = rest' := by
  -- at the head of each line the blanks tell a part from the closing line
  induction parts generalizing others with
  | nil =>
    cases others with
    | nil =>
      have hcloses : close :: rest = close :: rest' := List.append_cancel_left h
      exact ⟨rfl, (List.cons.inj hcloses).2⟩
    | cons other others =>
      rw [List.flatMap_cons, List.append_assoc, List.append_assoc] at h
      exact absurd h.symm (newline_succ_ne hclose)
  | cons part parts ih =>
    cases others with
    | nil =>
      rw [List.flatMap_cons, List.append_assoc, List.append_assoc] at h
      exact absurd h (newline_succ_ne hclose)
    | cons other others =>
      simp only [List.flatMap_cons, List.append_assoc, List.append_cancel_left_eq] at h
      obtain ⟨rfl, htail⟩ := hline part List.mem_cons_self other List.mem_cons_self _ _ h
      -- the first parts agree; what is known of lines holds of the others as well
      have hrest : ∀ part ∈ parts, ∀ other ∈ others, ∀ rest rest',
          line part ++ ',' :: rest = line other ++ ',' :: rest' → part = other ∧ rest = rest' :=
        fun p hp o ho => hline p (List.mem_cons_of_mem _ hp) o (List.mem_cons_of_mem _ ho)
      obtain ⟨rfl, hsame⟩ := ih hrest htail
      exact ⟨rfl, hsame⟩

end Lines

/-! ### Outlines that can be read back -/

/-- The outline can be told from every other one, and from what comes after it. -/
def Told (hidden : Char → Bool) (v : Outline) : Prop :=
  ∀ (w : Outline) (level : Nat) (rest rest' : List Char), Named w → Stops rest → Stops rest' →
    v.write hidden level ++ rest = w.write hidden level ++ rest' → v = w ∧ rest = rest'

section Told

variable {hidden : Char → Bool} {level : Nat} {v w : Outline} {rest rest' : List Char}

/-- A field whose key is a word can be told from others if its value can. -/
theorem fieldLine_inj {field other : String × Outline} (hkey : IsWord field.1)
    (hkey' : IsWord other.1) (hvalue : Told hidden field.2) (hvalue' : Named other.2)
    (h : fieldLine hidden level field ++ ',' :: rest =
      fieldLine hidden level other ++ ',' :: rest') :
    field = other ∧ rest = rest' := by
  obtain ⟨key, value⟩ := field
  obtain ⟨key', value'⟩ := other
  simp only [fieldLine, List.append_assoc, List.cons_append, List.nil_append] at h
  obtain ⟨rfl, htail⟩ := word_inj_of_cons rfl hkey hkey' h
  obtain ⟨rfl, hrest⟩ := hvalue value' level _ _ hvalue' (stops_comma rest) (stops_comma rest')
    (List.cons.inj htail).2
  exact ⟨rfl, (List.cons.inj hrest).2⟩

/-- Values with the same text are of the same sort, so each sort can be dealt with by itself. -/
theorem sort_eq_of_write_eq (hv : Named v) (hw : Named w) (hrest : Stops rest)
    (hrest' : Stops rest') (h : v.write hidden level ++ rest = w.write hidden level ++ rest') :
    v.sort = w.sort := by
  rw [← sortOf_dropWhile_write hidden level hv hrest, h, sortOf_dropWhile_write _ _ hw hrest']

/-- A name ends where the letters do. -/
theorem told_name {n : String} (hname : IsWord n) : Told hidden (.name n) := by
  intro w level rest rest' hw hrest hrest' h
  have hsort := sort_eq_of_write_eq (.name hname) hw hrest hrest' h
  cases hw with
  | name hname' =>
    obtain ⟨rfl, hsame⟩ := word_inj hname hname' hrest.isAlpha_eq_false hrest'.isAlpha_eq_false h
    exact ⟨rfl, hsame⟩
  | _ => cases hsort

/-- A text ends at its quote. -/
theorem told_text (s : String) : Told hidden (.text s) := by
  intro w level rest rest' hw hrest hrest' h
  have hsort := sort_eq_of_write_eq (.text s) hw hrest hrest' h
  cases hw with
  | text t =>
    obtain ⟨hrunes, hsame⟩ := quoted_inj_of_written (written_escape hidden) h
    exact ⟨congrArg Outline.text (String.toList_inj.1 hrunes), hsame⟩
  | _ => cases hsort

/-- A list is told item by item, and ends at the closing line. -/
theorem told_list {items : List Outline} (hitems : ∀ item ∈ items, Named item)
    (htold : ∀ item ∈ items, Told hidden item) : Told hidden (.list items) := by
  intro w level rest rest' hw hrest hrest' h
  have hsort := sort_eq_of_write_eq (.list hitems) hw hrest hrest' h
  cases hw with
  | @list others hothers =>
    -- after the bracket, an empty list is closed and any other one begins a line
    cases items with
    | nil =>
      cases others with
      | nil => exact ⟨rfl, List.append_cancel_left h⟩
      | cons => exact absurd (List.cons.inj (List.cons.inj h).2).1 (by decide)
    | cons item items =>
      cases others with
      | nil => exact absurd (List.cons.inj (List.cons.inj h).2).1 (by decide)
      | cons other others =>
        simp only [write, writeItems_eq, List.cons_append, List.append_assoc, List.nil_append,
          List.cons.injEq, true_and] at h
        have hline : ∀ i ∈ item :: items, ∀ o ∈ other :: others, ∀ rest rest',
            i.write hidden (level + 1) ++ ',' :: rest = o.write hidden (level + 1) ++ ',' :: rest' →
              i = o ∧ rest = rest' := by
          intro i hi o ho rest rest' heq
          obtain ⟨hsame, hcomma⟩ := htold i hi o (level + 1) _ _ (hothers o ho) (stops_comma rest)
            (stops_comma rest') heq
          exact ⟨hsame, (List.cons.inj hcomma).2⟩
        obtain ⟨hsame, hrest⟩ := lines_inj (by decide) hline h
        exact ⟨congrArg Outline.list hsame, hrest⟩
  | _ => cases hsort

/-- A record is told by its name and then field by field. -/
theorem told_record {n : String} {fields : List (String × Outline)} (hname : IsWord n)
    (hkeys : ∀ key ∈ fields.map Prod.fst, IsWord key) (hvalues : ∀ field ∈ fields, Named field.2)
    (htold : ∀ field ∈ fields, Told hidden field.2) : Told hidden (.record n fields) := by
  intro w level rest rest' hw hrest hrest' h
  have hsort := sort_eq_of_write_eq (.record hname hkeys hvalues) hw hrest hrest' h
  cases hw with
  | @record m others hname' hkeys' hvalues' =>
    simp only [write, writeFields_eq, List.append_assoc, List.cons_append, List.nil_append] at h
    obtain ⟨rfl, hfields⟩ := word_inj_of_cons rfl hname hname' h
    have hline : ∀ f ∈ fields, ∀ o ∈ others, ∀ rest rest',
        fieldLine hidden (level + 1) f ++ ',' :: rest =
          fieldLine hidden (level + 1) o ++ ',' :: rest' → f = o ∧ rest = rest' :=
      fun f hf o ho _ _ => fieldLine_inj (hkeys f.1 (List.mem_map_of_mem hf))
        (hkeys' o.1 (List.mem_map_of_mem ho)) (htold f hf) (hvalues' o ho)
    obtain ⟨rfl, hsame⟩ := lines_inj (by decide) hline (List.cons.inj hfields).2
    exact ⟨rfl, hsame⟩
  | _ => cases hsort

/-- A tagged value is told by its tag and by the value in it, which stands on a line of its own. -/
theorem told_tagged {n : String} {value : Outline} (hname : IsWord n) (hvalue : Named value)
    (htold : Told hidden value) : Told hidden (.tagged n value) := by
  intro w level rest rest' hw hrest hrest' h
  have hsort := sort_eq_of_write_eq (.tagged hname hvalue) hw hrest hrest' h
  cases hw with
  | @tagged m other hname' hvalue' =>
    simp only [write, List.append_assoc, List.cons_append, List.nil_append] at h
    obtain ⟨rfl, htail⟩ := word_inj_of_cons rfl hname hname' h
    -- the line of the value has the same blanks on both sides, and so has the closing line
    obtain ⟨rfl, hrest⟩ := htold other (level + 1) _ _ hvalue' (stops_comma _) (stops_comma _)
      (List.append_cancel_left htail)
    have hcloses : ')' :: rest = ')' :: rest' :=
      List.append_cancel_left (List.cons.inj hrest).2
    exact ⟨rfl, (List.cons.inj hcloses).2⟩
  | _ => cases hsort

/-- **Outlines whose names are words** can be told apart. -/
theorem Named.told (hv : Named v) : Told hidden v := by
  induction hv with
  | name hname => exact told_name hname
  | text s => exact told_text s
  | list hitems ih => exact told_list hitems ih
  | record hname hkeys hvalues ih => exact told_record hname hkeys hvalues ih
  | tagged hname hvalue ih => exact told_tagged hname hvalue ih

/-- **An outline whose names are words is determined by its text.** -/
theorem prettyWith_inj (hv : Named v) (hw : Named w)
    (h : v.prettyWith hidden = w.prettyWith hidden) : v = w := by
  -- as in JSON, the whole text stands at level zero
  have hwrite : v.write hidden 0 ++ [] = w.write hidden 0 ++ [] :=
    congrArg (· ++ []) (String.ofList_inj.1 h)
  exact (hv.told w 0 [] [] hw stops_nil stops_nil hwrite).1

end Told

end Outline

end DeclFront
