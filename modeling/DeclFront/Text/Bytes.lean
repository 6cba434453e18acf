/-!
# Byte offsets in a text

Places in a source are byte offsets of its UTF-8 encoding, while its content is a list of runes.
This module connects the two views. The main facts:

* `runeAt?_append`: at the offset where a list of runes ends, the next rune stands;
* `exists_of_runeAt?_eq_some`: a rune is found only at such an offset, so only between runes;
* `slice_append`: the text between two such offsets is what lies between the two places.
-/

namespace DeclFront

/-- The number of bytes that a list of runes takes in UTF-8. -/
def byteLength : List Char → Nat
  | [] => 0
  | r :: runes => r.utf8Size + byteLength runes

@[simp]
theorem byteLength_nil : byteLength [] = 0 := rfl

@[simp]
theorem byteLength_cons (r : Char) (runes : List Char) :
    byteLength (r :: runes) = r.utf8Size + byteLength runes := rfl

@[simp]
theorem byteLength_append (a b : List Char) :
    byteLength (a ++ b) = byteLength a + byteLength b := by
  induction a with
  | nil => simp
  | cons r a ih => simp [ih, Nat.add_assoc]

/-- The size of a text is the size of its runes. -/
theorem utf8ByteSize_eq_byteLength (text : String) :
    text.utf8ByteSize = byteLength text.toList := by
  have h : ∀ runes : List Char, (String.ofList runes).utf8ByteSize = byteLength runes := by
    intro runes
    induction runes with
    | nil => rfl
    | cons r runes ih =>
      rw [show r :: runes = [r] ++ runes from rfl, String.ofList_append, String.utf8ByteSize_append,
        ih, byteLength_append]
      congr 1
      exact String.utf8ByteSize_singleton
  have := h text.toList
  rwa [String.ofList_toList] at this

/-- The rune that starts at a byte offset; there is none at the end or inside a rune. -/
def runeAt? (text : String) (offset : Nat) : Option Char :=
  String.Pos.Raw.get? text ⟨offset⟩

/-- The text between two byte offsets. -/
def slice (text : String) (first last : Nat) : String :=
  String.Pos.Raw.extract text ⟨first⟩ ⟨last⟩

/-! ### Offsets between runes -/

/-- One step of finding a rune by offset. -/
private theorem getAux?_cons (c : Char) (runes : List Char) (i p : String.Pos.Raw) :
    String.Pos.Raw.utf8GetAux? (c :: runes) i p =
      if i = p then some c else String.Pos.Raw.utf8GetAux? runes (i + c) p := rfl

/-- One step of dropping runes up to an offset. -/
private theorem extractFrom_cons (c : Char) (runes : List Char) (i b e : String.Pos.Raw) :
    String.Pos.Raw.extract.go₁ (c :: runes) i b e =
      if i = b then String.Pos.Raw.extract.go₂ (c :: runes) i e
      else String.Pos.Raw.extract.go₁ runes (i + c) b e := rfl

/-- One step of collecting runes up to an offset. -/
private theorem extractTo_cons (c : Char) (runes : List Char) (i e : String.Pos.Raw) :
    String.Pos.Raw.extract.go₂ (c :: runes) i e =
      if i = e then [] else c :: String.Pos.Raw.extract.go₂ runes (i + c) e := rfl

/-- Moving a position past a rune adds its size. -/
private theorem mk_add_rune (base : Nat) (c : Char) :
    (⟨base⟩ : String.Pos.Raw) + c = ⟨base + c.utf8Size⟩ := rfl

/-- An offset differs from one that lies a rune further. -/
private theorem mk_ne_mk_add (base : Nat) (c : Char) (n : Nat) :
    ¬ (⟨base⟩ : String.Pos.Raw) = ⟨base + (c.utf8Size + n)⟩ := by
  have hpos : 0 < c.utf8Size := Char.utf8Size_pos c
  simp only [String.Pos.Raw.mk.injEq]
  omega

/-- Finding a rune by offset in a list of runes that starts at offset `base`. -/
private theorem getAux?_append (before ahead : List Char) (base : Nat) :
    String.Pos.Raw.utf8GetAux? (before ++ ahead) ⟨base⟩ ⟨base + byteLength before⟩ =
      ahead.head? := by
  induction before generalizing base with
  | nil =>
    cases ahead with
    | nil => rfl
    | cons r ahead => exact if_pos rfl
  | cons b before ih =>
    rw [List.cons_append, getAux?_cons, byteLength_cons, if_neg (mk_ne_mk_add base b _),
      mk_add_rune, ← Nat.add_assoc]
    exact ih (base + b.utf8Size)

/-- A rune found by offset splits the list at that offset. -/
private theorem exists_of_getAux?_eq_some {runes : List Char} (base : Nat) {offset : Nat} {r : Char}
    (h : String.Pos.Raw.utf8GetAux? runes ⟨base⟩ ⟨offset⟩ = some r) :
    ∃ before ahead, runes = before ++ r :: ahead ∧ offset = base + byteLength before := by
  induction runes generalizing base with
  | nil => exact absurd h (by intro hn; cases hn)
  | cons c runes ih =>
    rw [getAux?_cons] at h
    split at h
    · next heq =>
      simp only [String.Pos.Raw.mk.injEq] at heq
      simp only [Option.some.injEq] at h
      exact ⟨[], runes, by simp [h], by simp [heq]⟩
    · rw [mk_add_rune] at h
      obtain ⟨before, ahead, hsplit, hoff⟩ := ih _ h
      exact ⟨c :: before, ahead, by simp [hsplit], by simp [hoff, Nat.add_assoc]⟩

/-- Where the runes `before` end, the next rune stands. -/
theorem runeAt?_append {text : String} {before ahead : List Char}
    (h : text.toList = before ++ ahead) : runeAt? text (byteLength before) = ahead.head? := by
  have := getAux?_append before ahead 0
  rw [Nat.zero_add, ← h] at this
  exact this

/-- A rune is found at an offset only if the runes before it end there. -/
theorem exists_of_runeAt?_eq_some {text : String} {offset : Nat} {r : Char}
    (h : runeAt? text offset = some r) :
    ∃ before ahead, text.toList = before ++ r :: ahead ∧ offset = byteLength before := by
  obtain ⟨before, ahead, hsplit, hoff⟩ := exists_of_getAux?_eq_some 0 h
  exact ⟨before, ahead, hsplit, by simpa using hoff⟩

/-- A rune that starts at an offset ends inside the text. -/
theorem add_utf8Size_le_of_runeAt? {text : String} {offset : Nat} {r : Char}
    (h : runeAt? text offset = some r) : offset + r.utf8Size ≤ text.utf8ByteSize := by
  obtain ⟨before, ahead, hsplit, hoff⟩ := exists_of_runeAt?_eq_some h
  rw [utf8ByteSize_eq_byteLength, hsplit, byteLength_append, byteLength_cons, hoff]
  omega

/-- Collecting runes from one offset up to another. -/
private theorem extractTo_append (middle ahead : List Char) (base : Nat) :
    String.Pos.Raw.extract.go₂ (middle ++ ahead) ⟨base⟩ ⟨base + byteLength middle⟩ = middle := by
  induction middle generalizing base with
  | nil =>
    cases ahead with
    | nil => rfl
    | cons r ahead => exact if_pos rfl
  | cons m middle ih =>
    rw [List.cons_append, extractTo_cons, byteLength_cons, if_neg (mk_ne_mk_add base m _),
      mk_add_rune, ← Nat.add_assoc, ih]

/-- Dropping runes up to one offset, then collecting up to another. -/
private theorem extractFrom_append (before ahead : List Char) (m : Char) (middle : List Char)
    (base : Nat) :
    String.Pos.Raw.extract.go₁ (before ++ (m :: middle ++ ahead)) ⟨base⟩ ⟨base + byteLength before⟩
      ⟨base + byteLength before + byteLength (m :: middle)⟩ = m :: middle := by
  induction before generalizing base with
  | nil =>
    rw [List.nil_append, List.cons_append, extractFrom_cons]
    exact (if_pos rfl).trans (extractTo_append (m :: middle) ahead base)
  | cons b before ih =>
    rw [List.cons_append, extractFrom_cons, byteLength_cons, if_neg (mk_ne_mk_add base b _),
      mk_add_rune, ← Nat.add_assoc]
    exact ih (base + b.utf8Size)

/-- The text between the ends of two lists of runes is what lies between them. -/
theorem slice_append {text : String} {before middle ahead : List Char}
    (h : text.toList = before ++ (middle ++ ahead)) :
    slice text (byteLength before) (byteLength before + byteLength middle) =
      String.ofList middle := by
  cases middle with
  | nil => exact if_pos (Nat.le_refl _)
  | cons m middle =>
    have hpos : 0 < m.utf8Size := Char.utf8Size_pos m
    have hlt : ¬ byteLength before ≥ byteLength before + byteLength (m :: middle) := by
      simp only [byteLength_cons]
      omega
    have := extractFrom_append before ahead m middle 0
    rw [Nat.zero_add, ← h] at this
    exact (if_neg hlt).trans (congrArg String.ofList this)

end DeclFront
