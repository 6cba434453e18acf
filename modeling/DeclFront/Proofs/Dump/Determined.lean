import DeclFront.Dump.Listing
import DeclFront.Proofs.Dump.Layout

/-!
# Dumps determine what they show

Four dumps are made of tokens and trees: tokens as lines or as JSON, trees as an outline or as JSON.
None of them is ambiguous, whatever the texts in it hold and whichever runes are hidden; only the
lines of tokens leave out the spans.

For JSON and outlines this is the injectivity of the layout, together with that of the value which
is laid out: kinds have distinct names (`TokenKind.name_injective`), and every other part of a token
or a declaration has a place of its own. An outline shows kinds and sorts of nodes by names, and
these are words (`Scope.named_toOutline`). The lines of tokens are read one after another: a quoted
text never holds a line end, so each line ends with the one after its text.
-/

namespace DeclFront

/-! ### Tokens as JSON -/

/-- A token in JSON shows all that a token has. -/
theorem Token.toJson_injective : Function.Injective Token.toJson := by
  intro t u h
  obtain ⟨kind, text, start, stop⟩ := t
  obtain ⟨kind', text', start', stop'⟩ := u
  simp only [Token.toJson, Json.record.injEq, List.cons.injEq, Prod.mk.injEq, Json.text.injEq,
    Json.number.injEq, true_and, and_true] at h
  obtain ⟨hkind, rfl, rfl, rfl⟩ := h
  -- a kind is shown by its name, and no two kinds share one
  rw [TokenKind.name_injective hkind]

/-- A list in JSON keeps its items apart. -/
theorem tokensToJson_injective : Function.Injective tokensToJson := by
  intro ts us h
  exact List.map_injective_iff.2 Token.toJson_injective (Json.list.inj h)

/-! ### Tokens as lines -/

/-- Names of kinds are words. -/
theorem TokenKind.isWord_name (kind : TokenKind) : Outline.IsWord kind.name := by
  cases kind with
  | keyword category => cases category <;> decide
  | _ => decide

section Lines

variable {hidden : Char → Bool}

/-- The first line, rune by rune: the name of a kind, a blank, the quoted text and the line end. -/
theorem toList_listTokensWith_cons (t : Token) (ts : List Token) :
    (listTokensWith hidden (t :: ts)).toList = t.kind.name.toList ++ ' ' ::
      (quoteWith hidden '"' t.text.toList ++ '\n' :: (listTokensWith hidden ts).toList) := by
  simp [listTokensWith, Token.displayWith]

/-- Lines show nothing but kinds and texts. -/
theorem listTokensWith_eq_join (ts : List Token) :
    listTokensWith hidden ts = String.join ((ts.map fun t => (t.kind, t.text)).map fun shown =>
      shown.1.name ++ " " ++ String.ofList (quoteWith hidden '"' shown.2.toList) ++ "\n") := by
  rw [List.map_map]
  rfl

/-- **Lines are read one after another.** -/
theorem listTokensWith_inj {ts us : List Token}
    (h : (listTokensWith hidden ts).toList = (listTokensWith hidden us).toList) :
    ts.map (fun t => (t.kind, t.text)) = us.map fun t => (t.kind, t.text) := by
  have hne : ∀ (t : Token) (ts : List Token), (listTokensWith hidden (t :: ts)).toList ≠ [] := by
    intro t ts hnil
    rw [toList_listTokensWith_cons] at hnil
    cases (List.append_eq_nil_iff.1 hnil).2
  -- by induction on the first list; the second must end where the first does
  induction ts generalizing us with
  | nil =>
    cases us with
    | nil => rfl
    | cons u us => exact absurd h.symm (hne u us)
  | cons t ts ih =>
    cases us with
    | nil => exact absurd h (hne t ts)
    | cons u us =>
      -- the name ends at the blank, the text at its quote, and then the line does
      rw [toList_listTokensWith_cons, toList_listTokensWith_cons] at h
      obtain ⟨hname, hquoted⟩ :=
        Outline.word_inj_of_cons rfl t.kind.isWord_name u.kind.isWord_name h
      obtain ⟨hrunes, hline⟩ := quoted_inj_of_written (written_escape hidden) hquoted
      rw [List.map_cons, List.map_cons, TokenKind.name_injective hname, String.toList_inj.1 hrunes,
        ih (List.cons.inj hline).2]

/-- No quoted text has a line end in it, so none can be taken for the end of its line. -/
theorem count_quoteWith (runes : List Char) : (quoteWith hidden '"' runes).count '\n' = 0 := by
  refine List.count_eq_zero_of_not_mem fun hmem => ?_
  rw [quoteWith, List.mem_cons, List.mem_append, List.mem_flatMap, List.mem_singleton] at hmem
  -- a rune of the quoted text is one of its quotes or belongs to what is written for a rune
  obtain hquote | ⟨r, -, hr⟩ | hquote := hmem
  · cases hquote
  · exact (written_escape hidden r).notMem_newline hr
  · cases hquote

/-- **One line for each token.** -/
theorem count_listTokensWith (ts : List Token) :
    (listTokensWith hidden ts).toList.count '\n' = ts.length := by
  induction ts with
  | nil => rfl
  | cons t ts ih =>
    -- the name is a word, so the one line end is that behind the text
    have hname : t.kind.name.toList.count '\n' = 0 := by
      refine List.count_eq_zero_of_not_mem fun hmem => ?_
      cases t.kind.isWord_name '\n' hmem
    rw [toList_listTokensWith_cons, List.count_append, hname, List.count_cons, List.count_append,
      count_quoteWith, List.count_cons, ih, List.length_cons]
    simp

end Lines

/-! ### Trees -/

/-- A parameter in JSON shows its name and its type. -/
theorem Parameter.toJson_injective : Function.Injective Parameter.toJson := by
  intro p q h
  obtain ⟨name, type⟩ := p
  simp only [Parameter.toJson, Json.record.injEq, List.cons.injEq, Prod.mk.injEq, Json.text.injEq,
    true_and, and_true] at h
  obtain ⟨rfl, rfl⟩ := h
  rfl

/-- So does one in an outline. -/
theorem Parameter.toOutline_injective : Function.Injective Parameter.toOutline := by
  intro p q h
  obtain ⟨name, type⟩ := p
  simp only [Parameter.toOutline, Outline.record.injEq, List.cons.injEq, Prod.mk.injEq,
    Outline.text.injEq, true_and, and_true] at h
  obtain ⟨rfl, rfl⟩ := h
  rfl

mutual

/-- A declaration in JSON shows its parts. Its body is a list of declarations, so this and the next
go by induction on the tree. -/
theorem FunctionDecl.toJson_inj : ∀ {d e : FunctionDecl}, d.toJson = e.toJson → d = e
  | ⟨_, _, _, _⟩, ⟨_, _, _, _⟩, h => by
    simp only [FunctionDecl.toJson, Json.record.injEq, List.cons.injEq, Prod.mk.injEq,
      Json.text.injEq, Json.list.injEq, true_and, and_true] at h
    obtain ⟨hkeyword, rfl, harguments, hbody⟩ := h
    -- the keyword by its name, the arguments one by one, the body by induction
    rw [TokenKind.name_injective hkeyword,
      List.map_injective_iff.2 Parameter.toJson_injective harguments, Scope.toJsons_inj hbody]

theorem Scope.toJsons_inj : ∀ {s t : List FunctionDecl}, Scope.toJsons s = Scope.toJsons t → s = t
  | [], [], _ => rfl
  | [], _ :: _, h => by cases h
  | _ :: _, [], h => by cases h
  | _ :: _, _ :: _, h => by
    obtain ⟨hfirst, hrest⟩ := List.cons.inj h
    rw [FunctionDecl.toJson_inj hfirst, Scope.toJsons_inj hrest]

end

mutual

/-- An outline shows the same parts, by the same induction. -/
theorem FunctionDecl.toOutline_inj : ∀ {d e : FunctionDecl}, d.toOutline = e.toOutline → d = e
  | ⟨_, _, _, _⟩, ⟨_, _, _, _⟩, h => by
    simp only [FunctionDecl.toOutline, Outline.tagged.injEq, Outline.record.injEq, List.cons.injEq,
      Prod.mk.injEq, Outline.name.injEq, Outline.text.injEq, Outline.list.injEq, true_and,
      and_true] at h
    obtain ⟨hkeyword, rfl, harguments, hbody⟩ := h
    rw [TokenKind.name_injective hkeyword,
      List.map_injective_iff.2 Parameter.toOutline_injective harguments,
      Scope.toOutlines_inj hbody]

theorem Scope.toOutlines_inj :
    ∀ {s t : List FunctionDecl}, Scope.toOutlines s = Scope.toOutlines t → s = t
  | [], [], _ => rfl
  | [], _ :: _, h => by cases h
  | _ :: _, [], h => by cases h
  | _ :: _, _ :: _, h => by
    obtain ⟨hfirst, hrest⟩ := List.cons.inj h
    rw [FunctionDecl.toOutline_inj hfirst, Scope.toOutlines_inj hrest]

end

/-! ### The names in an outline -/

/-- The names that a parameter has in an outline are fixed, and words. -/
theorem Parameter.named_toOutline (p : Parameter) : p.toOutline.Named := by
  have hkeys : ∀ key ∈ ["name", "ty"], Outline.IsWord key := by decide
  refine .record (by decide) hkeys ?_
  rw [List.forall_mem_cons, List.forall_mem_singleton]
  exact ⟨.text p.name, .text p.type⟩

/-- The outline of a scope, if those of its declarations are known. -/
theorem Scope.named_of_items {items : List Outline} (hitems : ∀ item ∈ items, item.Named) :
    (Outline.record "Scope" [("body", .list items)]).Named := by
  have hkeys : ∀ key ∈ ["body"], Outline.IsWord key := by decide
  refine .record (by decide) hkeys ?_
  rw [List.forall_mem_singleton]
  exact .list hitems

mutual

/-- The names of an outline are those of its fields, sorts and kinds. All of them are words, at
every depth. -/
theorem FunctionDecl.named_toOutline : ∀ d : FunctionDecl, d.toOutline.Named
  | ⟨keyword, name, arguments, body⟩ => by
    have hkeys : ∀ key ∈ ["keyword", "name", "arguments", "body"], Outline.IsWord key := by decide
    have harguments : ∀ item ∈ arguments.map Parameter.toOutline, item.Named := by
      intro item hitem
      obtain ⟨p, -, rfl⟩ := List.mem_map.1 hitem
      exact p.named_toOutline
    refine .tagged (by decide) (.record (by decide) hkeys ?_)
    rw [List.forall_mem_cons, List.forall_mem_cons, List.forall_mem_cons, List.forall_mem_singleton]
    -- the text of a declaration is quoted, only its kind is shown as a name
    exact ⟨.name keyword.isWord_name, .text name, .list harguments,
      Scope.named_of_items (Scope.named_toOutlines body)⟩

theorem Scope.named_toOutlines : ∀ (s : List FunctionDecl), ∀ item ∈ Scope.toOutlines s, item.Named
  | [], _, hitem => by cases hitem
  | d :: ds, item, hitem => by
    obtain rfl | hitem := List.mem_cons.1 hitem
    · exact d.named_toOutline
    · exact Scope.named_toOutlines ds item hitem

end

/-! ### Scopes -/

/-- A tree in JSON is the tree of one source only. -/
theorem Scope.toJson_injective : Function.Injective Scope.toJson := by
  intro s t h
  simp only [Scope.toJson, Json.record.injEq, List.cons.injEq, Prod.mk.injEq, Json.list.injEq,
    true_and, and_true] at h
  exact Scope.toJsons_inj h

/-- So is one in an outline, before it is laid out. -/
theorem Scope.toOutline_injective : Function.Injective Scope.toOutline := by
  intro s t h
  simp only [Scope.toOutline, Outline.record.injEq, List.cons.injEq, Prod.mk.injEq,
    Outline.list.injEq, true_and, and_true] at h
  exact Scope.toOutlines_inj h

theorem Scope.named_toOutline (s : Scope) : s.toOutline.Named :=
  Scope.named_of_items (Scope.named_toOutlines s)

/-- **Dumps determine what they show**, whichever runes are hidden. The JSON text of tokens
determines the tokens; their lines are as many as they are, and determine their kinds and texts.
Both texts of a tree determine the tree. -/
theorem dumps_determine (hidden : Char → Bool) (ts us : List Token) (tree other : Scope) :
    ((tokensToJson ts).pretty = (tokensToJson us).pretty ↔ ts = us) ∧
    (listTokensWith hidden ts).toList.count '\n' = ts.length ∧
    (listTokensWith hidden ts = listTokensWith hidden us ↔
      ts.map (fun t => (t.kind, t.text)) = us.map fun t => (t.kind, t.text)) ∧
    (tree.toJson.pretty = other.toJson.pretty ↔ tree = other) ∧
    (tree.toOutline.prettyWith hidden = other.toOutline.prettyWith hidden ↔ tree = other) := by
  refine ⟨⟨fun h => ?_, fun h => by rw [h]⟩, count_listTokensWith ts, ⟨fun h => ?_, fun h => ?_⟩,
    ⟨fun h => ?_, fun h => by rw [h]⟩, ⟨fun h => ?_, fun h => by rw [h]⟩⟩
  · exact tokensToJson_injective (Json.pretty_inj h)
  · exact listTokensWith_inj (congrArg String.toList h)
  · rw [listTokensWith_eq_join, listTokensWith_eq_join, h]
  · exact Scope.toJson_injective (Json.pretty_inj h)
  · exact Scope.toOutline_injective
      (Outline.prettyWith_inj tree.named_toOutline other.named_toOutline h)

end DeclFront
