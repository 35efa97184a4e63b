import PaneLayout.Proofs.Json.Cursor
import PaneLayout.Proofs.Layout.Reading
import PaneLayout.Proofs.Layout.Texts

set_option autoImplicit false

/-!
# Requests are balanced

Whatever is read as a configuration or as a request closes the brackets that it opens. The text that
is written for a request is an object, so no beginning of it is read as a request. Read from inside
one of its literals, it is no request either: the keys are not found.

## Main results

* `PaneLayout.LayoutRequest.balanced_of_parse` — a request is read from balanced texts only.
* `PaneLayout.LayoutRequest.parse_of_prefix` — no request is read from a beginning of the text of a
  request.
* `PaneLayout.LayoutRequest.parse_of_printed` — none is read from what stands inside a literal of a
  printed text.
-/

namespace PaneLayout

open Json (Leaves Passes Balanced Printed)

namespace LayoutConfig

/-- The value of a field is passed. -/
theorem readField_leaves {levels : Nat} {key : String} {found : Fields}
    {read : List Char → Except Json.Fault (Fields × List Char)}
    (h : readField levels key found = .ok read) : Leaves [] read := by
  intro s found' rest hread
  rcases readField_cases h hread with ⟨v, -, hvalue, -⟩ | ⟨e, -, hentry, -⟩ | ⟨hskip, -⟩
  · exact Json.value_leaves _ _ _ _ _ _ hvalue
  · exact Json.readOptionalString_leaves _ _ _ _ hentry
  · exact Json.passes_of_skipValue hskip

/-- The array form is passed up to its bracket. -/
theorem readArray_leaves (levels : Nat) : Leaves [']'] (readArray levels) := by
  intro s c rest h
  obtain ⟨v, t, u, more, w, hfirst, hvalue, hnext, -, hend⟩ := exists_of_readArray h
  have hlayout := (Json.passes_of_nextItem hfirst).trans (Json.value_leaves _ _ _ _ _ _ hvalue)
  have hsecond := hlayout.trans (Json.passes_of_nextItem hnext)
  rcases hend with ⟨rfl, -, rfl⟩ | ⟨rfl, x, hentry, hend⟩
  · exact hsecond
  · exact (hsecond.trans (Json.readOptionalString_leaves _ _ _ _ hentry)).trans
      (Json.passes_of_endItems hend)

/-- The object form is passed up to its brace. -/
theorem readObject_leaves (levels : Nat) : Leaves ['}'] (readObject levels) := by
  intro s c rest h
  obtain ⟨found, hfields, -⟩ := exists_of_readObject h
  exact Json.readFields_leaves (fun _ _ _ hread => readField_leaves hread) _ _ _ _ _ _ hfields

/-- **A configuration is passed.** -/
theorem read_leaves (levels : Nat) : Leaves [] (read levels) :=
  Json.readRecord_leaves readArray_leaves readObject_leaves levels

/-- The text of a configuration is balanced. -/
theorem balanced_chars {c : LayoutConfig} {depth : Nat} (h : c.layout.Nested depth) :
    Balanced c.toJson.chars := by
  have hread := read_toJson (h.readBack (Nat.le_refl depth)) []
  obtain ⟨x, hx, hbalanced⟩ := read_leaves _ _ _ _ hread
  rw [List.append_cancel_right hx]
  exact hbalanced

/-- The text of a configuration ends with a closing brace. -/
theorem chars_eq_append_brace (c : LayoutConfig) : ∃ body, c.toJson.chars = body ++ ['}'] := by
  obtain ⟨layout, entry⟩ := c
  cases entry with
  | none =>
    refine ⟨'{' :: (Json.quote "layout" ++ ':' :: layout.toJson.chars), ?_⟩
    simp [chars_toJson, members]
  | some e =>
    refine ⟨'{' :: (Json.quote "layout" ++ ':' :: (layout.toJson.chars ++
      ',' :: (Json.quote "entry" ++ ':' :: Json.quote e))), ?_⟩
    simp [chars_toJson, members]

end LayoutConfig

namespace LayoutRequest

/-- The value of a field is passed. -/
theorem readField_leaves {levels : Nat} {key : String} {found : Fields}
    {read : List Char → Except Json.Fault (Fields × List Char)}
    (h : readField levels key found = .ok read) : Leaves [] read := by
  intro s found' rest hread
  rcases readField_cases h hread with ⟨c, -, hconfig, -⟩ | ⟨d, -, hcwd, -⟩ | ⟨hskip, -⟩
  · exact LayoutConfig.read_leaves _ _ _ _ hconfig
  · exact Json.readString_leaves _ _ _ _ hcwd
  · exact Json.passes_of_skipValue hskip

/-- The array form is passed up to its bracket. -/
theorem readArray_leaves (levels : Nat) : Leaves [']'] (readArray levels) := by
  intro s r rest h
  obtain ⟨t, u, w, x, hfirst, hconfig, hnext, hcwd, hend⟩ := exists_of_readArray h
  have hbefore := (Json.passes_of_nextItem hfirst).trans (LayoutConfig.read_leaves _ _ _ _ hconfig)
  have hsecond := hbefore.trans (Json.passes_of_nextItem hnext)
  exact (hsecond.trans (Json.readString_leaves _ _ _ _ hcwd)).trans (Json.passes_of_endItems hend)

/-- The object form is passed up to its brace. -/
theorem readObject_leaves (levels : Nat) : Leaves ['}'] (readObject levels) := by
  intro s r rest h
  obtain ⟨found, hfields, -⟩ := exists_of_readObject h
  exact Json.readFields_leaves (fun _ _ _ hread => readField_leaves hread) _ _ _ _ _ _ hfields

/-- **A request is read from balanced texts only.** -/
theorem balanced_of_parse {s : List Char} {r : LayoutRequest} (h : parse s = .ok r) :
    Balanced s :=
  Json.balanced_of_finish (Json.readRecord_leaves readArray_leaves readObject_leaves _) h

/-! ### From the beginning -/

/-- The text of a request is an object with a balanced text in it. -/
theorem exists_balanced {r : LayoutRequest} {depth : Nat} (h : r.config.layout.Nested depth) :
    ∃ body, Balanced body ∧ r.render.toList = '{' :: (body ++ ['}']) := by
  have hmark : ∀ c : Char, c ∉ Json.special → ∀ s, Balanced s → Balanced (c :: s) :=
    fun c hc s hs => .append (.plain hc) hs
  refine ⟨Json.quote "config" ++ ':' :: (r.config.toJson.chars ++
    ',' :: (Json.quote "cwd" ++ ':' :: Json.quote r.cwd)), ?_, ?_⟩
  · have hcwd := hmark ':' (by decide) _ (Json.balanced_quote r.cwd)
    have hmember := hmark ',' (by decide) _ (.append (Json.balanced_quote "cwd") hcwd)
    have hconfig := hmark ':' (by decide) _ (.append (LayoutConfig.balanced_chars h) hmember)
    exact .append (Json.balanced_quote "config") hconfig
  · simp [render, Json.render, chars_toJson]

/-- **No request is read from a beginning** of the text that is written for a request: there are
brackets left open. -/
theorem parse_of_prefix {r : LayoutRequest} {depth : Nat} (h : r.config.layout.Nested depth)
    {s : List Char} (hs : s <+: r.render.toList) (hne : s ≠ []) (hproper : s ≠ r.render.toList)
    (found : LayoutRequest) : parse s ≠ .ok found := by
  obtain ⟨body, hbody, hrender⟩ := exists_balanced h
  rw [hrender] at hs hproper
  intro hparse
  exact Json.not_balanced_of_prefix hbody hs hne hproper (balanced_of_parse hparse)

/-! ### From inside a literal -/

/-- Keys that have nothing but punctuation marks in them are passed over. -/
theorem readField_of_punctuation {key : String}
    (hkey : ∀ c ∈ key.toList, c ∈ Json.Token.punctuation) (levels : Nat) (found : Fields) :
    readField levels key found = .ok fun s => (Json.skipValue s).map (found, ·) := by
  have hconfig : key ≠ "config" := by
    rintro rfl
    exact absurd (hkey 'c' (by decide)) (by decide)
  have hcwd : key ≠ "cwd" := by
    rintro rfl
    exact absurd (hkey 'c' (by decide)) (by decide)
  rw [readField, if_neg hconfig, if_neg hcwd]

/-- A text that ends with a closing brace does not hold an array. -/
theorem ne_array_of_brace {s t rest : List Char} (hopen : Passes (s ++ ['}']) ('[' :: t))
    (hclose : Passes t (']' :: rest)) : Json.skipSpace rest ≠ [] := by
  intro hblank
  obtain ⟨x, hx, -⟩ := hopen
  obtain ⟨y, rfl, -⟩ := hclose
  have hsplit : x ++ '[' :: (y ++ ']' :: rest) = x ++ '[' :: y ++ ']' :: rest := by simp
  have hlast := congrArg List.getLast? (hx.trans hsplit)
  rw [List.getLast?_concat, List.getLast?_append_of_ne_nil _ (by simp)] at hlast
  have hmem := List.mem_of_getLast? hlast.symm
  rw [Json.skipSpace, List.dropWhile_eq_nil_iff] at hblank
  rcases List.mem_cons.1 hmem with hsame | hmem
  · exact absurd hsame (by decide)
  · exact absurd (hblank _ hmem) (by decide)

/-- **No request is read from inside a literal** of a printed text up to a closing brace. If there
is an object at all, no field of a request is found in it. -/
theorem parse_of_printed {s : List Char} (hprinted : Printed .inside (s ++ ['}']))
    (found : LayoutRequest) : parse (s ++ ['}']) ≠ .ok found := by
  intro hparse
  obtain ⟨rest, hread⟩ := Json.eq_ok_of_finish hparse
  rw [parse, hread] at hparse
  have hblank := Json.skipSpace_of_finish hparse
  rw [read, Json.readRecord.eq_def] at hread
  split at hread
  case h_4 t levels heq _ =>
    have hclose := readArray_leaves levels t found rest hread
    exact ne_array_of_brace (Json.passes_of_skipSpace heq) hclose hblank
  case h_5 t levels heq _ =>
    have hbehind := (Json.passes_of_skipSpace heq).printed hprinted
    obtain ⟨fields, hfields, hof⟩ := exists_of_readObject hread
    obtain rfl := Json.readFields_of_printed (fun key found hkey =>
      readField_of_punctuation hkey levels found) hbehind.2 hfields
    simp [ofFields] at hof
  all_goals simp at hread

end LayoutRequest

end PaneLayout
