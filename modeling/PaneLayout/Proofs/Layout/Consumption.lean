import PaneLayout.Proofs.Layout.Reading
import PaneLayout.Proofs.Layout.Texts

set_option autoImplicit false

/-!
# No request is read from a shorter text

A request may be written in more than one way: as objects or as arrays of fields, with blanks, other
escapes and fields that are passed over. However it is written, its layout and its texts take as
much room as in the text that is printed for it.

## Main definitions

* `PaneLayout.LayoutConfig.cost`, `PaneLayout.LayoutRequest.cost` — the printed length of the layout
  and of the texts.

## Main results

* `PaneLayout.LayoutRequest.cost_le_of_parse` — a request is not read from a text shorter than that.
* `PaneLayout.LayoutRequest.length_render` — the rest of the printed text is of fixed length.
-/

namespace PaneLayout

open Json (Consumes quote span)

namespace Node

mutual

/-- A JSON value comes back from the node that it describes. -/
theorem toJson_ofJson : ∀ v : Json, (ofJson v).toJson = v
  | .null => rfl
  | .bool _ => rfl
  | .int _ => rfl
  | .float _ => rfl
  | .string _ => rfl
  | .array vs => congrArg Json.array (toJsons_ofJsons vs)
  | .object _ => rfl

/-- JSON values come back from the nodes that they describe. -/
theorem toJsons_ofJsons : ∀ vs : List Json, toJsons (ofJsons vs) = vs
  | [] => rfl
  | v :: vs => by rw [ofJsons, toJsons, toJson_ofJson v, toJsons_ofJsons vs]

end

/-- The span of a layout is its printed length. -/
theorem Nested.span_toJson {depth : Nat} {n : Node} (h : n.Nested depth) :
    span n.toJson = n.toJson.chars.length := by
  induction h with
  | command text => rfl
  | @group depth children inside ih =>
    have hmore : ∀ ns : List Node, (∀ n ∈ ns, span n.toJson = n.toJson.chars.length) →
        Json.moreItemsSpan (toJsons ns) = (Json.moreItems (toJsons ns)).length := by
      intro ns hns
      induction ns with
      | nil => rfl
      | cons n ns ihns =>
        have hn := hns n (by simp)
        have hrest := ihns fun n' hn' => hns n' (by simp [hn'])
        simp only [toJsons, Json.moreItemsSpan, Json.moreItems, List.length_cons,
          List.length_append]
        omega
    cases children with
    | nil => rfl
    | cons n ns =>
      have hn := ih n (by simp)
      have hrest := hmore ns fun n' hn' => ih n' (by simp [hn'])
      simp only [toJson, toJsons, span, Json.itemsSpan, Json.chars, List.length_cons,
        List.length_append]
      omega

end Node

/-- The length of the literal of a text that may be missing. -/
def optionalCost (text : Option String) : Nat := (text.map fun t => (quote t).length).getD 0

namespace LayoutConfig

/-- **The cost of a configuration**: the span of its layout and the literal of its mode. -/
def cost (c : LayoutConfig) : Nat := span c.layout.toJson + optionalCost c.entry

/-- The cost of the fields that have been found. -/
def Fields.cost (found : Fields) : Nat :=
  (found.layout.map fun n => span n.toJson).getD 0 + optionalCost found.entry.join

/-- Each field consumes what it adds. -/
theorem readField_consumes {levels : Nat} {key : String} {found : Fields}
    {read : List Char → Except Json.Fault (Fields × List Char)}
    (h : readField levels key found = .ok read) :
    Consumes (fun found' => found'.cost - found.cost) read := by
  intro s found' rest hread
  rcases readField_cases h hread with ⟨v, hnone, hvalue, rfl⟩ | ⟨e, hnone, hentry, rfl⟩ |
    ⟨hskip, rfl⟩
  · have hlength := Json.value_consumes _ _ _ _ _ _ hvalue
    simp only [Fields.cost, hnone, Option.map_some, Option.map_none, Option.getD_some,
      Option.getD_none, Node.toJson_ofJson]
    omega
  · have hlength := Json.readOptionalString_consumes _ _ _ _ hentry
    simp only [Fields.cost, hnone, Option.join_some, Option.join_none, optionalCost,
      Option.map_none, Option.getD_none] at hlength ⊢
    omega
  · have hlength := Json.length_of_skipValue hskip
    dsimp only
    omega

/-- An array is no shorter than the configuration that it gives. -/
theorem readArray_consumes (levels : Nat) : Consumes cost (readArray levels) := by
  intro s c rest h
  obtain ⟨v, t, u, more, w, hfirst, hvalue, hnext, hlayout, hend⟩ := exists_of_readArray h
  have hbracket := Json.length_of_nextItem hfirst
  have hlength := Json.value_consumes _ _ _ _ _ _ hvalue
  have hsecond := Json.length_of_nextItem hnext
  rcases hend with ⟨rfl, hentry, rfl⟩ | ⟨rfl, x, hentry, hend⟩
  · simp [cost, hlayout, hentry, Node.toJson_ofJson, optionalCost] at hbracket hsecond ⊢
    omega
  · have hmode := Json.readOptionalString_consumes _ _ _ _ hentry
    have hlast := Json.length_of_endItems hend
    simp [cost, hlayout, Node.toJson_ofJson, optionalCost] at hbracket hsecond hmode ⊢
    omega

/-- A configuration costs what the fields cost that it is made of. -/
theorem cost_of_ofFields {found : Fields} {c : LayoutConfig} (h : ofFields found = .ok c) :
    c.cost = found.cost := by
  obtain ⟨hlayout, hentry⟩ := of_ofFields h
  rw [cost, Fields.cost, hlayout, hentry]
  rfl

/-- An object is no shorter than the configuration that it gives. -/
theorem readObject_consumes (levels : Nat) : Consumes cost (readObject levels) := by
  intro s c rest h
  obtain ⟨found, hfields, hof⟩ := exists_of_readObject h
  have hlength : found.cost - 0 + rest.length ≤ s.length :=
    Json.readFields_consumes (fun _ _ _ hread => readField_consumes hread) _ _ _ _ _ _ hfields
  have hcost := cost_of_ofFields hof
  omega

/-- **A configuration is no shorter than its cost.** -/
theorem read_consumes (levels : Nat) : Consumes cost (read levels) :=
  Json.readRecord_consumes readArray_consumes readObject_consumes levels

/-- The length of the text of a configuration. -/
theorem length_chars {c : LayoutConfig} {depth : Nat} (h : c.layout.Nested depth) :
    c.toJson.chars.length = c.cost + 11 + if c.entry.isSome then 9 else 0 := by
  obtain ⟨layout, entry⟩ := c
  have hspan : span layout.toJson = layout.toJson.chars.length := h.span_toJson
  have hkeys : (quote "layout").length = 8 ∧ (quote "entry").length = 7 := by decide
  cases entry with
  | none =>
    simp [chars_toJson, members, cost, optionalCost, hspan, hkeys]
    omega
  | some e =>
    simp [chars_toJson, members, cost, optionalCost, hspan, hkeys]
    omega

end LayoutConfig

namespace LayoutRequest

/-- **The cost of a request**: that of its configuration and the literal of its directory. -/
def cost (r : LayoutRequest) : Nat := r.config.cost + (quote r.cwd).length

/-- The cost of the fields that have been found. -/
def Fields.cost (found : Fields) : Nat :=
  (found.config.map LayoutConfig.cost).getD 0 + optionalCost found.cwd

/-- Each field consumes what it adds. -/
theorem readField_consumes {levels : Nat} {key : String} {found : Fields}
    {read : List Char → Except Json.Fault (Fields × List Char)}
    (h : readField levels key found = .ok read) :
    Consumes (fun found' => found'.cost - found.cost) read := by
  intro s found' rest hread
  rcases readField_cases h hread with ⟨c, hnone, hconfig, rfl⟩ | ⟨d, hnone, hcwd, rfl⟩ |
    ⟨hskip, rfl⟩
  · have hlength := LayoutConfig.read_consumes _ _ _ _ hconfig
    simp only [Fields.cost, hnone, Option.map_some, Option.map_none, Option.getD_some,
      Option.getD_none]
    omega
  · have hlength := Json.readString_consumes _ _ _ _ hcwd
    simp only [Fields.cost, hnone, optionalCost, Option.map_some, Option.map_none,
      Option.getD_some, Option.getD_none] at hlength ⊢
    omega
  · have hlength := Json.length_of_skipValue hskip
    dsimp only
    omega

/-- An array is no shorter than the request that it gives. -/
theorem readArray_consumes (levels : Nat) : Consumes cost (readArray levels) := by
  intro s r rest h
  obtain ⟨t, u, w, x, hfirst, hconfig, hnext, hcwd, hend⟩ := exists_of_readArray h
  have hbracket := Json.length_of_nextItem hfirst
  have hlength := LayoutConfig.read_consumes _ _ _ _ hconfig
  have hsecond := Json.length_of_nextItem hnext
  have hdirectory := Json.readString_consumes _ _ _ _ hcwd
  have hlast := Json.length_of_endItems hend
  simp [cost] at hbracket hsecond hdirectory ⊢
  omega

/-- A request costs what the fields cost that it is made of. -/
theorem cost_of_ofFields {found : Fields} {r : LayoutRequest} (h : ofFields found = .ok r) :
    r.cost = found.cost := by
  obtain ⟨hconfig, hcwd⟩ := of_ofFields h
  rw [cost, Fields.cost, hconfig, hcwd]
  rfl

/-- An object is no shorter than the request that it gives. -/
theorem readObject_consumes (levels : Nat) : Consumes cost (readObject levels) := by
  intro s r rest h
  obtain ⟨found, hfields, hof⟩ := exists_of_readObject h
  have hlength : found.cost - 0 + rest.length ≤ s.length :=
    Json.readFields_consumes (fun _ _ _ hread => readField_consumes hread) _ _ _ _ _ _ hfields
  have hcost := cost_of_ofFields hof
  omega

/-- A request is no shorter than its cost. -/
theorem read_consumes (levels : Nat) : Consumes cost (read levels) :=
  Json.readRecord_consumes readArray_consumes readObject_consumes levels

/-- **A request is not read from a text that is shorter than its cost.** -/
theorem cost_le_of_parse {s : List Char} {r : LayoutRequest} (h : parse s = .ok r) :
    r.cost ≤ s.length := by
  obtain ⟨rest, hread⟩ := Json.eq_ok_of_finish h
  have hlength := read_consumes _ _ _ _ hread
  omega

/-- **The length of the text of a request**: its cost, and the two pairs of braces with the keys,
colons and commas. -/
theorem length_render {r : LayoutRequest} {depth : Nat} (h : r.config.layout.Nested depth) :
    r.render.toList.length = r.cost + 29 + if r.config.entry.isSome then 9 else 0 := by
  have hconfig := LayoutConfig.length_chars h
  have hkeys : (quote "config").length = 8 ∧ (quote "cwd").length = 5 := by decide
  rw [render, Json.render, String.toList_ofList, chars_toJson]
  simp [cost, hconfig, hkeys]
  omega

end LayoutRequest

end PaneLayout
