import PaneLayout.Layout.JsonForm
import PaneLayout.Proofs.Json.RoundTrip

set_option autoImplicit false

/-!
# Requests are read back

A configuration or a request is read back from the text that is written for it if its layout is. A
layout of commands and groups is, if its groups are nested so deep that the limit of a document has
room for them and for the objects around them.

## Main definitions

* `PaneLayout.Node.Nested` — layouts of commands and groups, nested at most so deep.
* `PaneLayout.Node.ReadBack` — layouts that are read back.

## Main results

* `PaneLayout.Node.Nested.ofJson_toJson`, `PaneLayout.Node.Nested.legible` — such a layout comes
  back from its JSON value, and the value from its text.
* `PaneLayout.LayoutConfig.read_toJson` — a configuration is read back.
* `PaneLayout.LayoutRequest.parse_render` — a request is read back.
-/

namespace PaneLayout

namespace Node

/-- **Nesting.** Layouts of commands and groups in which at most that many groups contain each
other. -/
inductive Nested : Nat → Node → Prop where
  | command {depth : Nat} (text : String) : Nested depth (.command text)
  | group {depth : Nat} {children : List Node} (inside : ∀ n ∈ children, Nested depth n) :
    Nested (depth + 1) (.group children)

/-- The JSON values of nodes, one by one. -/
theorem toJsons_eq_map (ns : List Node) : toJsons ns = ns.map toJson := by
  induction ns with
  | nil => rfl
  | cons n ns ih => rw [toJsons, ih, List.map_cons]

/-- The nodes of JSON values, one by one. -/
theorem ofJsons_eq_map (vs : List Json) : ofJsons vs = vs.map ofJson := by
  induction vs with
  | nil => rfl
  | cons v vs ih => rw [ofJsons, ih, List.map_cons]

namespace Nested

variable {depth : Nat} {n : Node}

/-- A layout of commands and groups comes back from its JSON value. -/
theorem ofJson_toJson (h : n.Nested depth) : ofJson n.toJson = n := by
  induction h with
  | command text => rfl
  | group inside ih =>
    rw [toJson, ofJson, toJsons_eq_map, ofJsons_eq_map, List.map_map]
    have hback := List.map_congr_left (f := ofJson ∘ toJson) (g := id) ih
    rw [hback, List.map_id]

/-- **The JSON value of a layout is read back** from its text, if as many levels may be open as its
groups are nested deep. -/
theorem legible (h : n.Nested depth) {levels : Nat} (hlevels : depth ≤ levels) :
    Json.Legible levels n.toJson := by
  induction h generalizing levels with
  | command text => exact .string levels text
  | group inside ih =>
    obtain ⟨levels, rfl⟩ : ∃ k, levels = k + 1 := ⟨levels - 1, by omega⟩
    rw [toJson, toJsons_eq_map]
    refine .array fun v hv => ?_
    obtain ⟨child, hchild, rfl⟩ := List.mem_map.1 hv
    exact (ih child hchild (by omega)).readable

end Nested

/-- **Layouts that are read back**: the JSON value of the layout from its text, and the layout from
this value. -/
structure ReadBack (levels : Nat) (n : Node) : Prop where
  readable : Json.Readable levels n.toJson
  ofJson_toJson : ofJson n.toJson = n

/-- Layouts of commands and groups are read back. -/
theorem Nested.readBack {depth levels : Nat} {n : Node} (h : n.Nested depth)
    (hlevels : depth ≤ levels) : n.ReadBack levels :=
  ⟨(h.legible hlevels).readable, h.ofJson_toJson⟩

end Node

namespace LayoutConfig

/-- The text of a configuration behind its brace. -/
def members (c : LayoutConfig) : List Char :=
  Json.quote "layout" ++ ':' :: (c.layout.toJson.chars ++ (match c.entry with
    | none => ['}']
    | some e => ',' :: (Json.quote "entry" ++ ':' :: (Json.quote e ++ ['}']))))

/-- The text of a configuration. -/
theorem chars_toJson (c : LayoutConfig) : c.toJson.chars = '{' :: c.members := by
  obtain ⟨layout, entry⟩ := c
  cases entry <;> simp [toJson, members, Json.chars, Json.moreMembers]

/-- The layout is read. -/
theorem readField_layout {layout : Node} {levels : Nat} (h : layout.ReadBack levels)
    {rest : List Char} (hrest : Json.Follows rest) :
    ∃ read, readField levels "layout" ⟨none, none⟩ = .ok read ∧
      read (layout.toJson.chars ++ rest) = .ok (⟨some layout, none⟩, rest) := by
  refine ⟨_, rfl, ?_⟩
  simp [h.readable.readValue hrest, h.ofJson_toJson, Except.map]

/-- The name of the mode is read. -/
theorem readField_entry (levels : Nat) (layout : Node) (e : String) (rest : List Char) :
    ∃ read, readField levels "entry" ⟨some layout, none⟩ = .ok read ∧
      read (Json.quote e ++ rest) = .ok (⟨some layout, some (some e)⟩, rest) := by
  refine ⟨_, rfl, ?_⟩
  simp [Json.readOptionalString_quote, Except.map]

/-- The members of a configuration are read. -/
theorem readFields_members {c : LayoutConfig} {levels : Nat} (h : c.layout.ReadBack levels)
    (steps : Nat) (rest : List Char) :
    Json.readFields (readField levels) (steps + 3) true ⟨none, none⟩ (c.members ++ rest) =
      .ok (⟨some c.layout, c.entry.map some⟩, rest) := by
  obtain ⟨layout, entry⟩ := c
  cases entry with
  | none =>
    obtain ⟨read, hfield, hread⟩ :=
      readField_layout h (Json.follows_cons (c := '}') (by decide) rest)
    have hnext := Json.nextMember_first "layout" (':' :: (layout.toJson.chars ++ '}' :: rest))
    have hmember := Json.readFields_member hnext hfield hread (steps + 2)
    simpa [members, Json.readFields_end] using hmember
  | some e =>
    let more := ':' :: (Json.quote e ++ '}' :: rest)
    obtain ⟨read, hfield, hread⟩ :=
      readField_layout h (Json.follows_cons (c := ',') (by decide) (Json.quote "entry" ++ more))
    have hnext := Json.nextMember_first "layout"
      (':' :: (layout.toJson.chars ++ ',' :: (Json.quote "entry" ++ more)))
    have hmember := Json.readFields_member hnext hfield hread (steps + 2)
    obtain ⟨readEntry, hentry, hreadEntry⟩ := readField_entry levels layout e ('}' :: rest)
    have hnextEntry := Json.nextMember_next "entry" more
    have hmemberEntry := Json.readFields_member hnextEntry hentry hreadEntry (steps + 1)
    rw [hmemberEntry, Json.readFields_end] at hmember
    simpa [members, more] using hmember

/-- **A configuration is read back** from its text, whatever follows it. -/
theorem read_toJson {c : LayoutConfig} {levels : Nat} (h : c.layout.ReadBack levels)
    (rest : List Char) :
    read (levels + 1) (c.toJson.chars ++ rest) = .ok (c, rest) := by
  obtain ⟨steps, hsteps⟩ : ∃ k, (c.members ++ rest).length + 1 = k + 3 := by
    have hlong : 2 ≤ c.members.length := by simp [members, Json.quote]; omega
    exact ⟨(c.members ++ rest).length - 2, by rw [List.length_append]; omega⟩
  have hfields := readFields_members h steps rest
  have hentry : (c.entry.map some).getD none = c.entry := by cases c.entry <;> rfl
  rw [chars_toJson, List.cons_append, read, Json.readRecord_object, readObject, hsteps, hfields]
  simp [bind, Except.bind, pure, Except.pure, ofFields, hentry]

end LayoutConfig

namespace LayoutRequest

/-- The text of a request. -/
theorem chars_toJson (r : LayoutRequest) : r.toJson.chars =
    '{' :: (Json.quote "config" ++ ':' :: (r.config.toJson.chars ++
      ',' :: (Json.quote "cwd" ++ ':' :: (Json.quote r.cwd ++ ['}'])))) := by
  simp [toJson, Json.chars, Json.moreMembers]

/-- The configuration is read. -/
theorem readField_config {c : LayoutConfig} {levels : Nat} (h : c.layout.ReadBack levels)
    (rest : List Char) :
    ∃ read, readField (levels + 1) "config" ⟨none, none⟩ = .ok read ∧
      read (c.toJson.chars ++ rest) = .ok (⟨some c, none⟩, rest) := by
  refine ⟨_, rfl, ?_⟩
  simp [LayoutConfig.read_toJson h, Except.map]

/-- The directory is read. -/
theorem readField_cwd (levels : Nat) (c : LayoutConfig) (cwd : String) (rest : List Char) :
    ∃ read, readField levels "cwd" ⟨some c, none⟩ = .ok read ∧
      read (Json.quote cwd ++ rest) = .ok (⟨some c, some cwd⟩, rest) := by
  refine ⟨_, rfl, ?_⟩
  simp [Json.readString_quote, Except.map]

/-- A request is read back from its text, whatever follows it. -/
theorem read_toJson {r : LayoutRequest} {levels : Nat} (h : r.config.layout.ReadBack levels)
    (rest : List Char) :
    read (levels + 2) (r.toJson.chars ++ rest) = .ok (r, rest) := by
  let last := ':' :: (Json.quote r.cwd ++ '}' :: rest)
  let members := Json.quote "config" ++ ':' :: (r.config.toJson.chars ++
    ',' :: (Json.quote "cwd" ++ last))
  have hfields : ∀ steps, Json.readFields (readField (levels + 1)) (steps + 3) true ⟨none, none⟩
      members = .ok (⟨some r.config, some r.cwd⟩, rest) := by
    intro steps
    obtain ⟨readConfig, hconfig, hreadConfig⟩ :=
      readField_config h (',' :: (Json.quote "cwd" ++ last))
    have hnext := Json.nextMember_first "config"
      (':' :: (r.config.toJson.chars ++ ',' :: (Json.quote "cwd" ++ last)))
    have hmember := Json.readFields_member hnext hconfig hreadConfig (steps + 2)
    obtain ⟨readCwd, hcwd, hreadCwd⟩ := readField_cwd (levels + 1) r.config r.cwd ('}' :: rest)
    have hnextCwd := Json.nextMember_next "cwd" last
    have hmemberCwd := Json.readFields_member hnextCwd hcwd hreadCwd (steps + 1)
    rw [hmember, hmemberCwd, Json.readFields_end]
  obtain ⟨steps, hsteps⟩ : ∃ k, members.length + 1 = k + 3 := by
    have hlong : 2 ≤ members.length := by simp [members, Json.quote]; omega
    exact ⟨members.length - 2, by omega⟩
  have happend : r.toJson.chars ++ rest = '{' :: members := by
    simp [chars_toJson, members, last]
  rw [happend, read, Json.readRecord_object, readObject, hsteps, hfields]
  rfl

/-- **A request is read back** from the text that is written for it. -/
theorem parse_render {r : LayoutRequest} {depth : Nat} (h : r.config.layout.Nested depth)
    (hdepth : depth + 2 ≤ nestingLimit) : parse r.render.toList = .ok r := by
  have hback : r.config.layout.ReadBack (nestingLimit - 2) := h.readBack (by omega)
  have hlimit : nestingLimit - 2 + 2 = nestingLimit := rfl
  have hread := read_toJson hback []
  rw [List.append_nil, hlimit] at hread
  rw [parse, render, Json.render, String.toList_ofList, hread]
  rfl

end LayoutRequest

end PaneLayout
