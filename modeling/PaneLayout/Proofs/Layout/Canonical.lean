import Mathlib.Algebra.Module.Submodule.Lattice
import Mathlib.Data.List.Permutation
import PaneLayout.Plan
import PaneLayout.Proofs.Json.Canonical
import PaneLayout.Proofs.Layout.Consumption
import PaneLayout.Proofs.Layout.Places

set_option autoImplicit false

/-!
# Configurations that have been read are read back

A configuration may be written in many ways, and is printed in one. Whatever text it was read from,
it is read back from the printed one, unless a floating-point number is in it. So both texts give
the same plan, or the same fault.

## Main definitions

* `PaneLayout.Node.Described` — layouts that are described by a canonical value.
* `PaneLayout.Node.FloatFree` — layouts without floating-point numbers.

## Main results

* `PaneLayout.Node.Described.readBack` — a described layout is read back.
* `PaneLayout.LayoutConfig.described_of_parse` — the layout that is read is described.
* `PaneLayout.LayoutConfig.parse_render_of_parse` — a configuration that was read is read back.

## Implementation notes

The text of the example is read by `cbv`, which rewrites with the equations of the functions that it
meets. The two modules of Mathlib are imported for those of `≤` and `Prod.snd`.
-/

namespace PaneLayout

open Json (Gives)

namespace Node

/-- **Layouts that are described** by a canonical value. -/
def Described (levels : Nat) (n : Node) : Prop := ∃ v, Json.Canonical levels v ∧ ofJson v = n

/-- **Layouts without floating-point numbers**: none is in a value that is no command and no group.
-/
def FloatFree (n : Node) : Prop := ∀ path v, n.get? path = some (.invalid v) → v.FloatFree

/-- No floating-point number is in a command. -/
theorem floatFree_command (text : String) : (command text).FloatFree := by
  intro path v hv
  cases path <;> simp [get?] at hv

/-- What is no command and no group is a value as it is. -/
theorem floatFree_invalid {v : Json} : (invalid v).FloatFree ↔ v.FloatFree := by
  refine ⟨fun h => h [] v rfl, fun h path w hw => ?_⟩
  cases path with
  | nil =>
    obtain rfl : v = w := by simpa using hw
    exact h
  | cons i path => simp [get?] at hw

/-- A group has what its children have. -/
theorem floatFree_group {children : List Node} :
    (group children).FloatFree ↔ ∀ n ∈ children, n.FloatFree := by
  constructor
  · intro h n hn path v hv
    obtain ⟨i, hi⟩ := List.mem_iff_getElem?.1 hn
    exact h (i :: path) v (by rw [get?_group_cons, hi]; exact hv)
  · intro h path v hv
    cases path with
    | nil => simp at hv
    | cons i path =>
      rw [get?_group_cons, Option.bind_eq_some_iff] at hv
      obtain ⟨n, hn, hv⟩ := hv
      exact h n (List.mem_of_getElem? hn) path v hv

/-- If no floating-point number is in a layout, none is in the value that describes it. -/
theorem FloatFree.value {levels : Nat} {v : Json} (hv : Json.Canonical levels v)
    (h : (ofJson v).FloatFree) : v.FloatFree := by
  induction hv with
  | null | bool _ | int _ | float _ | object _ _ _ => exact floatFree_invalid.1 h
  | string s => exact .string s
  | array _ ih =>
    rw [ofJson, ofJsons_eq_map, floatFree_group] at h
    exact .array fun v hv => ih v hv (h _ (List.mem_map_of_mem hv))

/-- **A described layout is read back**, if no floating-point number is in it. -/
theorem Described.readBack {levels : Nat} {n : Node} (h : n.Described levels)
    (hfree : n.FloatFree) : n.ReadBack levels := by
  obtain ⟨v, hv, rfl⟩ := h
  refine ⟨?_, by rw [toJson_ofJson]⟩
  rw [toJson_ofJson]
  exact hv.readable (hfree.value hv)

end Node

namespace LayoutConfig

/-- A layout that has been read as a value is described. -/
theorem described_of_readValue {levels : Nat} {s rest : List Char} {v : Json}
    (h : Json.readValue levels s = .ok (v, rest)) : (Node.ofJson v).Described levels :=
  ⟨v, Json.value_gives _ _ _ _ _ h, rfl⟩

/-- Reading a field keeps the layout that has been found, or finds one that is described. -/
theorem readField_gives {levels : Nat} {key : String} {found : Fields}
    {read : List Char → Except Json.Fault (Fields × List Char)}
    (h : readField levels key found = .ok read)
    (hfound : ∀ n ∈ found.layout, n.Described levels) :
    Gives (fun found' => ∀ n ∈ found'.layout, n.Described levels) read := by
  intro s found' rest hread
  rcases readField_cases h hread with ⟨v, -, hvalue, rfl⟩ | ⟨e, -, -, rfl⟩ | ⟨-, rfl⟩
  · rintro _ ⟨⟩
    exact described_of_readValue hvalue
  · exact hfound
  · exact hfound

/-- A configuration that is written as an object has a layout that is described. -/
theorem readObject_gives (levels : Nat) :
    Gives (fun c => c.layout.Described levels) (readObject levels) := by
  intro s c rest h
  obtain ⟨found, hfields, hof⟩ := exists_of_readObject h
  have hfound : ∀ n ∈ found.layout, n.Described levels :=
    Json.readFields_gives (fun _ _ _ => readField_gives) (by simp) _ _ _ _ _ hfields
  exact hfound c.layout (of_ofFields hof).1

/-- A configuration that is written as an array has a layout that is described. -/
theorem readArray_gives (levels : Nat) :
    Gives (fun c => c.layout.Described levels) (readArray levels) := by
  intro s c rest h
  obtain ⟨v, t, u, more, w, -, hvalue, -, hlayout, -⟩ := exists_of_readArray h
  rw [hlayout]
  exact described_of_readValue hvalue

/-- **The layout that is read is described**, with a level less than a document may have: the
configuration around it takes one. -/
theorem described_of_parse {text : String} {c : LayoutConfig} (h : parse text = .ok c) :
    c.layout.Described (nestingLimit - 1) := by
  obtain ⟨rest, hread⟩ := Json.eq_ok_of_finish h
  exact Json.readRecord_gives (readArray_gives _) (readObject_gives _) _ _ _ hread

/-- **Configurations that have been read are read back.** However a configuration is written, with
blanks and escapes, with fields that are passed over, as an object or as an array, with its mode
given, missing or null: it is read back from the text that is printed for it, unless its layout has
a floating-point number in a value that is no command and no group. Both texts give the same plan,
or the same fault.

**Proof sketch.** The value that was read as the layout is canonical (`described_of_parse`), and is
printed as it is, since nodes and values correspond one to one. A canonical value is read back from
its text within the levels in which it was read (`Json.Canonical.readable`): its whole numbers fit,
and its members are in order, so none of them is moved or lost. -/
theorem parse_render_of_parse {text : String} {c : LayoutConfig} (h : parse text = .ok c)
    (hfree : c.layout.FloatFree) :
    parse c.render = .ok c ∧ ∀ defaultEntry,
      (parse c.render).map (Plan.build · defaultEntry) =
        (parse text).map (Plan.build · defaultEntry) := by
  have hback : c.layout.ReadBack (nestingLimit - 1) := (described_of_parse h).readBack hfree
  have hlimit : nestingLimit - 1 + 1 = nestingLimit := rfl
  have hread := read_toJson hback []
  rw [List.append_nil, hlimit] at hread
  have hparse : parse c.render = .ok c := by
    rw [parse, render, Json.render, String.toList_ofList, hread]
    rfl
  exact ⟨hparse, fun defaultEntry => by rw [hparse, h]⟩

/-- A text with blanks, escapes and a field that is passed over, and with an object in place of a
command, whose members are out of order and come twice. -/
theorem parse_render_of_parse_untidy :
    let text :=
      "\x7b \"x\": [1.5], \"layout\": [\"\\/bin\\/sh\", \x7b\"b\":1, \"a\":-7, \"b\":[]\x7d]\x7d"
    let c : LayoutConfig :=
      ⟨.group [.command "/bin/sh", .invalid (.object [("a", .int (-7)), ("b", .array [])])], none⟩
    parse text = .ok c ∧ c.layout.FloatFree ∧
      c.render = "\x7b\"layout\":[\"/bin/sh\",\x7b\"a\":-7,\"b\":[]\x7d]\x7d" ∧
      parse c.render = .ok c := by
  intro text c
  have hparse : parse text = .ok c := by simp only [text, c]; cbv
  have hfree : c.layout.FloatFree := by
    have hobject : Json.FloatFree (.object [("a", .int (-7)), ("b", .array [])]) := by
      refine .object fun m hm => ?_
      simp only [List.mem_cons, List.not_mem_nil, or_false] at hm
      rcases hm with rfl | rfl
      · exact .int _
      · exact .array (by simp)
    simp [c, Node.floatFree_group, Node.floatFree_command, Node.floatFree_invalid, hobject]
  exact ⟨hparse, hfree, by decide, (parse_render_of_parse hparse hfree).1⟩

end LayoutConfig

end PaneLayout
