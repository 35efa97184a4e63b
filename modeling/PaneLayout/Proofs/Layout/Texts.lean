import PaneLayout.Proofs.Json.Tokens
import PaneLayout.Proofs.Layout.RoundTrip
import PaneLayout.Proofs.Tree.Numbering

set_option autoImplicit false

/-!
# The texts of a request

A request holds its commands, the name of a mode and a directory. In the text that is written for it
these are the literals, apart from the keys of its two objects.

## Main definitions

* `PaneLayout.LayoutRequest.texts` — the texts of a request.
* `PaneLayout.LayoutRequest.keys` — the keys of its objects.
* `PaneLayout.LayoutRequest.mapText` — a request with all its texts changed.

## Main results

* `PaneLayout.LayoutRequest.spell_tokens` — the tokens of a request spell the text written for it.
* `PaneLayout.LayoutRequest.regular` — they are punctuation marks and literals.
* `PaneLayout.LayoutRequest.mem_literals` — the literals are the texts and the keys.
* `PaneLayout.LayoutRequest.tokens_mapText` — changing the texts changes the literals.
* `PaneLayout.LayoutRequest.mapText_eq_self_iff` — when a request is left as it is.
-/

namespace PaneLayout

namespace Node

mutual

/-- A layout with all its commands changed. -/
def mapText (f : String → String) : Node → Node
  | .command text => .command (f text)
  | .group children => .group (mapTexts f children)
  | .invalid value => .invalid value

/-- Layouts with all their commands changed. -/
def mapTexts (f : String → String) : List Node → List Node
  | [] => []
  | n :: ns => n.mapText f :: mapTexts f ns

end

/-- Changing layouts one by one. -/
theorem mapTexts_eq_map (f : String → String) (ns : List Node) :
    mapTexts f ns = ns.map (mapText f) := by
  induction ns with
  | nil => rfl
  | cons n ns ih => rw [mapTexts, ih, List.map_cons]

/-- The commands of layouts, one by one. -/
theorem commandsOf_eq_flatMap (ns : List Node) : commandsOf ns = ns.flatMap commands := by
  induction ns with
  | nil => rfl
  | cons n ns ih => rw [commandsOf, ih, List.flatMap_cons]

namespace Nested

variable {depth : Nat} {n : Node}

/-- Changing the commands of a layout does not nest it deeper. -/
theorem mapText (h : n.Nested depth) (f : String → String) : (n.mapText f).Nested depth := by
  induction h with
  | command text => exact .command (f text)
  | group inside ih =>
    rw [Node.mapText, mapTexts_eq_map]
    refine .group fun child hchild => ?_
    obtain ⟨c, hc, rfl⟩ := List.mem_map.1 hchild
    exact ih c hc

/-- The tokens of a layout are punctuation marks and literals. -/
theorem regular (h : n.Nested depth) : ∀ t ∈ n.toJson.tokens, t.Regular := by
  induction h with
  | command text => simp [toJson, Json.tokens, Json.Token.Regular]
  | group inside ih =>
    rw [toJson, toJsons_eq_map]
    refine Json.regular_array fun v hv => ?_
    obtain ⟨child, hchild, rfl⟩ := List.mem_map.1 hv
    exact ih child hchild

/-- The literals of a layout are its commands. -/
theorem literals (h : n.Nested depth) : Json.literals n.toJson.tokens = n.commands := by
  induction h with
  | command text => rfl
  | @group depth children inside ih =>
    have hmap : children.flatMap (fun c => Json.literals c.toJson.tokens) =
        children.flatMap commands := List.flatMap_congr ih
    rw [toJson, toJsons_eq_map, Json.literals_array, List.flatMap_map, hmap, commands,
      commandsOf_eq_flatMap]

/-- Changing the commands of a layout changes its literals. -/
theorem tokens_mapText (h : n.Nested depth) (f : String → String) :
    (n.mapText f).toJson.tokens = n.toJson.tokens.map (Json.Token.mapText f) := by
  induction h with
  | command text => rfl
  | @group depth children inside ih =>
    -- the change of the JSON values is told by the nodes they came from
    have hback : ∀ c ∈ children, ofJson c.toJson = c := fun c hc => (inside c hc).ofJson_toJson
    have hvalues : (children.map (Node.mapText f)).map toJson =
        (children.map toJson).map fun v => ((ofJson v).mapText f).toJson := by
      simp only [List.map_map]
      refine List.map_congr_left fun c hc => ?_
      simp [hback c hc]
    rw [Node.mapText, mapTexts_eq_map, toJson, toJsons_eq_map, hvalues, toJson, toJsons_eq_map]
    refine Json.tokens_array_map fun v hv => ?_
    obtain ⟨c, hc, rfl⟩ := List.mem_map.1 hv
    rw [hback c hc]
    exact ih c hc

/-- A layout is left as it is exactly if all its commands are. -/
theorem mapText_eq_self_iff (h : n.Nested depth) {f : String → String} :
    n.mapText f = n ↔ ∀ text ∈ n.commands, f text = text := by
  induction h with
  | command text => simp [Node.mapText, commands]
  | @group depth children inside ih =>
    have hself : children.map (Node.mapText f) = children ↔
        ∀ c ∈ children, Node.mapText f c = c := by
      conv_lhs => rhs; rw [← List.map_id children]
      rw [List.map_inj_left]
      rfl
    rw [Node.mapText, mapTexts_eq_map, commands, commandsOf_eq_flatMap, Node.group.injEq, hself]
    simp only [List.mem_flatMap, forall_exists_index, and_imp]
    constructor
    · intro hall text c hc htext
      exact (ih c hc).1 (hall c hc) text htext
    · intro hall c hc
      exact (ih c hc).2 fun text htext => hall text c hc htext

end Nested

end Node

namespace LayoutRequest

/-- **The texts of a request**: its commands, the name of a mode if one is given, its directory. -/
def texts (r : LayoutRequest) : List String :=
  r.config.layout.commands ++ r.config.entry.toList ++ [r.cwd]

/-- The keys of the two objects. -/
def keys : List String := ["config", "layout", "entry", "cwd"]

/-- A request with all its texts changed. -/
def mapText (f : String → String) (r : LayoutRequest) : LayoutRequest :=
  ⟨⟨r.config.layout.mapText f, r.config.entry.map f⟩, f r.cwd⟩

/-- The tokens of a request. -/
def tokens (r : LayoutRequest) : List Json.Token := r.toJson.tokens

/-- **The tokens of a request spell the text** that is written for it. -/
theorem spell_tokens (r : LayoutRequest) : Json.spell r.tokens = r.render.toList := by
  rw [tokens, Json.spell_tokens, render, Json.render, String.toList_ofList]

/-- The tokens in front of the layout. -/
def headTokens : List Json.Token :=
  [.mark '{', .literal "config", .mark ':', .mark '{', .literal "layout", .mark ':']

/-- The tokens of the name of a mode, if there is one. -/
def entryTokens : Option String → List Json.Token
  | none => []
  | some e => [.mark ',', .literal "entry", .mark ':', .literal e]

/-- The tokens behind the configuration. -/
def tailTokens (cwd : String) : List Json.Token :=
  [.mark '}', .mark ',', .literal "cwd", .mark ':', .literal cwd, .mark '}']

/-- The tokens of a request around those of its layout. -/
theorem tokens_eq (r : LayoutRequest) : r.tokens = headTokens ++
    (r.config.layout.toJson.tokens ++ (entryTokens r.config.entry ++ tailTokens r.cwd)) := by
  obtain ⟨⟨layout, entry⟩, cwd⟩ := r
  cases entry <;>
    simp [tokens, toJson, LayoutConfig.toJson, Json.tokens, Json.moreMemberTokens, headTokens,
      entryTokens, tailTokens]

variable {r : LayoutRequest} {depth : Nat}

/-- **The tokens of a request are punctuation marks and literals.** -/
theorem regular (h : r.config.layout.Nested depth) : ∀ t ∈ r.tokens, t.Regular := by
  rw [tokens_eq, List.forall_mem_append, List.forall_mem_append, List.forall_mem_append]
  refine ⟨?_, h.regular, ?_, ?_⟩
  · simp [headTokens, Json.Token.Regular, Json.Token.punctuation]
  · cases r.config.entry <;> simp [entryTokens, Json.Token.Regular, Json.Token.punctuation]
  · simp [tailTokens, Json.Token.Regular, Json.Token.punctuation]

/-- **The literals of a request** are its texts and the keys of its objects. -/
theorem mem_literals (h : r.config.layout.Nested depth) {text : String} :
    (text ∈ r.texts → text ∈ Json.literals r.tokens) ∧
      (text ∈ Json.literals r.tokens → text ∈ r.texts ∨ text ∈ keys) := by
  obtain ⟨⟨layout, entry⟩, cwd⟩ := r
  have hliterals : Json.literals layout.toJson.tokens = layout.commands := h.literals
  cases entry <;>
    simp [tokens_eq, headTokens, entryTokens, tailTokens, hliterals, texts, keys] <;> grind

/-- **Changing the texts of a request changes its literals**, if the keys are left alone. -/
theorem tokens_mapText (h : r.config.layout.Nested depth) {f : String → String}
    (hkeys : ∀ k ∈ keys, f k = k) : (r.mapText f).tokens = r.tokens.map (Json.Token.mapText f) := by
  obtain ⟨⟨layout, entry⟩, cwd⟩ := r
  have hlayout : (layout.mapText f).toJson.tokens =
      layout.toJson.tokens.map (Json.Token.mapText f) := h.tokens_mapText f
  have hconfig : f "config" = "config" := hkeys _ (by decide)
  have hkey : f "layout" = "layout" := hkeys _ (by decide)
  have hentry : f "entry" = "entry" := hkeys _ (by decide)
  have hcwd : f "cwd" = "cwd" := hkeys _ (by decide)
  cases entry <;>
    simp [tokens_eq, headTokens, entryTokens, tailTokens, mapText, hlayout, Json.Token.mapText,
      hconfig, hkey, hentry, hcwd]

/-- **A request is left as it is** exactly if all its texts are. -/
theorem mapText_eq_self_iff (h : r.config.layout.Nested depth) {f : String → String} :
    r.mapText f = r ↔ ∀ text ∈ r.texts, f text = text := by
  obtain ⟨⟨layout, entry⟩, cwd⟩ := r
  have hlayout : layout.mapText f = layout ↔ ∀ text ∈ layout.commands, f text = text :=
    Node.Nested.mapText_eq_self_iff h
  cases entry <;> simp [mapText, texts, hlayout] <;> grind

end LayoutRequest

end PaneLayout
