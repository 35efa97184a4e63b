import PaneLayout.Yaml.Lexer
import PaneLayout.Yaml.Node

set_option autoImplicit false

/-!
# From tokens to nodes

## Main definitions

* `PaneLayout.Yaml.Cursor`: the tokens to come and the anchors seen.
* `PaneLayout.Yaml.node`: reads a node.
* `PaneLayout.Yaml.Document.ofTokens?`, `PaneLayout.Yaml.Document.ofText?`: the document in a text
  that holds nothing else.
-/

namespace PaneLayout.Yaml

/-- **Cursors.** The anchors seen, with their numbers, and the tokens to come. -/
structure Cursor where
  anchors : List (List Char × Nat)
  tokens : List Token

namespace Cursor

/-- The cursor before other tokens. -/
def before (tokens : List Token) (c : Cursor) : Cursor := { c with tokens }

/-- Defines an anchor. Its number is how many names have been seen. Behind a name that is defined
again a number is given out twice. -/
def define (name : List Char) (c : Cursor) : Nat × Cursor :=
  let n := c.anchors.length
  (n, { c with anchors := (name, n) :: c.anchors.filter (·.1 != name) })

end Cursor

/-- **Properties.** The anchor and the tag at the start, in either order, and the tokens behind
them. -/
def properties : List Token → Option (List Char) × Option (List Char × TagText) × List Token
  | .anchor name :: .tag handle suffix :: ts => (some name, some (handle, suffix), ts)
  | .tag handle suffix :: .anchor name :: ts => (some name, some (handle, suffix), ts)
  | .anchor name :: ts => (some name, none, ts)
  | .tag handle suffix :: ts => (none, some (handle, suffix), ts)
  | ts => (none, none, ts)

/-- What tag handles stand for. -/
abbrev Handles := List (List Char × TagText)

/-- The handles that need no directive. -/
def standardHandles : Handles :=
  [(['!'], [some '!']), (['!', '!'], "tag:yaml.org,2002:".toList.map some)]

/-- The tag with the given handle and suffix. -/
def fullTag (handles : Handles) (handle : List Char) (suffix : TagText) : Option TagText :=
  if handle.isEmpty then some suffix else (handles.lookup handle).map (· ++ suffix)

/-- **The label of a node** with the given properties. -/
def label (handles : Handles) (name : Option (List Char)) (tag : Option (List Char × TagText))
    (c : Cursor) : Option (Label × Cursor) := do
  let tag ←
    match tag with
    | none => some none
    | some (handle, suffix) => (fullTag handles handle suffix).map some
  match name with
  | none => return (⟨none, tag⟩, c)
  | some name =>
    let (n, c) := c.define name
    return (⟨some n, tag⟩, c)

/-- Whether an entry of a block sequence is left out before these tokens. -/
def lacksItem : List Token → Bool
  | .blockEntry :: _ | .blockEnd :: _ => true
  | _ => false

/-- Whether a key or a value of a block mapping is left out before these tokens. -/
def lacksPart : List Token → Bool
  | .key :: _ | .value :: _ | .blockEnd :: _ => true
  | _ => false

/-- Whether an entry of a sequence without a block of its own is left out before these tokens. -/
def lacksLooseItem (ts : List Token) : Bool := lacksItem ts || lacksPart ts

/-- Whether these tokens end an entry between brackets. -/
def endsEntry (close : Token) : List Token → Bool
  | [] => false
  | t :: _ => t == .flowEntry || t == close

mutual

/-- **Nodes.** Reads a node; `inBlock` tells whether it may be a block, and `loose` whether it may
be a sequence without a block of its own. The number bounds the steps. -/
def node (handles : Handles) : Nat → Bool → Bool → Cursor → Option (Node × Cursor)
  | 0, _, _, _ => none
  | steps + 1, inBlock, loose, c =>
    match c.tokens with
    | .alias name :: ts => (c.anchors.lookup name).map fun n => (.alias n, c.before ts)
    | _ => do
      let (name, tag, ts) := properties c.tokens
      let (label, c) ← label handles name tag (c.before ts)
      match ts with
      | .scalar style text :: ts => some (.scalar label style text, c.before ts)
      | .flowSequenceStart :: ts =>
        (flowItems handles steps true (c.before ts)).map fun (items, c) =>
          (.sequence label items, c)
      | .flowMappingStart :: ts =>
        (flowEntries handles steps true (c.before ts)).map fun (es, c) => (.mapping label es, c)
      | .blockEntry :: _ =>
        if loose then
          (looseItems handles steps c).map fun (items, c) => (.sequence label items, c)
        else if name.isSome ∨ tag.isSome then some (.empty label, c)
        else none
      | .blockSequenceStart :: ts =>
        if inBlock then
          (blockItems handles steps (c.before ts)).map fun (items, c) => (.sequence label items, c)
        else if name.isSome ∨ tag.isSome then some (.empty label, c)
        else none
      | .blockMappingStart :: ts =>
        if inBlock then
          (blockEntries handles steps (c.before ts)).map fun (es, c) => (.mapping label es, c)
        else if name.isSome ∨ tag.isSome then some (.empty label, c)
        else none
      | _ => if name.isSome ∨ tag.isSome then some (.empty label, c) else none

/-- The items of a block sequence from here to its end. -/
def blockItems (handles : Handles) : Nat → Cursor → Option (List Node × Cursor)
  | 0, _ => none
  | steps + 1, c =>
    match c.tokens with
    | .blockEntry :: ts => do
      let (item, c) ←
        if lacksItem ts then some (.empty .none, c.before ts)
        else node handles steps true false (c.before ts)
      let (items, c) ← blockItems handles steps c
      return (item :: items, c)
    | .blockEnd :: ts => some ([], c.before ts)
    | _ => none

/-- The items of a sequence without a block of its own, as long as there are more. -/
def looseItems (handles : Handles) : Nat → Cursor → Option (List Node × Cursor)
  | 0, _ => none
  | steps + 1, c =>
    match c.tokens with
    | .blockEntry :: ts => do
      let (item, c) ←
        if lacksLooseItem ts then some (.empty .none, c.before ts)
        else node handles steps true false (c.before ts)
      let (items, c) ← looseItems handles steps c
      return (item :: items, c)
    | _ => some ([], c)

/-- The entries of a block mapping from here to its end. -/
def blockEntries (handles : Handles) : Nat → Cursor → Option (List (Node × Node) × Cursor)
  | 0, _ => none
  | steps + 1, c =>
    match c.tokens with
    | .key :: ts => do
      let (key, c) ←
        if lacksPart ts then some (.empty .none, c.before ts)
        else node handles steps true true (c.before ts)
      let (value, c) ← blockValue handles steps c
      let (entries, c) ← blockEntries handles steps c
      return ((key, value) :: entries, c)
    | .blockEnd :: ts => some ([], c.before ts)
    | _ => none

/-- The value behind a key of a block mapping. -/
def blockValue (handles : Handles) : Nat → Cursor → Option (Node × Cursor)
  | 0, _ => none
  | steps + 1, c =>
    match c.tokens with
    | .value :: ts =>
      if lacksPart ts then some (.empty .none, c.before ts)
      else node handles steps true true (c.before ts)
    | _ => some (.empty .none, c)

/-- The items of a sequence between brackets from here to its end; all but the first stand behind a
comma. A key and a value among the items make a mapping of one entry. -/
def flowItems (handles : Handles) : Nat → Bool → Cursor → Option (List Node × Cursor)
  | 0, _, _ => none
  | steps + 1, first, c =>
    match c.tokens with
    | .flowSequenceEnd :: ts => some ([], c.before ts)
    | t :: ts => do
      let ts ← if first then some (t :: ts) else if t = .flowEntry then some ts else none
      match ts with
      | .flowSequenceEnd :: ts => some ([], c.before ts)
      | .key :: ts => do
        let (key, c) ←
          if endsEntry .flowSequenceEnd ts ∨ ts.head? = some .value then
            some (.empty .none, c.before (ts.drop 1))
          else node handles steps false false (c.before ts)
        let (value, c) ← flowValue handles steps .flowSequenceEnd c
        let (items, c) ← flowItems handles steps false c
        return (.mapping .none [(key, value)] :: items, c)
      | ts => do
        let (item, c) ← node handles steps false false (c.before ts)
        let (items, c) ← flowItems handles steps false c
        return (item :: items, c)
    | [] => none

/-- The value behind a key between brackets. -/
def flowValue (handles : Handles) : Nat → Token → Cursor → Option (Node × Cursor)
  | 0, _, _ => none
  | steps + 1, close, c =>
    match c.tokens with
    | .value :: ts =>
      if endsEntry close ts then some (.empty .none, c.before ts)
      else node handles steps false false (c.before ts)
    | _ => some (.empty .none, c)

/-- The entries of a mapping between brackets from here to its end; all but the first stand behind a
comma. A key without a colon has an empty value. -/
def flowEntries (handles : Handles) : Nat → Bool → Cursor → Option (List (Node × Node) × Cursor)
  | 0, _, _ => none
  | steps + 1, first, c =>
    match c.tokens with
    | .flowMappingEnd :: ts => some ([], c.before ts)
    | t :: ts => do
      let ts ← if first then some (t :: ts) else if t = .flowEntry then some ts else none
      match ts with
      | .flowMappingEnd :: ts => some ([], c.before ts)
      | .key :: ts => do
        let (key, c) ←
          if endsEntry .flowMappingEnd ts ∨ ts.head? = some .value then
            some (.empty .none, c.before ts)
          else node handles steps false false (c.before ts)
        let (value, c) ← flowValue handles steps .flowMappingEnd c
        let (entries, c) ← flowEntries handles steps false c
        return ((key, value) :: entries, c)
      | ts => do
        let (key, c) ← node handles steps false false (c.before ts)
        let (entries, c) ← flowEntries handles steps false c
        return ((key, .empty .none) :: entries, c)
    | [] => none

end

namespace Document

/-- **Directives.** The handles explained by the directives at the start, and the tokens behind
them. The version may be given once, and is 1.1 or 1.2; a handle may be explained once. -/
def directives : Bool → Handles → List Token → Option (Handles × List Token)
  | versioned, handles, .version major minor :: ts =>
    if versioned ∨ major ≠ 1 ∨ (minor ≠ 1 ∧ minor ≠ 2) then none else directives true handles ts
  | versioned, handles, .tagHandle handle lead :: ts =>
    if (handles.lookup handle).isSome then none
    else directives versioned (handles ++ [(handle, lead)]) ts
  | _, handles, ts => some (handles, ts)

/-- Whether a document begins with its mark or with a directive. -/
def isExplicit : List Token → Bool
  | .version _ _ :: _ | .tagHandle _ _ :: _ | .documentStart :: _ => true
  | _ => false

/-- Whether nothing stands behind the mark of a document. -/
def isBare : List Token → Bool
  | [] | .documentEnd :: _ => true
  | ts => isExplicit ts

/-- The root of a document and the tokens behind it. -/
def content (handles : Handles) (tokens : List Token) : Option (Node × List Token) :=
  (node (handles ++ standardHandles) (3 * tokens.length + 5) true false ⟨[], tokens⟩).map
    fun (root, c) => (root, c.tokens)

/-- The document, if no other one follows. -/
def alone (found : Node × List Token) : Option Document :=
  if found.2.all (· == .documentEnd) then some ⟨some found.1⟩ else none

/-- **The document of some tokens** that describe no other one. -/
def ofTokens? (tokens : List Token) : Option Document :=
  if tokens.isEmpty then some ⟨none⟩
  else if isExplicit tokens then do
    let (handles, ts) ← directives false [] tokens
    match ts with
    | .documentStart :: ts =>
      let found ← if isBare ts then some (.empty .none, ts) else content handles ts
      alone found
    | _ => none
  else (content [] tokens).bind alone

/-- **The document of a text.** -/
def ofText? (text : List Char) : Option Document := (Token.ofText? text).bind ofTokens?

end Document

end PaneLayout.Yaml
