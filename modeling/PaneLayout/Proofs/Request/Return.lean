import Mathlib.Data.List.Flatten
import PaneLayout.Proofs.Layout.Consumption
import PaneLayout.Proofs.Request.Rendering
import PaneLayout.Proofs.Text.EightBit

set_option autoImplicit false

/-!
# Which requests come back from their line

The line of a request is searched like any other output: control sequences are dropped before it is
read, and the last marker counts. The printer takes neither into account. A request therefore comes
back as it was exactly if stripping leaves its texts alone and no marker stands in them.

## Main definitions

* `PaneLayout.LayoutRequest.stripText` — what stripping makes of a text in a request.

## Main results

* `PaneLayout.LayoutRequest.strip_line` — the line of a request, stripped, is the line of the
  request with its texts stripped.
* `PaneLayout.LayoutRequest.find?_line` — which request is found instead, if no marker is left.
* `PaneLayout.LayoutRequest.cost_lt_of_marker` — a request that is found behind a later marker is
  smaller.
* `PaneLayout.LayoutRequest.comes_back_iff` — which requests come back.
-/

namespace PaneLayout.LayoutRequest

open Json (quote spell)

/-- A text without the control sequences that begin with U+009B. -/
def stripText (text : String) : String := String.ofList (Text.stripEightBit text.toList)

variable {r : LayoutRequest} {depth : Nat}

/-! ### The stripped line -/

/-- Stripping what regular tokens spell strips the texts of their literals. -/
theorem strip_spell_append {ts : List Json.Token} (h : ∀ t ∈ ts, t.Regular) (u : List Char) :
    Text.strip (spell ts ++ u) = spell (ts.map (Json.Token.mapText stripText)) ++ Text.strip u := by
  have hmarks : ∀ c ∈ Json.Token.punctuation, Text.isIntroducer c = false :=
    forall_mem_of_all (by decide)
  induction ts with
  | nil => rfl
  | cons t ts ih =>
    have hrest := ih fun t' ht' => h t' (by simp [ht'])
    have ht := h t (by simp)
    rw [Json.spell_cons, List.append_assoc, List.map_cons, Json.spell_cons, List.append_assoc,
      ← hrest]
    cases t with
    | mark c => exact Text.strip_cons (Text.controlSequence?_eq_none (hmarks c ht) _)
    | word w => exact ht.elim
    | literal text => exact Text.strip_quote_append text _

/-- **The stripped line** of a request is the line of the request with its texts stripped. -/
theorem strip_line (h : r.config.layout.Nested depth) :
    Text.strip r.line.toList = (r.mapText stripText).line.toList := by
  have hkeys : ∀ k ∈ keys, stripText k = k := by decide
  have hspell := strip_spell_append (regular h) []
  have hnil : Text.strip [] = [] := rfl
  rw [List.append_nil, hnil, List.append_nil, ← tokens_mapText h hkeys, spell_tokens,
    spell_tokens] at hspell
  rw [line, line, String.toList_append, String.toList_append,
    Text.strip_append_of_forall not_isIntroducer_marker, hspell]

/-- The texts of a request whose texts have been changed. -/
theorem texts_mapText (h : r.config.layout.Nested depth) (f : String → String) :
    (r.mapText f).texts = r.texts.map f := by
  have hlayout : ∀ n : Node, (n.mapText f).commands = n.commands.map f := by
    refine Node.induct (fun text => rfl) (fun value => rfl) fun children ih => ?_
    simp only [Node.mapText, Node.mapTexts_eq_map, Node.commands, Node.commandsOf_eq_flatMap,
      List.flatMap_map, List.map_flatMap]
    exact List.flatMap_congr ih
  obtain ⟨⟨layout, entry⟩, cwd⟩ := r
  cases entry <;> simp [texts, mapText, hlayout]

/-- **What is found in the line of a request** is the request with its texts stripped, if no marker
is in these. -/
theorem find?_line (h : r.config.layout.Nested depth) (hdepth : depth + 2 ≤ nestingLimit)
    (hfree : ∀ text ∈ r.texts, ¬ marker.toList <:+: (stripText text).toList) :
    find? r.line = .ok (some (r.mapText stripText)) := by
  have hstripped : (r.mapText stripText).config.layout.Nested depth := h.mapText stripText
  have hsplit : Text.strip r.line.toList =
      [] ++ (marker.toList ++ ((r.mapText stripText).render.toList ++ [])) := by
    rw [strip_line h, line, String.toList_append]
    simp
  refine find?_of_strip hstripped hdepth ?_ hsplit (filter_render hstripped) (by simp) (by decide)
  intro text htext
  rw [texts_mapText h] at htext
  obtain ⟨t, ht, rfl⟩ := List.mem_map.1 htext
  exact hfree t ht

/-! ### Behind a later marker -/

/-- A request that is found stands behind the last marker, in a text that is long enough for it. -/
theorem exists_of_find? {text : String} {found : LayoutRequest}
    (h : find? text = .ok (some found)) :
    ∃ before after, searched text.toList = before ++ (marker.toList ++ after) ∧
      ¬ marker.toList <:+: after ∧ found.cost ≤ after.length := by
  rw [find?] at h
  split at h
  case h_2 => simp at h
  case h_3 => simp at h
  case h_1 raw hlocate =>
    obtain ⟨q, hparse, hsame⟩ := Json.map_eq_ok_iff.1 h
    obtain rfl : q = found := by simpa using hsame
    rw [locate] at hlocate
    split at hlocate
    case h_1 => simp at hlocate
    case h_2 after hlast =>
      obtain ⟨⟨before, hs⟩, hno⟩ := afterLast?_marker_eq_some_iff.1 hlast
      refine ⟨before, after, hs, hno, ?_⟩
      split at hlocate
      case h_1 => simp at hlocate
      case h_2 =>
        obtain rfl := Search.payload.inj hlocate
        have hcost := cost_le_of_parse hparse
        have hfilter := List.length_filter_le (!isLineBreak ·) (upToLastBrace after)
        have hbrace := (upToLastBrace_isPrefix after).length_le
        omega

/-- The searched text of a line is the stripped line. -/
theorem searched_line (h : r.config.layout.Nested depth) :
    searched r.line.toList = (r.mapText stripText).line.toList := by
  obtain ⟨body, hbody⟩ := render_eq_append_brace (r.mapText stripText)
  have hline : (r.mapText stripText).line.toList =
      [] ++ (marker.toList ++ (body ++ '}' :: [])) := by
    rw [line, String.toList_append, hbody, List.nil_append]
  rw [hline, searched_of_strip ((strip_line h).trans hline)]
  rfl

/-- The text of a request begins with twenty characters that have no bracket among them. -/
theorem exists_head (r : LayoutRequest) :
    ∃ head body, r.render.toList = head ++ body ∧ head.length = 20 ∧ '[' ∉ head := by
  have hspell := congrArg spell (tokens_eq r)
  rw [spell_tokens, Json.spell_append] at hspell
  refine ⟨_, _, hspell, ?_, ?_⟩
  · decide
  · decide

/-- **A later marker makes what is found smaller.** If a marker is in the stripped texts of a
request, what is found in its line costs less than the request with its texts stripped.

**Proof sketch.** The last marker of the line is not its own, but that one or a later one. What
stands behind it is shorter than the text of the request by that marker and by the twenty characters
at the beginning, more than the braces, keys, colons and commas of a request come to. -/
theorem cost_lt_of_marker (h : r.config.layout.Nested depth) {found : LayoutRequest}
    (hfound : find? r.line = .ok (some found))
    (hmarker : ∃ text ∈ r.texts, marker.toList <:+: (stripText text).toList) :
    found.cost < (r.mapText stripText).cost := by
  have hstripped : (r.mapText stripText).config.layout.Nested depth := h.mapText stripText
  obtain ⟨before, after, hsearched, hno, hcost⟩ := exists_of_find? hfound
  obtain ⟨head, body, hrender, hhead, hbracket⟩ := exists_head (r.mapText stripText)
  -- the marker in the texts stands behind the first twenty characters
  obtain ⟨front, back, hbody⟩ : marker.toList <:+: body := by
    obtain ⟨text, htext, hin⟩ := hmarker
    have hinfix := (marker_infix_render_iff hstripped).2 ⟨stripText text, by
      rw [texts_mapText h]
      exact List.mem_map_of_mem htext, hin⟩
    rwa [hrender, marker_eq.1, infix_append_of_notMem hbracket, ← marker_eq.1] at hinfix
  rw [searched_line h, line, String.toList_append, hrender] at hsearched
  -- the last marker does not come before it
  have hlater : after.length ≤ back.length := by
    by_contra hlt
    have hown : marker.toList ++ back <:+ before ++ (marker.toList ++ after) := by
      rw [← hsearched, ← hbody]
      exact ⟨marker.toList ++ (head ++ front), by simp⟩
    have hlast : marker.toList.tail ++ after <:+ before ++ (marker.toList ++ after) := by
      refine ⟨before ++ ['['], ?_⟩
      conv_rhs => rw [marker_eq.1]
      simp
    have hlengths : (marker.toList ++ back).length ≤ (marker.toList.tail ++ after).length := by
      have htwenty : marker.toList.length = 20 ∧ marker.toList.tail.length = 19 := by decide
      simp only [List.length_append, htwenty]
      omega
    have hsuffix := List.suffix_of_suffix_length_le hown hlast hlengths
    have hinfix := (List.prefix_append marker.toList back).isInfix.trans hsuffix.isInfix
    rw [marker_eq.1, List.tail_cons, infix_append_of_notMem marker_eq.2, ← marker_eq.1] at hinfix
    exact hno hinfix
  have hlength := length_render hstripped
  have htwenty : marker.toList.length = 20 := by decide
  rw [hrender, ← hbody] at hlength
  simp only [List.length_append, htwenty, hhead] at hlength
  split at hlength <;> omega

/-- Stripping the texts of a request does not make it cost more. -/
theorem cost_mapText_le (h : r.config.layout.Nested depth) :
    (r.mapText stripText).cost ≤ r.cost := by
  have hquote : ∀ text : String, (quote (stripText text)).length ≤ (quote text).length := by
    intro text
    have hsublist := (Text.stripEightBit_sublist text.toList).flatMap Json.escape
    rw [Json.length_quote, Json.length_quote, stripText, String.toList_ofList]
    have hlength := hsublist.length_le
    omega
  have hspell : ∀ ts : List Json.Token,
      (spell (ts.map (Json.Token.mapText stripText))).length ≤ (spell ts).length := by
    intro ts
    induction ts with
    | nil => exact Nat.le_refl _
    | cons t ts ih =>
      have ht : (t.mapText stripText).chars.length ≤ t.chars.length := by
        cases t with
        | mark c => exact Nat.le_refl _
        | word w => exact Nat.le_refl _
        | literal text => exact hquote text
      simp only [List.map_cons, Json.spell_cons, List.length_append]
      omega
  have hkeys : ∀ k ∈ keys, stripText k = k := by decide
  have hrender := hspell r.tokens
  have hentry : (r.mapText stripText).config.entry.isSome = r.config.entry.isSome := by
    simp [mapText]
  rw [← tokens_mapText h hkeys, spell_tokens, spell_tokens, length_render h,
    length_render (h.mapText stripText), hentry] at hrender
  omega

/-! ### Coming back -/

/-- **Which requests come back.** Take a request whose layout consists of commands and groups,
nested at most `125` deep. It is found in its own line exactly if none of its texts has a control
sequence in it that begins with U+009B, and none has a marker in it. Every other character of a text
is escaped in a way that survives: quotes, backslashes, line breaks, ESC.

**Proof sketch.** What is searched is the line of the request with its texts stripped. If no marker
is in these, that request is found, and it is the one that was printed only if stripping has changed
nothing. If there is one, whatever is found costs less than what was printed, so it is another
request. -/
theorem comes_back_iff (h : r.config.layout.Nested 125) :
    find? r.line = .ok (some r) ↔
      ∀ text ∈ r.texts, Text.Undecorated text.toList ∧ ¬ marker.toList <:+: text.toList := by
  have hself : ∀ text : String, stripText text = text ↔ Text.Undecorated text.toList := by
    intro text
    rw [← Text.stripEightBit_eq_self_iff, stripText, ← String.toList_inj, String.toList_ofList]
  constructor
  · intro hback
    have hfree : ∀ text ∈ r.texts, ¬ marker.toList <:+: (stripText text).toList := by
      by_contra hmarker
      push Not at hmarker
      have hlt := cost_lt_of_marker h hback hmarker
      have hle := cost_mapText_le h
      omega
    have hfound := find?_line h (by decide) hfree
    have hsame : r.mapText stripText = r := by
      rw [hback] at hfound
      simpa using hfound.symm
    intro text htext
    have hkept := (mapText_eq_self_iff h).1 hsame text htext
    have hnot := hfree text htext
    rw [hkept] at hnot
    exact ⟨(hself text).1 hkept, hnot⟩
  · intro hall
    have hkept : ∀ text ∈ r.texts, stripText text = text := fun text htext =>
      (hself text).2 (hall text htext).1
    have hfound := find?_line h (by decide) fun text htext => by
      rw [hkept text htext]
      exact (hall text htext).2
    rw [hfound, (mapText_eq_self_iff h).2 hkept]

/-- A request for two tabs. -/
def twoTabs (first second : String) : LayoutRequest :=
  ⟨⟨.group [.command first, .command second], some "tab"⟩, "/w"⟩

/-- The layout of such a request. -/
theorem nested_twoTabs (first second : String) :
    (twoTabs first second).config.layout.Nested 125 := by
  refine .group fun child hchild => ?_
  rcases List.mem_pair.1 hchild with rfl | rfl
  · exact .command first
  · exact .command second

/-- Commands with a control sequence that begins with ESC, with a quote, a backslash and a line
break, and with a U+009B behind which no control sequence follows, come back. -/
theorem comes_back_with_escapes :
    let r := twoTabs "printf '\x1b[1m\\n'\n" "echo \"\u009b\" [par-layout"
    r.config.layout.Nested 125 ∧
      (∀ text ∈ r.texts, Text.Undecorated text.toList ∧ ¬ marker.toList <:+: text.toList) ∧
      find? r.line = .ok (some r) := by
  intro r
  have hall : ∀ text ∈ r.texts,
      Text.Undecorated text.toList ∧ ¬ marker.toList <:+: text.toList := by
    have hstable : ∀ text ∈ r.texts, Text.stripEightBit text.toList = text.toList ∧
        ¬ marker.toList <:+: text.toList := by decide
    intro text htext
    obtain ⟨hself, hmarker⟩ := hstable text htext
    exact ⟨Text.stripEightBit_eq_self_iff.1 hself, hmarker⟩
  exact ⟨nested_twoTabs _ _, hall, (comes_back_iff (nested_twoTabs _ _)).2 hall⟩

/-- A command with an 8-bit control sequence in it does not come back: another command is found in
its place. A command that prints a marker does not come back either. -/
theorem eight_bit_sequence_is_lost :
    let coloured := twoTabs "a" "\u009b0mls"
    let marked := twoTabs "a" "echo [par-layout config]:"
    coloured.config.layout.Nested 125 ∧ find? coloured.line = .ok (some (twoTabs "a" "ls")) ∧
      find? coloured.line ≠ .ok (some coloured) ∧
      marked.config.layout.Nested 125 ∧ find? marked.line ≠ .ok (some marked) := by
  intro coloured marked
  have hfound : find? coloured.line = .ok (some (coloured.mapText stripText)) :=
    find?_line (nested_twoTabs _ _) (by decide) (by decide)
  have hlost : find? coloured.line = .ok (some (twoTabs "a" "ls")) := by
    have hcommand : stripText "\u009b0mls" = "ls" := by decide
    have hkept : ∀ text ∈ ["a", "tab", "/w"], stripText text = text := by decide
    rw [hfound]
    simp [coloured, twoTabs, mapText, Node.mapText, Node.mapTexts, hcommand, hkept]
  have hother : find? coloured.line ≠ .ok (some coloured) := by
    intro hsame
    rw [hlost] at hsame
    have htexts : (twoTabs "a" "ls").texts = coloured.texts :=
      congrArg texts (Option.some.inj (Except.ok.inj hsame))
    exact absurd htexts (by decide)
  have hcut : find? marked.line ≠ .ok (some marked) := by
    intro hsame
    have hlt : marked.cost < (marked.mapText stripText).cost :=
      cost_lt_of_marker (nested_twoTabs _ _) hsame (by decide)
    have hle : (marked.mapText stripText).cost ≤ marked.cost :=
      cost_mapText_le (nested_twoTabs _ _)
    omega
  exact ⟨nested_twoTabs _ _, hlost, hother, nested_twoTabs _ _, hcut⟩

end PaneLayout.LayoutRequest
