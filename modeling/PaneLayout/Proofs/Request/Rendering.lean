import PaneLayout.Proofs.Layout.Texts
import PaneLayout.Proofs.Request.Search
import PaneLayout.Proofs.Text.Stripping

set_option autoImplicit false

/-!
# Requests in a text

What is searched may hold the text of a request in pieces: before it stands anything, and line
breaks may stand in it and behind it. The request is found if neither its texts nor what comes after
it brings another marker, and if what comes after it has no closing brace.

## Main results

* `PaneLayout.LayoutRequest.mem_render` — the characters of the text of a request.
* `PaneLayout.LayoutRequest.marker_infix_render_iff` — there is a marker in the text of a request
  exactly if there is one in its texts.
* `PaneLayout.LayoutRequest.find?_of_strip` — a request is found in what is searched.
-/

namespace PaneLayout.LayoutRequest

/-! ### The marker among tokens -/

/-- In a text that begins with another character than the marker, the marker comes later. -/
theorem marker_infix_cons_iff {c : Char} (hc : c ≠ '[') (s : List Char) :
    marker.toList <:+: c :: s ↔ marker.toList <:+: s := by
  rw [marker_eq.1]
  exact infix_append_of_notMem (s := [c]) (by simpa using hc.symm)

/-- A bracket begins a marker only if its second character follows. -/
theorem marker_infix_bracket_iff {s : List Char} (hs : s.head? ≠ some 'p') :
    marker.toList <:+: '[' :: s ↔ marker.toList <:+: s := by
  rw [List.infix_cons_iff, or_iff_right]
  rintro ⟨t, ht⟩
  have hmarker : marker.toList = '[' :: 'p' :: marker.toList.tail.tail := by decide
  rw [hmarker, List.cons_append, List.cons_append, List.cons.injEq] at ht
  rw [← ht.2] at hs
  exact hs rfl

/-- Characters that stand for themselves are found at the start of a literal only if they are the
beginning of its text. -/
theorem prefix_of_prefix_escape {word s u : List Char} (hword : ∀ c ∈ word, Json.escape c = [c])
    (h : word <+: s.flatMap Json.escape ++ '"' :: u) : word <+: s := by
  induction word generalizing s with
  | nil => exact List.nil_prefix
  | cons a word ih =>
    obtain ⟨hquote, hbackslash, -⟩ := Json.escape_eq_self_iff.1 (hword a (by simp))
    have hrest : ∀ c ∈ word, Json.escape c = [c] := fun c hc => hword c (by simp [hc])
    cases s with
    | nil =>
      rw [List.flatMap_nil, List.nil_append, List.cons_prefix_cons] at h
      exact absurd h.1 hquote
    | cons c s =>
      rw [List.flatMap_cons, List.append_assoc] at h
      by_cases hc : Json.escape c = [c]
      · rw [hc, List.singleton_append, List.cons_prefix_cons] at h
        exact List.cons_prefix_cons.2 ⟨h.1, ih hrest h.2⟩
      · obtain ⟨tail, htail, -⟩ := Json.escape_of_ne hc
        rw [htail, List.cons_append, List.cons_prefix_cons] at h
        exact absurd h.1 hbackslash

/-- **A marker at a literal** stands in its text or comes later. -/
theorem marker_infix_quote_append_iff (text : String) (u : List Char) :
    marker.toList <:+: Json.quote text ++ u ↔
      marker.toList <:+: text.toList ∨ marker.toList <:+: u := by
  have hself : ∀ c ∈ marker.toList, Json.escape c = [c] := forall_mem_of_all (by decide)
  have hbehind : marker.toList <:+: '"' :: u ↔ marker.toList <:+: u :=
    marker_infix_cons_iff (by decide) u
  have hquote : Json.quote text ++ u = '"' :: (text.toList.flatMap Json.escape ++ '"' :: u) := by
    simp [Json.quote]
  rw [hquote, marker_infix_cons_iff (by decide), ← hbehind]
  generalize text.toList = s
  constructor
  · intro h
    induction s with
    | nil => exact .inr h
    | cons c s ih =>
      rw [List.flatMap_cons, List.append_assoc] at h
      by_cases hc : Json.escape c = [c]
      · rw [hc, List.singleton_append, List.infix_cons_iff] at h
        rcases h with h | h
        · have hprefix : marker.toList <+: (c :: s).flatMap Json.escape ++ '"' :: u := by
            rw [List.flatMap_cons, hc]
            exact h
          exact .inl (prefix_of_prefix_escape hself hprefix).isInfix
        · exact (ih h).imp_left List.infix_cons
      · obtain ⟨tail, htail, hmem⟩ := Json.escape_of_ne hc
        have hbracket : '[' ∉ Json.escape c := by
          rw [htail, List.mem_cons, not_or]
          exact ⟨by decide, fun hin => absurd (hmem _ hin) (by decide)⟩
        rw [marker_eq.1, infix_append_of_notMem hbracket, ← marker_eq.1] at h
        exact (ih h).imp_left List.infix_cons
  · rintro (⟨before, after, rfl⟩ | h)
    · have hmarker : marker.toList.flatMap Json.escape = marker.toList := by decide
      refine ⟨before.flatMap Json.escape, after.flatMap Json.escape ++ '"' :: u, ?_⟩
      simp only [List.flatMap_append, hmarker, List.append_assoc]
    · exact h.trans (List.suffix_append _ _).isInfix

/-- The text of regular tokens does not begin with the second character of the marker. -/
theorem head?_spell_append {ts : List Json.Token} (h : ∀ t ∈ ts, t.Regular) {u : List Char}
    (hu : u.head? ≠ some 'p') : (Json.spell ts ++ u).head? ≠ some 'p' := by
  cases ts with
  | nil => exact hu
  | cons t ts =>
    have ht := h t (by simp)
    cases t with
    | mark c =>
      intro heq
      obtain rfl : c = 'p' := by simpa [Json.Token.chars] using heq
      simp [Json.Token.Regular, Json.Token.punctuation] at ht
    | word w => exact ht.elim
    | literal text => simp [Json.Token.chars, Json.quote]

/-- **A marker among regular tokens** stands in the text of a literal or comes later. -/
theorem marker_infix_spell_append_iff {ts : List Json.Token} (h : ∀ t ∈ ts, t.Regular)
    {u : List Char} (hu : u.head? ≠ some 'p') :
    marker.toList <:+: Json.spell ts ++ u ↔
      (∃ text ∈ Json.literals ts, marker.toList <:+: text.toList) ∨ marker.toList <:+: u := by
  induction ts with
  | nil => simp
  | cons t ts ih =>
    have hrest : ∀ t' ∈ ts, t'.Regular := fun t' ht' => h t' (by simp [ht'])
    have hhead := head?_spell_append hrest hu
    have hts := ih hrest
    rw [Json.spell_cons, List.append_assoc]
    cases t with
    | mark c =>
      have hmark : marker.toList <:+: c :: (Json.spell ts ++ u) ↔
          marker.toList <:+: Json.spell ts ++ u := by
        by_cases hc : c = '['
        · rw [hc]
          exact marker_infix_bracket_iff hhead
        · exact marker_infix_cons_iff hc _
      exact hmark.trans hts
    | word w => exact (h (.word w) (by simp)).elim
    | literal text =>
      rw [Json.Token.chars, marker_infix_quote_append_iff, hts, Json.literals_literal]
      simp [or_assoc]

/-! ### The text of a request -/

variable {r : LayoutRequest} {depth : Nat}

/-- **The characters of the text of a request.** There are no control characters, and beyond ASCII
only those of its texts. -/
theorem mem_render (h : r.config.layout.Nested depth) {c : Char} (hc : c ∈ r.render.toList) :
    0x20 ≤ c.toNat ∧ (c.toNat < 0x80 ∨ ∃ text ∈ r.texts, c ∈ text.toList) := by
  have hascii : ∀ d ∈ keys.flatMap String.toList, d.toNat < 0x80 := forall_mem_of_all (by decide)
  rw [← spell_tokens] at hc
  obtain ⟨hlow, hhigh | ⟨text, htext, hmem⟩⟩ := Json.mem_spell (regular h) hc
  · exact ⟨hlow, .inl hhigh⟩
  · rcases (mem_literals h).2 htext with htext | hkey
    · exact ⟨hlow, .inr ⟨text, htext, hmem⟩⟩
    · exact ⟨hlow, .inl (hascii c (List.mem_flatMap.2 ⟨text, hkey, hmem⟩))⟩

/-- There is no introducer in the marker. -/
theorem not_isIntroducer_marker : ∀ c ∈ marker.toList, Text.isIntroducer c = false :=
  forall_mem_of_all (by decide)

/-- There is no introducer in the text of a request if there is no U+009B in its texts: an ESC is
escaped. -/
theorem not_isIntroducer_render (h : r.config.layout.Nested depth)
    (hplain : ∀ text ∈ r.texts, '\u009b' ∉ text.toList) :
    ∀ c ∈ r.render.toList, Text.isIntroducer c = false := by
  intro c hc
  obtain ⟨hlow, hascii | ⟨text, htext, hmem⟩⟩ := mem_render h hc
  · refine Text.not_isIntroducer hlow ?_
    rintro rfl
    exact absurd hascii (by decide)
  · refine Text.not_isIntroducer hlow ?_
    rintro rfl
    exact hplain text htext hmem

/-- There are no line breaks in the text of a request. -/
theorem filter_render (h : r.config.layout.Nested depth) :
    r.render.toList.filter (!isLineBreak ·) = r.render.toList := by
  rw [List.filter_eq_self]
  intro c hc
  have hlow := (mem_render h hc).1
  by_contra hbreak
  simp only [isLineBreak, Bool.not_eq_true', Bool.not_eq_false, Bool.or_eq_true,
    beq_iff_eq] at hbreak
  rcases hbreak with rfl | rfl
  · exact absurd hlow (by decide)
  · exact absurd hlow (by decide)

/-- **There is a marker in the text of a request** exactly if there is one in its texts. -/
theorem marker_infix_render_iff (h : r.config.layout.Nested depth) :
    marker.toList <:+: r.render.toList ↔ ∃ text ∈ r.texts, marker.toList <:+: text.toList := by
  have hkeys : ∀ k ∈ keys, ¬ marker.toList <:+: k.toList := by decide
  have hspell := marker_infix_spell_append_iff (regular h) (u := []) (by simp)
  have hnil : ¬ marker.toList <:+: [] := by decide
  rw [List.append_nil, spell_tokens, or_iff_left hnil] at hspell
  rw [hspell]
  constructor
  · rintro ⟨text, htext, hmarker⟩
    rcases (mem_literals h).2 htext with htext | hkey
    · exact ⟨text, htext, hmarker⟩
    · exact absurd hmarker (hkeys text hkey)
  · rintro ⟨text, htext, hmarker⟩
    exact ⟨text, (mem_literals h).1 htext, hmarker⟩

/-- The text of a request ends with a closing brace. -/
theorem render_eq_append_brace (r : LayoutRequest) : ∃ body, r.render.toList = body ++ ['}'] := by
  refine ⟨'{' :: (Json.quote "config" ++ ':' :: (r.config.toJson.chars ++
    ',' :: (Json.quote "cwd" ++ ':' :: Json.quote r.cwd))), ?_⟩
  simp [render, Json.render, chars_toJson]

/-- A marker does not reach over a character that it does not have. -/
theorem marker_infix_append_cons {c : Char} (hc : c ∉ marker.toList) {s t : List Char}
    (h : marker.toList <:+: s ++ c :: t) : marker.toList <:+: s ∨ marker.toList <:+: t := by
  have hbracket : c ≠ '[' := by
    rintro rfl
    exact hc (by decide)
  rcases List.infix_append_iff.1 h with h | h | ⟨front, back, hmarker, hfront, hback⟩
  · exact .inl h
  · exact .inr ((marker_infix_cons_iff hbracket t).1 h)
  · cases back with
    | nil =>
      rw [List.append_nil] at hmarker
      rw [hmarker]
      exact .inl hfront.isInfix
    | cons d back =>
      obtain rfl : d = c := (List.cons_prefix_cons.1 hback).1
      exact absurd (by rw [hmarker]; simp) hc

/-! ### Finding a request -/

/-- **Line breaks behind the last closing brace.** If a text without its line breaks ends with a
closing brace, nothing but line breaks stands behind the last closing brace in it. -/
theorem filter_upTo_brace {body breaks front : List Char} (hbreaks : '}' ∉ breaks)
    (h : (body ++ '}' :: breaks).filter (!isLineBreak ·) = front ++ ['}']) :
    (body ++ ['}']).filter (!isLineBreak ·) = front ++ ['}'] ∧
      breaks.filter (!isLineBreak ·) = [] := by
  have hfilter : ∀ t : List Char, (body ++ '}' :: t).filter (!isLineBreak ·) =
      body.filter (!isLineBreak ·) ++ '}' :: t.filter (!isLineBreak ·) := by
    intro t
    rw [List.filter_append, List.filter_cons_of_pos (by decide)]
  have hnot : '}' ∉ breaks.filter (!isLineBreak ·) :=
    fun hin => hbreaks (List.mem_filter.1 hin).1
  rw [hfilter] at h
  have hcut := congrArg upToLastBrace h
  rw [upToLastBrace_append hnot, upToLastBrace_append (by simp)] at hcut
  rw [hfilter, List.filter_nil]
  refine ⟨hcut, ?_⟩
  rw [← hcut, List.append_cons] at h
  exact List.append_right_eq_self.1 h

/-- **No later marker.** Behind the marker of a request there is no other one, if there is none in
the texts of the request or in what follows it. Line breaks do not bring one about. -/
theorem not_marker_infix_payload (h : r.config.layout.Nested depth)
    (hfree : ∀ t ∈ r.texts, ¬ marker.toList <:+: t.toList) {body breaks after tail : List Char}
    (hpayload : (body ++ ['}']).filter (!isLineBreak ·) = r.render.toList)
    (hbreaks : breaks.filter (!isLineBreak ·) = []) (hmarker : ¬ marker.toList <:+: after)
    (htail : tail <+: breaks ++ after) : ¬ marker.toList <:+: body ++ '}' :: tail := by
  intro hin
  rcases marker_infix_append_cons (by decide) hin with hin | hin
  · have hkept := hin.filter (!isLineBreak ·)
    have hself : marker.toList.filter (!isLineBreak ·) = marker.toList := by decide
    rw [hself] at hkept
    have hrender : marker.toList <:+: r.render.toList := by
      rw [← hpayload, List.filter_append]
      exact hkept.trans (List.prefix_append _ _).isInfix
    obtain ⟨t, ht, hmark⟩ := (marker_infix_render_iff h).1 hrender
    exact hfree t ht hmark
  · have hbracket : '[' ∉ breaks := by
      intro hmem
      have hkept : '[' ∈ breaks.filter (!isLineBreak ·) := List.mem_filter.2 ⟨hmem, by decide⟩
      simp [hbreaks] at hkept
    have hall := hin.trans htail.isInfix
    rw [marker_eq.1, infix_append_of_notMem hbracket, ← marker_eq.1] at hall
    exact hmarker hall

/-- **A request is found** in a text that, stripped, holds its text behind a marker, with line
breaks anywhere in it, if its texts have no marker in them and what follows has neither a marker nor
a closing brace.

**Proof sketch.** The last closing brace is that of the request. What stands before it is the text
of the request and line breaks, what stands behind it are line breaks and what follows, so there is
no later marker. Without the line breaks the payload is the text of the request, which is read back.
-/
theorem find?_of_strip {text : String} {before broken after : List Char}
    (h : r.config.layout.Nested depth) (hdepth : depth + 2 ≤ nestingLimit)
    (hfree : ∀ t ∈ r.texts, ¬ marker.toList <:+: t.toList)
    (hs : Text.strip text.toList = before ++ (marker.toList ++ (broken ++ after)))
    (hbroken : broken.filter (!isLineBreak ·) = r.render.toList) (hbrace : '}' ∉ after)
    (hmarker : ¬ marker.toList <:+: after) : find? text = .ok (some r) := by
  obtain ⟨front, hfront⟩ := render_eq_append_brace r
  -- the last closing brace among what is left of the request and the breaks
  obtain ⟨body, breaks, rfl, hbreaks⟩ : ∃ body breaks, broken = body ++ '}' :: breaks ∧
      '}' ∉ breaks := by
    refine exists_last_brace ?_
    have hmem : '}' ∈ broken.filter (!isLineBreak ·) := by rw [hbroken, hfront]; simp
    exact (List.mem_filter.1 hmem).1
  obtain ⟨hpayload, hnothing⟩ := filter_upTo_brace hbreaks (hbroken.trans hfront)
  rw [← hfront] at hpayload
  rw [List.append_assoc, List.cons_append] at hs
  have hsearched := searched_of_strip hs
  have hend := Text.trimEnd_prefix (breaks ++ after)
  have htail : '}' ∉ Text.trimEnd (breaks ++ after) := by
    intro hin
    rcases List.mem_append.1 (hend.subset hin) with hin | hin
    · exact hbreaks hin
    · exact hbrace hin
  have hlater := not_marker_infix_payload h hfree hpayload hnothing hmarker hend
  have hlocate := locate_eq_payload hsearched hlater htail
  rw [find?_of_locate hlocate, hpayload, parse_render h hdepth]
  rfl

end PaneLayout.LayoutRequest
