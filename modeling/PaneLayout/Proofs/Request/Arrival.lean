import PaneLayout.Proofs.Layout.Balance
import PaneLayout.Proofs.Request.Return

set_option autoImplicit false

/-!
# Lines that have arrived in part

Session output comes in pieces, so the line of a request may be searched before all of it is there.
Whether the rest is waited for is decided by closing braces alone: as soon as one stands behind the
last marker, what has arrived is read as a request. No request is found in it, wherever the line has
been cut, but it is taken for a faulty one. This also happens behind the configuration, which every
request has, and at braces inside commands.

## Main definitions

* `PaneLayout.LayoutRequest.Closed` — texts in which a closing brace stands behind the last marker.

## Main results

* `PaneLayout.LayoutRequest.exists_cut` — what is searched of a line that has arrived in part.
* `PaneLayout.LayoutRequest.find?_of_closed` — such a line is faulty if it is closed.
* `PaneLayout.LayoutRequest.closed_iff_mem` — an ordinary line is closed from its first closing
  brace on.
* `PaneLayout.LayoutRequest.partial_line_is_fault_iff_closed` — what is found in a line that has
  arrived in part.
-/

namespace PaneLayout.LayoutRequest

/-- **Closed texts**: in what is searched, a closing brace stands behind the last marker. -/
def Closed (text : String) : Prop :=
  ∃ before after, searched text.toList = before ++ (marker.toList ++ after) ∧
    ¬ marker.toList <:+: after ∧ '}' ∈ after

/-- More is waited for as long as a text is not closed. -/
theorem find?_of_not_closed {text : String} (h : ¬ Closed text) : find? text = .ok none := by
  cases hlast : afterLast? marker.toList (searched text.toList) with
  | none =>
    have habsent := locate_eq_absent_iff.2 (afterLast?_eq_none_iff.1 hlast)
    rw [find?, habsent]
  | some after =>
    obtain ⟨⟨before, hs⟩, hno⟩ := afterLast?_marker_eq_some_iff.1 hlast
    have hopen : '}' ∉ after := fun hbrace => h ⟨before, after, hs, hno, hbrace⟩
    have hincomplete := locate_eq_incomplete_iff.2 ⟨before, after, hs, hno, hopen⟩
    rw [find?, hincomplete]

/-- A marker and, at the very end, a closing brace make a text closed. -/
theorem closed_of_brace {text : String} {body : List Char}
    (h : text.toList = marker.toList ++ (body ++ ['}'])) : Closed text := by
  have hstrip : Text.strip text.toList =
      [] ++ (marker.toList ++ (Text.strip body ++ '}' :: Text.strip [])) := by
    rw [h, Text.strip_append_of_forall not_isIntroducer_marker, Text.strip_append_brace,
      List.nil_append]
  have hsearched := searched_of_strip hstrip
  cases hlast : afterLast? marker.toList (searched text.toList) with
  | none =>
    refine absurd ?_ (afterLast?_eq_none_iff.1 hlast)
    rw [hsearched]
    exact (List.prefix_append _ _).isInfix
  | some after =>
    obtain ⟨⟨before, hs⟩, hno⟩ := afterLast?_marker_eq_some_iff.1 hlast
    refine ⟨before, after, hs, hno, ?_⟩
    have hend : (searched text.toList).getLast? = some '}' := by
      rw [hsearched, ← List.append_assoc, ← List.append_assoc]
      exact List.getLast?_concat
    rw [hs] at hend
    cases after with
    | nil =>
      have hnot : '}' ∉ marker.toList := by decide
      rw [List.append_nil, List.getLast?_append_of_ne_nil _ (by decide)] at hend
      exact absurd (List.mem_of_getLast? hend) hnot
    | cons c after =>
      rw [← List.append_assoc, List.getLast?_append_of_ne_nil _ (by simp)] at hend
      exact List.mem_of_getLast? hend

/-! ### Cutting a line -/

/-- What stands behind a marker begins there, or there is another marker in it. -/
theorem eq_or_of_marker_append {s before after : List Char}
    (h : marker.toList ++ s = before ++ (marker.toList ++ after)) :
    after = s ∨ ∃ x, s = x ++ (marker.toList ++ after) := by
  obtain ⟨hmarker, hnot⟩ := marker_eq
  cases before with
  | nil => exact .inl (List.append_cancel_left h).symm
  | cons c before =>
    rw [hmarker, List.cons_append, List.cons_append, List.cons.injEq, ← hmarker] at h
    rcases List.append_eq_append_iff.1 h.2 with ⟨x, -, hs⟩ | ⟨x, htail, hs⟩
    · exact .inr ⟨x, hs⟩
    · cases x with
      | nil => exact .inr ⟨[], hs.symm⟩
      | cons d x =>
        -- a marker that began in the first one would bring a second bracket into it
        rw [hmarker, List.cons_append, List.cons_append, List.cons.injEq] at hs
        refine absurd ?_ hnot
        rw [htail, ← hs.1]
        simp

/-- What stands before a closing brace behind a marker has the marker in it. -/
theorem exists_of_marker_append_brace {s t body after : List Char}
    (h : s ++ '}' :: t = marker.toList ++ (body ++ '}' :: after)) :
    ∃ front, s = marker.toList ++ front ∧ front ++ '}' :: t = body ++ '}' :: after := by
  have hnot : '}' ∉ marker.toList := by decide
  rcases List.append_eq_append_iff.1 h with ⟨x, hmarker, hbehind⟩ | ⟨x, hs, hbody⟩
  · cases x with
    | nil => exact ⟨[], by simpa using hmarker.symm, hbehind⟩
    | cons c x =>
      obtain rfl : '}' = c := (List.cons.inj hbehind).1
      rw [hmarker] at hnot
      simp at hnot
  · exact ⟨x, hs, hbody.symm⟩

variable {r : LayoutRequest} {depth : Nat} {p : String}

/-- **A line cut behind a closing brace.** What is searched of a line that has arrived in part
agrees up to the last closing brace in it with the line of the request with its texts stripped,
which goes on behind that brace. Behind it, there may be the beginning of a control sequence. -/
theorem exists_cut (h : r.config.layout.Nested depth) (hp : p.toList <+: r.line.toList)
    (hproper : p ≠ r.line) (hbrace : '}' ∈ p.toList) :
    ∃ front tail behind, searched p.toList = marker.toList ++ (front ++ '}' :: tail) ∧
      '}' ∉ tail ∧ (r.mapText stripText).render.toList = front ++ '}' :: behind ∧
      behind ≠ [] := by
  obtain ⟨body, tail, hbody, htail⟩ := exists_last_brace hbrace
  obtain ⟨more, hmore⟩ := hp
  -- what has not arrived ends with the brace at the end of the line
  obtain ⟨rest, rfl⟩ : ∃ rest, more = rest ++ ['}'] := by
    obtain ⟨front, hfront⟩ := render_eq_append_brace r
    have hlast := congrArg List.getLast? hmore
    rw [line, String.toList_append, hfront, ← List.append_assoc, List.getLast?_concat] at hlast
    rcases List.eq_nil_or_concat more with rfl | ⟨rest, c, rfl⟩
    · rw [List.append_nil] at hmore
      exact absurd (String.toList_inj.1 hmore) hproper
    · rw [List.concat_eq_append, ← List.append_assoc, List.getLast?_concat] at hlast
      exact ⟨rest, by rw [List.concat_eq_append, Option.some.inj hlast]⟩
  have hline : Text.strip body ++ '}' :: (Text.strip (tail ++ rest) ++ ['}']) =
      marker.toList ++ (r.mapText stripText).render.toList := by
    rw [← String.toList_append, ← line, ← strip_line h, ← hmore, hbody, List.append_assoc,
      List.cons_append, Text.strip_append_brace, ← List.append_assoc, Text.strip_append_brace]
    rfl
  obtain ⟨text, htext⟩ := render_eq_append_brace (r.mapText stripText)
  rw [htext] at hline
  obtain ⟨front, hfront, hrender⟩ := exists_of_marker_append_brace hline
  have hstrip : Text.strip p.toList =
      [] ++ (marker.toList ++ (front ++ '}' :: Text.strip tail)) := by
    rw [hbody, Text.strip_append_brace, hfront, List.append_assoc, List.nil_append]
  refine ⟨front, Text.trimEnd (Text.strip tail), _, searched_of_strip hstrip, ?_,
    htext.trans hrender.symm, by simp⟩
  exact fun hin => htail ((Text.strip_sublist tail).subset ((Text.trimEnd_prefix _).subset hin))

/-- From inside a literal of a printed text, or from wherever else a marker can stand in it, the
marker leads to the inside of a literal. -/
theorem printed_of_marker {spot : Json.Spot} {s : List Char}
    (h : Json.Printed spot (marker.toList ++ s)) : Json.Printed .inside s := by
  have hraw : Json.Raw (marker.toList.drop 1) :=
    Json.raw_of_forall (forall_mem_of_all (by decide))
  have hmarker : marker.toList = '[' :: 'p' :: marker.toList.drop 2 := by decide
  have hbehind : Json.Printed .inside (marker.toList.drop 1 ++ s) := by
    cases spot with
    | outside =>
      rw [hmarker] at h
      exact absurd (h.2.1 rfl) (by decide)
    | inside => exact h.2
    | escaped => exact h.2
  exact hraw.printed_append_iff.1 hbehind

/-- **From a later marker on,** no request is read up to a closing brace in the text of a request:
what stands behind that marker begins inside a literal. -/
theorem parse_of_marker {x body behind : List Char} (h : r.config.layout.Nested depth)
    (hrender : r.render.toList = x ++ (marker.toList ++ (body ++ '}' :: behind)))
    (found : LayoutRequest) : parse (body ++ ['}']) ≠ .ok found := by
  have hprinted := Json.printed_spell (regular h)
  rw [spell_tokens, hrender] at hprinted
  obtain ⟨spot, hmarker⟩ := hprinted.drop_append
  have hinside := printed_of_marker hmarker
  rw [List.append_cons] at hinside
  exact parse_of_printed hinside.of_append found

/-- There is no closing brace in what is searched that is not in the text. -/
theorem mem_of_mem_searched {c : Char} {text : List Char} (h : c ∈ searched text) : c ∈ text := by
  have htrim := (Text.trimEnd_prefix _).subset h
  have hstrip := (List.dropWhile_sublist Text.isBlank).subset htrim
  exact (Text.strip_sublist text).subset hstrip

/-- **The payload of a line that has arrived in part** is no request, and it is a piece of the text
of the request with its texts stripped.

**Proof sketch.** If the last marker is that of the line, the payload is a beginning of that text,
in which a bracket is left open. If it is a later one, it stands in a text of the request, and the
payload begins inside the literal of that text. -/
theorem exists_payload (h : r.config.layout.Nested depth) (hp : p.toList <+: r.line.toList)
    (hproper : p ≠ r.line) {before after : List Char}
    (hs : searched p.toList = before ++ (marker.toList ++ after)) (hbrace : '}' ∈ after) :
    ∃ body tail, after = body ++ '}' :: tail ∧ '}' ∉ tail ∧
      body ++ ['}'] <:+: (r.mapText stripText).render.toList ∧
      ∀ found, parse (body ++ ['}']) ≠ .ok found := by
  have hin : '}' ∈ p.toList := by
    refine mem_of_mem_searched ?_
    rw [hs]
    simp [hbrace]
  have hstripped : (r.mapText stripText).config.layout.Nested depth := h.mapText stripText
  obtain ⟨front, tail, behind, hsearched, htail, hrender, hbehind⟩ := exists_cut h hp hproper hin
  rw [hsearched] at hs
  rcases eq_or_of_marker_append hs with rfl | ⟨x, hlater⟩
  · have hbeginning : front ++ ['}'] <+: (r.mapText stripText).render.toList :=
      ⟨behind, by rw [hrender, List.append_assoc]; rfl⟩
    refine ⟨front, tail, rfl, htail, hbeginning.isInfix, ?_⟩
    refine parse_of_prefix hstripped hbeginning (by simp) fun hsame => hbehind ?_
    rw [hrender] at hsame
    exact (List.cons.inj (List.append_cancel_left hsame)).2.symm
  · obtain ⟨body, rest, rfl, hend⟩ := exists_last_brace hbrace
    -- the last closing brace is the same
    have hcut := congrArg upToLastBrace hlater
    rw [upToLastBrace_append htail, ← List.append_assoc, ← List.append_assoc,
      upToLastBrace_append hend] at hcut
    have hfront := List.append_cancel_right hcut
    rw [hfront, List.append_assoc, List.append_assoc] at hrender
    refine ⟨body, rest, rfl, hend, ?_, parse_of_marker hstripped hrender⟩
    rw [hrender]
    exact ⟨x ++ marker.toList, behind, by simp⟩

/-- **A line that has arrived in part is faulty if it is closed.** -/
theorem find?_of_closed (h : r.config.layout.Nested depth) (hp : p.toList <+: r.line.toList)
    (hproper : p ≠ r.line) (hclosed : Closed p) : ∃ fault, find? p = .error fault := by
  have hstripped : (r.mapText stripText).config.layout.Nested depth := h.mapText stripText
  obtain ⟨before, after, hs, hno, hbrace⟩ := hclosed
  obtain ⟨body, tail, rfl, htail, hpiece, hparse⟩ := exists_payload h hp hproper hs hbrace
  have hunbroken : (body ++ ['}']).filter (!isLineBreak ·) = body ++ ['}'] :=
    List.filter_eq_self.2 fun c hc =>
      List.filter_eq_self.1 (filter_render hstripped) c (hpiece.subset hc)
  have hlocate := locate_eq_payload hs hno htail
  rw [find?_of_locate hlocate, hunbroken]
  cases hread : parse (body ++ ['}']) with
  | ok found => exact absurd hread (hparse found)
  | error fault => exact ⟨fault, rfl⟩

/-! ### What is found -/

/-- The line of a request up to its configuration. -/
def upToConfig (r : LayoutRequest) : String :=
  marker ++ String.ofList ('{' :: (Json.quote "config" ++ ':' :: r.config.toJson.chars))

/-- It is a beginning of the line, and it is closed. -/
theorem upToConfig_spec (r : LayoutRequest) :
    (upToConfig r).toList <+: r.line.toList ∧ upToConfig r ≠ r.line ∧ Closed (upToConfig r) := by
  obtain ⟨body, hbody⟩ := r.config.chars_eq_append_brace
  have hline : r.line.toList = (upToConfig r).toList ++
      ',' :: (Json.quote "cwd" ++ ':' :: (Json.quote r.cwd ++ ['}'])) := by
    simp [line, upToConfig, render, Json.render, chars_toJson]
  have hend : (upToConfig r).toList =
      marker.toList ++ ('{' :: (Json.quote "config" ++ ':' :: body) ++ ['}']) := by
    simp [upToConfig, hbody]
  refine ⟨⟨_, hline.symm⟩, fun hsame => ?_, closed_of_brace hend⟩
  rw [hsame] at hline
  exact absurd (List.append_right_eq_self.1 hline.symm) (by simp)

/-- In the line of a request without U+009B in its texts there is nothing to strip. -/
theorem strip_of_subset_line (h : r.config.layout.Nested depth)
    (hplain : ∀ text ∈ r.texts, '\u009b' ∉ text.toList) {s : List Char} (hs : s ⊆ r.line.toList) :
    Text.strip s = s := by
  refine Text.strip_eq_self fun c hc => ?_
  have hin := hs hc
  rw [line, String.toList_append] at hin
  rcases List.mem_append.1 hin with hin | hin
  · exact not_isIntroducer_marker c hin
  · exact not_isIntroducer_render h hplain c hin

/-- **An ordinary line is closed from its first closing brace on.** If the texts of a request have
neither U+009B nor a marker in them, a beginning of its line is closed exactly if there is a closing
brace in it. -/
theorem closed_iff_mem (h : r.config.layout.Nested depth)
    (hplain : ∀ text ∈ r.texts, '\u009b' ∉ text.toList ∧ ¬ marker.toList <:+: text.toList)
    (hp : p.toList <+: r.line.toList) : Closed p ↔ '}' ∈ p.toList := by
  constructor
  · rintro ⟨before, after, hs, -, hbrace⟩
    refine mem_of_mem_searched ?_
    rw [hs]
    simp [hbrace]
  · intro hbrace
    have hkept := strip_of_subset_line h (fun text htext => (hplain text htext).1) hp.subset
    obtain ⟨body, tail, hbody, -⟩ := exists_last_brace hbrace
    obtain ⟨more, hmore⟩ := hp
    obtain ⟨text, htext⟩ := render_eq_append_brace r
    have hline : body ++ '}' :: (tail ++ more) = marker.toList ++ (text ++ '}' :: []) := by
      rw [← htext, ← String.toList_append, ← line, ← hmore, hbody, List.append_assoc]
      rfl
    obtain ⟨front, rfl, hrender⟩ := exists_of_marker_append_brace hline
    have hstrip : Text.strip p.toList = [] ++ (marker.toList ++ (front ++ '}' :: tail)) := by
      rw [hkept, hbody, List.append_assoc, List.nil_append]
    refine ⟨[], _, searched_of_strip hstrip, fun hmarker => ?_, by simp⟩
    -- what stands behind the marker is a piece of the text of the request
    have hpiece : front ++ '}' :: Text.trimEnd tail <+: r.render.toList := by
      obtain ⟨blanks, hblanks⟩ := Text.trimEnd_prefix tail
      have htail : tail ++ more = Text.trimEnd tail ++ (blanks ++ more) := by
        rw [← List.append_assoc, hblanks]
      exact ⟨blanks ++ more, by rw [htext, ← hrender, htail]; simp⟩
    obtain ⟨text, htext, hin⟩ := (marker_infix_render_iff h).1 (hmarker.trans hpiece.isInfix)
    exact (hplain text htext).2 hin

/-- **What is found in a line that has arrived in part.** Take a request whose layout consists of
commands and groups, and any proper beginning of its line. No request is found in it: more is waited
for if it is not closed, and it is taken for a faulty request if it is. An ordinary line is closed
from its first closing brace on, and the line of every request has a proper beginning that is
closed: the one up to the end of the configuration.

**Proof sketch.** What is read of a closed beginning ends with a closing brace that is not the last
one of the line. Behind the marker of the line it is a beginning of the object that was printed, in
which a brace is left open. Behind a later marker it begins inside a literal, where what looks like
the keys of an object is punctuation. -/
theorem partial_line_is_fault_iff_closed (h : r.config.layout.Nested depth) :
    (∀ p : String, p.toList <+: r.line.toList → p ≠ r.line →
      (¬ Closed p ∧ find? p = .ok none) ∨ (Closed p ∧ ∃ fault, find? p = .error fault)) ∧
    ((∀ text ∈ r.texts, '\u009b' ∉ text.toList ∧ ¬ marker.toList <:+: text.toList) →
      ∀ p : String, p.toList <+: r.line.toList → (Closed p ↔ '}' ∈ p.toList)) ∧
    ∃ p : String, p.toList <+: r.line.toList ∧ p ≠ r.line ∧ ∃ fault, find? p = .error fault := by
  refine ⟨fun p hp hproper => ?_, fun hplain p => closed_iff_mem h hplain, upToConfig r, ?_⟩
  · by_cases hclosed : Closed p
    · exact .inr ⟨hclosed, find?_of_closed h hp hproper hclosed⟩
    · exact .inl ⟨hclosed, find?_of_not_closed hclosed⟩
  · obtain ⟨hp, hproper, hclosed⟩ := upToConfig_spec r
    exact ⟨hp, hproper, find?_of_closed h hp hproper hclosed⟩

/-- Of a request for two tabs, more is waited for as long as its configuration has not begun. -/
theorem two_tabs_are_waited_for :
    let r := twoTabs "a" "b"
    let p := "[par-layout config]:\x7b\"config\":"
    r.config.layout.Nested 125 ∧ p.toList <+: r.line.toList ∧ p ≠ r.line ∧ ¬ Closed p ∧
      find? p = .ok none := by
  intro r p
  have hp : p.toList <+: r.line.toList := by decide
  have hproper : p ≠ r.line := by decide
  have hopen : ¬ Closed p := by
    rintro ⟨before, after, hs, -, hbrace⟩
    have hin : '}' ∈ p.toList := mem_of_mem_searched (by rw [hs]; simp [hbrace])
    exact absurd hin (by decide)
  have hfound := (partial_line_is_fault_iff_closed (nested_twoTabs "a" "b")).1 p hp hproper
  rcases hfound with ⟨-, hnone⟩ | ⟨hclosed, -⟩
  · exact ⟨nested_twoTabs "a" "b", hp, hproper, hopen, hnone⟩
  · exact absurd hclosed hopen

/-- The same request up to the end of its configuration, with the directory still to come, is taken
for a faulty one. -/
theorem cut_behind_configuration_is_fault :
    let r := twoTabs "a" "b"
    let p := "[par-layout config]:\x7b\"config\":\x7b\"layout\":[\"a\",\"b\"],\"entry\":\"tab\"\x7d"
    r.config.layout.Nested 125 ∧ p.toList <+: r.line.toList ∧ p ≠ r.line ∧
      find? p = .error .truncated := by
  intro r p
  have hp : p.toList <+: r.line.toList := by decide
  have hproper : p ≠ r.line := by decide
  have hfault : find? p = .error .truncated := by simp only [p]; cbv
  exact ⟨nested_twoTabs "a" "b", hp, hproper, hfault⟩

end PaneLayout.LayoutRequest
