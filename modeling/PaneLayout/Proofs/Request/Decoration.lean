import PaneLayout.Proofs.Request.Rendering
import PaneLayout.Proofs.Text.ControlWord

set_option autoImplicit false

/-!
# Decorated requests are found

On its way through a terminal the line of a request gets control sequences and line breaks put into
it, and other output around it. None of this hides the request.

## Main definitions

* `PaneLayout.Text.Interspersed` — a text with words of some kind put into it.
* `PaneLayout.LayoutRequest.Decoration`, `PaneLayout.LayoutRequest.Break` — what is put into a line.
* `PaneLayout.LayoutRequest.Shows` — the line of a request, decorated and wrapped.

## Main results

* `PaneLayout.LayoutRequest.strip_interspersed` — stripping takes the decorations out again.
* `PaneLayout.LayoutRequest.strip_around_marker` — the marker is kept, whatever stands before it.
* `PaneLayout.LayoutRequest.find?_shown` — a decorated request is found, whatever stands before it.
-/

namespace PaneLayout

namespace Text

/-- **Insertions.** The second text is the first one with words of some kind put into it, between
its characters and at its two ends. -/
inductive Interspersed (insertion : List Char → Prop) : List Char → List Char → Prop where
  | nil : Interspersed insertion [] []
  | keep {s t : List Char} (c : Char) (rest : Interspersed insertion s t) :
    Interspersed insertion (c :: s) (c :: t)
  | insert {word s t : List Char} (here : insertion word) (rest : Interspersed insertion s t) :
    Interspersed insertion s (word ++ t)

namespace Interspersed

variable {insertion : List Char → Prop} {s t : List Char}

/-- Nothing has to be put in. -/
theorem refl (s : List Char) : Interspersed insertion s s := by
  induction s with
  | nil => exact .nil
  | cons c s ih => exact .keep c ih

/-- Insertions into two texts are insertions into both of them together. -/
theorem append (h : Interspersed insertion s t) {s' t' : List Char}
    (h' : Interspersed insertion s' t') : Interspersed insertion (s ++ s') (t ++ t') := by
  induction h with
  | nil => exact h'
  | keep c rest ih => exact .keep c ih
  | insert here rest ih =>
    rw [List.append_assoc]
    exact .insert here ih

/-- Words of one kind are words of a wider kind. -/
theorem mono {wider : List Char → Prop} (hle : ∀ word, insertion word → wider word)
    (h : Interspersed insertion s t) : Interspersed wider s t := by
  induction h with
  | nil => exact .nil
  | keep c rest ih => exact .keep c ih
  | insert here rest ih => exact .insert (hle _ here) ih

/-- If there are no words to put in, nothing is put in. -/
theorem eq_of_forall_not (h : Interspersed insertion s t) (hnone : ∀ word, ¬ insertion word) :
    t = s := by
  induction h with
  | nil => rfl
  | keep c rest ih => rw [ih]
  | insert here rest ih => exact absurd here (hnone _)

/-- What is put in is gone when a filter drops all of it. -/
theorem filter_eq (h : Interspersed insertion s t) {p : Char → Bool}
    (hdrop : ∀ word, insertion word → word.filter p = []) : t.filter p = s.filter p := by
  induction h with
  | nil => rfl
  | keep c rest ih => rw [List.filter_cons, List.filter_cons, ih]
  | insert here rest ih => rw [List.filter_append, hdrop _ here, List.nil_append, ih]

end Interspersed

end Text

namespace LayoutRequest

open Text (ControlWord Interspersed Barrier)

/-- **Decorations** are control words that do not end with a digit. -/
def Decoration (word : List Char) : Prop :=
  ControlWord word ∧ ∀ c ∈ word.getLast?, c.isDigit = false

/-- A single line break. -/
def Break (word : List Char) : Prop := ∃ c, isLineBreak c = true ∧ word = [c]

/-- **What a terminal shows of the line of a request**: decorations anywhere in the line, also in
the marker, and line breaks anywhere in the payload. -/
def Shows (r : LayoutRequest) (shown : List Char) : Prop :=
  ∃ front payload, Interspersed Decoration marker.toList front ∧
    Interspersed (fun word => Decoration word ∨ Break word) r.render.toList payload ∧
    shown = front ++ payload

/-! ### Decorations are stripped -/

/-- No control sequence runs into a decoration. -/
theorem Decoration.barrier {word : List Char} (h : Decoration word) (rest : List Char) :
    Barrier (word ++ rest) := by
  obtain ⟨⟨hbegins, -, -, -⟩, -⟩ := h
  obtain ⟨hmiddle, hfinal⟩ := Text.isIntermediate_of_isIntroducer hbegins
  exact .of_head hmiddle hfinal

/-- **Stripping takes the decorations out again.** Take a text without introducers and put
decorations into it and words of another kind, which have no introducers either. What is left has
only words of the other kind put into it, whatever follows. -/
theorem strip_interspersed {other : List Char → Prop}
    (hother : ∀ word, other word → ∀ c ∈ word, Text.isIntroducer c = false) {s t : List Char}
    (hs : ∀ c ∈ s, Text.isIntroducer c = false)
    (h : Interspersed (fun word => Decoration word ∨ other word) s t) :
    ∃ left, Interspersed other s left ∧
      ∀ rest, Text.strip (t ++ rest) = left ++ Text.strip rest := by
  induction h with
  | nil => exact ⟨[], .nil, fun rest => rfl⟩
  | @keep s t c rest ih =>
    obtain ⟨left, hleft, hstrip⟩ := ih fun d hd => hs d (by simp [hd])
    refine ⟨c :: left, .keep c hleft, fun rest => ?_⟩
    have hc := Text.controlSequence?_eq_none (hs c (by simp)) (t ++ rest)
    rw [List.cons_append, Text.strip_cons hc, hstrip, List.cons_append]
  | @insert word s t here rest ih =>
    obtain ⟨left, hleft, hstrip⟩ := ih hs
    rcases here with ⟨hword, hlast⟩ | here
    · refine ⟨left, hleft, fun rest => ?_⟩
      rw [List.append_assoc, Text.strip_word_append hword hlast, hstrip]
    · refine ⟨word ++ left, .insert here hleft, fun rest => ?_⟩
      rw [List.append_assoc, Text.strip_append_of_forall (hother word here), hstrip,
        List.append_assoc]

/-- No control sequence runs into a text whose first character has no place in one, decorated or
not. -/
theorem barrier_of_interspersed {c : Char} {s t : List Char}
    (hmiddle : Text.isIntermediate c = false) (hfinal : Text.isFinal c = false)
    (h : Interspersed Decoration (c :: s) t) (rest : List Char) : Barrier (t ++ rest) := by
  cases h with
  | keep _ hrest => exact .of_head hmiddle hfinal
  | insert here hrest =>
    rw [List.append_assoc]
    exact here.barrier _

/-- **No control sequence runs into a marker**, decorated or not. Its bracket might be part of one,
but not with the letter that follows, nor with a decoration in between. -/
theorem barrier_marker {front : List Char} (h : Interspersed Decoration marker.toList front)
    (rest : List Char) : Barrier (front ++ rest) := by
  have hmarker : marker.toList = '[' :: 'p' :: marker.toList.tail.tail := by decide
  rw [hmarker] at h
  cases h with
  | keep _ hrest => exact (barrier_of_interspersed rfl rfl hrest rest).cons rfl (by decide)
  | insert here hrest =>
    rw [List.append_assoc]
    exact here.barrier _

/-- A decorated marker is stripped to the marker. -/
theorem strip_marker {front : List Char} (h : Interspersed Decoration marker.toList front)
    (rest : List Char) : Text.strip (front ++ rest) = marker.toList ++ Text.strip rest := by
  have hwide : Interspersed (fun word => Decoration word ∨ False) marker.toList front :=
    h.mono fun _ => .inl
  obtain ⟨marked, hmarked, hstrip⟩ := strip_interspersed (fun _ hfalse => hfalse.elim)
    not_isIntroducer_marker hwide
  obtain rfl : marked = marker.toList := hmarked.eq_of_forall_not fun _ hfalse => hfalse
  exact hstrip rest

/-- **No control sequence takes anything of a marker**, whatever stands before it. What stands on
its two sides is stripped as if it stood alone, and the marker is kept. At no place before the
marker is another control sequence found than would be found without it.

**Proof sketch.** A control sequence that begins before the marker cannot end in it or behind it
(`barrier_marker`), and none begins in the marker (`strip_marker`). -/
theorem strip_around_marker (before after : List Char) :
    Text.strip (before ++ marker.toList ++ after) =
      Text.strip before ++ marker.toList ++ Text.strip after ∧
    ∀ c later, Text.controlSequence? (c :: (later ++ marker.toList ++ after)) =
      Text.controlSequence? (c :: later) := by
  have hbarrier : Barrier (marker.toList ++ after) := barrier_marker (.refl _) after
  have hmarker : Text.strip (marker.toList ++ after) = marker.toList ++ Text.strip after :=
    strip_marker (.refl _) after
  constructor
  · rw [List.append_assoc, Text.strip_append hbarrier, hmarker, List.append_assoc]
  · intro c later
    rw [List.append_assoc]
    exact Text.controlSequence?_append hbarrier c later

/-- A colour without its final letter gives up a digit for it, and does not take the bracket. -/
example : Text.strip "\x1b[1;[par-layout config]:\x1b[0m".toList =
    ";[par-layout config]:".toList := by decide

/-- A line break introduces nothing. -/
theorem Break.not_isIntroducer {word : List Char} (h : Break word) :
    ∀ c ∈ word, Text.isIntroducer c = false := by
  obtain ⟨c, hc, rfl⟩ := h
  intro d hd
  obtain rfl : d = c := by simpa using hd
  simp only [isLineBreak, Bool.or_eq_true, beq_iff_eq] at hc
  rcases hc with rfl | rfl <;> rfl

/-! ### Decorated requests -/

variable {r : LayoutRequest} {depth : Nat}

/-- **A payload that is shown** is stripped to the text of the request with line breaks in it. -/
theorem strip_payload (h : r.config.layout.Nested depth)
    (hplain : ∀ text ∈ r.texts, '\u009b' ∉ text.toList) {payload : List Char}
    (hpayload : Interspersed (fun word => Decoration word ∨ Break word) r.render.toList payload) :
    ∃ broken : List Char, broken.filter (!isLineBreak ·) = r.render.toList ∧
      ∀ rest, Text.strip (payload ++ rest) = broken ++ Text.strip rest := by
  obtain ⟨broken, hbroken, hstrip⟩ := strip_interspersed (fun _ => Break.not_isIntroducer)
    (not_isIntroducer_render h hplain) hpayload
  refine ⟨broken, ?_, hstrip⟩
  rw [hbroken.filter_eq, filter_render h]
  rintro _ ⟨c, hc, rfl⟩
  simp [hc]

/-- **Decorated requests are found.** Take a request whose layout consists of commands and groups,
nested at most `125` deep, and whose texts have neither U+009B nor a marker in them. It is found in
every text that shows its line: decorated anywhere with control sequences that do not end with a
digit, and wrapped anywhere in the payload. Before it may stand anything, be it other requests or
the beginning of a control sequence. What stands behind it may not, once it is stripped, have a
marker or a closing brace in it.

**Proof sketch.** No control sequence runs into the marker, so what stands before it is stripped by
itself; what is put into the line is stripped where it stands, since control sequences that do not
end with a digit cannot be longer. What remains is the line with line breaks, between two texts of
which the second one brings no later marker and no later brace (`find?_of_strip`). -/
theorem find?_shown (hlayout : r.config.layout.Nested 125)
    (hplain : ∀ text ∈ r.texts, '\u009b' ∉ text.toList)
    (hfree : ∀ text ∈ r.texts, ¬ marker.toList <:+: text.toList) (before after shown : String)
    (hshown : r.Shows shown.toList) (hbrace : '}' ∉ Text.strip after.toList)
    (hmarker : ¬ marker.toList <:+: Text.strip after.toList) :
    find? (before ++ shown ++ after) = .ok (some r) := by
  obtain ⟨front, payload, hfront, hpayload, hsplit⟩ := hshown
  obtain ⟨broken, hfilter, hstripPayload⟩ := strip_payload hlayout hplain hpayload
  have hstrip : Text.strip (before ++ shown ++ after).toList =
      Text.strip before.toList ++ (marker.toList ++ (broken ++ Text.strip after.toList)) := by
    have hlist : (before ++ shown ++ after).toList =
        before.toList ++ (front ++ (payload ++ after.toList)) := by
      rw [String.toList_append, String.toList_append, hsplit]
      simp
    rw [hlist, Text.strip_append (barrier_marker hfront _), strip_marker hfront, hstripPayload]
  exact find?_of_strip hlayout (by decide) hfree hstrip hfilter hbrace hmarker

/-- A request for two panes on the right of a third one. -/
def threePanes : LayoutRequest :=
  ⟨⟨.group [.command "ls", .group [.command "vim", .command "top"]], none⟩, "/w"⟩

/-- The request follows an earlier marker and the beginning of a control sequence. Its marker is
coloured, a key has a control sequence in it and a command is cut by the end of the line. -/
theorem find?_shown_coloured :
    let before := "[par-layout config]:\x7b\"cwd\":\x1b["
    let shown :=
      "[par\x1b[36m-layout config]:\x7b\"config\":\x7b\"lay\x1b[0;1mout\":[\"l\r\ns\"," ++
      "[\"vim\",\"top\"]]\x7d,\"cwd\":\"/w\"\x7d"
    let after := "\x1b[0m\r\n$ "
    threePanes.config.layout.Nested 125 ∧ (∀ text ∈ threePanes.texts, '\u009b' ∉ text.toList) ∧
      (∀ text ∈ threePanes.texts, ¬ marker.toList <:+: text.toList) ∧
      threePanes.Shows shown.toList ∧ '}' ∉ Text.strip after.toList ∧
      ¬ marker.toList <:+: Text.strip after.toList ∧
      find? (before ++ shown ++ after) = .ok (some threePanes) := by
  intro before shown after
  have hlayout : threePanes.config.layout.Nested 125 := by
    refine .group fun child hchild => ?_
    rcases List.mem_pair.1 hchild with rfl | rfl
    · exact .command "ls"
    · refine .group fun child hchild => ?_
      rcases List.mem_pair.1 hchild with rfl | rfl
      · exact .command "vim"
      · exact .command "top"
  have hcolour : Decoration ['\x1b', '[', '3', '6', 'm'] := by
    refine ⟨@ControlWord.intro '\x1b' 'm' ['['] ['3', '6'] rfl (forall_mem_of_all rfl) ?_ rfl,
      by simp⟩
    exact .inr ⟨['3', '6'], [], by simp, ⟨by simp, forall_mem_of_all rfl⟩, by simp, rfl⟩
  have hbold : Decoration ['\x1b', '[', '0', ';', '1', 'm'] := by
    refine ⟨@ControlWord.intro '\x1b' 'm' ['['] ['0', ';', '1'] rfl (forall_mem_of_all rfl) ?_ rfl,
      by simp⟩
    refine .inr ⟨['0'], [['1']], by simp, ⟨by simp, forall_mem_of_all rfl⟩, fun g hg => ?_, rfl⟩
    obtain rfl : g = ['1'] := by simpa using hg
    exact ⟨by simp, forall_mem_of_all rfl⟩
  have hreturn : Break ['\r'] := ⟨'\r', rfl, rfl⟩
  have hnewline : Break ['\n'] := ⟨'\n', rfl, rfl⟩
  have hshown : threePanes.Shows shown.toList := by
    refine ⟨_, _, (Interspersed.refl "[par".toList).append
      (.insert hcolour (.refl "-layout config]:".toList)),
      (Interspersed.refl "\x7b\"config\":\x7b\"lay".toList).append (.insert (.inl hbold)
        ((Interspersed.refl "out\":[\"l".toList).append (.insert (.inr hreturn)
          (.insert (.inr hnewline)
            (.refl "s\",[\"vim\",\"top\"]]\x7d,\"cwd\":\"/w\"\x7d".toList))))), by decide⟩
  have hplain : ∀ text ∈ threePanes.texts, '\u009b' ∉ text.toList := by decide
  have hfree : ∀ text ∈ threePanes.texts, ¬ marker.toList <:+: text.toList := by decide
  have hbrace : '}' ∉ Text.strip after.toList := by decide
  have hmarker : ¬ marker.toList <:+: Text.strip after.toList := by decide
  exact ⟨hlayout, hplain, hfree, hshown, hbrace, hmarker,
    find?_shown hlayout hplain hfree before after shown hshown hbrace hmarker⟩

end LayoutRequest

end PaneLayout
