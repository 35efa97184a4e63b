import Mathlib.Data.List.Infix
import PaneLayout.Request

set_option autoImplicit false

/-!
# Where a request is looked for

A text is searched after its control sequences and the blanks around it have been dropped. This file
says what the search finds without saying how: the marker that counts is the one behind which there
is no other, and the payload ends with the last closing brace.

## Main definitions

* `PaneLayout.LayoutRequest.searched` — the text in which the marker is looked for.

## Main results

* `PaneLayout.LayoutRequest.afterLast?_eq_none_iff`,
  `PaneLayout.LayoutRequest.afterLast?_marker_eq_some_iff` — the last marker of a text.
* `PaneLayout.LayoutRequest.locate_eq_absent_iff`,
  `PaneLayout.LayoutRequest.locate_eq_incomplete_iff`, `PaneLayout.LayoutRequest.locate_eq_payload`
  — what the search finds.
* `PaneLayout.Text.trim_around`, `PaneLayout.LayoutRequest.searched_of_strip` — trimming stops at
  what is not blank.
-/

namespace PaneLayout

/-! ### Trimming -/

namespace Text

/-- Dropping from the front does not get past an element that is kept. -/
theorem dropWhile_append_cons {α : Type} {p : α → Bool} {c : α} (hc : p c = false)
    (s t : List α) : (s ++ c :: t).dropWhile p = s.dropWhile p ++ c :: t := by
  induction s with
  | nil => simp [hc]
  | cons d s ih =>
    by_cases hd : p d = true
    · simp [hd, ih]
    · simp [hd]

/-- **Trimming stops at what is not blank**, from both sides. -/
theorem trim_around {c d : Char} (hc : isBlank c = false) (hd : isBlank d = false)
    (before middle after : List Char) :
    trim (before ++ c :: (middle ++ d :: after)) =
      before.dropWhile isBlank ++ c :: (middle ++ d :: trimEnd after) := by
  have hfront := dropWhile_append_cons hc before (middle ++ d :: after)
  have hback : ∀ s : List Char, trimEnd (s ++ d :: after) = s ++ d :: trimEnd after := by
    intro s
    have hrev : (s ++ d :: after).reverse = after.reverse ++ d :: s.reverse := by simp
    rw [trimEnd, hrev, dropWhile_append_cons hd, trimEnd]
    simp
  rw [trim, hfront, ← List.cons_append, ← List.append_assoc, hback]
  simp

/-- Trimming the end leaves a beginning. -/
theorem trimEnd_prefix (s : List Char) : trimEnd s <+: s := by
  have h : s.reverse.dropWhile isBlank <:+ s.reverse := List.dropWhile_suffix isBlank
  rw [← List.reverse_prefix, List.reverse_reverse] at h
  exact h

end Text

namespace LayoutRequest

/-! ### The last marker -/

/-- A word is not found exactly if it does not occur. -/
theorem afterLast?_eq_none_iff {word s : List Char} :
    afterLast? word s = none ↔ ¬ word <:+: s := by
  induction s with
  | nil => cases word <;> simp [afterLast?]
  | cons c s ih =>
    rw [afterLast?, List.infix_cons_iff, not_or]
    cases hlater : afterLast? word s with
    | some rest =>
      rw [hlater] at ih
      simp only [reduceCtorEq, false_iff, not_not] at ih
      simp [ih]
    | none =>
      have hno : ¬ word <:+: s := ih.1 hlater
      by_cases hhere : word <+: c :: s
      · simp [List.isPrefixOf_iff_prefix, hhere]
      · simp [List.isPrefixOf_iff_prefix, hhere, hno]

/-- What stands behind the last occurrence of a word: no later occurrence begins in the word or
behind it. -/
theorem exists_of_afterLast?_eq_some {a : Char} {word s rest : List Char}
    (h : afterLast? (a :: word) s = some rest) :
    ∃ before, s = before ++ a :: (word ++ rest) ∧ ¬ a :: word <:+: word ++ rest := by
  induction s with
  | nil => simp [afterLast?] at h
  | cons c s ih =>
    rw [afterLast?] at h
    cases hlater : afterLast? (a :: word) s with
    | some later =>
      rw [hlater] at h ih
      obtain ⟨before, hs, hno⟩ := ih h
      exact ⟨c :: before, by rw [hs, List.cons_append], hno⟩
    | none =>
      have hno := afterLast?_eq_none_iff.1 hlater
      rw [hlater] at h
      simp only [List.isPrefixOf_iff_prefix] at h
      split at h
      case isFalse => simp at h
      case isTrue hhere =>
        obtain ⟨t, ht⟩ := hhere
        rw [List.cons_append, List.cons.injEq] at ht
        obtain ⟨rfl, rfl⟩ := ht
        obtain rfl : t = rest := by simpa using h
        exact ⟨[], rfl, hno⟩

/-- The word is found where it stands, if it does not occur later. -/
theorem afterLast?_eq_some {a : Char} {word rest : List Char}
    (h : ¬ a :: word <:+: word ++ rest) (before : List Char) :
    afterLast? (a :: word) (before ++ a :: (word ++ rest)) = some rest := by
  induction before with
  | nil =>
    have hhere : a :: word <+: a :: (word ++ rest) := ⟨rest, by simp⟩
    rw [List.nil_append, afterLast?, afterLast?_eq_none_iff.2 h]
    simp only [List.isPrefixOf_iff_prefix, if_pos hhere]
    simp
  | cons c before ih => rw [List.cons_append, afterLast?, ih]

/-- The first character of the marker, which does not occur in the rest of it. -/
theorem marker_eq : marker.toList = '[' :: marker.toList.tail ∧ '[' ∉ marker.toList.tail := by
  decide

/-- A word that begins with a character that a text does not have begins behind the text. -/
theorem infix_append_of_notMem {α : Type} {a : α} {word s t : List α} (ha : a ∉ s) :
    a :: word <:+: s ++ t ↔ a :: word <:+: t := by
  induction s with
  | nil => rfl
  | cons c s ih =>
    rw [List.mem_cons, not_or] at ha
    rw [List.cons_append, List.infix_cons_iff, ih ha.2, or_iff_right]
    rintro ⟨u, hu⟩
    rw [List.cons_append, List.cons.injEq] at hu
    exact ha.1 hu.1

/-- **The last marker.** What is found stands behind a marker and has no marker in it. -/
theorem afterLast?_marker_eq_some_iff {s after : List Char} :
    afterLast? marker.toList s = some after ↔
      (∃ before, s = before ++ (marker.toList ++ after)) ∧ ¬ marker.toList <:+: after := by
  obtain ⟨hmarker, hnot⟩ := marker_eq
  have hlater : '[' :: marker.toList.tail <:+: marker.toList.tail ++ after ↔
      '[' :: marker.toList.tail <:+: after := infix_append_of_notMem hnot
  rw [hmarker]
  constructor
  · intro h
    obtain ⟨before, hs, hno⟩ := exists_of_afterLast?_eq_some h
    exact ⟨⟨before, hs⟩, mt hlater.2 hno⟩
  · rintro ⟨⟨before, rfl⟩, hno⟩
    exact afterLast?_eq_some (mt hlater.1 hno) before

/-! ### The last closing brace -/

/-- The text up to the last closing brace is empty if there is none. -/
theorem upToLastBrace_of_notMem {s : List Char} (h : '}' ∉ s) : upToLastBrace s = [] := by
  have hall : ∀ c ∈ s.reverse, (c != '}') = true := by
    intro c hc
    rw [bne_iff_ne]
    rintro rfl
    exact h (List.mem_reverse.1 hc)
  have hdrop : (s.reverse ++ []).dropWhile (· != '}') = [].dropWhile (· != '}') :=
    List.dropWhile_append_of_pos hall
  rw [List.append_nil, List.dropWhile_nil] at hdrop
  rw [upToLastBrace, hdrop, List.reverse_nil]

/-- The text up to the last closing brace ends with that brace. -/
theorem upToLastBrace_append {tail : List Char} (h : '}' ∉ tail) (body : List Char) :
    upToLastBrace (body ++ '}' :: tail) = body ++ ['}'] := by
  have hrev : (body ++ '}' :: tail).reverse = tail.reverse ++ '}' :: body.reverse := by simp
  have htail : tail.reverse.dropWhile (· != '}') = [] := by
    have hnil := upToLastBrace_of_notMem h
    rwa [upToLastBrace, List.reverse_eq_nil_iff] at hnil
  rw [upToLastBrace, hrev, Text.dropWhile_append_cons (by decide), htail]
  simp

/-- The text up to the last closing brace is a beginning. -/
theorem upToLastBrace_isPrefix (s : List Char) : upToLastBrace s <+: s := by
  have h : s.reverse.dropWhile (· != '}') <:+ s.reverse := List.dropWhile_suffix _
  rw [← List.reverse_prefix, List.reverse_reverse] at h
  exact h

/-- A text with a closing brace has a last one. -/
theorem exists_last_brace {s : List Char} (h : '}' ∈ s) :
    ∃ body tail, s = body ++ '}' :: tail ∧ '}' ∉ tail := by
  obtain ⟨tail, body, hs, htail⟩ := List.eq_append_cons_of_mem (List.mem_reverse.2 h)
  refine ⟨body.reverse, tail.reverse, ?_, by simpa using htail⟩
  rw [← List.reverse_reverse s, hs]
  simp

/-! ### What the search finds -/

/-- **The text that is searched**: the control sequences and the blanks around it are dropped. -/
def searched (text : List Char) : List Char := Text.trim (Text.strip text)

/-- Between a marker and a closing brace nothing is trimmed away. -/
theorem searched_of_strip {text before body tail : List Char}
    (h : Text.strip text = before ++ (marker.toList ++ (body ++ '}' :: tail))) :
    searched text =
      before.dropWhile Text.isBlank ++ (marker.toList ++ (body ++ '}' :: Text.trimEnd tail)) := by
  have htrim := Text.trim_around (c := '[') (d := '}') rfl rfl before
    (marker.toList.tail ++ body) tail
  have hassoc : ∀ t : List Char, marker.toList ++ (body ++ '}' :: t) =
      '[' :: (marker.toList.tail ++ body ++ '}' :: t) := by
    intro t
    rw [marker_eq.1]
    simp
  rw [searched, h, hassoc, hassoc, htrim]

/-- No marker is found exactly if there is none. -/
theorem locate_eq_absent_iff {text : List Char} :
    locate text = .absent ↔ ¬ marker.toList <:+: searched text := by
  rw [← afterLast?_eq_none_iff, searched, locate]
  cases afterLast? marker.toList (Text.trim (Text.strip text)) with
  | none => simp
  | some after =>
    simp only [reduceCtorEq, iff_false]
    split <;> simp

/-- The marker is found without a payload exactly if no closing brace stands behind the last one. -/
theorem locate_eq_incomplete_iff {text : List Char} :
    locate text = .incomplete ↔ ∃ before after, searched text = before ++ (marker.toList ++ after) ∧
      ¬ marker.toList <:+: after ∧ '}' ∉ after := by
  constructor
  · intro h
    rw [locate] at h
    cases hlast : afterLast? marker.toList (Text.trim (Text.strip text)) with
    | none => simp [hlast] at h
    | some after =>
      obtain ⟨⟨before, hs⟩, hno⟩ := afterLast?_marker_eq_some_iff.1 hlast
      refine ⟨before, after, hs, hno, fun hbrace => ?_⟩
      obtain ⟨body, tail, rfl, htail⟩ := exists_last_brace hbrace
      simp only [hlast, upToLastBrace_append htail] at h
      split at h
      case h_1 heq => simp at heq
      case h_2 => simp at h
  · rintro ⟨before, after, hs, hno, hbrace⟩
    have hlast := afterLast?_marker_eq_some_iff.2 ⟨⟨before, hs⟩, hno⟩
    rw [searched] at hlast
    rw [locate, hlast]
    simp only [upToLastBrace_of_notMem hbrace]

/-- **The payload** reaches from the last marker to the last closing brace, without line breaks. -/
theorem locate_eq_payload {text before body tail : List Char}
    (hs : searched text = before ++ (marker.toList ++ (body ++ '}' :: tail)))
    (hno : ¬ marker.toList <:+: body ++ '}' :: tail) (htail : '}' ∉ tail) :
    locate text = .payload ((body ++ ['}']).filter (!isLineBreak ·)) := by
  have hlast := afterLast?_marker_eq_some_iff.2 ⟨⟨before, hs⟩, hno⟩
  rw [searched] at hlast
  rw [locate, hlast]
  simp only [upToLastBrace_append htail]
  split
  case h_1 heq => simp at heq
  case h_2 => rfl

/-- A payload is read, and nothing else is. -/
theorem find?_of_locate {text : String} {raw : List Char} (h : locate text.toList = .payload raw) :
    find? text = (parse raw).map some := by
  rw [find?, h]

end LayoutRequest

end PaneLayout
