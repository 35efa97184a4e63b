import Mathlib.Algebra.Module.Submodule.Lattice
import Mathlib.Data.List.Permutation
import PaneLayout.Proofs.Json.Wrapping
import PaneLayout.Proofs.Layout.Consumption
import PaneLayout.Proofs.Request.Search

set_option autoImplicit false

/-!
# Line breaks in a payload

The line breaks in a payload are dropped before it is read, since the terminal may have put them
there. They may as well have been written, in a payload that is laid out over several lines. If the
payload is a request as it stands, it is the same request without its line breaks.

## Main results

* `PaneLayout.LayoutConfig.read_unwraps`, `PaneLayout.LayoutRequest.read_unwraps` — configurations
  and requests are read as before when blanks other than spaces are dropped.
* `PaneLayout.LayoutRequest.find?_of_parse` — a payload that is a request is found as this request.

## Implementation notes

The text of the example is read by `cbv`, which rewrites with the equations of the functions that it
meets. The two modules of Mathlib are imported for those of `≤` and `Prod.snd`.
-/

namespace PaneLayout

open Json (DropsBreaks Unwraps Consumes)

section Kept

variable {kept : Char → Bool} (hkept : DropsBreaks kept) {levels : Nat}
include hkept

namespace LayoutConfig

/-- The value of a field is read as before. -/
theorem readField_unwraps {key : String} {found : Fields}
    {read : List Char → Except Json.Fault (Fields × List Char)}
    (h : readField levels key found = .ok read) : Unwraps kept read := by
  rw [readField] at h
  split at h
  case isTrue =>
    split at h
    case isTrue => simp at h
    case isFalse =>
      obtain rfl := Except.ok.inj h
      exact (Json.readValue_unwraps hkept levels).map fun v =>
        { found with layout := some (.ofJson v) }
  case isFalse =>
    split at h
    case isTrue =>
      split at h
      case isTrue => simp at h
      case isFalse =>
        obtain rfl := Except.ok.inj h
        exact (Json.readOptionalString_unwraps hkept _).map fun e => { found with entry := some e }
    case isFalse =>
      obtain rfl := Except.ok.inj h
      exact Json.skipValue_unwraps hkept found

/-- The array form is read as before. -/
theorem readArray_unwraps (levels : Nat) : Unwraps kept (readArray levels) := by
  intro s c rest h _
  obtain ⟨v, t, u, more, w, hfirst, hvalue, hnext, hlayout, hend⟩ := exists_of_readArray h
  have hitem := Json.nextItem_filter hkept hfirst
  have hread := Json.readValue_unwraps hkept levels _ _ _ hvalue (Json.settled_of_nextItem hnext)
  have hsecond := Json.nextItem_filter hkept hnext
  obtain ⟨layout, entry⟩ := c
  obtain rfl : layout = .ofJson v := hlayout
  rcases hend with ⟨rfl, hentry, rfl⟩ | ⟨rfl, x, hentry, hend⟩
  · obtain rfl : entry = none := hentry
    simp [readArray, hitem, hread, hsecond, bind, Except.bind, pure, Except.pure]
  · have hmode := Json.readOptionalString_unwraps hkept _ _ _ _ hentry
      (Json.settled_of_endItems hend)
    have hlast := Json.endItems_filter hkept hend
    simp [readArray, hitem, hread, hsecond, hmode, hlast, bind, Except.bind, pure, Except.pure]

/-- The object form is read as before. -/
theorem readObject_unwraps (levels : Nat) : Unwraps kept (readObject levels) :=
  Json.ofFields_unwraps hkept (fun _ _ _ hread => readField_unwraps hkept hread)
    (fun _ _ _ hread => (readField_consumes hread).free) _ ofFields

/-- **A configuration is read as before.** -/
theorem read_unwraps (levels : Nat) : Unwraps kept (read levels) :=
  Json.readRecord_unwraps hkept (readArray_unwraps hkept) (readObject_unwraps hkept) levels

end LayoutConfig

namespace LayoutRequest

/-- The value of a field is read as before. -/
theorem readField_unwraps {key : String} {found : Fields}
    {read : List Char → Except Json.Fault (Fields × List Char)}
    (h : readField levels key found = .ok read) : Unwraps kept read := by
  rw [readField] at h
  split at h
  case isTrue =>
    split at h
    case isTrue => simp at h
    case isFalse =>
      obtain rfl := Except.ok.inj h
      exact (LayoutConfig.read_unwraps hkept levels).map fun c => { found with config := some c }
  case isFalse =>
    split at h
    case isTrue =>
      split at h
      case isTrue => simp at h
      case isFalse =>
        obtain rfl := Except.ok.inj h
        exact (Json.readString_unwraps hkept _).map fun d => { found with cwd := some d }
    case isFalse =>
      obtain rfl := Except.ok.inj h
      exact Json.skipValue_unwraps hkept found

/-- The array form is read as before. -/
theorem readArray_unwraps (levels : Nat) : Unwraps kept (readArray levels) := by
  intro s r rest h _
  obtain ⟨t, u, w, x, hfirst, hconfig, hnext, hcwd, hend⟩ := exists_of_readArray h
  have hitem := Json.nextItem_filter hkept hfirst
  have hread := LayoutConfig.read_unwraps hkept levels _ _ _ hconfig
    (Json.settled_of_nextItem hnext)
  have hsecond := Json.nextItem_filter hkept hnext
  have hdirectory := Json.readString_unwraps hkept _ _ _ _ hcwd (Json.settled_of_endItems hend)
  have hlast := Json.endItems_filter hkept hend
  simp [readArray, hitem, hread, hsecond, hdirectory, hlast, bind, Except.bind, pure, Except.pure]

/-- The object form is read as before. -/
theorem readObject_unwraps (levels : Nat) : Unwraps kept (readObject levels) :=
  Json.ofFields_unwraps hkept (fun _ _ _ hread => readField_unwraps hkept hread)
    (fun _ _ _ hread => (readField_consumes hread).free) _ ofFields

/-- **A request is read as before.** -/
theorem read_unwraps (levels : Nat) : Unwraps kept (read levels) :=
  Json.readRecord_unwraps hkept (readArray_unwraps hkept) (readObject_unwraps hkept) levels

end LayoutRequest

end Kept

namespace LayoutRequest

/-- Line breaks are blanks of JSON, and not spaces. -/
theorem dropsBreaks_lineBreaks : DropsBreaks (!isLineBreak ·) := by
  intro c hc
  have hbreak : c = '\n' ∨ c = '\r' := by
    simpa only [isLineBreak, Bool.not_eq_false', Bool.or_eq_true, beq_iff_eq] using hc
  rcases hbreak with rfl | rfl <;> decide

/-- **Payloads over several lines.** Take a text in which, as it is searched, a last closing brace
stands behind a last marker. If what stands between the marker and the brace, which is part of it,
is a request as it stands, then this request is found, and the payload without its line breaks is
the same request. It does not matter how the payload is laid out, which layout it describes, and
what is passed over in it.

**Proof sketch.** What is dropped before the payload is read are line breaks only. A request is read
as before without them (`read_unwraps`), since no token has a line break in it or runs into the next
one when a line break between them is dropped. -/
theorem find?_of_parse (text : String) (before body tail : List Char) (r : LayoutRequest)
    (hs : searched text.toList = before ++ (marker.toList ++ (body ++ '}' :: tail)))
    (hlast : ¬ marker.toList <:+: body ++ '}' :: tail) (htail : '}' ∉ tail)
    (hr : parse (body ++ ['}']) = .ok r) :
    find? text = .ok (some r) ∧ parse ((body ++ ['}']).filter (!isLineBreak ·)) = .ok r := by
  have hsame : parse ((body ++ ['}']).filter (!isLineBreak ·)) = .ok r :=
    Json.finish_filter dropsBreaks_lineBreaks (read_unwraps dropsBreaks_lineBreaks nestingLimit) hr
  refine ⟨?_, hsame⟩
  rw [find?_of_locate (locate_eq_payload hs hlast htail), hsame]
  rfl

/-- A request that is laid out over several lines is found, with a value in it that is no layout and
a field that is passed over. -/
theorem find?_of_parse_over_lines :
    let config := "\x7b\"layout\":[\"a\",\r\n 42],\n \"x\":[1.5e3,\nnull]\x7d"
    let body := "\x7b\"config\":" ++ config ++ ",\r\n \"cwd\":\"/w\"\r\n"
    let text := "$ [par-layout config]:" ++ body ++ "\x7d\r\n$ "
    let tail := "\r\n$".toList
    let r : LayoutRequest := ⟨⟨.group [.command "a", .invalid (.int 42)], none⟩, "/w"⟩
    searched text.toList = "$ ".toList ++ (marker.toList ++ (body.toList ++ '}' :: tail)) ∧
      ¬ marker.toList <:+: body.toList ++ '}' :: tail ∧ '}' ∉ tail ∧
      parse (body.toList ++ ['}']) = .ok r ∧ find? text = .ok (some r) := by
  intro config body text tail r
  have hs : searched text.toList =
      "$ ".toList ++ (marker.toList ++ (body.toList ++ '}' :: tail)) := by decide
  have hlast : ¬ marker.toList <:+: body.toList ++ '}' :: tail := by
    -- a letter of the marker is missing
    have hletter : 'p' ∉ body.toList ++ '}' :: tail := by decide
    exact fun hmarker => hletter (hmarker.subset (by decide))
  have htail : '}' ∉ tail := by decide
  have hr : parse (body.toList ++ ['}']) = .ok r := by simp only [config, body, r]; cbv
  exact ⟨hs, hlast, htail, hr, (find?_of_parse text _ _ _ r hs hlast htail hr).1⟩

end LayoutRequest

end PaneLayout
