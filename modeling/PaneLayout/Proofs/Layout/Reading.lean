import PaneLayout.Layout.JsonForm
import PaneLayout.Proofs.Json.Consumption

set_option autoImplicit false

/-!
# What has been read when a request has been read

Configurations and requests are read field by field. Whatever holds of what is read is shown of the
readers of their parts; this file says once which parts these are, and in which order they stand.

## Main results

* `PaneLayout.LayoutConfig.readField_cases`, `PaneLayout.LayoutRequest.readField_cases` — what has
  been read as the value of a field.
* `PaneLayout.LayoutConfig.exists_of_readArray`, `PaneLayout.LayoutRequest.exists_of_readArray` —
  what has been read as an array of fields.
* `PaneLayout.LayoutConfig.exists_of_readObject`, `PaneLayout.LayoutRequest.exists_of_readObject` —
  what has been read as an object.
-/

namespace PaneLayout

open Json (bind_eq_ok_iff map_eq_ok_iff)

namespace LayoutConfig

variable {levels : Nat} {s rest : List Char} {c : LayoutConfig}

/-- **Fields of a configuration.** Behind a key stands the layout or the name of the mode, if it has
not been given before, or a value that is passed over. -/
theorem readField_cases {key : String} {found found' : Fields}
    {read : List Char → Except Json.Fault (Fields × List Char)}
    (h : readField levels key found = .ok read) (hread : read s = .ok (found', rest)) :
    (∃ v, found.layout = none ∧ Json.readValue levels s = .ok (v, rest) ∧
        found' = { found with layout := some (.ofJson v) }) ∨
      (∃ e, found.entry = none ∧ Json.readOptionalString "a string" s = .ok (e, rest) ∧
        found' = { found with entry := some e }) ∨
      (Json.skipValue s = .ok rest ∧ found' = found) := by
  rw [readField] at h
  split at h
  case isTrue =>
    split at h
    case isTrue => simp at h
    case isFalse hnone =>
      obtain rfl := Except.ok.inj h
      obtain ⟨⟨v, left⟩, hvalue, hsame⟩ := map_eq_ok_iff.1 hread
      obtain ⟨rfl, rfl⟩ := Prod.mk.inj hsame
      exact .inl ⟨v, by simpa using hnone, hvalue, rfl⟩
  case isFalse =>
    split at h
    case isTrue =>
      split at h
      case isTrue => simp at h
      case isFalse hnone =>
        obtain rfl := Except.ok.inj h
        obtain ⟨⟨e, left⟩, hentry, hsame⟩ := map_eq_ok_iff.1 hread
        obtain ⟨rfl, rfl⟩ := Prod.mk.inj hsame
        exact .inr (.inl ⟨e, by simpa using hnone, hentry, rfl⟩)
    case isFalse =>
      obtain rfl := Except.ok.inj h
      obtain ⟨left, hskip, hsame⟩ := map_eq_ok_iff.1 hread
      obtain ⟨rfl, rfl⟩ := Prod.mk.inj hsame
      exact .inr (.inr ⟨hskip, rfl⟩)

/-- **The array of the fields** holds the layout and possibly the name of the mode. -/
theorem exists_of_readArray (h : readArray levels s = .ok (c, rest)) :
    ∃ v t u more w, Json.nextItem true s = .ok (true, t) ∧
      Json.readValue levels t = .ok (v, u) ∧ Json.nextItem false u = .ok (more, w) ∧
      c.layout = .ofJson v ∧ ((more = false ∧ c.entry = none ∧ w = rest) ∨
        (more = true ∧ ∃ x, Json.readOptionalString "a string" w = .ok (c.entry, x) ∧
          Json.endItems x = .ok rest)) := by
  rw [readArray] at h
  obtain ⟨⟨first, t⟩, hfirst, h⟩ := bind_eq_ok_iff.1 h
  cases first with
  | false => simp at h
  | true =>
    obtain ⟨⟨v, u⟩, hvalue, h⟩ := bind_eq_ok_iff.1 h
    obtain ⟨⟨more, w⟩, hnext, h⟩ := bind_eq_ok_iff.1 h
    cases more with
    | false =>
      obtain ⟨rfl, rfl⟩ := Prod.mk.inj (Except.ok.inj h)
      exact ⟨v, t, u, false, w, hfirst, hvalue, hnext, rfl, .inl ⟨rfl, rfl, rfl⟩⟩
    | true =>
      obtain ⟨⟨e, x⟩, hentry, h⟩ := bind_eq_ok_iff.1 h
      obtain ⟨y, hend, h⟩ := bind_eq_ok_iff.1 h
      obtain ⟨rfl, rfl⟩ := Prod.mk.inj (Except.ok.inj h)
      exact ⟨v, t, u, true, w, hfirst, hvalue, hnext, rfl, .inr ⟨rfl, x, hentry, hend⟩⟩

/-- **The object** is made of the fields found in it. -/
theorem exists_of_readObject (h : readObject levels s = .ok (c, rest)) :
    ∃ found, Json.readFields (readField levels) (s.length + 1) true ⟨none, none⟩ s =
      .ok (found, rest) ∧ ofFields found = .ok c := by
  obtain ⟨⟨found, t⟩, hfields, h⟩ := bind_eq_ok_iff.1 h
  obtain ⟨c', hof, h⟩ := bind_eq_ok_iff.1 h
  obtain ⟨rfl, rfl⟩ := Prod.mk.inj (Except.ok.inj h)
  exact ⟨found, hfields, hof⟩

/-- A configuration is made of a layout that was found, and of the name that was found with it. -/
theorem of_ofFields {found : Fields} (h : ofFields found = .ok c) :
    found.layout = some c.layout ∧ c.entry = found.entry.join := by
  rw [ofFields] at h
  split at h
  case h_2 => simp at h
  case h_1 layout hlayout =>
    obtain rfl := Except.ok.inj h
    cases hentry : found.entry <;> simp [hlayout]

end LayoutConfig

namespace LayoutRequest

variable {levels : Nat} {s rest : List Char} {r : LayoutRequest}

/-- **Fields of a request.** Behind a key stands the configuration or the directory, if it has not
been given before, or a value that is passed over. -/
theorem readField_cases {key : String} {found found' : Fields}
    {read : List Char → Except Json.Fault (Fields × List Char)}
    (h : readField levels key found = .ok read) (hread : read s = .ok (found', rest)) :
    (∃ c, found.config = none ∧ LayoutConfig.read levels s = .ok (c, rest) ∧
        found' = { found with config := some c }) ∨
      (∃ d, found.cwd = none ∧ Json.readString "path string" s = .ok (d, rest) ∧
        found' = { found with cwd := some d }) ∨
      (Json.skipValue s = .ok rest ∧ found' = found) := by
  rw [readField] at h
  split at h
  case isTrue =>
    split at h
    case isTrue => simp at h
    case isFalse hnone =>
      obtain rfl := Except.ok.inj h
      obtain ⟨⟨c, left⟩, hconfig, hsame⟩ := map_eq_ok_iff.1 hread
      obtain ⟨rfl, rfl⟩ := Prod.mk.inj hsame
      exact .inl ⟨c, by simpa using hnone, hconfig, rfl⟩
  case isFalse =>
    split at h
    case isTrue =>
      split at h
      case isTrue => simp at h
      case isFalse hnone =>
        obtain rfl := Except.ok.inj h
        obtain ⟨⟨d, left⟩, hcwd, hsame⟩ := map_eq_ok_iff.1 hread
        obtain ⟨rfl, rfl⟩ := Prod.mk.inj hsame
        exact .inr (.inl ⟨d, by simpa using hnone, hcwd, rfl⟩)
    case isFalse =>
      obtain rfl := Except.ok.inj h
      obtain ⟨left, hskip, hsame⟩ := map_eq_ok_iff.1 hread
      obtain ⟨rfl, rfl⟩ := Prod.mk.inj hsame
      exact .inr (.inr ⟨hskip, rfl⟩)

/-- **The array of the fields** holds the configuration and the directory. -/
theorem exists_of_readArray (h : readArray levels s = .ok (r, rest)) :
    ∃ t u w x, Json.nextItem true s = .ok (true, t) ∧
      LayoutConfig.read levels t = .ok (r.config, u) ∧ Json.nextItem false u = .ok (true, w) ∧
      Json.readString "path string" w = .ok (r.cwd, x) ∧ Json.endItems x = .ok rest := by
  rw [readArray] at h
  obtain ⟨⟨first, t⟩, hfirst, h⟩ := bind_eq_ok_iff.1 h
  cases first with
  | false => simp at h
  | true =>
    obtain ⟨⟨c, u⟩, hconfig, h⟩ := bind_eq_ok_iff.1 h
    obtain ⟨⟨more, w⟩, hnext, h⟩ := bind_eq_ok_iff.1 h
    cases more with
    | false => simp at h
    | true =>
      obtain ⟨⟨d, x⟩, hcwd, h⟩ := bind_eq_ok_iff.1 h
      obtain ⟨y, hend, h⟩ := bind_eq_ok_iff.1 h
      obtain ⟨rfl, rfl⟩ := Prod.mk.inj (Except.ok.inj h)
      exact ⟨t, u, w, x, hfirst, hconfig, hnext, hcwd, hend⟩

/-- **The object** is made of the fields found in it. -/
theorem exists_of_readObject (h : readObject levels s = .ok (r, rest)) :
    ∃ found, Json.readFields (readField levels) (s.length + 1) true ⟨none, none⟩ s =
      .ok (found, rest) ∧ ofFields found = .ok r := by
  obtain ⟨⟨found, t⟩, hfields, h⟩ := bind_eq_ok_iff.1 h
  obtain ⟨r', hof, h⟩ := bind_eq_ok_iff.1 h
  obtain ⟨rfl, rfl⟩ := Prod.mk.inj (Except.ok.inj h)
  exact ⟨found, hfields, hof⟩

/-- A request is made of a configuration and a directory that were found. -/
theorem of_ofFields {found : Fields} (h : ofFields found = .ok r) :
    found.config = some r.config ∧ found.cwd = some r.cwd := by
  rw [ofFields] at h
  split at h
  case h_2 => simp at h
  case h_3 => simp at h
  case h_1 c d hconfig hcwd =>
    obtain rfl := Except.ok.inj h
    exact ⟨hconfig, hcwd⟩

end LayoutRequest

end PaneLayout
