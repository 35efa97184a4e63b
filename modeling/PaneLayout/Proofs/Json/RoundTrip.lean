import PaneLayout.Json.Reader
import PaneLayout.Proofs.Json.Literal

set_option autoImplicit false

/-!
# Reading what was printed

Texts, arrays and objects that have been printed are read back, whatever follows them; a number is
if no digit follows. The reader needs no more steps than there are characters, and as many levels as
arrays and objects are open at a time. Objects with known fields are read member by member.

## Main definitions

* `PaneLayout.Json.Readable` — values that are read back before a comma or the end of an array or an
  object, when as many levels may be open.
* `PaneLayout.Json.Legible` — values that are read back whatever follows.

## Main results

* `PaneLayout.Json.Legible.string`, `PaneLayout.Json.Legible.array`,
  `PaneLayout.Json.Legible.object` — texts, arrays and objects are legible.
* `PaneLayout.Json.readFields_member`, `PaneLayout.Json.readFields_end` — one member of an object,
  and its end.
-/

namespace PaneLayout.Json

/-! ### Moving on -/

/-- A character that is no blank is not skipped. -/
theorem skipSpace_cons {c : Char} (h : isSpace c = false) (s : List Char) :
    skipSpace (c :: s) = c :: s := by
  simp [skipSpace, h]

/-- The opening quote of a literal is not skipped. -/
@[simp] theorem skipSpace_quote (s : String) (rest : List Char) :
    skipSpace (quote s ++ rest) = quote s ++ rest := rfl

/-- A text is read back as a field. -/
theorem readString_quote (expected s : String) (rest : List Char) :
    readString expected (quote s ++ rest) = .ok (s, rest) := by
  have hread := stringLiteral_escape s rest
  simpa [readString, quote, skipSpace_cons (show isSpace '"' = false from rfl)] using hread

/-- A text is read back where it may be missing. -/
theorem readOptionalString_quote (expected s : String) (rest : List Char) :
    readOptionalString expected (quote s ++ rest) = .ok (some s, rest) := by
  have hread := readString_quote expected s rest
  have hquote : quote s ++ rest = '"' :: (s.toList.flatMap escape ++ '"' :: rest) := by
    simp [quote]
  rw [readOptionalString, skipSpace_quote]
  split
  case h_1 heq =>
    rw [hquote] at heq
    simp at heq
  case h_2 =>
    rw [hread]
    rfl

/-- The key of the first member. -/
theorem nextMember_first (key : String) (rest : List Char) :
    nextMember false true (quote key ++ rest) = .ok (some key, rest) := by
  have hread := stringLiteral_escape key rest
  simp [nextMember, quote, skipSpace_cons (show isSpace '"' = false from rfl), memberKey, hread,
    Except.map]

/-- The key of a later member. -/
theorem nextMember_next (key : String) (rest : List Char) :
    nextMember false false (',' :: (quote key ++ rest)) = .ok (some key, rest) := by
  have hread := stringLiteral_escape key rest
  simp [nextMember, quote, skipSpace_cons (show isSpace '"' = false from rfl),
    skipSpace_cons (show isSpace ',' = false from rfl), memberKey, hread, Except.map]

/-- **A member is read** and the others after it. -/
theorem readFields_member {σ : Type} {field : FieldReader σ} {key : String} {first : Bool}
    {found found' : σ} {read : List Char → Except Fault (σ × List Char)} {s t t' : List Char}
    (hnext : nextMember false first s = .ok (some key, ':' :: t))
    (hfield : field key found = .ok read) (hread : read t = .ok (found', t')) (steps : Nat) :
    readFields field (steps + 1) first found s = readFields field steps false found' t' := by
  have hcolon : behindColon (':' :: t) = .ok t := rfl
  rw [readFields, hnext]
  simp [bind, Except.bind, hfield, hcolon, hread]

/-- **The end of an object.** -/
theorem readFields_end {σ : Type} (field : FieldReader σ) (steps : Nat) (first : Bool) (found : σ)
    (t : List Char) : readFields field (steps + 1) first found ('}' :: t) = .ok (found, t) := rfl

/-- A record that is written as an object is read behind its brace. -/
theorem readRecord_object {α : Type} (expectation : String)
    (ofArray ofObject : Nat → List Char → Except Fault (α × List Char)) (levels : Nat)
    (t : List Char) :
    readRecord expectation ofArray ofObject (levels + 1) ('{' :: t) = ofObject levels t := rfl

/-! ### Values -/

/-- **What may follow a value** in an array, in an object or in a document: a comma, what ends an
array or an object, or nothing. -/
def Follows (rest : List Char) : Prop := ∀ c ∈ rest.head?, c = ',' ∨ c = ']' ∨ c = '}'

/-- A comma or what ends an array or an object may follow a value. -/
theorem follows_cons {c : Char} (h : c = ',' ∨ c = ']' ∨ c = '}') (rest : List Char) :
    Follows (c :: rest) := by
  rintro _ ⟨⟩
  exact h

/-- **Readable values.** The value begins where it is written, not with what ends an array, and it
is read back before whatever may follow a value, when that many levels may be open and there are as
many steps as characters. -/
structure Readable (levels : Nat) (v : Json) : Prop where
  head : ∃ c tail, v.chars = c :: tail ∧ isSpace c = false ∧ c ≠ ']'
  reads : ∀ steps rest, Follows rest → v.chars.length ≤ steps →
    value false steps levels (v.chars ++ rest) = .ok (v, rest)

/-- **Legible values** are read back whatever follows them, even if it is not what may follow a
value. -/
structure Legible (levels : Nat) (v : Json) : Prop where
  head : ∃ c tail, v.chars = c :: tail ∧ isSpace c = false ∧ c ≠ ']'
  reads : ∀ steps rest, v.chars.length ≤ steps →
    value false steps levels (v.chars ++ rest) = .ok (v, rest)

/-- A value that begins neither with a blank nor with a bracket that opens is a scalar. -/
theorem value_eq_scalar {skipping : Bool} {c : Char} (hspace : isSpace c = false)
    (hopen : c ≠ '[' ∧ c ≠ '{') (steps levels : Nat) (t : List Char) :
    value skipping (steps + 1) levels (c :: t) = scalar skipping (c :: t) := by
  rw [value, skipSpace_cons hspace]
  split
  case h_1 heq => exact absurd (List.cons.inj heq).1 hopen.1
  case h_2 heq => exact absurd (List.cons.inj heq).1 hopen.2
  case h_3 => rfl

/-- What is read back whatever follows is read back before what may follow. -/
theorem Legible.readable {levels : Nat} {v : Json} (h : Legible levels v) : Readable levels v :=
  ⟨h.head, fun steps rest _ => h.reads steps rest⟩

/-- The rest of an array may follow a value. -/
theorem follows_moreItems (vs : List Json) (rest : List Char) : Follows (moreItems vs ++ rest) := by
  cases vs with
  | nil => exact follows_cons (by decide) rest
  | cons v vs => exact follows_cons (by decide) _

/-- The rest of an object may follow a value. -/
theorem follows_moreMembers (ms : List (String × Json)) (rest : List Char) :
    Follows (moreMembers ms ++ rest) := by
  cases ms with
  | nil => exact follows_cons (by decide) rest
  | cons m ms => exact follows_cons (by decide) _

namespace Readable

variable {levels : Nat} {v : Json}

/-- The first item of an array begins with the value. -/
theorem nextItem_first (h : Readable levels v) (rest : List Char) :
    nextItem true (v.chars ++ rest) = .ok (true, v.chars ++ rest) := by
  obtain ⟨c, tail, hchars, hspace, hne⟩ := h.head
  rw [hchars, List.cons_append, nextItem, skipSpace_cons hspace]
  split
  case h_1 heq => simp at heq
  case h_2 heq => exact absurd (List.cons.inj heq).1 hne
  case h_3 heq =>
    rw [← heq]
    rfl

/-- A later item begins behind the comma. -/
theorem nextItem_next (h : Readable levels v) (rest : List Char) :
    nextItem false (',' :: (v.chars ++ rest)) = .ok (true, v.chars ++ rest) := by
  obtain ⟨c, tail, hchars, hspace, hne⟩ := h.head
  simp [hchars, nextItem, skipSpace_cons (show isSpace ',' = false from rfl),
    skipSpace_cons hspace, hne]

/-- The text of a readable value is not empty. -/
theorem length_pos (h : Readable levels v) : 0 < v.chars.length := by
  obtain ⟨c, tail, hchars, -, -⟩ := h.head
  simp [hchars]

/-- The items after the first are read up to the end of the array. -/
theorem items_moreItems {vs : List Json} (h : ∀ v ∈ vs, Readable levels v) {steps : Nat}
    (hsteps : (moreItems vs).length ≤ steps) (rest : List Char) :
    items false steps levels false (moreItems vs ++ rest) = .ok (vs, rest) := by
  induction vs generalizing steps with
  | nil =>
    obtain ⟨steps, rfl⟩ : ∃ k, steps = k + 1 := ⟨steps - 1, by simp [moreItems] at hsteps; omega⟩
    rfl
  | cons v vs ih =>
    have hlength : (moreItems (v :: vs)).length = 1 + v.chars.length + (moreItems vs).length := by
      simp [moreItems]
      omega
    obtain ⟨steps, rfl⟩ : ∃ k, steps = k + 1 := ⟨steps - 1, by omega⟩
    have hv := h v (by simp)
    have hnext := hv.nextItem_next (moreItems vs ++ rest)
    have hvalue := hv.reads steps (moreItems vs ++ rest) (follows_moreItems vs rest) (by omega)
    have hmore : items false steps levels false (moreItems vs ++ rest) = .ok (vs, rest) :=
      ih (fun v' hv' => h v' (by simp [hv'])) (by omega)
    have happend : moreItems (v :: vs) ++ rest = ',' :: (v.chars ++ (moreItems vs ++ rest)) := by
      simp [moreItems]
    rw [happend, items, hnext]
    simp [bind, Except.bind, hvalue, hmore, pure, Except.pure]

/-- The members after the first are read up to the end of the object. -/
theorem members_moreMembers {ms : List (String × Json)} (h : ∀ m ∈ ms, Readable levels m.2)
    {steps : Nat} (hsteps : (moreMembers ms).length ≤ steps) (rest : List Char) :
    members false steps levels false (moreMembers ms ++ rest) = .ok (ms, rest) := by
  induction ms generalizing steps with
  | nil =>
    obtain ⟨steps, rfl⟩ : ∃ k, steps = k + 1 := ⟨steps - 1, by simp [moreMembers] at hsteps; omega⟩
    rfl
  | cons m ms ih =>
    obtain ⟨key, v⟩ := m
    have hlength : (moreMembers ((key, v) :: ms)).length =
        2 + (quote key).length + v.chars.length + (moreMembers ms).length := by
      simp [moreMembers]
      omega
    obtain ⟨steps, rfl⟩ : ∃ k, steps = k + 1 := ⟨steps - 1, by omega⟩
    have hv : Readable levels v := h (key, v) (by simp)
    have hnext := nextMember_next key (':' :: (v.chars ++ (moreMembers ms ++ rest)))
    have hcolon : behindColon (':' :: (v.chars ++ (moreMembers ms ++ rest))) =
        .ok (v.chars ++ (moreMembers ms ++ rest)) := rfl
    have hvalue := hv.reads steps (moreMembers ms ++ rest) (follows_moreMembers ms rest) (by omega)
    have hmore : members false steps levels false (moreMembers ms ++ rest) = .ok (ms, rest) :=
      ih (fun m' hm' => h m' (by simp [hm'])) (by omega)
    have happend : moreMembers ((key, v) :: ms) ++ rest =
        ',' :: (quote key ++ ':' :: (v.chars ++ (moreMembers ms ++ rest))) := by
      simp [moreMembers]
    rw [happend, members, hnext]
    simp [bind, Except.bind, hcolon, hvalue, hmore, pure, Except.pure]

/-- **Scalars that are read back are readable.** -/
theorem of_scalar {c : Char} {tail : List Char} (hchars : v.chars = c :: tail)
    (hspace : isSpace c = false) (hbracket : c ≠ ']' ∧ c ≠ '[' ∧ c ≠ '{')
    (hread : ∀ rest, Follows rest → scalar false (v.chars ++ rest) = .ok (v, rest)) :
    Readable levels v := by
  refine ⟨⟨c, tail, hchars, hspace, hbracket.1⟩, fun steps rest hrest hsteps => ?_⟩
  obtain ⟨steps, rfl⟩ : ∃ k, steps = k + 1 :=
    ⟨steps - 1, by rw [hchars, List.length_cons] at hsteps; omega⟩
  have hscalar := hread rest hrest
  rw [hchars, List.cons_append] at hscalar ⊢
  rw [value_eq_scalar hspace hbracket.2, hscalar]

/-- Null is readable. -/
theorem null : Readable levels .null :=
  of_scalar rfl rfl (by decide) fun _ _ => rfl

/-- The truth values are readable. -/
theorem bool (b : Bool) : Readable levels (.bool b) := by
  cases b with
  | true => exact of_scalar rfl rfl (by decide) fun _ _ => rfl
  | false => exact of_scalar rfl rfl (by decide) fun _ _ => rfl

/-- A readable value is read where a value is kept. -/
theorem readValue (h : Readable levels v) {rest : List Char} (hrest : Follows rest) :
    readValue levels (v.chars ++ rest) = .ok (v, rest) :=
  h.reads _ rest hrest (by simp; omega)

end Readable

namespace Legible

variable {levels : Nat}

/-- Texts are legible. -/
theorem string (levels : Nat) (s : String) : Legible levels (.string s) := by
  constructor
  · exact ⟨'"', _, rfl, rfl, by decide⟩
  · intro steps rest hsteps
    obtain ⟨steps, rfl⟩ : ∃ k, steps = k + 1 := by
      have hpos : 0 < (chars (.string s)).length := by simp [chars, quote]
      exact ⟨steps - 1, by omega⟩
    have hread := stringLiteral_escape s rest
    have hquote : chars (.string s) ++ rest = '"' :: (s.toList.flatMap escape ++ '"' :: rest) := by
      simp [chars, quote]
    rw [hquote, value_eq_scalar rfl (by decide)]
    simp [scalar, text, hread, Except.map]

/-- **Arrays of readable values are legible**, with one more level. -/
theorem array {vs : List Json} (h : ∀ v ∈ vs, Readable levels v) :
    Legible (levels + 1) (.array vs) := by
  cases vs with
  | nil =>
    refine ⟨⟨'[', _, rfl, rfl, by decide⟩, fun steps rest hsteps => ?_⟩
    obtain ⟨steps, rfl⟩ : ∃ k, steps = k + 2 := ⟨steps - 2, by simp [chars] at hsteps; omega⟩
    rfl
  | cons v vs =>
    refine ⟨⟨'[', _, rfl, rfl, by decide⟩, fun steps rest hsteps => ?_⟩
    have hv := h v (by simp)
    have hlength : (chars (.array (v :: vs))).length =
        1 + v.chars.length + (moreItems vs).length := by
      simp [chars]
      omega
    have hmoreLength : 0 < (moreItems vs).length := by cases vs <;> simp [moreItems]
    have hpos := hv.length_pos
    obtain ⟨steps, rfl⟩ : ∃ k, steps = k + 2 := ⟨steps - 2, by omega⟩
    have hnext := hv.nextItem_first (moreItems vs ++ rest)
    have hvalue := hv.reads steps (moreItems vs ++ rest) (follows_moreItems vs rest) (by omega)
    have hmore : items false steps levels false (moreItems vs ++ rest) = .ok (vs, rest) :=
      Readable.items_moreItems (fun v' hv' => h v' (by simp [hv'])) (by omega) rest
    have happend : chars (.array (v :: vs)) ++ rest =
        '[' :: (v.chars ++ (moreItems vs ++ rest)) := by
      simp [chars]
    rw [happend, value, skipSpace_cons (show isSpace '[' = false from rfl)]
    simp [items, hnext, bind, Except.bind, hvalue, hmore, pure, Except.pure, Except.map]

/-- **Objects of readable values are legible**, with one more level, if no member changes its place
or is lost when the object is put together. -/
theorem object {ms : List (String × Json)} (h : ∀ m ∈ ms, Readable levels m.2)
    (hmembers : ofMembers ms = .object ms) : Legible (levels + 1) (.object ms) := by
  cases ms with
  | nil =>
    refine ⟨⟨'{', _, rfl, rfl, by decide⟩, fun steps rest hsteps => ?_⟩
    obtain ⟨steps, rfl⟩ : ∃ k, steps = k + 2 := ⟨steps - 2, by simp [chars] at hsteps; omega⟩
    rfl
  | cons m ms =>
    obtain ⟨key, v⟩ := m
    refine ⟨⟨'{', _, rfl, rfl, by decide⟩, fun steps rest hsteps => ?_⟩
    have hv : Readable levels v := h (key, v) (by simp)
    have hlength : (chars (.object ((key, v) :: ms))).length =
        2 + (quote key).length + v.chars.length + (moreMembers ms).length := by
      simp [chars]
      omega
    have hmoreLength : 0 < (moreMembers ms).length := by cases ms <;> simp [moreMembers]
    obtain ⟨steps, rfl⟩ : ∃ k, steps = k + 2 := ⟨steps - 2, by omega⟩
    have hnext := nextMember_first key (':' :: (v.chars ++ (moreMembers ms ++ rest)))
    have hcolon : behindColon (':' :: (v.chars ++ (moreMembers ms ++ rest))) =
        .ok (v.chars ++ (moreMembers ms ++ rest)) := rfl
    have hvalue := hv.reads steps (moreMembers ms ++ rest) (follows_moreMembers ms rest) (by omega)
    have hmore : members false steps levels false (moreMembers ms ++ rest) = .ok (ms, rest) :=
      Readable.members_moreMembers (fun m' hm' => h m' (by simp [hm'])) (by omega) rest
    have happend : chars (.object ((key, v) :: ms)) ++ rest =
        '{' :: (quote key ++ ':' :: (v.chars ++ (moreMembers ms ++ rest))) := by
      simp [chars]
    rw [happend, value, skipSpace_cons (show isSpace '{' = false from rfl)]
    simp [members, hnext, bind, Except.bind, hcolon, hvalue, hmore, pure, Except.pure, Except.map,
      hmembers]

end Legible

end PaneLayout.Json
