import PaneLayout.Proofs.Json.Consumption

set_option autoImplicit false

/-!
# What has been read is balanced

Outside its literals, a text that was read as a value closes every bracket that it opens, and there
are no backslashes. This holds whatever the value is, and also of values that are passed over.

## Main definitions

* `PaneLayout.Json.Raw` — what may stand between the quotes of a literal.
* `PaneLayout.Json.Balanced` — texts in which brackets and quotes are closed.
* `PaneLayout.Json.Passes`, `PaneLayout.Json.Leaves` — two texts with a balanced text between them,
  and readers that use up such a text.

## Main results

* `PaneLayout.Json.exists_raw_of_stringLiteral` — what is read as a literal.
* `PaneLayout.Json.value_leaves` — what is read as a value is balanced.
* `PaneLayout.Json.readFields_leaves`, `PaneLayout.Json.readRecord_leaves` — the same of objects
  with known fields and of records.
-/

namespace PaneLayout.Json

/-! ### Balanced texts -/

/-- **Raw literals.** What may stand between two quotes: backslashes come with the character that
they escape, and there are no other quotes. -/
inductive Raw : List Char → Prop where
  | nil : Raw []
  | char {c : Char} {s : List Char} : c ≠ '"' → c ≠ '\\' → Raw s → Raw (c :: s)
  | escape (e : Char) {s : List Char} : Raw s → Raw ('\\' :: e :: s)

/-- A text without quotes and backslashes is a raw literal. -/
theorem raw_of_forall {s : List Char} (h : ∀ c ∈ s, c ≠ '"' ∧ c ≠ '\\') : Raw s := by
  induction s with
  | nil => exact .nil
  | cons c s ih =>
    obtain ⟨hquote, hbackslash⟩ := h c List.mem_cons_self
    exact .char hquote hbackslash (ih fun d hd => h d (List.mem_cons_of_mem c hd))

/-- The characters that mean something outside literals: quotes, backslashes and brackets. -/
def special : List Char := ['"', '\\', '[', ']', '{', '}']

/-- **Balanced texts.** Quotes enclose raw literals, every bracket that is opened is closed by its
counterpart, and there are no backslashes outside literals. -/
inductive Balanced : List Char → Prop where
  | nil : Balanced []
  | plain {c : Char} : c ∉ special → Balanced [c]
  | literal {s : List Char} : Raw s → Balanced ('"' :: (s ++ ['"']))
  | array {s : List Char} : Balanced s → Balanced ('[' :: (s ++ [']']))
  | object {s : List Char} : Balanced s → Balanced ('{' :: (s ++ ['}']))
  | append {s t : List Char} : Balanced s → Balanced t → Balanced (s ++ t)

/-- A text without special characters is balanced. -/
theorem balanced_of_forall {s : List Char} (h : ∀ c ∈ s, c ∉ special) : Balanced s := by
  induction s with
  | nil => exact .nil
  | cons c s ih =>
    have hs := ih fun d hd => h d (List.mem_cons_of_mem c hd)
    exact .append (.plain (h c List.mem_cons_self)) hs

/-- **Passing.** Between the beginnings of two texts, of which the second is the end of the first,
stands a balanced text. -/
def Passes (s rest : List Char) : Prop := ∃ x, s = x ++ rest ∧ Balanced x

namespace Passes

variable {s t u : List Char}

theorem refl (s : List Char) : Passes s s := ⟨[], rfl, .nil⟩

theorem trans (h : Passes s t) (h' : Passes t u) : Passes s u := by
  obtain ⟨x, rfl, hx⟩ := h
  obtain ⟨y, rfl, hy⟩ := h'
  exact ⟨x ++ y, (List.append_assoc x y u).symm, .append hx hy⟩

/-- A character that is not special is passed. -/
theorem cons {c : Char} (hc : c ∉ special) (s : List Char) : Passes (c :: s) s :=
  ⟨[c], rfl, .plain hc⟩

/-- Some characters that are not special are passed. -/
theorem append {x : List Char} (hx : ∀ c ∈ x, c ∉ special) (s : List Char) : Passes (x ++ s) s :=
  ⟨x, rfl, balanced_of_forall hx⟩

/-- A literal is passed. -/
theorem literal {raw : List Char} (hraw : Raw raw) (s : List Char) :
    Passes ('"' :: (raw ++ '"' :: s)) s :=
  ⟨'"' :: (raw ++ ['"']), by simp, .literal hraw⟩

/-- An array is passed if what is in it is. -/
theorem array (h : Passes s (']' :: t)) : Passes ('[' :: s) t := by
  obtain ⟨x, rfl, hx⟩ := h
  exact ⟨'[' :: (x ++ [']']), by simp, .array hx⟩

/-- An object is passed if what is in it is. -/
theorem object (h : Passes s ('}' :: t)) : Passes ('{' :: s) t := by
  obtain ⟨x, rfl, hx⟩ := h
  exact ⟨'{' :: (x ++ ['}']), by simp, .object hx⟩

end Passes

/-- **What a reader leaves.** Before the rest that a reader gives back it has passed a balanced text
and then the characters `closing`. -/
def Leaves {α : Type} (closing : List Char)
    (read : List Char → Except Fault (α × List Char)) : Prop :=
  ∀ s a rest, read s = .ok (a, rest) → Passes s (closing ++ rest)

/-! ### Blanks and words -/

/-- Blanks are passed. -/
theorem passes_skipSpace (s : List Char) : Passes s (skipSpace s) := by
  have hblank : ∀ c ∈ s.takeWhile isSpace, c ∉ special := by
    intro c hc hspecial
    have hspace : isSpace c = true := List.mem_takeWhile_imp hc
    have hnone : ∀ d ∈ special, isSpace d = false := forall_mem_of_all (by decide)
    rw [hnone c hspecial] at hspace
    contradiction
  have hpass := Passes.append hblank (skipSpace s)
  rwa [skipSpace, List.takeWhile_append_dropWhile] at hpass

/-- What stands at the beginning behind the blanks is reached by passing them. -/
theorem passes_of_skipSpace {s t : List Char} (h : skipSpace s = t) : Passes s t :=
  h ▸ passes_skipSpace s

/-- A word that is expected stands there. -/
theorem eq_append_of_expect {word s rest : List Char} (h : expect word s = .ok rest) :
    s = word ++ rest := by
  induction word generalizing s with
  | nil => simpa [expect] using h
  | cons e word ih =>
    cases s with
    | nil => simp [expect] at h
    | cons c s =>
      rw [expect] at h
      split at h
      case isFalse => simp at h
      case isTrue hc => rw [ih h, hc, List.cons_append]

/-- A word of plain characters, with its first letter read before, is passed. -/
theorem passes_of_expect {c : Char} {word s rest : List Char}
    (hword : (c :: word).all (fun d => decide (d ∉ special)) = true)
    (h : expect word s = .ok rest) : Passes (c :: s) rest := by
  rw [eq_append_of_expect h, ← List.cons_append]
  exact .append (forall_mem_of_all hword) rest

/-! ### Literals -/

/-- A hexadecimal digit is no quote and no backslash. -/
theorem ne_of_hexValue {c : Char} {n : Nat} (h : hexValue c = some n) : c ≠ '"' ∧ c ≠ '\\' := by
  constructor
  · rintro rfl
    simp [hexValue] at h
  · rintro rfl
    simp [hexValue] at h

/-- Four hexadecimal digits are part of a raw literal. -/
theorem Raw.hexNumber {a b c d : Char} {n : Nat} (h : hexNumber a b c d = some n) {s : List Char}
    (hs : Raw s) : Raw (a :: b :: c :: d :: s) := by
  simp only [Json.hexNumber, Option.bind_eq_bind, Option.bind_eq_some_iff] at h
  obtain ⟨na, ha, nb, hb, nc, hc, nd, hd, -⟩ := h
  have hda := ne_of_hexValue ha
  have hdb := ne_of_hexValue hb
  have hdc := ne_of_hexValue hc
  have hdd := ne_of_hexValue hd
  exact .char hda.1 hda.2 (.char hdb.1 hdb.2 (.char hdc.1 hdc.2 (.char hdd.1 hdd.2 hs)))

/-- **Units** are cut off a raw literal. Without backslashes, they are its characters. -/
theorem exists_raw_of_units {s rest : List Char} {us : List LiteralUnit}
    (h : units s = (us, .closed rest)) :
    ∃ raw, s = raw ++ '"' :: rest ∧ Raw raw ∧
      ('\\' ∉ raw → us = raw.map LiteralUnit.char) := by
  fun_induction units s generalizing us with
  | case2 t =>
    obtain ⟨rfl, rfl⟩ : [] = us ∧ t = rest := by simpa using h
    exact ⟨[], rfl, .nil, fun _ => rfl⟩
  | case4 a b c d t n hn vs stop hunits _ ih =>
    obtain ⟨rfl, rfl⟩ : .code n :: vs = us ∧ stop = .closed rest := by simpa using h
    obtain ⟨raw, rfl, hraw, -⟩ := ih hunits
    exact ⟨'\\' :: 'u' :: a :: b :: c :: d :: raw, rfl, .escape 'u' (hraw.hexNumber hn), by simp⟩
  | case7 e t _ c hc vs stop hunits _ ih =>
    obtain ⟨rfl, rfl⟩ : .char c :: vs = us ∧ stop = .closed rest := by simpa using h
    obtain ⟨raw, rfl, hraw, -⟩ := ih hunits
    exact ⟨'\\' :: e :: raw, rfl, .escape e hraw, by simp⟩
  | case10 c t hquote hbackslash hlow vs stop hunits ih =>
    obtain ⟨rfl, rfl⟩ : .char c :: vs = us ∧ stop = .closed rest := by simpa using h
    obtain ⟨raw, rfl, hraw, hplain⟩ := ih hunits
    refine ⟨c :: raw, rfl, .char hquote hbackslash hraw, fun hno => ?_⟩
    rw [hplain fun hin => hno (List.mem_cons_of_mem c hin), List.map_cons]
  | _ => simp at h

/-- Characters stand for themselves. -/
theorem decodeUnits_map_char (s : List Char) : decodeUnits (s.map .char) = .ok s := by
  induction s with
  | nil => rfl
  | cons c s ih =>
    rw [List.map_cons, decodeUnits, ih]
    rfl

/-- **What is read as a literal** behind its opening quote is a raw literal and a quote. If there
are no backslashes in it, it is read as it stands there. -/
theorem exists_raw_of_stringLiteral {s rest : List Char} {text : String}
    (h : stringLiteral s = .ok (text, rest)) :
    ∃ raw, s = raw ++ '"' :: rest ∧ Raw raw ∧ ('\\' ∉ raw → text.toList = raw) := by
  rw [stringLiteral] at h
  cases hunits : units s with
  | mk us stop =>
    rw [hunits] at h
    cases stop with
    | broken fault =>
      dsimp only at h
      split at h <;> simp at h
    | closed left =>
      dsimp only at h
      cases hdecode : decodeUnits us with
      | error lone => simp [hdecode] at h
      | ok found =>
        obtain ⟨rfl, rfl⟩ : String.ofList found = text ∧ left = rest := by
          simpa [hdecode] using h
        obtain ⟨raw, hs, hraw, hplain⟩ := exists_raw_of_units hunits
        refine ⟨raw, hs, hraw, fun hno => ?_⟩
        rw [hplain hno, decodeUnits_map_char] at hdecode
        rw [String.toList_ofList, Except.ok.inj hdecode]

/-- What is written for a text between quotes is a raw literal. -/
theorem raw_flatMap_escape (s : List Char) : Raw (s.flatMap escape) := by
  obtain ⟨us, hunits, -⟩ := units_flatMap_escape s []
  obtain ⟨raw, hsame, hraw, -⟩ := exists_raw_of_units hunits
  rwa [List.append_cancel_right hsame]

/-- The literal that is written for a text is balanced. -/
theorem balanced_quote (s : String) : Balanced (quote s) := .literal (raw_flatMap_escape s.toList)

/-- A literal that is read is passed, with its opening quote. -/
theorem passes_of_stringLiteral {s rest : List Char} {text : String}
    (h : stringLiteral s = .ok (text, rest)) : Passes ('"' :: s) rest := by
  obtain ⟨raw, rfl, hraw, -⟩ := exists_raw_of_stringLiteral h
  exact .literal hraw rest

/-- So is one that is passed over. -/
theorem passes_of_skipLiteral {s rest : List Char} (h : skipLiteral s = .ok rest) :
    Passes ('"' :: s) rest := by
  rw [skipLiteral] at h
  cases hunits : units s with
  | mk us stop =>
    rw [hunits] at h
    cases stop with
    | broken fault => simp at h
    | closed left =>
      obtain rfl : left = rest := by simpa using h
      obtain ⟨raw, rfl, hraw, -⟩ := exists_raw_of_units hunits
      exact .literal hraw left

/-! ### Numbers -/

/-- A digit is not special. -/
theorem notMem_special_of_isDigit {c : Char} (h : c.isDigit = true) : c ∉ special := by
  intro hspecial
  have hnone : ∀ d ∈ special, d.isDigit = false := forall_mem_of_all (by decide)
  rw [hnone c hspecial] at h
  contradiction

/-- Digits are passed. -/
theorem passes_of_someDigits {s ds rest : List Char} (h : someDigits s = .ok (ds, rest)) :
    Passes s rest := by
  have hsplit : rest = s.dropWhile Char.isDigit := by
    rw [someDigits, digits] at h
    split at h
    · simp at h
    · simp at h
    · simpa using (congrArg Prod.snd (Except.ok.inj h)).symm
  have hdigits : ∀ c ∈ s.takeWhile Char.isDigit, c ∉ special :=
    fun c hc => notMem_special_of_isDigit (List.mem_takeWhile_imp hc)
  have hpass := Passes.append hdigits (s.dropWhile Char.isDigit)
  rwa [List.takeWhile_append_dropWhile, ← hsplit] at hpass

/-- The digits before the point are passed. -/
theorem passes_of_wholeDigits {s ds rest : List Char} (h : wholeDigits s = .ok (ds, rest)) :
    Passes s rest := by
  rw [wholeDigits.eq_def] at h
  split at h
  · split at h
    · simp at h
    · obtain ⟨-, rfl⟩ := by simpa using h
      exact .cons (by decide) _
  · exact passes_of_someDigits h

/-- The digits after the point are passed, with the point. -/
theorem passes_of_fractionDigits {s rest : List Char} {ds : Option (List Char)}
    (h : fractionDigits s = .ok (ds, rest)) : Passes s rest := by
  rw [fractionDigits.eq_def] at h
  split at h
  · obtain ⟨⟨found, left⟩, hfound, heq⟩ := bind_eq_ok_iff.1 h
    obtain ⟨-, rfl⟩ : _ ∧ left = rest := by simpa [pure, Except.pure] using heq
    exact (Passes.cons (by decide) _).trans (passes_of_someDigits hfound)
  · obtain ⟨-, rfl⟩ := by simpa using h
    exact .refl _

/-- An exponent is passed. -/
theorem passes_of_exponentDigits {s rest : List Char} {e : Option (Bool × List Char)}
    (h : exponentDigits s = .ok (e, rest)) : Passes s rest := by
  rw [exponentDigits.eq_def] at h
  split at h
  case h_2 =>
    obtain ⟨-, rfl⟩ := by simpa using h
    exact .refl _
  case h_1 c t =>
    split at h
    case isFalse =>
      obtain ⟨-, rfl⟩ := by simpa using h
      exact .refl _
    case isTrue hc =>
      have hletter : c ∉ special := by
        rcases hc with rfl | rfl
        · decide
        · decide
      split at h
      case h_1 | h_2 =>
        obtain ⟨⟨found, left⟩, hfound, heq⟩ := bind_eq_ok_iff.1 h
        obtain ⟨-, rfl⟩ : _ ∧ left = rest := by simpa [pure, Except.pure] using heq
        exact (Passes.cons hletter _).trans
          ((Passes.cons (by decide) _).trans (passes_of_someDigits hfound))
      case h_3 =>
        obtain ⟨⟨found, left⟩, hfound, heq⟩ := bind_eq_ok_iff.1 h
        obtain ⟨-, rfl⟩ : _ ∧ left = rest := by simpa [pure, Except.pure] using heq
        exact (Passes.cons hletter _).trans (passes_of_someDigits hfound)

/-- **A number is passed.** -/
theorem passes_of_numeral {s rest : List Char} {n : Numeral} (h : numeral s = .ok (n, rest)) :
    Passes s rest := by
  rw [numeral.eq_def] at h
  split at h
  case h_1 negative t hsign =>
    have hbehind : Passes s t := by
      split at hsign
      · obtain ⟨-, rfl⟩ := Prod.mk.inj hsign
        exact .cons (by decide) _
      · obtain ⟨-, rfl⟩ := Prod.mk.inj hsign
        exact .refl _
    obtain ⟨⟨whole, t₁⟩, hwhole, h⟩ := bind_eq_ok_iff.1 h
    obtain ⟨⟨fraction, t₂⟩, hfraction, h⟩ := bind_eq_ok_iff.1 h
    obtain ⟨⟨exponent, t₃⟩, hexponent, h⟩ := bind_eq_ok_iff.1 h
    obtain ⟨-, rfl⟩ : _ ∧ t₃ = rest := by simpa [pure, Except.pure] using h
    exact ((hbehind.trans (passes_of_wholeDigits hwhole)).trans
      (passes_of_fractionDigits hfraction)).trans (passes_of_exponentDigits hexponent)

/-! ### Values -/

/-- A number is passed, kept or passed over. -/
theorem number_leaves (skipping : Bool) : Leaves [] (number skipping) := by
  intro s v rest h
  rw [number] at h
  split at h
  case h_2 => simp at h
  case h_1 n left hnumeral =>
    obtain rfl : left = rest := by
      split at h
      · exact (Prod.mk.inj (Except.ok.inj h)).2
      · obtain ⟨found, -, heq⟩ := map_eq_ok_iff.1 h
        exact (Prod.mk.inj heq).2
    exact passes_of_numeral hnumeral

/-- A string is passed, with its opening quote. -/
theorem passes_of_text {skipping : Bool} {s rest : List Char} {v : Json}
    (h : text skipping s = .ok (v, rest)) : Passes ('"' :: s) rest := by
  rw [text] at h
  split at h
  · obtain ⟨left, hleft, heq⟩ := map_eq_ok_iff.1 h
    obtain ⟨-, rfl⟩ := Prod.mk.inj heq
    exact passes_of_skipLiteral hleft
  · obtain ⟨⟨found, left⟩, hfound, heq⟩ := map_eq_ok_iff.1 h
    obtain ⟨-, rfl⟩ := Prod.mk.inj heq
    exact passes_of_stringLiteral hfound

/-- **A scalar is passed.** -/
theorem scalar_leaves (skipping : Bool) : Leaves [] (scalar skipping) := by
  have hword : ∀ {c : Char} {word s : List Char} {found v : Json} {rest : List Char},
      (c :: word).all (fun d => decide (d ∉ special)) = true →
      (expect word s).map (found, ·) = .ok (v, rest) → Passes (c :: s) rest := by
    intro c word s found v rest hplain h
    obtain ⟨left, hleft, heq⟩ := map_eq_ok_iff.1 h
    obtain ⟨-, rfl⟩ := Prod.mk.inj heq
    exact passes_of_expect hplain hleft
  intro s v rest h
  rw [scalar.eq_def] at h
  split at h
  case h_1 => simp at h
  case h_2 => exact hword (by decide) h
  case h_3 => exact hword (by decide) h
  case h_4 => exact hword (by decide) h
  case h_5 => exact passes_of_text h
  case h_6 =>
    split at h
    case isFalse => simp at h
    case isTrue => exact number_leaves skipping _ _ _ h

/-- Moving on to an item passes at most a comma; at the end of the array, the bracket is left. -/
theorem passes_of_nextItem {first more : Bool} {s rest : List Char}
    (h : nextItem first s = .ok (more, rest)) :
    Passes s (if more then rest else ']' :: rest) := by
  rw [nextItem] at h
  split at h
  case h_1 => simp at h
  case h_2 t heq =>
    obtain ⟨rfl, rfl⟩ := Prod.mk.inj (Except.ok.inj h)
    exact passes_of_skipSpace heq
  case h_3 c t _ heq =>
    split at h
    case isTrue =>
      obtain ⟨rfl, rfl⟩ := Prod.mk.inj (Except.ok.inj h)
      exact passes_of_skipSpace heq
    case isFalse =>
      split at h
      case isFalse => simp at h
      case isTrue hc =>
        split at h
        case h_1 => simp at h
        case h_2 => simp at h
        case h_3 =>
          obtain ⟨rfl, rfl⟩ := Prod.mk.inj (Except.ok.inj h)
          rw [hc] at heq
          exact (passes_of_skipSpace heq).trans
            ((Passes.cons (by decide) t).trans (passes_skipSpace t))

/-- A key is passed. -/
theorem passes_of_memberKey {skipping : Bool} {s rest : List Char} {key : String}
    (h : memberKey skipping s = .ok (key, rest)) : Passes s rest := by
  rw [memberKey.eq_def] at h
  split at h
  case h_1 => simp at h
  case h_3 => simp at h
  case h_2 t =>
    split at h
    · obtain ⟨found, hfound, heq⟩ := map_eq_ok_iff.1 h
      obtain ⟨-, rfl⟩ := Prod.mk.inj heq
      exact passes_of_skipLiteral hfound
    · exact passes_of_stringLiteral h

/-- At the end of an object, its brace is left. -/
theorem passes_of_nextMember_none {skipping first : Bool} {s rest : List Char}
    (h : nextMember skipping first s = .ok (none, rest)) : Passes s ('}' :: rest) := by
  rw [nextMember] at h
  split at h
  case h_1 => simp at h
  case h_2 t heq =>
    obtain ⟨-, rfl⟩ := Prod.mk.inj (Except.ok.inj h)
    exact passes_of_skipSpace heq
  case h_3 =>
    split at h
    · obtain ⟨found, -, heq⟩ := map_eq_ok_iff.1 h
      simp at heq
    · split at h
      · obtain ⟨found, -, heq⟩ := map_eq_ok_iff.1 h
        simp at heq
      · simp at h

/-- Before the key of the next member, at most a comma is passed. -/
theorem exists_memberKey_of_nextMember {skipping first : Bool} {s rest : List Char} {key : String}
    (h : nextMember skipping first s = .ok (some key, rest)) :
    ∃ t, Passes s t ∧ memberKey skipping t = .ok (key, rest) := by
  rw [nextMember] at h
  split at h
  case h_1 => simp at h
  case h_2 => simp at h
  case h_3 c t _ heq =>
    split at h
    · obtain ⟨⟨k, left⟩, hfound, hsame⟩ := map_eq_ok_iff.1 h
      obtain ⟨rfl, rfl⟩ : k = key ∧ left = rest := by simpa using hsame
      exact ⟨c :: t, passes_of_skipSpace heq, hfound⟩
    · split at h
      case isFalse => simp at h
      case isTrue hc =>
        obtain ⟨⟨k, left⟩, hfound, hsame⟩ := map_eq_ok_iff.1 h
        obtain ⟨rfl, rfl⟩ : k = key ∧ left = rest := by simpa using hsame
        rw [hc] at heq
        refine ⟨skipSpace t, ?_, hfound⟩
        exact (passes_of_skipSpace heq).trans
          ((Passes.cons (by decide) t).trans (passes_skipSpace t))

/-- Moving on to a member passes its key. -/
theorem passes_of_nextMember {skipping first : Bool} {s rest : List Char} {key : String}
    (h : nextMember skipping first s = .ok (some key, rest)) : Passes s rest := by
  obtain ⟨t, hpass, hkey⟩ := exists_memberKey_of_nextMember h
  exact hpass.trans (passes_of_memberKey hkey)

/-- A colon is passed. -/
theorem passes_of_behindColon {s rest : List Char} (h : behindColon s = .ok rest) :
    Passes s rest := by
  rw [behindColon] at h
  split at h
  case h_1 => simp at h
  case h_3 => simp at h
  case h_2 t heq =>
    obtain rfl := Except.ok.inj h
    exact (passes_of_skipSpace heq).trans (.cons (by decide) t)

section Step

variable {skipping : Bool} {steps : Nat}

/-- A value is passed, if the items of arrays and the members of objects are. -/
theorem value_leaves_succ
    (hitems : ∀ levels, Leaves [']'] (items skipping steps levels true))
    (hmembers : ∀ levels, Leaves ['}'] (members skipping steps levels true))
    (levels : Nat) : Leaves [] (value skipping (steps + 1) levels) := by
  intro s v rest h
  rw [value] at h
  split at h
  case h_1 t heq =>
    cases levels with
    | zero => simp at h
    | succ levels =>
      obtain ⟨⟨vs, left⟩, hvs, hsame⟩ := map_eq_ok_iff.1 h
      obtain ⟨-, rfl⟩ := Prod.mk.inj hsame
      exact (passes_of_skipSpace heq).trans (.array (hitems levels _ _ _ hvs))
  case h_2 t heq =>
    cases levels with
    | zero => simp at h
    | succ levels =>
      obtain ⟨⟨ms, left⟩, hms, hsame⟩ := map_eq_ok_iff.1 h
      obtain ⟨-, rfl⟩ := Prod.mk.inj hsame
      exact (passes_of_skipSpace heq).trans (.object (hmembers levels _ _ _ hms))
  case h_3 => exact (passes_skipSpace s).trans (scalar_leaves skipping _ _ _ h)

/-- Items are passed, if one value is, and the items after the first are. -/
theorem items_leaves_succ {levels : Nat} (hvalue : Leaves [] (value skipping steps levels))
    (hmore : Leaves [']'] (items skipping steps levels false)) (first : Bool) :
    Leaves [']'] (items skipping (steps + 1) levels first) := by
  intro s vs rest h
  rw [items] at h
  obtain ⟨⟨more, t⟩, hnext, h⟩ := bind_eq_ok_iff.1 h
  have hstep := passes_of_nextItem hnext
  cases more with
  | false =>
    obtain ⟨-, rfl⟩ := Prod.mk.inj (Except.ok.inj h)
    exact hstep
  | true =>
    obtain ⟨⟨v, u⟩, hv, h⟩ := bind_eq_ok_iff.1 h
    obtain ⟨⟨ws, left⟩, hws, h⟩ := bind_eq_ok_iff.1 h
    obtain ⟨-, rfl⟩ := Prod.mk.inj (Except.ok.inj h)
    exact (hstep.trans (hvalue _ _ _ hv)).trans (hmore _ _ _ hws)

/-- Members are passed, if values are. -/
theorem members_leaves_succ {levels : Nat} (hvalue : Leaves [] (value skipping steps levels))
    (hmore : Leaves ['}'] (members skipping steps levels false)) (first : Bool) :
    Leaves ['}'] (members skipping (steps + 1) levels first) := by
  intro s ms rest h
  rw [members] at h
  obtain ⟨⟨key, t⟩, hnext, h⟩ := bind_eq_ok_iff.1 h
  cases key with
  | none =>
    obtain ⟨-, rfl⟩ := Prod.mk.inj (Except.ok.inj h)
    exact passes_of_nextMember_none hnext
  | some key =>
    obtain ⟨u, hcolon, h⟩ := bind_eq_ok_iff.1 h
    obtain ⟨⟨v, w⟩, hv, h⟩ := bind_eq_ok_iff.1 h
    obtain ⟨⟨ns, left⟩, hns, h⟩ := bind_eq_ok_iff.1 h
    obtain ⟨-, rfl⟩ := Prod.mk.inj (Except.ok.inj h)
    have hkey := (passes_of_nextMember hnext).trans (passes_of_behindColon hcolon)
    exact (hkey.trans (hvalue _ _ _ hv)).trans (hmore _ _ _ hns)

end Step

/-- **What is read as a value is balanced**, whether it is kept or passed over.

**Proof sketch.** Induction on the steps, for values, for the items of an array and for the members
of an object together. -/
theorem value_leaves (skipping : Bool) (steps levels : Nat) :
    Leaves [] (value skipping steps levels) := by
  suffices hall : Leaves [] (value skipping steps levels) ∧
      (∀ first, Leaves [']'] (items skipping steps levels first)) ∧
      ∀ first, Leaves ['}'] (members skipping steps levels first) from hall.1
  induction steps generalizing levels with
  | zero =>
    refine ⟨?_, fun first => ?_, fun first => ?_⟩ <;> intro s a rest h <;>
      simp [value, items, members] at h
  | succ steps ih =>
    have hitems := fun levels => (ih levels).2.1 true
    have hmembers := fun levels => (ih levels).2.2 true
    obtain ⟨hvalue, hmore, hothers⟩ := ih levels
    exact ⟨value_leaves_succ hitems hmembers levels, items_leaves_succ hvalue (hmore false),
      members_leaves_succ hvalue (hothers false)⟩

/-! ### Fields -/

/-- A value that is passed over is passed. -/
theorem passes_of_skipValue {s rest : List Char} (h : skipValue s = .ok rest) : Passes s rest := by
  obtain ⟨⟨v, left⟩, hvalue, rfl⟩ := map_eq_ok_iff.1 h
  exact value_leaves _ _ _ _ _ _ hvalue

/-- A text is passed. -/
theorem readString_leaves (expected : String) : Leaves [] (readString expected) := by
  intro s t rest h
  rw [readString] at h
  split at h
  case h_2 => simp at h
  case h_1 u heq => exact (passes_of_skipSpace heq).trans (passes_of_stringLiteral h)

/-- The same where null may stand in place of the text. -/
theorem readOptionalString_leaves (expected : String) :
    Leaves [] (readOptionalString expected) := by
  intro s t rest h
  rw [readOptionalString] at h
  split at h
  case h_1 u heq =>
    obtain ⟨left, hleft, hsame⟩ := map_eq_ok_iff.1 h
    obtain ⟨-, rfl⟩ := Prod.mk.inj hsame
    exact (passes_of_skipSpace heq).trans (passes_of_expect (by decide) hleft)
  case h_2 =>
    obtain ⟨⟨found, left⟩, hfound, hsame⟩ := map_eq_ok_iff.1 h
    obtain ⟨-, rfl⟩ := Prod.mk.inj hsame
    exact (passes_skipSpace s).trans (readString_leaves expected _ _ _ hfound)

/-- At the end of an array, its bracket is left. -/
theorem passes_of_endItems {s rest : List Char} (h : endItems s = .ok rest) :
    Passes s (']' :: rest) := by
  rw [endItems] at h
  split at h
  case h_1 => simp at h
  case h_3 => simp at h
  case h_2 t heq =>
    obtain rfl := Except.ok.inj h
    exact passes_of_skipSpace heq

/-- **What is read as an object with known fields is balanced**, if what is read as a field is. -/
theorem readFields_leaves {σ : Type} {field : FieldReader σ}
    (hfield : ∀ key found read, field key found = .ok read → Leaves [] read) (steps : Nat)
    (first : Bool) (found : σ) : Leaves ['}'] (readFields field steps first found) := by
  induction steps generalizing first found with
  | zero =>
    intro s found' rest h
    simp [readFields] at h
  | succ steps ih =>
    intro s found' rest h
    rw [readFields] at h
    obtain ⟨⟨key, t⟩, hnext, h⟩ := bind_eq_ok_iff.1 h
    cases key with
    | none =>
      obtain ⟨-, rfl⟩ := Prod.mk.inj (Except.ok.inj h)
      exact passes_of_nextMember_none hnext
    | some key =>
      obtain ⟨read, hread, h⟩ := bind_eq_ok_iff.1 h
      obtain ⟨u, hcolon, h⟩ := bind_eq_ok_iff.1 h
      obtain ⟨⟨middle, w⟩, hone, h⟩ := bind_eq_ok_iff.1 h
      have hkey := (passes_of_nextMember hnext).trans (passes_of_behindColon hcolon)
      exact (hkey.trans (hfield key found read hread _ _ _ hone)).trans (ih _ _ _ _ _ h)

/-- Behind a document there is nothing but blanks. -/
theorem skipSpace_of_finish {α : Type} {a b : α} {rest : List Char}
    (h : finish (.ok (a, rest)) = .ok b) : skipSpace rest = [] := by
  rw [finish] at h
  split at h
  case isFalse => simp at h
  case isTrue hblank => exact List.isEmpty_iff.1 hblank

/-- **A document is balanced**, if what is read in it is. -/
theorem balanced_of_finish {α : Type} {read : List Char → Except Fault (α × List Char)}
    (hread : Leaves [] read) {s : List Char} {a : α} (h : finish (read s) = .ok a) :
    Balanced s := by
  obtain ⟨rest, hs⟩ := eq_ok_of_finish h
  rw [hs] at h
  have hblank := passes_of_skipSpace (skipSpace_of_finish h)
  obtain ⟨x, hx, hbalanced⟩ := (hread s a rest hs).trans hblank
  rwa [hx, List.append_nil]

/-- **What is read as a record is balanced**, if what is read in its two forms is. -/
theorem readRecord_leaves {α : Type} {expectation : String}
    {ofArray ofObject : Nat → List Char → Except Fault (α × List Char)}
    (harray : ∀ levels, Leaves [']'] (ofArray levels))
    (hobject : ∀ levels, Leaves ['}'] (ofObject levels)) (levels : Nat) :
    Leaves [] (readRecord expectation ofArray ofObject levels) := by
  intro s a rest h
  rw [readRecord.eq_def] at h
  split at h
  case h_4 t levels heq =>
    exact (passes_of_skipSpace heq).trans (.array (harray _ _ _ _ h))
  case h_5 t levels heq =>
    exact (passes_of_skipSpace heq).trans (.object (hobject _ _ _ _ h))
  all_goals simp at h

end PaneLayout.Json
