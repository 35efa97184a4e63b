import Mathlib.Data.List.Infix
import PaneLayout.Proofs.Json.Balance
import PaneLayout.Proofs.Json.Tokens

set_option autoImplicit false

/-!
# What a cut leaves of a text

A text is scanned from left to right by a cursor that knows whether it is inside a literal and how
many brackets are open. Cut in front of its end, an object has a bracket open. Cut at its beginning,
inside a literal, a printed text looks inside out: what was a literal is outside, and what the
reader takes for literals are the punctuation marks between them.

## Main definitions

* `PaneLayout.Json.Spot`, `PaneLayout.Json.Cursor` — where a scan stands.
* `PaneLayout.Json.Printed` — texts in which nothing but punctuation marks is outside literals.

## Main results

* `PaneLayout.Json.not_balanced_of_prefix` — a beginning of an object is not balanced.
* `PaneLayout.Json.printed_spell` — what regular tokens spell is a printed text.
* `PaneLayout.Json.readFields_of_printed` — inside out, a printed text has no known fields.
-/

namespace PaneLayout.Json

/-! ### Cursors -/

/-- **Spots**: outside literals, inside one, or inside one and right behind a backslash. -/
inductive Spot where
  | outside
  | inside
  | escaped
  deriving DecidableEq, Repr

/-- The spot behind a character. -/
def Spot.next : Spot → Char → Spot
  | .outside, c => if c = '"' then .inside else .outside
  | .inside, c => if c = '"' then .outside else if c = '\\' then .escaped else .inside
  | .escaped, _ => .inside

/-- **Cursors**: a spot and the number of brackets that are open there. -/
structure Cursor where
  spot : Spot
  depth : Nat
  deriving DecidableEq, Repr

namespace Cursor

/-- The cursor behind a character. Brackets in literals do not count. -/
def next (p : Cursor) (c : Char) : Cursor where
  spot := p.spot.next c
  depth :=
    if p.spot ≠ .outside then p.depth
    else if c = '[' ∨ c = '{' then p.depth + 1
    else if c = ']' ∨ c = '}' then p.depth - 1
    else p.depth

/-- The cursor behind a text. -/
def after (p : Cursor) (s : List Char) : Cursor := s.foldl next p

@[simp] theorem after_nil (p : Cursor) : p.after [] = p := rfl

@[simp] theorem after_cons (p : Cursor) (c : Char) (s : List Char) :
    p.after (c :: s) = (p.next c).after s := rfl

@[simp] theorem after_append (p : Cursor) (s t : List Char) :
    p.after (s ++ t) = (p.after s).after t := List.foldl_append

/-- A character that is not special does not move the cursor. -/
theorem next_of_notMem {c : Char} (hc : c ∉ special) (depth : Nat) :
    (⟨.outside, depth⟩ : Cursor).next c = ⟨.outside, depth⟩ := by
  simp only [special, List.mem_cons, List.not_mem_nil, not_or] at hc
  obtain ⟨hquote, -, hopen, hclose, hopen', hclose', -⟩ := hc
  simp [next, Spot.next, hquote, hopen, hclose, hopen', hclose']

/-- Inside a literal, neither do the characters that it is made of. -/
theorem next_inside {c : Char} (hquote : c ≠ '"') (hbackslash : c ≠ '\\') (depth : Nat) :
    (⟨.inside, depth⟩ : Cursor).next c = ⟨.inside, depth⟩ := by
  simp [next, Spot.next, hquote, hbackslash]

end Cursor

variable {s t u x raw : List Char}

/-- A raw literal is passed without leaving the literal. -/
theorem Raw.after (h : Raw raw) (depth : Nat) :
    (⟨.inside, depth⟩ : Cursor).after raw = ⟨.inside, depth⟩ := by
  induction h with
  | nil => rfl
  | char hquote hbackslash _ ih => rw [Cursor.after_cons, Cursor.next_inside hquote hbackslash, ih]
  | escape e _ ih => exact ih

/-- Everywhere in a raw literal as many brackets are open as before it. -/
theorem Raw.depth_of_prefix (h : Raw raw) (hu : u <+: raw) (depth : Nat) :
    ((⟨.inside, depth⟩ : Cursor).after u).depth = depth := by
  induction h generalizing u with
  | nil => rw [List.prefix_nil.1 hu, Cursor.after_nil]
  | char hquote hbackslash _ ih =>
    rcases List.prefix_cons_iff.1 hu with rfl | ⟨v, rfl, hv⟩
    · rfl
    · rw [Cursor.after_cons, Cursor.next_inside hquote hbackslash, ih hv]
  | escape e _ ih =>
    rcases List.prefix_cons_iff.1 hu with rfl | ⟨v, rfl, hv⟩
    · rfl
    rcases List.prefix_cons_iff.1 hv with rfl | ⟨w, rfl, hw⟩
    · rfl
    · have hdepth := ih hw
      exact hdepth

/-- Behind a balanced text the cursor stands as before it. -/
theorem Balanced.after (h : Balanced s) (depth : Nat) :
    (⟨.outside, depth⟩ : Cursor).after s = ⟨.outside, depth⟩ := by
  induction h generalizing depth with
  | nil => rfl
  | plain hc => exact Cursor.next_of_notMem hc depth
  | @literal raw hraw =>
    have hinside : (⟨.outside, depth⟩ : Cursor).next '"' = ⟨.inside, depth⟩ := rfl
    rw [Cursor.after_cons, hinside, Cursor.after_append, hraw.after]
    rfl
  | @array s _ ih =>
    have hopen : (⟨.outside, depth⟩ : Cursor).next '[' = ⟨.outside, depth + 1⟩ := rfl
    rw [Cursor.after_cons, hopen, Cursor.after_append, ih]
    rfl
  | @object s _ ih =>
    have hopen : (⟨.outside, depth⟩ : Cursor).next '{' = ⟨.outside, depth + 1⟩ := rfl
    rw [Cursor.after_cons, hopen, Cursor.after_append, ih]
    rfl
  | append _ _ ihs iht => rw [Cursor.after_append, ihs, iht]

/-- **Inside a balanced text** no bracket is closed that was open before it. -/
theorem Balanced.le_depth_of_prefix (h : Balanced s) (hu : u <+: s) (depth : Nat) :
    depth ≤ ((⟨.outside, depth⟩ : Cursor).after u).depth := by
  induction h generalizing u depth with
  | nil => rw [List.prefix_nil.1 hu, Cursor.after_nil]
  | @plain c hc =>
    rcases List.prefix_cons_iff.1 hu with rfl | ⟨v, rfl, hv⟩
    · exact Nat.le_refl depth
    · rw [List.prefix_nil.1 hv, (Balanced.plain hc).after]
  | @literal raw hraw =>
    rcases List.prefix_cons_iff.1 hu with rfl | ⟨v, rfl, hv⟩
    · exact Nat.le_refl depth
    have hinside : (⟨.outside, depth⟩ : Cursor).next '"' = ⟨.inside, depth⟩ := rfl
    rcases List.prefix_concat_iff.1 hv with rfl | hv
    · rw [(Balanced.literal hraw).after]
    · rw [Cursor.after_cons, hinside, hraw.depth_of_prefix hv]
  | @array s hs ih =>
    rcases List.prefix_cons_iff.1 hu with rfl | ⟨v, rfl, hv⟩
    · exact Nat.le_refl depth
    rcases List.prefix_concat_iff.1 hv with rfl | hv
    · rw [(Balanced.array hs).after]
    · exact Nat.le_of_succ_le (ih hv (depth + 1))
  | @object s hs ih =>
    rcases List.prefix_cons_iff.1 hu with rfl | ⟨v, rfl, hv⟩
    · exact Nat.le_refl depth
    rcases List.prefix_concat_iff.1 hv with rfl | hv
    · rw [(Balanced.object hs).after]
    · exact Nat.le_of_succ_le (ih hv (depth + 1))
  | @append s t hs _ ihs iht =>
    obtain ⟨v, hv⟩ := hu
    rcases List.append_eq_append_iff.1 hv with ⟨w, rfl, -⟩ | ⟨w, rfl, rfl⟩
    · exact ihs (List.prefix_append u w) depth
    · rw [Cursor.after_append, hs.after]
      exact iht (List.prefix_append w v) depth

/-- **A beginning of an object is not balanced**: the brace at its beginning is open. -/
theorem not_balanced_of_prefix (hs : Balanced s) (hu : u <+: '{' :: (s ++ ['}'])) (hne : u ≠ [])
    (hproper : u ≠ '{' :: (s ++ ['}'])) : ¬ Balanced u := by
  intro hbalanced
  rcases List.prefix_cons_iff.1 hu with rfl | ⟨v, rfl, hv⟩
  · exact hne rfl
  rcases List.prefix_concat_iff.1 hv with rfl | hv
  · exact hproper rfl
  have hopen : 1 ≤ ((⟨.outside, 0⟩ : Cursor).after ('{' :: v)).depth := hs.le_depth_of_prefix hv 1
  rw [hbalanced.after] at hopen
  exact absurd hopen (by decide)

/-! ### Printed texts -/

/-- **Printed texts.** Read from the given spot on, nothing but quotes and punctuation marks stands
outside literals. -/
def Printed : Spot → List Char → Prop
  | _, [] => True
  | spot, c :: s => (spot = .outside → c = '"' ∨ c ∈ Token.punctuation) ∧ Printed (spot.next c) s

namespace Printed

variable {spot : Spot}

/-- The beginning of a printed text is a printed text. -/
theorem of_append (h : Printed spot (s ++ t)) : Printed spot s := by
  induction s generalizing spot with
  | nil => trivial
  | cons c s ih => exact ⟨h.1, ih h.2⟩

/-- So is its end, from some spot on. -/
theorem drop_append (h : Printed spot (s ++ t)) : ∃ spot', Printed spot' t := by
  induction s generalizing spot with
  | nil => exact ⟨spot, h⟩
  | cons c s ih => exact ih h.2

end Printed

/-- From inside a literal, a raw literal makes no difference. -/
theorem Raw.printed_append_iff (h : Raw raw) :
    Printed .inside (raw ++ s) ↔ Printed .inside s := by
  induction h with
  | nil => rfl
  | @char c raw hquote hbackslash _ ih =>
    have hnext : Spot.inside.next c = .inside := by simp [Spot.next, hquote, hbackslash]
    rw [List.cons_append, Printed, hnext, ih]
    simp
  | escape e _ ih =>
    refine Iff.trans ⟨fun h => h.2.2, fun h => ?_⟩ ih
    exact ⟨fun hspot => by simp at hspot, fun hspot => by simp [Spot.next] at hspot, h⟩

/-- **What regular tokens spell** is a printed text. -/
theorem printed_spell {ts : List Token} (h : ∀ t ∈ ts, t.Regular) :
    Printed .outside (spell ts) := by
  induction ts with
  | nil => trivial
  | cons t ts ih =>
    have hrest := ih fun t' ht' => h t' (List.mem_cons_of_mem t ht')
    have ht := h t List.mem_cons_self
    rw [spell_cons]
    cases t with
    | mark c =>
      have hquote : c ≠ '"' := by
        rintro rfl
        exact absurd ht (show '"' ∉ Token.punctuation by decide)
      have hnext : Spot.outside.next c = .outside := by simp [Spot.next, hquote]
      rw [← hnext] at hrest
      exact ⟨fun _ => .inr ht, hrest⟩
    | word w => exact ht.elim
    | literal text =>
      have hclose : Printed .inside ('"' :: spell ts) := ⟨fun hspot => by simp at hspot, hrest⟩
      have hsplit : Token.chars (.literal text) ++ spell ts =
          '"' :: (text.toList.flatMap escape ++ '"' :: spell ts) := by
        simp [Token.chars, quote]
      rw [hsplit]
      exact ⟨fun _ => .inl rfl, (raw_flatMap_escape text.toList).printed_append_iff.2 hclose⟩

/-! ### Inside out -/

/-- **Inside out, literals are punctuation.** What a reader takes for a literal, outside the
literals of a printed text, has nothing but punctuation marks in it. -/
theorem Raw.punctuation (h : Raw raw) (hprinted : Printed .outside (raw ++ '"' :: s)) :
    (∀ c ∈ raw, c ∈ Token.punctuation) ∧ Printed .inside s := by
  induction h with
  | nil => exact ⟨fun c hc => by simp at hc, hprinted.2⟩
  | @char c raw hquote hbackslash _ ih =>
    obtain ⟨hallowed, hbehind⟩ := hprinted
    have hnext : Spot.outside.next c = .outside := by simp [Spot.next, hquote]
    rw [hnext] at hbehind
    obtain ⟨hraw, hs⟩ := ih hbehind
    have hc := (hallowed rfl).resolve_left hquote
    exact ⟨List.forall_mem_cons.2 ⟨hc, hraw⟩, hs⟩
  | escape e _ ih => exact absurd (hprinted.1 rfl) (by decide)

/-- **Inside out, a balanced text leads from the inside of a literal to the inside of another.** -/
theorem Balanced.printed (h : Balanced x) (hprinted : Printed .inside (x ++ s)) :
    Printed .inside s := by
  induction h generalizing s with
  | nil => exact hprinted
  | @plain c hc =>
    simp only [special, List.mem_cons, List.not_mem_nil, not_or] at hc
    have hnext : Spot.inside.next c = .inside := by simp [Spot.next, hc.1, hc.2.1]
    exact hnext ▸ hprinted.2
  | @literal raw hraw =>
    rw [List.cons_append, List.append_assoc] at hprinted
    exact (hraw.punctuation hprinted.2).2
  | array _ ih =>
    rw [List.cons_append, List.append_assoc] at hprinted
    exact (ih hprinted.2).2
  | object _ ih =>
    rw [List.cons_append, List.append_assoc] at hprinted
    exact (ih hprinted.2).2
  | append _ _ ihx ihy =>
    rw [List.append_assoc] at hprinted
    exact ihy (ihx hprinted)

/-- The same of what is passed. -/
theorem Passes.printed (h : Passes s t) (hprinted : Printed .inside s) : Printed .inside t := by
  obtain ⟨x, rfl, hx⟩ := h
  exact hx.printed hprinted

/-- Inside out, the key of a member has nothing but punctuation marks in it. -/
theorem punctuation_of_nextMember {first : Bool} {rest : List Char} {key : String}
    (h : nextMember false first s = .ok (some key, rest)) (hprinted : Printed .inside s) :
    ∀ c ∈ key.toList, c ∈ Token.punctuation := by
  obtain ⟨t, hpass, hkey⟩ := exists_memberKey_of_nextMember h
  have ht := hpass.printed hprinted
  rw [memberKey.eq_def] at hkey
  split at hkey
  case h_1 => simp at hkey
  case h_3 => simp at hkey
  case h_2 left =>
    obtain ⟨raw, rfl, hraw, hplain⟩ := exists_raw_of_stringLiteral hkey
    have hmarks := (hraw.punctuation ht.2).1
    rwa [hplain fun hin => absurd (hmarks _ hin) (by decide)]

/-- **Inside out, a printed text has no known fields.** If members whose keys have nothing but
punctuation marks in them are passed over, nothing is found. -/
theorem readFields_of_printed {σ : Type} {field : FieldReader σ}
    (hfield : ∀ key found, (∀ c ∈ key.toList, c ∈ Token.punctuation) →
      field key found = .ok fun s => (skipValue s).map (found, ·))
    {steps : Nat} {first : Bool} {found found' : σ} {rest : List Char}
    (hprinted : Printed .inside s)
    (h : readFields field steps first found s = .ok (found', rest)) : found' = found := by
  induction steps generalizing first s with
  | zero => simp [readFields] at h
  | succ steps ih =>
    rw [readFields] at h
    obtain ⟨⟨key, t⟩, hnext, h⟩ := bind_eq_ok_iff.1 h
    cases key with
    | none => exact (Prod.mk.inj (Except.ok.inj h)).1.symm
    | some key =>
      have hmarks := punctuation_of_nextMember hnext hprinted
      obtain ⟨read, hread, h⟩ := bind_eq_ok_iff.1 h
      obtain rfl := Except.ok.inj ((hfield key found hmarks).symm.trans hread)
      obtain ⟨u, hcolon, h⟩ := bind_eq_ok_iff.1 h
      obtain ⟨⟨middle, w⟩, hone, h⟩ := bind_eq_ok_iff.1 h
      obtain ⟨left, hskip, hsame⟩ := map_eq_ok_iff.1 hone
      obtain ⟨rfl, rfl⟩ := Prod.mk.inj hsame
      have hpass := ((passes_of_nextMember hnext).trans (passes_of_behindColon hcolon)).trans
        (passes_of_skipValue hskip)
      exact ih (hpass.printed hprinted) h

end PaneLayout.Json
