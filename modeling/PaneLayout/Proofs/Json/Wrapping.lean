import PaneLayout.Proofs.Json.Lookahead
import PaneLayout.Proofs.Json.Steps

set_option autoImplicit false

/-!
# Taking line breaks out of a text

The blanks of JSON other than the space stand only between tokens. If some of them are dropped from
a text that can be read, all tokens stay what they are, and none of them runs into the next one:
what follows a value begins, behind blanks, with a character that cannot go on with it. So the text
is read as before, whatever is in it, also where values are passed over.

## Main definitions

* `PaneLayout.Json.DropsBreaks` — what is kept of a text from which only such blanks are dropped.
* `PaneLayout.Json.Settled` — what may follow a value, with blanks before it.
* `PaneLayout.Json.Unwraps` — a reader that gives the same when blanks are dropped.

## Main results

* `PaneLayout.Json.value_unwraps` — values are read as before, kept or passed over.
* `PaneLayout.Json.ofFields_unwraps`, `PaneLayout.Json.readRecord_unwraps` — the same of objects
  with known fields and of records.
-/

namespace PaneLayout.Json

/-- **Dropping breaks**: all characters that are not kept are blanks, and none of them a space. -/
def DropsBreaks (kept : Char → Bool) : Prop := ∀ c, kept c = false → isSpace c = true ∧ c ≠ ' '

/-- **Settled texts** may follow a value, when the blanks at their start are skipped. -/
def Settled (rest : List Char) : Prop := Follows (skipSpace rest)

/-- **Unwrapping.** What the reader gives, it also gives if some blanks are dropped, provided that
what follows may follow a value. -/
def Unwraps {α : Type} (kept : Char → Bool) (read : List Char → Except Fault (α × List Char)) :
    Prop :=
  ∀ s a rest, read s = .ok (a, rest) → Settled rest →
    read (s.filter kept) = .ok (a, rest.filter kept)

/-- No blank is left at the start when blanks are skipped. -/
theorem isSpace_of_skipSpace {s t : List Char} {c : Char} (h : skipSpace s = c :: t) :
    isSpace c = false := by
  have hhead := List.head?_dropWhile_not isSpace s
  rw [skipSpace] at h
  rw [h] at hhead
  exact hhead

/-- What may follow a value does not go on with a number. -/
theorem Settled.ends {rest : List Char} (h : Settled rest) : Ends rest := by
  intro c hc
  cases rest with
  | nil => simp at hc
  | cons d t =>
    obtain rfl : d = c := by simpa using hc
    by_cases hspace : isSpace d = true
    · rcases eq_of_isSpace hspace with rfl | rfl | rfl | rfl <;> decide
    · rw [Settled, skipSpace_cons (by simpa using hspace)] at h
      rcases h d rfl with rfl | rfl | rfl <;> decide

/-- A text is settled if, behind blanks, it begins with a comma or ends an array or an object. -/
theorem settled_of_skipSpace {s t : List Char} {c : Char} (h : skipSpace s = c :: t)
    (hc : c = ',' ∨ c = ']' ∨ c = '}') : Settled s := by
  rw [Settled, h]
  exact follows_cons hc t

/-- Where an array moves on behind an item, the text is settled. -/
theorem settled_of_nextItem {s : List Char} {next : Bool × List Char}
    (h : nextItem false s = .ok next) : Settled s := by
  rw [nextItem] at h
  split at h
  case h_1 => simp at h
  case h_2 heq => exact settled_of_skipSpace heq (by decide)
  case h_3 heq =>
    rw [if_neg (by decide)] at h
    split at h
    case isFalse => simp at h
    case isTrue hc => exact settled_of_skipSpace heq (.inl hc)

/-- Where an array ends, the text is settled. -/
theorem settled_of_endItems {s rest : List Char} (h : endItems s = .ok rest) : Settled s := by
  rw [endItems] at h
  split at h
  case h_1 => simp at h
  case h_2 heq => exact settled_of_skipSpace heq (by decide)
  case h_3 => simp at h

/-- Where an object moves on behind a member, the text is settled. -/
theorem settled_of_nextMember {skipping : Bool} {s : List Char} {next : Option String × List Char}
    (h : nextMember skipping false s = .ok next) : Settled s := by
  rw [nextMember] at h
  split at h
  case h_1 => simp at h
  case h_2 heq => exact settled_of_skipSpace heq (by decide)
  case h_3 heq =>
    rw [if_neg (by decide)] at h
    split at h
    case isFalse => simp at h
    case isTrue hc => exact settled_of_skipSpace heq (.inl hc)

/-- Where the items of an array go on, the text is settled. -/
theorem settled_of_items {skipping : Bool} {steps levels : Nat} {s : List Char}
    {found : List Json × List Char} (h : items skipping steps levels false s = .ok found) :
    Settled s := by
  cases steps with
  | zero => simp [items] at h
  | succ steps =>
    rw [items] at h
    obtain ⟨next, hnext, -⟩ := bind_eq_ok_iff.1 h
    exact settled_of_nextItem hnext

/-- Where the members of an object go on, the text is settled. -/
theorem settled_of_members {skipping : Bool} {steps levels : Nat} {s : List Char}
    {found : List (String × Json) × List Char}
    (h : members skipping steps levels false s = .ok found) : Settled s := by
  cases steps with
  | zero => simp [members] at h
  | succ steps =>
    rw [members] at h
    obtain ⟨next, hnext, -⟩ := bind_eq_ok_iff.1 h
    exact settled_of_nextMember hnext

/-- Where the fields of an object go on, the text is settled. -/
theorem settled_of_readFields {σ : Type} {field : FieldReader σ} {steps : Nat} {found : σ}
    {s : List Char} {result : σ × List Char}
    (h : readFields field steps false found s = .ok result) : Settled s := by
  cases steps with
  | zero => simp [readFields] at h
  | succ steps =>
    rw [readFields] at h
    obtain ⟨next, hnext, -⟩ := bind_eq_ok_iff.1 h
    exact settled_of_nextMember hnext

/-- What is made of a result does not matter. -/
theorem Unwraps.map {α β : Type} {kept : Char → Bool}
    {read : List Char → Except Fault (α × List Char)} (h : Unwraps kept read) (f : α → β) :
    Unwraps kept fun s => (read s).map fun (a, rest) => (f a, rest) := by
  intro s b rest hread hrest
  obtain ⟨⟨a, left⟩, hfound, hsame⟩ := map_eq_ok_iff.1 hread
  obtain ⟨rfl, rfl⟩ := Prod.mk.inj hsame
  exact map_eq_ok_iff.2 ⟨_, h s a left hfound hrest, rfl⟩

section Kept

variable {kept : Char → Bool} (hkept : DropsBreaks kept)
include hkept

/-! ### Blanks and tokens -/

/-- What is no blank is kept. -/
theorem DropsBreaks.filter_cons {c : Char} (hc : isSpace c = false) (s : List Char) :
    (c :: s).filter kept = c :: s.filter kept := by
  refine List.filter_cons_of_pos ?_
  by_contra hdropped
  rw [(hkept c (by simpa using hdropped)).1] at hc
  contradiction

/-- Nothing is dropped from an unbroken text. -/
theorem DropsBreaks.filter_append {x : List Char} (hx : Unbroken x) (s : List Char) :
    (x ++ s).filter kept = x ++ s.filter kept := by
  rw [List.filter_append, List.filter_eq_self.2]
  intro c hc
  by_contra hdropped
  obtain ⟨hspace, hne⟩ := hkept c (by simpa using hdropped)
  exact hne (hx c hc hspace)

/-- Blanks may be dropped before or after the ones at the start are skipped. -/
theorem DropsBreaks.skipSpace_filter (s : List Char) :
    skipSpace (s.filter kept) = (skipSpace s).filter kept := by
  induction s with
  | nil => rfl
  | cons c s ih =>
    by_cases hc : isSpace c = true
    · have hskip : skipSpace (c :: s) = skipSpace s := List.dropWhile_cons_of_pos hc
      rw [hskip, ← ih, List.filter_cons]
      split
      · exact List.dropWhile_cons_of_pos hc
      · rfl
    · have hsolid : isSpace c = false := by simpa using hc
      rw [hkept.filter_cons hsolid, skipSpace_cons hsolid, skipSpace_cons hsolid,
        hkept.filter_cons hsolid]

/-- What stands behind the blanks at the start still stands there. -/
theorem DropsBreaks.skipSpace_eq {s t : List Char} {c : Char} (h : skipSpace s = c :: t) :
    skipSpace (s.filter kept) = c :: t.filter kept := by
  rw [hkept.skipSpace_filter, h, hkept.filter_cons (isSpace_of_skipSpace h)]

/-- A settled text remains settled. -/
theorem Settled.filter {rest : List Char} (h : Settled rest) : Settled (rest.filter kept) := by
  rw [Settled, hkept.skipSpace_filter]
  cases hrest : skipSpace rest with
  | nil => exact nofun
  | cons c t =>
    rw [Settled, hrest] at h
    rw [hkept.filter_cons (isSpace_of_skipSpace hrest)]
    exact follows_cons (h c rfl) _

/-- **Tokens are read as before**, since what follows does not go on with them. -/
theorem Scans.unwraps {α : Type} {read : List Char → Except Fault (α × List Char)}
    (h : Scans read) : Unwraps kept read := by
  intro s a rest hread hrest
  obtain ⟨x, rfl, hx, hsame⟩ := h s a rest hread
  rw [hkept.filter_append hx]
  exact hsame _ (hrest.filter hkept).ends

/-- Words are read as before. -/
theorem expect_filter {word s rest : List Char} (hword : ∀ c ∈ word, isSpace c = false)
    (h : expect word s = .ok rest) : expect word (s.filter kept) = .ok (rest.filter kept) := by
  rw [eq_append_of_expect h, hkept.filter_append (.of_forall hword), expect_append]

/-- Literals are read as before. -/
theorem stringLiteral_filter {s rest : List Char} {text : String}
    (h : stringLiteral s = .ok (text, rest)) :
    stringLiteral (s.filter kept) = .ok (text, rest.filter kept) := by
  obtain ⟨x, rfl, hx, hsame⟩ := exists_of_stringLiteral h
  rw [hkept.filter_append hx, hsame]

/-- So are literals that are passed over. -/
theorem skipLiteral_filter {s rest : List Char} (h : skipLiteral s = .ok rest) :
    skipLiteral (s.filter kept) = .ok (rest.filter kept) := by
  obtain ⟨x, rfl, hx, hsame⟩ := exists_of_skipLiteral h
  rw [hkept.filter_append hx, hsame]

/-! ### Moving on -/

/-- An array moves on as before. -/
theorem nextItem_filter {first more : Bool} {s rest : List Char}
    (h : nextItem first s = .ok (more, rest)) :
    nextItem first (s.filter kept) = .ok (more, rest.filter kept) := by
  rw [nextItem] at h
  split at h
  case h_1 => simp at h
  case h_2 t heq =>
    obtain ⟨rfl, rfl⟩ := Prod.mk.inj (Except.ok.inj h)
    simp [nextItem, hkept.skipSpace_eq heq]
  case h_3 c t hc heq =>
    have hskip := hkept.skipSpace_eq heq
    cases first with
    | true =>
      obtain ⟨rfl, rfl⟩ := Prod.mk.inj (Except.ok.inj h)
      simp [nextItem, hskip, hkept.filter_cons (isSpace_of_skipSpace heq)]
    | false =>
      rw [if_neg (by decide)] at h
      split at h
      case isFalse => simp at h
      case isTrue hcomma =>
        obtain rfl := hcomma
        split at h
        case h_1 => simp at h
        case h_2 => simp at h
        case h_3 hnil hend =>
          obtain ⟨rfl, rfl⟩ := Prod.mk.inj (Except.ok.inj h)
          cases hitem : skipSpace t with
          | nil => exact absurd hitem hnil
          | cons d u =>
            have hd : d ≠ ']' := fun hd => hend u (by rw [hitem, hd])
            rw [hkept.filter_cons (isSpace_of_skipSpace hitem)]
            simp [nextItem, hskip, hkept.skipSpace_eq hitem, hd]

/-- A key is read as before. -/
theorem memberKey_filter {skipping : Bool} {s rest : List Char} {key : String}
    (h : memberKey skipping s = .ok (key, rest)) :
    memberKey skipping (s.filter kept) = .ok (key, rest.filter kept) := by
  rw [memberKey.eq_def] at h
  split at h
  case h_1 => simp at h
  case h_3 => simp at h
  case h_2 t =>
    rw [hkept.filter_cons rfl, memberKey]
    split at h
    case isTrue hskipping =>
      obtain ⟨left, hleft, heq⟩ := map_eq_ok_iff.1 h
      obtain ⟨rfl, rfl⟩ := Prod.mk.inj heq
      rw [if_pos hskipping, skipLiteral_filter hkept hleft]
      rfl
    case isFalse hskipping => rw [if_neg hskipping, stringLiteral_filter hkept h]

/-- An object moves on as before. -/
theorem nextMember_filter {skipping first : Bool} {s rest : List Char} {key : Option String}
    (h : nextMember skipping first s = .ok (key, rest)) :
    nextMember skipping first (s.filter kept) = .ok (key, rest.filter kept) := by
  rw [nextMember] at h
  split at h
  case h_1 => simp at h
  case h_2 t heq =>
    obtain ⟨rfl, rfl⟩ := Prod.mk.inj (Except.ok.inj h)
    simp [nextMember, hkept.skipSpace_eq heq]
  case h_3 c t hc heq =>
    have hskip := hkept.skipSpace_eq heq
    cases first with
    | true =>
      obtain ⟨⟨k, left⟩, hfound, hsame⟩ := map_eq_ok_iff.1 h
      obtain ⟨rfl, rfl⟩ := Prod.mk.inj hsame
      have hkey := memberKey_filter hkept hfound
      rw [hkept.filter_cons (isSpace_of_skipSpace heq)] at hkey
      simp [nextMember, hskip, hkey, Except.map]
    | false =>
      rw [if_neg (by decide)] at h
      split at h
      case isFalse => simp at h
      case isTrue hcomma =>
        obtain rfl := hcomma
        obtain ⟨⟨k, left⟩, hfound, hsame⟩ := map_eq_ok_iff.1 h
        obtain ⟨rfl, rfl⟩ := Prod.mk.inj hsame
        have hkey := memberKey_filter hkept hfound
        rw [← hkept.skipSpace_filter] at hkey
        simp [nextMember, hskip, hkey, Except.map]

/-- The colon is found as before. -/
theorem behindColon_filter {s rest : List Char} (h : behindColon s = .ok rest) :
    behindColon (s.filter kept) = .ok (rest.filter kept) := by
  rw [behindColon] at h
  split at h
  case h_1 => simp at h
  case h_3 => simp at h
  case h_2 t heq =>
    obtain rfl := Except.ok.inj h
    simp [behindColon, hkept.skipSpace_eq heq]

/-- The end of an array is found as before. -/
theorem endItems_filter {s rest : List Char} (h : endItems s = .ok rest) :
    endItems (s.filter kept) = .ok (rest.filter kept) := by
  rw [endItems] at h
  split at h
  case h_1 => simp at h
  case h_3 => simp at h
  case h_2 t heq =>
    obtain rfl := Except.ok.inj h
    simp [endItems, hkept.skipSpace_eq heq]

/-! ### Values -/

section Step

variable {skipping : Bool} {steps : Nat}

/-- A value is read as before, if the items of arrays and the members of objects are. -/
theorem value_unwraps_succ
    (hitems : ∀ levels, Unwraps kept (items skipping steps levels true))
    (hmembers : ∀ levels, Unwraps kept (members skipping steps levels true))
    (levels : Nat) : Unwraps kept (value skipping (steps + 1) levels) := by
  intro s v rest h hrest
  rw [value] at h
  split at h
  case h_1 t heq =>
    rw [value, hkept.skipSpace_eq heq]
    cases levels with
    | zero => simp at h
    | succ levels =>
      obtain ⟨⟨vs, left⟩, hvs, hsame⟩ := map_eq_ok_iff.1 h
      obtain ⟨rfl, rfl⟩ := Prod.mk.inj hsame
      exact map_eq_ok_iff.2 ⟨_, hitems levels _ _ _ hvs hrest, rfl⟩
  case h_2 t heq =>
    rw [value, hkept.skipSpace_eq heq]
    cases levels with
    | zero => simp at h
    | succ levels =>
      obtain ⟨⟨ms, left⟩, hms, hsame⟩ := map_eq_ok_iff.1 h
      obtain ⟨rfl, rfl⟩ := Prod.mk.inj hsame
      exact map_eq_ok_iff.2 ⟨_, hmembers levels _ _ _ hms hrest, rfl⟩
  case h_3 harray hobject =>
    have hscalar := (scalar_scans skipping).unwraps hkept _ _ _ h hrest
    cases hs : skipSpace s with
    | nil => simp [hs, scalar] at h
    | cons c t =>
      rw [hs, hkept.filter_cons (isSpace_of_skipSpace hs)] at hscalar
      rw [value, hkept.skipSpace_eq hs]
      split
      case h_1 heq => exact absurd hs (by rw [(List.cons.inj heq).1]; exact harray t)
      case h_2 heq => exact absurd hs (by rw [(List.cons.inj heq).1]; exact hobject t)
      case h_3 => exact hscalar

/-- Items are read as before, if one value is, and the items after the first are. -/
theorem items_unwraps_succ {levels : Nat} (hvalue : Unwraps kept (value skipping steps levels))
    (hmore : Unwraps kept (items skipping steps levels false)) (first : Bool) :
    Unwraps kept (items skipping (steps + 1) levels first) := by
  intro s vs rest h hrest
  rw [items] at h ⊢
  obtain ⟨⟨more, t⟩, hnext, h⟩ := bind_eq_ok_iff.1 h
  refine bind_eq_ok_iff.2 ⟨_, nextItem_filter hkept hnext, ?_⟩
  cases more with
  | false =>
    obtain ⟨rfl, rfl⟩ := Prod.mk.inj (Except.ok.inj h)
    rfl
  | true =>
    obtain ⟨⟨v, u⟩, hv, h⟩ := bind_eq_ok_iff.1 h
    obtain ⟨⟨ws, left⟩, hws, h⟩ := bind_eq_ok_iff.1 h
    obtain ⟨rfl, rfl⟩ := Prod.mk.inj (Except.ok.inj h)
    have hone := hvalue _ _ _ hv (settled_of_items hws)
    have hothers := hmore _ _ _ hws hrest
    exact bind_eq_ok_iff.2 ⟨_, hone, bind_eq_ok_iff.2 ⟨_, hothers, rfl⟩⟩

/-- Members are read as before, if one value is, and the members after the first are. -/
theorem members_unwraps_succ {levels : Nat} (hvalue : Unwraps kept (value skipping steps levels))
    (hmore : Unwraps kept (members skipping steps levels false)) (first : Bool) :
    Unwraps kept (members skipping (steps + 1) levels first) := by
  intro s ms rest h hrest
  rw [members] at h ⊢
  obtain ⟨⟨key, t⟩, hnext, h⟩ := bind_eq_ok_iff.1 h
  refine bind_eq_ok_iff.2 ⟨_, nextMember_filter hkept hnext, ?_⟩
  cases key with
  | none =>
    obtain ⟨rfl, rfl⟩ := Prod.mk.inj (Except.ok.inj h)
    rfl
  | some key =>
    obtain ⟨u, hcolon, h⟩ := bind_eq_ok_iff.1 h
    obtain ⟨⟨v, w⟩, hv, h⟩ := bind_eq_ok_iff.1 h
    obtain ⟨⟨ns, left⟩, hns, h⟩ := bind_eq_ok_iff.1 h
    obtain ⟨rfl, rfl⟩ := Prod.mk.inj (Except.ok.inj h)
    have hone := hvalue _ _ _ hv (settled_of_members hns)
    have hothers := hmore _ _ _ hns hrest
    exact bind_eq_ok_iff.2 ⟨_, behindColon_filter hkept hcolon, bind_eq_ok_iff.2 ⟨_, hone,
      bind_eq_ok_iff.2 ⟨_, hothers, rfl⟩⟩⟩

end Step

/-- **Values are read as before**, kept or passed over, with the same bounds.

**Proof sketch.** Induction on the steps, for values, items and members together. An item or a
member is followed by what the array or the object goes on with, which is settled. -/
theorem value_unwraps (skipping : Bool) (steps levels : Nat) :
    Unwraps kept (value skipping steps levels) := by
  suffices hall : Unwraps kept (value skipping steps levels) ∧
      (∀ first, Unwraps kept (items skipping steps levels first)) ∧
      ∀ first, Unwraps kept (members skipping steps levels first) from hall.1
  induction steps generalizing levels with
  | zero =>
    refine ⟨?_, fun first => ?_, fun first => ?_⟩ <;> intro s a rest h <;>
      simp [value, items, members] at h
  | succ steps ih =>
    have hitems := fun levels => (ih levels).2.1 true
    have hmembers := fun levels => (ih levels).2.2 true
    obtain ⟨hvalue, hmore, hothers⟩ := ih levels
    exact ⟨value_unwraps_succ hkept hitems hmembers levels,
      items_unwraps_succ hkept hvalue (hmore false),
      members_unwraps_succ hkept hvalue (hothers false)⟩

/-- A value that is kept is read as before. The text is shorter, but its bound is still enough. -/
theorem readValue_unwraps (levels : Nat) : Unwraps kept (readValue levels) := by
  intro s v rest h hrest
  have hsame := value_unwraps hkept false _ _ _ _ _ h hrest
  exact value_steady false _ _ _ _ _ hsame _ _ (by omega) (Nat.min_le_left _ _)

/-- A value that is passed over is passed over as before. -/
theorem skipValue_unwraps {α : Type} (found : α) :
    Unwraps kept fun s => (skipValue s).map (found, ·) := by
  intro s a rest h hrest
  obtain ⟨left, hskip, heq⟩ := map_eq_ok_iff.1 h
  obtain ⟨rfl, rfl⟩ := Prod.mk.inj heq
  obtain ⟨⟨v, left⟩, hvalue, rfl⟩ := map_eq_ok_iff.1 hskip
  have hsame := value_unwraps hkept true _ _ _ _ _ hvalue hrest
  have hsteady := value_steady true _ _ _ _ _ hsame (2 * (s.filter kept).length + 2)
    (s.filter kept).length (by omega) (Nat.min_le_right _ _)
  have hpassed : skipValue (s.filter kept) = .ok (left.filter kept) :=
    map_eq_ok_iff.2 ⟨_, hsteady, rfl⟩
  exact map_eq_ok_iff.2 ⟨_, hpassed, rfl⟩

/-! ### Fields -/

/-- A text is read as before. -/
theorem readString_unwraps (expected : String) : Unwraps kept (readString expected) := by
  intro s t rest h _
  rw [readString] at h
  split at h
  case h_2 => simp at h
  case h_1 u heq =>
    rw [readString, hkept.skipSpace_eq heq]
    exact stringLiteral_filter hkept h

/-- So it is where null may stand in its place. -/
theorem readOptionalString_unwraps (expected : String) :
    Unwraps kept (readOptionalString expected) := by
  intro s t rest h hrest
  rw [readOptionalString] at h
  split at h
  case h_1 u heq =>
    obtain ⟨left, hleft, hsame⟩ := map_eq_ok_iff.1 h
    obtain ⟨rfl, rfl⟩ := Prod.mk.inj hsame
    have hword := expect_filter hkept (forall_mem_of_all (by decide)) hleft
    simp [readOptionalString, hkept.skipSpace_eq heq, hword, Except.map]
  case h_2 hnull =>
    obtain ⟨⟨text, left⟩, htext, hsame⟩ := map_eq_ok_iff.1 h
    obtain ⟨rfl, rfl⟩ := Prod.mk.inj hsame
    have hread := readString_unwraps hkept expected _ _ _ htext hrest
    cases hs : skipSpace s with
    | nil =>
      have hnone : readString expected [] = .error .truncated := rfl
      simp [hs, hnone] at htext
    | cons c t =>
      rw [hs, hkept.filter_cons (isSpace_of_skipSpace hs)] at hread
      rw [readOptionalString, hkept.skipSpace_eq hs]
      split
      case h_1 heq => exact absurd hs (by rw [(List.cons.inj heq).1]; exact hnull t)
      case h_2 => rw [hread]; rfl

/-- **Objects with known fields are read as before**, if the values of the fields are. -/
theorem readFields_unwraps {σ : Type} {field : FieldReader σ}
    (hfield : ∀ key found read, field key found = .ok read → Unwraps kept read) (steps : Nat)
    (first : Bool) (found : σ) : Unwraps kept (readFields field steps first found) := by
  induction steps generalizing first found with
  | zero =>
    intro s found' rest h
    simp [readFields] at h
  | succ steps ih =>
    intro s found' rest h hrest
    rw [readFields] at h ⊢
    obtain ⟨⟨key, t⟩, hnext, h⟩ := bind_eq_ok_iff.1 h
    refine bind_eq_ok_iff.2 ⟨_, nextMember_filter hkept hnext, ?_⟩
    cases key with
    | none =>
      obtain ⟨rfl, rfl⟩ := Prod.mk.inj (Except.ok.inj h)
      rfl
    | some key =>
      obtain ⟨read, hread, h⟩ := bind_eq_ok_iff.1 h
      obtain ⟨u, hcolon, h⟩ := bind_eq_ok_iff.1 h
      obtain ⟨⟨middle, w⟩, hone, h⟩ := bind_eq_ok_iff.1 h
      have hmember := hfield key found read hread _ _ _ hone (settled_of_readFields h)
      have hothers := ih _ _ _ _ _ h hrest
      exact bind_eq_ok_iff.2 ⟨_, hread, bind_eq_ok_iff.2 ⟨_, behindColon_filter hkept hcolon,
        bind_eq_ok_iff.2 ⟨_, hmember, hothers⟩⟩⟩

/-- **What is made of an object with known fields** is made as before. The text is shorter, but the
bound on the steps that goes with it is still enough. -/
theorem ofFields_unwraps {σ α : Type} {field : FieldReader σ}
    (hfield : ∀ key found read, field key found = .ok read → Unwraps kept read)
    (hconsumes : ∀ key found read, field key found = .ok read → Consumes (fun _ => 0) read)
    (start : σ) (ofFields : σ → Except Fault α) :
    Unwraps kept fun s => do
      let (found, s) ← readFields field (s.length + 1) true start s
      let a ← ofFields found
      return (a, s) := by
  intro s a rest h hrest
  obtain ⟨⟨found, left⟩, hfields, h⟩ := bind_eq_ok_iff.1 h
  obtain ⟨b, hof, h⟩ := bind_eq_ok_iff.1 h
  obtain ⟨rfl, rfl⟩ := Prod.mk.inj (Except.ok.inj h)
  have hsame := readFields_unwraps hkept hfield _ _ _ _ _ _ hfields hrest
  have henough := readFields_of_steps hconsumes hsame (Nat.le_refl _)
  exact bind_eq_ok_iff.2 ⟨_, henough, bind_eq_ok_iff.2 ⟨_, hof, rfl⟩⟩

/-- **Records are read as before**, if their two forms are. -/
theorem readRecord_unwraps {α : Type} {expectation : String}
    {ofArray ofObject : Nat → List Char → Except Fault (α × List Char)}
    (harray : ∀ levels, Unwraps kept (ofArray levels))
    (hobject : ∀ levels, Unwraps kept (ofObject levels)) (levels : Nat) :
    Unwraps kept (readRecord expectation ofArray ofObject levels) := by
  intro s a rest h hrest
  rw [readRecord.eq_def] at h
  split at h
  case h_4 t levels heq =>
    rw [readRecord.eq_def, hkept.skipSpace_eq heq]
    exact harray levels _ _ _ h hrest
  case h_5 t levels heq =>
    rw [readRecord.eq_def, hkept.skipSpace_eq heq]
    exact hobject levels _ _ _ h hrest
  all_goals simp at h

/-- **Documents are read as before.** -/
theorem finish_filter {α : Type} {read : List Char → Except Fault (α × List Char)}
    (hread : Unwraps kept read) {s : List Char} {a : α} (h : finish (read s) = .ok a) :
    finish (read (s.filter kept)) = .ok a := by
  obtain ⟨rest, hrest⟩ := eq_ok_of_finish h
  rw [hrest] at h
  have hblank := skipSpace_of_finish h
  have hsettled : Settled rest := by
    rw [Settled, hblank]
    exact nofun
  rw [hread _ _ _ hrest hsettled, finish, hkept.skipSpace_filter, hblank]
  rfl

end Kept

end PaneLayout.Json
