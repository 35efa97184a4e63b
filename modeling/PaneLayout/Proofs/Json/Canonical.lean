import PaneLayout.Proofs.Json.WholeNumber

set_option autoImplicit false

/-!
# Values that have been read are read back

However a text is written, the value that is read from it is of one form: its whole numbers fit, the
keys of its objects are in order and no two are equal, and it is nested no deeper than it was in the
text. If there is no floating-point number in it, such a value is read back from its printed text.

## Main definitions

* `PaneLayout.Json.Canonical` — the form of the values that are read.
* `PaneLayout.Json.FloatFree` — values without floating-point numbers.
* `PaneLayout.Json.Gives` — what holds of everything that a reader gives.

## Main results

* `PaneLayout.Json.ofMembers_of_inOrder` — members that are in order make up an object as they are.
* `PaneLayout.Json.Canonical.readable` — what is canonical is read back.
* `PaneLayout.Json.value_gives` — what is read is canonical.
* `PaneLayout.Json.readFields_gives`, `PaneLayout.Json.readRecord_gives` — what objects with known
  fields give.
-/

namespace PaneLayout.Json

/-! ### Members in order -/

/-- **Members in order.** The keys increase, so no two are equal. -/
def InOrder (ms : List (String × Json)) : Prop := ms.Pairwise (·.1 < ·.1)

/-- A member that is put into its place is in the object, and what else is there was there. -/
theorem mem_insertMember {key : String} {v : Json} {ms : List (String × Json)}
    {m : String × Json} (h : m ∈ insertMember key v ms) : m = (key, v) ∨ m ∈ ms := by
  induction ms with
  | nil => simpa [insertMember] using h
  | cons m' ms ih =>
    rw [insertMember] at h
    split at h
    case isTrue =>
      rcases List.mem_cons.1 h with h | h
      · exact .inl h
      · exact .inr (List.mem_cons_of_mem _ h)
    case isFalse =>
      split at h
      case isTrue =>
        rcases List.mem_cons.1 h with h | h
        · exact .inl h
        · exact .inr h
      case isFalse =>
        rcases List.mem_cons.1 h with rfl | h
        · exact .inr List.mem_cons_self
        · exact (ih h).imp_right (List.mem_cons_of_mem _)

/-- **Putting a member into its place** keeps the others in order. -/
theorem InOrder.insertMember {ms : List (String × Json)} (h : InOrder ms) (key : String)
    (v : Json) : InOrder (insertMember key v ms) := by
  induction ms with
  | nil => simp [Json.insertMember, InOrder]
  | cons m ms ih =>
    obtain ⟨hfirst, hrest⟩ := List.pairwise_cons.1 h
    rw [Json.insertMember]
    split
    case isTrue heq => exact List.pairwise_cons.2 ⟨fun m' hm' => heq ▸ hfirst m' hm', hrest⟩
    case isFalse hne =>
      split
      case isTrue hlt =>
        refine List.pairwise_cons.2 ⟨fun m' hm' => ?_, h⟩
        rcases List.mem_cons.1 hm' with rfl | hm'
        · exact hlt
        · exact String.lt_trans hlt (hfirst m' hm')
      case isFalse hge =>
        have hlast : m.1 < key := Std.lt_of_le_of_ne (String.not_lt.1 hge) (Ne.symm hne)
        refine List.pairwise_cons.2 ⟨fun m' hm' => ?_, ih hrest⟩
        rcases mem_insertMember hm' with rfl | hm'
        · exact hlast
        · exact hfirst m' hm'

/-- A member whose key comes after all others is put at the end. -/
theorem insertMember_of_last {key : String} {ms : List (String × Json)} (h : ∀ m ∈ ms, m.1 < key)
    (v : Json) : insertMember key v ms = ms ++ [(key, v)] := by
  induction ms with
  | nil => rfl
  | cons m ms ih =>
    have hlt : m.1 < key := h m List.mem_cons_self
    rw [insertMember, if_neg (String.ne_of_lt hlt).symm, if_neg (String.lt_asymm hlt),
      ih fun m' hm' => h m' (List.mem_cons_of_mem m hm')]
    rfl

/-- Members that come after those that are there, in order, are put at the end. -/
theorem foldl_insertMember {done ms : List (String × Json)} (h : InOrder (done ++ ms)) :
    ms.foldl (fun done m => insertMember m.1 m.2 done) done = done ++ ms := by
  induction ms generalizing done with
  | nil => simp
  | cons m ms ih =>
    have hlast : ∀ m' ∈ done, m'.1 < m.1 := fun m' hm' =>
      (List.pairwise_append.1 h).2.2 m' hm' m List.mem_cons_self
    have happend : done ++ m :: ms = (done ++ [m]) ++ ms := by simp
    rw [List.foldl_cons, insertMember_of_last hlast, happend]
    exact ih (happend ▸ h)

/-- **Members that are in order make up an object as they are.** -/
theorem ofMembers_of_inOrder {ms : List (String × Json)} (h : InOrder ms) :
    ofMembers ms = .object ms :=
  congrArg Json.object (foldl_insertMember h)

/-! ### Canonical values -/

/-- **Canonical values**, in which at most that many arrays and objects are open at a time. Whole
numbers fit, and the members of objects are in order. -/
inductive Canonical : Nat → Json → Prop where
  | null {levels : Nat} : Canonical levels .null
  | bool {levels : Nat} (b : Bool) : Canonical levels (.bool b)
  | int {levels : Nat} {i : Int} : Fits i → Canonical levels (.int i)
  | float {levels : Nat} (x : Float) : Canonical levels (.float x)
  | string {levels : Nat} (s : String) : Canonical levels (.string s)
  | array {levels : Nat} {vs : List Json} : (∀ v ∈ vs, Canonical levels v) →
    Canonical (levels + 1) (.array vs)
  | object {levels : Nat} {ms : List (String × Json)} : InOrder ms →
    (∀ m ∈ ms, Canonical levels m.2) → Canonical (levels + 1) (.object ms)

/-- **Values without floating-point numbers.** -/
inductive FloatFree : Json → Prop where
  | null : FloatFree .null
  | bool (b : Bool) : FloatFree (.bool b)
  | int (i : Int) : FloatFree (.int i)
  | string (s : String) : FloatFree (.string s)
  | array {vs : List Json} : (∀ v ∈ vs, FloatFree v) → FloatFree (.array vs)
  | object {ms : List (String × Json)} : (∀ m ∈ ms, FloatFree m.2) → FloatFree (.object ms)

/-- **What is canonical is read back**, if no floating-point number is in it. -/
theorem Canonical.readable {levels : Nat} {v : Json} (h : Canonical levels v)
    (hfree : FloatFree v) : Readable levels v := by
  induction h with
  | null => exact .null
  | bool b => exact .bool b
  | int hfits => exact .int hfits
  | float x => cases hfree
  | string s => exact (Legible.string _ s).readable
  | array _ ih =>
    cases hfree with
    | array hvs => exact (Legible.array fun v hv => ih v hv (hvs v hv)).readable
  | object horder _ ih =>
    cases hfree with
    | object hms =>
      exact (Legible.object (fun m hm => ih m hm (hms m hm)) (ofMembers_of_inOrder horder)).readable

/-! ### What is read -/

/-- **What a reader gives**, whatever it is read from. -/
def Gives {α : Type} (P : α → Prop) (read : List Char → Except Fault (α × List Char)) : Prop :=
  ∀ s a rest, read s = .ok (a, rest) → P a

/-- Members that are put into their places are in order, and their values are canonical. -/
theorem canonical_foldl {levels : Nat} {done ms : List (String × Json)} (horder : InOrder done)
    (hdone : ∀ m ∈ done, Canonical levels m.2) (hms : ∀ m ∈ ms, Canonical levels m.2) :
    Canonical (levels + 1)
      (.object (ms.foldl (fun done m => insertMember m.1 m.2 done) done)) := by
  induction ms generalizing done with
  | nil => exact .object horder hdone
  | cons m ms ih =>
    refine ih (horder.insertMember m.1 m.2) (fun m' hm' => ?_)
      fun m' hm' => hms m' (List.mem_cons_of_mem m hm')
    rcases mem_insertMember hm' with rfl | hm'
    · exact hms m List.mem_cons_self
    · exact hdone m' hm'

/-- An object that is put together of canonical values is canonical, with one more level. -/
theorem canonical_ofMembers {levels : Nat} {ms : List (String × Json)}
    (h : ∀ m ∈ ms, Canonical levels m.2) : Canonical (levels + 1) (ofMembers ms) :=
  canonical_foldl .nil (by simp) h

/-- The number of a numeral is canonical. -/
theorem canonical_of_numeral {levels : Nat} {n : Numeral} {v : Json} (h : n.value = .ok v) :
    Canonical levels v := by
  rw [Numeral.value] at h
  split at h
  case h_1 i hwhole =>
    obtain rfl := Except.ok.inj h
    exact .int (fits_of_whole? hwhole)
  case h_2 =>
    split at h
    case h_1 x _ =>
      obtain rfl := Except.ok.inj h
      exact .float x
    case h_2 => simp at h

/-- A number that is kept is canonical. -/
theorem number_gives (levels : Nat) : Gives (Canonical levels) (number false) := by
  intro s v rest h
  rw [number] at h
  split at h
  case h_2 => simp at h
  case h_1 =>
    obtain ⟨found, hfound, heq⟩ := map_eq_ok_iff.1 h
    obtain ⟨rfl, -⟩ := Prod.mk.inj heq
    exact canonical_of_numeral hfound

/-- A scalar that is kept is canonical. -/
theorem scalar_gives (levels : Nat) : Gives (Canonical levels) (scalar false) := by
  intro s v rest h
  rw [scalar.eq_def] at h
  split at h
  case h_1 => simp at h
  case h_2 =>
    obtain ⟨left, -, heq⟩ := map_eq_ok_iff.1 h
    obtain ⟨rfl, -⟩ := Prod.mk.inj heq
    exact .null
  case h_3 | h_4 =>
    obtain ⟨left, -, heq⟩ := map_eq_ok_iff.1 h
    obtain ⟨rfl, -⟩ := Prod.mk.inj heq
    exact .bool _
  case h_5 =>
    obtain ⟨⟨t, left⟩, -, heq⟩ := map_eq_ok_iff.1 h
    obtain ⟨rfl, -⟩ := Prod.mk.inj heq
    exact .string t
  case h_6 =>
    split at h
    case isFalse => simp at h
    case isTrue => exact number_gives levels _ _ _ h

section Step

variable {steps : Nat}

/-- A value is canonical if the items of arrays and the members of objects are, with one level
less. -/
theorem value_gives_succ
    (hitems : ∀ levels, Gives (∀ v ∈ ·, Canonical levels v) (items false steps levels true))
    (hmembers : ∀ levels, Gives (∀ m ∈ ·, Canonical levels m.2) (members false steps levels true))
    (levels : Nat) : Gives (Canonical levels) (value false (steps + 1) levels) := by
  intro s v rest h
  rw [value] at h
  split at h
  case h_1 =>
    cases levels with
    | zero => simp at h
    | succ levels =>
      obtain ⟨⟨vs, left⟩, hvs, heq⟩ := map_eq_ok_iff.1 h
      obtain ⟨rfl, -⟩ := Prod.mk.inj heq
      exact .array (hitems levels _ _ _ hvs)
  case h_2 =>
    cases levels with
    | zero => simp at h
    | succ levels =>
      obtain ⟨⟨ms, left⟩, hms, heq⟩ := map_eq_ok_iff.1 h
      obtain ⟨rfl, -⟩ := Prod.mk.inj heq
      exact canonical_ofMembers (hmembers levels _ _ _ hms)
  case h_3 => exact scalar_gives levels _ _ _ h

/-- Items are canonical if one value is, and the items after the first are. -/
theorem items_gives_succ {levels : Nat}
    (hvalue : Gives (Canonical levels) (value false steps levels))
    (hmore : Gives (∀ v ∈ ·, Canonical levels v) (items false steps levels false)) (first : Bool) :
    Gives (∀ v ∈ ·, Canonical levels v) (items false (steps + 1) levels first) := by
  intro s vs rest h
  rw [items] at h
  obtain ⟨⟨more, t⟩, -, h⟩ := bind_eq_ok_iff.1 h
  cases more with
  | false =>
    obtain ⟨rfl, -⟩ := Prod.mk.inj (Except.ok.inj h)
    exact List.forall_mem_nil _
  | true =>
    obtain ⟨⟨v, u⟩, hv, h⟩ := bind_eq_ok_iff.1 h
    obtain ⟨⟨ws, left⟩, hws, h⟩ := bind_eq_ok_iff.1 h
    obtain ⟨rfl, -⟩ := Prod.mk.inj (Except.ok.inj h)
    exact List.forall_mem_cons.2 ⟨hvalue _ _ _ hv, hmore _ _ _ hws⟩

/-- The values of members are canonical if one value is, and those after the first are. -/
theorem members_gives_succ {levels : Nat}
    (hvalue : Gives (Canonical levels) (value false steps levels))
    (hmore : Gives (∀ m ∈ ·, Canonical levels m.2) (members false steps levels false))
    (first : Bool) :
    Gives (∀ m ∈ ·, Canonical levels m.2) (members false (steps + 1) levels first) := by
  intro s ms rest h
  rw [members] at h
  obtain ⟨⟨key, t⟩, -, h⟩ := bind_eq_ok_iff.1 h
  cases key with
  | none =>
    obtain ⟨rfl, -⟩ := Prod.mk.inj (Except.ok.inj h)
    exact List.forall_mem_nil _
  | some key =>
    obtain ⟨u, -, h⟩ := bind_eq_ok_iff.1 h
    obtain ⟨⟨v, w⟩, hv, h⟩ := bind_eq_ok_iff.1 h
    obtain ⟨⟨ns, left⟩, hns, h⟩ := bind_eq_ok_iff.1 h
    obtain ⟨rfl, -⟩ := Prod.mk.inj (Except.ok.inj h)
    exact List.forall_mem_cons.2 ⟨hvalue _ _ _ hv, hmore _ _ _ hns⟩

end Step

/-- **What is read is canonical**, with as many levels as may be open.

**Proof sketch.** Induction on the steps, for values, for the items of an array and for the members
of an object together. -/
theorem value_gives (steps levels : Nat) :
    Gives (Canonical levels) (value false steps levels) := by
  suffices hall : Gives (Canonical levels) (value false steps levels) ∧
      (∀ first, Gives (∀ v ∈ ·, Canonical levels v) (items false steps levels first)) ∧
      ∀ first, Gives (∀ m ∈ ·, Canonical levels m.2) (members false steps levels first) from hall.1
  induction steps generalizing levels with
  | zero =>
    refine ⟨?_, fun first => ?_, fun first => ?_⟩ <;> intro s a rest h <;>
      simp [value, items, members] at h
  | succ steps ih =>
    have hitems := fun levels => (ih levels).2.1 true
    have hmembers := fun levels => (ih levels).2.2 true
    obtain ⟨hvalue, hmore, hothers⟩ := ih levels
    exact ⟨value_gives_succ hitems hmembers levels, items_gives_succ hvalue (hmore false),
      members_gives_succ hvalue (hothers false)⟩

/-! ### Fields -/

/-- **Reading the fields of an object** keeps what the reading of each field keeps. -/
theorem readFields_gives {σ : Type} {P : σ → Prop} {field : FieldReader σ}
    (hfield : ∀ key found read, field key found = .ok read → P found → Gives P read)
    {found : σ} (hfound : P found) (steps : Nat) (first : Bool) :
    Gives P (readFields field steps first found) := by
  intro s found' rest h
  induction steps generalizing first found s with
  | zero => simp [readFields] at h
  | succ steps ih =>
    rw [readFields] at h
    obtain ⟨⟨key, t⟩, -, h⟩ := bind_eq_ok_iff.1 h
    cases key with
    | none =>
      obtain ⟨rfl, -⟩ := Prod.mk.inj (Except.ok.inj h)
      exact hfound
    | some key =>
      obtain ⟨read, hread, h⟩ := bind_eq_ok_iff.1 h
      obtain ⟨u, -, h⟩ := bind_eq_ok_iff.1 h
      obtain ⟨⟨middle, w⟩, hone, h⟩ := bind_eq_ok_iff.1 h
      exact ih (hfield key found read hread hfound u middle w hone) _ _ h

/-- A record gives what its two forms give, with one level less. -/
theorem readRecord_gives {α : Type} {P : α → Prop} {expectation : String}
    {ofArray ofObject : Nat → List Char → Except Fault (α × List Char)} {levels : Nat}
    (harray : Gives P (ofArray levels)) (hobject : Gives P (ofObject levels)) :
    Gives P (readRecord expectation ofArray ofObject (levels + 1)) := by
  intro s a rest h
  rw [readRecord.eq_def] at h
  split at h
  case h_4 hlevels =>
    obtain rfl := Nat.succ.inj hlevels
    exact harray _ _ _ h
  case h_5 hlevels =>
    obtain rfl := Nat.succ.inj hlevels
    exact hobject _ _ _ h
  all_goals simp at h

end PaneLayout.Json
