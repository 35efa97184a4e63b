import PaneLayout.Proofs.Json.Consumption

set_option autoImplicit false

/-!
# Enough steps and levels

Values and objects are read with a bound on the steps. What has been read with some bound is also
read with every other one that is large enough for the length of the text, so the bound has no part
in what a text means. The same holds of the levels: more of them are never needed than there are
characters.

## Main definitions

* `PaneLayout.Json.Steady` — a reader whose result does not depend on the bounds.

## Main results

* `PaneLayout.Json.value_steady` — the bounds on reading a value.
* `PaneLayout.Json.readFields_of_steps` — the bound on reading an object with known fields.
-/

namespace PaneLayout.Json

/-- **Enough steps and levels.** What a reader gives with some steps and levels it also gives with
others, if these are `extra` steps more than two for each character, and levels as before or one for
each character. -/
def Steady {α : Type} (extra : Nat) (read : Nat → Nat → List Char → Except Fault (α × List Char))
    (steps levels : Nat) : Prop :=
  ∀ s a rest, read steps levels s = .ok (a, rest) → ∀ steps' levels',
    2 * s.length + extra ≤ steps' → min levels s.length ≤ levels' →
      read steps' levels' s = .ok (a, rest)

section Step

variable {skipping : Bool} {steps : Nat}

/-- Enough for a value is what is enough for the items and the members in it. -/
theorem value_steady_succ
    (hitems : ∀ levels,
      Steady 2 (fun steps levels => items skipping steps levels true) steps levels)
    (hmembers : ∀ levels,
      Steady 1 (fun steps levels => members skipping steps levels true) steps levels)
    (levels : Nat) : Steady 1 (value skipping) (steps + 1) levels := by
  intro s v rest h steps' levels' hsteps hlevels
  obtain ⟨steps', rfl⟩ : ∃ k, steps' = k + 1 := ⟨steps' - 1, by omega⟩
  have hskip := length_skipSpace_le s
  rw [value] at h ⊢
  split at h
  case h_1 t heq =>
    simp only [heq, List.length_cons] at hskip
    cases levels with
    | zero => simp at h
    | succ levels =>
      obtain ⟨levels', rfl⟩ : ∃ k, levels' = k + 1 := ⟨levels' - 1, by omega⟩
      obtain ⟨⟨vs, left⟩, hvs, hsame⟩ := map_eq_ok_iff.1 h
      have henough : items skipping steps' levels' true t = .ok (vs, left) :=
        hitems levels t vs left hvs steps' levels' (by omega) (by omega)
      exact map_eq_ok_iff.2 ⟨_, henough, hsame⟩
  case h_2 t heq =>
    simp only [heq, List.length_cons] at hskip
    cases levels with
    | zero => simp at h
    | succ levels =>
      obtain ⟨levels', rfl⟩ : ∃ k, levels' = k + 1 := ⟨levels' - 1, by omega⟩
      obtain ⟨⟨ms, left⟩, hms, hsame⟩ := map_eq_ok_iff.1 h
      have henough : members skipping steps' levels' true t = .ok (ms, left) :=
        hmembers levels t ms left hms steps' levels' (by omega) (by omega)
      exact map_eq_ok_iff.2 ⟨_, henough, hsame⟩
  case h_3 => exact h

/-- Enough for some items is what is enough for the first of them and for the others. The first item
of an array has no comma before it, so it takes one step more. -/
theorem items_steady_succ {levels : Nat} (hvalue : Steady 1 (value skipping) steps levels)
    (hmore : Steady 1 (fun steps levels => items skipping steps levels false) steps levels)
    (first : Bool) :
    Steady (if first then 2 else 1) (fun steps levels => items skipping steps levels first)
      (steps + 1) levels := by
  intro s vs rest h steps' levels' hsteps hlevels
  obtain ⟨steps', rfl⟩ : ∃ k, steps' = k + 1 :=
    ⟨steps' - 1, by cases first <;> simp at hsteps <;> omega⟩
  dsimp only at h ⊢
  rw [items] at h ⊢
  obtain ⟨⟨more, t⟩, hnext, h⟩ := bind_eq_ok_iff.1 h
  refine bind_eq_ok_iff.2 ⟨(more, t), hnext, ?_⟩
  cases more with
  | false => exact h
  | true =>
    have hstep := length_of_nextItem hnext
    obtain ⟨⟨v, u⟩, hv, h⟩ := bind_eq_ok_iff.1 h
    obtain ⟨⟨ws, left⟩, hws, h⟩ := bind_eq_ok_iff.1 h
    have hbehind := value_consumes _ _ _ _ _ _ hv
    have hroom : 2 * t.length + 1 ≤ steps' := by
      cases first <;> simp at hstep hsteps <;> omega
    have hbelow : t.length ≤ s.length := by omega
    have hone := hvalue t v u hv steps' levels' hroom (by omega)
    have hothers : items skipping steps' levels' false u = .ok (ws, left) :=
      hmore u ws left hws steps' levels' (by omega) (by omega)
    exact bind_eq_ok_iff.2 ⟨_, hone, bind_eq_ok_iff.2 ⟨_, hothers, h⟩⟩

/-- Enough for some members is what is enough for the first value and for the other members. -/
theorem members_steady_succ {levels : Nat} (hvalue : Steady 1 (value skipping) steps levels)
    (hmore : Steady 1 (fun steps levels => members skipping steps levels false) steps levels)
    (first : Bool) :
    Steady 1 (fun steps levels => members skipping steps levels first) (steps + 1) levels := by
  intro s ms rest h steps' levels' hsteps hlevels
  obtain ⟨steps', rfl⟩ : ∃ k, steps' = k + 1 := ⟨steps' - 1, by omega⟩
  dsimp only at h ⊢
  rw [members] at h ⊢
  obtain ⟨⟨key, t⟩, hnext, h⟩ := bind_eq_ok_iff.1 h
  refine bind_eq_ok_iff.2 ⟨(key, t), hnext, ?_⟩
  cases key with
  | none => exact h
  | some key =>
    have hstep := length_of_nextMember hnext
    obtain ⟨u, hcolon, h⟩ := bind_eq_ok_iff.1 h
    obtain ⟨⟨v, w⟩, hv, h⟩ := bind_eq_ok_iff.1 h
    obtain ⟨⟨ns, left⟩, hns, h⟩ := bind_eq_ok_iff.1 h
    have hbehind := length_of_behindColon hcolon
    have hrest := value_consumes _ _ _ _ _ _ hv
    have hone := hvalue u v w hv steps' levels' (by omega) (by omega)
    have hothers : members skipping steps' levels' false w = .ok (ns, left) :=
      hmore w ns left hns steps' levels' (by omega) (by omega)
    exact bind_eq_ok_iff.2 ⟨u, hcolon, bind_eq_ok_iff.2 ⟨_, hone,
      bind_eq_ok_iff.2 ⟨_, hothers, h⟩⟩⟩

end Step

/-- **The bounds on reading a value** have no part in what is read, if they are large enough.

**Proof sketch.** Induction on the steps, for values, items and members together. A bracket or a
colon is used up for every step but the one that reads the first item of an array, so two steps for
each character are enough. -/
theorem value_steady (skipping : Bool) (steps levels : Nat) :
    Steady 1 (value skipping) steps levels := by
  suffices hall : Steady 1 (value skipping) steps levels ∧
      (∀ first, Steady (if first then 2 else 1)
        (fun steps levels => items skipping steps levels first) steps levels) ∧
      ∀ first, Steady 1 (fun steps levels => members skipping steps levels first) steps levels
    from hall.1
  induction steps generalizing levels with
  | zero =>
    refine ⟨?_, fun first => ?_, fun first => ?_⟩ <;> intro s a rest h <;>
      simp [value, items, members] at h
  | succ steps ih =>
    have hitems := fun levels => (ih levels).2.1 true
    have hmembers := fun levels => (ih levels).2.2 true
    obtain ⟨hvalue, hmore, hothers⟩ := ih levels
    exact ⟨value_steady_succ hitems hmembers levels, items_steady_succ hvalue (hmore false),
      members_steady_succ hvalue (hothers false)⟩

/-- **The bound on reading an object** with known fields has no part in what is read, if it is
larger than the number of characters. -/
theorem readFields_of_steps {σ : Type} {field : FieldReader σ}
    (hfield : ∀ key found read, field key found = .ok read → Consumes (fun _ => 0) read)
    {steps steps' : Nat} {first : Bool} {found found' : σ} {s rest : List Char}
    (h : readFields field steps first found s = .ok (found', rest))
    (hsteps : s.length + 1 ≤ steps') :
    readFields field steps' first found s = .ok (found', rest) := by
  induction steps generalizing steps' first found s with
  | zero => simp [readFields] at h
  | succ steps ih =>
    obtain ⟨steps', rfl⟩ : ∃ k, steps' = k + 1 := ⟨steps' - 1, by omega⟩
    rw [readFields] at h ⊢
    obtain ⟨⟨key, t⟩, hnext, h⟩ := bind_eq_ok_iff.1 h
    refine bind_eq_ok_iff.2 ⟨(key, t), hnext, ?_⟩
    cases key with
    | none => exact h
    | some key =>
      have hstep := length_of_nextMember hnext
      obtain ⟨read, hread, h⟩ := bind_eq_ok_iff.1 h
      obtain ⟨u, hcolon, h⟩ := bind_eq_ok_iff.1 h
      obtain ⟨⟨middle, w⟩, hone, h⟩ := bind_eq_ok_iff.1 h
      have hbehind := length_of_behindColon hcolon
      have hrest := hfield key found read hread u middle w hone
      have hroom : w.length + 1 ≤ steps' := by
        dsimp only at hrest
        omega
      have hothers := ih h hroom
      exact bind_eq_ok_iff.2 ⟨read, hread, bind_eq_ok_iff.2 ⟨u, hcolon,
        bind_eq_ok_iff.2 ⟨_, hone, hothers⟩⟩⟩

end PaneLayout.Json
