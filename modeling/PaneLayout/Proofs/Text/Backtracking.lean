import Mathlib.Data.List.DropRight
import PaneLayout.Proofs.Text.Stripping

set_option autoImplicit false

/-!
# Control sequences as a pattern

The grammar of control sequences can be written as a pattern that is matched by trying one way after
the other: as many intermediate characters as there are, as many parameters and as many digits in
each as are allowed, and a little less every time a final character is missing behind them. This
file has the patterns, and shows that the scanner finds what the first way that succeeds takes up.

## Main definitions

* `PaneLayout.Text.Pattern` — patterns.
* `PaneLayout.Text.Pattern.rests` — all ways to match a pattern, in the order of trying.
* `PaneLayout.Text.Pattern.match?` — what the first way takes up.
* `PaneLayout.Text.controlPattern` — the pattern of control sequences.

## Main results

* `PaneLayout.Text.match?_controlPattern` — the scanner does what trying the pattern does.
-/

namespace PaneLayout.Text

/-! ### Patterns -/

/-- **Patterns.** Nothing; one character of a kind; one pattern behind the other; a pattern that may
be left out; a pattern any number of times. The last two take as much as they can. -/
inductive Pattern where
  | nothing
  | one (kind : Char → Bool)
  | seq (first second : Pattern)
  | perhaps (part : Pattern)
  | many (part : Pattern)

/-- The rests of a text behind at most so many rounds of some ways to go on. Another round is tried
before none. -/
def rounds (ways : List Char → List (List Char)) : Nat → List Char → List (List Char)
  | 0, s => [s]
  | n + 1, s => (ways s).flatMap (rounds ways n) ++ [s]

namespace Pattern

/-- **Trying.** The rests of a text behind all that the pattern matches at its start, in the order
in which this is tried. A round takes up a character, so that there are no more of them than
characters. -/
def rests : Pattern → List Char → List (List Char)
  | nothing, s => [s]
  | one _, [] => []
  | one kind, c :: s => if kind c then [s] else []
  | seq first second, s => (first.rests s).flatMap second.rests
  | perhaps part, s => part.rests s ++ [s]
  | many part, s => rounds part.rests s.length s

/-- **Matching.** What the first way that succeeds takes up at the start of a text. -/
def match? (p : Pattern) (s : List Char) : Option (List Char) :=
  (p.rests s).head?.map fun rest => s.take (s.length - rest.length)

@[simp] theorem rests_nothing (s : List Char) : nothing.rests s = [s] := rfl

@[simp] theorem rests_one_nil (kind : Char → Bool) : (one kind).rests [] = [] := rfl

@[simp] theorem rests_one_cons (kind : Char → Bool) (c : Char) (s : List Char) :
    (one kind).rests (c :: s) = if kind c then [s] else [] := rfl

@[simp] theorem rests_seq (p q : Pattern) (s : List Char) :
    (seq p q).rests s = (p.rests s).flatMap q.rests := rfl

@[simp] theorem rests_perhaps (p : Pattern) (s : List Char) :
    (perhaps p).rests s = p.rests s ++ [s] := rfl

/-- A pattern up to so many times, as often as it can be. -/
def upTo (p : Pattern) : Nat → Pattern
  | 0 => nothing
  | n + 1 => perhaps (seq p (upTo p n))

/-- A digit. -/
def digit : Pattern := one Char.isDigit

/-- A semicolon and at most four digits. -/
def group : Pattern := seq (one (· == ';')) (upTo digit 4)

end Pattern

open Pattern in
/-- One to four digits and any number of groups. -/
def parameterPattern : Pattern := seq (seq digit (upTo digit 3)) (many group)

open Pattern in
/-- **The pattern of control sequences:** an introducer, any number of intermediate characters,
perhaps parameters, and a final character. -/
def controlPattern : Pattern :=
  seq (one isIntroducer)
    (seq (many (one isIntermediate)) (seq (perhaps parameterPattern) (one isFinal)))

/-! ### One beginning after the other -/

/-- The rests of the text `run ++ t` behind the beginnings of `run`, the longest one first. -/
def behind : List Char → List Char → List (List Char)
  | [], t => [t]
  | c :: run, t => behind run t ++ [c :: (run ++ t)]

/-- If nothing goes on behind a proper beginning, the whole run is taken. -/
theorem flatMap_behind {ways : List Char → List (List Char)} {run : List Char}
    (h : ∀ c ∈ run, ∀ u, ways (c :: u) = []) (t : List Char) :
    (behind run t).flatMap ways = ways t := by
  induction run with
  | nil => simp [behind]
  | cons c run ih =>
    have hstop : ways (c :: (run ++ t)) = [] := h c (by simp) _
    have hrun := ih fun d hd => h d (by simp [hd])
    simp [behind, hstop, hrun]

/-- Rounds that take up characters do not become more when more of them are allowed than there are
characters. -/
theorem rounds_eq_of_le {ways : List Char → List (List Char)}
    (h : ∀ s, ∀ r ∈ ways s, r.length < s.length) {n : Nat} {s : List Char} (hn : s.length ≤ n) :
    rounds ways n s = rounds ways s.length s := by
  have hsame : ∀ n m : Nat, ∀ s : List Char, s.length ≤ n → s.length ≤ m →
      rounds ways n s = rounds ways m s := by
    intro n
    induction n with
    | zero =>
      intro m s hn hm
      obtain rfl : s = [] := List.length_eq_zero_iff.1 (Nat.le_zero.1 hn)
      have hnone : ways [] = [] :=
        List.eq_nil_iff_forall_not_mem.2 fun r hr => absurd (h [] r hr) (Nat.not_lt_zero _)
      cases m <;> simp [rounds, hnone]
    | succ n ih =>
      intro m s hn hm
      cases m with
      | zero =>
        obtain rfl : s = [] := List.length_eq_zero_iff.1 (Nat.le_zero.1 hm)
        have hnone : ways [] = [] :=
          List.eq_nil_iff_forall_not_mem.2 fun r hr => absurd (h [] r hr) (Nat.not_lt_zero _)
        simp [rounds, hnone]
      | succ m =>
        have hrounds : ∀ r ∈ ways s, rounds ways n r = rounds ways m r := by
          intro r hr
          have hlt := h s r hr
          exact ih m r (by omega) (by omega)
        rw [rounds, rounds, List.flatMap_congr hrounds]
  exact hsame n s.length s hn (Nat.le_refl _)

namespace Pattern

/-- A pattern leaves a rest of the text. -/
theorem length_le_of_mem_rests {p : Pattern} {s r : List Char} (h : r ∈ p.rests s) :
    r.length ≤ s.length := by
  have hrounds : ∀ ways : List Char → List (List Char),
      (∀ s, ∀ r ∈ ways s, r.length ≤ s.length) → ∀ (n : Nat) (s : List Char),
      ∀ r ∈ rounds ways n s, r.length ≤ s.length := by
    intro ways hways n
    induction n with
    | zero => simp [rounds]
    | succ n ih =>
      intro s r hr
      rw [rounds, List.mem_append, List.mem_flatMap] at hr
      rcases hr with ⟨q, hq, hr⟩ | hr
      · exact (ih q r hr).trans (hways s q hq)
      · rw [List.mem_singleton.1 hr]
  induction p generalizing s r with
  | nothing => simp_all
  | one kind =>
    cases s with
    | nil => simp at h
    | cons c s =>
      rw [rests_one_cons] at h
      split at h
      · rw [List.mem_singleton.1 h]
        simp
      · simp at h
  | seq first second hfirst hsecond =>
    rw [rests_seq, List.mem_flatMap] at h
    obtain ⟨q, hq, hr⟩ := h
    exact (hsecond hr).trans (hfirst hq)
  | perhaps part ih =>
    rw [rests_perhaps, List.mem_append] at h
    rcases h with h | h
    · exact ih h
    · rw [List.mem_singleton.1 h]
  | many part ih => exact hrounds part.rests (fun s r hr => ih hr) s.length s r h

/-- A pattern that begins with a character takes up a character. -/
theorem length_lt_of_mem_rests {kind : Char → Bool} {p : Pattern} {s r : List Char}
    (h : r ∈ (seq (one kind) p).rests s) : r.length < s.length := by
  rw [rests_seq, List.mem_flatMap] at h
  obtain ⟨q, hq, hr⟩ := h
  have hle := length_le_of_mem_rests hr
  cases s with
  | nil => simp at hq
  | cons c s =>
    rw [rests_one_cons] at hq
    split at hq
    · rw [List.mem_singleton.1 hq] at hle
      exact Nat.lt_succ_of_le hle
    · simp at hq

/-- **Any number of characters of a kind** are tried from the longest run of them on. -/
theorem rests_many_one (kind : Char → Bool) (s : List Char) :
    (many (one kind)).rests s = behind (s.takeWhile kind) (s.dropWhile kind) := by
  rw [rests]
  induction s with
  | nil => rfl
  | cons c s ih =>
    rw [List.length_cons, rounds, rests_one_cons]
    cases hc : kind c with
    | true => simp [hc, ih, behind]
    | false => simp [hc, behind]

/-! ### Parameters -/

/-- No group begins with another character than the semicolon. -/
theorem rests_group_of_ne {c : Char} (h : c ≠ ';') (s : List Char) :
    group.rests (c :: s) = [] := by
  simp [group, h]

/-- A group begins with a semicolon. -/
theorem rests_group_semicolon (s : List Char) :
    group.rests (';' :: s) = (upTo digit 4).rests s := by
  simp [group]

/-- Any number of groups: one more is tried before none. -/
theorem rests_many_group (s : List Char) :
    (many group).rests s = (group.rests s).flatMap (many group).rests ++ [s] := by
  have hless : ∀ s, ∀ r ∈ group.rests s, r.length < s.length :=
    fun s r hr => length_lt_of_mem_rests hr
  cases s with
  | nil => rfl
  | cons c s =>
    have hrounds : ∀ r ∈ group.rests (c :: s),
        rounds group.rests s.length r = (many group).rests r := by
      intro r hr
      have hlt := hless (c :: s) r hr
      exact rounds_eq_of_le hless (Nat.le_of_lt_succ hlt)
    rw [rests, List.length_cons, rounds, List.flatMap_congr hrounds]

/-- **Digits and groups** are tried from the longest run of parameters on. -/
theorem rests_parameterRun (room : Nat) (s : List Char) :
    ((upTo digit room).rests s).flatMap (many group).rests =
      behind (parameterRun room s) (s.drop (parameterRun room s).length) := by
  induction s generalizing room with
  | nil => cases room <;> rfl
  | cons c s ih =>
    have hsplit : ∀ n, parameterRun n s ++ s.drop (parameterRun n s).length = s :=
      fun n => (List.prefix_append_drop (parameterRun_isPrefix n s)).symm
    by_cases hc : c = ';'
    · -- the digits end here, and the groups begin
      subst hc
      have hdigits : (upTo digit room).rests (';' :: s) = [';' :: s] := by
        cases room <;> simp [upTo, digit]
      have hrun : parameterRun room (';' :: s) = ';' :: parameterRun 4 s := by
        cases room <;> simp [parameterRun]
      rw [hdigits, List.flatMap_singleton, rests_many_group, rests_group_semicolon, ih 4, hrun]
      simp [behind, hsplit]
    · have hstop : (many group).rests (c :: s) = [c :: s] := by
        rw [rests_many_group, rests_group_of_ne hc]
        rfl
      cases room with
      | zero => simp [upTo, hstop, parameterRun, hc, behind]
      | succ room =>
        cases hdigit : c.isDigit with
        | true =>
          have hrun : parameterRun (room + 1) (c :: s) = c :: parameterRun room s := by
            simp [parameterRun, hc, hdigit]
          have hways : (upTo digit (room + 1)).rests (c :: s) =
              (upTo digit room).rests s ++ [c :: s] := by simp [upTo, digit, hdigit]
          rw [hways, List.flatMap_append, ih room, hrun]
          simp [hstop, behind, hsplit]
        | false => simp [upTo, digit, hdigit, hstop, parameterRun, hc, behind]

end Pattern

open Pattern

/-- **Parameters** are tried from the longest list of them on, and left out at last. -/
theorem rests_parameterPattern (s : List Char) :
    (perhaps parameterPattern).rests s =
      behind (parameters s) (s.drop (parameters s).length) := by
  cases s with
  | nil => rfl
  | cons c s =>
    cases hdigit : c.isDigit with
    | false => simp [parameterPattern, digit, hdigit, parameters, behind]
    | true =>
      have hne : c ≠ ';' := by
        rintro rfl
        exact absurd hdigit (by decide)
      have hrun : parameters (c :: s) = c :: parameterRun 3 s := by
        simp [parameters, parameterRun, hdigit, hne]
      have hways : parameterPattern.rests (c :: s) =
          ((upTo digit 3).rests s).flatMap (many group).rests := by
        simp [parameterPattern, digit, hdigit]
      have hsplit : parameterRun 3 s ++ s.drop (parameterRun 3 s).length = s :=
        (List.prefix_append_drop (parameterRun_isPrefix 3 s)).symm
      rw [rests_perhaps, hways, rests_parameterRun, hrun]
      simp [behind, hsplit]

/-! ### The final character -/

/-- What is left of a text when one kind of characters is dropped from its end. -/
theorem rdropWhile_cons {α : Type} (p : α → Bool) (a : α) (s : List α) :
    (a :: s).rdropWhile p =
      if (s.rdropWhile p).isEmpty then (if p a then [] else [a]) else a :: s.rdropWhile p := by
  simp only [List.rdropWhile, List.reverse_cons, List.dropWhile_append, List.isEmpty_reverse]
  split
  · cases ha : p a <;> simp [ha]
  · simp

/-- **The last digit** is taken for the final character if none follows the parameters. -/
theorem head?_final_of_not {run t : List Char} (hrun : ∀ c ∈ run, c = ';' ∨ c.isDigit = true)
    (ht : ∀ c ∈ t.head?, isFinal c = false) :
    ((behind run t).flatMap (one isFinal).rests).head? =
      if (run.rdropWhile (· == ';')).isEmpty then none
      else some ((run ++ t).drop (run.rdropWhile (· == ';')).length) := by
  induction run with
  | nil =>
    cases t with
    | nil => rfl
    | cons c t =>
      have hc := ht c rfl
      simp [behind, hc]
  | cons c run ih =>
    have hrest := ih fun d hd => hrun d (by simp [hd])
    rw [behind, List.flatMap_append, List.head?_append, hrest, rdropWhile_cons]
    cases hempty : (run.rdropWhile (· == ';')).isEmpty with
    | false => simp
    | true =>
      rcases hrun c (by simp) with rfl | hdigit
      · simp [show isFinal ';' = false from rfl]
      · have hne : c ≠ ';' := by
          rintro rfl
          exact absurd hdigit (by decide)
        simp [isFinal_of_isDigit hdigit, hne]

/-- **Parameters and a final character** are found where the scanner finds them. -/
theorem head?_ending (s : List Char) :
    ((seq (perhaps parameterPattern) (one isFinal)).rests s).head? =
      (ending? s).map fun tail => s.drop tail.length := by
  have hprefix := parameters_isPrefix s
  have hsplit : parameters s ++ s.drop (parameters s).length = s :=
    (List.prefix_append_drop hprefix).symm
  have hlast : (∀ c ∈ (s.drop (parameters s).length).head?, isFinal c = false) →
      ((behind (parameters s) (s.drop (parameters s).length)).flatMap (one isFinal).rests).head? =
        (ending?.lastDigit? (parameters s)).map fun tail => s.drop tail.length := by
    intro ht
    rw [head?_final_of_not (fun c hc => mem_parameters hc) ht, hsplit, ending?.lastDigit?]
    cases s with
    | nil => rfl
    | cons c s =>
      cases hdigit : c.isDigit with
      | false => simp [parameters, hdigit]
      | true =>
        have hne : c ≠ ';' := by
          rintro rfl
          exact absurd hdigit (by decide)
        have hrun : parameters (c :: s) = c :: parameterRun 3 s := by
          simp [parameters, parameterRun, hdigit, hne]
        have hsome : ((c :: parameterRun 3 s).rdropWhile (· == ';')).isEmpty = false := by
          rw [rdropWhile_cons]
          split <;> simp [hne]
        rw [hrun, if_neg (by simp [hsome])]
        rfl
  rw [rests_seq, rests_parameterPattern, ending?]
  cases hrest : s.drop (parameters s).length with
  | nil =>
    rw [hrest] at hlast
    exact hlast (by simp)
  | cons c t =>
    rw [hrest] at hlast
    cases hc : isFinal c with
    | false => simpa [hc] using hlast (by simp [hc])
    | true =>
      have hfirst : ((behind (parameters s) (c :: t)).flatMap (one isFinal).rests).head? =
          some t := by
        induction parameters s with
        | nil => simp [behind, hc]
        | cons d run ih => rw [behind, List.flatMap_append, List.head?_append, ih]; rfl
      have hdrop : s.drop (parameters s ++ [c]).length = t := by
        rw [List.length_append, ← List.drop_drop, hrest]
        rfl
      rw [hfirst]
      simp only [hc, if_true, Option.map_some, hdrop]

/-! ### Control sequences -/

/-- **The scanner does what trying the pattern does.**

**Proof sketch.** Behind fewer intermediate characters than there are, the next one is neither a
digit nor a final character, so only the longest run of them is gone on from. Behind it, the first
way with a final character is the one that the scanner takes. -/
theorem match?_controlPattern (s : List Char) : controlPattern.match? s = controlSequence? s := by
  cases s with
  | nil => rfl
  | cons c s =>
    cases hc : isIntroducer c with
    | false => simp [match?, controlPattern, controlSequence?, hc]
    | true =>
      have hmiddle : ∀ d ∈ s.takeWhile isIntermediate, ∀ u,
          (seq (perhaps parameterPattern) (one isFinal)).rests (d :: u) = [] := by
        intro d hd u
        have hfinal := isFinal_of_isIntermediate (List.mem_takeWhile_imp hd)
        have hdigit : d.isDigit = false := by
          by_contra h
          rw [isFinal_of_isDigit (by simpa using h)] at hfinal
          exact absurd hfinal (by decide)
        simp [parameterPattern, digit, hdigit, hfinal]
      have hrests : controlPattern.rests (c :: s) =
          (seq (perhaps parameterPattern) (one isFinal)).rests (s.dropWhile isIntermediate) := by
        rw [controlPattern, rests_seq, rests_one_cons, if_pos hc, List.flatMap_singleton, rests_seq,
          rests_many_one, flatMap_behind hmiddle]
      rw [match?, hrests, head?_ending, controlSequence?, if_pos hc, Option.map_map]
      refine Option.map_congr fun tail htail => ?_
      obtain ⟨⟨rest, hrest⟩, -⟩ := ending?_eq_some htail
      have hword : c :: s = c :: (s.takeWhile isIntermediate ++ tail) ++ rest := by
        rw [List.cons_append, List.append_assoc, hrest, List.takeWhile_append_dropWhile]
      simp only [Function.comp_apply, ← hrest, List.drop_left]
      rw [hword, List.length_append, Nat.add_sub_cancel, List.take_left]

end PaneLayout.Text
