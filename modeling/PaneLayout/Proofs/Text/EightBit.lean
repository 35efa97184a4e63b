import PaneLayout.Proofs.Json.Literal
import PaneLayout.Proofs.Text.Stripping

set_option autoImplicit false

/-!
# Control sequences inside literals

The printer writes ESC as an escape, but leaves the 8-bit introducer as it is. Stripping a literal
therefore takes those control sequences out of its text that begin with the 8-bit introducer, and
nothing else.

## Main definitions

* `PaneLayout.Text.stripEightBit` — a text without the control sequences of the 8-bit introducer.
* `PaneLayout.Text.Undecorated` — no such control sequence begins in a text.

## Main results

* `PaneLayout.Text.strip_quote_append` — what stripping does to a literal.
* `PaneLayout.Text.stripEightBit_eq_self_iff` — which texts are left as they are.
-/

namespace PaneLayout.Text

/-- Drops `pending` characters and then the control sequences that begin with U+009B. -/
def stripEightBitFrom : Nat → List Char → List Char
  | _, [] => []
  | pending + 1, _ :: s => stripEightBitFrom pending s
  | 0, c :: s =>
    match if c = '\u009b' then controlSequence? (c :: s) else none with
    | some word => stripEightBitFrom (word.length - 1) s
    | none => c :: stripEightBitFrom 0 s

/-- **Stripping the 8-bit control sequences** of a text, from left to right. -/
def stripEightBit (s : List Char) : List Char := stripEightBitFrom 0 s

/-- **Undecorated texts.** No U+009B in the text begins a control sequence. -/
def Undecorated (s : List Char) : Prop :=
  ∀ before after, s = before ++ '\u009b' :: after → controlSequence? ('\u009b' :: after) = none

/-! ### Equations -/

/-- What is pending is dropped. -/
theorem stripEightBitFrom_length_append (x t : List Char) :
    stripEightBitFrom x.length (x ++ t) = stripEightBit t := by
  induction x with
  | nil => rfl
  | cons c x ih => rw [List.length_cons, List.cons_append, stripEightBitFrom, ih]

/-- A control sequence at the start of a text is dropped, if it begins with U+009B. -/
theorem stripEightBit_of_controlSequence? {body t : List Char}
    (h : controlSequence? ('\u009b' :: (body ++ t)) = some ('\u009b' :: body)) :
    stripEightBit ('\u009b' :: (body ++ t)) = stripEightBit t := by
  rw [stripEightBit, stripEightBitFrom, if_pos rfl, h]
  simp [stripEightBitFrom_length_append]

/-- Every other character is kept. -/
theorem stripEightBit_cons {c : Char} {s : List Char}
    (h : c = '\u009b' → controlSequence? (c :: s) = none) :
    stripEightBit (c :: s) = c :: stripEightBit s := by
  rw [stripEightBit, stripEightBitFrom]
  split
  case h_1 word hword =>
    split at hword
    case isTrue hc => simp [h hc] at hword
    case isFalse => simp at hword
  case h_2 => rfl

/-- Stripping drops characters and does nothing else. -/
theorem stripEightBit_sublist (s : List Char) : (stripEightBit s).Sublist s := by
  have hfrom : ∀ (n : Nat) (s : List Char), (stripEightBitFrom n s).Sublist s := by
    intro n s
    induction s generalizing n with
    | nil => cases n <;> exact List.nil_sublist _
    | cons c s ih =>
      cases n with
      | succ n => exact (ih n).cons c
      | zero =>
        rw [stripEightBitFrom]
        split
        · exact (ih _).cons c
        · exact (ih 0).cons_cons c
  exact hfrom 0 s

/-- **A text is left as it is** exactly if it is undecorated. -/
theorem stripEightBit_eq_self_iff {s : List Char} : stripEightBit s = s ↔ Undecorated s := by
  constructor
  · intro h before after hs
    induction s generalizing before with
    | nil => simp at hs
    | cons c s ih =>
      -- dropping anything here would leave a shorter text
      have hkept : c = '\u009b' → controlSequence? (c :: s) = none := by
        rintro rfl
        cases hword : controlSequence? ('\u009b' :: s) with
        | none => rfl
        | some word =>
          obtain ⟨body, rfl, ⟨t, rfl⟩, -, -⟩ := controlSequence?_eq_some hword
          rw [stripEightBit_of_controlSequence? hword] at h
          have hlength := (stripEightBit_sublist t).length_le
          rw [h] at hlength
          simp only [List.length_cons, List.length_append] at hlength
          omega
      rw [stripEightBit_cons hkept, List.cons.injEq] at h
      cases before with
      | nil =>
        obtain ⟨rfl, rfl⟩ := List.cons.inj hs
        exact hkept rfl
      | cons d before =>
        obtain ⟨rfl, rfl⟩ := List.cons.inj hs
        exact ih h.2 before rfl
  · intro h
    induction s with
    | nil => rfl
    | cons c s ih =>
      have hkept : c = '\u009b' → controlSequence? (c :: s) = none := by
        rintro rfl
        exact h [] s rfl
      have hrest := ih fun before after hs => h (c :: before) after (by rw [hs]; rfl)
      rw [stripEightBit_cons hkept, hrest]

/-! ### Literals -/

/-- A character that is written as an escape has no place in a control sequence. -/
theorem of_escape_ne {c : Char} (h : Json.escape c ≠ [c]) :
    isIntermediate c = false ∧ isFinal c = false := by
  have hcontrol : ∀ n < 0x20, isIntermediate (Char.ofNat n) = false ∧
      isFinal (Char.ofNat n) = false := by decide
  by_cases hquote : c = '"'
  · rw [hquote]
    exact ⟨rfl, rfl⟩
  by_cases hbackslash : c = '\\'
  · rw [hbackslash]
    exact ⟨rfl, rfl⟩
  by_cases hlow : c.toNat < 0x20
  · have hc := hcontrol c.toNat hlow
    rwa [Char.ofNat_toNat] at hc
  · exact absurd (Json.escape_eq_self_iff.2 ⟨hquote, hbackslash, by omega⟩) h

/-- Characters that stand for themselves are the literal of their text. -/
theorem flatMap_escape_eq_self {s : List Char} (h : ∀ c ∈ s, Json.escape c = [c]) :
    s.flatMap Json.escape = s := by
  rw [List.flatMap_congr h, List.flatMap_singleton']

/-- **A text up to its first escape.** Its characters up to there stand for themselves; what comes
then is a barrier, in the text as well as in its literal. -/
theorem exists_barrier (s u : List Char) :
    ∃ front back, s = front ++ back ∧ (∀ c ∈ front, Json.escape c = [c]) ∧ Barrier back ∧
      Barrier (back.flatMap Json.escape ++ '"' :: u) := by
  induction s with
  | nil => exact ⟨[], [], rfl, by simp, ⟨by simp, by simp⟩, .of_head rfl rfl⟩
  | cons c s ih =>
    by_cases hc : Json.escape c = [c]
    · obtain ⟨front, back, rfl, hfront, hback, hescaped⟩ := ih
      exact ⟨c :: front, back, rfl, List.forall_mem_cons.2 ⟨hc, hfront⟩, hback, hescaped⟩
    · obtain ⟨tail, htail, -⟩ := Json.escape_of_ne hc
      obtain ⟨hmiddle, hfinal⟩ := of_escape_ne hc
      refine ⟨[], c :: s, rfl, by simp, .of_head hmiddle hfinal, ?_⟩
      rw [List.flatMap_cons, htail]
      exact .of_head rfl rfl

/-- **The same control sequence** begins before a text and before its literal, and what it takes up
of the text stands for itself. -/
theorem controlSequence?_escape (c : Char) (s u : List Char) :
    controlSequence? (c :: (s.flatMap Json.escape ++ '"' :: u)) = controlSequence? (c :: s) ∧
      ∀ word, controlSequence? (c :: s) = some word → ∃ body rest, word = c :: body ∧
        s = body ++ rest ∧ body.flatMap Json.escape = body := by
  obtain ⟨front, back, rfl, hfront, hback, hescaped⟩ := exists_barrier s u
  have htext := controlSequence?_append hback c front
  have hliteral := controlSequence?_append hescaped c front
  constructor
  · rw [htext, ← hliteral, List.flatMap_append, flatMap_escape_eq_self hfront, List.append_assoc]
  · intro word hword
    rw [htext] at hword
    obtain ⟨body, rfl, ⟨rest, rfl⟩, -, -⟩ := controlSequence?_eq_some hword
    refine ⟨body, rest ++ back, rfl, by simp, flatMap_escape_eq_self fun d hd => ?_⟩
    exact hfront d (by simp [hd])

/-- Stripping the literal of a text, from behind its opening quote. -/
theorem strip_escape_append (s u : List Char) :
    strip (s.flatMap Json.escape ++ '"' :: u) =
      (stripEightBit s).flatMap Json.escape ++ '"' :: strip u := by
  -- a control sequence takes up more than one character at a time
  induction hlength : s.length using Nat.strong_induction_on generalizing s with
  | _ n ih =>
    cases s with
    | nil => exact strip_cons (controlSequence?_eq_none rfl u)
    | cons c s =>
      have hshorter : s.length < n := by rw [← hlength]; simp
      obtain ⟨hsame, hbody⟩ := controlSequence?_escape c s u
      by_cases hc : c = '\u009b'
      · subst hc
        have hself : Json.escape '\u009b' = ['\u009b'] := by decide
        rw [List.flatMap_cons, hself, List.singleton_append, List.cons_append]
        cases hword : controlSequence? ('\u009b' :: s) with
        | none =>
          rw [hword] at hsame
          rw [strip_cons hsame, ih s.length hshorter s rfl, stripEightBit_cons fun _ => hword,
            List.flatMap_cons, hself]
          rfl
        | some word =>
          obtain ⟨body, rest, rfl, rfl, hplain⟩ := hbody word hword
          rw [hword, List.flatMap_append, hplain, List.append_assoc] at hsame
          rw [List.flatMap_append, hplain, List.append_assoc, strip_of_controlSequence? hsame,
            stripEightBit_of_controlSequence? hword]
          exact ih rest.length (by simp at hshorter; omega) rest rfl
      · have hescape : ∀ d ∈ Json.escape c, isIntroducer d = false := by
          intro d hd
          obtain ⟨hlow, hsame | hascii⟩ := Json.mem_escape hd
          · exact not_isIntroducer hlow (hsame ▸ hc)
          · refine not_isIntroducer hlow ?_
            rintro rfl
            exact absurd hascii (by decide)
        rw [List.flatMap_cons, List.append_assoc, strip_append_of_forall hescape,
          ih s.length hshorter s rfl, stripEightBit_cons fun heq => absurd heq hc,
          List.flatMap_cons, List.append_assoc]

/-- **Stripping a literal** strips the 8-bit control sequences of its text. -/
theorem strip_quote_append (text : String) (u : List Char) :
    strip (Json.quote text ++ u) =
      Json.quote (String.ofList (stripEightBit text.toList)) ++ strip u := by
  have hquote : Json.quote text ++ u =
      '"' :: (text.toList.flatMap Json.escape ++ '"' :: u) := by simp [Json.quote]
  rw [hquote, strip_cons (controlSequence?_eq_none rfl _), strip_escape_append]
  simp [Json.quote]

end PaneLayout.Text
