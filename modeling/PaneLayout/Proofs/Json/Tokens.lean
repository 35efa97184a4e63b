import PaneLayout.Proofs.Json.Literal

set_option autoImplicit false

/-!
# The tokens of a printed value

The compact form of a value is a row of tokens: punctuation marks, words and string literals. What
holds of the whole text is shown token by token, and a change to the texts in a value changes its
literals and nothing else.

## Main definitions

* `PaneLayout.Json.Token`, `PaneLayout.Json.spell` — tokens and the text they spell.
* `PaneLayout.Json.tokens` — the tokens of a value.
* `PaneLayout.Json.literals` — the texts of the literals among some tokens.
* `PaneLayout.Json.Token.Regular` — punctuation marks and literals.

## Main results

* `PaneLayout.Json.spell_tokens` — the tokens of a value spell its compact form.
* `PaneLayout.Json.mem_spell` — the characters of regular tokens.
-/

namespace PaneLayout.Json

/-- **Tokens.** A punctuation mark, a number or another word, a string literal. -/
inductive Token where
  | mark (c : Char)
  | word (text : List Char)
  | literal (text : String)
  deriving DecidableEq, Repr

namespace Token

/-- The text of a token. -/
def chars : Token → List Char
  | .mark c => [c]
  | .word text => text
  | .literal text => quote text

/-- The text of a literal. -/
def text? : Token → Option String
  | .mark _ => none
  | .word _ => none
  | .literal text => some text

/-- A token with its text changed, if it is a literal. -/
def mapText (f : String → String) : Token → Token
  | .mark c => .mark c
  | .word text => .word text
  | .literal text => .literal (f text)

/-- The punctuation marks of arrays and objects. -/
def punctuation : List Char := ['[', ']', '{', '}', ',', ':']

/-- **Regular tokens**: punctuation marks and literals. -/
def Regular : Token → Prop
  | .mark c => c ∈ punctuation
  | .word _ => False
  | .literal _ => True

end Token

/-- The text that tokens spell. -/
def spell (ts : List Token) : List Char := ts.flatMap Token.chars

/-- The texts of the literals. -/
def literals (ts : List Token) : List String := ts.filterMap Token.text?

@[simp] theorem spell_nil : spell [] = [] := rfl

@[simp] theorem spell_cons (t : Token) (ts : List Token) : spell (t :: ts) = t.chars ++ spell ts :=
  rfl

@[simp] theorem spell_append (ts us : List Token) : spell (ts ++ us) = spell ts ++ spell us :=
  List.flatMap_append

@[simp] theorem literals_nil : literals [] = [] := rfl

@[simp] theorem literals_mark (c : Char) (ts : List Token) :
    literals (.mark c :: ts) = literals ts := rfl

@[simp] theorem literals_literal (text : String) (ts : List Token) :
    literals (.literal text :: ts) = text :: literals ts := rfl

@[simp] theorem literals_append (ts us : List Token) :
    literals (ts ++ us) = literals ts ++ literals us := List.filterMap_append

/-- A text is that of a literal exactly if the literal is there. -/
theorem mem_literals {ts : List Token} {text : String} :
    text ∈ literals ts ↔ Token.literal text ∈ ts := by
  rw [literals, List.mem_filterMap]
  constructor
  · rintro ⟨t, ht, htext⟩
    cases t with
    | mark c => simp [Token.text?] at htext
    | word w => simp [Token.text?] at htext
    | literal s =>
      obtain rfl : s = text := by simpa [Token.text?] using htext
      exact ht
  · exact fun h => ⟨_, h, rfl⟩

/-! ### The tokens of a value -/

mutual

/-- **The tokens of a value.** -/
def tokens : Json → List Token
  | .string s => [.literal s]
  | .array [] => [.mark '[', .mark ']']
  | .array (item :: rest) => .mark '[' :: (tokens item ++ moreItemTokens rest)
  | .object [] => [.mark '{', .mark '}']
  | .object ((key, value) :: rest) =>
    .mark '{' :: .literal key :: .mark ':' :: (tokens value ++ moreMemberTokens rest)
  | v => [.word v.chars]

/-- The tokens of the items of an array after the first, and of its end. -/
def moreItemTokens : List Json → List Token
  | [] => [.mark ']']
  | item :: rest => .mark ',' :: (tokens item ++ moreItemTokens rest)

/-- The tokens of the members of an object after the first, and of its end. -/
def moreMemberTokens : List (String × Json) → List Token
  | [] => [.mark '}']
  | (key, value) :: rest =>
    .mark ',' :: .literal key :: .mark ':' :: (tokens value ++ moreMemberTokens rest)

end

mutual

/-- **The tokens of a value spell its compact form.** -/
theorem spell_tokens : ∀ v : Json, spell v.tokens = v.chars
  | .null => by simp [tokens, Token.chars]
  | .bool b => by simp [tokens, Token.chars]
  | .int n => by simp [tokens, Token.chars]
  | .float x => by simp [tokens, Token.chars]
  | .string s => by simp [tokens, Token.chars, chars]
  | .array [] => rfl
  | .array (item :: rest) => by
    simp [tokens, Token.chars, chars, spell_tokens item, spell_moreItemTokens rest]
  | .object [] => rfl
  | .object ((key, value) :: rest) => by
    simp [tokens, Token.chars, chars, spell_tokens value, spell_moreMemberTokens rest]

/-- The same for the items of an array after the first. -/
theorem spell_moreItemTokens : ∀ vs : List Json, spell (moreItemTokens vs) = moreItems vs
  | [] => rfl
  | item :: rest => by
    simp [moreItemTokens, Token.chars, moreItems, spell_tokens item, spell_moreItemTokens rest]

/-- The same for the members of an object after the first. -/
theorem spell_moreMemberTokens :
    ∀ ms : List (String × Json), spell (moreMemberTokens ms) = moreMembers ms
  | [] => rfl
  | (key, value) :: rest => by
    simp [moreMemberTokens, Token.chars, moreMembers, spell_tokens value,
      spell_moreMemberTokens rest]

end

/-! ### Arrays -/

/-- The items of an array after the first, one by one. -/
theorem moreItemTokens_eq (vs : List Json) :
    moreItemTokens vs = vs.flatMap (fun v => .mark ',' :: v.tokens) ++ [.mark ']'] := by
  induction vs with
  | nil => rfl
  | cons v vs ih => simp [moreItemTokens, ih]

/-- The texts in an array are those in its items. -/
theorem literals_array (vs : List Json) :
    literals (tokens (.array vs)) = vs.flatMap fun v => literals v.tokens := by
  have hmore : ∀ ws : List Json, literals (moreItemTokens ws) =
      ws.flatMap fun v => literals v.tokens := by
    intro ws
    induction ws with
    | nil => rfl
    | cons v ws ih => simp [moreItemTokens, ih]
  cases vs with
  | nil => rfl
  | cons v vs => simp [tokens, hmore]

/-- An array of values with regular tokens has regular tokens. -/
theorem regular_array {vs : List Json} (h : ∀ v ∈ vs, ∀ t ∈ v.tokens, t.Regular) :
    ∀ t ∈ tokens (.array vs), t.Regular := by
  cases vs with
  | nil => simp [tokens, Token.Regular, Token.punctuation]
  | cons v vs =>
    intro t ht
    simp only [tokens, moreItemTokens_eq, List.mem_cons, List.mem_append, List.mem_flatMap,
      List.not_mem_nil, or_false] at ht
    rcases ht with rfl | ht | ⟨w, hw, rfl | ht⟩ | rfl
    · simp [Token.Regular, Token.punctuation]
    · exact h v (by simp) t ht
    · simp [Token.Regular, Token.punctuation]
    · exact h w (by simp [hw]) t ht
    · simp [Token.Regular, Token.punctuation]

/-- If the items of an array change in their literals only, so does the array. -/
theorem tokens_array_map {f : String → String} {g : Json → Json} {vs : List Json}
    (h : ∀ v ∈ vs, (g v).tokens = v.tokens.map (Token.mapText f)) :
    tokens (.array (vs.map g)) = (tokens (.array vs)).map (Token.mapText f) := by
  have hmore : ∀ ws : List Json, (∀ v ∈ ws, (g v).tokens = v.tokens.map (Token.mapText f)) →
      moreItemTokens (ws.map g) = (moreItemTokens ws).map (Token.mapText f) := by
    intro ws hws
    induction ws with
    | nil => rfl
    | cons v ws ih =>
      have hv := hws v (by simp)
      have hrest := ih fun w hw => hws w (by simp [hw])
      simp [moreItemTokens, hv, hrest, Token.mapText]
  cases vs with
  | nil => rfl
  | cons v vs =>
    have hv := h v (by simp)
    have hrest := hmore vs fun w hw => h w (by simp [hw])
    simp [tokens, hv, hrest, Token.mapText]

/-! ### Characters -/

/-- **The characters of regular tokens.** There are no control characters, and beyond ASCII only
those of the texts. -/
theorem mem_spell {ts : List Token} (h : ∀ t ∈ ts, t.Regular) {c : Char} (hc : c ∈ spell ts) :
    0x20 ≤ c.toNat ∧ (c.toNat < 0x80 ∨ ∃ text ∈ literals ts, c ∈ text.toList) := by
  have hmarks : ∀ d ∈ Token.punctuation, 0x20 ≤ d.toNat ∧ d.toNat < 0x80 :=
    forall_mem_of_all (by decide)
  obtain ⟨t, ht, hct⟩ := List.mem_flatMap.1 hc
  have hregular := h t ht
  cases t with
  | mark d =>
    obtain rfl : c = d := by simpa [Token.chars] using hct
    obtain ⟨hlow, hhigh⟩ := hmarks c hregular
    exact ⟨hlow, .inl hhigh⟩
  | word w => exact hregular.elim
  | literal text =>
    have hcases : c = '"' ∨ ∃ d ∈ text.toList, c ∈ escape d := by
      simp only [Token.chars, quote, List.mem_cons, List.mem_append, List.mem_flatMap,
        List.not_mem_nil, or_false] at hct
      grind
    rcases hcases with rfl | ⟨d, hd, hcd⟩
    · exact ⟨by decide, .inl (by decide)⟩
    · obtain ⟨hlow, rfl | hhigh⟩ := mem_escape hcd
      · exact ⟨hlow, .inr ⟨text, mem_literals.2 ht, hd⟩⟩
      · exact ⟨hlow, .inl hhigh⟩

end PaneLayout.Json
