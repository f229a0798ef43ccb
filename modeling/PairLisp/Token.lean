import PairLisp.Error
import PairLisp.Text.Blank

/-!
# Splitting a text into tokens

Tokens have five shapes: a two-character relation, a string in quotes, a sign with the digits
after it, a run of letters and digits, and a single symbol. At each place the first of these
shapes that matches is taken, and it is taken as long as it goes. Blanks separate tokens and
are dropped. A text of a single character is always one token, even if it is a blank.

A text with a place where no shape matches has no tokens: the error names the position of that
place, counted in characters.
-/

namespace PairLisp.Token

/-- A shape of tokens: splits a text that begins with such a token after the token. -/
abbrev Shape := List Char → Option (List Char × List Char)

/-- The relations `<=` and `>=`. -/
def relation : Shape
  | '<' :: '=' :: cs => some (['<', '='], cs)
  | '>' :: '=' :: cs => some (['>', '='], cs)
  | _ => none

/-- All that lies between two quotes, and the quotes. -/
def string (v : Vocabulary) : Shape
  | [] => none
  | c :: cs =>
    if v.isQuote c then
      match cs.dropWhile (!v.isQuote ·) with
      | [] => none
      | close :: rest => some (c :: cs.takeWhile (!v.isQuote ·) ++ [close], rest)
    else none

/-- A sign and at least one digit. -/
def signed (v : Vocabulary) : Shape
  | c :: d :: cs =>
    if v.isSign c && v.isDigit d then
      some (c :: d :: cs.takeWhile v.isDigit, cs.dropWhile v.isDigit)
    else none
  | _ => none

/-- Letters and digits, at least one. -/
def word (v : Vocabulary) : Shape
  | [] => none
  | c :: cs =>
    if v.isWordChar c then some (c :: cs.takeWhile v.isWordChar, cs.dropWhile v.isWordChar)
    else none

/-- One symbol. -/
def symbol (v : Vocabulary) : Shape
  | [] => none
  | c :: cs => if v.isSymbol c then some ([c], cs) else none

/-- The shapes of tokens in the order in which they are tried. -/
def shapes (v : Vocabulary) : List Shape :=
  [relation, string v, signed v, word v, symbol v]

/-- Splits a text after the token that it begins with. -/
def first (v : Vocabulary) : Shape :=
  fun cs => (shapes v).findSome? (· cs)

/-! ## A token is never empty -/

theorem length_dropWhile_le {α : Type} (p : α → Bool) (l : List α) :
    (l.dropWhile p).length ≤ l.length :=
  (List.dropWhile_suffix p).length_le

/-- Each shape takes at least one character off the text. -/
theorem length_lt_of_shape {v : Vocabulary} {shape : Shape} (h : shape ∈ shapes v)
    {cs token rest : List Char} (hs : shape cs = some (token, rest)) :
    rest.length < cs.length := by
  simp only [shapes, List.mem_cons, List.not_mem_nil, or_false] at h
  rcases h with rfl | rfl | rfl | rfl | rfl
  · -- a relation is two characters long
    unfold relation at hs
    split at hs
    · simp only [Option.some.injEq, Prod.mk.injEq] at hs
      rw [← hs.2, List.length_cons, List.length_cons]
      omega
    · simp only [Option.some.injEq, Prod.mk.injEq] at hs
      rw [← hs.2, List.length_cons, List.length_cons]
      omega
    · simp at hs
  · -- a string has its opening quote
    unfold string at hs
    split at hs
    · simp at hs
    · rename_i c cs'
      have hle := length_dropWhile_le (!v.isQuote ·) cs'
      split at hs
      · split at hs
        · simp at hs
        · rename_i close rest' heq
          rw [heq] at hle
          simp at hs hle
          simp [← hs.2]
          omega
      · simp at hs
  · -- a signed numeral has its sign
    unfold signed at hs
    split at hs
    · rename_i c d cs'
      have hle := length_dropWhile_le v.isDigit cs'
      split at hs
      · simp at hs
        simp [← hs.2]
        omega
      · simp at hs
    · simp at hs
  · -- a word has its first character
    unfold word at hs
    split at hs
    · simp at hs
    · rename_i c cs'
      have hle := length_dropWhile_le v.isWordChar cs'
      split at hs
      · simp at hs
        simp [← hs.2]
        omega
      · simp at hs
  · -- a symbol is one character
    unfold symbol at hs
    split at hs
    · simp at hs
    · split at hs <;> simp at hs
      simp [← hs.2]

/-- The lexer moves on with every token. -/
theorem length_lt_of_first {v : Vocabulary} {cs token rest : List Char}
    (h : first v cs = some (token, rest)) : rest.length < cs.length := by
  obtain ⟨shape, hmem, hs⟩ := List.exists_of_findSome?_eq_some h
  exact length_lt_of_shape hmem hs

/-! ## The tokens of a text -/

/-- Why no token begins at the given position, where the text goes on with the given
characters: a quote begins a string that has no end, and any other character is of no class. -/
def failure (v : Vocabulary) (position : Nat) (c : Char) (cs : List Char) : LexicalError :=
  if v.isQuote c then .openString position (String.ofList ((c :: cs).take 10))
  else .unexpectedChar c position

/-- The tokens of a text that begins at the given position. -/
def scan (v : Vocabulary) (position : Nat) (cs : List Char) :
    Except LexicalError (List Token) :=
  match cs with
  | [] => .ok []
  | c :: cs' =>
    if Text.isBlank c then scan v (position + 1) cs'
    else
      match _taken : first v (c :: cs') with
      | none => .error (failure v position c cs')
      | some (token, rest) =>
        (scan v (position + token.length) rest).map (String.ofList token :: ·)
termination_by cs.length
decreasing_by
  · simp
  · exact length_lt_of_first (by assumption)

/-- The tokens of a text in the given vocabulary. -/
def tokenizeIn (v : Vocabulary) (text : String) : Except LexicalError (List Token) :=
  match text.toList with
  | [_] => .ok [text]
  | cs => scan v 0 cs

/-- The tokens of a text of the language. -/
def tokenize (text : String) : Except LexicalError (List Token) :=
  tokenizeIn .standard text

end PairLisp.Token
