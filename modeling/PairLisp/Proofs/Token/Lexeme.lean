import PairLisp.Proofs.Vocabulary
import PairLisp.Token

/-!
# What the lexer takes for a token

A lexeme is a text that an atom may have, or a bracket or a dot. The lexer splits a text after a
lexeme exactly if the next character does not make the lexeme longer
(`Token.first_eq_some_iff`).

The first character settles what a lexeme looks like, and so it settles what the lexer does. A
letter or a digit begins a run of letters and digits, a sign begins a run of digits, a quote begins
all that goes up to the next quote, and `<` and `>` may have `=` behind them. Each of the other
symbols stands alone, and no other character begins a lexeme. `Start` names these kinds of first
characters. For each of them, `Start.Continues` says what may follow in a lexeme and `Start.split`
what the lexer takes, and `Start.split_eq_some_iff` compares the two.
-/

namespace PairLisp.Token

open Vocabulary

/-- The characters are those of a single token. -/
def IsLexeme (cs : List Char) : Prop := Atom.isText (String.ofList cs) = true

/-- The token is not made longer by the character behind it. -/
def Ends (token rest : List Char) : Prop :=
  ∀ c, rest.head? = some c → ¬ IsLexeme (token ++ [c])

variable {c : Char} {cs a rest : List Char}

/-! ## Runs of characters -/

/-- The longest run of characters with a property, and what is behind it. -/
theorem takeWhile_dropWhile_iff {p : Char → Bool} :
    (cs.takeWhile p = a ∧ cs.dropWhile p = rest) ↔
      cs = a ++ rest ∧ (∀ d ∈ a, p d = true) ∧ ∀ d, rest.head? = some d → p d = false := by
  constructor
  · rintro ⟨rfl, rfl⟩
    refine ⟨List.takeWhile_append_dropWhile.symm, fun d hd => ?_, fun d hd => ?_⟩
    · exact List.all_eq_true.1 List.all_takeWhile d hd
    · have hnone := List.head?_dropWhile_not p cs
      rw [hd] at hnone
      simpa using hnone
  · rintro ⟨rfl, ha, hrest⟩
    have hstop : rest.takeWhile p = [] ∧ rest.dropWhile p = rest := by
      cases rest with
      | nil => simp
      | cons d ds => simp [hrest d rfl]
    rw [List.takeWhile_append_of_pos ha, List.dropWhile_append_of_pos ha, hstop.1, hstop.2,
      List.append_nil]
    exact ⟨rfl, rfl⟩

/-! ## The text of a lexeme -/

/-- A word has at least one character, all of them letters or digits. -/
theorem isWord_ofList : standard.isWord (String.ofList cs) = true ↔
    cs ≠ [] ∧ ∀ c ∈ cs, standard.isWordChar c = true := by
  simp [isWord]

/-- A numeral has at least one digit behind its sign, and nothing else. -/
theorem isNumeral_ofList : standard.isNumeral (String.ofList cs) = true ↔
    unsigned cs ≠ [] ∧ ∀ c ∈ unsigned cs, standard.isDigit c = true := by
  simp [isNumeral]

/-- A string literal has a quote at either end and none in between. -/
theorem isString_ofList : standard.isString (String.ofList cs) = true ↔
    ∃ body, cs = '"' :: (body ++ ['"']) ∧ '"' ∉ body := by
  unfold isString
  rw [String.toList_ofList]
  constructor
  · intro h
    split at h
    · next first rest =>
      split at h
      · next last hlast =>
        obtain ⟨body, rfl⟩ := List.getLast?_eq_some_iff.1 hlast
        rw [List.dropLast_concat] at h
        simp only [Bool.and_eq_true, isQuote_iff, Bool.not_eq_true', List.any_eq_false] at h
        obtain ⟨⟨rfl, rfl⟩, hbody⟩ := h
        exact ⟨body, rfl, fun hmem => hbody _ hmem rfl⟩
      · simp at h
    · simp at h
  · rintro ⟨body, rfl, hbody⟩
    have hnone : body.any standard.isQuote = false := by
      rw [List.any_eq_false]
      intro c hc hquote
      rw [isQuote_iff.1 hquote] at hc
      exact hbody hc
    simp [hnone, isQuote_iff]

/-- The symbols of two characters are `<=` and `>=`. -/
theorem isRelation_ofList : isRelation (String.ofList cs) = true ↔
    cs = ['<', '='] ∨ cs = ['>', '='] := by
  unfold isRelation relations
  rw [List.contains_iff_mem, List.mem_cons, List.mem_singleton, ← String.toList_inj,
    ← String.toList_inj, String.toList_ofList]
  rfl

/-- A symbol of any other kind is a single character. -/
theorem isSymbolToken_ofList : standard.isSymbolToken (String.ofList cs) = true ↔
    ∃ c, cs = [c] ∧ standard.isSymbol c = true := by
  unfold isSymbolToken isSingle
  rw [String.toList_ofList]
  split
  · next c => simp
  · next h =>
    constructor
    · simp
    · rintro ⟨c, rfl, -⟩
      exact absurd rfl (h c)

/-- A lexeme is a word, a numeral, a string literal, or a symbol of two characters or of one. -/
theorem isLexeme_iff : IsLexeme cs ↔
    (cs ≠ [] ∧ ∀ c ∈ cs, standard.isWordChar c = true) ∨
    (unsigned cs ≠ [] ∧ ∀ c ∈ unsigned cs, standard.isDigit c = true) ∨
    (∃ body, cs = '"' :: (body ++ ['"']) ∧ '"' ∉ body) ∨
    (cs = ['<', '='] ∨ cs = ['>', '=']) ∨ ∃ c, cs = [c] ∧ standard.isSymbol c = true := by
  unfold IsLexeme Atom.isText
  rw [Bool.or_eq_true, Bool.or_eq_true, Bool.or_eq_true, Bool.or_eq_true, isWord_ofList,
    isNumeral_ofList, isString_ofList, isRelation_ofList, isSymbolToken_ofList, or_assoc, or_assoc,
    or_assoc]

/-- A lexeme has at least one character. -/
theorem not_isLexeme_nil : ¬ IsLexeme [] := by
  have htext : Atom.isText "" = false := by decide
  unfold IsLexeme
  rw [String.ofList_nil, htext]
  exact Bool.false_ne_true

/-! ## First characters -/

/-- The kinds of characters that a lexeme may begin with. -/
inductive Start where
  | word
  | quote
  | sign
  | angle
  | single
deriving DecidableEq

namespace Start

/-- The kind of a first character. -/
def ofChar? (c : Char) : Option Start :=
  if standard.isWordChar c then some .word
  else if c = '"' then some .quote
  else if c = '+' ∨ c = '-' then some .sign
  else if c = '<' ∨ c = '>' then some .angle
  else if standard.isSymbol c then some .single
  else none

/-- What may follow the first character in a lexeme. -/
def Continues : Start → List Char → Prop
  | .word, cs => ∀ d ∈ cs, standard.isWordChar d = true
  | .quote, cs => ∃ body, cs = body ++ ['"'] ∧ '"' ∉ body
  | .sign, cs => ∀ d ∈ cs, standard.isDigit d = true
  | .angle, cs => cs = [] ∨ cs = ['=']
  | .single, cs => cs = []

/-- What the lexer takes behind the first character, and what it leaves. -/
def split : Start → List Char → Option (List Char × List Char)
  | .word, cs => some (cs.takeWhile standard.isWordChar, cs.dropWhile standard.isWordChar)
  | .quote, cs =>
    match cs.dropWhile (· != '"') with
    | [] => none
    | close :: rest => some (cs.takeWhile (· != '"') ++ [close], rest)
  | .sign, cs => some (cs.takeWhile standard.isDigit, cs.dropWhile standard.isDigit)
  | .angle, '=' :: cs => some (['='], cs)
  | .angle, cs => some ([], cs)
  | .single, cs => some ([], cs)

variable {k : Start}

theorem ofChar?_wordChar (h : standard.isWordChar c = true) : ofChar? c = some .word := if_pos h

/-- Every symbol is of some kind, and all kinds but the quote may stand alone. -/
theorem exists_of_isSymbol (h : standard.isSymbol c = true) :
    ∃ k, ofChar? c = some k ∧ k.Continues [] := by
  obtain ⟨hmem, hplain⟩ := isSymbol_iff.1 h
  have hall : ∀ c ∈ punctuation, c ≠ '"' → standard.isSymbol c = true →
      ofChar? c = some .sign ∨ ofChar? c = some .angle ∨ ofChar? c = some .single :=
    forall_mem_of_all (by decide)
  rcases hall c hmem hplain.1 h with hc | hc | hc
  · exact ⟨.sign, hc, by simp [Continues]⟩
  · exact ⟨.angle, hc, .inl rfl⟩
  · exact ⟨.single, hc, rfl⟩

/-- A lexeme goes on in the way of its first character. -/
theorem exists_of_isLexeme (h : IsLexeme (c :: cs)) : ∃ k, ofChar? c = some k ∧ k.Continues cs := by
  rcases isLexeme_iff.1 h with ⟨-, hall⟩ | ⟨-, hall⟩ | ⟨body, heq, hbody⟩ | heq | ⟨d, heq, hd⟩
  · obtain ⟨hc, hcs⟩ := List.forall_mem_cons.1 hall
    exact ⟨.word, ofChar?_wordChar hc, hcs⟩
  · unfold unsigned at hall
    split at hall
    · next heq =>
      obtain ⟨rfl, rfl⟩ := List.cons.inj heq
      exact ⟨.sign, by decide, hall⟩
    · next heq =>
      obtain ⟨rfl, rfl⟩ := List.cons.inj heq
      exact ⟨.sign, by decide, hall⟩
    · -- a numeral without a sign is a word
      obtain ⟨hc, hcs⟩ := List.forall_mem_cons.1 hall
      exact ⟨.word, ofChar?_wordChar (isWordChar_of_isDigit hc),
        fun d hd => isWordChar_of_isDigit (hcs d hd)⟩
  · obtain ⟨rfl, rfl⟩ := List.cons.inj heq
    exact ⟨.quote, by decide, body, rfl, hbody⟩
  · rcases heq with heq | heq <;>
    · obtain ⟨rfl, rfl⟩ := List.cons.inj heq
      exact ⟨.angle, by decide, .inr rfl⟩
  · obtain ⟨rfl, rfl⟩ := List.cons.inj heq
    exact exists_of_isSymbol hd

/-- What goes on in the way of its first character is a lexeme. -/
theorem isLexeme_of_continues (hc : ofChar? c = some k) (h : k.Continues cs) :
    IsLexeme (c :: cs) := by
  have hsymbol : ∀ {c}, standard.isSymbol c = true → IsLexeme [c] := fun {c} hc =>
    isLexeme_iff.2 (.inr (.inr (.inr (.inr ⟨c, rfl, hc⟩))))
  unfold ofChar? at hc
  split at hc
  · next hword =>
    obtain rfl := Option.some.inj hc
    exact isLexeme_iff.2 (.inl ⟨List.cons_ne_nil c cs, List.forall_mem_cons.2 ⟨hword, h⟩⟩)
  split at hc
  · next hquote =>
    obtain rfl := Option.some.inj hc
    obtain ⟨body, rfl, hbody⟩ := h
    exact isLexeme_iff.2 (.inr (.inr (.inl ⟨body, by rw [hquote], hbody⟩)))
  split at hc
  · next hsign =>
    obtain rfl := Option.some.inj hc
    cases cs with
    | nil => rcases hsign with rfl | rfl <;> exact hsymbol (by decide)
    | cons d ds =>
      have hunsigned : unsigned (c :: d :: ds) = d :: ds := by
        rcases hsign with rfl | rfl <;> rfl
      refine isLexeme_iff.2 (.inr (.inl ?_))
      rw [hunsigned]
      exact ⟨List.cons_ne_nil d ds, h⟩
  split at hc
  · next hangle =>
    obtain rfl := Option.some.inj hc
    rcases h with rfl | rfl
    · rcases hangle with rfl | rfl <;> exact hsymbol (by decide)
    · refine isLexeme_iff.2 (.inr (.inr (.inr (.inl ?_))))
      rcases hangle with rfl | rfl
      · exact .inl rfl
      · exact .inr rfl
  split at hc
  · next hsingle =>
    obtain rfl := Option.some.inj hc
    obtain rfl : cs = [] := h
    exact hsymbol hsingle
  · simp at hc

/-- The first character settles what may follow in a lexeme. -/
theorem isLexeme_cons (hc : ofChar? c = some k) : IsLexeme (c :: cs) ↔ k.Continues cs := by
  refine ⟨fun h => ?_, isLexeme_of_continues hc⟩
  obtain ⟨k', hk', hcs⟩ := exists_of_isLexeme h
  rw [hc] at hk'
  exact Option.some.inj hk' ▸ hcs

/-- The longest run of characters of a kind ends where the next one is not of the kind. -/
theorem split_run {p : Char → Bool} :
    some (cs.takeWhile p, cs.dropWhile p) = some (a, rest) ↔
      cs = a ++ rest ∧ (∀ d ∈ a, p d = true) ∧
        ∀ d, rest.head? = some d → ¬ ∀ e ∈ a ++ [d], p e = true := by
  rw [Option.some.injEq, Prod.mk.injEq, takeWhile_dropWhile_iff]
  refine and_congr_right fun _ => and_congr_right fun ha => forall_congr' fun d =>
    imp_congr_right fun _ => ⟨fun hd hall => ?_, fun hnot => ?_⟩
  · rw [hall d (by simp)] at hd
    exact Bool.noConfusion hd
  · refine Bool.eq_false_iff.2 fun hd => hnot ?_
    exact List.forall_mem_append.2 ⟨ha, by simpa using hd⟩

/-- A string literal goes up to the next quote, and no further. -/
theorem split_quote : Start.quote.split cs = some (a, rest) ↔
    cs = a ++ rest ∧ Start.quote.Continues a ∧
      ∀ d, rest.head? = some d → ¬ Start.quote.Continues (a ++ [d]) := by
  -- the part before the closing quote, which is the first one
  have hrun : ∀ {body rest}, (cs.takeWhile (· != '"') = body ∧ cs.dropWhile (· != '"') =
      '"' :: rest) ↔ cs = body ++ '"' :: rest ∧ '"' ∉ body := by
    intro body rest
    rw [takeWhile_dropWhile_iff]
    refine and_congr_right fun _ => ⟨fun h hmem => ?_, fun h => ⟨fun d hd => ?_, by simp⟩⟩
    · simpa using h.1 _ hmem
    · rw [bne_iff_ne]
      rintro rfl
      exact h hd
  constructor
  · intro h
    unfold split at h
    dsimp only at h
    split at h
    · simp at h
    · next close rest' hdrop =>
      have hclose : close = '"' := by
        have hnone := List.head?_dropWhile_not (· != '"') cs
        rw [hdrop] at hnone
        simpa using hnone
      rw [hclose] at hdrop h
      obtain ⟨rfl, rfl⟩ := Prod.mk.inj (Option.some.inj h)
      obtain ⟨hcs, hbody⟩ := hrun.1 ⟨rfl, hdrop⟩
      refine ⟨by rw [List.append_assoc]; exact hcs, ⟨_, rfl, hbody⟩, ?_⟩
      rintro d - ⟨body, heq, hmem⟩
      -- a longer string would have the closing quote inside
      obtain ⟨rfl, -⟩ := List.append_inj' heq rfl
      exact hmem (by simp)
  · rintro ⟨rfl, ⟨body, rfl, hbody⟩, -⟩
    obtain ⟨htake, hdrop⟩ := hrun.2 ⟨List.append_assoc body ['"'] rest, hbody⟩
    unfold split
    dsimp only
    rw [htake, hdrop]
    rfl

/-- Where there is no `=`, an angle stands alone. -/
theorem split_angle_of_ne (h : cs.head? ≠ some '=') : Start.angle.split cs = some ([], cs) := by
  unfold split
  split <;> simp_all

/-- With a `=` behind it, an angle takes it in. -/
theorem split_angle : Start.angle.split cs = some (a, rest) ↔
    cs = a ++ rest ∧ Start.angle.Continues a ∧
      ∀ d, rest.head? = some d → ¬ Start.angle.Continues (a ++ [d]) := by
  by_cases hcs : cs.head? = some '='
  · obtain ⟨ds, rfl⟩ := List.head?_eq_some_iff.1 hcs
    show some (['='], ds) = some (a, rest) ↔ _
    constructor
    · intro h
      obtain ⟨rfl, rfl⟩ := Prod.mk.inj (Option.some.inj h)
      exact ⟨rfl, .inr rfl, fun d _ => by simp [Continues]⟩
    · rintro ⟨heq, rfl | rfl, hends⟩
      · obtain rfl : '=' :: ds = rest := heq
        exact absurd (.inr rfl) (hends '=' rfl)
      · rw [(List.cons.inj heq).2]
        rfl
  · rw [split_angle_of_ne hcs]
    constructor
    · intro h
      obtain ⟨rfl, rfl⟩ := Prod.mk.inj (Option.some.inj h)
      refine ⟨rfl, .inl rfl, fun d hd => ?_⟩
      rintro (h | h)
      · simp at h
      · rw [hd, (List.cons.inj h).1] at hcs
        exact hcs rfl
    · rintro ⟨rfl, rfl | rfl, -⟩
      · rfl
      · exact absurd rfl hcs

/-- The lexer takes the longest part that may follow the first character. -/
theorem split_eq_some_iff : k.split cs = some (a, rest) ↔
    cs = a ++ rest ∧ k.Continues a ∧ ∀ d, rest.head? = some d → ¬ k.Continues (a ++ [d]) := by
  cases k with
  | word => exact split_run
  | quote => exact split_quote
  | sign => exact split_run
  | angle => exact split_angle
  | single =>
    constructor
    · intro h
      obtain ⟨rfl, rfl⟩ := Prod.mk.inj (Option.some.inj h)
      exact ⟨rfl, rfl, fun d _ => List.cons_ne_nil d []⟩
    · rintro ⟨rfl, rfl, -⟩
      rfl

end Start

/-! ## The first token of a text -/

variable {v : Vocabulary}

/-- The lexer tries the five forms one after the other. -/
theorem first_eq : first v cs =
    (relation cs).or ((string v cs).or ((signed v cs).or ((word v cs).or (symbol v cs)))) := by
  unfold first shapes
  rw [List.findSome?_cons, List.findSome?_cons, List.findSome?_cons, List.findSome?_cons,
    List.findSome?_singleton]
  cases relation cs <;> cases string v cs <;> cases signed v cs <;> cases word v cs <;> rfl

theorem relation_eq_none (h : ¬ (c = '<' ∨ c = '>')) : relation (c :: cs) = none := by
  unfold relation
  split <;> simp_all

theorem string_eq_none (h : v.isQuote c = false) : string v (c :: cs) = none := by
  simp [string, h]

theorem signed_eq_none (h : v.isSign c = false) : signed v (c :: cs) = none := by
  cases cs <;> simp [signed, h]

theorem word_eq_none (h : v.isWordChar c = false) : word v (c :: cs) = none := by
  simp [word, h]

theorem symbol_eq_none (h : v.isSymbol c = false) : symbol v (c :: cs) = none := by
  simp [symbol, h]

/-- A letter or a digit begins the longest run of letters and digits. -/
theorem first_word (h : standard.isWordChar c = true) : first .standard (c :: cs) =
    some (c :: cs.takeWhile standard.isWordChar, cs.dropWhile standard.isWordChar) := by
  have hplain : c ∉ punctuation := not_mem_punctuation_of_isWordChar h
  have hangle : ¬ (c = '<' ∨ c = '>') := by
    rintro (rfl | rfl) <;> exact hplain (by decide)
  have hquote : standard.isQuote c = false := by
    refine Bool.eq_false_iff.2 fun hc => hplain ?_
    rw [isQuote_iff.1 hc]
    decide
  have hsign : standard.isSign c = false := by
    refine Bool.eq_false_iff.2 fun hc => hplain ?_
    rcases isSign_iff.1 hc with rfl | rfl <;> decide
  have htake : word standard (c :: cs) =
      some (c :: cs.takeWhile standard.isWordChar, cs.dropWhile standard.isWordChar) := if_pos h
  rw [first_eq, relation_eq_none hangle, string_eq_none hquote, signed_eq_none hsign, htake]
  rfl

/-- A quote begins a string literal, or nothing if there is no other quote. -/
theorem first_quote : first .standard ('"' :: cs) =
    (Start.quote.split cs).map fun (a, rest) => ('"' :: a, rest) := by
  have htake : string standard ('"' :: cs) =
      (Start.quote.split cs).map fun (a, rest) => ('"' :: a, rest) := by
    show (match cs.dropWhile (· != '"') with
      | [] => none
      | close :: rest => some ('"' :: cs.takeWhile (· != '"') ++ [close], rest)) = _
    unfold Start.split
    dsimp only
    split <;> rfl
  rw [first_eq, relation_eq_none (by decide), htake, signed_eq_none (by decide),
    word_eq_none (by decide), symbol_eq_none (by decide)]
  cases Start.quote.split cs <;> rfl

/-- A sign without digits behind it is a symbol. -/
theorem first_sign (h : c = '+' ∨ c = '-') : first .standard (c :: cs) =
    some (c :: cs.takeWhile standard.isDigit, cs.dropWhile standard.isDigit) := by
  have hangle : ¬ (c = '<' ∨ c = '>') := by rcases h with rfl | rfl <;> decide
  have hquote : standard.isQuote c = false := by rcases h with rfl | rfl <;> decide
  have hsign : standard.isSign c = true := by rcases h with rfl | rfl <;> decide
  have hword : standard.isWordChar c = false := by rcases h with rfl | rfl <;> decide
  have hsymbol : standard.isSymbol c = true := by rcases h with rfl | rfl <;> decide
  rw [first_eq, relation_eq_none hangle, string_eq_none hquote, word_eq_none hword]
  cases cs with
  | nil => simp [signed, symbol, hsymbol]
  | cons d ds =>
    cases hd : standard.isDigit d with
    | true => simp [signed, hsign, hd]
    | false => simp [signed, symbol, hsymbol, hd]

/-- A character that begins nothing longer is a token if it is a symbol. -/
theorem first_symbol (hword : standard.isWordChar c = false) (hquote : standard.isQuote c = false)
    (hsign : standard.isSign c = false) (hrelation : relation (c :: cs) = none) :
    first .standard (c :: cs) = if standard.isSymbol c then some ([c], cs) else none := by
  rw [first_eq, hrelation, string_eq_none hquote, signed_eq_none hsign, word_eq_none hword]
  rfl

/-- An angle begins a symbol of one character or of two. -/
theorem first_angle (h : c = '<' ∨ c = '>') : first .standard (c :: cs) =
    (Start.angle.split cs).map fun (a, rest) => (c :: a, rest) := by
  by_cases hcs : cs.head? = some '='
  · obtain ⟨ds, rfl⟩ := List.head?_eq_some_iff.1 hcs
    rcases h with rfl | rfl <;> rfl
  · have hrelation : relation (c :: cs) = none := by
      unfold relation
      split <;> simp_all
    rw [Start.split_angle_of_ne hcs]
    rcases h with rfl | rfl <;>
      exact first_symbol (by decide) (by decide) (by decide) hrelation

/-- What the lexer takes is settled by the first character. -/
theorem first_cons : first .standard (c :: cs) =
    (Start.ofChar? c).bind fun k => (k.split cs).map fun (a, rest) => (c :: a, rest) := by
  unfold Start.ofChar?
  split
  · next h => exact first_word h
  next hword =>
  split
  · next hquote =>
    subst hquote
    exact first_quote
  next hquote =>
  split
  · next hsign => exact first_sign hsign
  next hsign =>
  split
  · next hangle => exact first_angle hangle
  next hangle =>
  rw [first_symbol (Bool.eq_false_iff.2 hword) (Bool.eq_false_iff.2 (mt isQuote_iff.1 hquote))
    (Bool.eq_false_iff.2 (mt isSign_iff.1 hsign)) (relation_eq_none hangle)]
  split <;> rfl

/-- The lexer takes a text for a token with something behind it exactly if the text is a lexeme
that the next character does not make longer. -/
theorem first_eq_some_iff : first .standard cs = some (a, rest) ↔
    cs = a ++ rest ∧ IsLexeme a ∧ Ends a rest := by
  constructor
  · intro h
    cases cs with
    | nil =>
      have hnone : first .standard [] = none := rfl
      rw [hnone] at h
      simp at h
    | cons c cs =>
      rw [first_cons] at h
      obtain ⟨k, hk, h⟩ := Option.bind_eq_some_iff.1 h
      obtain ⟨⟨a', rest'⟩, hsplit, heq⟩ := Option.map_eq_some_iff.1 h
      obtain ⟨rfl, rfl⟩ := Prod.mk.inj heq
      obtain ⟨rfl, ha, hends⟩ := Start.split_eq_some_iff.1 hsplit
      exact ⟨rfl, (Start.isLexeme_cons hk).2 ha,
        fun d hd hlexeme => hends d hd ((Start.isLexeme_cons hk).1 hlexeme)⟩
  · rintro ⟨rfl, ha, hends⟩
    cases a with
    | nil => exact absurd ha not_isLexeme_nil
    | cons c a =>
      obtain ⟨k, hk, hcontinues⟩ := Start.exists_of_isLexeme ha
      have hsplit : k.split (a ++ rest) = some (a, rest) := Start.split_eq_some_iff.2
        ⟨rfl, hcontinues, fun d hd h => hends d hd ((Start.isLexeme_cons hk).2 h)⟩
      rw [List.cons_append, first_cons, hk, Option.bind_some, hsplit]
      rfl

end PairLisp.Token
