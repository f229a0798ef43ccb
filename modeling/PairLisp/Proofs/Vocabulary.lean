import PairLisp.Text.Blank
import PairLisp.Vocabulary

/-!
# Character classes of the language

The characters that have a meaning of their own (brackets, the dot, the operators, the quote and
the marks of comments) are no letters and no digits, and a blank is none of all these. So the
first character of a token settles what kind of token it is.
-/

namespace PairLisp

namespace Text

/-- The code points of the blanks, one by one. -/
def blankCodes : List Nat :=
  [0x09, 0x0A, 0x0B, 0x0C, 0x0D, 0x20, 0x85, 0xA0, 0x1680, 0x2000, 0x2001, 0x2002, 0x2003, 0x2004,
    0x2005, 0x2006, 0x2007, 0x2008, 0x2009, 0x200A, 0x2028, 0x2029, 0x202F, 0x205F, 0x3000]

variable {c : Char}

/-- A blank has one of finitely many codes. -/
theorem mem_blankCodes (h : isBlank c = true) : c.toNat ∈ blankCodes := by
  unfold isBlank at h
  simp only [Bool.or_eq_true, Bool.and_eq_true, decide_eq_true_eq, beq_iff_eq] at h
  unfold blankCodes
  simp only [List.mem_cons, List.not_mem_nil, or_false]
  omega

/-- No blank is a letter. -/
theorem isAlphabetic_of_isBlank (h : isBlank c = true) : isAlphabetic c = false := by
  have hcodes : ∀ n ∈ blankCodes, inSortedRanges n alphabeticRanges = false := by decide +kernel
  exact hcodes _ (mem_blankCodes h)

end Text

namespace Vocabulary

/-- The characters that have a meaning of their own. -/
def punctuation : List Char :=
  ['(', '[', '\x7b', ')', ']', '\x7d', '.', '"', ';', '#', '|'] ++ operators

variable {c : Char}

/-- What is checked of the characters of a list one by one holds of all of them. -/
theorem forall_mem_of_all {p : Char → Prop} [DecidablePred p] {cs : List Char}
    (h : (cs.all fun c => decide (p c)) = true) : ∀ c ∈ cs, p c :=
  fun c hc => of_decide_eq_true (List.all_eq_true.1 h c hc)

/-- Punctuation is neither a letter nor a digit. -/
theorem isWordChar_of_mem_punctuation (h : c ∈ punctuation) : standard.isWordChar c = false := by
  have hall : ∀ c ∈ punctuation, standard.isWordChar c = false :=
    forall_mem_of_all (by decide)
  exact hall c h

theorem not_mem_punctuation_of_isWordChar (h : standard.isWordChar c = true) :
    c ∉ punctuation := by
  intro hmem
  rw [isWordChar_of_mem_punctuation hmem] at h
  exact Bool.noConfusion h

/-- Punctuation is not blank. -/
theorem not_mem_punctuation_of_isBlank (h : Text.isBlank c = true) : c ∉ punctuation := by
  have hall : ∀ c ∈ punctuation, ¬ Text.isBlank c = true := forall_mem_of_all (by decide)
  exact fun hmem => hall c hmem h

/-- A blank is neither a letter nor a digit. -/
theorem isWordChar_of_isBlank (h : Text.isBlank c = true) : standard.isWordChar c = false := by
  have hdigit : standard.isDigit c = false := by
    have hall : ∀ n ∈ Text.blankCodes, ¬ (0x30 ≤ n ∧ n ≤ 0x39) := by decide
    have hcode := hall _ (Text.mem_blankCodes h)
    rw [Bool.eq_false_iff]
    intro hdigit
    refine hcode ?_
    simpa [standard, Char.le_def, UInt32.le_iff_toNat_le] using hdigit
  unfold isWordChar
  rw [hdigit, Bool.or_false]
  exact Text.isAlphabetic_of_isBlank h

/-- A digit is a character of words. -/
theorem isWordChar_of_isDigit (h : standard.isDigit c = true) : standard.isWordChar c = true := by
  unfold isWordChar
  rw [h, Bool.or_true]

theorem isQuote_iff : standard.isQuote c = true ↔ c = '"' := by simp [standard]

theorem isSign_iff : standard.isSign c = true ↔ c = '+' ∨ c = '-' := by simp [standard]

/-- The character is neither the quote nor one of a mark of comments. -/
def Plain (c : Char) : Prop := c ≠ '"' ∧ c ≠ ';' ∧ c ≠ '#' ∧ c ≠ '|'

instance : DecidablePred Plain := fun _ => inferInstanceAs (Decidable (_ ∧ _ ∧ _ ∧ _))

/-- All characters but punctuation are plain. -/
theorem plain_of_not_mem_punctuation (h : c ∉ punctuation) : Plain c := by
  refine ⟨?_, ?_, ?_, ?_⟩ <;>
  · rintro rfl
    exact h (by decide)

theorem plain_of_isWordChar (h : standard.isWordChar c = true) : Plain c :=
  plain_of_not_mem_punctuation (not_mem_punctuation_of_isWordChar h)

theorem plain_of_isBlank (h : Text.isBlank c = true) : Plain c :=
  plain_of_not_mem_punctuation (not_mem_punctuation_of_isBlank h)

/-- The symbols are the other characters with a meaning of their own. -/
theorem isSymbol_iff : standard.isSymbol c = true ↔ c ∈ punctuation ∧ Plain c := by
  constructor
  · intro h
    have hc : c ∈ ['(', '[', '\x7b', ')', ']', '\x7d', '.'] ++ operators := by
      simpa [isSymbol, standard, or_assoc] using h
    have hall : ∀ c ∈ ['(', '[', '\x7b', ')', ']', '\x7d', '.'] ++ operators,
        c ∈ punctuation ∧ Plain c := forall_mem_of_all (by decide)
    exact hall c hc
  · have hall : ∀ c ∈ punctuation, Plain c → standard.isSymbol c = true :=
      forall_mem_of_all (by decide)
    exact fun h => hall c h.1 h.2

/-- The characters of all classes: the blanks, the letters, the digits and the symbols. -/
def Classified (c : Char) : Prop :=
  Text.isBlank c = true ∨ standard.isWordChar c = true ∨ standard.isSymbol c = true

instance : DecidablePred Classified := fun _ => inferInstanceAs (Decidable (_ ∨ _ ∨ _))

theorem isBlank_of_isWordChar (h : standard.isWordChar c = true) : Text.isBlank c = false := by
  refine Bool.eq_false_iff.2 fun hblank => ?_
  rw [isWordChar_of_isBlank hblank] at h
  exact Bool.noConfusion h

/-- A symbol is not blank. -/
theorem isBlank_of_isSymbol (h : standard.isSymbol c = true) : Text.isBlank c = false :=
  Bool.eq_false_iff.2 fun hblank => not_mem_punctuation_of_isBlank hblank (isSymbol_iff.1 h).1

/-! ## Brackets and dots -/

variable {t : Token}

/-- A bracket or a dot is a single character. -/
theorem exists_of_isStructural (h : standard.isStructural t = true) :
    ∃ c, t.toList = [c] ∧ c ∈ punctuation := by
  have hsingle : ∀ {p : Char → Bool}, (∀ c, p c = true → c ∈ punctuation) →
      isSingle p t = true → ∃ c, t.toList = [c] ∧ c ∈ punctuation := by
    intro p hp ht
    unfold isSingle at ht
    split at ht
    · next c heq => exact ⟨c, heq, hp c ht⟩
    · simp at ht
  unfold isStructural at h
  rw [Bool.or_eq_true, Bool.or_eq_true] at h
  rcases h with (h | h) | h
  · refine hsingle (fun c hc => ?_) h
    simp only [Bool.or_eq_true, beq_iff_eq] at hc
    rcases hc with (rfl | rfl) | rfl <;> decide
  · refine hsingle (fun c hc => ?_) h
    simp only [Bool.or_eq_true, beq_iff_eq] at hc
    rcases hc with (rfl | rfl) | rfl <;> decide
  · refine hsingle (fun c hc => ?_) h
    simp only [beq_iff_eq] at hc
    subst hc
    decide

/-- A word is neither a bracket nor a dot. -/
theorem isStructural_of_isWord (h : standard.isWord t = true) :
    standard.isStructural t = false := by
  refine Bool.eq_false_iff.2 fun hstructural => ?_
  obtain ⟨c, hc, hmem⟩ := exists_of_isStructural hstructural
  simp [isWord, hc, isWordChar_of_mem_punctuation hmem] at h

theorem isStructural_of_isNumeral (h : standard.isNumeral t = true) :
    standard.isStructural t = false := by
  refine Bool.eq_false_iff.2 fun hstructural => ?_
  obtain ⟨c, hc, hmem⟩ := exists_of_isStructural hstructural
  have hall : ∀ c ∈ punctuation, standard.isNumeral (String.ofList [c]) = false :=
    forall_mem_of_all (by decide)
  rw [← String.ofList_toList (s := t), hc, hall c hmem] at h
  exact Bool.noConfusion h

/-! ## Names -/

/-- A digit is no letter. -/
theorem isLetter_of_isDigit (h : standard.isDigit c = true) : standard.isLetter c = false := by
  have hcodes : ∀ n ∈ List.range' 0x30 10, Text.inSortedRanges n Text.alphabeticRanges = false := by
    decide +kernel
  have hcode : 0x30 ≤ c.toNat ∧ c.toNat ≤ 0x39 := by
    simpa [standard, Char.le_def, UInt32.le_iff_toNat_le] using h
  exact hcodes c.toNat (List.mem_range'_1.2 ⟨hcode.1, Nat.lt_succ_of_le hcode.2⟩)

/-- What holds of both signs and of all characters behind a sign holds of all characters. -/
theorem forall_mem_of_unsigned {p : Char → Prop} {cs : List Char} (hplus : p '+') (hminus : p '-')
    (h : ∀ c ∈ unsigned cs, p c) : ∀ c ∈ cs, p c := by
  unfold unsigned at h
  split at h
  · exact List.forall_mem_cons.2 ⟨hplus, h⟩
  · exact List.forall_mem_cons.2 ⟨hminus, h⟩
  · exact h

/-- Where no sign stands in front, none is taken off. -/
theorem unsigned_of_head? {cs : List Char} (hplus : cs.head? ≠ some '+')
    (hminus : cs.head? ≠ some '-') : unsigned cs = cs := by
  unfold unsigned
  split
  · exact absurd rfl hplus
  · exact absurd rfl hminus
  · rfl

/-- A name is a word. -/
theorem isWord_of_isName (h : standard.isName t = true) : standard.isWord t = true := by
  unfold isName at h
  unfold isWord
  split at h
  · next first rest ht =>
    rw [Bool.and_eq_true] at h
    have hfirst : standard.isWordChar first = true := by
      unfold isWordChar
      rw [h.1, Bool.true_or]
    simp [ht, hfirst, h.2]
  · simp at h

/-- A character is a letter if its lower case is one. -/
theorem isLetter_of_toLower (h : standard.isLetter c.toLower = true) :
    standard.isLetter c = true := by
  unfold Char.toLower at h
  split at h
  · next hupper =>
    refine Text.isAlphabetic_of_asciiLetter (.inl ?_)
    simpa [UInt32.le_iff_toNat_le] using hupper
  · exact h

/-- Letters alone make a name. -/
theorem isName_of_letters (hne : t.toList ≠ [])
    (h : ∀ c ∈ t.toList, standard.isLetter c = true) : standard.isName t = true := by
  unfold isName
  split
  · next first rest ht =>
    rw [ht, List.forall_mem_cons] at h
    rw [h.1, Bool.true_and, List.all_eq_true]
    intro c hc
    unfold isWordChar
    rw [h.2 c hc, Bool.true_or]
  · next ht => exact absurd ht hne

/-- No string is a name, as a string begins with a quote. -/
theorem not_isName_of_isString (h : standard.isString t = true) : ¬ standard.isName t = true := by
  unfold isString at h
  unfold isName
  split at h
  · next first rest ht =>
    have hquote : standard.isQuote first = true := by
      split at h
      · rw [Bool.and_eq_true, Bool.and_eq_true] at h
        exact h.1.1
      · simp at h
    have hletter : standard.isLetter first = false := by
      rw [isQuote_iff.1 hquote]
      decide
    simp [hletter]
  · simp at h

/-- No name is a numeral, as a numeral begins with a sign or a digit. -/
theorem isNumeral_of_isName (h : standard.isName t = true) : standard.isNumeral t = false := by
  unfold isName at h
  split at h
  · next first rest ht =>
    rw [Bool.and_eq_true] at h
    have hdigit : standard.isDigit first = false := by
      refine Bool.eq_false_iff.2 fun hdigit => ?_
      rw [isLetter_of_isDigit hdigit] at h
      exact Bool.noConfusion h.1
    have hsign : ∀ sign, standard.isLetter sign = false →
        (first :: rest).head? ≠ some sign := by
      intro sign hnone heq
      rw [Option.some.inj heq, hnone] at h
      exact Bool.noConfusion h.1
    have hunsigned : unsigned (first :: rest) = first :: rest :=
      unsigned_of_head? (hsign '+' (by decide)) (hsign '-' (by decide))
    simp [isNumeral, ht, hunsigned, hdigit]
  · simp at h

/-- A numeral is no name, since a name begins with a letter. -/
theorem not_isName_of_isNumeral (h : standard.isNumeral t = true) : ¬ standard.isName t = true := by
  intro hname
  rw [isNumeral_of_isName hname] at h
  exact Bool.false_ne_true h

end Vocabulary

end PairLisp
