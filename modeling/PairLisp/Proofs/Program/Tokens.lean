import PairLisp.Program
import PairLisp.Proofs.Comment.Scan

/-!
# The tokens of a program

The tokens of a program are those that the text is written with when its comments are taken out
(`Program.tokens_eq_ok_iff`). The one exception is a program of which a single character is left
that is no letter, no digit and no symbol: it has this character for a token, although no text is
written with it. `Program.tokens_eq_ok_iff_reads` takes in both.
-/

namespace PairLisp.Program

open Token

variable {text : String} {kept : List Char} {ts : List Token}

/-- All that is left of the program is a single character that is no letter, no digit and no
symbol. -/
def IsStrayCharacter (text : String) : Prop :=
  ∃ code c, Comment.strip text = .ok code ∧ (Text.trim code).toList = [c] ∧
    Vocabulary.standard.isWordChar c = false ∧ Vocabulary.standard.isSymbol c = false

/-- A program of which any number of characters but one is left is no stray character. -/
theorem not_isStrayCharacter_of_length {code : String} (h : Comment.strip text = .ok code)
    (hlength : (Text.trim code).toList.length ≠ 1) : ¬ IsStrayCharacter text := by
  rintro ⟨code', c, hcode, htrim, -⟩
  obtain rfl : code = code' := Except.ok.inj (h.symm.trans hcode)
  exact hlength (congrArg List.length htrim)

/-- The tokens of a program are those of the text without comments and blanks at the ends. -/
theorem tokens_of_scan (h : Comment.scan .code 1 text.toList = .ok kept) :
    tokens text = tokenize (String.ofList (Text.trimChars kept)) := by
  have hstrip : Comment.strip text = .ok (String.ofList kept) := by
    rw [Comment.strip_eq_ok_iff, String.toList_ofList]
    exact h
  unfold tokens
  rw [hstrip, ok_bind, Text.trim, String.toList_ofList]

/-- A program has the tokens that it is written with when its comments are taken out. -/
theorem tokens_of_written (hscan : Comment.scan .code 1 text.toList = .ok kept)
    (h : Written kept ts) : tokens text = .ok ts := by
  rw [tokens_of_scan hscan]
  exact tokenize_of_written h

/-- The tokens of a program are those of what is left when its comments are taken out. -/
theorem tokens_eq_ok_iff_reads :
    tokens text = .ok ts ↔
      ∃ kept, Comment.scan .code 1 text.toList = .ok kept ∧ Reads kept ts := by
  constructor
  · intro h
    obtain ⟨code, hcode, -⟩ := bind_eq_ok.1 h
    have hscan := Comment.strip_eq_ok_iff.1 hcode
    rw [tokens_of_scan hscan] at h
    exact ⟨code.toList, hscan, tokenize_trimChars_iff.1 h⟩
  · rintro ⟨kept, hscan, hreads⟩
    rw [tokens_of_scan hscan]
    exact tokenize_trimChars_iff.2 hreads

/-- A program has these tokens if it writes them between its comments. -/
theorem tokens_eq_ok_iff (hstray : ¬ IsStrayCharacter text) :
    tokens text = .ok ts ↔
      ∃ kept, Comment.scan .code 1 text.toList = .ok kept ∧ Written kept ts := by
  refine ⟨fun h => ?_, fun ⟨kept, hscan, hwritten⟩ => tokens_of_written hscan hwritten⟩
  obtain ⟨kept, hscan, hwritten | ⟨c, honly, hlexeme, -⟩⟩ := tokens_eq_ok_iff_reads.1 h
  · exact ⟨kept, hscan, hwritten⟩
  · have hstrip : Comment.strip text = .ok (String.ofList kept) := by
      rw [Comment.strip_eq_ok_iff, String.toList_ofList]
      exact hscan
    have htrim : (Text.trim (String.ofList kept)).toList = [c] := by
      unfold Text.trim
      rw [String.toList_ofList, String.toList_ofList]
      exact Text.trimChars_eq_singleton.2 honly
    -- the character would be a token of its own if it were of another kind
    rw [isLexeme_singleton, not_or, Bool.not_eq_true, Bool.not_eq_true] at hlexeme
    exact absurd ⟨_, c, hstrip, htrim, hlexeme⟩ hstray

end PairLisp.Program
