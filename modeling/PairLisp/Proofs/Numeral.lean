import PairLisp.Atom

/-!
# Numerals of integers

The atom of an integer is its shortest numeral: its decimal digits, after a minus sign if it is
negative.
-/

namespace PairLisp.Atom

/-- The characters of the numeral of an integer. -/
theorem toList_ofInt (n : Int) :
    (ofInt n).text.toList =
      if 0 ≤ n then Nat.toDigits 10 n.toNat else '-' :: Nat.toDigits 10 (-n).toNat := by
  have hminus : "-".toList = ['-'] := rfl
  unfold ofInt
  rw [Int.toString_eq_repr, Int.repr_eq_if]
  split
  · exact Nat.toList_repr
  · rw [String.toList_append, Nat.toList_repr, hminus, List.singleton_append]

theorem isDigit_of_mem_toDigits {n : Nat} {c : Char} (h : c ∈ Nat.toDigits 10 n) :
    Vocabulary.standard.isDigit c = true := by
  have hdigit : c.isDigit = true := Nat.isDigit_of_mem_toDigits (by decide) (by decide) h
  unfold Char.isDigit at hdigit
  simpa [Vocabulary.standard, Char.le_def] using hdigit

/-- Digits stand for themselves: there is no sign in front of them. -/
theorem unsigned_of_digits {digits : List Char}
    (h : ∀ c ∈ digits, Vocabulary.standard.isDigit c = true) :
    Vocabulary.unsigned digits = digits := by
  unfold Vocabulary.unsigned
  split
  · exact absurd (h '+' List.mem_cons_self) (by decide)
  · exact absurd (h '-' List.mem_cons_self) (by decide)
  · rfl

/-- The atom of an integer is a numeral. -/
theorem isNumeral_ofInt (n : Int) : (ofInt n).isNumeral = true := by
  have hdigits : ∀ m, (!(Nat.toDigits 10 m).isEmpty &&
      (Nat.toDigits 10 m).all Vocabulary.standard.isDigit) = true := by
    intro m
    have hne : (Nat.toDigits 10 m).isEmpty = false := by
      rw [List.isEmpty_eq_false_iff]
      exact Nat.toDigits_ne_nil
    rw [hne, Bool.not_false, Bool.true_and, List.all_eq_true]
    exact fun c hc => isDigit_of_mem_toDigits hc
  unfold isNumeral Vocabulary.isNumeral
  rw [toList_ofInt]
  split
  · dsimp only
    rw [unsigned_of_digits fun c hc => isDigit_of_mem_toDigits hc]
    exact hdigits _
  · exact hdigits _

end PairLisp.Atom
