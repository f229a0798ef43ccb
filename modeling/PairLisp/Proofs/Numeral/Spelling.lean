import Mathlib.Data.List.Induction
import Mathlib.Tactic.IntervalCases
import PairLisp.Proofs.Numeral
import PairLisp.Proofs.SExpr.Printed

/-!
# Spellings of a number

A number has many numerals: a plus sign may stand in front of the digits and zeros in front of other
digits, and zero may have a minus sign. A printed numeral has no plus sign, but the rest stays. So two
numerals of one number need not print alike, and they do if both are as short as possible
(`Atom.withoutPlus_of_shortest`).

However it is spelled, a numeral has no letters, so it is not one of the truth values
(`Atom.truth?_of_isNumeral`).
-/

namespace PairLisp

open Vocabulary

/-! ## Digits -/

/-- A decimal digit is that of the number which it stands for. -/
theorem digitChar_of_isDigit {c : Char} (h : standard.isDigit c = true) :
    c.toNat - '0'.toNat < 10 ∧ Nat.digitChar (c.toNat - '0'.toNat) = c := by
  have hbounds : 48 ≤ c.toNat ∧ c.toNat ≤ 57 := by
    simpa [standard, Char.le_def, UInt32.le_iff_toNat_le] using h
  have hzero : '0'.toNat = 48 := rfl
  rw [hzero]
  refine ⟨by omega, ?_⟩
  rw [← Char.ofNat_toNat c]
  generalize c.toNat = k at hbounds
  obtain ⟨hlow, hhigh⟩ := hbounds
  interval_cases k <;> rfl

theorem toLower_of_isDigit {c : Char} (h : standard.isDigit c = true) : c.toLower = c := by
  obtain ⟨hlt, hchar⟩ := digitChar_of_isDigit h
  have hall : ∀ n < 10, (Nat.digitChar n).toLower = Nat.digitChar n := by decide
  rw [← hchar]
  exact hall _ hlt

theorem mem_unsigned_of_mem {c : Char} {cs : List Char} (h : c ∈ cs) :
    c = '+' ∨ c = '-' ∨ c ∈ unsigned cs := by
  unfold unsigned
  split
  · exact (List.mem_cons.1 h).imp id .inr
  · exact .inr (List.mem_cons.1 h)
  · exact .inr (.inr h)

/-- A digit behind others counts once, and these count ten times as much as they did alone. -/
theorem ofDigits_concat (front : List Char) (c : Char) : Integer.ofDigits (front ++ [c]) =
    10 * Integer.ofDigits front + (c.toNat - '0'.toNat) := by
  unfold Integer.ofDigits
  rw [Nat.ofDigitChars_append, Nat.ofDigitChars_cons, Nat.ofDigitChars_nil]

/-- Digits without a needless zero in front are the digits of the number that they stand for. -/
theorem toDigits_ofDigits {digits : List Char} (hne : digits ≠ [])
    (hdigits : ∀ c ∈ digits, standard.isDigit c = true)
    (hzero : digits.head? = some '0' → digits = ['0']) :
    Nat.toDigits 10 (Integer.ofDigits digits) = digits := by
  induction digits using List.reverseRecOn with
  | nil => exact absurd rfl hne
  | append_singleton front c ih =>
    obtain ⟨hlt, hchar⟩ := digitChar_of_isDigit (hdigits c (by simp))
    have hlast : Nat.toDigits 10 (c.toNat - '0'.toNat) = [c] := by
      rw [Nat.toDigits_of_lt_base hlt, hchar]
    rw [ofDigits_concat]
    cases front with
    | nil =>
      have hnone : Integer.ofDigits [] = 0 := rfl
      rw [hnone, Nat.mul_zero, Nat.zero_add, hlast]
      rfl
    | cons d ds =>
      -- with a digit behind it, the first digit is not zero
      have hfirst : d ≠ '0' := by
        rintro rfl
        have hsingle := congrArg List.length (hzero rfl)
        simp at hsingle
      have hfront : Nat.toDigits 10 (Integer.ofDigits (d :: ds)) = d :: ds := by
        refine ih (List.cons_ne_nil d ds) (fun c hc => hdigits c (List.mem_append_left _ hc)) ?_
        exact fun hhead => absurd (Option.some.inj hhead) hfirst
      have hpos : 0 < Integer.ofDigits (d :: ds) := by
        refine Nat.pos_of_ne_zero fun h => hfirst ?_
        rw [h, Nat.toDigits_zero] at hfront
        exact (List.cons.inj hfront).1.symm
      rw [← Nat.toDigits_append_toDigits (by decide) hpos hlt, hfront, hlast]

namespace Atom

variable {a : Atom} {n : Int} {digits : List Char}

theorem ofNumeral_of_digits (h : ∀ c ∈ digits, standard.isDigit c = true) :
    Integer.ofNumeral digits = Integer.ofDigits digits := by
  unfold Integer.ofNumeral
  split
  · exact absurd (h '-' List.mem_cons_self) (by decide)
  · exact absurd (h '+' List.mem_cons_self) (by decide)
  · rfl

/-- A numeral is no truth value, as it has no letters of either case. -/
theorem truth?_of_isNumeral (h : a.isNumeral = true) : a.truth? = none := by
  have hlower : ∀ c ∈ a.text.toList, c.toLower = c := by
    intro c hc
    rcases mem_unsigned_of_mem hc with rfl | rfl | hmem
    · decide
    · decide
    · exact toLower_of_isDigit ((digits_of_isNumeral h).2 c hmem)
  have hword : ∀ cs, standard.isNumeral (String.ofList cs) = false → a.text.toList ≠ cs := by
    rintro cs hcs rfl
    rw [String.ofList_toList] at hcs
    exact Bool.false_ne_true (hcs.symm.trans h)
  unfold truth?
  rw [List.map_congr_left hlower, List.map_id']
  split
  · next ht => exact absurd ht (hword _ (by decide))
  · next hnil => exact absurd hnil (hword _ (by decide))
  · rfl

/-- The atom of an integer within the range denotes it. -/
theorem toInt?_ofInt (h : Integer.InRange n) : (ofInt n).toInt? = some n := by
  have hvalue : ∀ m : Nat, Integer.ofDigits (Nat.toDigits 10 m) = m := fun m =>
    Nat.ofDigitChars_ten_toDigits
  refine toInt?_eq_some_iff.2 ⟨isNumeral_ofInt n, ?_, h⟩
  rw [toList_ofInt]
  split
  · next hpos =>
    rw [ofNumeral_of_digits fun c hc => isDigit_of_mem_toDigits hc, hvalue]
    exact Int.toNat_of_nonneg hpos
  · next hneg =>
    show -(Integer.ofDigits (Nat.toDigits 10 (-n).toNat) : Int) = n
    rw [hvalue]
    omega

/-- The plus sign of a numeral has no part in its number. -/
theorem toInt?_withoutPlus (a : Atom) : a.withoutPlus.toInt? = a.toInt? := by
  unfold withoutPlus
  split
  · next digits heq =>
    split
    · next hnumeral =>
      obtain ⟨hne, hdigits⟩ := digits_of_isNumeral hnumeral
      rw [heq] at hne hdigits
      change digits ≠ [] at hne
      change ∀ c ∈ digits, standard.isDigit c = true at hdigits
      have hunsigned : (mk (String.ofList digits)).isNumeral = true := by
        refine Token.isNumeral_ofList.2 ?_
        rw [unsigned_of_digits hdigits]
        exact ⟨hne, hdigits⟩
      have hvalue : Integer.ofNumeral ('+' :: digits) = Integer.ofNumeral digits :=
        (ofNumeral_of_digits hdigits).symm
      unfold toInt?
      rw [hunsigned, hnumeral, heq, hvalue, String.toList_ofList]
    · rfl
  · rfl

/-- No digit of the numeral can be left out, and it is not minus zero. -/
def Shortest (a : Atom) : Prop :=
  (unsigned a.text.toList).head? = some '0' → a.text = "0" ∨ a.text = "+0"

instance : DecidablePred Shortest := fun _ => inferInstanceAs (Decidable (_ → _))

theorem toList_ofInt_ofDigits (h : Nat.toDigits 10 (Integer.ofDigits digits) = digits) :
    (ofInt (Integer.ofDigits digits)).text.toList = digits := by
  rw [toList_ofInt, if_pos (Int.natCast_nonneg _), Int.toNat_natCast, h]

theorem toList_ofInt_neg_ofDigits (h : Nat.toDigits 10 (Integer.ofDigits digits) = digits)
    (hne : Integer.ofDigits digits ≠ 0) :
    (ofInt (-(Integer.ofDigits digits : Int))).text.toList = '-' :: digits := by
  have hneg : ¬ 0 ≤ -(Integer.ofDigits digits : Int) := by omega
  rw [toList_ofInt, if_neg hneg, Int.neg_neg, Int.toNat_natCast, h]

/-- A numeral that is as short as possible prints as its number does. -/
theorem withoutPlus_of_shortest (h : a.toInt? = some n) (hshort : a.Shortest) :
    a.withoutPlus = ofInt n := by
  obtain ⟨hnumeral, rfl, -⟩ := toInt?_eq_some_iff.1 h
  obtain ⟨hne, hdigits⟩ := digits_of_isNumeral hnumeral
  have hzero : (unsigned a.text.toList).head? = some '0' →
      unsigned a.text.toList = ['0'] ∧ a.text.toList.head? ≠ some '-' := by
    intro hhead
    rcases hshort hhead with heq | heq <;> rw [heq] <;> decide
  have hprinted : Nat.toDigits 10 (Integer.ofDigits (unsigned a.text.toList)) =
      unsigned a.text.toList := toDigits_ofDigits hne hdigits fun hhead => (hzero hhead).1
  refine eq_of_toList ?_
  unfold withoutPlus
  split
  · next digits heq =>
    rw [heq] at hprinted
    rw [if_pos hnumeral, heq, String.toList_ofList]
    exact (toList_ofInt_ofDigits hprinted).symm
  · next hplus =>
    by_cases hminus : a.text.toList.head? = some '-'
    · obtain ⟨digits, heq⟩ := List.head?_eq_some_iff.1 hminus
      rw [heq] at hprinted hzero
      change Nat.toDigits 10 (Integer.ofDigits digits) = digits at hprinted
      -- minus zero is not as short as possible
      have hvalue : Integer.ofDigits digits ≠ 0 := by
        intro hvalue
        refine (hzero ?_).2 rfl
        show digits.head? = some '0'
        rw [← hprinted, hvalue, Nat.toDigits_zero]
        rfl
      rw [heq]
      exact (toList_ofInt_neg_ofDigits hprinted hvalue).symm
    · have hnoplus : a.text.toList.head? ≠ some '+' := by
        intro hhead
        obtain ⟨digits, heq⟩ := List.head?_eq_some_iff.1 hhead
        exact hplus digits heq
      have hunsigned : unsigned a.text.toList = a.text.toList := unsigned_of_head? hnoplus hminus
      rw [hunsigned] at hdigits hprinted
      rw [ofNumeral_of_digits hdigits]
      exact (toList_ofInt_ofDigits hprinted).symm

end Atom

end PairLisp
