import Mathlib.Data.Nat.Digits.Defs
import PairLisp.Proofs.Numeral.Spelling

/-!
# The number that a numeral denotes

The last digit of a numeral counts once, and each digit in front of another one counts ten times as
much as it would in the place of that one. `Integer.Denotes` says so of numerals of any length, with
and without a sign. Each numeral denotes one integer, and an atom has this integer for its number if
the integer is in the range, and no number otherwise (`Atom.toInt?_exact`).

The digits need not be read into an integer without bounds for this. `Integer.read?` has integers of
64 bits only and stops as soon as one of them would be out of the range. More digits lead further
away from zero, so it stops only if the numeral denotes an integer out of the range
(`Integer.read?_of_denotes`). Behind a minus sign it counts downwards, as the least integer of the
range is the negation of none.
-/

namespace PairLisp

open Vocabulary

/-! ## Places of digits -/

namespace Integer

/-- The number of a string of decimal digits by their places. -/
def placeValue (digits : List Char) : Nat :=
  Nat.ofDigits 10 (digits.reverse.map fun c => c.toNat - '0'.toNat)

/-- Digits are read to the number that their places give. -/
theorem ofDigits_eq_placeValue (digits : List Char) : ofDigits digits = placeValue digits := by
  induction digits using List.reverseRecOn with
  | nil => rfl
  | append_singleton front c ih =>
    unfold placeValue at ih ⊢
    rw [ofDigits_concat, ih, List.reverse_concat, List.map_cons, Nat.ofDigits_cons, Nat.add_comm]

/-- The integer that a numeral denotes: digits, with a plus sign or a minus sign in front of them or
without a sign. -/
inductive Denotes : List Char → Int → Prop where
  | digits {digits : List Char} (hne : digits ≠ [])
      (hdigits : ∀ c ∈ digits, standard.isDigit c = true) : Denotes digits (placeValue digits)
  | plus {digits : List Char} (hne : digits ≠ [])
      (hdigits : ∀ c ∈ digits, standard.isDigit c = true) :
      Denotes ('+' :: digits) (placeValue digits)
  | minus {digits : List Char} (hne : digits ≠ [])
      (hdigits : ∀ c ∈ digits, standard.isDigit c = true) :
      Denotes ('-' :: digits) (-(placeValue digits : Int))

variable {cs digits : List Char} {n m : Int}

/-- A text denotes a number if it is a numeral with this value. -/
theorem denotes_iff :
    Denotes cs n ↔ standard.isNumeral (String.ofList cs) = true ∧ ofNumeral cs = n := by
  rw [Token.isNumeral_ofList]
  constructor
  · intro h
    cases h with
    | digits hne hdigits =>
      rw [Atom.unsigned_of_digits hdigits, Atom.ofNumeral_of_digits hdigits, ofDigits_eq_placeValue]
      exact ⟨⟨hne, hdigits⟩, rfl⟩
    | @plus digits hne hdigits =>
      rw [← ofDigits_eq_placeValue]
      exact ⟨⟨hne, hdigits⟩, rfl⟩
    | @minus digits hne hdigits =>
      rw [← ofDigits_eq_placeValue]
      exact ⟨⟨hne, hdigits⟩, rfl⟩
  · rintro ⟨⟨hne, hdigits⟩, rfl⟩
    by_cases hplus : cs.head? = some '+'
    · obtain ⟨digits, rfl⟩ := List.head?_eq_some_iff.1 hplus
      have h := Denotes.plus hne hdigits
      rwa [← ofDigits_eq_placeValue] at h
    · by_cases hminus : cs.head? = some '-'
      · obtain ⟨digits, rfl⟩ := List.head?_eq_some_iff.1 hminus
        have h := Denotes.minus hne hdigits
        rwa [← ofDigits_eq_placeValue] at h
      · rw [unsigned_of_head? hplus hminus] at hne hdigits
        rw [Atom.ofNumeral_of_digits hdigits, ofDigits_eq_placeValue]
        exact .digits hne hdigits

/-- A text denotes one number at most. -/
theorem Denotes.unique (hn : Denotes cs n) (hm : Denotes cs m) : m = n :=
  (denotes_iff.1 hm).2.symm.trans (denotes_iff.1 hn).2

/-! ## Reading within 64 bits -/

/-- Reads digits one by one behind the number that is read so far, up or down from zero. There is no
number if one on the way is out of the range. -/
def readDigits (sign : Int) : (read : Int) → List Char → Option Int
  | n, [] => some n
  | n, c :: cs =>
    let tens := 10 * n
    let next := tens + sign * ((c.toNat - '0'.toNat : Nat) : Int)
    if InRange tens ∧ InRange next then readDigits sign next cs else none

/-- Reads a numeral. -/
def read? : List Char → Option Int
  | '-' :: digits => readDigits (-1) 0 digits
  | '+' :: digits => readDigits 1 0 digits
  | digits => readDigits 1 0 digits

variable {sign : Int} {k l : Nat}

/-- What is nearer to zero than an integer of the range is in the range. -/
theorem inRange_of_le (hsign : sign = 1 ∨ sign = -1) (hle : k ≤ l) (h : InRange (sign * l)) :
    InRange (sign * k) := by
  unfold InRange at h ⊢
  rcases hsign with rfl | rfl <;> omega

/-- Further digits make no number smaller. -/
theorem le_ofDigitChars (digits : List Char) (k : Nat) : k ≤ Nat.ofDigitChars 10 digits k := by
  induction digits generalizing k with
  | nil => exact Nat.le_refl k
  | cons c digits ih =>
    rw [Nat.ofDigitChars_cons]
    have hle := ih (10 * k + (c.toNat - '0'.toNat))
    omega

/-- A number that is out of the range on the way is out of it for good. -/
theorem readDigits_eq (hsign : sign = 1 ∨ sign = -1) (digits : List Char)
    (hk : InRange (sign * k)) : readDigits sign (sign * k) digits =
      if InRange (sign * (Nat.ofDigitChars 10 digits k : Nat)) then
        some (sign * (Nat.ofDigitChars 10 digits k : Nat))
      else none := by
  induction digits generalizing k with
  | nil => rw [Nat.ofDigitChars_nil, if_pos hk, readDigits]
  | cons c digits ih =>
    have htens : 10 * (sign * (k : Int)) = sign * ((10 * k : Nat) : Int) := by
      push_cast
      ring
    have hnext : sign * ((10 * k : Nat) : Int) + sign * ((c.toNat - '0'.toNat : Nat) : Int) =
        sign * ((10 * k + (c.toNat - '0'.toNat) : Nat) : Int) := by
      push_cast
      ring
    rw [Nat.ofDigitChars_cons]
    unfold readDigits
    dsimp only
    rw [htens, hnext]
    by_cases hin : InRange (sign * ((10 * k + (c.toNat - '0'.toNat) : Nat) : Int))
    · rw [if_pos ⟨inRange_of_le hsign (Nat.le_add_right _ _) hin, hin⟩]
      exact ih hin
    · have hout := mt (inRange_of_le hsign (le_ofDigitChars digits _)) hin
      rw [if_neg (fun h => hin h.2), if_neg hout]

/-- Digits that are read with a check at each step give their value within the range, and none out
of it. -/
theorem readDigits_zero (hsign : sign = 1 ∨ sign = -1) (digits : List Char) :
    readDigits sign 0 digits =
      if InRange (sign * placeValue digits) then some (sign * placeValue digits) else none := by
  have hread := readDigits_eq hsign digits (k := 0) (by rcases hsign with rfl | rfl <;> decide)
  rw [Nat.cast_zero, Int.mul_zero] at hread
  rw [← ofDigits_eq_placeValue]
  exact hread

/-- The number that is read is the one that the numeral denotes, if this is in the range. -/
theorem read?_of_denotes (h : Denotes cs n) :
    read? cs = if InRange n then some n else none := by
  cases h with
  | digits hne hdigits =>
    have hread : read? cs = readDigits 1 0 cs := by
      unfold read?
      split
      · exact absurd (hdigits '-' List.mem_cons_self) (by decide)
      · exact absurd (hdigits '+' List.mem_cons_self) (by decide)
      · rfl
    rw [hread, readDigits_zero (.inl rfl), Int.one_mul]
  | @plus digits hne hdigits =>
    show readDigits 1 0 digits = _
    rw [readDigits_zero (.inl rfl), Int.one_mul]
  | @minus digits hne hdigits =>
    show readDigits (-1) 0 digits = _
    rw [readDigits_zero (.inr rfl), Int.neg_one_mul]

end Integer

/-! ## The numbers of atoms -/

namespace Atom

open Integer

variable {a : Atom} {n : Int}

/-- The text of an atom denotes a number if the atom is a numeral with this value. -/
theorem denotes_text_iff :
    Denotes a.text.toList n ↔ a.isNumeral = true ∧ ofNumeral a.text.toList = n := by
  rw [denotes_iff, String.ofList_toList]
  rfl

/-- An atom has the number that its text denotes, if this is within the range. -/
theorem toInt?_of_denotes (h : Denotes a.text.toList n) :
    a.toInt? = if InRange n then some n else none := by
  obtain ⟨hnumeral, rfl⟩ := denotes_text_iff.1 h
  unfold toInt?
  rw [if_pos hnumeral]

/-- An atom that is no numeral has no number. -/
theorem toInt?_of_not_isNumeral (h : a.isNumeral = false) : a.toInt? = none := by
  unfold toInt?
  rw [if_neg (Bool.eq_false_iff.1 h)]

/-- The numeral of an integer has no plus sign. -/
theorem display_ofInt (n : Int) : (ofInt n).display = (ofInt n).text := by
  have hplus : ∀ digits, (ofInt n).text.toList ≠ '+' :: digits := by
    intro digits heq
    rw [toList_ofInt] at heq
    split at heq
    · have hmem : '+' ∈ Nat.toDigits 10 n.toNat := heq ▸ List.mem_cons_self
      exact absurd (isDigit_of_mem_toDigits hmem) (by decide)
    · exact absurd (List.cons.inj heq).1 (by decide)
  unfold display displayChars
  split
  · next digits heq => exact absurd heq (hplus digits)
  · exact String.ofList_toList

/-- The texts of numerals are those that denote an integer, and each denotes a single one. An atom
with such a text has this integer for its number if it is in the range, and this is what reading the
digits one by one within the range comes to. All other atoms have no number. The atom of an integer
in the range is one that a program may write down, it prints as it is written, and its text denotes
the integer, which is its number. -/
theorem toInt?_exact :
    (∀ s, standard.isNumeral s = true ↔ ∃ n, Denotes s.toList n) ∧
      (∀ (a : Atom) n, Denotes a.text.toList n →
        (∀ m, Denotes a.text.toList m → m = n) ∧
          a.toInt? = (if InRange n then some n else none) ∧ a.toInt? = read? a.text.toList) ∧
      (∀ a : Atom, standard.isNumeral a.text = false → a.toInt? = none) ∧
      ∀ n, InRange n → ofText? (ofInt n).text = some (ofInt n) ∧
        (ofInt n).display = (ofInt n).text ∧ Denotes (ofInt n).text.toList n ∧
          (ofInt n).toInt? = some n := by
  refine ⟨fun s => ?_, fun a n h => ⟨fun m hm => h.unique hm, toInt?_of_denotes h, ?_⟩,
    fun a => toInt?_of_not_isNumeral, fun n h => ⟨?_, display_ofInt n, ?_, toInt?_ofInt h⟩⟩
  · have hiff : ∀ n, Denotes s.toList n ↔ standard.isNumeral s = true ∧ ofNumeral s.toList = n :=
      fun n => denotes_text_iff (a := ⟨s⟩)
    simp only [hiff, exists_and_left, exists_eq', and_true]
  · rw [toInt?_of_denotes h, read?_of_denotes h]
  · exact if_pos (SExpr.writable_of_isNumeral (isNumeral_ofInt n)).1
  · obtain ⟨hnumeral, hvalue, -⟩ := toInt?_eq_some_iff.1 (toInt?_ofInt h)
    exact denotes_text_iff.2 ⟨hnumeral, hvalue⟩

/-- The two ends of the range and their neighbours, with zeros in front of some of them. -/
theorem toInt?_exact_ends :
    let least : Atom := ⟨"-9223372036854775808"⟩
    let below : Atom := ⟨"-09223372036854775809"⟩
    let greatest : Atom := ⟨"+0009223372036854775807"⟩
    let above : Atom := ⟨"9223372036854775808"⟩
    Denotes least.text.toList (-9223372036854775808) ∧
      least.toInt? = some (-9223372036854775808) ∧
      Denotes below.text.toList (-9223372036854775809) ∧ below.toInt? = none ∧
      Denotes greatest.text.toList 9223372036854775807 ∧
      greatest.toInt? = some 9223372036854775807 ∧
      Denotes above.text.toList 9223372036854775808 ∧ above.toInt? = none ∧
      standard.isNumeral "+" = false ∧ Atom.toInt? ⟨"+"⟩ = none ∧
      InRange (-9223372036854775808) ∧ ofInt (-9223372036854775808) = least ∧
      ofText? least.text = some least := by
  intro least below greatest above
  obtain ⟨-, hnumber, hother, hprint⟩ := toInt?_exact
  have hleast : Denotes least.text.toList (-9223372036854775808) :=
    denotes_text_iff.2 ⟨by decide +kernel, by decide +kernel⟩
  have hbelow : Denotes below.text.toList (-9223372036854775809) :=
    denotes_text_iff.2 ⟨by decide +kernel, by decide +kernel⟩
  have hgreatest : Denotes greatest.text.toList 9223372036854775807 :=
    denotes_text_iff.2 ⟨by decide +kernel, by decide +kernel⟩
  have habove : Denotes above.text.toList 9223372036854775808 :=
    denotes_text_iff.2 ⟨by decide +kernel, by decide +kernel⟩
  have hsign : standard.isNumeral "+" = false := by decide +kernel
  have hin : InRange (-9223372036854775808) := by decide
  have hatom : ofInt (-9223372036854775808) = least := rfl
  exact ⟨hleast, (hnumber least _ hleast).2.1, hbelow, (hnumber below _ hbelow).2.1, hgreatest,
    (hnumber greatest _ hgreatest).2.1, habove, (hnumber above _ habove).2.1, hsign,
    hother ⟨"+"⟩ hsign, hin, hatom, hatom ▸ (hprint _ hin).1⟩

end Atom

end PairLisp
