import PairLisp.Proofs.Numeral.Spelling
import PairLisp.Proofs.Primitive.Argument

/-!
# Division

Three functions divide a number by another: `quotient` rounds towards zero, `rem` has what is left
then, and `mod` moves what is left by the divisor if the two have different signs. They are written
one by one, and yet all three go through the same tests (`Builtin.apply_of_divides`): the divisor
must not be zero, and the quotient must be within the range, even where only the remainder is asked
for. The one quotient out of range is that of the least number and -1 (`Integer.inRange_tdiv_iff`).

So the three have values for the same pairs of numbers, and then the values fit together
(`Builtin.divisions_agree`). The moved remainder is smaller than the divisor, so it is within the
range without a test.
-/

namespace PairLisp

/-! ## Quotients and remainders of integers -/

namespace Integer

variable {a b : Int}

/-- The quotient of the numbers exists and is within the range. -/
def Divisible (a b : Int) : Prop := b ≠ 0 ∧ ¬ (a = -9223372036854775808 ∧ b = -1)

instance (a b : Int) : Decidable (Divisible a b) := inferInstanceAs (Decidable (_ ∧ _))

/-- A quotient is in the range unless it is that of the least number and -1. -/
theorem inRange_tdiv_iff (ha : InRange a) (hb : b ≠ 0) :
    InRange (a.tdiv b) ↔ Divisible a b := by
  constructor
  · intro h
    refine ⟨hb, ?_⟩
    rintro ⟨rfl, rfl⟩
    exact absurd h (by decide)
  · rintro ⟨-, hleast⟩
    have hsmaller : (a.tdiv b).natAbs ≤ a.natAbs := Int.natAbs_tdiv_le_natAbs a b
    by_cases hone : b = 1
    · rw [hone, Int.tdiv_one]
      exact ha
    by_cases hminus : b = -1
    · rw [hminus, Int.tdiv_neg, Int.tdiv_one]
      omega
    -- any other divisor halves the number at least
    have hhalf : (a.tdiv b).natAbs ≤ a.natAbs / 2 := by
      rw [Int.natAbs_tdiv]
      exact Nat.div_le_div_left (by omega) (by decide)
    omega

/-- The remainder, moved by the divisor if the two have different signs. -/
def modulus (a b : Int) : Int :=
  if a.tmod b ≠ 0 ∧ (a.tmod b < 0 ↔ 0 ≤ b) then a.tmod b + b else a.tmod b

theorem natAbs_tmod_lt (a : Int) (hb : b ≠ 0) : (a.tmod b).natAbs < b.natAbs := by
  rw [Int.natAbs_tmod]
  exact Nat.mod_lt _ (by omega)

/-- A remainder has the sign of the dividend. -/
theorem sign_tmod_cases (a b : Int) : a.tmod b = 0 ∨ (a.tmod b).sign = a.sign := by
  rw [← Int.sign_eq_zero_iff_zero, Int.sign_tmod]
  split
  · exact .inl rfl
  · exact .inr rfl

/-- A modulus is zero or on the same side of zero as the divisor, and it is smaller. -/
theorem modulus_cases (a : Int) (hb : b ≠ 0) :
    modulus a b = 0 ∨ (0 < modulus a b ∧ modulus a b < b) ∨
      (b < modulus a b ∧ modulus a b < 0) := by
  have hlt := natAbs_tmod_lt a hb
  unfold modulus
  split <;> omega

theorem natAbs_modulus_lt (a : Int) (hb : b ≠ 0) : (modulus a b).natAbs < b.natAbs := by
  have hcases := modulus_cases a hb
  omega

theorem sign_modulus_cases (a : Int) (hb : b ≠ 0) :
    modulus a b = 0 ∨ (modulus a b).sign = b.sign := by
  rcases modulus_cases a hb with hzero | ⟨hpos, hlt⟩ | ⟨hlt, hneg⟩
  · exact .inl hzero
  · exact .inr ((Int.sign_eq_one_of_pos hpos).trans (Int.sign_eq_one_of_pos (hpos.trans hlt)).symm)
  · exact .inr
      ((Int.sign_eq_neg_one_of_neg hneg).trans (Int.sign_eq_neg_one_of_neg (hlt.trans hneg)).symm)

end Integer

open Integer

/-- The values of the three divisions of `a` by `b` fit together: a quotient, a remainder and a
modulus. -/
structure Division (a b q r m : Int) : Prop where
  exact : a = q * b + r
  natAbs_remainder : r.natAbs < b.natAbs
  sign_remainder : r = 0 ∨ r.sign = a.sign
  moved : m - r = 0 ∨ m - r = b
  natAbs_modulus : m.natAbs < b.natAbs
  sign_modulus : m = 0 ∨ m.sign = b.sign
  /-- The sum of the remainder and the divisor does not overflow if it is the modulus. -/
  sum_inRange : m = r + b → InRange (r + b)

theorem division_of_ne_zero {a b : Int} (hb : InRange b) (hne : b ≠ 0) :
    Division a b (a.tdiv b) (a.tmod b) (modulus a b) where
  exact := (Int.tdiv_mul_add_tmod a b).symm
  natAbs_remainder := natAbs_tmod_lt a hne
  sign_remainder := sign_tmod_cases a b
  moved := by
    unfold modulus
    split <;> omega
  natAbs_modulus := natAbs_modulus_lt a hne
  sign_modulus := sign_modulus_cases a hne
  sum_inRange := by
    intro hsum
    have hlt := natAbs_modulus_lt a hne
    rw [← hsum]
    omega

/-! ## The functions that divide -/

namespace Arithmetic

theorem quotient_pair (a b : Int) :
    quotient [a, b] =
      if b = 0 then .error (ArithmeticError.divisionByZero "quotient")
      else checked "quotient" (a.tdiv b) := by
  unfold quotient
  dsimp only
  rw [List.foldlM_cons]
  simp only [List.foldlM_nil, bind_pure]

/-- A modulus has the errors of the remainder. -/
theorem modulus_eq (a b : Int) :
    modulus a b = (remainder a b).map fun _ => Integer.modulus a b := by
  unfold modulus remainder Integer.modulus
  split
  · rfl
  · split
    · rw [ok_bind]
      split <;> rfl
    · rfl

end Arithmetic

namespace Builtin

open Argument

/-- The function divides a number by another. It has the given result, and errors show it under the
given name: a modulus is worked out from a remainder and has its errors. -/
inductive Divides : Builtin → String → (Int → Int → Int) → Prop where
  | quotient : Divides quotient "quotient" Int.tdiv
  | rem : Divides rem "rem" Int.tmod
  | mod : Divides mod "rem" modulus

variable {f : Builtin} {operation : String} {result : Int → Int → Int} {x y : SExpr} {a b : Int}

/-- All divisions go through the same tests. -/
theorem apply_of_divides (h : Divides f operation result) (hx : Number x a) (hy : Number y b) :
    f.apply [x, y] =
      if b = 0 then .error (ArithmeticError.divisionByZero operation)
      else if InRange (a.tdiv b) then .ok (.ofInt (result a b))
      else .error (ArithmeticError.overflow operation) := by
  cases h with
  | quotient =>
    have hsplices : Splices [x, y] [a, b] :=
      splices_cons_iff.2 ⟨[a], [b], .number hx, splices_singleton hy, rfl⟩
    show fold Arithmetic.quotient [x, y] = _
    rw [fold_of_splices hsplices, Arithmetic.quotient_pair]
    unfold Arithmetic.checked
    split
    · rfl
    · split <;> rfl
  | rem =>
    show numeric Arithmetic.remainder [x, y] = _
    rw [numeric_of_number hx hy]
    unfold Arithmetic.remainder
    split
    · rfl
    · split <;> rfl
  | mod =>
    show numeric Arithmetic.modulus [x, y] = _
    rw [numeric_of_number hx hy, Arithmetic.modulus_eq]
    unfold Arithmetic.remainder
    split
    · rfl
    · split <;> rfl

/-- A division fails at zero or out of range, or it has its result. -/
theorem apply_cases (h : Divides f operation result) (hx : Number x a) (hy : Number y b) :
    (b = 0 ∧ f.apply [x, y] = .error (ArithmeticError.divisionByZero operation)) ∨
      (b ≠ 0 ∧ ¬ Divisible a b ∧
        f.apply [x, y] = .error (ArithmeticError.overflow operation)) ∨
      (Divisible a b ∧ f.apply [x, y] = .ok (.ofInt (result a b))) := by
  rw [apply_of_divides h hx hy]
  by_cases hzero : b = 0
  · exact .inl ⟨hzero, if_pos hzero⟩
  have hiff : InRange (a.tdiv b) ↔ Divisible a b := inRange_tdiv_iff hx.inRange hzero
  rw [if_neg hzero]
  by_cases hrange : InRange (a.tdiv b)
  · exact .inr (.inr ⟨hiff.1 hrange, if_pos hrange⟩)
  · exact .inr (.inl ⟨hzero, fun h => hrange (hiff.2 h), if_neg hrange⟩)

/-- Where the division is possible, the functions that divide have their result. -/
theorem apply_of_divisible (h : Divides f operation result) (hx : Number x a) (hy : Number y b)
    (hab : Divisible a b) : f.apply [x, y] = .ok (.ofInt (result a b)) := by
  rcases apply_cases h hx hy with ⟨hzero, -⟩ | ⟨-, hnot, -⟩ | ⟨-, happly⟩
  · exact absurd hzero hab.1
  · exact absurd hab hnot
  · exact happly

/-- The divisions of a number by another. All three have a value for the same pairs of numbers, and
division by zero is their error exactly if the divisor is zero; otherwise the quotient is out of
range, and this is the error of all three. The values fit together: the quotient and the remainder
make up the number, the remainder has its sign and the modulus that of the divisor, and the sum that
the modulus may be does not overflow. -/
theorem divisions_agree (hx : Number x a) (hy : Number y b) :
    (∀ f operation result, Divides f operation result →
      ((∃ v, f.apply [x, y] = .ok v) ↔ Divisible a b) ∧
      (f.apply [x, y] = .error (ArithmeticError.divisionByZero operation) ↔ b = 0) ∧
      (f.apply [x, y] = .error (ArithmeticError.overflow operation) ↔
        b ≠ 0 ∧ ¬ Divisible a b)) ∧
    (Divisible a b → ∃ q r m, quotient.apply [x, y] = .ok (.ofInt q) ∧
      rem.apply [x, y] = .ok (.ofInt r) ∧ mod.apply [x, y] = .ok (.ofInt m) ∧
      Division a b q r m) := by
  refine ⟨fun f operation result hf => ?_, fun h => ?_⟩
  · rcases apply_cases hf hx hy with ⟨hzero, happly⟩ | ⟨hzero, hnot, happly⟩ | ⟨hab, happly⟩
    · subst hzero
      simp [happly, Divisible]
    · simp [happly, hzero, hnot]
    · simp [happly, hab, hab.1]
  · exact ⟨a.tdiv b, a.tmod b, modulus a b, apply_of_divisible .quotient hx hy h,
      apply_of_divisible .rem hx hy h, apply_of_divisible .mod hx hy h,
      division_of_ne_zero hy.inRange h.1⟩

/-- The least number and 10: the remainder is negative and the modulus positive. The least number
and -1: there is no remainder, though it would be zero. -/
theorem divisions_agree_least :
    let least : Int := -9223372036854775808
    let x : SExpr := .ofInt least
    let y : SExpr := .atom ⟨"+010"⟩
    let z : SExpr := .ofInt (-1)
    Number x least ∧ Number y 10 ∧ Divisible least 10 ∧
      (∃ q r m, quotient.apply [x, y] = .ok (.ofInt q) ∧ rem.apply [x, y] = .ok (.ofInt r) ∧
        mod.apply [x, y] = .ok (.ofInt m) ∧ Division least 10 q r m) ∧
      rem.apply [x, y] = .ok (.ofInt (-8)) ∧ mod.apply [x, y] = .ok (.ofInt 2) ∧
      Number z (-1) ∧ ¬ Divisible least (-1) ∧
      rem.apply [x, z] = .error (ArithmeticError.overflow "rem") := by
  intro least x y z
  have hx : Number x least := Atom.toInt?_ofInt (by decide)
  have hy : Number y 10 := int_eq_ok_iff.1 (by decide +kernel)
  have hz : Number z (-1) := Atom.toInt?_ofInt (by decide)
  have hdivisible : Divisible least 10 := by decide
  have hleast : ¬ Divisible least (-1) := by decide
  obtain ⟨-, -, hoverflow⟩ := (divisions_agree hx hz).1 rem "rem" Int.tmod .rem
  exact ⟨hx, hy, hdivisible, (divisions_agree hx hy).2 hdivisible, by decide +kernel,
    by decide +kernel, hz, hleast, hoverflow.2 ⟨by decide, hleast⟩⟩

end Builtin

end PairLisp
