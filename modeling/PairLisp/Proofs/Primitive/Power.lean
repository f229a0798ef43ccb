import Mathlib.Algebra.Order.Ring.Int
import PairLisp.Proofs.Numeral.Spelling
import PairLisp.Proofs.Primitive.Argument

/-!
# Powers

The function `expt` raises a number to the power of another. A power that is within the range is
found without an intermediate result out of range: `Integer.power?` looks at the exact power only
(`Integer.power?_eq`), although it never calculates with an exponent above 65.

Exponents have 32 bits. A larger one is refused as an overflow, whatever the base is. For most bases
the power is out of range then anyway, but the powers of 0, 1 and -1 never are
(`Integer.inRange_pow_iff`), so for these three there is no overflow where one is reported
(`Builtin.apply_expt`).
-/

namespace PairLisp

namespace Integer

variable {b : Int} {n : Nat}

/-! ## Large exponents -/

theorem not_inRange_pow (hb : 2 ≤ b.natAbs) (hn : 64 ≤ n) : ¬ InRange (b ^ n) := by
  have hlarge : 2 ^ 64 ≤ (b ^ n).natAbs := by
    rw [Int.natAbs_pow]
    calc 2 ^ 64 ≤ 2 ^ n := Nat.pow_le_pow_right (by decide) hn
      _ ≤ b.natAbs ^ n := Nat.pow_le_pow_left hb n
  omega

theorem inRange_pow_of_natAbs_le (hb : b.natAbs ≤ 1) (n : Nat) : InRange (b ^ n) := by
  have hsmall : (b ^ n).natAbs ≤ 1 := by
    calc (b ^ n).natAbs = b.natAbs ^ n := Int.natAbs_pow b n
      _ ≤ 1 ^ n := Nat.pow_le_pow_left hb n
      _ = 1 := Nat.one_pow n
  omega

/-- From 64 on, all powers of 0, 1 and -1 are within the range, and no powers of other bases. -/
theorem inRange_pow_iff (hn : 64 ≤ n) : InRange (b ^ n) ↔ b.natAbs ≤ 1 := by
  constructor
  · intro h
    by_contra hb
    exact not_inRange_pow (by omega) hn h
  · exact fun hb => inRange_pow_of_natAbs_le hb n

/-- The powers of 0, 1 and -1 depend only on whether the exponent is even, if it is not zero. -/
theorem pow_add_mod_two (hb : b.natAbs ≤ 1) (hn : 64 ≤ n) : b ^ (64 + n % 2) = b ^ n := by
  have hcases : b = 0 ∨ b = 1 ∨ b = -1 := by omega
  rcases hcases with rfl | rfl | rfl
  · rw [zero_pow (by omega), zero_pow (by omega)]
  · rw [one_pow, one_pow]
  · rw [neg_one_pow_eq_pow_mod_two, neg_one_pow_eq_pow_mod_two (n := n)]
    congr 1
    omega

/-- A power is found exactly if its exponent has 32 bits and it is within the range. -/
theorem power?_eq (b : Int) (n : Nat) :
    power? b n = if n < 4294967296 ∧ InRange (b ^ n) then some (b ^ n) else none := by
  by_cases hn : 64 ≤ n
  · have hpower : power? b n = if n < 4294967296 ∧ InRange (b ^ (64 + n % 2)) then
        some (b ^ (64 + n % 2)) else none := by
      unfold power?
      rw [if_pos hn]
      rfl
    rw [hpower]
    by_cases hb : b.natAbs ≤ 1
    · rw [pow_add_mod_two hb hn]
    · have hout : ¬ InRange (b ^ (64 + n % 2)) := not_inRange_pow (by omega) (by omega)
      rw [if_neg fun h => hout h.2, if_neg fun h => hb ((inRange_pow_iff hn).1 h.2)]
  · unfold power?
    rw [if_neg hn]
    rfl

end Integer

/-! ## The function -/

namespace Builtin

open Argument Integer

variable {x y : SExpr} {b e : Int}

theorem apply_expt_of_number (hx : Number x b) (hy : Number y e) :
    expt.apply [x, y] =
      if e < 0 then .error (TypeError.negativeExponent e)
      else if e < 4294967296 ∧ InRange (b ^ e.toNat) then .ok (.ofInt (b ^ e.toNat))
      else .error (ArithmeticError.overflow "expt") := by
  show numeric Arithmetic.power [x, y] = _
  rw [numeric_of_number hx hy]
  unfold Arithmetic.power
  split
  · rfl
  · next hneg =>
    rw [power?_eq]
    by_cases h : e < 4294967296 ∧ InRange (b ^ e.toNat)
    · rw [if_pos ⟨by omega, h.2⟩, if_pos h]
      rfl
    · rw [if_neg fun h' => h ⟨by omega, h'.2⟩, if_neg h]
      rfl

/-- The power of a number to another. A negative exponent is a type error. An exponent of up to 32
bits gives the exact power if this is within the range, and an overflow if it is not. A larger
exponent is always refused as an overflow, and this is right for all bases but 0, 1 and -1. -/
theorem apply_expt (hx : Number x b) (hy : Number y e) :
    (e < 0 → expt.apply [x, y] = .error (TypeError.negativeExponent e)) ∧
      (0 ≤ e → e < 4294967296 →
        (InRange (b ^ e.toNat) → expt.apply [x, y] = .ok (.ofInt (b ^ e.toNat))) ∧
        (¬ InRange (b ^ e.toNat) →
          expt.apply [x, y] = .error (ArithmeticError.overflow "expt"))) ∧
      (4294967296 ≤ e → expt.apply [x, y] = .error (ArithmeticError.overflow "expt") ∧
        (InRange (b ^ e.toNat) ↔ b.natAbs ≤ 1)) := by
  rw [apply_expt_of_number hx hy]
  refine ⟨fun hneg => if_pos hneg, fun hpos hsmall => ⟨fun hrange => ?_, fun hrange => ?_⟩,
    fun hlarge => ⟨?_, inRange_pow_iff (by omega)⟩⟩
  · rw [if_neg (by omega), if_pos ⟨hsmall, hrange⟩]
  · rw [if_neg (by omega), if_neg fun h => hrange h.2]
  · rw [if_neg (by omega), if_neg (by omega)]

/-- The least number is a power of -2, and the greatest exponent of 32 bits is none too many for
-1. -/
theorem apply_expt_least :
    let x : SExpr := .ofInt (-2)
    let y : SExpr := .ofInt 63
    let z : SExpr := .ofInt 4294967295
    Number x (-2) ∧ Number y 63 ∧ InRange ((-2) ^ 63) ∧
      expt.apply [x, y] = .ok (.ofInt ((-2) ^ 63)) ∧
      Number (.ofInt (-1)) (-1) ∧ Number z 4294967295 ∧
      expt.apply [.ofInt (-1), z] = .ok (.ofInt (-1)) ∧
      expt.apply [x, .ofInt (-1)] = .error (TypeError.negativeExponent (-1)) := by
  intro x y z
  have hx : Number x (-2) := Atom.toInt?_ofInt (by decide)
  have hy : Number y 63 := Atom.toInt?_ofInt (by decide)
  have hz : Number z 4294967295 := Atom.toInt?_ofInt (by decide)
  have hminus : Number (.ofInt (-1)) (-1) := Atom.toInt?_ofInt (by decide)
  have hrange : InRange ((-2) ^ 63) := by decide
  exact ⟨hx, hy, hrange, ((apply_expt hx hy).2.1 (by decide) (by decide)).1 hrange, hminus, hz,
    by decide +kernel, (apply_expt hx hminus).1 (by decide)⟩

/-- Every power of 1 is 1, but one with a larger exponent is refused. -/
theorem apply_expt_one :
    let x : SExpr := .ofInt 1
    let y : SExpr := .ofInt 4294967296
    Number x 1 ∧ Number y 4294967296 ∧ (1 : Int) ^ 4294967296 = 1 ∧ InRange 1 ∧
      expt.apply [x, y] = .error (ArithmeticError.overflow "expt") :=
  ⟨Atom.toInt?_ofInt (by decide), Atom.toInt?_ofInt (by decide), one_pow _, by decide,
    by decide +kernel⟩

end Builtin

end PairLisp
