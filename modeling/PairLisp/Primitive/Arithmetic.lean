import PairLisp.Error

/-!
# Arithmetic of the primitives

Sums, differences, products and quotients fold a sequence of numbers from the left, and every
step has to stay within 64 bits. Quotients round towards zero; a remainder has the sign of the
dividend and a modulus that of the divisor. A comparison holds of a sequence if it holds
between every two neighbours.
-/

namespace PairLisp.Arithmetic

/-- A result, if it fits into 64 bits. -/
def checked (operation : String) (n : Int) : Except Error Int :=
  if Integer.InRange n then .ok n else .error (ArithmeticError.overflow operation)

/-- The sum of the numbers. -/
def sum (ns : List Int) : Except Error Int :=
  ns.foldlM (fun total n => checked "sum" (total + n)) 0

/-- The first number less all the others, or the negative of a single one. -/
def difference : List Int → Except Error Int
  | [] => .error (TypeError.emptyFold "difference")
  | [n] => checked "negation" (-n)
  | n :: ns => ns.foldlM (fun total n => checked "difference" (total - n)) n

/-- The product of the numbers. -/
def product (ns : List Int) : Except Error Int :=
  ns.foldlM (fun total n => checked "product" (total * n)) 1

/-- The first number divided by all the others in turn, rounding towards zero each time. -/
def quotient : List Int → Except Error Int
  | [] => .error (TypeError.emptyFold "quotient")
  | n :: ns =>
    ns.foldlM (fun total d =>
      if d = 0 then .error (ArithmeticError.divisionByZero "quotient")
      else checked "quotient" (total.tdiv d)) n

/-- What is left of a division that rounds towards zero. It exists whenever the quotient
does. -/
def remainder (a b : Int) : Except Error Int :=
  if b = 0 then .error (ArithmeticError.divisionByZero "rem")
  else if Integer.InRange (a.tdiv b) then .ok (a.tmod b)
  else .error (ArithmeticError.overflow "rem")

/-- The remainder, moved by the divisor if the two have different signs. -/
def modulus (a b : Int) : Except Error Int := do
  let r ← remainder a b
  if r ≠ 0 ∧ (r < 0 ↔ 0 ≤ b) then .ok (r + b) else .ok r

/-- A number to the power of another, which may not be negative. -/
def power (base exponent : Int) : Except Error Int :=
  if exponent < 0 then .error (TypeError.negativeExponent exponent)
  else
    match Integer.power? base exponent.toNat with
    | some n => .ok n
    | none => .error (ArithmeticError.overflow "expt")

/-- Whether a relation holds between every two neighbours of a sequence. -/
def chained (relation : Int → Int → Bool) : Int → List Int → Bool
  | _, [] => true
  | n, m :: ms => relation n m && chained relation m ms

end PairLisp.Arithmetic
