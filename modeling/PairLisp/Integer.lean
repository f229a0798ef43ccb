/-!
# Integers of the language

Numbers are the integers of 64 bits in two's complement, but arithmetic on them never wraps:
a result outside the range is an error. So they are ordinary integers here, with the range as
a predicate beside them, and a numeral of any length denotes an integer that may or may not
lie in the range.
-/

namespace PairLisp.Integer

/-- The integers that fit into 64 bits. -/
abbrev InRange (n : Int) : Prop :=
  -9223372036854775808 ≤ n ∧ n ≤ 9223372036854775807

/-- The natural number that a string of decimal digits denotes. -/
def ofDigits (digits : List Char) : Nat :=
  Nat.ofDigitChars 10 digits 0

/-- The integer that a numeral denotes: decimal digits after at most one sign. -/
def ofNumeral : List Char → Int
  | '-' :: digits => -(ofDigits digits : Int)
  | '+' :: digits => ofDigits digits
  | digits => ofDigits digits

/-- The base to a power, for exponents of 32 bits, if the result fits into 64 bits. Past an
exponent of 63 only 0, 1 and -1 have powers in the range, and theirs depend on no more than
whether the exponent is even. -/
def power? (base : Int) (exponent : Nat) : Option Int :=
  let e := if 64 ≤ exponent then 64 + exponent % 2 else exponent
  let n := Int.pow base e
  if exponent < 4294967296 ∧ InRange n then some n else none

end PairLisp.Integer
