import PairLisp.Error

/-!
# Arguments of primitives

A primitive receives values and takes them as numbers, as truth values or as they are. A value
of another kind is an error that shows the value.

The arithmetic primitives take any number of numbers, and each of their arguments may be a list
of numbers, which then stands for its elements. `Argument.numbers` puts them all into one list.
-/

namespace PairLisp.Argument

/-- The number that an argument is. -/
def int (x : SExpr) : Except Error Int :=
  match x with
  | .atom a =>
    if a.isNumeral then
      match a.toInt? with
      | some n => .ok n
      | none => .error (ArithmeticError.literalOutOfRange a)
    else .error (TypeError.expectedNumber x)
  | .cons _ _ => .error (TypeError.expectedNumber x)

/-- The truth value that an argument is. -/
def bool (x : SExpr) : Except Error Bool :=
  match x.toBool? with
  | some b => .ok b
  | none => .error (TypeError.expectedBoolean x)

/-- The numbers that arguments without parts are, in order. -/
def ints : List SExpr → Except Error (List Int)
  | [] => .ok []
  | x :: xs => do
    let n ← int x
    let ns ← ints xs
    .ok (n :: ns)

/-- The numbers that an argument stands for: the elements of a list, or the argument itself. -/
def spliced (x : SExpr) : Except Error (List Int) :=
  match x with
  | .atom _ => ints [x]
  | .cons _ _ =>
    match x.toList? with
    | some xs => ints xs
    | none => .error (TypeError.expectedProperList x)

/-- The numbers that the arguments stand for, in order, lists spliced in at their places. -/
def numbers : List SExpr → Except Error (List Int)
  | [] => .ok []
  | x :: xs => do
    let ns ← spliced x
    let rest ← numbers xs
    .ok (ns ++ rest)

end PairLisp.Argument
