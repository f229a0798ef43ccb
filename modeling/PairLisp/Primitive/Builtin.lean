import PairLisp.Primitive.Argument
import PairLisp.Primitive.Arithmetic

/-!
# Primitive functions

The functions that every program can call. A primitive function is called with the values of
its arguments and depends on nothing else: `Builtin.apply` is all there is to it.

The number of arguments is checked before a program's call gets here. `Builtin.apply` still
refuses a number for which the function has no meaning, under the name `primitive`; functions
of any number of arguments accept none as well.
-/

namespace PairLisp

/-- The primitive functions. -/
inductive Builtin where
  | truth | falsity
  | sum | difference | product | quotient | rem | mod | expt
  | less | greater | leq | geq | eq
  | integerp | atom | null | not
  | cons | list | car | cdr | length
deriving DecidableEq

namespace Builtin

/-- The error of a number of arguments for which a function has no meaning. -/
def wrongCount (expected : Nat) (args : List SExpr) : Except Error SExpr :=
  .error (DefinitionError.argumentCount "primitive" expected args.length)

/-- A function of no argument. -/
def constant (b : Bool) : List SExpr → Except Error SExpr
  | [] => .ok (.ofBool b)
  | args => wrongCount 0 args

/-- A function of one argument. -/
def unary (f : SExpr → Except Error SExpr) : List SExpr → Except Error SExpr
  | [x] => f x
  | args => wrongCount 1 args

/-- A function of two arguments. -/
def binary (f : SExpr → SExpr → Except Error SExpr) : List SExpr → Except Error SExpr
  | [x, y] => f x y
  | args => wrongCount 2 args

/-- A test of one argument. -/
def test (p : SExpr → Bool) : List SExpr → Except Error SExpr :=
  unary fun x => .ok (.ofBool (p x))

/-- A function of two numbers. -/
def numeric (f : Int → Int → Except Error Int) : List SExpr → Except Error SExpr :=
  binary fun x y => do
    let a ← Argument.int x
    let b ← Argument.int y
    let n ← f a b
    .ok (.ofInt n)

/-- A function of a sequence of numbers. -/
def fold (f : List Int → Except Error Int) (args : List SExpr) : Except Error SExpr := do
  let ns ← Argument.numbers args
  let n ← f ns
  .ok (.ofInt n)

/-- A comparison of a number with a sequence of numbers. -/
def compare (relation : Int → Int → Bool) : List SExpr → Except Error SExpr
  | [] => wrongCount 1 []
  | x :: xs => do
    let n ← Argument.int x
    let ns ← Argument.numbers xs
    .ok (.ofBool (Arithmetic.chained relation n ns))

/-- A half of a pair, for the operation of the given name. -/
def half (operation : String) (pick : SExpr → SExpr → SExpr) :
    List SExpr → Except Error SExpr :=
  unary fun
    | .cons a d => .ok (pick a d)
    | .atom a => .error (TypeError.expectedCons operation a)

/-- The number of elements of a list. -/
def count (x : SExpr) : Except Error SExpr :=
  match x.toList? with
  | some xs => do
    let n ← Arithmetic.checked "length" xs.length
    .ok (.ofInt n)
  | none => .error (TypeError.expectedList "length" x)

/-- The value of a primitive function for the given values of its arguments. -/
def apply : Builtin → List SExpr → Except Error SExpr
  | truth => constant true
  | falsity => constant false
  | sum => fold Arithmetic.sum
  | difference => fold Arithmetic.difference
  | product => fold Arithmetic.product
  | quotient => fold Arithmetic.quotient
  | rem => numeric Arithmetic.remainder
  | mod => numeric Arithmetic.modulus
  | expt => numeric Arithmetic.power
  | less => compare fun a b => a < b
  | greater => compare fun a b => a > b
  | leq => compare fun a b => a ≤ b
  | geq => compare fun a b => a ≥ b
  | eq => binary fun x y => .ok (.ofBool (x.print == y.print))
  | integerp => test SExpr.isNumeral
  | atom => test SExpr.isAtom
  | null => test SExpr.isNil
  | not => unary fun x => do
    let b ← Argument.bool x
    .ok (.ofBool !b)
  | cons => binary fun x y => .ok (.cons x y)
  | list => fun args => .ok (.ofList args)
  | car => half "car" fun a _ => a
  | cdr => half "cdr" fun _ d => d
  | length => unary count

end Builtin

end PairLisp
