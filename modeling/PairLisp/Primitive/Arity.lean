import PairLisp.Error

/-!
# Numbers of arguments

An operation takes either exactly so many arguments or at least so many.
-/

namespace PairLisp

/-- How many arguments an operation takes. -/
inductive Arity where
  | exact (n : Nat)
  | atLeast (n : Nat)
deriving DecidableEq

namespace Arity

/-- The number that the arity names. -/
def bound : Arity → Nat
  | exact n => n
  | atLeast n => n

/-- Whether the arity allows that many arguments. -/
def allows : Arity → Nat → Bool
  | exact n, count => count == n
  | atLeast n, count => n ≤ count

/-- Refuses a number of arguments that the operation of the given name does not take. -/
def check (arity : Arity) (operation : String) (count : Nat) : Except DefinitionError Unit :=
  if arity.allows count then .ok ()
  else .error (.argumentCount operation arity.bound count)

end Arity

end PairLisp
