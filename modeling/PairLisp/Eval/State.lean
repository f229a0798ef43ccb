import PairLisp.Env

/-!
# The state of an evaluation

While a statement is evaluated, the closures that its `lambda` forms make are kept in a
collection of their own, numbered from one in the order in which they are made. The value of a
`lambda` form is the atom that names its closure, its handle. The collection belongs to the
statement: the next statement begins with an empty one.

An evaluation reads and changes an environment and such a collection. What it has changed stays
changed when it fails.
-/

namespace PairLisp

/-- The closures that a statement has made, in order. -/
structure Closures where
  captured : Array Procedure := #[]
deriving DecidableEq

namespace Closures

instance : EmptyCollection Closures := ⟨{ captured := #[] }⟩

/-- How many closures there are. -/
def size (cs : Closures) : Nat := cs.captured.size

/-- Adds a closure and gives it the next number. -/
def capture (cs : Closures) (p : Procedure) : Atom × Closures :=
  (.handle (cs.size + 1), { captured := cs.captured.push p })

/-- The closure that an atom names. -/
def find? (cs : Closures) (a : Atom) : Option Procedure :=
  match a.handleId? with
  | some (n + 1) => cs.captured[n]?
  | _ => none

end Closures

/-- What an evaluation reads and changes. -/
structure EvalState where
  env : Env
  closures : Closures := ∅
deriving DecidableEq

/-- An evaluation: from a state to a value or an error, and to the state that it leaves. -/
abbrev EvalM := ExceptT Error (StateM EvalState)

namespace EvalM

/-- Fails with the given error, which may be of any kind. -/
def fail {α : Type} (e : Error) : EvalM α := throw e

/-- Takes over a result that depends on nothing but its arguments. -/
def ofExcept {α ε : Type} [Coe ε Error] : Except ε α → EvalM α
  | .ok a => pure a
  | .error e => fail e

/-- Runs an evaluation with further variables bound. Afterwards the variables are what they
were before, however the evaluation has ended. -/
def withVariables {α : Type} (entries : List (String × SExpr)) (body : EvalM α) : EvalM α :=
  ExceptT.mk do
    let outer := (← get).env.bindings
    modify fun s => { s with env := s.env.bindAll entries }
    let result ← body.run
    modify fun s => { s with env := { s.env with bindings := outer } }
    pure result

end EvalM

end PairLisp
