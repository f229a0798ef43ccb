import PairLisp.Eval.State

/-!
# Special forms

A special form decides by itself which of its arguments are evaluated, and in which order. Each
is defined here over a given evaluation of the expressions one level further in:

* `quote` gives its argument back as it is;
* `if` evaluates its guard and then one of two branches;
* `cond` evaluates the guards of its arms until one of them is true;
* `defun` defines a procedure and gives back its name;
* `lambda` makes a closure and gives back its handle;
* `and` and `or` evaluate their arguments until the result is known.

A guard has to be `T` or `NIL`. So have the arguments of `and` and `or`, and those that are
numerals or strings are refused before any of them is evaluated.
-/

namespace PairLisp.Form

open EvalM

/-- The truth value of a guard of the given form. -/
def guard (form : String) (value : SExpr) : EvalM Bool :=
  match value.toBool? with
  | some b => pure b
  | none => fail (TypeError.guard form value)

/-- The error of a wrong number of arguments for a form. -/
def wrongCount (form : String) (expected : Nat) (args : List SExpr) : EvalM SExpr :=
  fail (DefinitionError.argumentCount form expected args.length)

variable (inward : SExpr → EvalM SExpr)

/-- The value of the first arm whose guard is true. -/
def firstArm : List SExpr → EvalM SExpr
  | [] => fail StructuralError.noCondArm
  | arm :: arms =>
    match arm.toList? with
    | some [test, consequent] => do
      let b ← guard "cond" (← inward test)
      if b then inward consequent else firstArm arms
    | _ => fail (StructuralError.condArm arm)

/-- Whether an argument is a numeral or a string, which never have a truth value. -/
def isNeverBoolean : SExpr → Bool
  | .atom a => a.isNumeral || Vocabulary.standard.isString a.text
  | .cons _ _ => false

/-- The first of the values that decides the result of `and` or `or`, or else the result that
none of them prevents. -/
def decideBy (form : String) (decisive : Bool) : List SExpr → EvalM SExpr
  | [] => pure (.ofBool !decisive)
  | arg :: args => do
    match (← inward arg).toBool? with
    | some b => if b = decisive then pure (.ofBool b) else decideBy form decisive args
    | none => fail (TypeError.expectedBooleans form)

/-- The form `and` or `or`, whose result is `decisive` as soon as an argument is. -/
def junction (form : String) (decisive : Bool) (args : List SExpr) : EvalM SExpr :=
  if args.isEmpty then wrongCount form 1 args
  else if args.any isNeverBoolean then fail (TypeError.expectedBooleans form)
  else decideBy inward form decisive args

/-- The value of a special form for the given arguments. -/
def run (form : Form) (args : List SExpr) : EvalM SExpr :=
  match form with
  | quote =>
    match args with
    | [x] => pure x
    | _ => wrongCount "quote" 1 args
  | conditional =>
    match args with
    | [test, consequent, alternative] => do
      let b ← guard "if" (← inward test)
      if b then inward consequent else inward alternative
    | _ => wrongCount "if" 3 args
  | cond => firstArm inward args
  | defun =>
    match args with
    | [.atom name, formals, body] => do
      let (_, env) ← ofExcept ((← get).env.define name.text formals body)
      modify fun s => { s with env }
      pure (.atom name)
    | [name, _, _] => fail (DefinitionError.functionNameNotAtom name)
    | _ => wrongCount "defun" 3 args
  | lambda =>
    match args with
    | [formals, body] => do
      let closure ← ofExcept (Procedure.ofFormals "lambda" formals body)
      let (handle, closures) := (← get).closures.capture closure
      modify fun s => { s with closures }
      pure (.atom handle)
    | _ => wrongCount "lambda" 2 args
  | conjunction => junction inward "and" false args
  | disjunction => junction inward "or" true args

end PairLisp.Form
