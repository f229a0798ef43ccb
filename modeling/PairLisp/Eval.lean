import PairLisp.Eval.Form

/-!
# Evaluation

An atom evaluates to the value of the variable of its name; with no such variable, `t` and
`nil` stand for the truth values and every other atom for itself. A pair is a call. The head of
a call, its address, is evaluated like any expression unless it is a reserved name, and the atom
that comes out decides what is called:

* in literal mode a numeral is its own value, and the data are ignored;
* `t` and `nil` are truth values likewise;
* the handle of a closure calls the closure, if it came out of an evaluation;
* a reserved name calls its primitive operation;
* the name of a variable gives the value of the variable;
* the name of a procedure calls the procedure;
* any other name of a primitive operation calls the operation.

The order of these cases settles what a name means that falls under several of them. Everything
below the level of a statement is evaluated in literal mode, except the head of a statement.

Evaluations nest up to a fixed limit. The limit is what makes evaluation total: `eval` recurses
on the number of levels that are left.
-/

namespace PairLisp

open EvalM

/-- What the head of a call stands for. -/
inductive Callee where
  /-- A value: the call has this value, whatever its data are. -/
  | value (x : SExpr)
  | procedure (p : Procedure)
  | operation (op : Operation)

namespace Callee

/-- What an atom stands for at the head of a call. -/
def resolve (s : EvalState) (literal evaluated : Bool) (head : Atom) : Except Error Callee :=
  if literal && head.isNumeral then .ok (.value (.atom head))
  else if let some b := head.truth? then .ok (.value (.ofBool b))
  else if let some p := if evaluated then s.closures.find? head else none then
    .ok (.procedure p)
  else
    let operation := Registry.standard.find? head.text
    if let some op := operation.filter (·.reserved) then .ok (.operation op)
    else if let some x := s.env.bindings.get? head.text then .ok (.value x)
    else if let some p := s.env.procedures.get? head.text then .ok (.procedure p)
    else if let some op := operation then .ok (.operation op)
    else .error (BindingError.undefinedFunction head.text)

end Callee

namespace Eval

/-- The value of an atom. -/
def atom (a : Atom) : EvalM SExpr := do
  match (← get).env.bindings.get? a.text with
  | some x => pure x
  | none =>
    match a.truth? with
    | some b => pure (.ofBool b)
    | none => pure (.atom a)

/-- The values of arguments, from left to right. -/
def arguments (inward : SExpr → EvalM SExpr) : List SExpr → EvalM (List SExpr)
  | [] => pure []
  | x :: xs => do
    let value ← inward x
    let values ← arguments inward xs
    pure (value :: values)

/-- The arguments that the data of a call list. -/
def argumentList (name : String) (data : SExpr) : EvalM (List SExpr) :=
  match data.toList? with
  | some args => pure args
  | none => fail (StructuralError.improperArguments name data)

/-- Calls a procedure: its body is evaluated with the values of the arguments bound to the
parameters, over the variables of the caller. -/
def callProcedure (inward : SExpr → EvalM SExpr) (p : Procedure) (data : SExpr) :
    EvalM SExpr := do
  let args ← argumentList p.name data
  if args.length ≠ p.arity then
    fail (DefinitionError.argumentCount p.name p.arity args.length)
  let values ← arguments inward args
  withVariables (p.params.zip values) (inward p.body)

/-- Calls a primitive operation. -/
def callOperation (inward : SExpr → EvalM SExpr) (op : Operation) (data : SExpr) :
    EvalM SExpr := do
  if op.needsArguments && data.isNil then fail (StructuralError.needsArguments op.name)
  let args ← argumentList op.name data
  ofExcept (op.arity.check op.name args.length)
  match op.meaning with
  | .function f => do
    let values ← arguments inward args
    ofExcept (f.apply values)
  | .form form => form.run inward args

/-- The atom at the head of a call, and whether it came out of an evaluation. -/
def head (evaluate : SExpr → EvalM SExpr) (address : SExpr) : EvalM (Atom × Bool) := do
  let reserved :=
    match address with
    | .atom a => if Registry.standard.isReserved a.text then some a else none
    | .cons _ _ => none
  match reserved with
  | some a => pure (a, false)
  | none =>
    match ← evaluate address with
    | .atom a => pure (a, true)
    | x => fail (TypeError.notApplicable x)

/-- The value of a call. -/
def call (evaluate : Bool → SExpr → EvalM SExpr) (literal : Bool) (address data : SExpr) :
    EvalM SExpr := do
  let (symbol, evaluated) ← head (evaluate literal) address
  match ← ofExcept (Callee.resolve (← get) literal evaluated symbol) with
  | .value x => pure x
  | .procedure p => callProcedure (evaluate true) p data
  | .operation op => callOperation (evaluate true) op data

end Eval

/-- The value of an expression with the given number of levels of evaluation left. -/
def eval : (levels : Nat) → (literal : Bool) → SExpr → EvalM SExpr
  | 0, _, _ => fail StructuralError.evaluationLimit
  | _ + 1, _, .atom a => Eval.atom a
  | levels + 1, literal, .cons address data => Eval.call (eval levels) literal address data

/-- The value of an expression that stands at the given depth of evaluation. -/
def evalAt (depth : Nat) (literal : Bool) (x : SExpr) : EvalM SExpr :=
  eval (Limits.evaluation - depth) literal x

/-- The result of an evaluation and the state that it leaves. -/
def EvalM.runFrom {α : Type} (m : EvalM α) (s : EvalState) : Except Error α × EvalState :=
  (m.run).run s

/-- The result of a statement and the environment that it leaves. -/
def evalStatement (env : Env) (x : SExpr) : Except Error SExpr × Env :=
  let (result, s) := (evalAt 0 false x).runFrom { env }
  (result, s.env)

end PairLisp
