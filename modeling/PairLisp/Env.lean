import PairLisp.Primitive.Registry
import PairLisp.Table

/-!
# Environments

A procedure is a function that a program has defined: its parameters and its body. An
environment holds the procedures of a session and the variables that are bound at the moment.
Procedures stay until they are defined again; variables are bound while a body that takes them
as parameters is evaluated.
-/

namespace PairLisp

/-- A function defined by a program. -/
structure Procedure where
  name : String
  params : List String
  body : SExpr
deriving DecidableEq

namespace Procedure

/-- How many arguments a procedure takes. -/
def arity (p : Procedure) : Nat := p.params.length

/-- The names of parameters, after those already read: atoms that are names, and no name
twice. -/
def readParams (name : String) (seen : List String) : List SExpr →
    Except DefinitionError (List String)
  | [] => .ok []
  | item :: items =>
    match item with
    | .atom a =>
      if !a.isName then .error (.parameterName item name)
      else if seen.contains a.text then .error (.duplicateParameter a.text name)
      else (readParams name (seen ++ [a.text]) items).map (a.text :: ·)
    | .cons _ _ => .error (.parameterName item name)

/-- The procedure with the given list of parameters and body. -/
def ofFormals (name : String) (formals body : SExpr) : Except DefinitionError Procedure :=
  match formals.toList? with
  | none => .error (.improperParameters name formals)
  | some items => (readParams name [] items).map ({ name, params := ·, body })

end Procedure

/-- The variables that are bound and the procedures that are defined. -/
structure Env where
  bindings : Table SExpr := ∅
  procedures : Table Procedure := ∅
deriving DecidableEq

namespace Env

instance : EmptyCollection Env := ⟨{ bindings := ∅, procedures := ∅ }⟩

instance : Inhabited Env := ⟨∅⟩

/-- The value of a variable. -/
def getVariable (env : Env) (name : String) : Except BindingError SExpr :=
  match env.bindings.get? name with
  | some value => .ok value
  | none => .error (.unboundVariable name)

/-- The procedure of the given name. -/
def getProcedure (env : Env) (name : String) : Except BindingError Procedure :=
  match env.procedures.get? name with
  | some p => .ok p
  | none => .error (.undefinedFunction name)

/-- The environment with a variable bound. -/
def bind (env : Env) (name : String) (value : SExpr) : Env :=
  { env with bindings := env.bindings.insert name value }

/-- The environment with several variables bound, from left to right. -/
def bindAll (env : Env) (entries : List (String × SExpr)) : Env :=
  { env with bindings := env.bindings.insertAll entries }

/-- The value of a variable, and the environment without the variable. -/
def unbind (env : Env) (name : String) : Except BindingError (SExpr × Env) :=
  match env.bindings.get? name with
  | some value => .ok (value, { env with bindings := env.bindings.erase name })
  | none => .error (.notBound name)

/-- Defines a procedure, or defines it again. Its name has to be a name and not one of a
primitive operation. -/
def define (env : Env) (name : String) (formals body : SExpr) :
    Except DefinitionError (Procedure × Env) :=
  if !Vocabulary.standard.isName name then .error (.functionName name)
  else if Registry.standard.contains name then .error (.primitiveName name)
  else
    (Procedure.ofFormals name formals body).map fun p =>
      (p, { env with procedures := env.procedures.insert name p })

end Env

end PairLisp
