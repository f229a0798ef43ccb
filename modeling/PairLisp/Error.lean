import PairLisp.Limits
import PairLisp.SExpr.Printer

/-!
# Errors

An error is the cause of a failure, with what its text mentions. There are six kinds, and the
kind is what a short report shows; `Error.message` gives the full text.

* `LexicalError`: the text does not split into tokens.
* `StructuralError`: the tokens do not form an expression, or a form has the wrong shape.
* `BindingError`: a name stands for nothing.
* `DefinitionError`: a definition or the number of arguments of a call is wrong.
* `ArithmeticError`: a result or a numeral is out of range, or a divisor is zero.
* `TypeError`: a value is of the wrong kind.
-/

namespace PairLisp

/-- Why a text does not split into tokens. -/
inductive LexicalError where
  /-- The end of a block comment outside a block comment, and its line. -/
  | strayCommentEnd (line : Nat)
  /-- A block comment without an end, and the line of its beginning. -/
  | openComment (line : Nat)
  /-- A string without an end: where it begins and its first characters. -/
  | openString (position : Nat) (context : String)
  /-- A character of no class. -/
  | unexpectedChar (c : Char) (position : Nat)
deriving DecidableEq

/-- Why tokens do not form an expression, or a form does not have its shape. -/
inductive StructuralError where
  | invalidAtom (text : String)
  | emptyStatement
  | badStart (token : String)
  | afterClause (token : String)
  | atTopLevel (token : String)
  | openClause (token : String)
  | unexpectedToken (token : String)
  | missingAddress
  | missingData
  | repeatedDot
  | crowdedData
  | tooDeep
  | expectedAtom (token : String)
  | expectedToken (expected : Char) (found : Option String)
  | unexpectedEnd
  | afterExpression (token : String)
  | evaluationLimit
  | needsArguments (operation : String)
  | improperArguments (operation : String) (data : SExpr)
  | condArm (arm : SExpr)
  | noCondArm
deriving DecidableEq

/-- Which name stands for nothing. -/
inductive BindingError where
  | unboundVariable (name : String)
  | notBound (name : String)
  | undefinedFunction (name : String)
deriving DecidableEq

/-- What is wrong with a definition or with the number of arguments of a call. -/
inductive DefinitionError where
  | argumentCount (operation : String) (expected got : Nat)
  | functionName (name : String)
  | primitiveName (name : String)
  | functionNameNotAtom (name : SExpr)
  | improperParameters (function : String) (formals : SExpr)
  | parameterName (item : SExpr) (function : String)
  | duplicateParameter (parameter function : String)
  | sharedAlias (name first second : String)
deriving DecidableEq

/-- Which arithmetic has no result. -/
inductive ArithmeticError where
  | literalOutOfRange (a : Atom)
  | overflow (operation : String)
  | divisionByZero (operation : String)
deriving DecidableEq

/-- Which value is of the wrong kind. -/
inductive TypeError where
  | expectedNumber (value : SExpr)
  | expectedProperList (value : SExpr)
  | expectedBoolean (value : SExpr)
  | guard (form : String) (value : SExpr)
  | expectedBooleans (form : String)
  | expectedCons (operation : String) (a : Atom)
  | expectedList (operation : String) (value : SExpr)
  | emptyFold (operation : String)
  | negativeExponent (exponent : Int)
  | notApplicable (head : SExpr)
deriving DecidableEq

/-- The failure of a statement or of a whole text. -/
inductive Error where
  | lexical (e : LexicalError)
  | structural (e : StructuralError)
  | binding (e : BindingError)
  | definition (e : DefinitionError)
  | arithmetic (e : ArithmeticError)
  | type (e : TypeError)
deriving DecidableEq

instance : Coe LexicalError Error := ⟨.lexical⟩
instance : Coe StructuralError Error := ⟨.structural⟩
instance : Coe BindingError Error := ⟨.binding⟩
instance : Coe DefinitionError Error := ⟨.definition⟩
instance : Coe ArithmeticError Error := ⟨.arithmetic⟩
instance : Coe TypeError Error := ⟨.type⟩

def LexicalError.message : LexicalError → String
  | strayCommentEnd line => s!"'|#' without a matching '#|' on line {line}"
  | openComment line => s!"block comment opened on line {line} is never closed"
  | openString position context =>
    s!"unterminated string starting at position {position}: {context}"
  | unexpectedChar c position => s!"unexpected character '{c}' at position {position}"

def StructuralError.message : StructuralError → String
  | invalidAtom text => s!"'{text}' is not a valid atom"
  | emptyStatement => "empty statement"
  | badStart token => s!"statement cannot start with '{token}'"
  | afterClause token => s!"unexpected '{token}' after the end of the clause"
  | atTopLevel token => s!"unexpected '{token}' at top level"
  | openClause token => s!"missing close bracket for clause starting with '{token}'"
  | unexpectedToken token => s!"unexpected '{token}'"
  | missingAddress => "missing address before '.'"
  | missingData => "missing data after '.'"
  | repeatedDot => "unexpected '.' after '.'"
  | crowdedData => "data after '.' must be a single element"
  | tooDeep => s!"expression too deeply nested (max depth: {Limits.nesting})"
  | expectedAtom token => s!"expected an atom, found '{token}'"
  | expectedToken expected (some token) => s!"expected '{expected}', found '{token}'"
  | expectedToken expected none => s!"expected '{expected}', found end of expression"
  | unexpectedEnd => "unexpected end of expression"
  | afterExpression token => s!"unexpected '{token}' after a complete expression"
  | evaluationLimit => s!"evaluation depth limit exceeded (max: {Limits.evaluation})"
  | needsArguments operation => s!"{operation} requires arguments"
  | improperArguments operation data =>
    s!"arguments to {operation} must form a list, got {data.print}"
  | condArm arm => s!"cond arm must be (guard consequent), got {arm.print}"
  | noCondArm => "no cond arm matched"

def BindingError.message : BindingError → String
  | unboundVariable name => s!"unbound variable {name}"
  | notBound name => s!"cannot unbind {name}: not bound"
  | undefinedFunction name => s!"undefined function {name}"

def DefinitionError.message : DefinitionError → String
  | argumentCount operation expected got =>
    let direction := if got < expected then "few" else "many"
    s!"too {direction} arguments for {operation}: expected {expected}, got {got}"
  | functionName name => s!"invalid function name {name}"
  | primitiveName name => s!"cannot redefine primitive {name}"
  | functionNameNotAtom name => s!"function name must be an atom, got {name.print}"
  | improperParameters function formals =>
    s!"parameters of {function} must be a list, got {formals.print}"
  | parameterName item function => s!"invalid parameter name {item.print} in {function}"
  | duplicateParameter parameter function =>
    s!"duplicate parameter name {parameter} in {function}"
  | sharedAlias name first second =>
    s!"alias '{name}' is claimed by both {first} and {second}"

def ArithmeticError.message : ArithmeticError → String
  | literalOutOfRange a => s!"integer literal {a.display} is out of range"
  | overflow operation => s!"integer overflow in {operation}"
  | divisionByZero operation => s!"division by zero in {operation}"

def TypeError.message : TypeError → String
  | expectedNumber value => s!"expected number, got {value.print}"
  | expectedProperList value => s!"expected a proper list, got {value.print}"
  | expectedBoolean value => s!"expected boolean (T or NIL), got {value.print}"
  | guard form value => s!"{form} guard: expected boolean (T or NIL), got {value.print}"
  | expectedBooleans form => s!"'{form}' requires boolean arguments"
  | expectedCons operation a => s!"{operation} requires a cons, got {a.display}"
  | expectedList operation value => s!"{operation} requires a list, got {value.print}"
  | emptyFold operation => s!"{operation} of an empty list"
  | negativeExponent exponent => s!"negative exponent {exponent}"
  | notApplicable head => s!"cannot apply {head.print} as a function"

namespace Error

/-- The kind of an error as reports show it. -/
def kind : Error → String
  | lexical _ => "LexicalError"
  | structural _ => "StructuralError"
  | binding _ => "BindingError"
  | definition _ => "DefinitionError"
  | arithmetic _ => "ArithmeticError"
  | type _ => "TypeError"

/-- The text of an error without its kind. -/
def message : Error → String
  | lexical e => e.message
  | structural e => e.message
  | binding e => e.message
  | definition e => e.message
  | arithmetic e => e.message
  | type e => e.message

/-- The kind and the text of an error. -/
def describe (e : Error) : String := s!"{e.kind}: {e.message}"

end Error

end PairLisp
