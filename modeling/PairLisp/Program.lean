import PairLisp.Comment
import PairLisp.Clause.Dotted
import PairLisp.SExpr.Dotted
import PairLisp.Eval

/-!
# Programs

A program is a text with any number of statements, each a single token or one clause. Running
it gives one outcome for each statement, in order; a statement that fails does not keep the next
ones from running, and what a statement defines stays defined for them.

A text that does not split into tokens runs no statement at all: its only outcome is the error.
-/

namespace PairLisp

/-- A piece of a program that is run on its own, with the error of its shape, if it has one. -/
structure Statement where
  tokens : List Token
  fault : Option StructuralError := none
deriving DecidableEq

namespace Statement

/-- A statement as it is shown: its tokens with one space between two of them. -/
def source (s : Statement) : String := " ".intercalate s.tokens

/-- The statements of a sequence of tokens. A closing bracket or a dot that belongs to no clause
is a faulty statement of its own, and a clause that is never closed takes all that is left. -/
def split (ts : List Token) : List Statement :=
  let v := Vocabulary.standard
  match ts with
  | [] => []
  | t :: ts =>
    if v.isOpenToken t then
      match Clause.finish v (t :: ts) 0 with
      | .ok n => { tokens := t :: ts.take n } :: split (ts.drop n)
      | .error e => [{ tokens := t :: ts, fault := some e }]
    else if v.isCloseToken t || v.isDotToken t then
      { tokens := [t], fault := some (.atTopLevel t) } :: split ts
    else { tokens := [t] } :: split ts
termination_by ts.length
decreasing_by all_goals simp only [List.length_drop, List.length_cons]; omega

/-- The expression that a statement writes down. -/
def expression (s : Statement) : Except StructuralError SExpr := do
  if let some e := s.fault then .error e
  let ts ← Clause.dotted s.tokens
  SExpr.ofTokens ts

end Statement

/-- What came of a statement. -/
structure Outcome where
  /-- The statement as it is shown. -/
  source : String
  result : Except Error SExpr

/-- The outcome of a statement and the environment that it leaves. -/
def Statement.run (env : Env) (s : Statement) : Outcome × Env :=
  match s.expression with
  | .error e => ({ source := s.source, result := .error e }, env)
  | .ok x =>
    let (result, env) := evalStatement env x
    ({ source := s.source, result }, env)

namespace Program

/-- The tokens of a program, comments left out. -/
def tokens (text : String) : Except LexicalError (List Token) := do
  let code ← Comment.strip text
  Token.tokenize (Text.trim code)

/-- Runs statements one after the other. -/
def runStatements (env : Env) : List Statement → List Outcome × Env
  | [] => ([], env)
  | s :: ss =>
    let (outcome, env) := s.run env
    let (outcomes, env) := runStatements env ss
    (outcome :: outcomes, env)

/-- Runs a program in an environment: an outcome for each statement, and the environment that
the last one leaves. -/
def run (env : Env) (text : String) : List Outcome × Env :=
  match tokens text with
  | .error e => ([{ source := Text.trim text, result := .error e }], env)
  | .ok ts => runStatements env (Statement.split ts)

end Program

end PairLisp
