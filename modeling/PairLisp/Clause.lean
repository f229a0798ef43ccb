import PairLisp.Token

/-!
# Clauses

A clause is an opening bracket with everything up to the bracket that closes it. Brackets are
matched by how deeply they nest and not by their kind: any closing bracket closes any opening
one.
-/

namespace PairLisp.Clause

/-- How many tokens to pass before the bracket that closes the innermost of `depth` open
clauses and all around it. With no clause open, the first token has to open one. -/
def closing? (v : Vocabulary) : (depth : Nat) → List Token → Option Nat
  | _, [] => none
  | depth, t :: ts =>
    if v.isOpenToken t then (closing? v (depth + 1) ts).map (· + 1)
    else if v.isCloseToken t then
      if depth ≤ 1 then some 0 else (closing? v (depth - 1) ts).map (· + 1)
    else if depth = 0 then none
    else (closing? v depth ts).map (· + 1)

/-- The place of the token that closes the clause at the given place. -/
def finish (v : Vocabulary) (ts : List Token) (start : Nat) : Except StructuralError Nat :=
  match closing? v 0 (ts.drop start) with
  | some n => .ok (start + n)
  | none => .error (.openClause (ts[start]?.getD ""))

/-- The number of tokens of the element that a sequence begins with: a whole clause, or a
single token that closes none. -/
def elementLength (v : Vocabulary) (t : Token) (ts : List Token) : Except StructuralError Nat :=
  if v.isOpenToken t then (finish v (t :: ts) 0).map (· + 1)
  else if v.isCloseToken t then .error (.unexpectedToken t)
  else .ok 1

end PairLisp.Clause
