import PairLisp.Clause

/-!
# From clauses to dotted pairs

A program may write a list with any brackets and with or without a dot before its last part.
`Clause.dotted` brings a statement into the one form in which every pair is written
`( address . data )`:

* `(a b c)` becomes `( a . ( b . ( c . NIL ) ) )`,
* `(a b . c)` becomes `( a . ( b . c ) )`,
* `{f [x y}]` becomes `( f . ( ( x . ( y . NIL ) ) . NIL ) )`,
* `()` becomes `NIL`.

Only clauses inside clauses count towards the limit on nesting. The pairs of one list do not,
however long it is.
-/

namespace PairLisp.Clause

/-- The tokens of a clause without its two brackets. -/
def inner (clause : List Token) : List Token := clause.tail.dropLast

/-- The dotted form of an element of a clause: a token stands for itself, and a clause has the
dotted form that the given function finds. -/
def element (clause : List Token → Except StructuralError (List Token)) :
    List Token → Except StructuralError (List Token)
  | [t] => .ok [t]
  | ts => clause ts

/-- The end of a list whose pairs stand open: what the last of them holds as data, and the
parentheses that close them. -/
def close (data : List Token) (pairs : Nat) : List Token :=
  data ++ List.replicate pairs ")"

/-- The dotted form of what follows the dot of a clause. It has to be a single element. -/
def afterDot (v : Vocabulary) (clause : List Token → Except StructuralError (List Token)) :
    List Token → Except StructuralError (List Token)
  | [] => .error .missingData
  | t :: ts => do
    if v.isDotToken t then .error .repeatedDot
    let n ← elementLength v t ts
    if n = ts.length + 1 then element clause (t :: ts) else .error .crowdedData

/-- The dotted form of the elements of a clause, one pair for each, after `pairs` pairs that
stand open. -/
def elements (v : Vocabulary) (clause : List Token → Except StructuralError (List Token))
    (pairs : Nat) (ts : List Token) : Except StructuralError (List Token) :=
  match ts with
  | [] => .ok (close ["NIL"] pairs)
  | t :: ts => do
    if v.isDotToken t then .error .missingAddress
    let n ← elementLength v t ts
    let address ← element clause (t :: ts.take (n - 1))
    let rest := ts.drop (n - 1)
    let data ←
      match rest.head? with
      | some dot =>
        if v.isDotToken dot then
          (afterDot v clause rest.tail).map (close · (pairs + 1))
        else elements v clause (pairs + 1) rest
      | none => elements v clause (pairs + 1) rest
    .ok ("(" :: address ++ "." :: data)
termination_by ts.length
decreasing_by all_goals simp only [List.length_drop, List.length_cons]; omega

/-- The dotted form of a clause in which clauses may nest up to the given depth, the clause
itself included. -/
def dottedClause (v : Vocabulary) : (room : Nat) → List Token →
    Except StructuralError (List Token)
  | 0, _ => .error .tooDeep
  | room + 1, clause =>
    match inner clause with
    | [] => .ok ["NIL"]
    | ts => elements v (dottedClause v room) 0 ts

/-- The dotted form of a statement, which is a single token or one clause, in the given
vocabulary. -/
def dottedIn (v : Vocabulary) (ts : List Token) : Except StructuralError (List Token) :=
  match ts with
  | [] => .error .emptyStatement
  | t :: ts' =>
    if v.isOpenToken t then do
      let last ← finish v ts 0
      match ts[last + 1]? with
      | some extra => .error (.afterClause extra)
      | none => dottedClause v Limits.nesting ts
    else if ts'.isEmpty && !v.isStructural t then .ok [t]
    else .error (.badStart t)

/-- The dotted form of a statement of the language. -/
def dotted (ts : List Token) : Except StructuralError (List Token) :=
  dottedIn .standard ts

end PairLisp.Clause
