import PairLisp.Token

/-!
# Dotted pairs as tokens

The plainest way to write an expression down: an atom is its text, and a pair is
`( address . data )`, with every bracket and dot a token of its own. `SExpr.tokens` writes an
expression in this form and `SExpr.ofTokens` reads it.

The reader goes through the tokens once. It keeps the pairs that it is inside of as a stack of
frames: for each of them, whether its address is still being read or is known already. Nesting
counts along addresses only, so the data of a pair stand at the depth of the pair itself.
-/

namespace PairLisp.SExpr

/-- The tokens of an expression in front of the given tokens. -/
def tokensOnto : SExpr → List Token → List Token
  | .atom a, rest => a.text :: rest
  | .cons a d, rest => "(" :: a.tokensOnto ("." :: d.tokensOnto (")" :: rest))

/-- An expression written as dotted pairs. -/
def tokens (x : SExpr) : List Token := x.tokensOnto []

/-- What is put in front of the rest are the tokens of the expression alone. -/
theorem tokensOnto_eq_append (x : SExpr) (rest : List Token) :
    x.tokensOnto rest = x.tokens ++ rest := by
  unfold tokens
  induction x generalizing rest with
  | atom a => rfl
  | cons a d iha ihd =>
    rw [tokensOnto, tokensOnto, iha, ihd, iha ("." :: _), ihd [")"]]
    simp

@[simp] theorem tokens_atom (a : Atom) : (SExpr.atom a).tokens = [a.text] := rfl

/-- A pair is written in round brackets, with a dot between its two parts. -/
@[simp] theorem tokens_cons (a d : SExpr) :
    (SExpr.cons a d).tokens = "(" :: a.tokens ++ "." :: d.tokens ++ [")"] := by
  rw [tokens, tokensOnto, tokensOnto_eq_append, tokensOnto_eq_append]
  simp

/-! ## Reading -/

/-- A pair that the reader is inside of. -/
inductive Frame where
  /-- Its address is being read. -/
  | address
  /-- Its address is known and its data are being read. -/
  | data (address : SExpr)

/-- What the reader does next. -/
inductive Reading where
  /-- It reads an expression. -/
  | want
  /-- It has read the given expression. -/
  | got (x : SExpr)

/-- The expression of a single token. -/
def ofToken (t : Token) : Except StructuralError SExpr :=
  if Vocabulary.standard.isStructural t then .error (.expectedAtom t)
  else
    match ofText? t with
    | some x => .ok x
    | none => .error (.invalidAtom t)

/-- Reads on inside the given pairs, the innermost first. `room` is how many more addresses
may nest here. -/
def read (room : Nat) : Reading → List Frame → List Token → Except StructuralError SExpr
  | .want, _, [] => .error .unexpectedEnd
  | .want, frames, t :: ts =>
    if Vocabulary.standard.isOpenToken t then
      match room with
      | 0 => .error .tooDeep
      | room + 1 => read room .want (.address :: frames) ts
    else
      match ofToken t with
      | .ok x => read room (.got x) frames ts
      | .error e => .error e
  | .got x, [], [] => .ok x
  | .got _, [], t :: _ => .error (.afterExpression t)
  | .got _, .address :: _, [] => .error (.expectedToken '.' none)
  | .got x, .address :: frames, t :: ts =>
    if Vocabulary.standard.isDotToken t then read (room + 1) .want (.data x :: frames) ts
    else .error (.expectedToken '.' (some t))
  | .got _, .data _ :: _, [] => .error (.expectedToken ')' none)
  | .got x, .data a :: frames, t :: ts =>
    if Vocabulary.standard.isCloseToken t then read room (.got (.cons a x)) frames ts
    else .error (.expectedToken ')' (some t))

/-- The expression that the tokens write as dotted pairs, all of them as one expression. -/
def ofTokens (ts : List Token) : Except StructuralError SExpr :=
  read (Limits.nesting - 1) .want [] ts

end PairLisp.SExpr
