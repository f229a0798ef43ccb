import PairLisp.SExpr

/-!
# Copies of expressions

An expression is copied along its chain of data. The walk keeps a copy of every address that it
passes, the last one first, and at the end of the chain it puts the pairs together again, from the
end to the beginning. So only the addresses are a recursion of their own, and a long list needs no
more depth than a short one. `SExpr.same` compares two expressions in the same way: the addresses
first, and then on along the data.
-/

namespace PairLisp.SExpr

/-- The chain of the given addresses, the last one first, in front of its end. -/
def rebuild (addresses : List SExpr) (tail : SExpr) : SExpr :=
  addresses.foldl (fun data address => .cons address data) tail

mutual

/-- A copy of an expression. -/
def copy : SExpr → SExpr
  | .atom a => .atom a
  | .cons a d => .cons a.copy (d.copyChain [])

/-- A copy of a chain of data behind the copies of the addresses in front of it. -/
def copyChain : SExpr → List SExpr → SExpr
  | .atom a, addresses => rebuild addresses (.atom a)
  | .cons a d, addresses => d.copyChain (a.copy :: addresses)

end

end PairLisp.SExpr
