import PairLisp.SExpr

/-!
# What a hash of an expression is computed from

Hashing an expression feeds a sequence of words to the hash function: for every expression
that stands on its own a mark that tells atoms from pairs, and for every atom its text. Pairs
that continue a chain along the data have no mark of their own; their addresses follow one
another, and the atom that ends the chain is marked as an atom.
-/

namespace PairLisp.SExpr

/-- A word that is fed to a hash function. -/
inductive HashWord where
  | atomMark
  | pairMark
  | text (s : String)
deriving DecidableEq

/-- The words of an expression. The flag says that the expression continues a chain of data. -/
def digestFrom : (continued : Bool) → SExpr → List HashWord
  | _, .atom a => [.atomMark, .text a.text]
  | continued, .cons a d =>
    (if continued then [] else [.pairMark]) ++ a.digestFrom false ++ d.digestFrom true

/-- The words that a hash of the expression is computed from. -/
def digest (x : SExpr) : List HashWord := x.digestFrom false

end PairLisp.SExpr
