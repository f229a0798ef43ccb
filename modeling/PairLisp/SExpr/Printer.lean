import PairLisp.SExpr

/-!
# Printed form of expressions

A list prints as its elements between parentheses, with one space between two of them. Any
other pair prints as `(address . data)`, so a chain that ends in another atom than `NIL` shows
every one of its pairs.

The printer puts its characters in front of a given text, which keeps it linear in the size of
what it prints.
-/

namespace PairLisp.SExpr

mutual

/-- The printed form of an expression in front of the given characters. -/
def printOnto : SExpr → List Char → List Char
  | .atom a, rest => a.displayChars ++ rest
  | .cons a d, rest =>
    if d.terminator.isNil then
      '(' :: a.printOnto (d.printElementsOnto rest)
    else
      '(' :: a.printOnto (' ' :: '.' :: ' ' :: d.printOnto (')' :: rest))

/-- The elements of a list after its first, each after a space, and the closing parenthesis. -/
def printElementsOnto : SExpr → List Char → List Char
  | .atom _, rest => ')' :: rest
  | .cons a d, rest => ' ' :: a.printOnto (d.printElementsOnto rest)

end

mutual

/-- What is printed in front of the rest does not depend on it. -/
theorem printOnto_eq_append (x : SExpr) (rest : List Char) :
    x.printOnto rest = x.printOnto [] ++ rest := by
  cases x with
  | atom a => simp [printOnto]
  | cons a d =>
    rw [printOnto, printOnto]
    split
    · rw [printOnto_eq_append a, printElementsOnto_eq_append d,
        printOnto_eq_append a (d.printElementsOnto [])]
      simp
    · rw [printOnto_eq_append a, printOnto_eq_append d,
        printOnto_eq_append a (' ' :: '.' :: ' ' :: d.printOnto [')']), printOnto_eq_append d [')']]
      simp

/-- What is printed of the elements behind the first one does not depend on the rest either. -/
theorem printElementsOnto_eq_append (x : SExpr) (rest : List Char) :
    x.printElementsOnto rest = x.printElementsOnto [] ++ rest := by
  cases x with
  | atom a => simp [printElementsOnto]
  | cons a d =>
    rw [printElementsOnto, printElementsOnto, printOnto_eq_append a,
      printElementsOnto_eq_append d, printOnto_eq_append a (d.printElementsOnto [])]
    simp

end

/-- The printed form of an expression. -/
def print (x : SExpr) : String := String.ofList (x.printOnto [])

/-- The printed form with the kind of expression around it. An atom shows the text that it
was written with. -/
def describe : SExpr → String
  | .atom a => "Atom(" ++ a.text ++ ")"
  | x => "Cons(" ++ x.print ++ ")"

end PairLisp.SExpr
