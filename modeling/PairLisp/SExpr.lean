import PairLisp.Atom

/-!
# Symbolic expressions

An expression is an atom or a pair. The first half of a pair is its address and the second
half its data. A list is a chain of pairs along the data that ends in `NIL`, and `NIL` itself
is the empty list; a chain may also end in another atom, and then it is no list.

Programs, arguments and values are all expressions. Equality compares them part by part
(`SExpr.same_iff`), so the same number spelled in two ways makes two expressions.
-/

namespace PairLisp

/-- An atom or a pair. -/
inductive SExpr where
  | atom (a : Atom)
  | cons (address data : SExpr)

namespace SExpr

instance : Inhabited SExpr := ⟨.atom .nil⟩

/-- Whether two expressions are the same, part by part. -/
def same : SExpr → SExpr → Bool
  | .atom a, .atom b => a == b
  | .cons a d, .cons b e => same a b && same d e
  | _, _ => false

/-- The comparison in a loop decides equality. -/
theorem same_iff {x y : SExpr} : same x y = true ↔ x = y := by
  induction x generalizing y with
  | atom a => cases y <;> simp [same]
  | cons a d iha ihd => cases y <;> simp [same, iha, ihd]

instance : DecidableEq SExpr := fun _ _ => decidable_of_iff _ same_iff

/-- The empty list, which is also falsehood. -/
def nil : SExpr := .atom .nil

/-- The truth value as an expression. -/
def ofBool (b : Bool) : SExpr := .atom (.ofBool b)

/-- The integer as an expression. -/
def ofInt (n : Int) : SExpr := .atom (.ofInt n)

/-- The list of the given expressions. -/
def ofList : List SExpr → SExpr
  | [] => nil
  | x :: xs => .cons x (ofList xs)

/-- The atom of the given text as an expression, if a program may write it. -/
def ofText? (s : String) : Option SExpr := (Atom.ofText? s).map .atom

/-- The addresses along the chain of data. -/
def elements : SExpr → List SExpr
  | .atom _ => []
  | .cons a d => a :: d.elements

/-- The atom at which the chain of data ends. -/
def terminator : SExpr → Atom
  | .atom a => a
  | .cons _ d => d.terminator

/-- The elements of a list, the empty list included. -/
def toList? (x : SExpr) : Option (List SExpr) :=
  if x.terminator.isNil then some x.elements else none

/-- Whether the expression is an atom. -/
def isAtom : SExpr → Bool
  | .atom _ => true
  | .cons _ _ => false

/-- Whether the expression is a list with at least one element. -/
def isConsList : SExpr → Bool
  | .atom _ => false
  | .cons _ d => d.terminator.isNil

/-- Whether the expression is `NIL`. -/
def isNil : SExpr → Bool
  | .atom a => a.isNil
  | .cons _ _ => false

/-- Whether the expression is `T`. -/
def isTrue : SExpr → Bool
  | .atom a => a.isTrue
  | .cons _ _ => false

/-- Whether the expression is a numeral. -/
def isNumeral : SExpr → Bool
  | .atom a => a.isNumeral
  | .cons _ _ => false

/-- The number that the expression denotes. -/
def toInt? : SExpr → Option Int
  | .atom a => a.toInt?
  | .cons _ _ => none

/-- The truth value that the expression is. -/
def toBool? (x : SExpr) : Option Bool :=
  if x.isTrue then some true else if x.isNil then some false else none

@[simp] theorem elements_ofList (xs : List SExpr) : (ofList xs).elements = xs := by
  induction xs with
  | nil => rfl
  | cons x xs ih => simp [ofList, elements, ih]

@[simp] theorem terminator_ofList (xs : List SExpr) : (ofList xs).terminator = .nil := by
  induction xs with
  | nil => rfl
  | cons x xs ih => simpa [ofList, terminator] using ih

/-- The list of some elements has just these elements. -/
@[simp] theorem toList?_ofList (xs : List SExpr) : (ofList xs).toList? = some xs := by
  simp [toList?, show Atom.nil.isNil = true from rfl]

/-- An expression that ends with the empty list is the list of its elements. -/
theorem ofList_elements {x : SExpr} (h : x.terminator.isNil = true) : ofList x.elements = x := by
  induction x with
  | atom a => exact congrArg atom (Atom.eq_nil_of_isNil h).symm
  | cons a d _ ihd => exact congrArg (cons a) (ihd h)

/-- A list is the list of its elements. -/
theorem eq_ofList_of_toList? {x : SExpr} {xs : List SExpr} (h : x.toList? = some xs) :
    x = ofList xs := by
  unfold toList? at h
  split at h
  · next hnil => rw [← Option.some.inj h, ofList_elements hnil]
  · simp at h

end SExpr

end PairLisp
