import PairLisp.Vocabulary
import PairLisp.Integer

/-!
# Atoms

An atom is a piece of text without parts: a name, a numeral, a string, an operator or one of
the two truth values `T` and `NIL`. Two atoms are the same if their texts are, so `+5` and `5`
are two atoms for one number.

Atoms that a program writes down are made by `Atom.ofText?`, which accepts the texts of single
tokens. The atoms that name closures are made by `Atom.handle`: their text is no token, so no
program can write one down.
-/

namespace PairLisp

/-- An indivisible piece of an expression. -/
structure Atom where
  text : String
deriving DecidableEq

namespace Atom

/-- Atoms are the same if their characters are. -/
theorem eq_of_toList {a b : Atom} (h : a.text.toList = b.text.toList) : a = b := by
  rw [String.toList_inj] at h
  cases a
  cases b
  exact congrArg mk h

/-- Truth. -/
def t : Atom := ⟨"T"⟩

/-- Falsehood, and the empty list. -/
def nil : Atom := ⟨"NIL"⟩

/-- The truth value as an atom. -/
def ofBool (b : Bool) : Atom := if b then t else nil

/-- The shortest numeral for an integer. -/
def ofInt (n : Int) : Atom := ⟨toString n⟩

/-- The atom that names the closure of the given number. -/
def handle (id : Nat) : Atom := ⟨"#<lambda:" ++ toString id ++ ">"⟩

/-- The number of the closure that the atom names. -/
def handleId? (a : Atom) : Option Nat :=
  match a.text.toList with
  | '#' :: rest =>
    let id := Integer.ofDigits (rest.drop 8).dropLast
    if a = handle id then some id else none
  | _ => none

/-- The texts that atoms may have in a program. -/
def isText (s : String) : Bool :=
  let v := Vocabulary.standard
  v.isWord s || v.isNumeral s || v.isString s || Vocabulary.isRelation s || v.isSymbolToken s

/-- The atom with the given text, if a program may write it. -/
def ofText? (s : String) : Option Atom :=
  if isText s then some ⟨s⟩ else none

/-- Whether the atom is falsehood. -/
def isNil (a : Atom) : Bool := a.text == "NIL"

/-- There is no other atom with the text of the empty list. -/
theorem eq_nil_of_isNil {a : Atom} (h : a.isNil = true) : a = .nil := by
  unfold isNil at h
  rw [beq_iff_eq] at h
  cases a
  exact congrArg Atom.mk h

/-- Whether the atom is truth. -/
def isTrue (a : Atom) : Bool := a.text == "T"

/-- Whether the atom is a numeral. -/
def isNumeral (a : Atom) : Bool := Vocabulary.standard.isNumeral a.text

/-- Whether the atom is a name. -/
def isName (a : Atom) : Bool := Vocabulary.standard.isName a.text

/-- The number that the atom denotes: numerals within the range have one. -/
def toInt? (a : Atom) : Option Int :=
  if a.isNumeral then
    let n := Integer.ofNumeral a.text.toList
    if Integer.InRange n then some n else none
  else none

/-- An atom has a value as a number if it is a numeral, and its value is within the range. -/
theorem toInt?_eq_some_iff {a : Atom} {n : Int} :
    a.toInt? = some n ↔
      a.isNumeral = true ∧ Integer.ofNumeral a.text.toList = n ∧ Integer.InRange n := by
  unfold toInt?
  dsimp only
  split
  · next hnumeral =>
    split
    · next hrange =>
      rw [Option.some.injEq]
      exact ⟨fun heq => ⟨hnumeral, heq, heq ▸ hrange⟩, fun h => h.2.1⟩
    · next hrange =>
      constructor
      · intro h
        simp at h
      · rintro ⟨-, rfl, hin⟩
        exact absurd hin hrange
  · next hnumeral =>
    constructor
    · intro h
      simp at h
    · exact fun h => absurd h.1 hnumeral

/-- The characters of an atom as it is printed. A numeral loses its plus sign. -/
def displayChars (a : Atom) : List Char :=
  match a.text.toList with
  | '+' :: digits => if a.isNumeral then digits else '+' :: digits
  | cs => cs

/-- An atom as it is printed. -/
def display (a : Atom) : String := String.ofList a.displayChars

/-- The truth value that a name stands for when nothing is bound to it: `t` and `nil` in any
mixture of upper and lower case. -/
def truth? (a : Atom) : Option Bool :=
  match a.text.toList.map Char.toLower with
  | ['t'] => some true
  | ['n', 'i', 'l'] => some false
  | _ => none

end Atom

end PairLisp
