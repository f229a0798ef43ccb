import PairLisp.Text.Alphabetic

/-!
# The vocabulary of the language

A vocabulary says which characters are letters, digits, signs, brackets, dots and string quotes.
Everything that looks at tokens (the lexer, the search for a closing bracket, the form of dotted
pairs, the atoms) asks a vocabulary, so a dialect with other brackets or another quote is another
value of the same type.

The character classes are fields and may overlap. So are the classes that the lexer and the form of
clauses ask for: the symbols, and the tokens that are brackets or dots. A dialect that says nothing
of these has the single characters of its brackets and dots. The other token classes are functions
of the character classes: a numeral, a word, a name, a string. The relational operators and the
operator characters belong to the language itself and are the same in every vocabulary.
-/

namespace PairLisp

/-- A token is a piece of program text, quotes included. -/
abbrev Token := String

namespace Vocabulary

/-- The characters that name an operation on their own. -/
def operators : List Char := ['+', '-', '*', '/', '^', '\'', '=', '<', '>']

/-- The operators written with two characters. -/
def relations : List Token := ["<=", ">="]

/-- A token of exactly one character, of the given class. -/
def isSingle (p : Char → Bool) (t : Token) : Bool :=
  match t.toList with
  | [c] => p c
  | _ => false

end Vocabulary

/-- The classes of characters and tokens of a dialect. -/
structure Vocabulary where
  /-- Letters begin names. -/
  isLetter : Char → Bool
  /-- Digits make numerals and may follow a letter in a name. -/
  isDigit : Char → Bool
  /-- Signs may stand in front of digits. -/
  isSign : Char → Bool
  /-- Brackets that begin a clause. -/
  isOpen : Char → Bool
  /-- Brackets that end a clause. -/
  isClose : Char → Bool
  /-- Dots separate the two halves of a pair. -/
  isDot : Char → Bool
  /-- Quotes begin and end a string. -/
  isQuote : Char → Bool
  /-- The characters that form a token on their own. -/
  isSymbol : Char → Bool := fun c =>
    isOpen c || isClose c || isDot c || Vocabulary.operators.contains c
  /-- Opening brackets as tokens. -/
  isOpenToken : Token → Bool := Vocabulary.isSingle isOpen
  /-- Closing brackets as tokens. -/
  isCloseToken : Token → Bool := Vocabulary.isSingle isClose
  /-- Dots as tokens. -/
  isDotToken : Token → Bool := Vocabulary.isSingle isDot

namespace Vocabulary

/-- The vocabulary of the language as it is: the alphabetic characters of every script, the ten
ASCII digits, three interchangeable kinds of brackets. -/
def standard : Vocabulary where
  isLetter := Text.isAlphabetic
  isDigit c := '0' ≤ c && c ≤ '9'
  isSign c := c == '+' || c == '-'
  isOpen c := c == '(' || c == '[' || c == '{'
  isClose c := c == ')' || c == ']' || c == '}'
  isDot c := c == '.'
  isQuote c := c == '"'

variable (v : Vocabulary)

/-- The characters of words. -/
def isWordChar (c : Char) : Bool :=
  v.isLetter c || v.isDigit c

/-! ## Classes of tokens -/

/-- Brackets, dots and operators as tokens. -/
def isSymbolToken (t : Token) : Bool := isSingle v.isSymbol t

/-- The tokens that give a program its shape: brackets and dots. -/
def isStructural (t : Token) : Bool :=
  v.isOpenToken t || v.isCloseToken t || v.isDotToken t

/-- The two-character operators. -/
def isRelation (t : Token) : Bool := relations.contains t

/-- A numeral without its sign, if it has one. The signs of numerals are always plus and minus,
whatever the dialect calls a sign. -/
def unsigned : List Char → List Char
  | '+' :: digits => digits
  | '-' :: digits => digits
  | digits => digits

/-- Numerals: at least one digit, after at most one sign. -/
def isNumeral (t : Token) : Bool :=
  let digits := unsigned t.toList
  !digits.isEmpty && digits.all v.isDigit

/-- Words: letters and digits only, at least one. -/
def isWord (t : Token) : Bool :=
  let cs := t.toList
  !cs.isEmpty && cs.all v.isWordChar

/-- Names: words that begin with a letter. A function and a parameter must have one. -/
def isName (t : Token) : Bool :=
  match t.toList with
  | c :: cs => v.isLetter c && cs.all v.isWordChar
  | [] => false

/-- Strings: a quote at either end and none between. -/
def isString (t : Token) : Bool :=
  match t.toList with
  | first :: rest =>
    match rest.getLast? with
    | some last => v.isQuote first && v.isQuote last && !rest.dropLast.any v.isQuote
    | none => false
  | [] => false

end Vocabulary

end PairLisp
