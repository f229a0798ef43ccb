import PairLisp.Error

/-!
# Comments

A semicolon begins a comment that ends with its line. The marks `#|` and `|#` enclose a block
comment, which may run over several lines and holds no further block comment. Inside a string
neither is a mark.

`Comment.strip` removes the comments of a text. Every line end stays, so that later positions
count the same lines, and a block comment leaves one space, so that the tokens before and after
it stay apart. A mark that ends a block comment where none is open, and a block comment that is
never closed, are errors with the number of their line.
-/

namespace PairLisp.Comment

/-- Where in a program a character stands. -/
inductive Mode where
  | code
  | string
  | line
  /-- Inside a block comment that was opened on the given line. -/
  | block (opened : Nat)
deriving DecidableEq

/-- The number of the line after the given character. -/
def nextLine (line : Nat) (c : Char) : Nat :=
  if c = '\n' then line + 1 else line

/-- Scans a text from the given mode on the given line and keeps what is no comment. -/
def scan : Mode → (line : Nat) → List Char → Except LexicalError (List Char)
  | .block opened, _, [] => .error (.openComment opened)
  | _, _, [] => .ok []
  | .code, line, ';' :: cs => scan .line line cs
  | .code, line, '#' :: '|' :: cs => (scan (.block line) line cs).map (' ' :: ·)
  | .code, line, '|' :: '#' :: _ => .error (.strayCommentEnd line)
  | .code, line, '"' :: cs => (scan .string line cs).map ('"' :: ·)
  | .code, line, c :: cs => (scan .code (nextLine line c) cs).map (c :: ·)
  | .string, line, c :: cs =>
    (scan (if c = '"' then .code else .string) (nextLine line c) cs).map (c :: ·)
  | .line, line, c :: cs =>
    if c = '\n' then (scan .code (line + 1) cs).map (c :: ·) else scan .line line cs
  | .block _, line, '|' :: '#' :: cs => scan .code line cs
  | .block opened, line, c :: cs =>
    if c = '\n' then (scan (.block opened) (line + 1) cs).map (c :: ·)
    else scan (.block opened) line cs

/-- The text without its comments. -/
def strip (text : String) : Except LexicalError String :=
  (scan .code 1 text.toList).map String.ofList

end PairLisp.Comment
