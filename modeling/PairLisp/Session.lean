import PairLisp.Report
import PairLisp.Text.Backspace

/-!
# Interactive sessions

A session takes its input line by line. Lines are collected until no clause is open any more;
then they are run as one program, in the environment that the programs before them have left,
and the outcomes are printed. In front of a program, blank lines are skipped and a line may be a
command: `:help`, `:env`, `:debug`, `:quit` or `:exit`.

Whether a clause is open is a matter of counting brackets (`Session.openBrackets`). Text that
does not split into tokens is run at once, so that its error is printed.

The backspaces of a line are applied before anything looks at it. A line that cannot be edited
breaks the session off.
-/

namespace PairLisp

/-- A session between two lines of input. -/
structure Session where
  env : Env := ∅
  /-- Whether errors are shown in full. -/
  verbose : Bool := false
  /-- The lines of a program that is not complete yet. -/
  pending : String := ""

namespace Session

/-- How many more brackets a sequence of tokens opens than it closes. -/
def balance : List Token → Int
  | [] => 0
  | t :: ts =>
    if Vocabulary.standard.isOpenToken t then balance ts + 1
    else if Vocabulary.standard.isCloseToken t then balance ts - 1
    else balance ts

/-- How many more brackets a text opens than it closes. -/
def openBrackets (text : String) : Int :=
  match Program.tokens text with
  | .error _ => 0
  | .ok ts => balance ts

/-! ## Texts -/

/-- Lines of text, each with its end. -/
def unlines (lines : List String) : String := String.join (lines.map (· ++ "\n"))

/-- What a session begins with. -/
def banner : String := unlines [
  "conslisp interactive interpreter",
  "Enter expressions like: (sum 5 6) or \x7bdefun sq [x] (product x x)\x7d",
  "Type :help for more commands, or Ctrl+C to exit.",
  ""]

/-- What a session ends with. -/
def farewell : String := "Goodbye!\n"

/-- The answer to `:help`. -/
def help : String := unlines [
  "conslisp commands:",
  "  :help      - Show this help message",
  "  :env       - Show primitives and user-defined functions",
  "  :debug     - Toggle full error messages",
  "  :quit      - Exit the interpreter",
  "  :exit      - Exit the interpreter",
  "  Ctrl+C     - Cancel the current input, or exit",
  "",
  "Syntax:",
  "  Lists:        (sum 1 2 3)",
  "  Dot notation: (sum . (1 . (2 . NIL)))",
  "  Brackets:     (), [] and \x7b\x7d are interchangeable",
  "  Comments:     ; to end of line, #| block |#",
  "",
  "Examples:",
  "  (defun fibonacci (n) (cond [(<= n 1) n] " ++
    "[t (+ (fibonacci (- n 1)) (fibonacci (- n 2)))]))",
  "  (fibonacci 7)",
  "  ((lambda (x y) (product x y)) 15 7)",
  "  (quote (a . b))",
  ""]

/-- A text filled up with spaces to the given number of characters. -/
def padded (width : Nat) (s : String) : String :=
  s ++ String.ofList (List.replicate (width - s.length) ' ')

/-- Cells in rows of three. Every row ends its line. -/
def rows : List String → List String
  | a :: b :: c :: rest => (a ++ b ++ c) :: rows rest
  | [] => []
  | rest => [String.join rest]

/-- The primitive operations with all their names. -/
def describePrimitives : String :=
  let ops := Registry.standard.operations
  let cells := ops.map fun op => "  " ++ padded 22 (" ".intercalate op.aliases)
  unlines (s!"Primitives ({ops.length}):" :: rows cells ++ [""])

/-- A procedure with its parameters and its body. -/
def describeProcedure (p : Procedure) : String :=
  s!"  ({p.name} " ++ " ".intercalate p.params ++ s!") = {p.body.print}"

/-- The procedures of an environment. -/
def describeProcedures (env : Env) : String :=
  match env.procedures.values with
  | [] => unlines ["No user-defined functions."]
  | ps => unlines (s!"User-defined functions ({ps.length}):" :: ps.map describeProcedure)

/-! ## Reading lines -/

/-- What a session does with a line: it prints a text and goes on, or it ends. -/
inductive Reply where
  | next (session : Session) (output : String)
  | quit

/-- Takes a line as part of a program, and runs the program if it is complete. -/
def submit (s : Session) (line : String) : Reply :=
  let text := s.pending ++ line ++ "\n"
  if 0 < openBrackets text then .next { s with pending := text } ""
  else
    let (outcomes, env) := Program.run s.env text
    .next { s with env, pending := "" } (unlines (outcomes.map (Outcome.line s.verbose)))

/-- Takes a line of input. -/
def feed (s : Session) (line : String) : Reply :=
  if s.pending ≠ "" then s.submit line
  else
    match Text.trim line with
    | "" => .next s ""
    | ":help" => .next s help
    | ":env" => .next s (describePrimitives ++ describeProcedures s.env)
    | ":debug" =>
      let state := if s.verbose then "off" else "on"
      .next { s with verbose := !s.verbose } s!"Full error messages {state}\n"
    | ":quit" | ":exit" => .quit
    | _ => s.submit line

/-- What a session prints from some point on, and the code that its process ends with. -/
structure Ending where
  outputs : List String
  code : Nat

/-- The end that `:quit` and the end of the input bring about. -/
def Ending.regular : Ending := { outputs := [farewell], code := 0 }

/-- The end that a line brings about that cannot be edited. -/
def Ending.brokenOff : Ending := { outputs := [], code := 101 }

/-- Goes through the given lines until the session ends. -/
def play (s : Session) : List String → Ending
  | [] => .regular
  | line :: lines =>
    match Text.applyBackspaces line with
    | none => .brokenOff
    | some line =>
      match s.feed line with
      | .next s output =>
        let ending := s.play lines
        { ending with outputs := output :: ending.outputs }
      | .quit => .regular

/-- The lines of a text. The last one needs no end, and a carriage return in front of an end
belongs to it. -/
def linesOf (input : String) : List String :=
  let parts := input.splitOn "\n"
  let complete := parts.dropLast.map fun line =>
    match line.toList.reverse with
    | '\r' :: cs => String.ofList cs.reverse
    | _ => line
  match parts.getLast? with
  | some "" | none => complete
  | some rest => complete ++ [rest]

/-- All that a session prints for the given input, and the code that it ends with. -/
def transcript (input : String) : String × Nat :=
  let ending := play {} (linesOf input)
  (banner ++ String.join ending.outputs, ending.code)

end Session

end PairLisp
