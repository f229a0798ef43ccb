import PairLisp.CommandLine.Options
import PairLisp.CommandLine.FileTree
import PairLisp.Report

/-!
# The command line

One run reads a program from a file or from standard input, runs it in an empty environment and
writes a report to a file or to standard output. It ends with an exit code: 0 if all went well,
whatever came of the statements; 1 if a file could not be read or written; 2 if the command line
makes no sense.
-/

namespace PairLisp.CommandLine

/-- The answer to a question for the version. -/
def versionText : String := "conslisp 0.1.0\n"

/-- The answer to a question for help. -/
def helpText : String :=
  "Evaluate a conslisp program and print one line per top-level statement\n" ++
  "\n" ++
  "Usage: conslisp [OPTIONS]\n" ++
  "\n" ++
  "Options:\n" ++
  "  -d, --debug                  Print full error messages\n" ++
  "  -i, --input, --in <FILE>     Program file to run (default: standard input)\n" ++
  "  -o, --output, --out <FILE>   Output file (default: standard output)\n" ++
  "      --separator <SEPARATOR>  Text placed between statement results\n" ++
  "      --json                   Emit a JSON report instead of plain lines\n" ++
  "  -h, --help                   Print help\n" ++
  "  -V, --version                Print version\n"

/-- The report on a program. -/
def report (options : Options) (program : String) : String :=
  let (outcomes, _) := Program.run ∅ program
  if options.json then Report.json outcomes
  else Report.text options.separator options.debug outcomes

/-- What a run leaves behind. -/
structure Exit where
  code : Nat
  stdout : String := ""
  tree : FileTree

/-- The program that is asked for, if it can be read. -/
def program? (options : Options) (stdin : String) (tree : FileTree) : Option String :=
  match options.input with
  | none => some stdin
  | some path => tree.read? path

/-- A run that has options: reads, evaluates and writes. -/
def runOptions (options : Options) (stdin : String) (tree : FileTree) : Exit :=
  match program? options stdin tree with
  | none => { code := 1, tree }
  | some program =>
    let text := report options program
    match options.output with
    | none => { code := 0, stdout := text ++ "\n", tree }
    | some path =>
      match tree.write? (tree.freshPath path) text with
      | some tree => { code := 0, tree }
      | none => { code := 1, tree }

/-- A run of the command line with the given words, standard input and files. -/
def run (words : List String) (stdin : String) (tree : FileTree) : Exit :=
  match Options.ofWords words with
  | .error .help => { code := 0, stdout := helpText, tree }
  | .error .version => { code := 0, stdout := versionText, tree }
  | .error (.usage _) => { code := 2, tree }
  | .ok options => runOptions options stdin tree

end PairLisp.CommandLine
