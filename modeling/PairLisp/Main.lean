import PairLisp.CommandLine

/-!
# The program

The command line with real files. All decisions are those of `PairLisp.CommandLine`; what is
here reads, writes and ends the process.
-/

namespace PairLisp.Main

open CommandLine

/-- Whether there is anything at a path. -/
def taken (path : String) : IO Bool := do
  try
    let _ ← IO.FS.realPath path
    pure true
  catch _ => pure false

/-- How many siblings of a path are tried. -/
def siblings : Nat := UInt64.size - 1

/-- Runs with the given options. -/
def runOptions (options : Options) : IO Unit := do
  let program ← match options.input with
    | some path => IO.FS.readFile path
    | none => (← IO.getStdin).readToEnd
  let text := report options program
  match options.output with
  | none => IO.println text
  | some path =>
    let target ← OutputPath.fresh taken siblings path
    IO.FS.writeFile target text

end PairLisp.Main

open PairLisp.CommandLine in
def main (words : List String) : IO UInt32 := do
  match Options.ofWords words with
  | .error .help => IO.print helpText; pure 0
  | .error .version => IO.print versionText; pure 0
  | .error (.usage _) => IO.eprint helpText; pure 2
  | .ok options =>
    try
      PairLisp.Main.runOptions options
      pure 0
    catch e =>
      IO.eprintln s!"Error: {e}"
      pure 1
