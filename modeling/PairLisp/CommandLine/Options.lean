/-!
# Options of the command line

The command line takes switches, which stand alone, and settings, which have a value. A long
option is a whole word (`--input`), and the value of a setting follows in the next word or after
an equals sign. Short options share a word (`-di`), in which everything after a setting is its
value, an equals sign in front of it left out. There are no other arguments, and `--` ends the
options.

A word that begins with a hyphen is never the value of the setting in front of it, except the
hyphen alone. A setting whose value may still follow in the next word is not judged before the
next option: a word that makes no sense is reported first.
-/

namespace PairLisp.CommandLine

/-- What the command line asks for. -/
structure Options where
  /-- Whether errors are shown in full. -/
  debug : Bool := false
  /-- Whether the report is JSON. -/
  json : Bool := false
  /-- The program file, if not standard input. -/
  input : Option String := none
  /-- The report file, if not standard output. -/
  output : Option String := none
  /-- What stands between two lines of the report. -/
  separator : String := "\n"
deriving DecidableEq

/-- What is wrong with a command line. -/
inductive UsageError where
  | unknownArgument
  /-- A setting without its value, or with an empty one that is a file name. -/
  | invalidValue
  /-- An option that is given twice. -/
  | argumentConflict
  /-- A switch with a value. -/
  | tooManyValues
deriving DecidableEq

/-- Why a command line does not ask for a run. -/
inductive Stop where
  | help
  | version
  | usage (e : UsageError)
deriving DecidableEq

inductive Switch where
  | debug | json | help | version
deriving DecidableEq

inductive Setting where
  | input | output | separator
deriving DecidableEq

/-- The options that a command line may hold. -/
inductive Key where
  | switch (s : Switch)
  | setting (s : Setting)
deriving DecidableEq

namespace Key

/-- The option of a long name. -/
def ofLong? : String → Option Key
  | "debug" => some (.switch .debug)
  | "json" => some (.switch .json)
  | "help" => some (.switch .help)
  | "version" => some (.switch .version)
  | "input" | "in" => some (.setting .input)
  | "output" | "out" => some (.setting .output)
  | "separator" => some (.setting .separator)
  | _ => none

/-- The option of a letter. -/
def ofShort? : Char → Option Key
  | 'd' => some (.switch .debug)
  | 'h' => some (.switch .help)
  | 'V' => some (.switch .version)
  | 'i' => some (.setting .input)
  | 'o' => some (.setting .output)
  | _ => none

end Key

/-- How far a command line has been read. -/
structure Parsing where
  options : Options := {}
  /-- The options that were given. -/
  given : List Key := []
  /-- The setting that may still take a word as its value, and the value that it has taken. -/
  pending : Option (Setting × Option String) := none

namespace Parsing

def fail {α : Type} (e : UsageError) : Except Stop α := .error (.usage e)

/-- Notes that an option is given, which it may be only once. -/
def give (p : Parsing) (key : Key) : Except Stop Parsing :=
  if p.given.contains key then fail .argumentConflict
  else .ok { p with given := key :: p.given }

/-- Gives a setting a value. The name of a file may not be empty. -/
def assign (p : Parsing) (s : Setting) (value : String) : Except Stop Parsing := do
  let p ← p.give (.setting s)
  match s with
  | .separator => .ok { p with options := { p.options with separator := value } }
  | .input =>
    if value.isEmpty then fail .invalidValue
    else .ok { p with options := { p.options with input := some value } }
  | .output =>
    if value.isEmpty then fail .invalidValue
    else .ok { p with options := { p.options with output := some value } }

/-- Judges the setting that was waiting for its value. -/
def settle (p : Parsing) : Except Stop Parsing :=
  match p.pending with
  | none => .ok p
  | some (_, none) => fail .invalidValue
  | some (s, some value) => { p with pending := none }.assign s value

/-- Reads a switch. -/
def turnOn (p : Parsing) (s : Switch) : Except Stop Parsing := do
  let p ← p.settle
  let p ← p.give (.switch s)
  match s with
  | .debug => .ok { p with options := { p.options with debug := true } }
  | .json => .ok { p with options := { p.options with json := true } }
  | .help => .error .help
  | .version => .error .version

/-- Reads a setting, with the value that is attached to it, if one is. -/
def readSetting (p : Parsing) (s : Setting) (attached : Option String) : Except Stop Parsing := do
  let p ← p.settle
  match attached with
  | some value => p.assign s value
  | none => .ok { p with pending := some (s, none) }

/-- Splits a long option at its first equals sign. -/
def splitValue (cs : List Char) : String × Option String :=
  let name := String.ofList (cs.takeWhile (· ≠ '='))
  match cs.dropWhile (· ≠ '=') with
  | [] => (name, none)
  | _ :: value => (name, some (String.ofList value))

/-- Reads a long option, without its two hyphens. -/
def readLong (p : Parsing) (cs : List Char) : Except Stop Parsing :=
  let (name, value) := splitValue cs
  match Key.ofLong? name, value with
  | none, _ => fail .unknownArgument
  | some (.switch _), some _ => fail .tooManyValues
  | some (.switch s), none => p.turnOn s
  | some (.setting s), value => p.readSetting s value

/-- The value that the rest of a word of short options gives to a setting. -/
def attachedValue : List Char → Option String
  | [] => none
  | '=' :: cs => some (String.ofList cs)
  | cs => some (String.ofList cs)

/-- Reads the short options of a word, without its hyphen. -/
def readShort (p : Parsing) : List Char → Except Stop Parsing
  | [] => .ok p
  | c :: cs =>
    match Key.ofShort? c with
    | none => fail .unknownArgument
    | some (.switch s) => do (← p.turnOn s).readShort cs
    | some (.setting s) => p.readSetting s (attachedValue cs)

/-- Reads a word that is no option: the value of the setting in front of it. -/
def readValue (p : Parsing) (word : String) : Except Stop Parsing :=
  match p.pending with
  | some (s, none) => .ok { p with pending := some (s, some word) }
  | _ => fail .unknownArgument

/-- Reads the words of a command line. -/
def readWords (p : Parsing) : List String → Except Stop Parsing
  | [] => p.settle
  | word :: words =>
    match word.toList with
    | ['-', '-'] => if words.isEmpty then p.settle else fail .unknownArgument
    | '-' :: '-' :: cs => do (← p.readLong cs).readWords words
    | '-' :: c :: cs => do (← p.readShort (c :: cs)).readWords words
    | _ => do (← p.readValue word).readWords words

end Parsing

/-- The options that a command line gives, or why it gives none. -/
def Options.ofWords (words : List String) : Except Stop Options :=
  (Parsing.readWords {} words).map (·.options)

end PairLisp.CommandLine
