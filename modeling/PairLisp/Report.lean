import PairLisp.Program

/-!
# Reports

The outcomes of a program are reported either as lines of text, one for each statement, or as a
JSON list with an object for each statement. An object holds the statement and either its
result or an error object with the kind and the message; the members of an object stand in
alphabetical order.
-/

namespace PairLisp

/-- An outcome as a line of text. Errors show their kind, and their message if the report is
verbose. -/
def Outcome.line (verbose : Bool) (o : Outcome) : String :=
  match o.result with
  | .ok x => x.print
  | .error e => if verbose then s!"Error occurred! {e.describe}" else s!"Error occurred! ({e.kind})"

namespace Report

/-- The lines of all outcomes with a separator between two of them. -/
def text (separator : String) (verbose : Bool) (outcomes : List Outcome) : String :=
  separator.intercalate (outcomes.map (Outcome.line verbose))

/-! ## JSON -/

/-- A character inside a JSON string. Quotes, backslashes and control characters are escaped,
the latter by a letter if they have one. -/
def escape (c : Char) : List Char :=
  match c with
  | '"' => ['\\', '"']
  | '\\' => ['\\', '\\']
  | '\x08' => ['\\', 'b']
  | '\x0c' => ['\\', 'f']
  | '\n' => ['\\', 'n']
  | '\r' => ['\\', 'r']
  | '\t' => ['\\', 't']
  | c =>
    if c.toNat < 0x20 then
      ['\\', 'u', '0', '0', Nat.digitChar (c.toNat / 16), Nat.digitChar (c.toNat % 16)]
    else [c]

/-- A text as a JSON string. -/
def jsonString (s : String) : String :=
  String.ofList ('"' :: s.toList.flatMap escape ++ ['"'])

/-- The beginning of a line at the given depth. -/
def indentation (depth : Nat) : String := String.ofList (List.replicate (2 * depth) ' ')

/-- Items between brackets, each on a line of its own, at the given depth. -/
def jsonBlock (opening closing : String) (depth : Nat) (items : List String) : String :=
  if items.isEmpty then opening ++ closing
  else
    let lines := items.map (indentation (depth + 1) ++ ·)
    opening ++ "\n" ++ ",\n".intercalate lines ++ "\n" ++ indentation depth ++ closing

/-- A JSON object with the given members, whose values are JSON already. -/
def jsonObject (depth : Nat) (members : List (String × String)) : String :=
  jsonBlock "\x7b" "\x7d" depth (members.map fun (key, value) => jsonString key ++ ": " ++ value)

/-- An outcome as a JSON object. -/
def jsonOutcome (depth : Nat) (o : Outcome) : String :=
  let result :=
    match o.result with
    | .ok x => ("result", jsonString x.print)
    | .error e =>
      ("error", jsonObject (depth + 1)
        [("kind", jsonString e.kind), ("message", jsonString e.message)])
  jsonObject depth [result, ("statement", jsonString o.source)]

/-- All outcomes as a JSON list. -/
def json (outcomes : List Outcome) : String :=
  jsonBlock "[" "]" 0 (outcomes.map (jsonOutcome 1))

end Report

end PairLisp
