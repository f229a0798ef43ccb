/-!
# Limits

Two limits keep the depth of recursion small on every input. They are part of the language:
an expression beyond one of them is an error with a text of its own.
-/

namespace PairLisp.Limits

/-- How deeply brackets may nest. The length of a list does not count. -/
def nesting : Nat := 128

/-- How deeply evaluations may nest. -/
def evaluation : Nat := 256

end PairLisp.Limits
