import PairLisp.Primitive.Arity
import PairLisp.Primitive.Builtin
import PairLisp.Table

/-!
# The registry of primitive operations

An operation is a primitive function or a special form together with the names it goes by, the
number of arguments it takes and how its name is looked up. A registry is a list of operations
no two of whose names are the same, so that a name belongs to at most one operation. The
operations of the language are `Registry.standard`.

A reserved name always means its operation at the head of a call, even where a variable or a
function of that name exists. Other names of operations can be shadowed.
-/

namespace PairLisp

/-- The special forms. They receive their arguments unevaluated. -/
inductive Form where
  | quote | conditional | cond | defun | lambda | conjunction | disjunction
deriving DecidableEq

/-- What an operation does. -/
inductive Meaning where
  | function (f : Builtin)
  | form (f : Form)
deriving DecidableEq

/-- A primitive operation. -/
structure Operation where
  /-- The name under which errors report the operation. -/
  name : String
  /-- The other names it goes by. -/
  synonyms : List String := []
  arity : Arity
  meaning : Meaning
  /-- Whether a call without an argument list is an error of its own. -/
  needsArguments : Bool := true
  /-- Whether its names cannot be shadowed. -/
  reserved : Bool := false
deriving DecidableEq

namespace Operation

/-- All names of an operation, its own name first. -/
def aliases (op : Operation) : List String := op.name :: op.synonyms

/-- Whether the operation is a special form. -/
def isForm (op : Operation) : Bool :=
  match op.meaning with
  | .function _ => false
  | .form _ => true

end Operation

/-- Operations no two of whose names are the same. -/
structure Registry where
  operations : List Operation
  distinct : (operations.flatMap Operation.aliases).Nodup

namespace Registry

/-- The operation that goes by a name. -/
def find? (r : Registry) (name : String) : Option Operation :=
  r.operations.find? (·.aliases.contains name)

/-- Whether an operation goes by the name. -/
def contains (r : Registry) (name : String) : Bool := (r.find? name).isSome

/-- Whether the name is one of an operation whose names are reserved. -/
def isReserved (r : Registry) (name : String) : Bool :=
  match r.find? name with
  | some op => op.reserved
  | none => false

/-! ## Building a registry -/

/-- Every name of the operations, in order, with the position of the operation that goes by it. -/
def entries (ops : List Operation) : List (String × Nat) :=
  ops.zipIdx.flatMap fun p => p.1.aliases.map (·, p.2)

/-- The entries of an index are for the names of the operations, in their order. -/
theorem map_fst_entries (ops : List Operation) :
    (entries ops).map Prod.fst = ops.flatMap Operation.aliases := by
  have hpositions : ops.zipIdx.flatMap (fun p => p.1.aliases) = ops.flatMap Operation.aliases := by
    rw [← List.flatMap_map Prod.fst, List.zipIdx_map_fst]
  simp [entries, List.map_flatMap, Function.comp_def, hpositions]

/-- The name of the operation at a position. -/
def nameAt (ops : List Operation) (position : Nat) : String :=
  (ops[position]?.map Operation.name).getD ""

/-- Enters the position of an operation under one of its names, which must not be taken. -/
def enter (ops : List Operation) (index : Table Nat) (entry : String × Nat) :
    Except DefinitionError (Table Nat) :=
  match index.get? entry.1 with
  | some earlier => .error (.sharedAlias entry.1 (nameAt ops earlier) (nameAt ops entry.2))
  | none => .ok (index.insert entry.1 entry.2)

/-- A name can be entered if it is new to the index. -/
theorem enter_eq_ok_iff {ops : List Operation} {t u : Table Nat} {entry : String × Nat} :
    enter ops t entry = .ok u ↔ t.get? entry.1 = none ∧ t.insert entry.1 entry.2 = u := by
  unfold enter
  split <;> simp [*]

/-- The positions of the operations under all their names, or the error of the first name that is
repeated. -/
def index (ops : List Operation) : Except DefinitionError (Table Nat) :=
  (entries ops).foldlM (enter ops) ∅

/-- Names that are entered one after the other are new to the index and differ from each other. -/
theorem nodup_of_foldlM_enter {ops : List Operation} {t u : Table Nat}
    {entries : List (String × Nat)} (h : entries.foldlM (enter ops) t = .ok u) :
    (entries.map Prod.fst).Nodup ∧ ∀ name ∈ entries.map Prod.fst, t.get? name = none := by
  induction entries generalizing t with
  | nil => simp
  | cons entry entries ih =>
    rw [List.foldlM_cons] at h
    cases hstep : enter ops t entry with
    | error e =>
      simp [hstep, bind, Except.bind] at h
    | ok s =>
      rw [hstep] at h
      obtain ⟨hnew, rfl⟩ := enter_eq_ok_iff.1 hstep
      obtain ⟨hnodup, hrest⟩ := ih h
      have hdistinct : entry.1 ∉ entries.map Prod.fst := by
        intro hmem
        have hget := hrest _ hmem
        simp [Table.get?_insert] at hget
      refine ⟨List.nodup_cons.2 ⟨hdistinct, hnodup⟩, List.forall_mem_cons.2 ⟨hnew, ?_⟩⟩
      intro name hname
      have hget := hrest name hname
      have hne : name ≠ entry.1 := fun heq => hdistinct (heq ▸ hname)
      rwa [Table.get?_insert, if_neg hne] at hget

/-- Operations with an index have different names. -/
theorem nodup_of_index {ops : List Operation} {t : Table Nat} (h : index ops = .ok t) :
    (ops.flatMap Operation.aliases).Nodup := by
  rw [← map_fst_entries]
  exact (nodup_of_foldlM_enter h).1

/-- The registry of the given operations, or the error of the first name that is repeated. -/
def build (ops : List Operation) : Except DefinitionError Registry :=
  match h : index ops with
  | .error e => .error e
  | .ok _ => .ok ⟨ops, nodup_of_index h⟩

/-! ## The operations of the language -/

/-- The operations of the language in the order in which they are listed. -/
def standardOperations : List Operation := [
  -- truth values
  { name := "true", arity := .exact 0, meaning := .function .truth, needsArguments := false },
  { name := "false", arity := .exact 0, meaning := .function .falsity, needsArguments := false },
  -- arithmetic
  { name := "sum", synonyms := ["+"], arity := .atLeast 1, meaning := .function .sum },
  { name := "difference", synonyms := ["-"], arity := .atLeast 1,
    meaning := .function .difference },
  { name := "product", synonyms := ["*"], arity := .atLeast 1, meaning := .function .product },
  { name := "quotient", synonyms := ["/"], arity := .atLeast 1, meaning := .function .quotient },
  { name := "rem", arity := .exact 2, meaning := .function .rem },
  { name := "mod", arity := .exact 2, meaning := .function .mod },
  { name := "expt", synonyms := ["^"], arity := .exact 2, meaning := .function .expt },
  -- comparison
  { name := "less", synonyms := ["<"], arity := .atLeast 2, meaning := .function .less },
  { name := "greater", synonyms := [">"], arity := .atLeast 2, meaning := .function .greater },
  { name := "leq", synonyms := ["<="], arity := .atLeast 2, meaning := .function .leq },
  { name := "geq", synonyms := [">="], arity := .atLeast 2, meaning := .function .geq },
  { name := "eq", synonyms := ["="], arity := .exact 2, meaning := .function .eq },
  -- tests
  { name := "integerp", arity := .exact 1, meaning := .function .integerp },
  { name := "atom", arity := .exact 1, meaning := .function .atom },
  { name := "null", synonyms := ["endp"], arity := .exact 1, meaning := .function .null },
  -- logic
  { name := "not", arity := .exact 1, meaning := .function .not },
  { name := "and", arity := .atLeast 1, meaning := .form .conjunction, reserved := true },
  { name := "or", arity := .atLeast 1, meaning := .form .disjunction, reserved := true },
  -- lists
  { name := "cons", arity := .exact 2, meaning := .function .cons },
  { name := "list", arity := .atLeast 1, meaning := .function .list },
  { name := "car", synonyms := ["first"], arity := .exact 1, meaning := .function .car,
    reserved := true },
  { name := "cdr", synonyms := ["rest"], arity := .exact 1, meaning := .function .cdr,
    reserved := true },
  { name := "length", arity := .exact 1, meaning := .function .length, reserved := true },
  -- special forms
  { name := "quote", synonyms := ["'"], arity := .exact 1, meaning := .form .quote,
    reserved := true },
  { name := "if", arity := .exact 3, meaning := .form .conditional, reserved := true },
  { name := "cond", arity := .atLeast 1, meaning := .form .cond, reserved := true },
  { name := "defun", arity := .exact 3, meaning := .form .defun, reserved := true },
  { name := "lambda", synonyms := ["λ"], arity := .exact 2, meaning := .form .lambda,
    reserved := true }]

/-- The registry of the language. -/
def standard : Registry where
  operations := standardOperations
  distinct := by decide

end Registry

end PairLisp
