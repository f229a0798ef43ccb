import PairLisp.Primitive.Arity
import PairLisp.Proofs.Primitive.Argument
import PairLisp.Proofs.SExpr.All

/-!
# Results of primitive functions

A primitive function makes no atoms but truth values and numerals. All other atoms of its value
come from its arguments, so a property of atoms that truth values and numerals have passes from
the arguments to the value (`Builtin.all_apply`). There is one lemma for each way in which a
function is put together, and it says what a value of such a function looks like.

Each function has a meaning for certain numbers of arguments (`Builtin.arity`). With such a number
its errors are about values: about arithmetic or about kinds of values
(`Builtin.fails_apply_of_allows`). With any other number its error is about the number
(`Builtin.fails_apply_of_not_allows`). So all errors of a primitive function are of three kinds
(`Builtin.fails_apply`). The lemmas that lead there go through the arguments and the arithmetic in
the same way.
-/

namespace PairLisp

namespace Builtin

variable {p : Atom → Prop} {x : SExpr} {xs : List SExpr}

/-- A function of one argument has a value only where there is one argument. -/
theorem exists_of_unary {f : SExpr → Except Error SExpr} (h : unary f xs = .ok x) :
    ∃ y, xs = [y] ∧ f y = .ok x := by
  unfold unary at h
  split at h
  · exact ⟨_, rfl, h⟩
  · simp [wrongCount] at h

/-- A function of two arguments has a value only where there are two of them. -/
theorem exists_of_binary {f : SExpr → SExpr → Except Error SExpr} (h : binary f xs = .ok x) :
    ∃ y z, xs = [y, z] ∧ f y z = .ok x := by
  unfold binary at h
  split at h
  · exact ⟨_, _, rfl, h⟩
  · simp [wrongCount] at h

/-- A constant has no other value. -/
theorem exists_of_constant {b : Bool} (h : constant b xs = .ok x) : x = .ofBool b := by
  unfold constant at h
  split at h
  · exact (Except.ok.inj h).symm
  · simp [wrongCount] at h

/-- The value of a test is a truth value. -/
theorem exists_of_test {f : SExpr → Bool} (h : test f xs = .ok x) : ∃ b, x = .ofBool b := by
  obtain ⟨y, -, hy⟩ := exists_of_unary h
  exact ⟨f y, (Except.ok.inj hy).symm⟩

theorem exists_of_compare {r : Int → Int → Bool} (h : compare r xs = .ok x) :
    ∃ b, x = .ofBool b := by
  unfold compare at h
  split at h
  · simp [wrongCount] at h
  · obtain ⟨n, -, h⟩ := bind_eq_ok.1 h
    obtain ⟨ns, -, h⟩ := bind_eq_ok.1 h
    exact ⟨_, (Except.ok.inj h).symm⟩

/-- The value of a fold is a numeral. -/
theorem exists_of_fold {f : List Int → Except Error Int} (h : fold f xs = .ok x) :
    ∃ n, x = .ofInt n := by
  obtain ⟨ns, -, h⟩ := bind_eq_ok.1 h
  obtain ⟨n, -, h⟩ := bind_eq_ok.1 h
  exact ⟨n, (Except.ok.inj h).symm⟩

/-- The value of a function of two numbers is a numeral. -/
theorem exists_of_numeric {f : Int → Int → Except Error Int} (h : numeric f xs = .ok x) :
    ∃ n, x = .ofInt n := by
  obtain ⟨y, z, -, h⟩ := exists_of_binary h
  obtain ⟨a, -, h⟩ := bind_eq_ok.1 h
  obtain ⟨b, -, h⟩ := bind_eq_ok.1 h
  obtain ⟨n, -, h⟩ := bind_eq_ok.1 h
  exact ⟨n, (Except.ok.inj h).symm⟩

/-- A half is taken of a pair, and it is one of the two halves. -/
theorem exists_of_half {operation : String} {pick : SExpr → SExpr → SExpr}
    (h : half operation pick xs = .ok x) : ∃ a d, xs = [.cons a d] ∧ x = pick a d := by
  obtain ⟨y, rfl, hy⟩ := exists_of_unary h
  cases y with
  | atom a => simp at hy
  | cons a d => exact ⟨a, d, rfl, (Except.ok.inj hy).symm⟩

/-- The value of a primitive function has no atoms but those of its arguments, truth values and
numerals. -/
theorem all_apply {f : Builtin} (ht : p .t) (hnil : p .nil) (hint : ∀ n, p (.ofInt n))
    (hxs : ∀ y ∈ xs, y.All p) (h : f.apply xs = .ok x) : x.All p := by
  have hbool : ∀ {y : SExpr}, (∃ b, y = .ofBool b) → y.All p := by
    rintro _ ⟨b, rfl⟩
    exact SExpr.all_ofBool ht hnil b
  have hnum : ∀ {y : SExpr}, (∃ n, y = .ofInt n) → y.All p := by
    rintro _ ⟨n, rfl⟩
    exact hint n
  cases f with
  | truth | falsity => exact hbool ⟨_, exists_of_constant h⟩
  | sum | difference | product | quotient => exact hnum (exists_of_fold h)
  | rem | mod | expt => exact hnum (exists_of_numeric h)
  | less | greater | leq | geq => exact hbool (exists_of_compare h)
  | eq =>
    obtain ⟨y, z, -, hyz⟩ := exists_of_binary h
    exact hbool ⟨_, (Except.ok.inj hyz).symm⟩
  | integerp | atom | null => exact hbool (exists_of_test h)
  | not =>
    obtain ⟨y, -, hy⟩ := exists_of_unary h
    obtain ⟨b, -, hy⟩ := bind_eq_ok.1 hy
    exact hbool ⟨!b, (Except.ok.inj hy).symm⟩
  | cons =>
    obtain ⟨y, z, rfl, hyz⟩ := exists_of_binary h
    obtain rfl := Except.ok.inj hyz
    exact ⟨hxs y (by simp), hxs z (by simp)⟩
  | list =>
    obtain rfl := Except.ok.inj h
    exact SExpr.all_ofList hnil hxs
  | car =>
    obtain ⟨a, d, rfl, hx⟩ := exists_of_half h
    exact hx ▸ (hxs (.cons a d) (by simp)).1
  | cdr =>
    obtain ⟨a, d, rfl, hx⟩ := exists_of_half h
    exact hx ▸ (hxs (.cons a d) (by simp)).2
  | length =>
    obtain ⟨y, -, hy⟩ := exists_of_unary h
    unfold count at hy
    split at hy
    · obtain ⟨n, -, hy⟩ := bind_eq_ok.1 hy
      exact hnum ⟨n, (Except.ok.inj hy).symm⟩
    · simp at hy

end Builtin

/-! ## Errors -/

/-- An error that a primitive function may have. -/
def Error.OfPrimitive : Error → Prop
  | .definition _ | .arithmetic _ | .type _ => True
  | .lexical _ | .structural _ | .binding _ => False

/-- An error about values: about arithmetic, or about a value of the wrong kind. -/
def Error.OfValue : Error → Prop
  | .type (.emptyFold _) => False
  | .arithmetic _ | .type _ => True
  | .lexical _ | .structural _ | .binding _ | .definition _ => False

/-- An error about the number of arguments. A fold of nothing is one. -/
def Error.OfCount : Error → Prop
  | .definition (.argumentCount _ _ _) | .type (.emptyFold _) => True
  | _ => False

/-- If the error is about a number of arguments, it is one of the errors `E`. -/
def Error.CountAmong (E : Error → Prop) (e : Error) : Prop := e.OfCount → E e

/-- An error about a number of arguments that is not the one that is asked for. -/
def Error.Mismatch (e : Error) : Prop :=
  ∃ operation expected got,
    e = .definition (.argumentCount operation expected got) ∧ got ≠ expected

/-- An error about anything else is among all kinds of errors about numbers of arguments. -/
theorem Error.countAmong_of_not {E : Error → Prop} {e : Error} (h : ¬ e.OfCount) :
    e.CountAmong E :=
  fun hcount => absurd hcount h

theorem Error.OfValue.ofPrimitive {e : Error} (h : e.OfValue) : e.OfPrimitive := by
  cases e with
  | lexical | structural | binding | definition => exact h.elim
  | arithmetic | type => trivial

theorem Error.OfCount.ofPrimitive {e : Error} (h : e.OfCount) : e.OfPrimitive := by
  cases e with
  | lexical | structural | binding => exact h.elim
  | arithmetic | definition | type => trivial

/-- No error is about values and about the number of arguments at once. -/
theorem Error.OfValue.not_ofCount {e : Error} (h : e.OfValue) : ¬ e.OfCount := by
  intro hcount
  cases e with
  | lexical | structural | binding | arithmetic => exact hcount.elim
  | definition => exact h.elim
  | type e =>
    cases e with
    | emptyFold => exact h.elim
    | _ => exact hcount.elim

namespace Argument

/-- An argument that is no number is a wrong value. -/
theorem fails_int (x : SExpr) : Fails Error.OfValue (int x) := by
  unfold int
  split
  · split
    · split
      · exact fails_ok _
      · exact fails_error trivial
    · exact fails_error trivial
  · exact fails_error trivial

theorem fails_bool (x : SExpr) : Fails Error.OfValue (bool x) := by
  unfold bool
  split
  · exact fails_ok _
  · exact fails_error trivial

theorem fails_ints (xs : List SExpr) : Fails Error.OfValue (ints xs) := by
  induction xs with
  | nil => exact fails_ok _
  | cons x xs ih => exact (fails_int x).bind fun _ => ih.bind fun _ => fails_ok _

/-- An argument that is neither a number nor a list of them is a wrong value. -/
theorem fails_spliced (x : SExpr) : Fails Error.OfValue (spliced x) := by
  unfold spliced
  split
  · exact fails_ints _
  · split
    · exact fails_ints _
    · exact fails_error trivial

/-- The errors of a row of arguments are about their values. -/
theorem fails_numbers (xs : List SExpr) : Fails Error.OfValue (numbers xs) := by
  induction xs with
  | nil => exact fails_ok _
  | cons x xs ih => exact (fails_spliced x).bind fun _ => ih.bind fun _ => fails_ok _

end Argument

namespace Arithmetic

variable {ns : List Int}

/-- Leaving the range is an error about a value. -/
theorem fails_checked (operation : String) (n : Int) :
    Fails Error.OfValue (checked operation n) := by
  unfold checked
  split
  · exact fails_ok _
  · exact fails_error trivial

theorem fails_sum (ns : List Int) : Fails Error.OfValue (sum ns) :=
  fails_foldlM (fun _ _ => fails_checked _ _) _ _

theorem fails_product (ns : List Int) : Fails Error.OfValue (product ns) :=
  fails_foldlM (fun _ _ => fails_checked _ _) _ _

/-- Once there is a number to subtract from, a difference fails over values alone. -/
theorem fails_difference (hne : ns ≠ []) : Fails Error.OfValue (difference ns) := by
  unfold difference
  split
  · exact absurd rfl hne
  · exact fails_checked _ _
  · exact fails_foldlM (fun _ _ => fails_checked _ _) _ _

/-- Once there is a number to divide, a quotient fails over values alone. -/
theorem fails_quotient (hne : ns ≠ []) : Fails Error.OfValue (quotient ns) := by
  unfold quotient
  split
  · exact absurd rfl hne
  · refine fails_foldlM (fun total d => ?_) _ _
    split
    · exact fails_error trivial
    · exact fails_checked _ _

theorem fails_remainder (a b : Int) : Fails Error.OfValue (remainder a b) := by
  unfold remainder
  split
  · exact fails_error trivial
  · split
    · exact fails_ok _
    · exact fails_error trivial

theorem fails_modulus (a b : Int) : Fails Error.OfValue (modulus a b) := by
  refine (fails_remainder a b).bind fun r => ?_
  split <;> exact fails_ok _

theorem fails_power (base exponent : Int) : Fails Error.OfValue (power base exponent) := by
  unfold power
  split
  · exact fails_error trivial
  · split
    · exact fails_ok _
    · exact fails_error trivial

end Arithmetic

namespace Builtin

/-- The numbers of arguments for which a function has a meaning. -/
def arity : Builtin → Arity
  | truth | falsity => .exact 0
  | sum | product | list => .atLeast 0
  | difference | quotient | less | greater | leq | geq => .atLeast 1
  | integerp | atom | null | not | car | cdr | length => .exact 1
  | rem | mod | expt | eq | cons => .exact 2

variable {f : Builtin} {xs : List SExpr}

/-! ### Numbers of arguments with a meaning -/

/-- Without arguments a constant does not fail. -/
theorem fails_constant (b : Bool) (h : xs.length = 0) : Fails Error.OfValue (constant b xs) := by
  obtain rfl := List.length_eq_zero_iff.1 h
  exact fails_ok _

/-- With one argument the errors are those of the function itself. -/
theorem fails_unary {f : SExpr → Except Error SExpr} (hf : ∀ x, Fails Error.OfValue (f x))
    (h : xs.length = 1) : Fails Error.OfValue (unary f xs) := by
  obtain ⟨x, rfl⟩ := List.length_eq_one_iff.1 h
  exact hf x

theorem fails_binary {f : SExpr → SExpr → Except Error SExpr}
    (hf : ∀ x y, Fails Error.OfValue (f x y)) (h : xs.length = 2) :
    Fails Error.OfValue (binary f xs) := by
  obtain ⟨x, y, rfl⟩ := List.length_eq_two.1 h
  exact hf x y

/-- A fold of arguments works with at least one number if there is at least one argument. -/
theorem fails_fold {f : List Int → Except Error Int}
    (hf : ∀ ns, (xs ≠ [] → ns ≠ []) → Fails Error.OfValue (f ns)) :
    Fails Error.OfValue (fold f xs) := by
  refine (Argument.fails_numbers xs).bind_of_eq fun ns hns => ?_
  have hsplices : Argument.Splices xs ns := Argument.numbers_eq_ok_iff.1 hns
  exact (hf ns hsplices.ne_nil).bind fun _ => fails_ok _

/-- With two arguments the errors are those of the arguments as numbers and of the arithmetic. -/
theorem fails_numeric {f : Int → Int → Except Error Int}
    (hf : ∀ a b, Fails Error.OfValue (f a b)) (h : xs.length = 2) :
    Fails Error.OfValue (numeric f xs) :=
  fails_binary (fun x y => (Argument.fails_int x).bind fun a => (Argument.fails_int y).bind fun b =>
    (hf a b).bind fun _ => fails_ok _) h

/-- With a first argument a comparison fails over values alone. -/
theorem fails_compare (r : Int → Int → Bool) (h : 1 ≤ xs.length) :
    Fails Error.OfValue (compare r xs) := by
  unfold compare
  split
  · simp at h
  · exact (Argument.fails_int _).bind fun _ => (Argument.fails_numbers _).bind fun _ => fails_ok _

/-- An atom has no halves, which is an error about a value. -/
theorem fails_half (operation : String) (pick : SExpr → SExpr → SExpr) (h : xs.length = 1) :
    Fails Error.OfValue (half operation pick xs) := by
  refine fails_unary (fun x => ?_) h
  cases x with
  | atom a => exact fails_error trivial
  | cons a d => exact fails_ok _

/-- What is no proper list has no length, which is an error about a value. -/
theorem fails_count (x : SExpr) : Fails Error.OfValue (count x) := by
  unfold count
  split
  · exact (Arithmetic.fails_checked _ _).bind fun _ => fails_ok _
  · exact fails_error trivial

/-- With a number of arguments for which it has a meaning, a function has no errors but those about
values. -/
theorem fails_apply_of_allows (h : f.arity.allows xs.length = true) :
    Fails Error.OfValue (f.apply xs) := by
  cases f with
  | truth | falsity => exact fails_constant _ (beq_iff_eq.1 h)
  | sum => exact fails_fold fun ns _ => Arithmetic.fails_sum ns
  | product => exact fails_fold fun ns _ => Arithmetic.fails_product ns
  | list => exact fails_ok _
  | difference =>
    have hne : xs ≠ [] := List.ne_nil_of_length_pos (decide_eq_true_iff.1 h)
    exact fails_fold fun ns hns => Arithmetic.fails_difference (hns hne)
  | quotient =>
    have hne : xs ≠ [] := List.ne_nil_of_length_pos (decide_eq_true_iff.1 h)
    exact fails_fold fun ns hns => Arithmetic.fails_quotient (hns hne)
  | less | greater | leq | geq => exact fails_compare _ (decide_eq_true_iff.1 h)
  | integerp | atom | null => exact fails_unary (fun _ => fails_ok _) (beq_iff_eq.1 h)
  | not =>
    exact fails_unary (fun x => (Argument.fails_bool x).bind fun _ => fails_ok _) (beq_iff_eq.1 h)
  | car | cdr => exact fails_half _ _ (beq_iff_eq.1 h)
  | length => exact fails_unary fails_count (beq_iff_eq.1 h)
  | rem => exact fails_numeric Arithmetic.fails_remainder (beq_iff_eq.1 h)
  | mod => exact fails_numeric Arithmetic.fails_modulus (beq_iff_eq.1 h)
  | expt => exact fails_numeric Arithmetic.fails_power (beq_iff_eq.1 h)
  | eq | cons => exact fails_binary (fun _ _ => fails_ok _) (beq_iff_eq.1 h)

/-! ### Other numbers of arguments -/

theorem constant_eq_wrongCount {b : Bool} (h : xs.length ≠ 0) :
    constant b xs = wrongCount 0 xs := by
  unfold constant
  split
  · exact absurd rfl h
  · rfl

/-- Without its one argument a function says that it wants one. -/
theorem unary_eq_wrongCount {f : SExpr → Except Error SExpr} (h : xs.length ≠ 1) :
    unary f xs = wrongCount 1 xs := by
  unfold unary
  split
  · exact absurd rfl h
  · rfl

theorem binary_eq_wrongCount {f : SExpr → SExpr → Except Error SExpr} (h : xs.length ≠ 2) :
    binary f xs = wrongCount 2 xs := by
  unfold binary
  split
  · exact absurd rfl h
  · rfl

/-- With any other number of arguments, the error of a function is about this number. -/
theorem fails_apply_of_not_allows (h : f.arity.allows xs.length = false) :
    Fails Error.OfCount (f.apply xs) := by
  have hwrong : ∀ n, Fails Error.OfCount (wrongCount n xs) := fun n => fails_error trivial
  cases f with
  | truth | falsity =>
    show Fails _ (constant _ xs)
    rw [constant_eq_wrongCount (beq_eq_false_iff_ne.1 h)]
    exact hwrong 0
  | sum | product | list => exact absurd h (by simp [arity, Arity.allows])
  | difference | quotient | less | greater | leq | geq =>
    have hlength : xs.length = 0 := by simpa [arity, Arity.allows] using h
    obtain rfl := List.length_eq_zero_iff.1 hlength
    exact fails_error trivial
  | integerp | atom | null | not | car | cdr | length =>
    show Fails _ (unary _ xs)
    rw [unary_eq_wrongCount (beq_eq_false_iff_ne.1 h)]
    exact hwrong 1
  | rem | mod | expt | eq | cons =>
    show Fails _ (binary _ xs)
    rw [binary_eq_wrongCount (beq_eq_false_iff_ne.1 h)]
    exact hwrong 2

/-- The errors of a primitive function are about numbers of arguments, about arithmetic or about
kinds of values. -/
theorem fails_apply (f : Builtin) (xs : List SExpr) : Fails Error.OfPrimitive (f.apply xs) := by
  cases h : f.arity.allows xs.length with
  | true => exact (fails_apply_of_allows h).imp fun _ => Error.OfValue.ofPrimitive
  | false => exact (fails_apply_of_not_allows h).imp fun _ => Error.OfCount.ofPrimitive

end Builtin

end PairLisp
