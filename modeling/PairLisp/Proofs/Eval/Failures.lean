import PairLisp.Proofs.Eval.Invariant
import PairLisp.Proofs.Program.Session

/-!
# Errors of evaluations

`EvalM.FailsWith P` says that all errors of an evaluation have the property `P`. The lemmas on it go
through the special forms and the operations one by one: each has the errors of the evaluations that
it makes and a few of its own.

The number of arguments of an operation is settled twice: the registry has an arity for each
operation, and each function and special form refuses numbers for which it has no meaning. The two
agree (`Registry.counts_agree`): once a number of arguments has passed the arity of the registry, a
function has no error but those about its values, and an error about a number of arguments is one
of the evaluations that the operation makes.

Taken over all levels, `Error.Possible` holds of all errors (`possible_eval`): no evaluation ends
with a fold of nothing, a number of arguments is never refused that is the one that is asked for,
and in literal mode no numeral is missing a definition. So whatever environment a program runs in,
all its errors about numbers of arguments name two different numbers (`Program.mismatch_of_run`).
-/

namespace PairLisp

/-! ## A property of all errors -/

namespace EvalM

variable {α β : Type} {P : Error → Prop}

/-- Whatever error the evaluation ends with, wherever it begins, has the property. -/
def FailsWith (P : Error → Prop) (m : EvalM α) : Prop := ∀ s, Fails P (m.runFrom s).1

theorem failsWith_pure (a : α) : FailsWith P (pure a) := fun _ => fails_ok a

theorem failsWith_fail {e : Error} (h : P e) : FailsWith P (fail e : EvalM α) := fun _ =>
  fails_error h

/-- The second part of a sequence only matters for the results that the first one has. -/
theorem FailsWith.bind_of_eq {m : EvalM α} {f : α → EvalM β} (hm : FailsWith P m)
    (hf : ∀ s a t, m.runFrom s = (.ok a, t) → FailsWith P (f a)) : FailsWith P (m >>= f) := by
  intro s
  have hfirst := hm s
  have hrest := hf s
  rw [runFrom_bind]
  generalize m.runFrom s = r at hfirst hrest ⊢
  obtain ⟨r | a, t⟩ := r
  · exact fails_error (hfirst r rfl)
  · exact hrest a t rfl t

theorem FailsWith.bind {m : EvalM α} {f : α → EvalM β} (hm : FailsWith P m)
    (hf : ∀ a, FailsWith P (f a)) : FailsWith P (m >>= f) :=
  hm.bind_of_eq fun _ a _ _ => hf a

end EvalM

open EvalM

/-! ## Definitions of procedures -/

/-- A definition does not fail over a number of arguments. -/
def DefinitionError.NotCount : DefinitionError → Prop
  | .argumentCount _ _ _ => False
  | _ => True

/-- An evaluation that ends with such an error does not fail over a number of arguments. -/
theorem DefinitionError.NotCount.not_ofCount {e : DefinitionError} (h : e.NotCount) :
    ¬ (Error.definition e).OfCount := by
  intro hcount
  cases e with
  | argumentCount => exact h
  | _ => exact hcount

namespace Procedure

/-- Parameters are refused for what they are, not for how many there are. -/
theorem fails_readParams (name : String) (seen : List String) (items : List SExpr) :
    Fails DefinitionError.NotCount (readParams name seen items) := by
  induction items generalizing seen with
  | nil => exact fails_ok _
  | cons item items ih =>
    unfold readParams
    split
    · split
      · exact fails_error trivial
      · split
        · exact fails_error trivial
        · exact (ih _).map _
    · exact fails_error trivial

/-- A procedure is never refused for its number of parameters. -/
theorem fails_ofFormals (name : String) (formals body : SExpr) :
    Fails DefinitionError.NotCount (ofFormals name formals body) := by
  unfold ofFormals
  split
  · exact fails_error trivial
  · exact (fails_readParams name [] _).map _

end Procedure

/-- A definition is refused for its name or for its parameters. -/
theorem Env.fails_define (env : Env) (name : String) (formals body : SExpr) :
    Fails DefinitionError.NotCount (env.define name formals body) := by
  unfold define
  split
  · exact fails_error trivial
  · split
    · exact fails_error trivial
    · exact (Procedure.fails_ofFormals name formals body).map _

/-! ## Special forms -/

namespace Form

/-- The numbers of arguments for which a form has a meaning. -/
def arity : Form → Arity
  | quote => .exact 1
  | lambda => .exact 2
  | conditional | defun => .exact 3
  | cond => .atLeast 0
  | conjunction | disjunction => .atLeast 1

/-- The expressions of which a form may evaluate some. -/
def operands : Form → List SExpr → List SExpr
  | quote, _ | lambda, _ | defun, _ => []
  | cond, args => args.flatMap fun arm => arm.toList?.getD []
  | conditional, args | conjunction, args | disjunction, args => args

variable {P : Error → Prop} {inward : SExpr → EvalM SExpr} {args : List SExpr}

/-- A guard that stands for no truth value is an error about a value. -/
theorem failsWith_guard (hP : ∀ e : Error, e.Plain → ¬ e.OfCount → P e) (form : String)
    (value : SExpr) : FailsWith P (guard form value) := by
  unfold guard
  split
  · exact failsWith_pure _
  · exact failsWith_fail (hP _ trivial not_false)

/-- Each error of `cond` is one of a guard or of a consequent, or it is about no number of
arguments. -/
theorem failsWith_firstArm (hP : ∀ e : Error, e.Plain → ¬ e.OfCount → P e) {arms : List SExpr}
    (hinward : ∀ x ∈ cond.operands arms, FailsWith P (inward x)) :
    FailsWith P (firstArm inward arms) := by
  induction arms with
  | nil => exact failsWith_fail (hP _ trivial not_false)
  | cons arm arms ih =>
    have hrest : ∀ x ∈ cond.operands arms, FailsWith P (inward x) := fun x hx =>
      hinward x (List.mem_append_right _ hx)
    unfold firstArm
    split
    · next test consequent harm =>
      have hmem : ∀ x ∈ [test, consequent], x ∈ cond.operands (arm :: arms) := fun x hx =>
        List.mem_append_left _ (by simpa [harm] using hx)
      have htest : FailsWith P (inward test) := hinward test (hmem test (by simp))
      refine htest.bind fun value => (failsWith_guard hP "cond" value).bind fun b => ?_
      cases b with
      | true => exact hinward consequent (hmem consequent (by simp))
      | false => exact ih hrest
    · exact failsWith_fail (hP _ trivial not_false)

/-- Each error of the operands is one of their evaluation or about a value. -/
theorem failsWith_decideBy (hP : ∀ e : Error, e.Plain → ¬ e.OfCount → P e)
    (hinward : ∀ x ∈ args, FailsWith P (inward x)) (form : String) (decisive : Bool) :
    FailsWith P (decideBy inward form decisive args) := by
  induction args with
  | nil => exact failsWith_pure _
  | cons arg args ih =>
    have harg : FailsWith P (inward arg) := hinward arg (by simp)
    have hrest : ∀ x ∈ args, FailsWith P (inward x) := fun x hx =>
      hinward x (List.mem_cons_of_mem arg hx)
    unfold decideBy
    refine harg.bind fun value => ?_
    split
    · split
      · exact failsWith_pure _
      · exact ih hrest
    · exact failsWith_fail (hP _ trivial not_false)

/-- With at least one operand, there is no error about the number of operands. -/
theorem failsWith_junction (hP : ∀ e : Error, e.Plain → ¬ e.OfCount → P e)
    (hinward : ∀ x ∈ args, FailsWith P (inward x)) (form : String) (decisive : Bool)
    (h : 1 ≤ args.length) : FailsWith P (junction inward form decisive args) := by
  have hne : args ≠ [] := List.ne_nil_of_length_pos h
  unfold junction
  rw [if_neg (by simpa using hne)]
  split
  · exact failsWith_fail (hP _ trivial not_false)
  · exact failsWith_decideBy hP hinward form decisive

/-- With a number of arguments for which it has a meaning, a form has no error about numbers of
arguments but those of the evaluation of its operands. -/
theorem failsWith_run {form : Form} (hP : ∀ e : Error, e.Plain → ¬ e.OfCount → P e)
    (hinward : ∀ x ∈ form.operands args, FailsWith P (inward x))
    (h : form.arity.allows args.length = true) : FailsWith P (run inward form args) := by
  cases form with
  | quote =>
    obtain ⟨x, rfl⟩ := List.length_eq_one_iff.1 (beq_iff_eq.1 h)
    exact failsWith_pure x
  | conditional =>
    obtain ⟨test, consequent, alternative, rfl⟩ := List.length_eq_three.1 (beq_iff_eq.1 h)
    have htest : FailsWith P (inward test) := hinward test (by simp [operands])
    refine htest.bind fun value => (failsWith_guard hP "if" value).bind fun b => ?_
    cases b with
    | true => exact hinward consequent (by simp [operands])
    | false => exact hinward alternative (by simp [operands])
  | cond => exact failsWith_firstArm hP hinward
  | defun =>
    obtain ⟨name, formals, body, rfl⟩ := List.length_eq_three.1 (beq_iff_eq.1 h)
    cases name with
    | cons a d => exact failsWith_fail (hP _ trivial not_false)
    | atom name =>
      intro s
      rw [runFrom_defun]
      unfold EvalState.define
      split
      · exact fails_ok _
      · next e he =>
        have hcount := (s.env.fails_define _ _ _ e he).not_ofCount
        exact fails_error (hP _ trivial hcount)
  | lambda =>
    obtain ⟨formals, body, rfl⟩ := List.length_eq_two.1 (beq_iff_eq.1 h)
    intro s
    rw [runFrom_lambda]
    unfold EvalState.capture
    split
    · exact fails_ok _
    · next e he =>
      have hcount := (Procedure.fails_ofFormals _ _ _ e he).not_ofCount
      exact fails_error (hP _ trivial hcount)
  | conjunction | disjunction =>
    exact failsWith_junction hP hinward _ _ (decide_eq_true_iff.1 h)

end Form

/-! ## Operations -/

namespace Arity

/-- All the numbers of arguments of the first arity are ones of the second. -/
def within : Arity → Arity → Bool
  | exact n, arity => arity.allows n
  | atLeast n, atLeast m => m ≤ n
  | atLeast _, exact _ => false

/-- A number of arguments that is allowed stays so within the wider arity. -/
theorem allows_of_within {arity other : Arity} {n : Nat} (h : arity.within other = true)
    (hn : arity.allows n = true) : other.allows n = true := by
  cases arity with
  | exact m =>
    obtain rfl := beq_iff_eq.1 hn
    exact h
  | atLeast m =>
    cases other with
    | exact k => exact absurd h Bool.false_ne_true
    | atLeast k =>
      have hkm : k ≤ m := decide_eq_true_iff.1 h
      have hmn : m ≤ n := decide_eq_true_iff.1 hn
      exact decide_eq_true_iff.2 (Nat.le_trans hkm hmn)

/-- The check lets a number of arguments pass if the arity allows it. -/
theorem check_eq_ok_iff {arity : Arity} {operation : String} {n : Nat} :
    arity.check operation n = .ok () ↔ arity.allows n = true := by
  unfold check
  split
  · next h => exact ⟨fun _ => h, fun _ => rfl⟩
  · next h => exact ⟨fun he => by simp at he, fun h' => absurd h' h⟩

/-- The number that an error asks for is one that is allowed. -/
theorem allows_bound (arity : Arity) : arity.allows arity.bound = true := by
  cases arity with
  | exact n => exact beq_self_eq_true n
  | atLeast n => exact decide_eq_true (Nat.le_refl n)

/-- A number of arguments that is refused is not the one that the error names. -/
theorem check_eq_error {arity : Arity} {operation : String} {n : Nat} {e : DefinitionError}
    (h : arity.check operation n = .error e) :
    e = .argumentCount operation arity.bound n ∧ n ≠ arity.bound := by
  unfold check at h
  split at h
  · simp at h
  · next hnot =>
    refine ⟨(Except.error.inj h).symm, ?_⟩
    rintro rfl
    exact hnot arity.allows_bound

end Arity

namespace Meaning

/-- The numbers of arguments for which a function or a form has a meaning. -/
def arity : Meaning → Arity
  | function f => f.arity
  | form f => f.arity

/-- The expressions of which a function or a form may have some evaluated. -/
def operands : Meaning → List SExpr → List SExpr
  | function _, args => args
  | form f, args => f.operands args

end Meaning

/-- The registry allows no number of arguments for which an operation has no meaning. -/
theorem Registry.arity_within :
    ∀ op ∈ standardOperations, op.arity.within op.meaning.arity = true := by
  decide

/-- An operation that is called has a meaning for its number of arguments. -/
theorem Registry.allows_of_check {op : Operation} {name : String} {n : Nat}
    (hop : op ∈ standard.operations) (h : op.arity.check name n = .ok ()) :
    op.meaning.arity.allows n = true :=
  Arity.allows_of_within (arity_within op hop) (Arity.check_eq_ok_iff.1 h)

namespace Eval

variable {P : Error → Prop} {inward : SExpr → EvalM SExpr} {args : List SExpr}

/-- The errors of arguments that are evaluated in turn are those of their evaluations. -/
theorem failsWith_arguments (hinward : ∀ x ∈ args, FailsWith P (inward x)) :
    FailsWith P (arguments inward args) := by
  induction args with
  | nil => exact failsWith_pure _
  | cons x xs ih =>
    have hrest : FailsWith P (arguments inward xs) := ih fun y hy =>
      hinward y (List.mem_cons_of_mem x hy)
    exact (hinward x (by simp)).bind fun _ => hrest.bind fun _ => failsWith_pure _

/-- There are as many values of arguments as arguments. -/
theorem length_of_arguments {values : List SExpr} {s t : EvalState}
    (h : (arguments inward args).runFrom s = (.ok values, t)) : values.length = args.length := by
  induction args generalizing values s t with
  | nil =>
    obtain ⟨hvalues, -⟩ := Prod.mk.inj h
    rw [← Except.ok.inj hvalues]
  | cons x xs ih =>
    obtain ⟨value, u, -, htail⟩ := runFrom_bind_eq_ok.1 h
    obtain ⟨rest, w, hrest, hcons⟩ := runFrom_bind_eq_ok.1 htail
    obtain ⟨hvalues, -⟩ := Prod.mk.inj hcons
    rw [← Except.ok.inj hvalues, List.length_cons, List.length_cons, ih hrest]

/-- With a number of arguments for which there is a meaning, all errors about numbers of arguments
are those of the operands. -/
theorem failsWith_applyMeaning {meaning : Meaning} (hP : ∀ e : Error, e.Plain → ¬ e.OfCount → P e)
    (hinward : ∀ x ∈ meaning.operands args, FailsWith P (inward x))
    (h : meaning.arity.allows args.length = true) :
    FailsWith P (applyMeaning inward meaning args) := by
  cases meaning with
  | function f =>
    -- the function gets as many values as there are arguments
    refine (failsWith_arguments hinward).bind_of_eq fun s values t hvalues u => ?_
    have hallows : f.arity.allows values.length = true := by
      rw [length_of_arguments hvalues]
      exact h
    have hvalue := Builtin.fails_apply_of_allows hallows
    rw [runFrom_ofExcept]
    generalize f.apply values = r at hvalue ⊢
    cases r with
    | ok y => exact fails_ok y
    | error e =>
      have he : e.OfValue := hvalue e rfl
      exact fails_error (hP e he.ofPrimitive.plain he.not_ofCount)
  | form f => exact Form.failsWith_run hP hinward h

/-- What is no list of arguments is an error about the form of a call. -/
theorem failsWith_argumentList (hP : ∀ e : Error, e.Plain → ¬ e.OfCount → P e) (name : String)
    (data : SExpr) : FailsWith P (argumentList name data) := by
  unfold argumentList
  split
  · exact failsWith_pure _
  · exact failsWith_fail (hP _ trivial not_false)

/-- A call has the errors of the operation and those about the form of the call. -/
theorem failsWith_callOperation {op : Operation} {data : SExpr}
    (hP : ∀ e : Error, e.Plain → ¬ e.OfCount → P e)
    (h : ∀ args, data.toList? = some args → FailsWith P (applyOperation inward op args)) :
    FailsWith P (callOperation inward op data) := by
  rw [callOperation_eq]
  split
  · exact failsWith_fail (hP _ trivial not_false)
  · unfold argumentList
    split
    · next args hargs =>
      rw [pure_bind]
      exact h args hargs
    · exact failsWith_fail (hP _ trivial not_false)

/-- A number of arguments that the registry allows is one for which the operation has a meaning. -/
theorem failsWith_applyOperation {op : Operation} (hop : op ∈ Registry.standard.operations)
    (hcheck : op.arity.check op.name args.length = .ok ())
    (hP : ∀ e : Error, e.Plain → ¬ e.OfCount → P e)
    (hinward : ∀ x ∈ op.meaning.operands args, FailsWith P (inward x)) :
    FailsWith P (applyOperation inward op args) := by
  unfold applyOperation
  rw [hcheck]
  exact failsWith_applyMeaning hP hinward (Registry.allows_of_check hop hcheck)

/-- The error is that of the evaluation of one of the expressions. -/
def Raised (inward : SExpr → EvalM SExpr) (xs : List SExpr) (e : Error) : Prop :=
  ∃ x ∈ xs, ∃ t, ((inward x).runFrom t).1 = .error e

theorem failsWith_raised {xs : List SExpr} {x : SExpr} (hx : x ∈ xs) :
    FailsWith (Raised inward xs) (inward x) :=
  fun t _ he => ⟨x, hx, t, he⟩

/-- Once the registry has allowed a number of arguments, an error about numbers of arguments is one
of the evaluation of an operand. -/
theorem countAmong_callOperation {op : Operation} (hop : op ∈ Registry.standard.operations)
    {data : SExpr} (hdata : data.toList? = some args)
    (hcheck : op.arity.check op.name args.length = .ok ()) :
    FailsWith (Error.CountAmong (Raised inward (op.meaning.operands args)))
      (callOperation inward op data) := by
  have hplain : ∀ e : Error, e.Plain → ¬ e.OfCount →
      e.CountAmong (Raised inward (op.meaning.operands args)) :=
    fun _ _ => Error.countAmong_of_not
  refine failsWith_callOperation hplain fun args' hargs' => ?_
  obtain rfl : args = args' := Option.some.inj (hdata.symm.trans hargs')
  exact failsWith_applyOperation hop hcheck hplain fun x hx t =>
    (failsWith_raised hx t).imp fun _ he _ => he

end Eval

/-- When the registry allows a number of arguments, a function has no errors but those about its
values, and an error about a number of arguments comes from the evaluation of an operand. -/
theorem Registry.counts_agree {op : Operation} (hop : op ∈ standard.operations) {args : List SExpr}
    (hargs : op.arity.check op.name args.length = .ok ()) :
    (∀ f, op.meaning = .function f → ∀ values : List SExpr, values.length = args.length →
      Fails Error.OfValue (f.apply values)) ∧
    ∀ (inward : SExpr → EvalM SExpr) (data : SExpr), data.toList? = some args → ∀ s e,
      ((Eval.callOperation inward op data).runFrom s).1 = .error e → e.OfCount →
      ∃ x ∈ op.meaning.operands args, ∃ t, ((inward x).runFrom t).1 = .error e := by
  refine ⟨fun f hf values hlength => ?_, fun inward data hdata s e he hcount => ?_⟩
  · have hallows : op.meaning.arity.allows args.length = true := allows_of_check hop hargs
    rw [hf, ← hlength] at hallows
    exact Builtin.fails_apply_of_allows hallows
  · exact Eval.countAmong_callOperation hop hdata hargs s e he hcount

/-- `(if (car a b) a b)` has a number of arguments that is right, and its error about another number
is that of its guard. -/
theorem Registry.counts_agree_conditional :
    let op : Operation :=
      { name := "if", arity := .exact 3, meaning := .form .conditional, reserved := true }
    let guard : SExpr := .ofList [.atom ⟨"car"⟩, .atom ⟨"a"⟩, .atom ⟨"b"⟩]
    let args : List SExpr := [guard, .atom ⟨"a"⟩, .atom ⟨"b"⟩]
    let e : Error := .definition (.argumentCount "car" 1 2)
    op.arity.check op.name args.length = .ok () ∧
    ((Eval.callOperation (eval 2 true) op (.ofList args)).runFrom { env := ∅ }).1 = .error e ∧
      ∃ x ∈ args, ∃ t, ((eval 2 true x).runFrom t).1 = .error e := by
  intro op guard args e
  have hop : op ∈ standard.operations := by decide
  have he : ((Eval.callOperation (eval 2 true) op (.ofList args)).runFrom { env := ∅ }).1 =
      .error e := rfl
  exact ⟨rfl, he, (counts_agree hop rfl).2 (eval 2 true) (.ofList args) rfl _ e he trivial⟩

/-! ## All levels -/

/-- The error of a call for whose head, a numeral, nothing is defined. -/
def Error.OfNumeral (e : Error) : Prop :=
  ∃ a : Atom, a.isNumeral = true ∧ e = BindingError.undefinedFunction a.text

/-- The error of a missing definition shows for which atom it is. -/
theorem Error.eq_of_undefinedFunction {a b : Atom}
    (h : Error.binding (.undefinedFunction a.text) = .binding (.undefinedFunction b.text)) :
    a = b :=
  Atom.eq_of_toList (congrArg String.toList (by simpa using h))

/-- A plain error is about no numeral at the head of a call. -/
theorem Error.Plain.not_ofNumeral {e : Error} (h : e.Plain) : ¬ e.OfNumeral := by
  rintro ⟨a, -, rfl⟩
  exact h

/-- An evaluation may end with the error: if it is about a number of arguments, it names another
number than the one that there is, and in literal mode it is not about a numeral at the head of a
call. -/
structure Error.Possible (literal : Bool) (e : Error) : Prop where
  mismatch : e.CountAmong Mismatch
  numeral : literal = true → ¬ e.OfNumeral

namespace Error

variable {literal : Bool}

/-- A plain error is possible unless it is about a number of arguments. -/
theorem possible_of_plain (e : Error) (hplain : e.Plain) (h : ¬ e.OfCount) :
    e.Possible literal where
  mismatch := countAmong_of_not h
  numeral _ := hplain.not_ofNumeral

/-- An error about a number of arguments is possible if the two numbers differ. -/
theorem possible_of_ne (operation : String) {expected got : Nat} (h : got ≠ expected) :
    (Error.definition (.argumentCount operation expected got)).Possible literal where
  mismatch _ := ⟨operation, expected, got, rfl, h⟩
  numeral _ := Plain.not_ofNumeral trivial

/-- A missing definition is possible, in literal mode if it is not that of a numeral. -/
theorem possible_undefined {a : Atom} (h : literal = true → a.isNumeral = false) :
    Possible literal (BindingError.undefinedFunction a.text) where
  mismatch := countAmong_of_not not_false
  numeral hl := by
    rintro ⟨b, hb, heq⟩
    obtain rfl := eq_of_undefinedFunction heq
    rw [h hl] at hb
    exact Bool.false_ne_true hb

/-- An error that is possible in literal mode is possible. -/
theorem Possible.of_literal {e : Error} (h : e.Possible true) : e.Possible literal where
  mismatch := h.mismatch
  numeral _ := h.numeral rfl

end Error

namespace Callee

/-- Nothing but a missing definition keeps the head of a call from standing for something, and in
literal mode a numeral stands for itself. -/
theorem fails_resolve (s : EvalState) (literal evaluated : Bool) (a : Atom) :
    Fails (Error.Possible literal) (resolve s literal evaluated a) := by
  by_cases hnumeral : literal = true ∧ a.isNumeral = true
  · unfold resolve
    rw [hnumeral.1, hnumeral.2]
    exact fails_ok _
  · have hno : literal = true → a.isNumeral = false := fun hl =>
      Bool.eq_false_iff.2 fun ha => hnumeral ⟨hl, ha⟩
    have hcases := resolves s literal evaluated a
    generalize resolve s literal evaluated a = callee at hcases ⊢
    cases hcases with
    | undefined => exact fails_error (Error.possible_undefined hno)
    | _ => exact fails_ok _

end Callee

namespace Eval

open Error

variable {inward : SExpr → EvalM SExpr}

/-- The errors of the head of a call are possible if those of its evaluation are. -/
theorem possible_head {literal : Bool} (hinward : ∀ x, FailsWith (Possible literal) (inward x))
    (address : SExpr) : FailsWith (Possible literal) (head inward address) := by
  unfold head
  dsimp only
  split
  · exact failsWith_pure _
  · refine (hinward address).bind fun x => ?_
    split
    · exact failsWith_pure _
    · exact failsWith_fail (possible_of_plain _ trivial not_false)

variable (hinward : ∀ x, FailsWith (Possible true) (inward x))

include hinward

/-- A procedure refuses any number of arguments but that of its parameters. -/
theorem possible_callProcedure (p : Procedure) (data : SExpr) :
    FailsWith (Possible true) (callProcedure inward p data) := by
  rw [callProcedure_eq]
  refine (failsWith_argumentList possible_of_plain p.name data).bind fun args => ?_
  unfold applyProcedure
  split
  · next h => exact failsWith_fail (possible_of_ne p.name h)
  · exact (failsWith_arguments fun x _ => hinward x).bind fun _ s => hinward p.body (s.enter _)

/-- The check of the registry refuses a number only for another one, and what it lets pass has a
meaning. -/
theorem possible_callOperation {op : Operation} (hop : op ∈ Registry.standard.operations)
    (data : SExpr) : FailsWith (Possible true) (callOperation inward op data) := by
  refine failsWith_callOperation possible_of_plain fun args _ => ?_
  cases hcheck : op.arity.check op.name args.length with
  | ok =>
    exact failsWith_applyOperation hop hcheck possible_of_plain fun x _ => hinward x
  | error e =>
    obtain ⟨rfl, hne⟩ := Arity.check_eq_error hcheck
    unfold applyOperation
    rw [hcheck]
    exact failsWith_fail (possible_of_ne op.name hne)

/-- Whatever the head stands for, the errors of the call are possible. -/
theorem possible_callCallee (data : SExpr) (s : EvalState) (literal evaluated : Bool) (a : Atom) :
    FailsWith (Possible literal)
      (callCallee inward data (Callee.resolve s literal evaluated a)) := by
  have hcases := Callee.resolves s literal evaluated a
  have hfails := Callee.fails_resolve s literal evaluated a
  generalize Callee.resolve s literal evaluated a = callee at hcases hfails ⊢
  cases hcases with
  | numeral | truth | bound => exact failsWith_pure _
  | closure | procedure =>
    exact fun t => (possible_callProcedure hinward _ data t).imp fun _ he => he.of_literal
  | operation hop =>
    have hmem := (Registry.mem_of_find? hop).1
    exact fun t => (possible_callOperation hinward hmem data t).imp fun _ he => he.of_literal
  | undefined => exact failsWith_fail (hfails _ rfl)

end Eval

/-- An evaluation ends with no error but those that are possible. -/
theorem possible_eval (levels : Nat) (literal : Bool) (x : SExpr) :
    FailsWith (Error.Possible literal) (eval levels literal x) := by
  induction levels generalizing literal x with
  | zero => exact failsWith_fail (Error.possible_of_plain _ trivial not_false)
  | succ levels ih =>
    cases x with
    | atom a =>
      intro s
      show Fails _ ((Eval.atom a).runFrom s).1
      rw [Eval.runFrom_atom]
      exact fails_ok _
    | cons address data =>
      show FailsWith _ (Eval.call (eval levels) literal address data)
      rw [Eval.call_eq]
      exact (Eval.possible_head (ih literal) address).bind fun h s =>
        Eval.possible_callCallee (ih true) data s literal h.2 h.1 s

/-! ## Programs -/

/-- An error of a statement about a number of arguments is one of its evaluation. -/
theorem Statement.fails_run_mismatch (env : Env) (s : Statement) :
    Fails (Error.CountAmong Error.Mismatch) (s.run env).1.result :=
  fails_run (fun _ _ => Error.countAmong_of_not not_false) fun x _ e he =>
    (possible_eval _ false x { env } e he).mismatch

/-- No statement of a program folds nothing, and a number of arguments over which one fails is not
the number that the error asks for. -/
theorem Program.mismatch_of_run {env : Env} {text : String} {o : Outcome} {e : Error}
    (ho : o ∈ (run env text).1) (he : o.result = .error e) (hcount : e.OfCount) : e.Mismatch := by
  cases htokens : tokens text with
  | error lexical =>
    rw [run_of_tokens_error htokens] at ho
    obtain rfl := List.mem_singleton.1 ho
    obtain rfl : Error.lexical lexical = e := Except.error.inj he
    exact hcount.elim
  | ok ts =>
    rw [run_of_tokens htokens] at ho
    obtain ⟨s, -, env', rfl⟩ := exists_of_mem_runStatements ho
    exact s.fails_run_mismatch env' e he hcount

end PairLisp
