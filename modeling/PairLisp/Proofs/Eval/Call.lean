import PairLisp.Proofs.Eval.Growth
import PairLisp.Proofs.Eval.Scope

/-!
# Calls of operations by their names

A program calls an operation by writing one of its names at the head of a call. A reserved name is
not evaluated and stands for its operation in every state, so the call takes one level
(`Eval.eval_ofCall`). Any other name is an expression one level further in, and it stands for its
operation where neither a variable nor a procedure goes by it (`Eval.runFrom_ofCall`). No evaluation
changes that: variables come back, and no procedure can be defined under the name of an operation
(`Env.Free.runFrom_eval`).
-/

namespace PairLisp

/-- The call of what goes by a name, with the given arguments. -/
def SExpr.ofCall (name : String) (args : List SExpr) : SExpr := .ofList (.atom ⟨name⟩ :: args)

/-! ## Free names -/

/-- An evaluation leaves the name of an operation free. -/
theorem Env.Free.runFrom_eval {s : EvalState} {name : String} {op : Operation}
    (hs : s.env.Free name) (hop : Registry.standard.find? name = some op) (levels : Nat)
    (literal : Bool) (x : SExpr) : ((eval levels literal x).runFrom s).2.env.Free name where
  bindings := by
    rw [bindings_runFrom_eval]
    exact hs.bindings
  procedures := by
    have hprimitive : Registry.standard.contains name = true := by
      unfold Registry.contains
      rw [hop]
      rfl
    exact (s.grows_runFrom_eval levels literal x).get?_eq_none (fun _ => hprimitive) hs.procedures

/-! ## Calls -/

namespace Eval

variable {name : String} {op : Operation} {args : List SExpr}

/-- An evaluation with a value has a level left. -/
theorem exists_level {n : Nat} {literal : Bool} {x v : SExpr} {s t : EvalState}
    (h : (eval n literal x).runFrom s = (.ok v, t)) : ∃ k, n = k + 1 := by
  cases n with
  | zero => exact absurd h (by simp [eval])
  | succ k => exact ⟨k, rfl⟩

/-- A call of an operation by a reserved name. -/
theorem eval_ofCall (levels : Nat) (literal : Bool) (args : List SExpr)
    (hop : Registry.standard.find? name = some op) (hreserved : op.reserved = true) :
    eval (levels + 1) literal (.ofCall name args) =
      callOperation (eval levels true) op (.ofList args) := by
  have hname : Registry.standard.isReserved name = true := by
    unfold Registry.isReserved
    rw [hop]
    exact hreserved
  refine EvalM.ext fun s => ?_
  have hhead : (head (eval levels literal) (.atom ⟨name⟩)).runFrom s = (.ok (⟨name⟩, false), s) := by
    rw [head_of_isReserved _ hname, EvalM.runFrom_pure]
  show (eval (levels + 1) literal (.cons (.atom ⟨name⟩) (.ofList args))).runFrom s = _
  rw [runFrom_eval_of_head hhead, Callee.resolve_of_operation literal false hop (.inl hreserved)]
  rfl

/-- A call of an operation by a name that is free. -/
theorem runFrom_ofCall {s : EvalState} (levels : Nat) (literal : Bool) (args : List SExpr)
    (hop : Registry.standard.find? name = some op) (hreserved : op.reserved = false)
    (hs : s.env.Free name) :
    (eval (levels + 2) literal (.ofCall name args)).runFrom s =
      (callOperation (eval (levels + 1) true) op (.ofList args)).runFrom s := by
  have hname : ∀ a, SExpr.atom ⟨name⟩ = .atom a → Registry.standard.isReserved a.text = false := by
    intro a ha
    unfold Registry.isReserved
    rw [← SExpr.atom.inj ha, hop]
    exact hreserved
  -- the name is its own value
  have hvalue : (eval (levels + 1) literal (.atom ⟨name⟩)).runFrom s = (.ok (.atom ⟨name⟩), s) := by
    show (Eval.atom ⟨name⟩).runFrom s = _
    rw [runFrom_atom]
    unfold EvalState.valueOf
    rw [hs.bindings, (Registry.plain_of_find? (a := ⟨name⟩) hop).2.1]
  have hhead : (head (eval (levels + 1) literal) (.atom ⟨name⟩)).runFrom s =
      (.ok (⟨name⟩, true), s) := by
    rw [head_of_not_isReserved _ hname, EvalM.runFrom_bind, hvalue]
    rfl
  show (eval (levels + 2) literal (.cons (.atom ⟨name⟩) (.ofList args))).runFrom s = _
  rw [runFrom_eval_of_head hhead, Callee.resolve_of_operation literal true hop (.inr hs)]
  rfl

/-- An operation gets at its arguments if there are any and it takes their number. -/
theorem callOperation_ofList (inward : SExpr → EvalM SExpr) (hne : args ≠ [])
    (h : op.arity.allows args.length = true) :
    callOperation inward op (.ofList args) = applyMeaning inward op.meaning args := by
  have hnil : (SExpr.ofList args).isNil = false := by
    cases args with
    | nil => exact absurd rfl hne
    | cons x xs => rfl
  have hcheck : op.arity.check op.name args.length = .ok () := if_pos h
  rw [callOperation_eq, hnil, Bool.and_false, if_neg Bool.false_ne_true]
  unfold argumentList applyOperation
  rw [SExpr.toList?_ofList, pure_bind, hcheck]

/-- A call of a special form by its name comes to what the form does with its arguments, if there are
any and it takes their number. -/
theorem eval_ofCall_form {form : Form} (levels : Nat) (literal : Bool)
    (hop : Registry.standard.find? name = some op) (hreserved : op.reserved = true)
    (hmeaning : op.meaning = .form form) (hne : args ≠ [])
    (h : op.arity.allows args.length = true) :
    eval (levels + 1) literal (.ofCall name args) = form.run (eval levels true) args := by
  rw [eval_ofCall levels literal args hop hreserved, callOperation_ofList _ hne h, hmeaning]
  rfl

end Eval

end PairLisp
