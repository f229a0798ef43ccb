import PairLisp.Proofs.Eval.Invariant

/-!
# Evaluation with more levels to go

The limit on the depth of evaluation is the only thing that a smaller depth can change. An
evaluation that does not fail for the limit comes to the same result, in the same state, with
any larger number of levels left (`evaluators_eval_of_le`): the two evaluations keep step
until the first one runs out of levels.

No operation looks at the error of an evaluation inside, so an evaluation that runs out of levels
anywhere fails for the limit as a whole (`silent_of_ne_limit`).
-/

namespace PairLisp

/-- The error of an evaluation that has no level left. -/
def evaluationLimit : Error := .structural .evaluationLimit

namespace Invariant

/-- An evaluation ends with an error other than the limit, or is lost. -/
def belowLimit : Invariant := ofEnds (fun _ _ => True) (· ≠ evaluationLimit) (· = evaluationLimit)

theorem lawful_belowLimit : belowLimit.Lawful :=
  lawful_ofEnds (fun _ => trivial) (fun _ _ => trivial) (fun _ => trivial) (fun _ => trivial)
    (fun _ => trivial) (fun _ h => h) (fun _ => by simp [evaluationLimit])
    (fun _ => by simp [evaluationLimit])

end Invariant

open Invariant

/-! ## More levels -/

/-- An evaluation keeps step with one that has more levels left, until it runs out of them. -/
theorem evaluators_eval_of_le {n m : Nat} (h : n ≤ m) (literal : Bool) :
    belowLimit.coupling.Evaluators (eval n literal) (eval m literal) := by
  have hC := lawful_belowLimit.coupling
  induction n generalizing m literal with
  | zero => exact fun x _ p _ => .lost rfl
  | succ n ih =>
    -- there is a level left on both sides
    obtain ⟨m, rfl⟩ : ∃ k, m = k + 1 := ⟨m - 1, by omega⟩
    have hnm : n ≤ m := by omega
    intro x hx p hp
    cases x with
    | atom a => exact hC.step_atom hx hp
    | cons address data =>
      exact hC.step_call (fun literal => ih hnm literal) literal hx.1 hx.2 hp

/-- With more levels left, an evaluation that has not run out of levels is the same. -/
theorem runFrom_eval_of_le {n m : Nat} (h : n ≤ m) {literal : Bool} {x : SExpr} {s : EvalState}
    (hlimit : ((eval n literal x).runFrom s).1 ≠ .error evaluationLimit) :
    (eval m literal x).runFrom s = (eval n literal x).runFrom s := by
  have hx : x.All belowLimit.code := all_code_ofEnds x
  have hstep := evaluators_eval_of_le h literal x hx (s, s) ⟨rfl, trivial⟩
  exact runFrom_eq_of_step hstep (not_lost_of_ne hlimit)

/-! ## No way past the limit -/

/-- The watch for an evaluation that runs out of levels. -/
def Watch.limit : Watch where
  before _ := True
  after r _ := r ≠ .error evaluationLimit

theorem Watch.limit_approves : Watch.limit.Approves belowLimit where
  state _ := trivial
  value _ _ := by simp [Watch.limit]
  failure _ he := by
    intro h
    exact he (Except.error.inj h)

/-- If an evaluation does not fail for the limit, then no evaluation inside does. -/
theorem silent_of_ne_limit {levels : Nat} {literal : Bool} {x : SExpr} {s : EvalState}
    (hlimit : ((eval levels literal x).runFrom s).1 ≠ .error evaluationLimit) :
    Watch.limit.Silent levels literal x s := by
  have hx : x.All belowLimit.code := all_code_ofEnds x
  exact Watch.limit_approves.silent lawful_belowLimit hx trivial (not_lost_of_ne hlimit)

/-- An evaluation that does not fail for the limit on the depth comes to the same result at every
smaller depth and leaves the same state: the same variables, procedures and closures. And no
evaluation inside it fails for the limit, so such a failure never turns into anything else. -/
theorem evalAt_of_le {depth depth' : Nat} {literal : Bool} {x : SExpr} {s : EvalState}
    (hdepth : depth' ≤ depth)
    (hlimit : ((evalAt depth literal x).runFrom s).1 ≠ .error evaluationLimit) :
    (evalAt depth' literal x).runFrom s = (evalAt depth literal x).runFrom s ∧
      Watch.limit.Silent (Limits.evaluation - depth) literal x s := by
  have hlevels : Limits.evaluation - depth ≤ Limits.evaluation - depth' := by omega
  exact ⟨runFrom_eval_of_le hlevels hlimit, silent_of_ne_limit hlimit⟩

/-- `(if (atom x) a b)` needs three levels: it has a value at the depth 253 and so at the top. -/
theorem evalAt_of_le_conditional :
    let x : SExpr :=
      .ofList [.atom ⟨"if"⟩, .ofList [.atom ⟨"atom"⟩, .atom ⟨"x"⟩], .atom ⟨"a"⟩, .atom ⟨"b"⟩]
    ((evalAt 254 false x).runFrom { env := ∅ }).1 = .error evaluationLimit ∧
    ((evalAt 253 false x).runFrom { env := ∅ }).1 ≠ .error evaluationLimit ∧
    (evalAt 0 false x).runFrom { env := ∅ } = (evalAt 253 false x).runFrom { env := ∅ } ∧
      Watch.limit.Silent (Limits.evaluation - 253) false x { env := ∅ } := by
  intro x
  have hlimit : ((evalAt 253 false x).runFrom { env := ∅ }).1 ≠ .error evaluationLimit := by
    have hvalue : ((evalAt 253 false x).runFrom { env := ∅ }).1 = .ok (.atom ⟨"a"⟩) := rfl
    rw [hvalue]
    simp
  exact ⟨rfl, hlimit, evalAt_of_le (by decide) hlimit⟩

end PairLisp
