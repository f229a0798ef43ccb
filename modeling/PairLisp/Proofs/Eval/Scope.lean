import PairLisp.Proofs.Eval.Invariant
import PairLisp.Proofs.Program.Session

/-!
# Variables are bound for the extent of a call

A call binds its parameters over the variables of the caller, and these come back when the call
ends. `Invariant.keepsVariables` is the invariant that says so. Nothing but a call changes a
variable, and at the end of a call it does not matter what the body has done to the variables.

The variables of a session are those of its empty environment, so between two statements there
are none.
-/

namespace PairLisp

namespace Invariant

/-- An evaluation leaves the variables as it has found them. -/
def keepsVariables : Invariant :=
  ofEnds (fun s t => t.env.bindings = s.env.bindings) (fun _ => True) (fun _ => False)

theorem lawful_keepsVariables : keepsVariables.Lawful := by
  have hleave : ∀ {s t : EvalState} {entries : List (String × SExpr)},
      t.env.bindings = (s.enter entries).env.bindings →
      (t.leave s).env.bindings = s.env.bindings := by
    intro s t entries _
    exact EvalState.bindings_leave t s
  have hdefine : ∀ {s : EvalState} {name formals body p env},
      s.env.define name formals body = .ok (p, env) → env.bindings = s.env.bindings := by
    intro s name formals body p env h
    obtain ⟨-, rfl⟩ := Env.eq_of_define h
    rfl
  exact lawful_ofEnds (fun _ => rfl) (fun hst htu => htu.trans hst) hdefine (fun _ => rfl)
    hleave (fun _ _ => trivial) (fun _ => trivial) (fun _ => trivial)

end Invariant

/-- However an evaluation ends, the variables are those with which it has begun. -/
theorem bindings_runFrom_eval (levels : Nat) (literal : Bool) (x : SExpr) (s : EvalState) :
    ((eval levels literal x).runFrom s).2.env.bindings = s.env.bindings := by
  have hx : x.All Invariant.keepsVariables.code := Invariant.all_code_ofEnds x
  exact (Invariant.lawful_keepsVariables.ends levels literal hx trivial).later fun _ => not_false

/-- A statement leaves the variables as it has found them. -/
theorem Statement.bindings_run (env : Env) (s : Statement) :
    (s.run env).2.bindings = env.bindings := by
  have hkept : (s.run env).2.bindings = env.bindings :=
    Statement.run_induction (P := fun env' => env'.bindings = env.bindings)
      (fun x _ => bindings_runFrom_eval _ _ x { env }) rfl
  exact hkept

namespace Program

/-- No variable is bound between two statements of a session. -/
theorem bindings_between (texts : List String) (text : String) (n : Nat) :
    (between texts text n).bindings = ∅ := by
  have hstep : ∀ env (s : Statement), env.bindings = ∅ → (s.run env).2.bindings = ∅ := by
    intro env s h
    rw [s.bindings_run, h]
  exact between_induction hstep rfl texts text n

/-- What statements keep that begin with no variable holds between any two statements. -/
theorem between_induction_of_bindings {P : Env → Prop}
    (hstep : ∀ env (s : Statement), env.bindings = ∅ → P env → P (s.run env).2) (hempty : P ∅)
    (texts : List String) (text : String) (n : Nat) : P (between texts text n) := by
  have hboth : ∀ env (s : Statement), env.bindings = ∅ ∧ P env →
      (s.run env).2.bindings = ∅ ∧ P (s.run env).2 := by
    intro env s h
    rw [s.bindings_run]
    exact ⟨h.1, hstep env s h.1 h.2⟩
  exact (between_induction hboth ⟨rfl, hempty⟩ texts text n).2

end Program

/-- Evaluation at any depth, in any state, leaves the variables as it has found them, whether it
comes to a value or to an error; and no variable is bound between two statements of a session. -/
theorem variables_restored :
    (∀ (depth : Nat) (literal : Bool) (x : SExpr) (s : EvalState),
      ((evalAt depth literal x).runFrom s).2.env.bindings = s.env.bindings) ∧
    ∀ (texts : List String) (text : String) (n : Nat),
      (Program.between texts text n).bindings = ∅ :=
  ⟨fun depth literal x s => bindings_runFrom_eval (Limits.evaluation - depth) literal x s,
    Program.bindings_between⟩

end PairLisp
