import PairLisp.Program
import PairLisp.Proofs.Result

/-!
# Programs one after the other

A session begins with an empty environment and runs programs in it, one after the other. Only
their statements change the environment, so a session goes through one environment for each place
between two statements: `Program.between texts text n` is the environment after some programs and
the first `n` statements of a further one.

What holds of the empty environment and is kept by every single statement holds at all of these
places (`Program.between_induction`).
-/

namespace PairLisp

namespace Program

variable {P : Env → Prop} {env : Env}

/-- The statements of a program: none if the text does not split into tokens. -/
def statements (text : String) : List Statement :=
  match tokens text with
  | .error _ => []
  | .ok ts => Statement.split ts

/-- A text that splits into tokens has its statements run. -/
theorem run_of_tokens {text : String} {ts : List Token} (h : tokens text = .ok ts) (env : Env) :
    run env text = runStatements env (Statement.split ts) := by
  unfold run
  rw [h]

/-- A text that does not split into tokens has the error for its only outcome. -/
theorem run_of_tokens_error {text : String} {e : LexicalError} (h : tokens text = .error e)
    (env : Env) : run env text = ([{ source := Text.trim text, result := .error e }], env) := by
  unfold run
  rw [h]

/-- The environment that programs leave that run one after the other. -/
def runAll (env : Env) (texts : List String) : Env :=
  texts.foldl (fun env text => (run env text).2) env

/-- The environment of a session after some programs and the first `n` statements of a further
one. -/
def between (texts : List String) (text : String) (n : Nat) : Env :=
  (runStatements (runAll ∅ texts) ((statements text).take n)).2

theorem env_run (env : Env) (text : String) :
    (run env text).2 = (runStatements env (statements text)).2 := by
  unfold run statements
  cases tokens text with
  | error e => rfl
  | ok ts => rfl

theorem runStatements_cons (env : Env) (s : Statement) (ss : List Statement) :
    runStatements env (s :: ss) = ((s.run env).1 :: (runStatements (s.run env).2 ss).1,
      (runStatements (s.run env).2 ss).2) := rfl

/-- Each statement of a sequence has its outcome in the environment that those before it leave. -/
theorem getElem?_runStatements (env : Env) (ss : List Statement) (n : Nat) :
    (runStatements env ss).1[n]? =
      ss[n]?.map fun s => (s.run (runStatements env (ss.take n)).2).1 := by
  induction ss generalizing env n with
  | nil => rfl
  | cons s ss ih =>
    cases n with
    | zero => rfl
    | succ n => exact ih (s.run env).2 n

/-- Each outcome of a sequence is that of one of the statements, in some environment. -/
theorem exists_of_mem_runStatements {ss : List Statement} {o : Outcome}
    (ho : o ∈ (runStatements env ss).1) : ∃ s ∈ ss, ∃ env', o = (s.run env').1 := by
  obtain ⟨n, hn⟩ := List.getElem?_of_mem ho
  rw [getElem?_runStatements, Option.map_eq_some_iff] at hn
  obtain ⟨s, hs, rfl⟩ := hn
  exact ⟨s, List.mem_of_getElem? hs, _, rfl⟩

/-- An outcome with a value is that of a statement of the program. -/
theorem exists_statement {text : String} {n : Nat} {outcome : Outcome} {value : SExpr}
    (h : (run env text).1[n]? = some outcome) (hvalue : outcome.result = .ok value) :
    ∃ s, (statements text)[n]? = some s ∧
      outcome = (s.run (runStatements env ((statements text).take n)).2).1 := by
  unfold run at h
  unfold statements
  cases htokens : tokens text with
  | error e =>
    -- a text without tokens has an error for its only outcome
    rw [htokens] at h
    obtain rfl := List.mem_singleton.1 (List.mem_of_getElem? h)
    simp at hvalue
  | ok ts =>
    rw [htokens] at h
    dsimp only at h ⊢
    rw [getElem?_runStatements, Option.map_eq_some_iff] at h
    obtain ⟨s, hs, rfl⟩ := h
    exact ⟨s, hs, rfl⟩

/-! ## What every statement keeps -/

section Induction

variable (hstep : ∀ env (s : Statement), P env → P (s.run env).2)
include hstep

theorem runStatements_induction (ss : List Statement) (h : P env) :
    P (runStatements env ss).2 := by
  induction ss generalizing env with
  | nil => exact h
  | cons s ss ih => exact ih (hstep env s h)

theorem runAll_induction (texts : List String) (h : P env) : P (runAll env texts) := by
  induction texts generalizing env with
  | nil => exact h
  | cons text texts ih =>
    have htext : P (run env text).2 := by
      rw [env_run]
      exact runStatements_induction hstep _ h
    exact ih htext

/-- What holds at the start and is kept by every statement holds between any two statements. -/
theorem between_induction (hempty : P ∅) (texts : List String) (text : String) (n : Nat) :
    P (between texts text n) :=
  runStatements_induction hstep _ (runAll_induction hstep texts hempty)

end Induction

end Program

/-! ## What a statement does to the environment -/

namespace Statement

/-- A statement that writes no expression leaves the environment as it is. -/
theorem run_of_expression_error {s : Statement} {e : StructuralError} (env : Env)
    (h : s.expression = .error e) :
    s.run env = ({ source := s.source, result := .error e }, env) := by
  unfold run
  rw [h]

/-- A statement that writes an expression has the result of its evaluation, and leaves the
environment that the evaluation leaves. -/
theorem run_of_expression_ok {s : Statement} {x : SExpr} (env : Env) (h : s.expression = .ok x) :
    s.run env = ({ source := s.source, result := ((evalAt 0 false x).runFrom { env }).1 },
      ((evalAt 0 false x).runFrom { env }).2.env) := by
  unfold run
  rw [h]
  rfl

/-- The errors of a statement are about its tokens, or they are those of its evaluation. -/
theorem fails_run {P : Error → Prop} {env : Env} {s : Statement}
    (hform : ∀ e, s.expression = .error e → P (.structural e))
    (heval : ∀ x, s.expression = .ok x → Fails P ((evalAt 0 false x).runFrom { env }).1) :
    Fails P (s.run env).1.result := by
  cases hx : s.expression with
  | error e =>
    rw [run_of_expression_error env hx]
    exact fails_error (hform e hx)
  | ok x =>
    rw [run_of_expression_ok env hx]
    exact heval x hx

theorem source_run (env : Env) (s : Statement) : (s.run env).1.source = s.source := by
  cases hx : s.expression with
  | error e => rw [run_of_expression_error env hx]
  | ok x => rw [run_of_expression_ok env hx]

/-- What the evaluation of a statement keeps, the statement keeps. -/
theorem run_induction {P : Env → Prop} {env : Env} {s : Statement}
    (heval : ∀ x, s.expression = .ok x → P ((evalAt 0 false x).runFrom { env }).2.env)
    (h : P env) : P (s.run env).2 := by
  cases hx : s.expression with
  | error e =>
    rw [run_of_expression_error env hx]
    exact h
  | ok x =>
    rw [run_of_expression_ok env hx]
    exact heval x hx

end Statement

end PairLisp
