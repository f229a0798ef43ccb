import PairLisp.Proofs.Eval.Grounded

/-!
# Values are well formed

The atoms of values are those that a program may write down, apart from the handles of the closures
that the statement at hand has made. Truth values and numerals are among the former, so this is what
`Invariant.lawful_grounded` says of `SExpr.Writable`. It holds at every point of an evaluation, and
so of the outcome of a statement, and as the bodies of procedures have no handles, it holds again
when the next statement begins.
-/

namespace PairLisp

open SExpr

/-! ## Atoms that primitives make -/

theorem Atom.writable_t : Writable .t := ⟨by decide, by decide⟩

theorem Atom.writable_nil : Writable .nil := ⟨by decide, by decide⟩

theorem Atom.writable_ofInt (n : Int) : Writable (.ofInt n) :=
  writable_of_isNumeral (isNumeral_ofInt n)

/-- Evaluation keeps values grounded: all that primitives make can be written. -/
theorem Invariant.lawful_writable : (Invariant.grounded Writable).Lawful :=
  lawful_grounded Atom.writable_t Atom.writable_nil Atom.writable_ofInt

/-! ## Statements -/

namespace Statement

variable {env : Env} {s : Statement} {x : SExpr}

/-- The closures that a statement makes. -/
def closures (env : Env) (s : Statement) : Closures :=
  match s.expression with
  | .ok x => ((evalAt 0 false x).runFrom { env }).2.closures
  | .error _ => ∅

/-- No evaluation within a statement ever meets a value that is not grounded. -/
theorem silent_writable (hbindings : env.bindings = ∅) (henv : env.Grounded Writable)
    (h : s.expression = .ok x) :
    (Watch.grounded Writable).Silent Limits.evaluation false x { env } :=
  Watch.grounded_approves.silent Invariant.lawful_writable (writable_expression h)
    (EvalState.grounded_start hbindings henv) (fun _ _ hlost => hlost)

/-- The bodies of procedures stay well formed. -/
theorem grounded_run (s : Statement) (hbindings : env.bindings = ∅) (henv : env.Grounded Writable) :
    (s.run env).2.Grounded Writable :=
  run_induction (fun _ hx => (silent_writable hbindings henv hx).approved.2.1.procedures) henv

/-- The value of a statement is grounded in the closures of this statement. -/
theorem grounded_result {value : SExpr} (hbindings : env.bindings = ∅)
    (henv : env.Grounded Writable) (h : (s.run env).1.result = .ok value) :
    value.Grounded Writable (s.closures env) := by
  unfold closures
  cases hx : s.expression with
  | error e =>
    rw [run_of_expression_error env hx] at h
    simp at h
  | ok x =>
    rw [run_of_expression_ok env hx] at h
    exact (silent_writable hbindings henv hx).approved.2.2 value h

end Statement

/-- Between two statements of a session all bodies of procedures can be written. -/
theorem Program.grounded_between (texts : List String) (text : String) (n : Nat) :
    (Program.between texts text n).Grounded Writable :=
  Program.between_induction_of_bindings (fun _ s hbindings henv => s.grounded_run hbindings henv)
    Env.grounded_empty texts text n

/-- Between two statements of a session the bodies of procedures have only atoms that a program may
write down. So have, at every point of the evaluation of a statement, all bodies, and apart from
handles of closures of the statement all variables and values. The values of outcomes are such
values. -/
theorem values_wellFormed (texts : List String) (text : String) (n : Nat) :
    let env := Program.between texts text n
    env.Grounded Writable ∧
      (∀ (s : Statement) (x : SExpr), s.expression = .ok x →
        (Watch.grounded Writable).Silent Limits.evaluation false x { env }) ∧
      ∀ (outcome : Outcome) (value : SExpr),
        (Program.run (Program.runAll ∅ texts) text).1[n]? = some outcome →
        outcome.result = .ok value →
        ∃ s, (Program.statements text)[n]? = some s ∧ value.Grounded Writable (s.closures env) := by
  intro env
  have hbindings : env.bindings = ∅ := Program.bindings_between texts text n
  have henv : env.Grounded Writable := Program.grounded_between texts text n
  refine ⟨henv, fun s x hx => Statement.silent_writable hbindings henv hx, ?_⟩
  intro outcome value houtcome hvalue
  obtain ⟨s, hs, rfl⟩ := Program.exists_statement houtcome hvalue
  exact ⟨s, hs, Statement.grounded_result hbindings henv hvalue⟩

/-- The value of a program with a procedure of the program before it: a pair of a handle and a
numeral with a plus sign. -/
theorem values_wellFormed_pair :
    let texts := ["(defun pair (x) (cons x +1))"]
    let text := "(pair (lambda (y) y))"
    let env := Program.between texts text 0
    let s : Statement := { tokens := ["(", "pair", "(", "lambda", "(", "y", ")", "y", ")", ")"] }
    let x : SExpr := .ofList [.atom ⟨"pair"⟩,
      .ofList [.atom ⟨"lambda"⟩, .ofList [.atom ⟨"y"⟩], .atom ⟨"y"⟩]]
    let value : SExpr := .cons (.atom (.handle 1)) (.atom ⟨"+1"⟩)
    let outcome : Outcome := { source := s.source, result := .ok value }
    s.expression = .ok x ∧ (Watch.grounded Writable).Silent Limits.evaluation false x { env } ∧
      (Program.run (Program.runAll ∅ texts) text).1[0]? = some outcome ∧
      ∃ s, (Program.statements text)[0]? = some s ∧ value.Grounded Writable (s.closures env) := by
  intro texts text env s x value outcome
  have hx : s.expression = .ok x := by decide +kernel
  have houtcomes : (Program.run (Program.runAll ∅ texts) text).1.map
      (fun o => (o.source, o.result)) = [(s.source, .ok value)] := by decide +kernel
  have houtcome : (Program.run (Program.runAll ∅ texts) text).1[0]? = some outcome := by
    obtain ⟨o, ho, heq⟩ := List.map_eq_singleton_iff.1 houtcomes
    obtain ⟨hsource, hresult⟩ := Prod.mk.inj heq
    rw [ho]
    show some (Outcome.mk o.source o.result) = some outcome
    rw [hsource, hresult]
  have h := values_wellFormed texts text 0
  exact ⟨hx, h.2.1 s x hx, houtcome, h.2.2 outcome value houtcome rfl⟩

end PairLisp
