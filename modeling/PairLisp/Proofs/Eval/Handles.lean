import PairLisp.Proofs.Eval.Grounded

/-!
# Handles are neither forged nor left dangling

The handle of a closure is made by the `lambda` form that makes the closure, and by nothing else.
So every handle in a value or in a variable names a closure of the statement at hand, and none
stands in the body of a procedure or of a closure: a body is part of a program, and a program
cannot write a handle down.

`Invariant.handles` says all this of the states and the values of an evaluation. It is
`Invariant.grounded` for atoms that are no handles (`Invariant.handles_eq_grounded`). Between two
statements there are no variables at all and hence no handles, and the next statement begins with no
closure.
-/

namespace PairLisp

/-- Every handle in the expression names a closure. -/
def SExpr.Registered (cs : Closures) (x : SExpr) : Prop :=
  x.All fun a => a.IsHandle → (cs.find? a).isSome = true

/-- No handle stands in the expression. -/
def SExpr.HandleFree (x : SExpr) : Prop :=
  x.All fun a => ¬ a.IsHandle

/-- An expression whose handles name closures is one whose other atoms are no handles. -/
theorem SExpr.registered_iff {cs : Closures} {x : SExpr} :
    x.Registered cs ↔ x.Grounded (fun a => ¬ a.IsHandle) cs := by
  constructor
  · exact fun h => h.imp fun a ha => Classical.or_iff_not_imp_left.2 fun hhandle =>
      ha (Classical.not_not.1 hhandle)
  · exact fun h => h.imp fun a ha hhandle => ha.resolve_left (Classical.not_not.2 hhandle)

/-- No handle stands in the body of a procedure. -/
def Env.HandleFree (env : Env) : Prop :=
  ∀ name p, env.procedures.get? name = some p → p.body.HandleFree

/-- Every handle in a variable names a closure, and no handle stands in a body. -/
structure EvalState.Registered (s : EvalState) : Prop where
  bindings : ∀ name x, s.env.bindings.get? name = some x → x.Registered s.closures
  procedures : s.env.HandleFree
  closures : ∀ p ∈ s.closures.captured, p.body.HandleFree

theorem EvalState.registered_iff {s : EvalState} :
    s.Registered ↔ s.Grounded fun a => ¬ a.IsHandle := by
  constructor
  · exact fun h => ⟨fun name x hx => SExpr.registered_iff.1 (h.bindings name x hx), h.procedures,
      h.closures⟩
  · exact fun h => ⟨fun name x hx => SExpr.registered_iff.2 (h.bindings name x hx), h.procedures,
      h.closures⟩

/-! ## The invariant -/

namespace Invariant

/-- Every handle that comes up names a closure. -/
def handles : Invariant where
  code a := ¬ a.IsHandle
  state s := s.Registered
  later s t := ∀ a, (s.closures.find? a).isSome = true → (t.closures.find? a).isSome = true
  value s x := x.Registered s.closures
  failure e := ∀ n, e ≠ BindingError.undefinedFunction (Atom.handle n).text
  lost _ := False

/-- To be no handle is a property that the atoms of programs have, and those of values have it or
name closures. -/
theorem handles_eq_grounded : handles = grounded fun a => ¬ a.IsHandle := by
  have hstate : handles.state = (grounded fun a => ¬ a.IsHandle).state :=
    funext fun _ => propext EvalState.registered_iff
  have hvalue : handles.value = (grounded fun a => ¬ a.IsHandle).value :=
    funext fun _ => funext fun _ => propext SExpr.registered_iff
  have hfailure : handles.failure = (grounded fun a => ¬ a.IsHandle).failure := by
    refine funext fun e => propext ⟨fun h a he => ?_, fun h n he => ?_⟩
    · rintro ⟨n, rfl⟩
      exact h n he
    · exact h (.handle n) he ⟨n, rfl⟩
  show Invariant.mk _ handles.state _ handles.value handles.failure _ _ _ = _
  rw [hstate, hvalue, hfailure]
  rfl

/-- Evaluation keeps handles to closures that are there. -/
theorem lawful_handles : handles.Lawful := by
  rw [handles_eq_grounded]
  exact lawful_grounded Atom.not_isHandle_t Atom.not_isHandle_nil Atom.not_isHandle_ofInt

end Invariant

/-! ## Statements -/

/-- The watch for handles: every handle names a closure, none stands in a body, and no evaluation
fails because a handle names nothing. -/
def Watch.handles : Watch where
  before s := s.Registered
  after r s :=
    s.Registered ∧
      match r with
      | .ok x => x.Registered s.closures
      | .error e => ∀ n, e ≠ BindingError.undefinedFunction (Atom.handle n).text

theorem Watch.handles_approves : Watch.handles.Approves Invariant.handles where
  state hs := hs
  value hs hx := ⟨hs, hx⟩
  failure hs he := ⟨hs, he⟩

/-- A statement begins with no variable, no closure and no handle. -/
theorem EvalState.registered_start {env : Env} (hbindings : env.bindings = ∅)
    (henv : env.HandleFree) : EvalState.Registered { env } :=
  EvalState.registered_iff.2 (EvalState.grounded_start hbindings henv)

/-- An expression that a program writes down has no handle in it. -/
theorem Statement.handleFree_expression {s : Statement} {x : SExpr} (h : s.expression = .ok x) :
    x.HandleFree :=
  (Statement.writable_expression h).imp fun _ => Atom.not_isHandle_of_writable

theorem Statement.silent_handles {env : Env} {s : Statement} {x : SExpr}
    (hbindings : env.bindings = ∅) (henv : env.HandleFree) (h : s.expression = .ok x) :
    Watch.handles.Silent Limits.evaluation false x { env } :=
  Watch.handles_approves.silent Invariant.lawful_handles (Statement.handleFree_expression h)
    (EvalState.registered_start hbindings henv) (fun _ _ hlost => hlost)

/-- No statement puts a handle into the body of a procedure. -/
theorem Statement.handleFree_run {env : Env} (s : Statement) (hbindings : env.bindings = ∅)
    (henv : env.HandleFree) : (s.run env).2.HandleFree := by
  refine Statement.run_induction (fun x hx => ?_) henv
  exact (Statement.silent_handles hbindings henv hx).approved.2.1.procedures

/-- No statement ends with a call of a closure that is not there. -/
theorem Statement.result_run_ne {env : Env} (s : Statement) (hbindings : env.bindings = ∅)
    (henv : env.HandleFree) (n : Nat) :
    (s.run env).1.result ≠ .error (BindingError.undefinedFunction (Atom.handle n).text) := by
  have heval : ∀ x, s.expression = .ok x →
      Fails (· ≠ .binding (.undefinedFunction (Atom.handle n).text))
        ((evalAt 0 false x).runFrom { env }).1 := by
    intro x hx e he
    have hafter := (Statement.silent_handles hbindings henv hx).approved.2.2
    have he' : ((eval Limits.evaluation false x).runFrom { env }).1 = .error e := he
    rw [he'] at hafter
    exact hafter n
  exact fun hresult => Statement.fails_run (fun _ _ => by simp) heval _ hresult rfl

theorem Program.handleFree_between (texts : List String) (text : String) (n : Nat) :
    (Program.between texts text n).HandleFree :=
  Program.between_induction_of_bindings (fun _ s hbindings henv => s.handleFree_run hbindings henv)
    Env.grounded_empty texts text n

/-- Between two statements of a session there is no handle, neither in a variable, as there is
none, nor in the body of a procedure. The next statement writes none down, and while it is
evaluated every handle in a value or in a variable names a closure that this statement has made.
So it does not fail because a handle names nothing. -/
theorem handles_registered (texts : List String) (text : String) (n : Nat) :
    let env := Program.between texts text n
    env.bindings = ∅ ∧ env.HandleFree ∧ ∀ s : Statement,
      (∀ x, s.expression = .ok x →
        x.HandleFree ∧ Watch.handles.Silent Limits.evaluation false x { env }) ∧
      ∀ k, (s.run env).1.result ≠ .error (BindingError.undefinedFunction (Atom.handle k).text) := by
  intro env
  have hbindings : env.bindings = ∅ := Program.bindings_between texts text n
  have henv : env.HandleFree := Program.handleFree_between texts text n
  refine ⟨hbindings, henv, fun s => ⟨fun x hx => ⟨?_, ?_⟩, ?_⟩⟩
  · exact Statement.handleFree_expression hx
  · exact Statement.silent_handles hbindings henv hx
  · exact s.result_run_ne hbindings henv

/-- A program makes a closure with a procedure of the program before it, and applies it. -/
theorem handles_registered_adder :
    let env := Program.between ["(defun adder (x) (lambda (y) (sum 1 y)))"] "((adder 1) 2)" 0
    let s : Statement := { tokens := ["(", "(", "adder", "1", ")", "2", ")"] }
    let x : SExpr := .ofList [.ofList [.atom ⟨"adder"⟩, .atom ⟨"1"⟩], .atom ⟨"2"⟩]
    (Program.statements "((adder 1) 2)")[0]? = some s ∧ s.expression = .ok x ∧
      (s.run env).1.result = .ok (.ofInt 3) ∧ x.HandleFree ∧
      Watch.handles.Silent Limits.evaluation false x { env } := by
  intro env s x
  have hx : s.expression = .ok x := by decide +kernel
  have h := handles_registered ["(defun adder (x) (lambda (y) (sum 1 y)))"] "((adder 1) 2)" 0
  exact ⟨by decide +kernel, hx, by decide +kernel, ((h.2.2 s).1 x hx).1, ((h.2.2 s).1 x hx).2⟩

end PairLisp
