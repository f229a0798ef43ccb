import PairLisp.Proofs.Eval.Failures
import PairLisp.Proofs.Eval.Procedures
import PairLisp.Proofs.Eval.Scope
import PairLisp.Proofs.Handle
import PairLisp.Proofs.Numeral.Spelling

/-!
# Literal mode

In literal mode a numeral at the head of a call is the value of the call. In the other mode the
numeral is looked up like any name. Where nothing goes by a numeral (`Env.NumeralFree`) the look-up
fails, and that is the one difference between the two modes: `Recovers` says what literal mode makes
of a result.

The mode is handed on to the head of a call alone. Everything else is evaluated in literal mode in
any case, where no numeral is missing a definition. So an evaluation fails over a numeral only if
the numeral comes out of its head, or of the head of its head and so on, and then all these calls
have the numeral for their value in literal mode.

No session ever gives a numeral to anything (`Program.numeralFree_between`), so wherever a statement
stands in a session the two modes differ over it in no other way (`Program.recovers_between`).
-/

namespace PairLisp

/-- Neither a variable nor a procedure goes by a numeral. -/
structure Env.NumeralFree (env : Env) : Prop where
  bindings : ∀ name, Vocabulary.standard.isNumeral name = true → env.bindings.get? name = none
  procedures : ∀ name, Vocabulary.standard.isNumeral name = true → env.procedures.get? name = none

/-! ## Numerals stay free -/

/-- An evaluation binds nothing to a numeral. -/
theorem Env.NumeralFree.runFrom_eval {s : EvalState} (hs : s.env.NumeralFree) (levels : Nat)
    (literal : Bool) (x : SExpr) :
    ((eval levels literal x).runFrom s).2.env.NumeralFree where
  bindings name hname := by
    rw [bindings_runFrom_eval]
    exact hs.bindings name hname
  procedures name hname :=
    (EvalState.grows_runFrom_eval levels literal x s).get?_eq_none
      (fun hother => absurd hother (Vocabulary.not_isName_of_isNumeral hname))
      (hs.procedures name hname)

/-- Between two statements of a session nothing goes by a numeral. -/
theorem Program.numeralFree_between (texts : List String) (text : String) (n : Nat) :
    (between texts text n).NumeralFree where
  bindings name _ := by
    rw [bindings_between]
    rfl
  procedures name hname := by
    rw [Option.eq_none_iff_forall_ne_some]
    intro p hp
    have hfits : p.Fits name := orderly_between texts text n name p hp
    exact Vocabulary.not_isName_of_isNumeral hname hfits.isName

/-! ## The head of a call -/

/-- No operation goes by a numeral. -/
theorem Registry.find?_numeral {a : Atom} (h : a.isNumeral = true) :
    standard.find? a.text = none := by
  rw [Option.eq_none_iff_forall_ne_some]
  intro op hop
  rw [(plain_of_find? hop).1] at h
  exact Bool.false_ne_true h

namespace Callee

variable {s : EvalState} {evaluated : Bool} {a : Atom}

/-- Where nothing goes by a numeral, a numeral stands for nothing outside literal mode. -/
theorem resolve_numeral (hs : s.env.NumeralFree) (h : a.isNumeral = true) :
    resolve s false evaluated a = .error (BindingError.undefinedFunction a.text) := by
  have hcases := resolves s false evaluated a
  generalize resolve s false evaluated a = callee at hcases ⊢
  cases hcases with
  | numeral hl _ => exact absurd hl Bool.false_ne_true
  | truth ha =>
    rw [Atom.truth?_of_isNumeral h] at ha
    exact absurd ha (by simp)
  | closure _ hp =>
    obtain ⟨n, rfl, -⟩ := Closures.exists_of_find? hp
    rw [Atom.isNumeral_handle] at h
    exact absurd h Bool.false_ne_true
  | bound hx =>
    rw [hs.bindings a.text h] at hx
    exact absurd hx (by simp)
  | procedure hp =>
    rw [hs.procedures a.text h] at hp
    exact absurd hp (by simp)
  | operation hop =>
    rw [Registry.find?_numeral h] at hop
    exact absurd hop (by simp)
  | undefined _ _ => rfl

theorem resolve_literal_numeral (h : a.isNumeral = true) :
    resolve s true evaluated a = .ok (.value (.atom a)) := by
  unfold resolve
  rw [h]
  rfl

/-- What is no numeral stands for the same in both modes. -/
theorem resolve_literal_of_not_numeral (h : a.isNumeral = false) :
    resolve s true evaluated a = resolve s false evaluated a := by
  unfold resolve
  rw [h]
  rfl

end Callee

/-! ## Results -/

/-- What literal mode makes of the result of an evaluation and the state that it leaves: a failure
over a numeral gives way to the numeral, and everything else stays as it is. -/
inductive Recovers : Except Error SExpr × EvalState → Except Error SExpr × EvalState → Prop where
  | same {r : Except Error SExpr × EvalState} (h : Fails (¬ ·.OfNumeral) r.1) : Recovers r r
  | numeral {a : Atom} {t : EvalState} (h : a.isNumeral = true) :
    Recovers (.error (BindingError.undefinedFunction a.text), t) (.ok (.atom a), t)

namespace Eval

variable {levels : Nat}

theorem recovers_callCallee {t : EvalState} (ht : t.env.NumeralFree) (data : SExpr)
    (evaluated : Bool) (a : Atom) :
    Recovers ((callCallee (eval levels true) data (Callee.resolve t false evaluated a)).runFrom t)
      ((callCallee (eval levels true) data (Callee.resolve t true evaluated a)).runFrom t) := by
  cases h : a.isNumeral with
  | true =>
    rw [Callee.resolve_numeral ht h, Callee.resolve_literal_numeral h]
    exact .numeral h
  | false =>
    rw [← Callee.resolve_literal_of_not_numeral h]
    have hpossible := possible_callCallee (possible_eval levels true) data t true evaluated a t
    exact .same (hpossible.imp fun _ he => he.numeral rfl)

theorem recovers_call
    (ih : ∀ x s, s.env.NumeralFree →
      Recovers ((eval levels false x).runFrom s) ((eval levels true x).runFrom s))
    (address data : SExpr) {s : EvalState} (hs : s.env.NumeralFree) :
    Recovers ((call (eval levels) false address data).runFrom s)
      ((call (eval levels) true address data).runFrom s) := by
  rw [call_eq, call_eq]
  by_cases hreserved : ∃ a, address = .atom a ∧ Registry.standard.isReserved a.text = true
  · -- a reserved name is not evaluated, so the mode has not come into it yet
    obtain ⟨a, rfl, ha⟩ := hreserved
    rw [head_of_isReserved _ ha, head_of_isReserved _ ha]
    exact recovers_callCallee hs data false a
  · have hnot : ∀ a, address = .atom a → Registry.standard.isReserved a.text = false :=
      fun a haddress => Bool.eq_false_iff.2 fun ha => hreserved ⟨a, haddress, ha⟩
    have hhead := ih address s hs
    have hfree := hs.runFrom_eval levels false address
    rw [head_of_not_isReserved _ hnot, head_of_not_isReserved _ hnot, bind_assoc, bind_assoc,
      EvalM.runFrom_bind, EvalM.runFrom_bind]
    generalize (eval levels false address).runFrom s = r at hhead hfree
    generalize (eval levels true address).runFrom s = r' at hhead
    cases hhead with
    | same h =>
      -- the head has failed, or it is an atom, or it is a pair, which cannot be called
      obtain ⟨e | (a | ⟨a, d⟩), t⟩ := r
      · exact .same h
      · exact recovers_callCallee hfree data true a
      · exact .same (fails_error (Error.Plain.not_ofNumeral trivial))
    | @numeral a t h =>
      -- the head has failed over a numeral, which in literal mode is its value and that of the call
      have hvalue : Callee.resolve t true true a = .ok (.value (.atom a)) :=
        Callee.resolve_literal_numeral h
      show Recovers _ ((callCallee _ data (Callee.resolve t true true a)).runFrom t)
      rw [hvalue]
      exact .numeral h

end Eval

/-- Literal mode makes nothing of a result but what `Recovers` says. -/
theorem recovers_eval (levels : Nat) (x : SExpr) {s : EvalState} (hs : s.env.NumeralFree) :
    Recovers ((eval levels false x).runFrom s) ((eval levels true x).runFrom s) := by
  induction levels generalizing x s with
  | zero => exact .same (fails_error (Error.Plain.not_ofNumeral trivial))
  | succ levels ih =>
    cases x with
    | atom a =>
      show Recovers ((Eval.atom a).runFrom s) ((Eval.atom a).runFrom s)
      rw [Eval.runFrom_atom]
      exact .same (fails_ok _)
    | cons address data => exact Eval.recovers_call (fun x _ hs => ih x hs) address data hs

/-- In a session literal mode makes nothing else of the result of any statement either. -/
theorem Program.recovers_between (texts : List String) (text : String) (n : Nat) (x : SExpr) :
    Recovers ((evalAt 0 false x).runFrom { env := between texts text n })
      ((evalAt 0 true x).runFrom { env := between texts text n }) :=
  recovers_eval _ x (numeralFree_between texts text n)

/-- Where neither a variable nor a procedure goes by a numeral, an evaluation is the same in both
modes: it comes to the same value or error and leaves the same environment and closures. The one
exception is a call for whose head, a numeral, nothing is defined: in literal mode it has this
numeral for its value, and the state that it leaves is still the same. -/
theorem evalAt_literal {depth : Nat} {x : SExpr} {s : EvalState} (hs : s.env.NumeralFree) :
    let r := (evalAt depth false x).runFrom s
    let r' := (evalAt depth true x).runFrom s
    ((∀ a : Atom, a.isNumeral = true → r.1 ≠ .error (BindingError.undefinedFunction a.text)) →
      r' = r) ∧
    ∀ a : Atom, a.isNumeral = true → r.1 = .error (BindingError.undefinedFunction a.text) →
      r' = (.ok (.atom a), r.2) := by
  intro r r'
  have hrecovers : Recovers r r' := recovers_eval _ x hs
  generalize r = r, r' = r' at hrecovers
  cases hrecovers with
  | same h => exact ⟨fun _ => rfl, fun a ha he => absurd ⟨a, ha, rfl⟩ (h _ he)⟩
  | @numeral a t h =>
    refine ⟨fun hne => absurd rfl (hne a h), fun b hb he => ?_⟩
    obtain rfl := Error.eq_of_undefinedFunction (Except.error.inj he)
    rfl

/-- `((defun f (y) y) 7)` defines a procedure at its head and calls it, in both modes. -/
theorem evalAt_literal_defun :
    let f : SExpr := .ofList [.atom ⟨"defun"⟩, .atom ⟨"f"⟩, .ofList [.atom ⟨"y"⟩], .atom ⟨"y"⟩]
    let x : SExpr := .ofList [f, .atom ⟨"7"⟩]
    let r := (evalAt 0 false x).runFrom { env := ∅ }
    Env.NumeralFree ∅ ∧ r.1 = .ok (.atom ⟨"7"⟩) ∧ (evalAt 0 true x).runFrom { env := ∅ } = r := by
  intro f x r
  have hfree : Env.NumeralFree ∅ := ⟨fun _ _ => rfl, fun _ _ => rfl⟩
  have hvalue : r.1 = .ok (.atom ⟨"7"⟩) := rfl
  refine ⟨hfree, hvalue, (evalAt_literal hfree).1 fun a _ => ?_⟩
  show r.1 ≠ _
  rw [hvalue]
  simp

end PairLisp
