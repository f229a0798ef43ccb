import PairLisp.Proofs.Eval.Call

/-!
# De Morgan's laws

The forms `and` and `or` evaluate their arguments one after the other and stop at the first one that
decides the result. The negations of the arguments, in the other form, come to the opposite truth
values, so the same argument decides, and what the evaluation of the arguments does to the state is
the same (`Form.runFrom_decideBy_negations`). So the negation of one form can be written as the other
form with negations for its arguments (`evalAt_junction_negations`).

This is only so where the negation has a value. Both forms refuse numerals and strings among their
arguments before they evaluate any, and a negated numeral is no numeral.
-/

namespace PairLisp

namespace SExpr

/-- The negation of an expression. -/
def negation (x : SExpr) : SExpr := ofCall "not" [x]

/-- The form that `decisive` decides: truth decides `or`, and falsehood decides `and`. -/
def junction (decisive : Bool) (args : List SExpr) : SExpr :=
  ofCall (if decisive then "or" else "and") args

theorem toBool?_ofBool (b : Bool) : (ofBool b).toBool? = some b := by
  cases b <;> rfl

end SExpr

/-! ## Negations -/

/-- A negation has a value if its argument is a truth value. -/
theorem Builtin.apply_not_eq_ok_iff {x v : SExpr} :
    Builtin.not.apply [x] = .ok v ↔ ∃ b, x.toBool? = some b ∧ v = .ofBool !b := by
  show (Argument.bool x >>= fun b => .ok (.ofBool !b)) = .ok v ↔ _
  unfold Argument.bool
  cases x.toBool? with
  | none => simp [bind, Except.bind]
  | some b => simp [bind, Except.bind, eq_comm]

namespace Eval

variable {n levels : Nat} {literal decisive : Bool} {x v : SExpr} {args : List SExpr}
  {s t : EvalState}

theorem arguments_singleton (inward : SExpr → EvalM SExpr) (x : SExpr) :
    arguments inward [x] = inward x >>= fun v => pure [v] := by
  simp [arguments]

/-- The negation of an expression, where its name is free, has the opposite value of the expression,
which is evaluated one level further in. -/
theorem runFrom_negation_iff (hs : s.env.Free "not") :
    (eval (n + 2) literal x.negation).runFrom s = (.ok v, t) ↔
      ∃ y b, (eval (n + 1) true x).runFrom s = (.ok y, t) ∧ y.toBool? = some b ∧
        v = .ofBool !b := by
  have hcall : (eval (n + 2) literal x.negation).runFrom s =
      (arguments (eval (n + 1) true) [x] >>= fun values =>
        ofExcept (Builtin.not.apply values)).runFrom s := by
    unfold SExpr.negation
    rw [runFrom_ofCall n literal [x] rfl rfl hs, callOperation_ofList _ (by simp) rfl]
    rfl
  rw [hcall, arguments_singleton, bind_assoc, EvalM.runFrom_bind_eq_ok]
  constructor
  · rintro ⟨y, u, hy, hnot⟩
    rw [pure_bind, runFrom_ofExcept] at hnot
    split at hnot
    · next w hw =>
      obtain ⟨hv, rfl⟩ := Prod.mk.inj hnot
      obtain ⟨b, hb, rfl⟩ := Builtin.apply_not_eq_ok_iff.1 hw
      exact ⟨y, b, hy, hb, (Except.ok.inj hv).symm⟩
    · simp at hnot
  · rintro ⟨y, b, hy, hb, rfl⟩
    refine ⟨y, t, hy, ?_⟩
    rw [pure_bind, runFrom_ofExcept, Builtin.apply_not_eq_ok_iff.2 ⟨b, hb, rfl⟩]

/-- A negation with a value has two levels left, one for the call and one for its name. -/
theorem exists_levels_of_negation (h : (eval levels literal x.negation).runFrom s = (.ok v, t)) :
    ∃ n, levels = n + 2 := by
  obtain ⟨_ | n, rfl⟩ := exists_level h
  · have hfail : (eval 1 literal x.negation).runFrom s =
      (.error StructuralError.evaluationLimit, s) := rfl
    rw [hfail] at h
    simp at h
  · exact ⟨n, rfl⟩

/-- The form `and` or `or` with arguments of which none is refused. -/
theorem eval_junction (levels : Nat) (literal decisive : Bool) (hne : args ≠ []) :
    eval (levels + 1) literal (.junction decisive args) =
      Form.junction (eval levels true) (if decisive then "or" else "and") decisive args := by
  cases decisive with
  | true =>
    show _ = Form.run (eval levels true) .disjunction args
    refine eval_ofCall_form levels literal rfl rfl rfl hne ?_
    exact decide_eq_true (List.length_pos_iff.2 hne)
  | false =>
    show _ = Form.run (eval levels true) .conjunction args
    refine eval_ofCall_form levels literal rfl rfl rfl hne ?_
    exact decide_eq_true (List.length_pos_iff.2 hne)

end Eval

/-! ## Negated arguments -/

namespace Form

variable {n : Nat} {decisive : Bool} {form form' : String} {v : SExpr} {args : List SExpr}
  {s t : EvalState}

/-- A value of a form `and` or `or` is decided by its arguments. -/
theorem decideBy_of_junction {inward : SExpr → EvalM SExpr}
    (h : (junction inward form decisive args).runFrom s = (.ok v, t)) :
    (decideBy inward form decisive args).runFrom s = (.ok v, t) := by
  unfold junction at h
  split at h
  · simp [wrongCount] at h
  · split at h
    · simp at h
    · exact h

/-- No negation is refused before it is evaluated. -/
theorem junction_negations (inward : SExpr → EvalM SExpr) (form : String) (decisive : Bool)
    (hne : args ≠ []) :
    junction inward form decisive (args.map .negation) =
      decideBy inward form decisive (args.map .negation) := by
  have hempty : (args.map SExpr.negation).isEmpty = false := by simpa using hne
  have hrefused : (args.map SExpr.negation).any isNeverBoolean = false := by
    rw [List.any_eq_false]
    intro x hx
    obtain ⟨y, -, rfl⟩ := List.mem_map.1 hx
    exact Bool.false_ne_true
  unfold junction
  rw [hempty, hrefused, if_neg Bool.false_ne_true, if_neg Bool.false_ne_true]

/-- The negations of arguments decide for the opposite of what the arguments decide for, and leave
the same state. -/
theorem runFrom_decideBy_negations (hs : s.env.Free "not")
    (h : (decideBy (eval n true) form decisive args).runFrom s = (.ok v, t)) :
    ∃ b, v = .ofBool b ∧
      (decideBy (eval (n + 1) true) form' (!decisive) (args.map .negation)).runFrom s =
        (.ok (.ofBool !b), t) := by
  induction args generalizing s with
  | nil =>
    obtain ⟨hv, rfl⟩ := Prod.mk.inj h
    exact ⟨!decisive, (Except.ok.inj hv).symm, rfl⟩
  | cons arg args ih =>
    obtain ⟨x, u, hx, hrest⟩ := EvalM.runFrom_bind_eq_ok.1 h
    have hu : u.env.Free "not" := by
      have hfree := hs.runFrom_eval rfl n true arg
      rwa [hx] at hfree
    cases hb : x.toBool? with
    | none =>
      rw [hb] at hrest
      simp at hrest
    | some b =>
      rw [hb] at hrest
      have hnegation : (eval (n + 1) true arg.negation).runFrom s = (.ok (.ofBool !b), u) := by
        obtain ⟨k, rfl⟩ := Eval.exists_level hx
        exact (Eval.runFrom_negation_iff hs).2 ⟨x, b, hx, hb, rfl⟩
      rw [List.map_cons, decideBy, EvalM.runFrom_bind, hnegation]
      dsimp only at hrest ⊢
      rw [SExpr.toBool?_ofBool]
      dsimp only
      by_cases hdecisive : b = decisive
      · -- this argument decides, and so does its negation
        rw [if_pos hdecisive] at hrest
        obtain ⟨hv, rfl⟩ := Prod.mk.inj hrest
        rw [if_pos (congrArg not hdecisive)]
        exact ⟨b, (Except.ok.inj hv).symm, rfl⟩
      · rw [if_neg hdecisive] at hrest
        rw [if_neg fun heq => hdecisive (Bool.not_inj heq)]
        exact ih hu hrest

end Form

/-- De Morgan's laws, at any depth, in either mode and in any state in which neither a variable nor a
procedure goes by `not`: if the negation of an `and` form has a value, then the `or` form with the
negations of its arguments has the same value, and leaves the same variables, procedures and
closures; and the same with `and` and `or` exchanged. -/
theorem evalAt_junction_negations {depth : Nat} {literal decisive : Bool} {args : List SExpr}
    {v : SExpr} {s t : EvalState} (hne : args ≠ []) (hs : s.env.Free "not")
    (h : (evalAt depth literal (SExpr.junction decisive args).negation).runFrom s = (.ok v, t)) :
    (evalAt depth literal (.junction (!decisive) (args.map .negation))).runFrom s = (.ok v, t) := by
  unfold evalAt at h ⊢
  generalize Limits.evaluation - depth = levels at h ⊢
  obtain ⟨n, rfl⟩ := Eval.exists_levels_of_negation h
  obtain ⟨y, b, hy, hb, rfl⟩ := (Eval.runFrom_negation_iff hs).1 h
  rw [Eval.eval_junction n true decisive hne] at hy
  rw [Eval.eval_junction (n + 1) literal (!decisive) (by simpa using hne),
    Form.junction_negations _ _ _ hne]
  obtain ⟨b', rfl, hnegations⟩ :=
    Form.runFrom_decideBy_negations hs (Form.decideBy_of_junction hy)
  rw [SExpr.toBool?_ofBool] at hb
  rw [← Option.some.inj hb]
  exact hnegations

/-- The second argument of an `and` form defines a procedure, which the third one calls, and decides
the result before the fourth one is evaluated. -/
theorem evalAt_junction_negations_defun :
    let f : SExpr := .ofCall "defun" [.atom ⟨"f"⟩, .ofList [.atom ⟨"x"⟩], .atom ⟨"x"⟩]
    let args : List SExpr := [.atom ⟨"t"⟩, .ofCall "atom" [f], .ofCall "f" [.atom ⟨"nil"⟩],
      .ofCall "g" []]
    let s : EvalState := { env := ∅ }
    let r := (evalAt 0 false (SExpr.junction false args).negation).runFrom s
    args ≠ [] ∧ s.env.Free "not" ∧ r.1 = .ok (.atom .t) ∧
      r.2.env.procedures.contains "f" = true ∧
      (evalAt 0 false (.junction true (args.map .negation))).runFrom s = r := by
  intro f args s r
  have hfree : s.env.Free "not" := ⟨rfl, rfl⟩
  have hvalue : r.1 = .ok (.atom .t) := by decide +kernel
  have hr : r = (.ok (.atom .t), r.2) := Prod.ext hvalue rfl
  have hne : args ≠ [] := List.cons_ne_nil _ _
  have hdual : (evalAt 0 false (.junction (!false) (args.map .negation))).runFrom s =
      (.ok (.atom .t), r.2) := evalAt_junction_negations hne hfree hr
  refine ⟨hne, hfree, hvalue, by decide +kernel, ?_⟩
  rw [hr]
  exact hdual

end PairLisp
