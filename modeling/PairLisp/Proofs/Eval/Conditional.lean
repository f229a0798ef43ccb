import PairLisp.Proofs.Eval.Call
import PairLisp.Proofs.Eval.Depth

/-!
# Conditionals with many arms

A `cond` form tries its arms one after the other, and so do `if` forms of which each is the
alternative of the one before. If these have a value, the `cond` form with the same arms and a last
one that is always taken has it as well (`evalAt_ofArms`).

The `if` forms stand one inside the other, so each of them needs a level more than the one around it.
The arms of a `cond` form are all evaluated one level further in. So a guard has more levels left in
the `cond` form than in the `if` forms, and as it has a value there, more levels make no difference.
-/

namespace PairLisp

/-- A guard and the expression that it guards. -/
structure Arm where
  test : SExpr
  consequent : SExpr

/-- An arm as it is written in a `cond` form. -/
def Arm.toExpr (arm : Arm) : SExpr := .ofList [arm.test, arm.consequent]

namespace SExpr

/-- An `if` form for each arm, in the place of the alternative of the one before. -/
def ofConditionals (otherwise : SExpr) : List Arm → SExpr
  | [] => otherwise
  | arm :: arms => ofCall "if" [arm.test, arm.consequent, ofConditionals otherwise arms]

/-- A `cond` form with the arms and a last one that is taken if none of them is. -/
def ofArms (otherwise : SExpr) (arms : List Arm) : SExpr :=
  ofCall "cond" (arms.map Arm.toExpr ++ [Arm.toExpr ⟨atom .t, otherwise⟩])

end SExpr

/-! ## Single arms -/

namespace Form

variable {inward : SExpr → EvalM SExpr} {s t u : EvalState} {x v : SExpr} {b : Bool} {arm : Arm}

theorem runFrom_guard {form : String} (h : x.toBool? = some b) :
    (guard form x).runFrom s = (.ok b, s) := by
  unfold guard
  rw [h]
  rfl

theorem toBool?_of_guard {form : String} (h : (guard form x).runFrom s = (.ok b, t)) :
    x.toBool? = some b ∧ t = s := by
  unfold guard at h
  split at h
  · next b' hb' =>
    obtain ⟨hb, ht⟩ := Prod.mk.inj h
    rw [hb', Except.ok.inj hb]
    exact ⟨rfl, ht.symm⟩
  · simp at h

/-- An `if` form with a value has a guard with a truth value, and the value is that of the branch
that the guard chooses. -/
theorem exists_of_conditional {alternative : SExpr}
    (h : (run inward .conditional [arm.test, arm.consequent, alternative]).runFrom s = (.ok v, t)) :
    ∃ x b u, (inward arm.test).runFrom s = (.ok x, u) ∧ x.toBool? = some b ∧
      (inward (if b then arm.consequent else alternative)).runFrom u = (.ok v, t) := by
  obtain ⟨x, u, hx, hrest⟩ := EvalM.runFrom_bind_eq_ok.1 h
  obtain ⟨b, u', hguard, hbranch⟩ := EvalM.runFrom_bind_eq_ok.1 hrest
  obtain ⟨hb, rfl⟩ := toBool?_of_guard hguard
  refine ⟨x, b, u', hx, hb, ?_⟩
  cases b with
  | true => exact hbranch
  | false => exact hbranch

/-- The first arm of a `cond` form is taken if its guard is true, and left behind if it is false. -/
theorem runFrom_firstArm (arms : List SExpr) (hx : (inward arm.test).runFrom s = (.ok x, u))
    (hb : x.toBool? = some b) :
    (firstArm inward (arm.toExpr :: arms)).runFrom s =
      (if b then inward arm.consequent else firstArm inward arms).runFrom u := by
  have harm : arm.toExpr.toList? = some [arm.test, arm.consequent] := SExpr.toList?_ofList _
  rw [firstArm, harm]
  dsimp only
  rw [EvalM.runFrom_bind, hx]
  dsimp only
  rw [EvalM.runFrom_bind, runFrom_guard hb]

end Form

/-! ## Arms one after the other -/

/-- With more levels left, a value is the same. -/
theorem runFrom_eval_ok_of_le {n m : Nat} (h : n ≤ m) {literal : Bool} {x v : SExpr}
    {s t : EvalState} (hv : (eval n literal x).runFrom s = (.ok v, t)) :
    (eval m literal x).runFrom s = (.ok v, t) := by
  rw [runFrom_eval_of_le h (by rw [hv]; simp), hv]

namespace Eval

variable {n m : Nat} {s t : EvalState} {v otherwise : SExpr} {arm : Arm} {arms : List Arm}

/-- The truth value `T` is its own value where no variable goes by its name. -/
theorem runFrom_t (literal : Bool) (hs : s.env.bindings.get? "T" = none) :
    (eval (n + 1) literal (.atom .t)).runFrom s = (.ok (.atom .t), s) := by
  show (Eval.atom .t).runFrom s = _
  rw [runFrom_atom]
  unfold EvalState.valueOf
  rw [show Atom.t.text = "T" from rfl, hs]
  rfl

/-- If the `if` form of an arm has a value, the `cond` form has it, as long as that is so for the
arms behind. -/
theorem runFrom_firstArm_of_conditional {alternative : SExpr} {rest : List SExpr} (hnm : n ≤ m)
    (h : (Form.run (eval n true) .conditional [arm.test, arm.consequent, alternative]).runFrom s =
      (.ok v, t))
    (hrest : ∀ u, u.env.bindings = s.env.bindings →
      (eval n true alternative).runFrom u = (.ok v, t) →
      (Form.firstArm (eval m true) rest).runFrom u = (.ok v, t)) :
    (Form.firstArm (eval m true) (arm.toExpr :: rest)).runFrom s = (.ok v, t) := by
  obtain ⟨x, b, u, hx, hb, hbranch⟩ := Form.exists_of_conditional h
  rw [Form.runFrom_firstArm rest (runFrom_eval_ok_of_le hnm hx) hb]
  cases b with
  | true => exact runFrom_eval_ok_of_le hnm hbranch
  | false =>
    have hbindings := bindings_runFrom_eval n true arm.test s
    rw [hx] at hbindings
    exact hrest u hbindings hbranch

/-- An `if` form by its name. -/
theorem eval_if (levels : Nat) (literal : Bool) (test consequent alternative : SExpr) :
    eval (levels + 1) literal (.ofCall "if" [test, consequent, alternative]) =
      Form.run (eval levels true) .conditional [test, consequent, alternative] :=
  eval_ofCall_form levels literal rfl rfl rfl (by simp) rfl

/-- A `cond` form by its name. -/
theorem eval_cond (levels : Nat) (literal : Bool) {arms : List SExpr} (hne : arms ≠ []) :
    eval (levels + 1) literal (.ofCall "cond" arms) = Form.firstArm (eval levels true) arms := by
  show _ = Form.run (eval levels true) .cond arms
  refine eval_ofCall_form levels literal rfl rfl rfl hne ?_
  exact decide_eq_true (List.length_pos_iff.2 hne)

/-- If the `if` forms of arms have a value, the arms of the `cond` form have it. -/
theorem runFrom_firstArm_of_conditionals (hnm : n ≤ m) (hs : s.env.bindings.get? "T" = none)
    (h : (eval n true (.ofConditionals otherwise arms)).runFrom s = (.ok v, t)) :
    (Form.firstArm (eval m true)
      (arms.map Arm.toExpr ++ [Arm.toExpr ⟨.atom .t, otherwise⟩])).runFrom s = (.ok v, t) := by
  induction arms generalizing n s with
  | nil =>
    -- there is a level left for the guard `T`, as there is one for the expression behind it
    obtain ⟨k, hk⟩ := exists_level (runFrom_eval_ok_of_le hnm h)
    have ht : (eval m true (.atom .t)).runFrom s = (.ok (.atom .t), s) := by
      rw [hk]
      exact runFrom_t true hs
    show (Form.firstArm _ [Arm.toExpr ⟨.atom .t, otherwise⟩]).runFrom s = _
    rw [Form.runFrom_firstArm [] ht rfl]
    exact runFrom_eval_ok_of_le hnm h
  | cons arm arms ih =>
    obtain ⟨n, rfl⟩ := exists_level h
    have hn : n ≤ m := by omega
    refine runFrom_firstArm_of_conditional hn h fun u hu halternative => ?_
    exact ih hn (by rw [hu, hs]) halternative

end Eval

/-- Take one or more arms and an expression for all other cases, at any depth, in either mode and in
any state in which no variable goes by `T`. If the `if` forms of the arms, each of them the
alternative of the one before, have a value, then the `cond` form with a last arm `(T otherwise)` has
the same value, and it leaves the same variables, procedures and closures. -/
theorem evalAt_ofArms {depth : Nat} {literal : Bool} {arms : List Arm} {otherwise v : SExpr}
    {s t : EvalState} (hne : arms ≠ []) (hs : s.env.bindings.get? "T" = none)
    (h : (evalAt depth literal (.ofConditionals otherwise arms)).runFrom s = (.ok v, t)) :
    (evalAt depth literal (.ofArms otherwise arms)).runFrom s = (.ok v, t) := by
  unfold evalAt at h ⊢
  generalize Limits.evaluation - depth = levels at h ⊢
  obtain ⟨arm, arms, rfl⟩ := List.exists_cons_of_ne_nil hne
  obtain ⟨n, rfl⟩ := Eval.exists_level h
  rw [SExpr.ofConditionals, Eval.eval_if] at h
  rw [SExpr.ofArms, Eval.eval_cond n literal (by simp)]
  -- the first guard has as many levels left in both forms, and the others have more in `cond`
  refine Eval.runFrom_firstArm_of_conditional (Nat.le_refl n) h fun u hu halternative => ?_
  exact Eval.runFrom_firstArm_of_conditionals (Nat.le_refl n) (by rw [hu, hs]) halternative

/-- The guard of the first arm defines a procedure, which the second arm calls, at the greatest depth
at which the `if` forms have a value. -/
theorem evalAt_ofArms_defun :
    let f : SExpr := .ofCall "defun" [.atom ⟨"f"⟩, .ofList [.atom ⟨"x"⟩], .atom ⟨"x"⟩]
    let arms : List Arm := [⟨.ofCall "eq" [f, .atom ⟨"g"⟩], .atom ⟨"a"⟩⟩,
      ⟨.ofCall "f" [.atom ⟨"t"⟩], .ofCall "f" [.atom ⟨"7"⟩]⟩]
    let otherwise : SExpr := .atom ⟨"b"⟩
    let s : EvalState := { env := ∅ }
    let r := (evalAt 252 false (.ofConditionals otherwise arms)).runFrom s
    arms ≠ [] ∧ s.env.bindings.get? "T" = none ∧ r.1 = .ok (.atom ⟨"7"⟩) ∧
      r.2.env.procedures.contains "f" = true ∧
      ((evalAt 253 false (.ofConditionals otherwise arms)).runFrom s).1 = .error evaluationLimit ∧
      (evalAt 252 false (.ofArms otherwise arms)).runFrom s = r := by
  intro f arms otherwise s r
  have hvalue : r.1 = .ok (.atom ⟨"7"⟩) := by decide +kernel
  have hr : r = (.ok (.atom ⟨"7"⟩), r.2) := Prod.ext hvalue rfl
  have hne : arms ≠ [] := List.cons_ne_nil _ _
  refine ⟨hne, rfl, hvalue, by decide +kernel, by decide +kernel, ?_⟩
  rw [hr]
  exact evalAt_ofArms hne rfl hr

end PairLisp
