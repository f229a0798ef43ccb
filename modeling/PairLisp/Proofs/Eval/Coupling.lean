import Mathlib.Data.List.Forall2
import PairLisp.Proofs.Eval.Step
import PairLisp.Proofs.SExpr.All

/-!
# Two evaluations side by side

Many properties of evaluation compare two evaluations of one expression: with more levels left or
fewer, from states that differ in a name, with a closer watch on the values or without it. A
property of a single evaluation compares that evaluation with itself.

A `Coupling` says what it means for two evaluations to keep step: which pairs of states may face
each other, how later pairs are tied to earlier ones, and which values and errors match. It may
give up the comparison after certain errors of the first evaluation (`lost`).

`Coupling.Lawful` asks for one law for each thing that evaluation does to a state or reads off
it. The main theorem `Coupling.Lawful.step_call` says that they are enough: if two evaluations of
the expressions one level further in keep step, then so do the two evaluations of a call. The
proof goes through the special forms and the kinds of callees one by one and never looks at a
state, except through the laws. `Coupling.Lawful.evaluators_eval` is the induction over the
levels.
-/

namespace PairLisp

/-- Two lists of which the second has, element by element, the images of the first. -/
theorem forall₂_eq_map {α β : Type} {R : α → β → Prop} {f : α → β} {P : α → Prop} {xs : List α}
    {ys : List β} (hR : ∀ x y, R x y → y = f x ∧ P x) (h : List.Forall₂ R xs ys) :
    ys = xs.map f ∧ ∀ x ∈ xs, P x := by
  induction h with
  | nil => simp
  | cons hxy _ ih =>
    obtain ⟨rfl, hx⟩ := hR _ _ hxy
    obtain ⟨rfl, hxs⟩ := ih
    exact ⟨rfl, List.forall_mem_cons.2 ⟨hx, hxs⟩⟩

/-- The states of two evaluations. -/
abbrev StatePair := EvalState × EvalState

/-- What it means for two evaluations to keep step. -/
structure Coupling where
  /-- The atoms of the expressions that are evaluated. -/
  code : Atom → Prop
  /-- The states that may face each other. -/
  states : StatePair → Prop
  /-- What ties a pair of states to an earlier one. -/
  later : StatePair → StatePair → Prop
  /-- The values that match in a pair of states. -/
  value : StatePair → SExpr → SExpr → Prop
  /-- The errors that match. -/
  failure : Error → Error → Prop
  /-- The errors of the first evaluation after which the two are not compared. -/
  lost : Error → Prop
  /-- The parameters of the procedures that are called. -/
  params : List String → Prop := fun _ => True
  /-- The special forms that are called. -/
  form : Form → Prop := fun _ => True

namespace Coupling

variable (C : Coupling)

/-- Two evaluations have ended with results that match, in states that may face each other. -/
inductive Meets {α β : Type} (V : StatePair → α → β → Prop) (p : StatePair) :
    Except Error α × EvalState → Except Error β × EvalState → Prop where
  | value {a : α} {b : β} {s t : EvalState} (hst : C.states (s, t)) (hl : C.later p (s, t))
      (hv : V (s, t) a b) : Meets V p (.ok a, s) (.ok b, t)
  | failure {e e' : Error} {s t : EvalState} (hst : C.states (s, t)) (hl : C.later p (s, t))
      (he : C.failure e e') : Meets V p (.error e, s) (.error e', t)
  | lost {e : Error} {s : EvalState} {r : Except Error β × EvalState} (he : C.lost e) :
    Meets V p (.error e, s) r

/-- Two evaluations keep step from a pair of states on. -/
def Step {α β : Type} (V : StatePair → α → β → Prop) (p : StatePair) (m : EvalM α)
    (m' : EvalM β) : Prop :=
  C.Meets V p (m.runFrom p.1) (m'.runFrom p.2)

/-- Two evaluators keep step on all expressions that are evaluated. -/
def Evaluators (f g : SExpr → EvalM SExpr) : Prop :=
  ∀ x, x.All C.code → ∀ p, C.states p → C.Step C.value p (f x) (g x)

/-- What the heads of two calls stand for matches. -/
inductive Callees (p : StatePair) : Callee → Callee → Prop where
  | value {x y : SExpr} (h : C.value p x y) : Callees p (.value x) (.value y)
  | procedure {f : Procedure} (h : f.body.All C.code) (hparams : C.params f.params) :
    Callees p (.procedure f) (.procedure f)
  | operation {op : Operation} (h : ∀ form, op.meaning = .form form → C.form form) :
    Callees p (.operation op) (.operation op)

/-- Results that depend on nothing but a state match. -/
inductive Results {α β : Type} (V : α → β → Prop) : Except Error α → Except Error β → Prop where
  | value {a : α} {b : β} (h : V a b) : Results V (.ok a) (.ok b)
  | failure {e e' : Error} (h : C.failure e e') : Results V (.error e) (.error e')
  | lost {e : Error} {r : Except Error β} (h : C.lost e) : Results V (.error e) r

variable {C} in
/-- Where no error loses the comparison, the two evaluations have ended in states that may face each
other, with results that match. -/
theorem Meets.ends {α β : Type} {V : StatePair → α → β → Prop} {p : StatePair}
    {r : Except Error α × EvalState} {r' : Except Error β × EvalState}
    (h : C.Meets V p r r') (hlost : ∀ e, ¬ C.lost e) : C.states (r.2, r'.2) ∧
      C.later p (r.2, r'.2) ∧ C.Results (V (r.2, r'.2)) r.1 r'.1 := by
  cases h with
  | value hst hl hv => exact ⟨hst, hl, .value hv⟩
  | failure hst hl he => exact ⟨hst, hl, .failure he⟩
  | lost he => exact absurd he (hlost _)

/-- What has to be known of the single steps of two evaluations. -/
structure Lawful : Prop where
  later_refl (p : StatePair) : C.later p p
  later_trans {p q r : StatePair} : C.later p q → C.later q r → C.later p r
  value_later {p q : StatePair} {x y : SExpr} : C.value p x y → C.later p q → C.value q x y
  value_code {p : StatePair} {x : SExpr} : C.states p → x.All C.code → C.value p x x
  value_ofBool {p : StatePair} (b : Bool) : C.states p → C.value p (.ofBool b) (.ofBool b)
  value_valueOf {p : StatePair} {a : Atom} : C.states p → C.code a →
    C.value p (p.1.valueOf a) (p.2.valueOf a)
  form_of_value {p : StatePair} {a : Atom} {op : Operation} {form : Form} : C.states p →
    C.value p (.atom a) (.atom a) → Registry.standard.find? a.text = some op →
    op.meaning = .form form → C.form form := by intros; exact trivial
  isAtom_eq {p : StatePair} {x y : SExpr} : C.value p x y → x.isAtom = y.isAtom
  toBool?_eq {p : StatePair} {x y : SExpr} : C.value p x y → x.toBool? = y.toBool?
  failure_refl {e : Error} : e.Plain → ¬ C.lost e → C.failure e e
  failure_type {p : StatePair} {x y : SExpr} (mk : SExpr → TypeError) : C.value p x y →
    C.failure (mk x) (mk y)
  apply {p : StatePair} {xs ys : List SExpr} (f : Builtin) : C.states p →
    List.Forall₂ (C.value p) xs ys → C.Results (C.value p) (f.apply xs) (f.apply ys)
  resolve {p : StatePair} {a b : Atom} (literal : Bool) : C.states p →
    C.value p (.atom a) (.atom b) →
    C.Results (C.Callees p) (Callee.resolve p.1 literal true a) (Callee.resolve p.2 literal true b)
  define {p : StatePair} {name : Atom} {formals body : SExpr} : C.states p → C.form .defun →
    C.code name → formals.All C.code → body.All C.code →
    C.Meets C.value p (p.1.define name formals body) (p.2.define name formals body)
  capture {p : StatePair} {formals body : SExpr} : C.states p → C.form .lambda →
    formals.All C.code → body.All C.code →
    C.Meets C.value p (p.1.capture formals body) (p.2.capture formals body)
  enter {p : StatePair} {xs ys : List SExpr} {params : List String} : C.states p →
    C.params params → List.Forall₂ (C.value p) xs ys →
    C.states (p.1.enter (params.zip xs), p.2.enter (params.zip ys))
  leave {p q : StatePair} {xs ys : List SExpr} (params : List String) : C.states p →
    List.Forall₂ (C.value p) xs ys →
    C.later (p.1.enter (params.zip xs), p.2.enter (params.zip ys)) q → C.states q →
    C.states (q.1.leave p.1, q.2.leave p.2) ∧ C.later p (q.1.leave p.1, q.2.leave p.2) ∧
      ∀ x y, C.value q x y → C.value (q.1.leave p.1, q.2.leave p.2) x y

namespace Lawful

variable {C} {α β γ δ : Type} {p : StatePair} {f g : SExpr → EvalM SExpr}

/-! ## Single steps -/

theorem step_pure (hC : C.Lawful) {V : StatePair → α → β → Prop} {a : α} {b : β}
    (hp : C.states p) (h : V p a b) : C.Step V p (pure a) (pure b) :=
  .value hp (hC.later_refl p) h

theorem step_fail (hC : C.Lawful) {V : StatePair → α → β → Prop} {e e' : Error}
    (hp : C.states p) (h : C.failure e e') : C.Step V p (EvalM.fail e) (EvalM.fail e') :=
  .failure hp (hC.later_refl p) h

/-- Evaluations keep step in sequence if they do so one after the other. -/
theorem step_bind (hC : C.Lawful) {V : StatePair → α → β → Prop} {W : StatePair → γ → δ → Prop}
    {m : EvalM α} {m' : EvalM β} {k : α → EvalM γ} {k' : β → EvalM δ} (hm : C.Step V p m m')
    (hk : ∀ q, C.states q → C.later p q → ∀ a b, V q a b → C.Step W q (k a) (k' b)) :
    C.Step W p (m >>= k) (m' >>= k') := by
  unfold Step at hm ⊢
  rw [EvalM.runFrom_bind, EvalM.runFrom_bind]
  generalize m.runFrom p.1 = r at hm ⊢
  generalize m'.runFrom p.2 = r' at hm ⊢
  cases hm with
  | @value a b s t hst hl hv =>
    have hnext : C.Meets W (s, t) ((k a).runFrom s) ((k' b).runFrom t) := hk (s, t) hst hl a b hv
    show C.Meets W p ((k a).runFrom s) ((k' b).runFrom t)
    generalize (k a).runFrom s = r at hnext ⊢
    generalize (k' b).runFrom t = r' at hnext ⊢
    cases hnext with
    | value hst' hl' hv' => exact .value hst' (hC.later_trans hl hl') hv'
    | failure hst' hl' he => exact .failure hst' (hC.later_trans hl hl') he
    | lost he => exact .lost he
  | failure hst hl he => exact .failure hst hl he
  | lost he => exact .lost he

/-- Results that are there already and match keep the two evaluations together. -/
theorem step_ofExcept (hC : C.Lawful) {V : StatePair → α → β → Prop} {r : Except Error α}
    {r' : Except Error β} (hp : C.states p) (h : C.Results (V p) r r') :
    C.Step V p (ofExcept r) (ofExcept r') := by
  cases h with
  | value h => exact hC.step_pure hp h
  | failure h => exact hC.step_fail hp h
  | lost h => exact .lost h

/-- A failure whose error mentions no value and is no matter of what a name is bound to. -/
theorem step_fail_refl (hC : C.Lawful) {V : StatePair → α → β → Prop} {e : Error}
    (hp : C.states p) (h : e.Plain) : C.Step V p (EvalM.fail e) (EvalM.fail e) := by
  by_cases hlost : C.lost e
  · exact .lost hlost
  · exact hC.step_fail hp (hC.failure_refl h hlost)

/-! ## Arguments -/

/-- Arguments that are evaluated in turn have values that match one by one. -/
theorem step_arguments (hC : C.Lawful) (hfg : C.Evaluators f g) {args : List SExpr}
    (hargs : ∀ x ∈ args, x.All C.code) (hp : C.states p) :
    C.Step (fun q => List.Forall₂ (C.value q)) p (Eval.arguments f args)
      (Eval.arguments g args) := by
  induction args generalizing p with
  | nil => exact hC.step_pure hp .nil
  | cons x xs ih =>
    rw [List.forall_mem_cons] at hargs
    refine hC.step_bind (hfg x hargs.1 p hp) fun q hq _ v w hv => ?_
    refine hC.step_bind (ih hargs.2 hq) fun r hr hqr vs ws hvs => ?_
    exact hC.step_pure hr (.cons (hC.value_later hv hqr) hvs)

/-- A call finds the same arguments in both evaluations, or the same error. -/
theorem step_argumentList (hC : C.Lawful) {name : String} {data : SExpr}
    (hdata : data.All C.code) (hp : C.states p) :
    C.Step (fun _ args args' => args = args' ∧ ∀ x ∈ args, x.All C.code) p
      (Eval.argumentList name data) (Eval.argumentList name data) := by
  unfold Eval.argumentList
  split
  · next args hargs => exact hC.step_pure hp ⟨rfl, hdata.toList? hargs⟩
  · exact hC.step_fail_refl hp trivial

/-! ## Special forms -/

theorem step_wrongCount (hC : C.Lawful) {form : String} {expected : Nat} {args : List SExpr}
    (hp : C.states p) :
    C.Step C.value p (Form.wrongCount form expected args) (Form.wrongCount form expected args) :=
  hC.step_fail_refl hp trivial

/-- Values that match stand for the same truth value. -/
theorem step_guard (hC : C.Lawful) {form : String} {x y : SExpr} (hp : C.states p)
    (h : C.value p x y) : C.Step (fun _ => Eq) p (Form.guard form x) (Form.guard form y) := by
  unfold Form.guard
  rw [hC.toBool?_eq h]
  split
  · exact hC.step_pure hp rfl
  · exact hC.step_fail hp (hC.failure_type (TypeError.guard form) h)

/-- Both evaluations come to the same arm, since their guards stand for the same truth values. -/
theorem step_firstArm (hC : C.Lawful) (hfg : C.Evaluators f g) {arms : List SExpr}
    (harms : ∀ x ∈ arms, x.All C.code) (hp : C.states p) :
    C.Step C.value p (Form.firstArm f arms) (Form.firstArm g arms) := by
  induction arms generalizing p with
  | nil => exact hC.step_fail_refl hp trivial
  | cons arm arms ih =>
    rw [List.forall_mem_cons] at harms
    unfold Form.firstArm
    split
    · next test consequent harm =>
      have hparts := harms.1.toList? harm
      have htest : test.All C.code := hparts test (by simp)
      have hconsequent : consequent.All C.code := hparts consequent (by simp)
      refine hC.step_bind (hfg test htest p hp) fun q hq _ v w hv => ?_
      refine hC.step_bind (hC.step_guard hq hv) fun r hr _ b b' hb => ?_
      subst hb
      cases b with
      | true => exact hfg consequent hconsequent r hr
      | false => exact ih harms.2 hr
    · exact hC.step_fail_refl hp trivial

/-- Both evaluations come to the same operand that decides, or to none. -/
theorem step_decideBy (hC : C.Lawful) (hfg : C.Evaluators f g) {form : String} {decisive : Bool}
    {args : List SExpr} (hargs : ∀ x ∈ args, x.All C.code) (hp : C.states p) :
    C.Step C.value p (Form.decideBy f form decisive args) (Form.decideBy g form decisive args) := by
  induction args generalizing p with
  | nil => exact hC.step_pure hp (hC.value_ofBool _ hp)
  | cons x xs ih =>
    rw [List.forall_mem_cons] at hargs
    refine hC.step_bind (hfg x hargs.1 p hp) fun q hq _ v w hv => ?_
    rw [hC.toBool?_eq hv]
    split
    · split
      · exact hC.step_pure hq (hC.value_ofBool _ hq)
      · exact ih hargs.2 hq
    · exact hC.step_fail_refl hq trivial

/-- A conjunction or disjunction keeps the two evaluations together. -/
theorem step_junction (hC : C.Lawful) (hfg : C.Evaluators f g) {form : String} {decisive : Bool}
    {args : List SExpr} (hargs : ∀ x ∈ args, x.All C.code) (hp : C.states p) :
    C.Step C.value p (Form.junction f form decisive args) (Form.junction g form decisive args) := by
  unfold Form.junction
  split
  · exact hC.step_fail_refl hp trivial
  · split
    · exact hC.step_fail_refl hp trivial
    · exact hC.step_decideBy hfg hargs hp

/-- Both evaluations go on with the same branch. -/
theorem step_conditional (hC : C.Lawful) (hfg : C.Evaluators f g) {test x y : SExpr}
    (htest : test.All C.code) (hx : x.All C.code) (hy : y.All C.code) (hp : C.states p) :
    C.Step C.value p (Form.run f .conditional [test, x, y])
      (Form.run g .conditional [test, x, y]) := by
  refine hC.step_bind (hfg test htest p hp) fun q hq _ v w hv => ?_
  refine hC.step_bind (hC.step_guard hq hv) fun r hr _ b b' hb => ?_
  subst hb
  cases b with
  | true => exact hfg x hx r hr
  | false => exact hfg y hy r hr

/-- Every special form that may be called keeps the two evaluations together. -/
theorem step_form (hC : C.Lawful) (hfg : C.Evaluators f g) {form : Form} {args : List SExpr}
    (hform : C.form form) (hargs : ∀ x ∈ args, x.All C.code) (hp : C.states p) :
    C.Step C.value p (Form.run f form args) (Form.run g form args) := by
  cases form with
  | quote =>
    unfold Form.run
    dsimp only
    split
    · exact hC.step_pure hp (hC.value_code hp (hargs _ (by simp)))
    · exact hC.step_wrongCount hp
  | conditional =>
    match args with
    | [test, x, y] =>
      exact hC.step_conditional hfg (hargs _ (by simp)) (hargs _ (by simp)) (hargs _ (by simp)) hp
    | [] | [_] | [_, _] | _ :: _ :: _ :: _ :: _ =>
      exact hC.step_wrongCount hp
  | cond => exact hC.step_firstArm hfg hargs hp
  | defun =>
    unfold Form.run
    dsimp only
    split
    · next name formals body =>
      have hname : C.code name := hargs (.atom name) (by simp)
      show C.Step C.value p (Form.run f .defun [.atom name, formals, body])
        (Form.run g .defun [.atom name, formals, body])
      unfold Step
      rw [Form.runFrom_defun, Form.runFrom_defun]
      exact hC.define hp hform hname (hargs _ (by simp)) (hargs _ (by simp))
    · exact hC.step_fail_refl hp trivial
    · exact hC.step_wrongCount hp
  | lambda =>
    unfold Form.run
    dsimp only
    split
    · next formals body =>
      show C.Step C.value p (Form.run f .lambda [formals, body])
        (Form.run g .lambda [formals, body])
      unfold Step
      rw [Form.runFrom_lambda, Form.runFrom_lambda]
      exact hC.capture hp hform (hargs _ (by simp)) (hargs _ (by simp))
    · exact hC.step_wrongCount hp
  | conjunction => exact hC.step_junction hfg hargs hp
  | disjunction => exact hC.step_junction hfg hargs hp

/-! ## Calls -/

/-- The body of a procedure, with its parameters bound and unbound again. -/
theorem step_withVariables (hC : C.Lawful) (hfg : C.Evaluators f g) {params : List String}
    {xs ys : List SExpr} {body : SExpr} (hparams : C.params params) (hbody : body.All C.code)
    (hp : C.states p) (hxs : List.Forall₂ (C.value p) xs ys) :
    C.Step C.value p (EvalM.withVariables (params.zip xs) (f body))
      (EvalM.withVariables (params.zip ys) (g body)) := by
  have hinner := hfg body hbody _ (hC.enter hp hparams hxs)
  unfold Step at hinner ⊢
  rw [EvalM.runFrom_withVariables, EvalM.runFrom_withVariables]
  dsimp only at hinner
  generalize (f body).runFrom (p.1.enter (params.zip xs)) = r at hinner ⊢
  generalize (g body).runFrom (p.2.enter (params.zip ys)) = r' at hinner ⊢
  cases hinner with
  | value hst hl hv =>
    obtain ⟨hst', hl', hv'⟩ := hC.leave params hp hxs hl hst
    exact .value hst' hl' (hv' _ _ hv)
  | failure hst hl he =>
    obtain ⟨hst', hl', -⟩ := hC.leave params hp hxs hl hst
    exact .failure hst' hl' he
  | lost he => exact .lost he

/-- A procedure is called with values that match, and its body keeps the two together. -/
theorem step_callProcedure (hC : C.Lawful) (hfg : C.Evaluators f g) {q : Procedure}
    {data : SExpr} (hq : q.body.All C.code) (hparams : C.params q.params)
    (hdata : data.All C.code) (hp : C.states p) :
    C.Step C.value p (Eval.callProcedure f q data) (Eval.callProcedure g q data) := by
  rw [Eval.callProcedure_eq, Eval.callProcedure_eq]
  refine hC.step_bind (hC.step_argumentList hdata hp) fun r hr _ args args' hargs => ?_
  obtain ⟨rfl, hargs⟩ := hargs
  unfold Eval.applyProcedure
  split
  · exact hC.step_fail_refl hr trivial
  · refine hC.step_bind (hC.step_arguments hfg hargs hr) fun t ht _ vs ws hvs => ?_
    exact hC.step_withVariables hfg hparams hq ht hvs

/-- A function has values that match on values that match, and a form is a step as well. -/
theorem step_applyMeaning (hC : C.Lawful) (hfg : C.Evaluators f g) {meaning : Meaning}
    {args : List SExpr} (hmeaning : ∀ form, meaning = .form form → C.form form)
    (hargs : ∀ x ∈ args, x.All C.code) (hp : C.states p) :
    C.Step C.value p (Eval.applyMeaning f meaning args) (Eval.applyMeaning g meaning args) := by
  cases meaning with
  | function b =>
    refine hC.step_bind (hC.step_arguments hfg hargs hp) fun r hr _ vs ws hvs => ?_
    exact hC.step_ofExcept hr (hC.apply b hr hvs)
  | form form => exact hC.step_form hfg (hmeaning form rfl) hargs hp

/-- The call of an operation keeps the two evaluations together. -/
theorem step_callOperation (hC : C.Lawful) (hfg : C.Evaluators f g) {op : Operation}
    {data : SExpr} (hop : ∀ form, op.meaning = .form form → C.form form)
    (hdata : data.All C.code) (hp : C.states p) :
    C.Step C.value p (Eval.callOperation f op data) (Eval.callOperation g op data) := by
  rw [Eval.callOperation_eq, Eval.callOperation_eq]
  split
  · exact hC.step_fail_refl hp trivial
  · refine hC.step_bind (hC.step_argumentList hdata hp) fun q hq _ args args' hargs => ?_
    obtain ⟨rfl, hargs⟩ := hargs
    unfold Eval.applyOperation
    split
    · exact hC.step_applyMeaning hfg hop hargs hq
    · exact hC.step_fail_refl hq trivial

/-- The heads of two calls match, and they are the values of the two heads or a reserved name that
both heads are. -/
def Heads (C : Coupling) (q : StatePair) (a b : Atom × Bool) : Prop :=
  C.value q (.atom a.1) (.atom b.1) ∧
    (a.2 = true ∧ b.2 = true ∨ a = b ∧ Registry.standard.isReserved a.1.text = true)

/-- The heads of a call are atoms that match. -/
theorem step_head (hC : C.Lawful) (hfg : C.Evaluators f g) {address : SExpr}
    (haddress : address.All C.code) (hp : C.states p) :
    C.Step (Heads C) p (Eval.head f address) (Eval.head g address) := by
  by_cases h : ∃ a, address = .atom a ∧ Registry.standard.isReserved a.text = true
  · obtain ⟨a, rfl, ha⟩ := h
    rw [Eval.head_of_isReserved f ha, Eval.head_of_isReserved g ha]
    exact hC.step_pure hp ⟨hC.value_code hp haddress, .inr ⟨rfl, ha⟩⟩
  · have hplain : ∀ a, address = .atom a → Registry.standard.isReserved a.text = false := by
      intro a ha
      exact Bool.eq_false_iff.2 fun hr => h ⟨a, ha, hr⟩
    rw [Eval.head_of_not_isReserved f hplain, Eval.head_of_not_isReserved g hplain]
    refine hC.step_bind (hfg address haddress p hp) fun q hq _ x y hxy => ?_
    have hshape := hC.isAtom_eq hxy
    match x, y with
    | .atom a, .atom b => exact hC.step_pure hq ⟨hxy, .inl ⟨rfl, rfl⟩⟩
    | .cons _ _, .cons _ _ => exact hC.step_fail hq (hC.failure_type TypeError.notApplicable hxy)
    | .atom _, .cons _ _ | .cons _ _, .atom _ => simp [SExpr.isAtom] at hshape

/-- Heads that match stand for things that match. -/
theorem results_resolve (hC : C.Lawful) {q : StatePair} {a b : Atom × Bool} (literal : Bool)
    (hq : C.states q) (h : Heads C q a b) :
    C.Results (C.Callees q) (Callee.resolve q.1 literal a.2 a.1)
      (Callee.resolve q.2 literal b.2 b.1) := by
  obtain ⟨hab, ⟨ha, hb⟩ | ⟨rfl, hr⟩⟩ := h
  · rw [ha, hb]
    exact hC.resolve literal hq hab
  · -- a reserved name stands for its operation in every state
    obtain ⟨op, hop, hreserved⟩ := Registry.isReserved_iff.1 hr
    rw [Callee.resolve_of_operation literal _ hop (.inl hreserved),
      Callee.resolve_of_operation literal _ hop (.inl hreserved)]
    exact .value (.operation fun _ => hC.form_of_value hq hab hop)

/-- Calls of things that match keep the two evaluations together. -/
theorem step_callCallee (hC : C.Lawful) (hfg : C.Evaluators f g) {data : SExpr}
    {c c' : Except Error Callee} (hdata : data.All C.code) (hp : C.states p)
    (h : C.Results (C.Callees p) c c') :
    C.Step C.value p (Eval.callCallee f data c) (Eval.callCallee g data c') := by
  cases h with
  | value h =>
    cases h with
    | value hxy => exact hC.step_pure hp hxy
    | procedure hq hparams => exact hC.step_callProcedure hfg hq hparams hdata hp
    | operation hop => exact hC.step_callOperation hfg hop hdata hp
  | failure he => exact hC.step_fail hp he
  | lost he => exact .lost he

/-- Two calls keep step if the evaluations one level further in do. -/
theorem step_call (hC : C.Lawful) {f g : Bool → SExpr → EvalM SExpr}
    (hfg : ∀ literal, C.Evaluators (f literal) (g literal)) (literal : Bool)
    {address data : SExpr} (haddress : address.All C.code) (hdata : data.All C.code)
    (hp : C.states p) :
    C.Step C.value p (Eval.call f literal address data) (Eval.call g literal address data) := by
  rw [Eval.call_eq, Eval.call_eq]
  refine hC.step_bind (hC.step_head (hfg literal) haddress hp) fun q hq _ a b hab => ?_
  exact hC.step_callCallee (hfg true) hdata hq (hC.results_resolve literal hq hab)

/-- Two evaluations of an atom keep step. -/
theorem step_atom (hC : C.Lawful) {a : Atom} (ha : C.code a) (hp : C.states p) :
    C.Step C.value p (Eval.atom a) (Eval.atom a) := by
  unfold Step
  rw [Eval.runFrom_atom, Eval.runFrom_atom]
  exact .value hp (hC.later_refl p) (hC.value_valueOf hp ha)

/-- Two evaluations of one expression keep step, whatever the states they begin in, as long as
these may face each other. -/
theorem evaluators_eval (hC : C.Lawful) (levels : Nat) (literal : Bool) :
    C.Evaluators (eval levels literal) (eval levels literal) := by
  induction levels generalizing literal with
  | zero => exact fun x _ p hp => hC.step_fail_refl hp trivial
  | succ levels ih =>
    intro x hx p hp
    cases x with
    | atom a => exact hC.step_atom hx hp
    | cons address data => exact hC.step_call ih literal hx.1 hx.2 hp

end Lawful

end Coupling

end PairLisp
