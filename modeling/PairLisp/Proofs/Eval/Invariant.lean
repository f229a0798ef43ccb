import PairLisp.Proofs.Eval.Coupling
import PairLisp.Proofs.Primitive.Results

/-!
# Invariants of evaluation

An `Invariant` is a property of a single evaluation: of the states that it goes through, of the
values that it comes to and of the errors that it may end with. `Invariant.Lawful` says that
every single step keeps it. An evaluation with an invariant keeps step with itself
(`Invariant.Lawful.coupling`), so all that is known of two evaluations holds of it.

A property of the outcome alone says nothing about the evaluations inside. For these there is a
`Watch`. A watched evaluation looks at the state that each evaluation inside begins in and at the
result and the state that it ends with, and raises an alarm in place of the result if something is
wrong. The watch is `Silent` if no alarm, whatever it does, makes a difference. An alarm that fails
with an error cannot go unnoticed, as no evaluation takes an error of an evaluation inside for
anything else (`Watch.error_or_runFrom_eq`). An invariant keeps every watch silent that looks for
no more than the invariant says (`Watch.Approves.silent`).
-/

namespace PairLisp

/-! ## Invariants -/

/-- The errors of primitive functions are plain. -/
theorem Error.OfPrimitive.plain {e : Error} (h : e.OfPrimitive) : e.Plain := by
  cases e with
  | lexical | structural | binding => exact h.elim
  | definition | arithmetic | type => trivial

/-- A property that the states, the values and the errors of an evaluation have. -/
structure Invariant where
  /-- The atoms of the expressions that are evaluated. -/
  code : Atom → Prop
  /-- The states that an evaluation goes through. -/
  state : EvalState → Prop
  /-- What ties a state to an earlier one. -/
  later : EvalState → EvalState → Prop
  /-- The values that an evaluation comes to in a state. -/
  value : EvalState → SExpr → Prop
  /-- The errors that an evaluation may end with. -/
  failure : Error → Prop
  /-- The errors after which nothing else is claimed. -/
  lost : Error → Prop
  /-- The parameters of the procedures that are called. -/
  params : List String → Prop := fun _ => True
  /-- The special forms that are called. -/
  form : Form → Prop := fun _ => True

namespace Invariant

variable (I : Invariant)

/-- Every single step of an evaluation keeps the invariant. -/
structure Lawful : Prop where
  later_refl (s : EvalState) : I.later s s
  later_trans {s t u : EvalState} : I.later s t → I.later t u → I.later s u
  value_later {s t : EvalState} {x : SExpr} : I.value s x → I.later s t → I.value t x
  value_code {s : EvalState} {x : SExpr} : I.state s → x.All I.code → I.value s x
  value_ofBool {s : EvalState} (b : Bool) : I.state s → I.value s (.ofBool b)
  value_bound {s : EvalState} {name : String} {x : SExpr} : I.state s →
    s.env.bindings.get? name = some x → I.value s x
  value_apply {s : EvalState} {f : Builtin} {xs : List SExpr} {y : SExpr} : I.state s →
    (∀ x ∈ xs, I.value s x) → f.apply xs = .ok y → I.value s y
  code_procedure {s : EvalState} {name : String} {p : Procedure} : I.state s →
    s.env.procedures.get? name = some p → p.body.All I.code
  code_closure {s : EvalState} {a : Atom} {p : Procedure} : I.state s →
    s.closures.find? a = some p → p.body.All I.code
  params_procedure {s : EvalState} {name : String} {p : Procedure} : I.state s →
    s.env.procedures.get? name = some p → I.params p.params := by intros; exact trivial
  params_closure {s : EvalState} {a : Atom} {p : Procedure} : I.state s →
    s.closures.find? a = some p → I.params p.params := by intros; exact trivial
  form_of_value {s : EvalState} {a : Atom} {op : Operation} {form : Form} : I.state s →
    I.value s (.atom a) → Registry.standard.find? a.text = some op → op.meaning = .form form →
    I.form form := by intros; exact trivial
  failure_plain {e : Error} : e.Plain → ¬ I.lost e → I.failure e
  failure_type (e : TypeError) : I.failure e
  failure_undefined {s : EvalState} {a : Atom} : I.state s → I.value s (.atom a) →
    s.closures.find? a = none → I.failure (BindingError.undefinedFunction a.text)
  define {s : EvalState} {name : Atom} {formals body : SExpr} {p : Procedure} {env : Env} :
    I.state s → I.form .defun → body.All I.code →
    s.env.define name.text formals body = .ok (p, env) →
    I.state { s with env } ∧ I.later s { s with env }
  capture {s : EvalState} {formals body : SExpr} {p : Procedure} : I.state s →
    I.form .lambda → body.All I.code → Procedure.ofFormals "lambda" formals body = .ok p →
    I.state { s with closures := (s.closures.capture p).2 } ∧
      I.later s { s with closures := (s.closures.capture p).2 } ∧
      I.value { s with closures := (s.closures.capture p).2 } (.atom (s.closures.capture p).1)
  enter {s : EvalState} {xs : List SExpr} {params : List String} : I.state s →
    I.params params → (∀ x ∈ xs, I.value s x) → I.state (s.enter (params.zip xs))
  leave {s t : EvalState} {entries : List (String × SExpr)} : I.state s → I.state t →
    I.later (s.enter entries) t → I.state (t.leave s) ∧ I.later s (t.leave s)
  value_leave {s t : EvalState} {x : SExpr} : I.value t x → I.value (t.leave s) x

/-- An evaluation with an invariant, beside itself. -/
def coupling : Coupling where
  code := I.code
  states p := p.1 = p.2 ∧ I.state p.1
  later p q := I.later p.1 q.1
  value p x y := x = y ∧ I.value p.1 x
  failure e e' := e = e' ∧ I.failure e
  lost := I.lost
  params := I.params
  form := I.form

variable {I}

/-- In the comparison that belongs to an invariant a state faces itself. -/
theorem exists_of_states {p : StatePair} (h : I.coupling.states p) :
    ∃ s, p = (s, s) ∧ I.state s := by
  obtain ⟨s, t⟩ := p
  obtain ⟨hst, hs⟩ := h
  obtain rfl : s = t := hst
  exact ⟨s, rfl, hs⟩

/-- Values that match in such a comparison are the same. -/
theorem forall₂_value {p : StatePair} {xs ys : List SExpr}
    (h : List.Forall₂ (I.coupling.value p) xs ys) : xs = ys ∧ ∀ x ∈ xs, I.value p.1 x := by
  obtain ⟨hys, hxs⟩ := forall₂_eq_map (fun x y hxy => ⟨hxy.1.symm, hxy.2⟩) h
  rw [List.map_id'] at hys
  exact ⟨hys.symm, hxs⟩

namespace Lawful

/-- The value of an atom has the property, be it bound or not. -/
theorem value_valueOf (hI : I.Lawful) {s : EvalState} {a : Atom} (hs : I.state s)
    (ha : I.code a) : I.value s (s.valueOf a) := by
  unfold EvalState.valueOf
  split
  · next x hx => exact hI.value_bound hs hx
  · split
    · exact hI.value_ofBool _ hs
    · exact hI.value_code hs ha

/-- A failure whose error is no matter of what a name is bound to. -/
theorem meets_error (hI : I.Lawful) {s : EvalState} {e : Error} (hs : I.state s)
    (he : e.Plain) :
    I.coupling.Meets I.coupling.value (s, s) (.error e, s) (.error e, s) := by
  by_cases hlost : I.lost e
  · exact .lost hlost
  · exact .failure ⟨rfl, hs⟩ (hI.later_refl s) ⟨rfl, hI.failure_plain he hlost⟩

/-- What the head of a call stands for is as the invariant wants it. -/
theorem results_resolve (hI : I.Lawful) {s : EvalState} {a : Atom} (literal : Bool)
    (hs : I.state s) (ha : I.value s (.atom a)) :
    I.coupling.Results (I.coupling.Callees (s, s)) (Callee.resolve s literal true a)
      (Callee.resolve s literal true a) := by
  have hcases := Callee.resolves s literal true a
  generalize Callee.resolve s literal true a = c at hcases ⊢
  cases hcases with
  | numeral _ _ => exact .value (.value ⟨rfl, ha⟩)
  | truth _ => exact .value (.value ⟨rfl, hI.value_ofBool _ hs⟩)
  | closure _ hp => exact .value (.procedure (hI.code_closure hs hp) (hI.params_closure hs hp))
  | bound hx => exact .value (.value ⟨rfl, hI.value_bound hs hx⟩)
  | procedure hp =>
    exact .value (.procedure (hI.code_procedure hs hp) (hI.params_procedure hs hp))
  | operation hop => exact .value (.operation fun _ => hI.form_of_value hs ha hop)
  | undefined hc _ => exact .failure ⟨rfl, hI.failure_undefined hs ha (hc rfl)⟩

/-- A `defun` form keeps the invariant. -/
theorem meets_define (hI : I.Lawful) {s : EvalState} {name : Atom} {formals body : SExpr}
    (hs : I.state s) (hform : I.form .defun) (hname : I.code name) (hbody : body.All I.code) :
    I.coupling.Meets I.coupling.value (s, s) (s.define name formals body)
      (s.define name formals body) := by
  unfold EvalState.define
  split
  · next p env h =>
    obtain ⟨hstate, hlater⟩ := hI.define hs hform hbody h
    exact .value ⟨rfl, hstate⟩ hlater ⟨rfl, hI.value_code hstate hname⟩
  · exact hI.meets_error hs trivial

/-- A `lambda` form keeps the invariant. -/
theorem meets_capture (hI : I.Lawful) {s : EvalState} {formals body : SExpr} (hs : I.state s)
    (hform : I.form .lambda) (hbody : body.All I.code) :
    I.coupling.Meets I.coupling.value (s, s) (s.capture formals body)
      (s.capture formals body) := by
  unfold EvalState.capture
  split
  · next p h =>
    obtain ⟨hstate, hlater, hvalue⟩ := hI.capture hs hform hbody h
    exact .value ⟨rfl, hstate⟩ hlater ⟨rfl, hvalue⟩
  · exact hI.meets_error hs trivial

/-- The value of a primitive function has the property if its arguments have it. -/
theorem results_apply (hI : I.Lawful) {s : EvalState} {xs : List SExpr} (f : Builtin)
    (hs : I.state s) (hxs : ∀ x ∈ xs, I.value s x) :
    I.coupling.Results (I.coupling.value (s, s)) (f.apply xs) (f.apply xs) := by
  cases h : f.apply xs with
  | ok y => exact .value ⟨rfl, hI.value_apply hs hxs h⟩
  | error e =>
    have hplain : e.Plain := (Builtin.fails_apply f xs e h).plain
    by_cases hlost : I.lost e
    · exact .lost hlost
    · exact .failure ⟨rfl, hI.failure_plain hplain hlost⟩

/-- An evaluation with an invariant keeps step with itself. -/
theorem coupling (hI : I.Lawful) : I.coupling.Lawful where
  later_refl p := hI.later_refl p.1
  later_trans := hI.later_trans
  value_later h hl := ⟨h.1, hI.value_later h.2 hl⟩
  value_code hp hx := ⟨rfl, hI.value_code hp.2 hx⟩
  value_ofBool b hp := ⟨rfl, hI.value_ofBool b hp.2⟩
  value_valueOf hp ha := by
    obtain ⟨s, rfl, hs⟩ := exists_of_states hp
    exact ⟨rfl, hI.value_valueOf hs ha⟩
  isAtom_eq h := by rw [h.1]
  toBool?_eq h := by rw [h.1]
  failure_refl h hlost := ⟨rfl, hI.failure_plain h hlost⟩
  failure_type mk h := ⟨by rw [h.1], hI.failure_type (mk _)⟩
  apply f hp h := by
    obtain ⟨s, rfl, hs⟩ := exists_of_states hp
    obtain ⟨rfl, hxs⟩ := forall₂_value h
    exact hI.results_apply f hs hxs
  resolve literal hp h := by
    obtain ⟨s, rfl, hs⟩ := exists_of_states hp
    obtain ⟨hab, ha⟩ := h
    obtain rfl := SExpr.atom.inj hab
    exact hI.results_resolve literal hs ha
  form_of_value hp ha hop hmeaning := hI.form_of_value hp.2 ha.2 hop hmeaning
  define hp hform hname _ hbody := by
    obtain ⟨s, rfl, hs⟩ := exists_of_states hp
    exact hI.meets_define hs hform hname hbody
  capture hp hform _ hbody := by
    obtain ⟨s, rfl, hs⟩ := exists_of_states hp
    exact hI.meets_capture hs hform hbody
  enter hp hparams h := by
    obtain ⟨s, rfl, hs⟩ := exists_of_states hp
    obtain ⟨rfl, hxs⟩ := forall₂_value h
    exact ⟨rfl, hI.enter hs hparams hxs⟩
  leave params hp _ hl hq := by
    obtain ⟨s, rfl, hs⟩ := exists_of_states hp
    obtain ⟨t, rfl, ht⟩ := exists_of_states hq
    obtain ⟨hstate, hlater⟩ := hI.leave hs ht hl
    exact ⟨⟨rfl, hstate⟩, hlater, fun x y h => ⟨h.1, hI.value_leave h.2⟩⟩

end Lawful

/-- What an invariant says of the end of an evaluation that began in the state `s`. -/
inductive Ends (I : Invariant) (s : EvalState) : Except Error SExpr × EvalState → Prop where
  | value {x : SExpr} {t : EvalState} (ht : I.state t) (hl : I.later s t) (hx : I.value t x) :
    Ends I s (.ok x, t)
  | failure {e : Error} {t : EvalState} (ht : I.state t) (hl : I.later s t) (he : I.failure e) :
    Ends I s (.error e, t)
  | lost {e : Error} {t : EvalState} (he : I.lost e) : Ends I s (.error e, t)

/-- The state that an evaluation leaves is tied to the one in which it began, unless it is lost. -/
theorem Ends.later {s : EvalState} {r : Except Error SExpr × EvalState} (h : I.Ends s r)
    (hlost : ∀ e, ¬ I.lost e) : I.later s r.2 := by
  cases h with
  | value _ hl _ => exact hl
  | failure _ hl _ => exact hl
  | lost he => exact absurd he (hlost _)

/-- An evaluation that keeps step with another one has the invariant at its end. -/
theorem ends_of_step {s : EvalState} {m m' : EvalM SExpr}
    (h : I.coupling.Step I.coupling.value (s, s) m m') : I.Ends s (m.runFrom s) := by
  unfold Coupling.Step at h
  dsimp only at h
  generalize m.runFrom s = r at h ⊢
  generalize m'.runFrom s = r' at h
  cases h with
  | value hst hl hv => exact .value hst.2 hl hv.2
  | failure hst hl he => exact .failure hst.2 hl he.2
  | lost he => exact .lost he

/-- Two evaluations that keep step end in the same way, unless the first one is lost. -/
theorem runFrom_eq_of_step {s : EvalState} {m m' : EvalM SExpr}
    (h : I.coupling.Step I.coupling.value (s, s) m m')
    (hlost : ∀ e, (m.runFrom s).1 = .error e → ¬ I.lost e) : m'.runFrom s = m.runFrom s := by
  unfold Coupling.Step at h
  dsimp only at h
  generalize m.runFrom s = r at h hlost ⊢
  generalize m'.runFrom s = r' at h ⊢
  cases h with
  | @value x y t t' hst _ hv =>
    obtain rfl : t = t' := hst.1
    rw [hv.1]
  | @failure e e' t t' hst _ he =>
    obtain rfl : t = t' := hst.1
    rw [he.1]
  | lost he => exact absurd he (hlost _ rfl)

/-- An evaluation that begins with an invariant ends with it. -/
theorem Lawful.ends (hI : I.Lawful) (levels : Nat) (literal : Bool) {x : SExpr} {s : EvalState}
    (hx : x.All I.code) (hs : I.state s) :
    I.Ends s ((eval levels literal x).runFrom s) :=
  ends_of_step (hI.coupling.evaluators_eval levels literal x hx (s, s) ⟨rfl, hs⟩)

/-! ### Invariants of the ends alone -/

/-- An invariant that says nothing of single states and values: only how the state at the end is
tied to that at the start, and which errors are possible. -/
def ofEnds (later : EvalState → EvalState → Prop) (failure lost : Error → Prop) : Invariant where
  code _ := True
  state _ := True
  later := later
  value _ _ := True
  failure := failure
  lost := lost

theorem all_code_ofEnds {later : EvalState → EvalState → Prop} {failure lost : Error → Prop}
    (x : SExpr) : x.All (ofEnds later failure lost).code :=
  SExpr.all_of_forall (fun _ => trivial) x

/-- For an invariant of the ends alone it is enough to look at definitions, closures and errors. -/
theorem lawful_ofEnds {later : EvalState → EvalState → Prop} {failure lost : Error → Prop}
    (hrefl : ∀ s, later s s) (htrans : ∀ {s t u}, later s t → later t u → later s u)
    (hdefine : ∀ {s : EvalState} {name formals body p env},
      s.env.define name formals body = .ok (p, env) → later s { s with env })
    (hcapture : ∀ {s : EvalState} {formals body p},
      Procedure.ofFormals "lambda" formals body = .ok p →
      later s { s with closures := (s.closures.capture p).2 })
    (hleave : ∀ {s t : EvalState} {entries}, later (s.enter entries) t → later s (t.leave s))
    (hplain : ∀ {e : Error}, e.Plain → ¬ lost e → failure e) (htype : ∀ e : TypeError, failure e)
    (hundefined : ∀ name, failure (BindingError.undefinedFunction name)) :
    (ofEnds later failure lost).Lawful where
  later_refl := hrefl
  later_trans := htrans
  value_later _ _ := trivial
  value_code _ _ := trivial
  value_ofBool _ _ := trivial
  value_bound _ _ := trivial
  value_apply _ _ _ := trivial
  code_procedure {_ _ p} _ _ := all_code_ofEnds p.body
  code_closure {_ _ p} _ _ := all_code_ofEnds p.body
  failure_plain := hplain
  failure_type := htype
  failure_undefined _ _ _ := hundefined _
  define _ _ _ h := ⟨trivial, hdefine h⟩
  capture _ _ _ h := ⟨trivial, hcapture h, trivial⟩
  enter _ _ _ := trivial
  leave _ _ h := ⟨trivial, hleave h⟩
  value_leave _ := trivial

/-- An invariant that every evaluation has, up to an error after which nothing is claimed. -/
def upTo (e : Error) : Invariant := ofEnds (fun _ _ => True) (fun _ => True) (· = e)

theorem lawful_upTo (e : Error) : (upTo e).Lawful :=
  lawful_ofEnds (fun _ => trivial) (fun _ _ => trivial) (fun _ => trivial) (fun _ => trivial)
    (fun _ => trivial) (fun _ _ => trivial) (fun _ => trivial) (fun _ => trivial)

/-- A result other than the error `e` does not end the comparison. -/
theorem not_lost_of_ne {later : EvalState → EvalState → Prop} {failure : Error → Prop}
    {e : Error} {r : Except Error SExpr} (h : r ≠ .error e) :
    ∀ e', r = .error e' → ¬ (ofEnds later failure (· = e)).lost e' := by
  intro e' hr hlost
  have heq : e' = e := hlost
  rw [hr, heq] at h
  exact h rfl

end Invariant

/-! ## Watched evaluation -/

/-- What is looked at in every evaluation inside an evaluation. -/
structure Watch where
  /-- What has to hold of the state that an evaluation begins in. -/
  before : EvalState → Prop
  /-- What has to hold of the result of an evaluation and of the state that it leaves. -/
  after : Except Error SExpr → EvalState → Prop

namespace Watch

variable (w : Watch) (alarm : EvalM SExpr)

open Classical in
/-- An evaluation, or the alarm in its place if the watch finds something wrong with it. -/
noncomputable def observe (m : EvalM SExpr) : EvalM SExpr :=
  ExceptT.mk fun s =>
    if w.before s ∧ w.after (m.runFrom s).1 (m.runFrom s).2 then m.runFrom s else alarm.runFrom s

/-- The value of an expression, where every evaluation inside, and the whole, is watched. -/
noncomputable def eval : (levels : Nat) → (literal : Bool) → SExpr → EvalM SExpr
  | 0, _, _ => w.observe alarm (EvalM.fail StructuralError.evaluationLimit)
  | _ + 1, _, .atom a => w.observe alarm (Eval.atom a)
  | levels + 1, literal, .cons address data =>
    w.observe alarm (Eval.call (eval levels) literal address data)

/-- The watch finds nothing wrong with an evaluation and with any evaluation inside: whatever the
alarm would do, nothing comes of it. -/
def Silent (levels : Nat) (literal : Bool) (x : SExpr) (s : EvalState) : Prop :=
  ∀ alarm, (w.eval alarm levels literal x).runFrom s = (PairLisp.eval levels literal x).runFrom s

variable {w} {alarm} {I : Invariant} {levels : Nat} {literal : Bool} {x : SExpr} {s : EvalState}

/-- A watch that has nothing to say leaves the evaluation as it is. -/
theorem runFrom_observe {m : EvalM SExpr} (hb : w.before s)
    (ha : w.after (m.runFrom s).1 (m.runFrom s).2) :
    (w.observe alarm m).runFrom s = m.runFrom s :=
  if_pos ⟨hb, ha⟩

/-- The watch looks for no more than an invariant says. -/
structure Approves (w : Watch) (I : Invariant) : Prop where
  state {s : EvalState} : I.state s → w.before s
  value {s : EvalState} {x : SExpr} : I.state s → I.value s x → w.after (.ok x) s
  failure {s : EvalState} {e : Error} : I.state s → I.failure e → w.after (.error e) s

/-- A watch that approves makes no difference to an evaluation that keeps step with one that has
the invariant. -/
theorem Approves.step_observe (hw : w.Approves I) {m m' : EvalM SExpr} (hs : I.state s)
    (h : I.coupling.Step I.coupling.value (s, s) m m') :
    I.coupling.Step I.coupling.value (s, s) m (w.observe alarm m') := by
  unfold Coupling.Step at h ⊢
  dsimp only at h ⊢
  generalize m.runFrom s = r at h ⊢
  generalize hr : m'.runFrom s = r' at h
  cases h with
  | @value x y t t' hst hl hv =>
    obtain rfl : t = t' := hst.1
    obtain rfl : x = y := hv.1
    have ha : w.after (m'.runFrom s).1 (m'.runFrom s).2 := by
      rw [hr]
      exact hw.value hst.2 hv.2
    rw [runFrom_observe (hw.state hs) ha, hr]
    exact .value hst hl hv
  | @failure e e' t t' hst hl he =>
    obtain rfl : t = t' := hst.1
    obtain rfl : e = e' := he.1
    have ha : w.after (m'.runFrom s).1 (m'.runFrom s).2 := by
      rw [hr]
      exact hw.failure hst.2 he.2
    rw [runFrom_observe (hw.state hs) ha, hr]
    exact .failure hst hl he
  | lost he => exact .lost he

/-- A watched evaluation keeps step with the evaluation that is not watched. -/
theorem Approves.evaluators_eval (hw : w.Approves I) (hI : I.Lawful)
    (alarm : EvalM SExpr) (levels : Nat) (literal : Bool) :
    I.coupling.Evaluators (PairLisp.eval levels literal) (w.eval alarm levels literal) := by
  have hC := hI.coupling
  induction levels generalizing literal with
  | zero =>
    intro x _ p hp
    obtain ⟨s, rfl, hs⟩ := Invariant.exists_of_states hp
    exact hw.step_observe hs (hC.step_fail_refl hp trivial)
  | succ levels ih =>
    intro x hx p hp
    obtain ⟨s, rfl, hs⟩ := Invariant.exists_of_states hp
    cases x with
    | atom a => exact hw.step_observe hs (hC.step_atom hx hp)
    | cons address data => exact hw.step_observe hs (hC.step_call ih literal hx.1 hx.2 hp)

/-- An invariant keeps a watch silent that approves of it, if the evaluation is not lost. -/
theorem Approves.silent (hw : w.Approves I) (hI : I.Lawful) (hx : x.All I.code) (hs : I.state s)
    (hlost : ∀ e, ((PairLisp.eval levels literal x).runFrom s).1 = .error e → ¬ I.lost e) :
    w.Silent levels literal x s := by
  intro alarm
  have hx' := hw.evaluators_eval hI alarm levels literal x hx (s, s) ⟨rfl, hs⟩
  exact Invariant.runFrom_eq_of_step hx' hlost

/-- A watch that raises an error makes no difference to an evaluation up to that error. -/
theorem step_observe_fail {e : Error} {p : StatePair} {m m' : EvalM SExpr}
    (h : (Invariant.upTo e).coupling.Step (Invariant.upTo e).coupling.value p m m') :
    (Invariant.upTo e).coupling.Step (Invariant.upTo e).coupling.value p
      (w.observe (EvalM.fail e) m) m' := by
  unfold Coupling.Step
  by_cases hok : w.before p.1 ∧ w.after (m.runFrom p.1).1 (m.runFrom p.1).2
  · rw [runFrom_observe hok.1 hok.2]
    exact h
  · have hfail : (w.observe (EvalM.fail e) m).runFrom p.1 = (.error e, p.1) := if_neg hok
    rw [hfail]
    exact .lost rfl

/-- A watched evaluation is the evaluation as long as there is no alarm. -/
theorem evaluators_eval_fail (w : Watch) (e : Error) (levels : Nat) (literal : Bool) :
    (Invariant.upTo e).coupling.Evaluators (w.eval (EvalM.fail e) levels literal)
      (PairLisp.eval levels literal) := by
  have hC := (Invariant.lawful_upTo e).coupling
  induction levels generalizing literal with
  | zero => exact fun x _ p hp => step_observe_fail (hC.step_fail_refl hp trivial)
  | succ levels ih =>
    intro x hx p hp
    cases x with
    | atom a => exact step_observe_fail (hC.step_atom hx hp)
    | cons address data => exact step_observe_fail (hC.step_call ih literal hx.1 hx.2 hp)

/-- An error that is raised inside in place of a result goes all the way out: the evaluation as a
whole fails with it, or it was never raised. -/
theorem error_or_runFrom_eq (w : Watch) (e : Error) (levels : Nat) (literal : Bool) (x : SExpr)
    (s : EvalState) :
    ((w.eval (EvalM.fail e) levels literal x).runFrom s).1 = .error e ∨
      (w.eval (EvalM.fail e) levels literal x).runFrom s =
        (PairLisp.eval levels literal x).runFrom s := by
  by_cases herror : ((w.eval (EvalM.fail e) levels literal x).runFrom s).1 = .error e
  · exact .inl herror
  · have hx : x.All (Invariant.upTo e).code := Invariant.all_code_ofEnds x
    have hstep := evaluators_eval_fail w e levels literal x hx (s, s) ⟨rfl, trivial⟩
    exact .inr (Invariant.runFrom_eq_of_step hstep (Invariant.not_lost_of_ne herror)).symm

/-- A silent watch approves of the evaluation as a whole. -/
theorem Silent.approved (h : w.Silent levels literal x s) :
    w.before s ∧ w.after ((PairLisp.eval levels literal x).runFrom s).1
      ((PairLisp.eval levels literal x).runFrom s).2 := by
  -- an alarm that would make a difference, whatever the result is
  obtain ⟨alarm, halarm⟩ : ∃ alarm : EvalM SExpr,
      alarm.runFrom s ≠ (PairLisp.eval levels literal x).runFrom s := by
    obtain ⟨_ | _, t⟩ := (PairLisp.eval levels literal x).runFrom s
    · exact ⟨pure .nil, by simp⟩
    · exact ⟨EvalM.fail StructuralError.evaluationLimit, by simp⟩
  have hrun := h alarm
  -- the whole is observed, whichever case of the evaluation it falls under
  have hobserved : ∃ m, w.eval alarm levels literal x = w.observe alarm m := by
    unfold eval
    split <;> exact ⟨_, rfl⟩
  obtain ⟨m, hm⟩ := hobserved
  rw [hm] at hrun
  by_cases hok : w.before s ∧ w.after (m.runFrom s).1 (m.runFrom s).2
  · rw [runFrom_observe hok.1 hok.2] at hrun
    rw [← hrun]
    exact hok
  · have hfalse : (w.observe alarm m).runFrom s = alarm.runFrom s := if_neg hok
    exact absurd (hfalse.symm.trans hrun) halarm

end Watch

end PairLisp
