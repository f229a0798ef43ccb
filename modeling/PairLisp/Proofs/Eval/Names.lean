import PairLisp.Proofs.Eval.Procedures
import PairLisp.Proofs.Eval.Scope
import PairLisp.Proofs.Handle

/-!
# Only names are bound

A variable is a parameter of a procedure or of a closure, and parameters are names. So an atom that is
no name (a numeral, a string, an operator or a handle) is bound to nothing, at no point of any
evaluation in a session, and there is no need to look it up. `evalByName` is an evaluator that never
does, and `runByName_between` says that it makes no difference.

The forms `and` and `or` refuse numerals and strings before they evaluate anything. This is right as
long as no such argument would come to a truth value when its turn came. An argument that is no name
comes to itself, and both truth values are names.
-/

namespace PairLisp

/-! ## Atoms that are no names -/

namespace Atom

variable {a : Atom}

/-- The truth values are names, in upper and lower case. -/
theorem isName_of_truth? {b : Bool} (h : a.truth? = some b) : a.isName = true := by
  have hname : ∀ cs, cs ≠ [] → (∀ c ∈ cs, Vocabulary.standard.isLetter c = true) →
      a.text.toList.map Char.toLower = cs → a.isName = true := by
    rintro cs hne hletters rfl
    refine Vocabulary.isName_of_letters (fun hnil => hne ?_) fun c hc => ?_
    · rw [hnil]
      rfl
    · exact Vocabulary.isLetter_of_toLower (hletters _ (List.mem_map_of_mem hc))
  unfold truth? at h
  split at h
  · next ht => exact hname _ (by decide) (Vocabulary.forall_mem_of_all (by decide)) ht
  · next hnil => exact hname _ (by decide) (Vocabulary.forall_mem_of_all (by decide)) hnil
  · simp at h

/-- Truth values are names, so nothing else is one. -/
theorem truth?_of_not_isName (h : ¬ a.isName = true) : a.truth? = none :=
  Option.eq_none_iff_forall_ne_some.2 fun _ hb => h (isName_of_truth? hb)

/-- As an expression, an atom that is no name stands for no truth value either. -/
theorem toBool?_of_not_isName (h : ¬ a.isName = true) : (SExpr.atom a).toBool? = none := by
  have hother : ∀ word, Vocabulary.standard.isName word = true → (a.text == word) = false := by
    intro word hword
    refine Bool.eq_false_iff.2 fun heq => h ?_
    rw [isName, beq_iff_eq.1 heq, hword]
  have htrue : a.isTrue = false := hother "T" (by decide)
  have hnil : a.isNil = false := hother "NIL" (by decide)
  simp [SExpr.toBool?, SExpr.isTrue, SExpr.isNil, htrue, hnil]

end Atom

/-- What `and` and `or` refuse unevaluated is an atom and no name. -/
theorem Form.exists_of_isNeverBoolean {arg : SExpr} (h : isNeverBoolean arg = true) :
    ∃ a, arg = .atom a ∧ ¬ a.isName = true := by
  cases arg with
  | cons address data => simp [isNeverBoolean] at h
  | atom a =>
    refine ⟨a, rfl, ?_⟩
    rcases Bool.or_eq_true_iff.1 h with hnumeral | hstring
    · exact Vocabulary.not_isName_of_isNumeral hnumeral
    · exact Vocabulary.not_isName_of_isString hstring

/-- An atom that is no name and has nothing bound to it is its own value. -/
theorem EvalState.valueOf_of_not_isName {s : EvalState} {a : Atom}
    (hs : s.env.bindings.get? a.text = none) (ha : ¬ a.isName = true) : s.valueOf a = .atom a := by
  unfold valueOf
  rw [hs, Atom.truth?_of_not_isName ha]

/-! ## Evaluation by names -/

/-- The state in which an atom is looked up: with no variables if the atom is no name. -/
def EvalState.seenBy (s : EvalState) (a : Atom) : EvalState :=
  if a.isName then s else { s with env := { s.env with bindings := ∅ } }

namespace Eval

/-- The value of an atom, which is the atom itself if it is no name. -/
def atomByName (a : Atom) : EvalM SExpr :=
  if a.isName then atom a else pure (.atom a)

/-- The value of a call whose head is not looked up as a variable if it is no name. -/
def callByName (evaluate : Bool → SExpr → EvalM SExpr) (literal : Bool) (address data : SExpr) :
    EvalM SExpr := do
  let (symbol, evaluated) ← head (evaluate literal) address
  callCallee (evaluate true) data
    (Callee.resolve ((← get).seenBy symbol) literal evaluated symbol)

end Eval

/-- The value of an expression, where nothing but names is looked up as a variable. -/
def evalByName : (levels : Nat) → (literal : Bool) → SExpr → EvalM SExpr
  | 0, _, _ => EvalM.fail StructuralError.evaluationLimit
  | _ + 1, _, .atom a => Eval.atomByName a
  | levels + 1, literal, .cons address data =>
    Eval.callByName (evalByName levels) literal address data

/-- The outcome of a statement that is evaluated by names, and the environment that it leaves. -/
def Statement.runByName (env : Env) (s : Statement) : Outcome × Env :=
  match s.expression with
  | .error e => ({ source := s.source, result := .error e }, env)
  | .ok x =>
    let (result, t) := (evalByName Limits.evaluation false x).runFrom { env }
    ({ source := s.source, result }, t.env)

/-! ## Names stay names -/

/-- Variables are names, and so are the parameters of procedures and closures. -/
structure EvalState.Nominal (s : EvalState) : Prop where
  bindings : ∀ name x, s.env.bindings.get? name = some x →
    Vocabulary.standard.isName name = true
  procedures : ∀ name f, s.env.procedures.get? name = some f →
    ∀ param ∈ f.params, Vocabulary.standard.isName param = true
  closures : ∀ f ∈ s.closures.captured,
    ∀ param ∈ f.params, Vocabulary.standard.isName param = true

/-- A statement of a session begins with no variable and no closure. -/
theorem EvalState.nominal_between (texts : List String) (text : String) (n : Nat) :
    EvalState.Nominal { env := Program.between texts text n } where
  bindings name x hx := by
    have hnone : (Program.between texts text n).bindings.get? name = none := by
      rw [Program.bindings_between]
      rfl
    rw [hnone] at hx
    simp at hx
  procedures name f hf :=
    (Program.orderly_between texts text n name f hf).distinctParams.isName
  closures := by simp

namespace EvalState.Nominal

variable {s : EvalState} {a : Atom}

/-- Nothing but names is bound to a value. -/
theorem get?_eq_none (hs : s.Nominal) (h : ¬ a.isName = true) :
    s.env.bindings.get? a.text = none :=
  Option.eq_none_iff_forall_ne_some.2 fun x hx => h (hs.bindings a.text x hx)

/-- Where variables are names, an atom has the same value by names. -/
theorem runFrom_atomByName (hs : s.Nominal) (a : Atom) :
    (Eval.atomByName a).runFrom s = (Eval.atom a).runFrom s := by
  unfold Eval.atomByName
  split
  · rfl
  · next h =>
    rw [Eval.runFrom_atom, valueOf_of_not_isName (hs.get?_eq_none h) h]
    rfl

/-- Where variables are names, the head of a call stands for the same by names. -/
theorem resolve_seenBy (hs : s.Nominal) (literal evaluated : Bool) (a : Atom) :
    Callee.resolve (s.seenBy a) literal evaluated a = Callee.resolve s literal evaluated a := by
  unfold seenBy
  split
  · rfl
  · next h =>
    unfold Callee.resolve
    rw [hs.get?_eq_none h]
    rfl

end EvalState.Nominal

namespace Invariant

/-- Only names are bound. -/
def nominal : Invariant where
  code _ := True
  state s := s.Nominal
  later _ _ := True
  value _ _ := True
  failure _ := True
  lost _ := False
  params params := ∀ param ∈ params, Vocabulary.standard.isName param = true

theorem all_code_nominal (x : SExpr) : x.All nominal.code :=
  SExpr.all_of_forall (fun _ => trivial) x

/-- The parameters of a procedure are names when it is defined, so a call binds only names. -/
theorem lawful_nominal : nominal.Lawful where
  later_refl _ := trivial
  later_trans _ _ := trivial
  value_later _ _ := trivial
  value_code _ _ := trivial
  value_ofBool _ _ := trivial
  value_bound _ _ := trivial
  value_apply _ _ _ := trivial
  code_procedure {_ _ f} _ _ := all_code_nominal f.body
  code_closure {_ _ f} _ _ := all_code_nominal f.body
  params_procedure hs hf := hs.procedures _ _ hf
  params_closure hs hf := by
    obtain ⟨n, -, hn⟩ := Closures.exists_of_find? hf
    exact hs.closures _ (Array.mem_of_getElem? hn)
  failure_plain _ _ := trivial
  failure_type _ := trivial
  failure_undefined _ _ _ := trivial
  define hs _ _ h := by
    obtain ⟨-, -, hf, rfl⟩ := Env.define_eq_ok_iff.1 h
    refine ⟨⟨hs.bindings, fun other g hg => ?_, hs.closures⟩, trivial⟩
    rw [Table.get?_insert] at hg
    split at hg
    · rw [← Option.some.inj hg]
      exact (Procedure.distinctParams_of_ofFormals hf).isName
    · exact hs.procedures other g hg
  capture hs _ _ h := by
    refine ⟨⟨hs.bindings, hs.procedures, fun g hg => ?_⟩, trivial, trivial⟩
    rcases Array.mem_push.1 hg with hg | rfl
    · exact hs.closures g hg
    · exact (Procedure.distinctParams_of_ofFormals h).isName
  enter hs hparams _ := by
    refine ⟨fun name x hx => ?_, hs.procedures, hs.closures⟩
    rcases EvalState.mem_or_get?_of_enter hx with ⟨hmem, -⟩ | hget
    · exact hparams name hmem
    · exact hs.bindings name x hget
  leave hs ht _ := ⟨⟨hs.bindings, ht.procedures, ht.closures⟩, trivial⟩
  value_leave _ := trivial

/-- Where only names are bound, the two evaluators keep step. -/
theorem evaluators_evalByName (levels : Nat) (literal : Bool) :
    nominal.coupling.Evaluators (eval levels literal) (evalByName levels literal) := by
  have hC := lawful_nominal.coupling
  induction levels generalizing literal with
  | zero => exact fun x _ p hp => hC.step_fail_refl hp trivial
  | succ levels ih =>
    intro x hx p hp
    obtain ⟨s, rfl, hs⟩ := exists_of_states hp
    cases x with
    | atom a =>
      show nominal.coupling.Meets _ _ ((Eval.atom a).runFrom s) ((Eval.atomByName a).runFrom s)
      rw [EvalState.Nominal.runFrom_atomByName hs]
      exact hC.step_atom hx hp
    | cons address data =>
      show nominal.coupling.Step _ _ (Eval.call (eval levels) literal address data) _
      rw [Eval.call_eq]
      refine hC.step_bind (hC.step_head (ih literal) hx.1 hp) fun q hq _ a b hab => ?_
      obtain ⟨t, rfl, ht⟩ := exists_of_states hq
      refine hC.step_callCallee (ih true) hx.2 hq ?_
      rw [EvalState.Nominal.resolve_seenBy ht]
      exact hC.results_resolve literal hq hab

/-- Where variables are names, an evaluation by names is the evaluation. -/
theorem runFrom_evalByName {s : EvalState} (hs : s.Nominal) (levels : Nat) (literal : Bool)
    (x : SExpr) : (evalByName levels literal x).runFrom s = (eval levels literal x).runFrom s :=
  runFrom_eq_of_step (evaluators_evalByName levels literal x (all_code_nominal x) (s, s) ⟨rfl, hs⟩)
    fun _ _ hlost => hlost

end Invariant

/-! ## Statements -/

/-- The variables are names, and what `and` and `or` refuse unevaluated has no truth value. -/
structure EvalState.OnlyNames (s : EvalState) : Prop where
  bindings : ∀ name x, s.env.bindings.get? name = some x →
    Vocabulary.standard.isName name = true
  /-- By the turn of an argument those before it may have changed the procedures and the closures,
  but not the variables. -/
  refused : ∀ arg, Form.isNeverBoolean arg = true → ∀ t : EvalState,
    t.env.bindings = s.env.bindings → ∀ levels literal v,
      ((eval levels literal arg).runFrom t).1 = .ok v → v.toBool? = none

theorem EvalState.Nominal.onlyNames {s : EvalState} (hs : s.Nominal) : s.OnlyNames where
  bindings := hs.bindings
  refused arg harg t hbindings levels literal v hv := by
    obtain ⟨a, rfl, ha⟩ := Form.exists_of_isNeverBoolean harg
    have hnone : t.env.bindings.get? a.text = none := by
      rw [hbindings]
      exact hs.get?_eq_none ha
    cases levels with
    | zero => simp [eval] at hv
    | succ levels =>
      have hvalue : ((eval (levels + 1) literal (.atom a)).runFrom t).1 = .ok (t.valueOf a) :=
        congrArg Prod.fst (Eval.runFrom_atom a t)
      rw [hvalue, valueOf_of_not_isName hnone ha] at hv
      rw [← Except.ok.inj hv]
      exact Atom.toBool?_of_not_isName ha

/-- The watch for variables that are no names and for arguments that are refused wrongly. -/
def Watch.onlyNames : Watch where
  before s := s.OnlyNames
  after _ s := s.OnlyNames

theorem Watch.onlyNames_approves : onlyNames.Approves Invariant.nominal where
  state hs := EvalState.Nominal.onlyNames hs
  value hs _ := EvalState.Nominal.onlyNames hs
  failure hs _ := EvalState.Nominal.onlyNames hs

/-- At every place between two statements of a session, a further statement has the same outcome and
leaves the same environment if nothing but names is looked up as a variable, and the evaluation of
any expression ends in the same way. At every point of it the variables are names, and a numeral or a
string that `and` or `or` refuse would not have come to a truth value. -/
theorem runByName_between (texts : List String) (text : String) (n : Nat) :
    let env := Program.between texts text n
    (∀ s : Statement, s.runByName env = s.run env) ∧
      ∀ x : SExpr,
        (evalByName Limits.evaluation false x).runFrom { env } =
            (evalAt 0 false x).runFrom { env } ∧
          Watch.onlyNames.Silent Limits.evaluation false x { env } := by
  intro env
  have hs : EvalState.Nominal { env } := EvalState.nominal_between texts text n
  have heval : ∀ x : SExpr, (evalByName Limits.evaluation false x).runFrom { env } =
      (evalAt 0 false x).runFrom { env } := fun x =>
    Invariant.runFrom_evalByName hs Limits.evaluation false x
  refine ⟨fun s => ?_, fun x => ⟨heval x, ?_⟩⟩
  · unfold Statement.runByName
    cases hx : s.expression with
    | error e => rw [Statement.run_of_expression_error env hx]
    | ok x =>
      rw [Statement.run_of_expression_ok env hx, ← heval x]
  · exact Watch.onlyNames_approves.silent Invariant.lawful_nominal (Invariant.all_code_nominal x) hs
      fun _ _ hlost => hlost

/-- In a state that no session comes to, with a variable that is a numeral, the two evaluators
differ. -/
example :
    let s : EvalState := { env := { bindings := (∅ : Table SExpr).insert "5" (.atom .t) } }
    ((eval 1 true (.atom ⟨"5"⟩)).runFrom s).1 = .ok (.atom .t) ∧
      ((evalByName 1 true (.atom ⟨"5"⟩)).runFrom s).1 = .ok (.atom ⟨"5"⟩) := by
  decide +kernel

end PairLisp
