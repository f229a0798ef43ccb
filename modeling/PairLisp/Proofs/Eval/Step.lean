import PairLisp.Eval
import PairLisp.Proofs.Procedure

/-!
# What evaluation does to a state

An evaluation takes a state to a result and a state. The lemmas on `EvalM.runFrom` say so for
each operation that evaluations are built from; with them no proof about an evaluation has to
look at how `EvalM` is made.

All that evaluation ever does to a state is one of four things:

* `EvalState.define`: a `defun` form defines a procedure;
* `EvalState.capture`: a `lambda` form makes a closure;
* `EvalState.enter`: a call binds its parameters;
* `EvalState.leave`: the end of a call brings back the variables of the caller.

All that it reads off a state is the value of an atom (`EvalState.valueOf`) and what the head of
a call stands for. `Callee.Resolves` lists the cases of the latter with all that is known in
each of them.
-/

namespace PairLisp

/-! ## Running evaluations -/

namespace EvalM

variable {α β : Type} {s : EvalState}

/-- Two evaluations that give the same result and leave the same state, wherever they begin, are
the same. -/
theorem ext {m m' : EvalM α} (h : ∀ s, m.runFrom s = m'.runFrom s) : m = m' := funext h

@[simp] theorem runFrom_pure (a : α) : (pure a : EvalM α).runFrom s = (.ok a, s) := rfl

@[simp] theorem runFrom_fail (e : Error) : (fail e : EvalM α).runFrom s = (.error e, s) := rfl

/-- The second part of a sequence runs from where the first one has ended, if that has a
value. -/
theorem runFrom_bind (m : EvalM α) (f : α → EvalM β) :
    (m >>= f).runFrom s =
      match m.runFrom s with
      | (.ok a, t) => (f a).runFrom t
      | (.error e, t) => (.error e, t) := by
  show ExceptT.bindCont f (m.runFrom s).1 (m.runFrom s).2 = _
  rcases m.runFrom s with ⟨_ | _, t⟩ <;> rfl

/-- A sequence has a value if its first part has one and the second part has one from there on. -/
theorem runFrom_bind_eq_ok {m : EvalM α} {f : α → EvalM β} {b : β} {u : EvalState} :
    (m >>= f).runFrom s = (.ok b, u) ↔
      ∃ a t, m.runFrom s = (.ok a, t) ∧ (f a).runFrom t = (.ok b, u) := by
  rw [runFrom_bind]
  rcases m.runFrom s with ⟨_ | a, t⟩ <;> simp

@[simp] theorem runFrom_get_bind (f : EvalState → EvalM β) :
    (get >>= f).runFrom s = (f s).runFrom s := rfl

/-- A result that is there already leaves the state as it is. -/
theorem runFrom_ofExcept {ε : Type} [Coe ε Error] (r : Except ε α) :
    (ofExcept r).runFrom s =
      match r with
      | .ok a => (.ok a, s)
      | .error e => (.error (Coe.coe e), s) := by
  cases r <;> rfl

end EvalM

/-- A result whose error is an `Error` already is taken over by the `ofExcept` of the core
library. -/
theorem runFrom_ofExcept {α : Type} (r : Except Error α) (s : EvalState) :
    (ofExcept r : EvalM α).runFrom s =
      match r with
      | .ok a => (.ok a, s)
      | .error e => (.error e, s) := by
  cases r <;> rfl

/-- An error about the shape of a form, not about that of a text. -/
def StructuralError.OfForm : StructuralError → Prop
  | .evaluationLimit | .needsArguments _ | .improperArguments _ _ | .condArm _ | .noCondArm => True
  | _ => False

/-- An error that is about no text and is no matter of what a name is bound to. -/
def Error.Plain : Error → Prop
  | .structural e => e.OfForm
  | .definition _ | .arithmetic _ | .type _ => True
  | .lexical _ | .binding _ => False

/-! ## Changes of a state -/

namespace EvalState

/-- The result of a `defun` form and the state that it leaves. -/
def define (s : EvalState) (name : Atom) (formals body : SExpr) :
    Except Error SExpr × EvalState :=
  match s.env.define name.text formals body with
  | .ok (_, env) => (.ok (.atom name), { s with env })
  | .error e => (.error e, s)

/-- The result of a `lambda` form and the state that it leaves. -/
def capture (s : EvalState) (formals body : SExpr) : Except Error SExpr × EvalState :=
  match Procedure.ofFormals "lambda" formals body with
  | .ok p => (.ok (.atom (s.closures.capture p).1), { s with closures := (s.closures.capture p).2 })
  | .error e => (.error e, s)

/-- The state in which the body of a procedure is evaluated. -/
def enter (s : EvalState) (entries : List (String × SExpr)) : EvalState :=
  { s with env := s.env.bindAll entries }

/-- The state after a call: that after the body, with the variables of the caller. -/
def leave (s caller : EvalState) : EvalState :=
  { s with env := { s.env with bindings := caller.env.bindings } }

/-- The value of an atom. -/
def valueOf (s : EvalState) (a : Atom) : SExpr :=
  match s.env.bindings.get? a.text with
  | some x => x
  | none =>
    match a.truth? with
    | some b => .ofBool b
    | none => .atom a

@[simp] theorem bindings_leave (s caller : EvalState) :
    (s.leave caller).env.bindings = caller.env.bindings := rfl

@[simp] theorem procedures_leave (s caller : EvalState) :
    (s.leave caller).env.procedures = s.env.procedures := rfl

@[simp] theorem closures_leave (s caller : EvalState) :
    (s.leave caller).closures = s.closures := rfl

@[simp] theorem procedures_enter (s : EvalState) (entries : List (String × SExpr)) :
    (s.enter entries).env.procedures = s.env.procedures := rfl

@[simp] theorem closures_enter (s : EvalState) (entries : List (String × SExpr)) :
    (s.enter entries).closures = s.closures := rfl

/-- A variable of the body of a call is a parameter with the value of an argument, or it is one of
the caller's. -/
theorem mem_or_get?_of_enter {s : EvalState} {params : List String} {xs : List SExpr}
    {name : String} {x : SExpr} (h : (s.enter (params.zip xs)).env.bindings.get? name = some x) :
    name ∈ params ∧ x ∈ xs ∨ s.env.bindings.get? name = some x := by
  have h' : (s.env.bindings.insertAll (params.zip xs)).get? name = some x := h
  rcases Table.mem_or_get?_of_insertAll h' with hmem | hget
  · exact .inl (List.of_mem_zip hmem)
  · exact .inr hget

end EvalState

/-- An evaluation under further variables runs in the state that has them, and the variables of the
caller come back whatever it ends with. -/
theorem EvalM.runFrom_withVariables {α : Type} (entries : List (String × SExpr)) (m : EvalM α)
    (s : EvalState) :
    (withVariables entries m).runFrom s =
      ((m.runFrom (s.enter entries)).1, (m.runFrom (s.enter entries)).2.leave s) := rfl

/-- The evaluation of an atom never fails and leaves the state as it is. -/
theorem Eval.runFrom_atom (a : Atom) (s : EvalState) :
    (Eval.atom a).runFrom s = (.ok (s.valueOf a), s) := by
  unfold Eval.atom EvalState.valueOf
  rw [EvalM.runFrom_get_bind]
  cases s.env.bindings.get? a.text with
  | some x => rfl
  | none => cases a.truth? <;> rfl

/-- A `defun` form with its three parts defines a procedure. -/
theorem Form.runFrom_defun (inward : SExpr → EvalM SExpr) (name : Atom) (formals body : SExpr)
    (s : EvalState) :
    (Form.run inward .defun [.atom name, formals, body]).runFrom s =
      s.define name formals body := by
  unfold Form.run EvalState.define
  rw [EvalM.runFrom_get_bind, EvalM.runFrom_bind, EvalM.runFrom_ofExcept]
  cases s.env.define name.text formals body <;> rfl

/-- A `lambda` form with its two parts makes a closure. -/
theorem Form.runFrom_lambda (inward : SExpr → EvalM SExpr) (formals body : SExpr)
    (s : EvalState) :
    (Form.run inward .lambda [formals, body]).runFrom s = s.capture formals body := by
  unfold Form.run EvalState.capture
  rw [EvalM.runFrom_bind, EvalM.runFrom_ofExcept]
  cases Procedure.ofFormals "lambda" formals body <;> rfl

/-! ## Calls

A call lists its arguments first. What it does with the list is a matter of the procedure or the
operation alone.
-/

namespace Eval

variable (inward : SExpr → EvalM SExpr)

/-- Calls a procedure with the given arguments. -/
def applyProcedure (p : Procedure) (args : List SExpr) : EvalM SExpr :=
  if args.length ≠ p.arity then
    EvalM.fail (DefinitionError.argumentCount p.name p.arity args.length)
  else do
    let values ← arguments inward args
    EvalM.withVariables (p.params.zip values) (inward p.body)

/-- Calls an operation with the given arguments, whose number it takes. -/
def applyMeaning (meaning : Meaning) (args : List SExpr) : EvalM SExpr :=
  match meaning with
  | .function f => do
    let values ← arguments inward args
    ofExcept (f.apply values)
  | .form form => form.run inward args

/-- Calls an operation with the given arguments. -/
def applyOperation (op : Operation) (args : List SExpr) : EvalM SExpr :=
  match op.arity.check op.name args.length with
  | .ok () => applyMeaning inward op.meaning args
  | .error e => EvalM.fail e

/-- The call of a procedure has two steps: its arguments are found and it is applied. -/
theorem callProcedure_eq (p : Procedure) (data : SExpr) :
    callProcedure inward p data = argumentList p.name data >>= applyProcedure inward p := rfl

/-- The call of an operation has a check for arguments in front of these two steps. -/
theorem callOperation_eq (op : Operation) (data : SExpr) :
    callOperation inward op data =
      if op.needsArguments && data.isNil then EvalM.fail (StructuralError.needsArguments op.name)
      else argumentList op.name data >>= applyOperation inward op := by
  unfold callOperation applyOperation
  by_cases h : (op.needsArguments && data.isNil) = true
  · rw [if_pos h, if_pos h]
    rfl
  · rw [if_neg h, if_neg h]
    show (argumentList op.name data >>= fun args => _) = _
    congr 1
    funext args
    cases op.arity.check op.name args.length <;> rfl

/-- Calls what the head of a call stands for. -/
def callCallee (data : SExpr) : Except Error Callee → EvalM SExpr
  | .ok (.value x) => pure x
  | .ok (.procedure p) => callProcedure inward p data
  | .ok (.operation op) => callOperation inward op data
  | .error e => EvalM.fail e

/-- A call has three steps: its head, what it stands for, and the call of this. -/
theorem call_eq (evaluate : Bool → SExpr → EvalM SExpr) (literal : Bool) (address data : SExpr) :
    call evaluate literal address data =
      head (evaluate literal) address >>= fun h => get >>= fun s =>
        callCallee (evaluate true) data (Callee.resolve s literal h.2 h.1) := by
  unfold call
  congr 1
  funext ⟨symbol, evaluated⟩
  refine EvalM.ext fun s => ?_
  rw [EvalM.runFrom_get_bind]
  dsimp only
  rw [EvalM.runFrom_get_bind]
  rcases Callee.resolve s literal evaluated symbol with e | (x | p | op) <;> rfl

/-- The atom that a value at the head of a call is. -/
def headOfValue : SExpr → EvalM (Atom × Bool)
  | .atom a => pure (a, true)
  | x => EvalM.fail (TypeError.notApplicable x)

/-- A reserved name at the head of a call is not evaluated. -/
theorem head_of_isReserved (evaluate : SExpr → EvalM SExpr) {a : Atom}
    (h : Registry.standard.isReserved a.text = true) :
    head evaluate (.atom a) = pure (a, false) := by
  unfold head
  simp only [h, if_true]

/-- Anything else at the head of a call is evaluated, and has to come to an atom. -/
theorem head_of_not_isReserved (evaluate : SExpr → EvalM SExpr) {address : SExpr}
    (h : ∀ a, address = .atom a → Registry.standard.isReserved a.text = false) :
    head evaluate address = evaluate address >>= headOfValue := by
  unfold head
  cases address with
  | atom a =>
    simp only [h a rfl, Bool.false_eq_true, if_false]
    rfl
  | cons a d => rfl

end Eval

/-! ## The head of a call -/

namespace Registry

/-- No name of an operation is a numeral, a truth value or a handle. -/
theorem plain_of_mem_aliases {op : Operation} (hmem : op ∈ standard.operations) {a : Atom}
    (ha : a.text ∈ op.aliases) : a.isNumeral = false ∧ a.truth? = none ∧ a.handleId? = none := by
  have hall : ∀ op ∈ standard.operations, ∀ name ∈ op.aliases, (Atom.mk name).isNumeral = false ∧
      (Atom.mk name).truth? = none ∧ (Atom.mk name).handleId? = none := by
    decide
  exact hall op hmem a.text ha

/-- No operation goes by a numeral, a truth value or a handle. -/
theorem plain_of_find? {a : Atom} {op : Operation} (h : standard.find? a.text = some op) :
    a.isNumeral = false ∧ a.truth? = none ∧ a.handleId? = none :=
  plain_of_mem_aliases (mem_of_find? h).1 (mem_of_find? h).2

end Registry

@[simp] theorem Closures.captured_empty : (∅ : Closures).captured = #[] := rfl

/-- No closure goes by the name of an operation. -/
theorem Closures.find?_of_operation (cs : Closures) {a : Atom} {op : Operation}
    (h : Registry.standard.find? a.text = some op) : cs.find? a = none := by
  unfold find?
  rw [(Registry.plain_of_find? h).2.2]

/-- Neither a variable nor a procedure goes by the name. -/
structure Env.Free (env : Env) (name : String) : Prop where
  bindings : env.bindings.get? name = none
  procedures : env.procedures.get? name = none

namespace Callee

/-- What the head of a call may stand for, and what is known when it does. -/
inductive Resolves (s : EvalState) (literal evaluated : Bool) (a : Atom) :
    Except Error Callee → Prop where
  | numeral (hl : literal = true) (ha : a.isNumeral = true) :
    Resolves s literal evaluated a (.ok (.value (.atom a)))
  | truth {b : Bool} (ha : a.truth? = some b) :
    Resolves s literal evaluated a (.ok (.value (.ofBool b)))
  | closure {p : Procedure} (he : evaluated = true) (hp : s.closures.find? a = some p) :
    Resolves s literal evaluated a (.ok (.procedure p))
  | bound {x : SExpr} (hx : s.env.bindings.get? a.text = some x) :
    Resolves s literal evaluated a (.ok (.value x))
  | procedure {p : Procedure} (hp : s.env.procedures.get? a.text = some p) :
    Resolves s literal evaluated a (.ok (.procedure p))
  | operation {op : Operation} (hop : Registry.standard.find? a.text = some op) :
    Resolves s literal evaluated a (.ok (.operation op))
  | undefined (hc : evaluated = true → s.closures.find? a = none)
      (hop : Registry.standard.find? a.text = none) :
    Resolves s literal evaluated a (.error (BindingError.undefinedFunction a.text))

/-- What the head of a call stands for is one of the cases of `Resolves`. -/
theorem resolves (s : EvalState) (literal evaluated : Bool) (a : Atom) :
    Resolves s literal evaluated a (resolve s literal evaluated a) := by
  unfold resolve
  split
  · next h =>
    rw [Bool.and_eq_true] at h
    exact .numeral h.1 h.2
  · split
    · next b hb => exact .truth hb
    · split
      · next p hp =>
        cases evaluated with
        | false => simp at hp
        | true => exact .closure rfl hp
      · next hc =>
        dsimp only
        split
        · next op hop => exact .operation (Option.filter_eq_some_iff.1 hop).1
        · split
          · next x hx => exact .bound hx
          · split
            · next p hp => exact .procedure hp
            · split
              · next op hop => exact .operation hop
              · next hop =>
                refine .undefined (fun he => ?_) (Option.eq_none_iff_forall_ne_some.2 hop)
                subst he
                exact Option.eq_none_iff_forall_ne_some.2 hc

/-- The name of an operation at the head of a call stands for the operation where it is reserved or
free. -/
theorem resolve_of_operation {s : EvalState} {a : Atom} {op : Operation} (literal evaluated : Bool)
    (hop : Registry.standard.find? a.text = some op)
    (h : op.reserved = true ∨ s.env.Free a.text) :
    resolve s literal evaluated a = .ok (.operation op) := by
  obtain ⟨hnumeral, htruth, -⟩ := Registry.plain_of_find? hop
  unfold resolve
  rw [hnumeral, htruth, s.closures.find?_of_operation hop, hop, Bool.and_false, ite_self]
  by_cases hreserved : op.reserved = true
  · have hfilter : (some op).filter (·.reserved) = some op :=
      Option.filter_eq_some_iff.2 ⟨rfl, hreserved⟩
    simp [hfilter]
  · have hfilter : (some op).filter (·.reserved) = none :=
      Option.filter_eq_none_iff.2 fun other hother => Option.some.inj hother ▸ hreserved
    have hfree : s.env.Free a.text := h.resolve_left hreserved
    rw [hfree.bindings, hfree.procedures]
    simp [hfilter]

end Callee

/-! ## Calls of operations -/

namespace Eval

variable {levels : Nat} {literal evaluated : Bool} {address data : SExpr} {a : Atom}
  {s t : EvalState} (inward : SExpr → EvalM SExpr)

/-- When the head of a call has been evaluated, the rest is a matter of what the head stands for in
the state that its evaluation has left. -/
theorem runFrom_eval_of_head
    (h : (head (eval levels literal) address).runFrom s = (.ok (a, evaluated), t)) :
    (eval (levels + 1) literal (.cons address data)).runFrom s =
      (callCallee (eval levels true) data (Callee.resolve t literal evaluated a)).runFrom t := by
  show (call (eval levels) literal address data).runFrom s = _
  rw [call_eq, EvalM.runFrom_bind, h]
  rfl

/-- A call of an operation fails over its list of arguments and changes nothing, or it comes to what
the operation does with the arguments. -/
theorem runFrom_callOperation (op : Operation) (data : SExpr) (s : EvalState) :
    (∃ e, (callOperation inward op data).runFrom s = (.error e, s)) ∨
      ∃ args, data.toList? = some args ∧ op.arity.check op.name args.length = .ok () ∧
        (callOperation inward op data).runFrom s =
          (applyMeaning inward op.meaning args).runFrom s := by
  rw [callOperation_eq]
  split
  · exact .inl ⟨_, rfl⟩
  · unfold argumentList
    split
    · next args hargs =>
      rw [pure_bind]
      unfold applyOperation
      split
      · next hcheck => exact .inr ⟨args, hargs, hcheck, rfl⟩
      · exact .inl ⟨_, rfl⟩
    · exact .inl ⟨_, rfl⟩

/-- A call whose head stands for a special form fails over its list of arguments, in the state that
the evaluation of its head has left, or it comes to what the form does with them in that state. -/
theorem runFrom_form_of_head {op : Operation} {form : Form} (data : SExpr)
    (hhead : (head (eval levels literal) address).runFrom s = (.ok (a, evaluated), t))
    (hcallee : Callee.resolve t literal evaluated a = .ok (.operation op))
    (hop : op.meaning = .form form) :
    let r := (eval (levels + 1) literal (.cons address data)).runFrom s
    (∃ e, r = (.error e, t)) ∨ ∃ args, data.toList? = some args ∧
      r = (form.run (eval levels true) args).runFrom t := by
  intro r
  have hr : r = (callOperation (eval levels true) op data).runFrom t := by
    show (eval (levels + 1) literal (.cons address data)).runFrom s = _
    rw [runFrom_eval_of_head hhead, hcallee]
    rfl
  rw [hr]
  rcases runFrom_callOperation (eval levels true) op data t with hfail | ⟨args, hargs, -, hcall⟩
  · exact .inl hfail
  · refine .inr ⟨args, hargs, ?_⟩
    rw [hcall, hop]
    rfl

end Eval

namespace Form

variable (inward : SExpr → EvalM SExpr)

/-- A `defun` form defines the procedure that it is given and has its name for its value, or it fails
and changes nothing. -/
theorem runFrom_defun_cases (args : List SExpr) (s : EvalState) :
    (∃ e, (run inward .defun args).runFrom s = (.error e, s)) ∨
      ∃ name formals body p env, args = [.atom name, formals, body] ∧
        s.env.define name.text formals body = .ok (p, env) ∧
        (run inward .defun args).runFrom s = (.ok (.atom name), { s with env }) := by
  by_cases h : ∃ name formals body, args = [.atom name, formals, body]
  · obtain ⟨name, formals, body, rfl⟩ := h
    rw [runFrom_defun]
    unfold EvalState.define
    split
    · next p env hdefine => exact .inr ⟨name, formals, body, p, env, rfl, hdefine, rfl⟩
    · exact .inl ⟨_, rfl⟩
  · have hfail : ∃ e, run inward .defun args = EvalM.fail e := by
      unfold run
      dsimp only
      split
      · exact absurd ⟨_, _, _, rfl⟩ h
      · exact ⟨_, rfl⟩
      · exact ⟨_, rfl⟩
    obtain ⟨e, he⟩ := hfail
    exact .inl ⟨e, by rw [he, EvalM.runFrom_fail]⟩

/-- A `lambda` form makes a closure and has its handle for its value, or it fails and changes
nothing. -/
theorem runFrom_lambda_cases (args : List SExpr) (s : EvalState) :
    (∃ e, (run inward .lambda args).runFrom s = (.error e, s)) ∨
      ∃ formals body p, args = [formals, body] ∧
        Procedure.ofFormals "lambda" formals body = .ok p ∧
        (run inward .lambda args).runFrom s =
          (.ok (.atom (s.closures.capture p).1), { s with closures := (s.closures.capture p).2 }) := by
  by_cases h : ∃ formals body, args = [formals, body]
  · obtain ⟨formals, body, rfl⟩ := h
    rw [runFrom_lambda]
    unfold EvalState.capture
    split
    · next p hp => exact .inr ⟨formals, body, p, rfl, hp, rfl⟩
    · exact .inl ⟨_, rfl⟩
  · have hfail : ∃ e, run inward .lambda args = EvalM.fail e := by
      unfold run
      dsimp only
      split
      · exact absurd ⟨_, _, rfl⟩ h
      · exact ⟨_, rfl⟩
    obtain ⟨e, he⟩ := hfail
    exact .inl ⟨e, by rw [he, EvalM.runFrom_fail]⟩

end Form

end PairLisp
