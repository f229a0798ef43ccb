import PairLisp.Proofs.Eval.Coupling

/-!
# Environments that match name by name

To compare two evaluations that begin in different environments one says how these environments are
related: which names are compared, and which values of variables match. `Env.Related` says so, and
what evaluation does to an environment keeps environments related that are.

What the head of a call stands for is looked up in the closures, the variables and the procedures one
after the other. If they match for the name at hand, the two calls go to callees that match
(`Coupling.results_resolve_of_rel`).
-/

namespace PairLisp

/-- The two are one procedure, and every atom of its body has the property. -/
def SameProcedure (code : Atom → Prop) (f g : Procedure) : Prop :=
  f = g ∧ f.body.All code

theorem sameProcedure_refl {code : Atom → Prop} {f : Procedure} (h : f.body.All code) :
    SameProcedure code f f := ⟨rfl, h⟩

/-- The variables of the given names have values that match, and the procedures of these names are
the same. -/
structure Env.Related (names : String → Prop) (code : Atom → Prop) (V : SExpr → SExpr → Prop)
    (env env' : Env) : Prop where
  bindings : ∀ name, names name →
    Option.Rel V (env.bindings.get? name) (env'.bindings.get? name)
  procedures : ∀ name, names name →
    Option.Rel (SameProcedure code) (env.procedures.get? name) (env'.procedures.get? name)

namespace Env.Related

variable {names : String → Prop} {code : Atom → Prop} {V W : SExpr → SExpr → Prop}
  {env env' : Env}

theorem imp (h : env.Related names code V env') (hV : ∀ x y, V x y → W x y) :
    env.Related names code W env' where
  bindings name hname := by
    have hrel := h.bindings name hname
    generalize env.bindings.get? name = o at hrel ⊢
    generalize env'.bindings.get? name = o' at hrel ⊢
    cases hrel with
    | some hxy => exact .some (hV _ _ hxy)
    | none => exact .none
  procedures := h.procedures

/-- An atom of one of the names has values that match. -/
theorem valueOf {s t : EvalState} {a : Atom} (h : s.env.Related names code V t.env)
    (hname : names a.text) (hatom : V (.atom a) (.atom a))
    (hbool : ∀ b, V (.ofBool b) (.ofBool b)) : V (s.valueOf a) (t.valueOf a) := by
  have hrel := h.bindings a.text hname
  unfold EvalState.valueOf
  generalize s.env.bindings.get? a.text = x at hrel ⊢
  generalize t.env.bindings.get? a.text = y at hrel ⊢
  cases hrel with
  | some hxy => exact hxy
  | none =>
    dsimp only
    split
    · exact hbool _
    · exact hatom

/-- Values that match may be bound to the same parameters. -/
theorem bindAll (h : env.Related names code V env') (params : List String) {xs ys : List SExpr}
    (hxs : List.Forall₂ V xs ys) :
    (env.bindAll (params.zip xs)).Related names code V (env'.bindAll (params.zip ys)) where
  bindings name hname := Table.rel_get?_insertAll (h.bindings name hname) params hxs
  procedures := h.procedures

theorem insert (h : env.Related names code V env') (name : String) {f : Procedure}
    (hf : f.body.All code) :
    Related names code V { env with procedures := env.procedures.insert name f }
      { env' with procedures := env'.procedures.insert name f } where
  bindings := h.bindings
  procedures other hother := by
    show Option.Rel _ ((env.procedures.insert name f).get? other)
      ((env'.procedures.insert name f).get? other)
    rw [Table.get?_insert, Table.get?_insert]
    split
    · exact .some (sameProcedure_refl hf)
    · exact h.procedures other hother

end Env.Related

/-! ## Single steps -/

namespace Callee

/-- A truth value at the head of a call stands for a value in every state. -/
theorem resolve_of_truth? {a : Atom} {b : Bool} (h : a.truth? = some b) (s : EvalState)
    (literal evaluated : Bool) : resolve s literal evaluated a =
      .ok (.value (if literal && a.isNumeral then .atom a else .ofBool b)) := by
  unfold resolve
  rw [h]
  split <;> rfl

end Callee

/-- The two states with the procedure for what the name stands for. -/
def StatePair.withProcedure (p : StatePair) (name : String) (f : Procedure) : StatePair :=
  ({ p.1 with env := { p.1.env with procedures := p.1.env.procedures.insert name f } },
    { p.2 with env := { p.2.env with procedures := p.2.env.procedures.insert name f } })

/-- The two states with the procedure for their next closure. -/
def StatePair.withClosure (p : StatePair) (f : Procedure) : StatePair :=
  ({ p.1 with closures := (p.1.closures.capture f).2 },
    { p.2 with closures := (p.2.closures.capture f).2 })

namespace Coupling

variable {C : Coupling} {p : StatePair}

/-- One atom at the heads of two calls stands for things that match if what is looked up under it
does. -/
theorem results_resolve_of_rel {a : Atom} (literal : Bool)
    (hvalue : C.value p (.atom a) (.atom a))
    (hbool : ∀ b, C.value p (.ofBool b) (.ofBool b))
    (hclosure : Option.Rel (SameProcedure C.code) (p.1.closures.find? a) (p.2.closures.find? a))
    (hbound : Option.Rel (C.value p) (p.1.env.bindings.get? a.text) (p.2.env.bindings.get? a.text))
    (hprocedure : Option.Rel (SameProcedure C.code) (p.1.env.procedures.get? a.text)
      (p.2.env.procedures.get? a.text))
    (hundefined : C.failure (BindingError.undefinedFunction a.text)
      (BindingError.undefinedFunction a.text))
    (hparams : ∀ params, C.params params) (hform : ∀ form, C.form form) :
    C.Results (C.Callees p) (Callee.resolve p.1 literal true a)
      (Callee.resolve p.2 literal true a) := by
  -- the cases below are those of `Callee.resolve`, in their order
  unfold Callee.resolve
  dsimp only
  generalize p.1.closures.find? a = c at hclosure ⊢
  generalize p.2.closures.find? a = c' at hclosure ⊢
  generalize p.1.env.bindings.get? a.text = x at hbound ⊢
  generalize p.2.env.bindings.get? a.text = x' at hbound ⊢
  generalize p.1.env.procedures.get? a.text = q at hprocedure ⊢
  generalize p.2.env.procedures.get? a.text = q' at hprocedure ⊢
  split
  · exact .value (.value hvalue)
  · split
    · exact .value (.value (hbool _))
    · cases hclosure with
      | some hf =>
        obtain ⟨rfl, hf⟩ := hf
        exact .value (.procedure hf (hparams _))
      | none =>
        rw [if_pos rfl]
        cases (Registry.standard.find? a.text).filter (·.reserved) with
        | some op => exact .value (.operation fun form _ => hform form)
        | none =>
          cases hbound with
          | some hxy => exact .value (.value hxy)
          | none =>
            cases hprocedure with
            | some hf =>
              obtain ⟨rfl, hf⟩ := hf
              exact .value (.procedure hf (hparams _))
            | none =>
              cases Registry.standard.find? a.text with
              | some op => exact .value (.operation fun form _ => hform form)
              | none => exact .failure hundefined

/-- A `defun` form fails in both states with the same error, or it defines the same procedure in
both. -/
theorem meets_define_of {name : Atom} {formals body : SExpr} (hp : C.states p)
    (hrefl : C.later p p) (hfail : ∀ e : DefinitionError, C.failure e e)
    (hdefine : ∀ f : Procedure, f.body = body →
      C.states (p.withProcedure name.text f) ∧ C.later p (p.withProcedure name.text f) ∧
        C.value (p.withProcedure name.text f) (.atom name) (.atom name)) :
    C.Meets C.value p (p.1.define name formals body) (p.2.define name formals body) := by
  unfold EvalState.define
  rcases Env.define_cases name.text formals body with ⟨e, he⟩ | ⟨f, hbody, hf⟩
  · rw [he, he]
    exact .failure hp hrefl (hfail e)
  · rw [hf, hf]
    obtain ⟨hq, hlater, hvalue⟩ := hdefine f hbody
    exact .value hq hlater hvalue

/-- A `lambda` form fails in both states with the same error, or it makes the same closure in
both. -/
theorem meets_capture_of {formals body : SExpr} (hp : C.states p) (hrefl : C.later p p)
    (hfail : ∀ e : DefinitionError, C.failure e e)
    (hcapture : ∀ f : Procedure, f.body = body →
      C.states (p.withClosure f) ∧ C.later p (p.withClosure f) ∧
        C.value (p.withClosure f) (.atom (p.1.closures.capture f).1)
          (.atom (p.2.closures.capture f).1)) :
    C.Meets C.value p (p.1.capture formals body) (p.2.capture formals body) := by
  unfold EvalState.capture
  cases h : Procedure.ofFormals "lambda" formals body with
  | error e => exact .failure hp hrefl (hfail e)
  | ok f =>
    obtain ⟨hq, hlater, hvalue⟩ := hcapture f (Procedure.body_of_ofFormals h)
    exact .value hq hlater hvalue

end Coupling

end PairLisp
