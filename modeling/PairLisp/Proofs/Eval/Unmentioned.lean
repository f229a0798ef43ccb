import PairLisp.Proofs.Eval.Grounded
import PairLisp.Proofs.Eval.Related

/-!
# Names that are not mentioned

Take a name that occurs nowhere in an expression, nor in the closures, in the values of other
variables and in the bodies of other procedures. What is under this name, as a variable or as a
procedure, then makes no difference to the evaluation of the expression, and it stays as it is
(`eval_unmentioned`).

The reason is that an evaluation never comes to an atom with this name. The head of a call may have
been computed, and it is then looked up among the variables and the procedures, but its atoms come
from the expression and the state, or they have been made: numerals and handles are no names, and a
truth value at the head of a call stands for itself before any name is looked up. So the two
evaluations agree in all that they look up. `Coupling.apart` compares them.
-/

namespace PairLisp

/-- The environments agree on all variables and procedures but those of the given name. -/
structure Env.AgreeExcept (name : String) (env env' : Env) : Prop where
  bindings : ∀ other, other ≠ name → env.bindings.get? other = env'.bindings.get? other
  procedures : ∀ other, other ≠ name → env.procedures.get? other = env'.procedures.get? other

/-- No atom in the values of other variables, in the bodies of other procedures and in the closures
has the given name. -/
structure EvalState.Unmentioned (name : String) (s : EvalState) : Prop where
  bindings : ∀ other x, other ≠ name → s.env.bindings.get? other = some x →
    x.All fun a => a.text ≠ name
  procedures : ∀ other f, other ≠ name → s.env.procedures.get? other = some f →
    f.body.All fun a => a.text ≠ name
  closures : ∀ f ∈ s.closures.captured, f.body.All fun a => a.text ≠ name

variable {name : String}

/-- The atom is not looked up under the given name at the head of a call: it has another name, or it
is a truth value. -/
def Atom.Avoids (name : String) (a : Atom) : Prop := a.text ≠ name ∨ a.truth?.isSome = true

/-- A numeral is not the name. -/
theorem Atom.avoids_ofInt (hname : Vocabulary.standard.isName name = true) (n : Int) :
    (Atom.ofInt n).Avoids name := by
  refine .inl fun htext => ?_
  have hnumeral : Vocabulary.standard.isNumeral name = true := htext ▸ isNumeral_ofInt n
  rw [Vocabulary.isNumeral_of_isName hname] at hnumeral
  exact Bool.false_ne_true hnumeral

/-- A handle is not the name. -/
theorem Atom.avoids_handle (hname : Vocabulary.standard.isName name = true) (n : Nat) :
    (Atom.handle n).Avoids name := by
  refine .inl fun htext => ?_
  rw [← htext, isName_handle] at hname
  exact Bool.false_ne_true hname

/-! ## The comparison -/

namespace Coupling

/-- The values are the same, and no atom in them is looked up under the given name. -/
def ApartValues (name : String) (x y : SExpr) : Prop := x = y ∧ x.All (Atom.Avoids name)

/-- The closures are the same, and so is everything under other names than the given one. None of
it mentions the name. -/
structure ApartStates (name : String) (p : StatePair) : Prop where
  closures : p.1.closures = p.2.closures
  bodies : ∀ f ∈ p.1.closures.captured, f.body.All fun a => a.text ≠ name
  related : p.1.env.Related (· ≠ name) (fun a => a.text ≠ name) (ApartValues name) p.2.env

/-- Two evaluations that may differ in what is under the given name. Each of them leaves the
procedure of this name as it is. -/
def apart (name : String) : Coupling where
  code a := a.text ≠ name
  states := ApartStates name
  later p q := p.1.env.procedures.get? name = q.1.env.procedures.get? name ∧
    p.2.env.procedures.get? name = q.2.env.procedures.get? name
  value _ := ApartValues name
  failure := Eq
  lost _ := False

variable {p : StatePair}

/-- A value that does not have the name in it matches itself. -/
theorem apartValues_refl {x : SExpr} (h : x.All (Atom.Avoids name)) : ApartValues name x x :=
  ⟨rfl, h⟩

/-- An expression that does not mention the name matches itself. -/
theorem apartValues_code {x : SExpr} (h : x.All fun a => a.text ≠ name) : ApartValues name x x :=
  ⟨rfl, h.imp fun _ => .inl⟩

/-- A truth value matches itself, whatever the name is. -/
theorem apartValues_ofBool (name : String) (b : Bool) :
    ApartValues name (.ofBool b) (.ofBool b) :=
  ⟨rfl, SExpr.all_ofBool (.inr rfl) (.inr rfl) b⟩

/-- A truth value stands for itself. Any other atom of a value has another name. -/
theorem results_resolve_apart (hp : ApartStates name p) {a : Atom} (literal : Bool)
    (ha : a.Avoids name) :
    (apart name).Results ((apart name).Callees p) (Callee.resolve p.1 literal true a)
      (Callee.resolve p.2 literal true a) := by
  have hvalue : ApartValues name (.atom a) (.atom a) := apartValues_refl ha
  cases htruth : a.truth? with
  | some b =>
    rw [Callee.resolve_of_truth? htruth, Callee.resolve_of_truth? htruth]
    refine .value (.value ?_)
    split
    · exact hvalue
    · exact apartValues_ofBool name b
  | none =>
    have hother : a.text ≠ name := by
      rcases ha with hother | htrue
      · exact hother
      · simp [htruth] at htrue
    refine results_resolve_of_rel literal hvalue (apartValues_ofBool name) ?_
      (hp.related.bindings _ hother) (hp.related.procedures _ hother) rfl (fun _ => trivial)
      fun _ => trivial
    -- a handle names the same closure in both states
    rw [← hp.closures]
    cases hfind : p.1.closures.find? a with
    | none => exact .none
    | some f =>
      obtain ⟨n, -, hn⟩ := Closures.exists_of_find? hfind
      exact .some (sameProcedure_refl (hp.bodies f (Array.mem_of_getElem? hn)))

/-- Every step keeps the two evaluations together. -/
theorem lawful_apart (hname : Vocabulary.standard.isName name = true) :
    (apart name).Lawful where
  later_refl _ := ⟨rfl, rfl⟩
  later_trans hpq hqr := ⟨hpq.1.trans hqr.1, hpq.2.trans hqr.2⟩
  value_later h _ := h
  value_code _ hx := apartValues_code hx
  value_ofBool b _ := apartValues_ofBool name b
  value_valueOf hp ha := hp.related.valueOf ha (apartValues_code ha) (apartValues_ofBool name)
  isAtom_eq h := by rw [h.1]
  toBool?_eq h := by rw [h.1]
  failure_refl _ _ := rfl
  failure_type mk h := by rw [h.1]; rfl
  apply {_ xs ys} f _ h := by
    obtain ⟨rfl, hxs⟩ := forall₂_eq_map (fun x y hxy => ⟨hxy.1.symm, hxy.2⟩) h
    rw [List.map_id']
    cases hf : f.apply xs with
    | error e => exact .failure rfl
    | ok x =>
      exact .value (apartValues_refl (Builtin.all_apply (.inr rfl) (.inr rfl)
        (Atom.avoids_ofInt hname) hxs hf))
  resolve {_ a b} literal hp h := by
    obtain rfl : a = b := SExpr.atom.inj h.1
    exact results_resolve_apart hp literal h.2
  define {p nm formals body} hp _ hnm _ hbody := by
    refine meets_define_of hp ⟨rfl, rfl⟩ (fun _ => rfl) fun f hf => ?_
    subst hf
    -- the procedure that is defined has another name
    have hkept : ∀ t : Table Procedure, t.get? name = (t.insert nm.text f).get? name := by
      intro t
      rw [Table.get?_insert, if_neg (Ne.symm hnm)]
    exact ⟨⟨hp.closures, hp.bodies, hp.related.insert nm.text hbody⟩, ⟨hkept _, hkept _⟩,
      apartValues_code hnm⟩
  capture {p formals body} hp _ _ hbody := by
    refine meets_capture_of hp ⟨rfl, rfl⟩ (fun _ => rfl) fun f hf => ?_
    subst hf
    have hclosures : p.1.closures.capture f = p.2.closures.capture f := by rw [hp.closures]
    refine ⟨⟨congrArg Prod.snd hclosures, fun g hg => ?_, hp.related⟩, ⟨rfl, rfl⟩,
      by rw [hclosures], Atom.avoids_handle hname _⟩
    rcases Array.mem_push.1 hg with hg | rfl
    · exact hp.bodies g hg
    · exact hbody
  enter {_ _ _ params} hp _ h := ⟨hp.closures, hp.bodies, hp.related.bindAll params h⟩
  leave {p q _ _} params hp _ hl hq :=
    ⟨⟨hq.closures, hq.bodies, hp.related.bindings, hq.related.procedures⟩, hl, fun _ _ h => h⟩

end Coupling

/-! ## Evaluation -/

/-- States that differ under the name alone may face each other. -/
theorem EvalState.Unmentioned.apart {s t : EvalState} (hs : s.Unmentioned name)
    (hclosures : s.closures = t.closures) (henv : s.env.AgreeExcept name t.env) :
    Coupling.ApartStates name (s, t) where
  closures := hclosures
  bodies := hs.closures
  related := by
    refine ⟨fun other hother => ?_, fun other hother => ?_⟩
    · show Option.Rel _ (s.env.bindings.get? other) (t.env.bindings.get? other)
      rw [← henv.bindings other hother]
      cases hx : s.env.bindings.get? other with
      | none => exact .none
      | some x => exact .some (Coupling.apartValues_code (hs.bindings other x hother hx))
    · show Option.Rel _ (s.env.procedures.get? other) (t.env.procedures.get? other)
      rw [← henv.procedures other hother]
      cases hf : s.env.procedures.get? other with
      | none => exact .none
      | some f => exact .some (sameProcedure_refl (hs.procedures other f hother hf))

/-- States that face each other differ under the name alone. -/
theorem Coupling.ApartStates.agreeExcept {s t : EvalState}
    (h : Coupling.ApartStates name (s, t)) : s.env.AgreeExcept name t.env := by
  have hsome : ∀ {α : Type} {R : α → α → Prop} {o o' : Option α}, (∀ a b, R a b → a = b) →
      Option.Rel R o o' → o = o' := by
    intro α R o o' heq hrel
    cases hrel with
    | some hab => rw [heq _ _ hab]
    | none => rfl
  exact ⟨fun other hother => hsome (fun _ _ hxy => hxy.1) (h.related.bindings other hother),
    fun other hother => hsome (fun _ _ hfg => hfg.1) (h.related.procedures other hother)⟩

/-- Two evaluations of an expression that does not mention a name, at any depth, in states that do
not mention it either, with the same closures and with environments that may differ in what is under
the name. They have the same result and make the same closures, and leave environments that again
differ in nothing else. Each of them keeps what is under the name. -/
theorem eval_unmentioned {x : SExpr} {s t : EvalState}
    (hname : Vocabulary.standard.isName name = true) (hx : x.All fun a => a.text ≠ name)
    (hs : s.Unmentioned name) (hclosures : s.closures = t.closures)
    (henv : s.env.AgreeExcept name t.env) (depth : Nat) (literal : Bool) :
    let r := (evalAt depth literal x).runFrom s
    let r' := (evalAt depth literal x).runFrom t
    r.1 = r'.1 ∧ r.2.closures = r'.2.closures ∧ r.2.env.AgreeExcept name r'.2.env ∧
      (r.2.env.bindings.get? name = s.env.bindings.get? name ∧
        r.2.env.procedures.get? name = s.env.procedures.get? name) ∧
      (r'.2.env.bindings.get? name = t.env.bindings.get? name ∧
        r'.2.env.procedures.get? name = t.env.procedures.get? name) := by
  intro r r'
  have hstep : (Coupling.apart name).Step (fun _ => Coupling.ApartValues name) (s, t)
      (evalAt depth literal x) (evalAt depth literal x) :=
    (Coupling.lawful_apart hname).evaluators_eval (Limits.evaluation - depth) literal x hx (s, t)
      (hs.apart hclosures henv)
  obtain ⟨hstates, hlater, hresults⟩ := hstep.ends fun _ => not_false
  have hsame : r.1 = r'.1 := by
    show ((evalAt depth literal x).runFrom s).1 = ((evalAt depth literal x).runFrom t).1
    generalize ((evalAt depth literal x).runFrom s).1 = o at hresults ⊢
    generalize ((evalAt depth literal x).runFrom t).1 = o' at hresults ⊢
    cases hresults with
    | value hxy => exact congrArg Except.ok hxy.1
    | failure he => exact congrArg Except.error he
    | lost he => exact he.elim
  have hbindings : r.2.env.bindings = s.env.bindings := bindings_runFrom_eval _ _ x s
  have hbindings' : r'.2.env.bindings = t.env.bindings := bindings_runFrom_eval _ _ x t
  rw [hbindings, hbindings']
  exact ⟨hsame, hstates.closures, hstates.agreeExcept, ⟨rfl, hlater.1.symm⟩, ⟨rfl, hlater.2.symm⟩⟩

/-- A variable and a procedure that only one of two environments has, beside a procedure that both
of them have. It calls the closure that it is given. -/
theorem eval_unmentioned_absent :
    let apply : Procedure :=
      { name := "apply", params := ["g"], body := .ofList [.atom ⟨"g"⟩, .atom ⟨"7"⟩] }
    let own : Procedure := { name := "x", params := [], body := .atom ⟨"x"⟩ }
    let env' : Env := { procedures := (∅ : Table Procedure).insert "apply" apply }
    let env : Env :=
      { bindings := (∅ : Table SExpr).insert "x" (.atom ⟨"1"⟩)
        procedures := env'.procedures.insert "x" own }
    let x : SExpr := .ofList [.atom ⟨"apply"⟩, .ofList [.atom ⟨"lambda"⟩, .ofList [.atom ⟨"y"⟩],
      .ofList [.atom ⟨"cons"⟩, .atom ⟨"y"⟩, .atom ⟨"t"⟩]]]
    let s : EvalState := { env }
    let t : EvalState := { env := env' }
    let r := (evalAt 0 false x).runFrom s
    let r' := (evalAt 0 false x).runFrom t
    Vocabulary.standard.isName "x" = true ∧ (x.All fun a => a.text ≠ "x") ∧ s.Unmentioned "x" ∧
      s.closures = t.closures ∧ s.env.AgreeExcept "x" t.env ∧
      r.1 = .ok (.cons (.atom ⟨"7"⟩) (.atom ⟨"T"⟩)) ∧ r.1 = r'.1 ∧
      r.2.closures = r'.2.closures ∧ r.2.env.AgreeExcept "x" r'.2.env ∧
      (r.2.env.bindings.get? "x" = some (.atom ⟨"1"⟩) ∧
        r.2.env.procedures.get? "x" = some own) ∧
      (r'.2.env.bindings.get? "x" = none ∧ r'.2.env.procedures.get? "x" = none) := by
  intro apply own env' env x s t r r'
  have hname : Vocabulary.standard.isName "x" = true := by decide
  have hx : x.All fun a => a.text ≠ "x" := by simp [x, SExpr.ofList, SExpr.nil, Atom.nil]
  have henv : s.env.AgreeExcept "x" t.env := by
    refine ⟨fun other hother => ?_, fun other hother => ?_⟩
    · exact (Table.get?_insert _ _ _ _).trans (if_neg hother)
    · exact (Table.get?_insert _ _ _ _).trans (if_neg hother)
  have hs : s.Unmentioned "x" := by
    refine ⟨fun other y hother hy => ?_, fun other f hother hf => ?_, fun f hf => ?_⟩
    · rw [henv.bindings other hother] at hy
      exact absurd hy (by simp [t, env'])
    · rw [henv.procedures other hother, Table.get?_insert] at hf
      split at hf
      · rw [← Option.some.inj hf]
        simp [apply, SExpr.ofList, SExpr.nil, Atom.nil]
      · simp at hf
    · have hmem : f ∈ (#[] : Array Procedure) := hf
      simp at hmem
  have hvalue : r.1 = .ok (.cons (.atom ⟨"7"⟩) (.atom ⟨"T"⟩)) := by decide +kernel
  have hclosures : s.closures = t.closures := rfl
  have hbound : s.env.bindings.get? "x" = some (.atom ⟨"1"⟩) := by decide
  have hdefined : s.env.procedures.get? "x" = some own := by decide
  have hunbound : t.env.bindings.get? "x" = none := by decide
  have hundefined : t.env.procedures.get? "x" = none := by decide
  obtain ⟨hresult, hmade, hagree, hown, hnone⟩ :=
    eval_unmentioned hname hx hs hclosures henv 0 false
  rw [hbound, hdefined] at hown
  rw [hunbound, hundefined] at hnone
  exact ⟨hname, hx, hs, hclosures, henv, hvalue, hresult, hmade, hagree, hown, hnone⟩

end PairLisp
