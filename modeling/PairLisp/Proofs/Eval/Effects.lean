import PairLisp.Proofs.Eval.Grounded

/-!
# What changes the tables

Only a `defun` form changes the table of procedures, and only a `lambda` form makes a closure. The
head of a call may be computed, so it does not have to be written where it is called: it may come
from a variable, from a call or from a quotation. But then it has been written somewhere. The atoms
of values come from the expression at hand, from variables and from bodies, or they are truth values,
numerals and handles, and none of these is a name of a form.

So if a name of a form is written nowhere, no head comes to stand for the form. `Invariant.without`
is the invariant that says so, and `tables_unchanged` is what follows for the two tables.
-/

namespace PairLisp

/-! ## Names of special forms -/

namespace Form

/-- The names of a special form. -/
def names (form : Form) : List String :=
  (Registry.standardOperations.filter fun op => op.meaning = .form form).flatMap Operation.aliases

theorem names_defun : defun.names = ["defun"] := rfl

theorem names_lambda : lambda.names = ["lambda", "λ"] := rfl

/-- What stands for a special form at the head of a call is one of its names. -/
theorem mem_names {form : Form} {name : String} {op : Operation}
    (hop : Registry.standard.find? name = some op) (hmeaning : op.meaning = .form form) :
    name ∈ form.names := by
  obtain ⟨hmem, hname⟩ := Registry.mem_of_find? hop
  exact List.mem_flatMap.2 ⟨op, List.mem_filter.2 ⟨hmem, decide_eq_true hmeaning⟩, hname⟩

/-- No name of a special form is a numeral or a truth value. -/
theorem plain_of_mem_names {form : Form} {a : Atom} (h : a.text ∈ form.names) :
    a.isNumeral = false ∧ a.truth? = none := by
  obtain ⟨op, hop, hname⟩ := List.mem_flatMap.1 h
  obtain ⟨hnumeral, htruth, -⟩ := Registry.plain_of_mem_aliases (List.mem_filter.1 hop).1 hname
  exact ⟨hnumeral, htruth⟩

end Form

/-! ## Evaluation without a form -/

/-- The atoms in the values of variables and in the bodies of procedures and closures have the
property. -/
structure EvalState.All (p : Atom → Prop) (s : EvalState) : Prop where
  bindings : ∀ name x, s.env.bindings.get? name = some x → x.All p
  procedures : ∀ name f, s.env.procedures.get? name = some f → f.body.All p
  closures : ∀ f ∈ s.closures.captured, f.body.All p

namespace EvalState.All

variable {p q : Atom → Prop} {s : EvalState}

/-- What follows from the property of an atom holds of all atoms in the state as well. -/
theorem imp (h : s.All p) (hpq : ∀ a, p a → q a) : s.All q where
  bindings name x hx := (h.bindings name x hx).imp hpq
  procedures name f hf := (h.procedures name f hf).imp hpq
  closures f hf := (h.closures f hf).imp hpq

theorem grounded (h : s.All p) : s.Grounded p where
  bindings name x hx := (h.bindings name x hx).grounded s.closures
  procedures := h.procedures
  closures := h.closures

end EvalState.All

/-- What a form other than the given one may have done to the tables. -/
structure EvalState.ChangedWithout (form : Form) (s t : EvalState) : Prop where
  procedures : form = .defun → t.env.procedures = s.env.procedures
  closures : form = .lambda → t.closures = s.closures

namespace EvalState.ChangedWithout

variable {form : Form} {s t u : EvalState}

theorem refl (form : Form) (s : EvalState) : s.ChangedWithout form s := ⟨fun _ => rfl, fun _ => rfl⟩

theorem trans (hst : s.ChangedWithout form t) (htu : t.ChangedWithout form u) :
    s.ChangedWithout form u where
  procedures h := (htu.procedures h).trans (hst.procedures h)
  closures h := (htu.closures h).trans (hst.closures h)

end EvalState.ChangedWithout

namespace Invariant

variable (form : Form)

/-- No name of the form is written anywhere, and the form has no effect. -/
def without : Invariant :=
  { grounded fun a => a.text ∉ form.names with
    later := fun s t =>
      (grounded fun a => a.text ∉ form.names).later s t ∧ s.ChangedWithout form t
    form := (· ≠ form) }

/-- The truth values and the numerals are no names of the form. -/
theorem lawful_grounded_names : (grounded fun a => a.text ∉ form.names).Lawful := by
  refine lawful_grounded (fun h => ?_) (fun h => ?_) fun n h => ?_
  · exact absurd (Form.plain_of_mem_names h).2 (by decide)
  · exact absurd (Form.plain_of_mem_names h).2 (by decide)
  · have hnumeral := (Form.plain_of_mem_names h).1
    rw [Atom.isNumeral_ofInt] at hnumeral
    exact Bool.noConfusion hnumeral

/-- Every step keeps the names of the form away, so none of them is the form itself. -/
theorem lawful_without : (without form).Lawful :=
  have hgrounded := lawful_grounded_names form
  { later_refl := fun s => ⟨hgrounded.later_refl s, .refl form s⟩
    later_trans := fun hst htu =>
      ⟨hgrounded.later_trans hst.1 htu.1, hst.2.trans htu.2⟩
    value_later := fun hx hl => hgrounded.value_later hx hl.1
    value_code := hgrounded.value_code
    value_ofBool := hgrounded.value_ofBool
    value_bound := hgrounded.value_bound
    value_apply := hgrounded.value_apply
    code_procedure := hgrounded.code_procedure
    code_closure := hgrounded.code_closure
    form_of_value := by
      rintro s a op f - ha hop hmeaning rfl
      rcases ha with hother | hclosure
      · exact hother (Form.mem_names hop hmeaning)
      · rw [s.closures.find?_of_operation hop] at hclosure
        exact Bool.noConfusion hclosure
    failure_plain := hgrounded.failure_plain
    failure_type := hgrounded.failure_type
    failure_undefined := hgrounded.failure_undefined
    define := by
      intro s name formals body q env hs hform hbody h
      obtain ⟨hstate, hlater⟩ := hgrounded.define hs trivial hbody h
      obtain ⟨-, rfl⟩ := Env.eq_of_define h
      exact ⟨hstate, hlater, fun hdefun => absurd hdefun.symm hform, fun _ => rfl⟩
    capture := by
      intro s formals body q hs hform hbody h
      obtain ⟨hstate, hlater, hvalue⟩ := hgrounded.capture hs trivial hbody h
      exact ⟨hstate, ⟨hlater, fun _ => rfl, fun hlambda => absurd hlambda.symm hform⟩, hvalue⟩
    enter := fun hs _ hxs => hgrounded.enter hs trivial hxs
    leave := by
      intro s t entries hs ht hl
      obtain ⟨hstate, hlater⟩ := hgrounded.leave hs ht hl.1
      exact ⟨hstate, hlater, hl.2.procedures, hl.2.closures⟩
    value_leave := hgrounded.value_leave }

end Invariant

/-- Where no name of a special form is written, evaluation changes only what other forms change. -/
theorem EvalState.changedWithout_eval {form : Form} {x : SExpr} {s : EvalState} (levels : Nat)
    (literal : Bool) (hx : x.All fun a => a.text ∉ form.names)
    (hs : s.All fun a => a.text ∉ form.names) :
    s.ChangedWithout form ((eval levels literal x).runFrom s).2 :=
  have hends := (Invariant.lawful_without form).ends levels literal hx hs.grounded
  (hends.later fun _ hlost => hlost.elim).2

/-- An evaluation changes the table of procedures only if a `defun` has been written, in the
expression, in a body or in the value of a variable, and it makes a closure only if a `lambda` has
been. This holds however the evaluation ends. -/
theorem tables_unchanged (depth : Nat) (literal : Bool) (x : SExpr) (s : EvalState) :
    let r := (evalAt depth literal x).runFrom s
    (x.All (·.text ≠ "defun") → s.All (·.text ≠ "defun") →
      r.2.env.procedures = s.env.procedures) ∧
    (x.All (fun a => a.text ≠ "lambda" ∧ a.text ≠ "λ") →
      s.All (fun a => a.text ≠ "lambda" ∧ a.text ≠ "λ") → r.2.closures = s.closures) := by
  intro r
  constructor
  · intro hx hs
    have hnames : ∀ a : Atom, a.text ≠ "defun" → a.text ∉ Form.defun.names := by
      simp [Form.names_defun]
    exact (EvalState.changedWithout_eval _ literal (hx.imp hnames) (hs.imp hnames)).procedures rfl
  · intro hx hs
    have hnames : ∀ a : Atom, a.text ≠ "lambda" ∧ a.text ≠ "λ" →
        a.text ∉ Form.lambda.names := by
      simp [Form.names_lambda]
    exact (EvalState.changedWithout_eval _ literal (hx.imp hnames) (hs.imp hnames)).closures rfl

/-- The heads `lambda` and `defun` come out of calls of procedures. The first evaluation makes a
closure before it fails, and defines nothing; the second one defines a procedure and makes no
closure. -/
theorem tables_unchanged_head :
    let maker : Procedure :=
      { name := "maker", params := [], body := .ofList [.atom ⟨"quote"⟩, .atom ⟨"lambda"⟩] }
    let namer : Procedure :=
      { name := "namer", params := [], body := .ofList [.atom ⟨"quote"⟩, .atom ⟨"defun"⟩] }
    let s : EvalState := { env := { procedures := (∅ : Table Procedure).insert "maker" maker } }
    let t : EvalState :=
      { env := { procedures := (∅ : Table Procedure).insert "namer" namer }
        closures := { captured := #[{ namer with name := "lambda" }] } }
    let x : SExpr := .ofList [.atom ⟨"list"⟩,
      .ofList [.ofList [.atom ⟨"maker"⟩], .ofList [.atom ⟨"y"⟩], .atom ⟨"y"⟩],
      .ofList [.atom ⟨"car"⟩, .atom ⟨"5"⟩]]
    let y : SExpr := .ofList [.ofList [.atom ⟨"namer"⟩], .atom ⟨"f"⟩, .ofList [.atom ⟨"y"⟩],
      .atom ⟨"y"⟩]
    let r := (evalAt 0 false x).runFrom s
    let r' := (evalAt 0 false y).runFrom t
    (x.All (·.text ≠ "defun") ∧ s.All (·.text ≠ "defun") ∧ r.1.isOk = false ∧
      r.2.closures.size = 1 ∧ r.2.env.procedures = s.env.procedures) ∧
    (y.All (fun a => a.text ≠ "lambda" ∧ a.text ≠ "λ") ∧
      t.All (fun a => a.text ≠ "lambda" ∧ a.text ≠ "λ") ∧ r'.1.isOk = true ∧
      r'.2.env.procedures.contains "f" = true ∧ r'.2.closures = t.closures) := by
  intro maker namer s t x y r r'
  have hx : x.All (·.text ≠ "defun") := by
    simp [x, SExpr.ofList, SExpr.nil, Atom.nil]
  have hy : y.All fun a => a.text ≠ "lambda" ∧ a.text ≠ "λ" := by
    simp [y, SExpr.ofList, SExpr.nil, Atom.nil]
  have hmaker : maker.body.All (·.text ≠ "defun") := by
    simp [maker, SExpr.ofList, SExpr.nil, Atom.nil]
  have hnamer : namer.body.All fun a => a.text ≠ "lambda" ∧ a.text ≠ "λ" := by
    simp [namer, SExpr.ofList, SExpr.nil, Atom.nil]
  have hone : ∀ {p : Atom → Prop} {name : String} {f : Procedure}, f.body.All p →
      ∀ other g, ((∅ : Table Procedure).insert name f).get? other = some g → g.body.All p := by
    intro p name f hf other g hg
    rw [Table.get?_insert] at hg
    split at hg
    · rwa [← Option.some.inj hg]
    · simp at hg
  have hs : s.All (·.text ≠ "defun") := ⟨by simp [s], hone hmaker, by simp [s]⟩
  have ht : t.All fun a => a.text ≠ "lambda" ∧ a.text ≠ "λ" := by
    refine ⟨by simp [t], hone hnamer, fun f hf => ?_⟩
    obtain rfl : f = { namer with name := "lambda" } := by simpa [t] using hf
    exact hnamer
  exact ⟨⟨hx, hs, by decide +kernel, by decide +kernel, (tables_unchanged 0 false x s).1 hx hs⟩,
    hy, ht, by decide +kernel, by decide +kernel, (tables_unchanged 0 false y t).2 hy ht⟩

end PairLisp
