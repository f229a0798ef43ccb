import PairLisp.Proofs.Eval.Scope
import PairLisp.Proofs.Handle

/-!
# Where the atoms of values come from

An atom of a value was written down by a program, or it is a truth value or a numeral that a
primitive function has made, or it is the handle of a closure. So a property of atoms that truth
values and numerals have, and that the program has throughout, is one of all values, up to handles
(`Invariant.lawful_grounded`).

The bodies of procedures and closures are parts of programs, so all of their atoms have the
property. Only values may hold handles, and each of them names a closure of the statement at hand.
Closures are never removed, so a handle that names a closure goes on to do so.
-/

namespace PairLisp

variable {p : Atom → Prop}

/-- Every atom of the expression has the property or names a closure. -/
def SExpr.Grounded (p : Atom → Prop) (cs : Closures) (x : SExpr) : Prop :=
  x.All fun a => p a ∨ (cs.find? a).isSome = true

/-- If all atoms have the property, there is no need of closures. -/
theorem SExpr.All.grounded {x : SExpr} (h : x.All p) (cs : Closures) : x.Grounded p cs :=
  h.imp fun _ => .inl

/-- Every atom in the body of a procedure has the property. -/
def Env.Grounded (p : Atom → Prop) (env : Env) : Prop :=
  ∀ name q, env.procedures.get? name = some q → q.body.All p

theorem Env.grounded_empty : (∅ : Env).Grounded p := by
  intro name q hq
  have hget : (∅ : Table Procedure).get? name = some q := hq
  simp at hget

/-- A definition keeps the bodies of procedures as they should be. -/
theorem Env.Grounded.define {env env' : Env} {name : String} {formals body : SExpr}
    {q : Procedure} (henv : env.Grounded p) (hbody : body.All p)
    (h : env.define name formals body = .ok (q, env')) : env'.Grounded p := by
  obtain ⟨hq, rfl⟩ := Env.eq_of_define h
  intro other r hr
  rw [Table.get?_insert] at hr
  split at hr
  · rw [← Option.some.inj hr, hq]
    exact hbody
  · exact henv other r hr

/-- The atoms of variables have the property or name closures, and those of bodies have it. -/
structure EvalState.Grounded (p : Atom → Prop) (s : EvalState) : Prop where
  bindings : ∀ name x, s.env.bindings.get? name = some x → x.Grounded p s.closures
  procedures : s.env.Grounded p
  closures : ∀ q ∈ s.closures.captured, q.body.All p

/-- A statement begins with no variable and no closure. -/
theorem EvalState.grounded_start {env : Env} (hbindings : env.bindings = ∅)
    (henv : env.Grounded p) : EvalState.Grounded p { env } where
  bindings name x hx := by
    rw [hbindings, Table.get?_empty] at hx
    simp at hx
  procedures := henv
  closures := by simp

/-! ## The invariant -/

namespace Invariant

/-- The atoms of programs have the property, and those of values have it or name closures. -/
def grounded (p : Atom → Prop) : Invariant where
  code := p
  state s := s.Grounded p
  later s t := ∀ a, (s.closures.find? a).isSome = true → (t.closures.find? a).isSome = true
  value s x := x.Grounded p s.closures
  failure e := ∀ a : Atom, e = BindingError.undefinedFunction a.text → p a
  lost _ := False

/-- A new closure has a body as it should be, and its handle names it. -/
theorem grounded_capture {s : EvalState} {formals body : SExpr} {q : Procedure}
    (hs : s.Grounded p) (hbody : body.All p)
    (h : Procedure.ofFormals "lambda" formals body = .ok q) :
    (grounded p).state { s with closures := (s.closures.capture q).2 } ∧
      (grounded p).later s { s with closures := (s.closures.capture q).2 } ∧
      (grounded p).value { s with closures := (s.closures.capture q).2 }
        (.atom (s.closures.capture q).1) := by
  have hlater : ∀ a, (s.closures.find? a).isSome = true →
      ((s.closures.capture q).2.find? a).isSome = true := by
    intro a ha
    obtain ⟨r, hr⟩ := Option.isSome_iff_exists.1 ha
    rw [Closures.find?_capture_of_find? hr]
    rfl
  have hclosures : ∀ r ∈ (s.closures.capture q).2.captured, r.body.All p := by
    intro r hr
    rcases Array.mem_push.1 hr with hr | rfl
    · exact hs.closures r hr
    · rw [Procedure.body_of_ofFormals h]
      exact hbody
  refine ⟨⟨fun name x hx => ?_, hs.procedures, hclosures⟩, hlater, .inr ?_⟩
  · exact (hs.bindings name x hx).imp fun a ha => ha.imp_right (hlater a)
  · rw [Closures.find?_capture]
    rfl

/-- Values with grounded atoms may be bound to the parameters of a procedure. -/
theorem grounded_enter {s : EvalState} {xs : List SExpr} (params : List String)
    (hs : s.Grounded p) (hxs : ∀ x ∈ xs, x.Grounded p s.closures) :
    (s.enter (params.zip xs)).Grounded p := by
  refine ⟨fun name x hx => ?_, hs.procedures, hs.closures⟩
  rcases EvalState.mem_or_get?_of_enter hx with ⟨-, hmem⟩ | hget
  · exact hxs x hmem
  · exact hs.bindings name x hget

/-- Every step keeps the atoms grounded in a property that truth values and numerals have. -/
theorem lawful_grounded (ht : p .t) (hnil : p .nil) (hint : ∀ n, p (.ofInt n)) :
    (grounded p).Lawful where
  later_refl _ _ h := h
  later_trans hst htu a h := htu a (hst a h)
  value_later hx hst := hx.imp fun a ha => ha.imp_right (hst a)
  value_code _ hx := hx.grounded _
  value_ofBool b _ :=
    have hbool : (SExpr.ofBool b).All p := SExpr.all_ofBool ht hnil b
    hbool.grounded _
  value_bound hs hx := hs.bindings _ _ hx
  value_apply _ hxs h := Builtin.all_apply (.inl ht) (.inl hnil) (fun n => .inl (hint n)) hxs h
  code_procedure hs hq := hs.procedures _ _ hq
  code_closure hs hq := by
    obtain ⟨n, -, hn⟩ := Closures.exists_of_find? hq
    exact hs.closures _ (Array.mem_of_getElem? hn)
  failure_plain h _ a he := by
    rw [he] at h
    exact h.elim
  failure_type e a he := by simp at he
  failure_undefined {s a} _ ha hnone b he := by
    -- the error names the atom, which is no handle
    have htext : a.text = b.text := by simpa using he
    obtain rfl : a = b := by
      cases a
      cases b
      exact congrArg Atom.mk htext
    rcases ha with hp | hsome
    · exact hp
    · rw [hnone] at hsome
      exact absurd hsome Bool.false_ne_true
  define hs _ hbody h := by
    have hprocedures := hs.procedures.define hbody h
    obtain ⟨-, rfl⟩ := Env.eq_of_define h
    exact ⟨⟨hs.bindings, hprocedures, hs.closures⟩, fun _ ha => ha⟩
  capture hs _ hbody h := grounded_capture hs hbody h
  enter {_ _ params} hs _ hxs := grounded_enter params hs hxs
  leave {s t _} hs ht hl := by
    refine ⟨⟨fun name x hx => ?_, ht.procedures, ht.closures⟩, hl⟩
    exact (hs.bindings name x hx).imp fun a ha => ha.imp_right (hl a)
  value_leave h := h

end Invariant

/-! ## Watching for atoms -/

/-- The watch for atoms without the property: at every point of an evaluation the atoms of
variables and bodies are as they should be, and so are those of every value that is reached. -/
def Watch.grounded (p : Atom → Prop) : Watch where
  before s := s.Grounded p
  after r s := s.Grounded p ∧ ∀ x, r = .ok x → x.Grounded p s.closures

/-- The watch has nothing to say where the invariant holds. -/
theorem Watch.grounded_approves : (Watch.grounded p).Approves (Invariant.grounded p) where
  state hs := hs
  value hs hx := ⟨hs, fun _ heq => Except.ok.inj heq ▸ hx⟩
  failure hs _ := ⟨hs, fun _ heq => by simp at heq⟩

/-- An expression that a statement writes down has only atoms that a program may write. -/
theorem Statement.writable_expression {s : Statement} {x : SExpr} (h : s.expression = .ok x) :
    x.All SExpr.Writable := by
  unfold Statement.expression at h
  split at h
  · simp [bind, Except.bind] at h
  · obtain ⟨ts, -, hts⟩ := bind_eq_ok.1 h
    exact SExpr.all_ofTokens hts

end PairLisp
