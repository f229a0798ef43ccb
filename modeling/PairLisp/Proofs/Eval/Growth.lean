import Mathlib.Logic.Relation
import PairLisp.Proofs.Eval.Invariant

/-!
# How the tables of a session grow

The variables come back at the end of every call, so all that an evaluation leaves behind are the
procedures that it has defined and the closures that it has made. There is one step for each of the
two: a `defun` form puts a procedure under its name, whatever has been there, and a `lambda` form
adds a closure behind those that are there. `EvalState.grows_runFrom_eval` says that no evaluation
does anything else to the two tables, however it ends.

A property of the tables that both steps keep is kept by all evaluations
(`Tables.Grows.preserves`).
-/

namespace PairLisp

/-- The procedures of a session and the closures of a statement. -/
structure Tables where
  procedures : Table Procedure
  closures : Closures

namespace Tables

/-- A procedure is defined or a closure is made. -/
inductive Step : Tables → Tables → Prop where
  | define {t : Tables} {name : String} {formals body : SExpr} {p : Procedure}
      (hname : Vocabulary.standard.isName name = true)
      (hfree : Registry.standard.contains name = false)
      (hp : Procedure.ofFormals name formals body = .ok p) :
    Step t { t with procedures := t.procedures.insert name p }
  | capture {t : Tables} {formals body : SExpr} {p : Procedure}
      (hp : Procedure.ofFormals "lambda" formals body = .ok p) :
    Step t { t with closures := (t.closures.capture p).2 }

/-- The second tables come from the first by any number of definitions and closures. -/
def Grows : Tables → Tables → Prop := Relation.ReflTransGen Step

theorem Grows.refl (t : Tables) : Grows t t := Relation.ReflTransGen.refl

theorem Grows.trans {t u w : Tables} (htu : Grows t u) (huw : Grows u w) : Grows t w :=
  Relation.ReflTransGen.trans htu huw

/-- What every step keeps is kept. -/
theorem Grows.preserves {P : Tables → Prop} {t u : Tables} (h : Grows t u)
    (hstep : ∀ t u, Step t u → P t → P u) (ht : P t) : P u := by
  induction h with
  | refl => exact ht
  | tail _ hlast ih => exact hstep _ _ hlast ih

/-- Nothing comes to stand under a name that a procedure cannot have. -/
theorem Grows.get?_eq_none {t u : Tables} {name : String} (h : Grows t u)
    (hname : Vocabulary.standard.isName name = true → Registry.standard.contains name = true)
    (ht : t.procedures.get? name = none) : u.procedures.get? name = none := by
  refine h.preserves (P := fun t => t.procedures.get? name = none) (fun t u hstep hnone => ?_) ht
  cases hstep with
  | define hother hfree _ =>
    rw [Table.get?_insert, if_neg]
    · exact hnone
    · rintro rfl
      rw [hname hother] at hfree
      exact Bool.noConfusion hfree
  | capture _ => exact hnone

end Tables

open Tables

/-- The tables of a state. -/
def EvalState.tables (s : EvalState) : Tables := ⟨s.env.procedures, s.closures⟩

namespace Invariant

/-- An evaluation makes the tables grow. -/
def growing : Invariant :=
  ofEnds (fun s t => Grows s.tables t.tables) (fun _ => True) (fun _ => False)

/-- Evaluation changes the tables by adding to them, one entry after the other. -/
theorem lawful_growing : growing.Lawful := by
  have hdefine : ∀ {s : EvalState} {name formals body p env},
      s.env.define name formals body = .ok (p, env) →
      Grows s.tables (EvalState.tables { s with env }) := by
    intro s name formals body p env h
    obtain ⟨hname, hfree, hp, rfl⟩ := Env.define_eq_ok_iff.1 h
    exact Relation.ReflTransGen.single (.define hname hfree hp)
  -- the variables of a call are in neither table
  have hleave : ∀ {s t : EvalState} {entries : List (String × SExpr)},
      Grows (s.enter entries).tables t.tables → Grows s.tables (t.leave s).tables :=
    fun h => h
  exact lawful_ofEnds (fun s => Grows.refl s.tables) (fun hst htu => hst.trans htu) hdefine
    (fun hp => Relation.ReflTransGen.single (.capture hp)) hleave (fun _ _ => trivial)
    (fun _ => trivial) (fun _ => trivial)

end Invariant

/-- All that an evaluation does to the tables is to define procedures and to make closures. -/
theorem EvalState.grows_runFrom_eval (levels : Nat) (literal : Bool) (x : SExpr) (s : EvalState) :
    Grows s.tables ((eval levels literal x).runFrom s).2.tables := by
  have hx : x.All Invariant.growing.code := Invariant.all_code_ofEnds x
  exact (Invariant.lawful_growing.ends levels literal hx trivial).later fun _ => not_false

end PairLisp
