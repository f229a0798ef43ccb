import PairLisp.Proofs.Eval.Growth
import PairLisp.Proofs.Program.Session

/-!
# The table of procedures

A `defun` form may stand anywhere in a program: inside another call, behind a name that is computed,
in a statement that fails afterwards, or in the body of the procedure that it defines again. Wherever
it stands, it puts a single procedure into the table, which fits the name that it is put under, or it
fails and puts nothing there. As nothing else changes the table, all procedures of a session fit
their names (`Env.Orderly`), and no name is ever taken out of it.

The table is listed in the order of its keys. These are the names of the procedures, so the listing
is in the order of the names.
-/

namespace PairLisp

open Tables

/-! ## Procedures that fit their names -/

/-- The procedure may stand in a table under the name. -/
structure Procedure.Fits (p : Procedure) (name : String) : Prop where
  name_eq : p.name = name
  isName : Vocabulary.standard.isName name = true
  notPrimitive : ∀ op ∈ Registry.standard.operations, name ∉ op.aliases
  distinctParams : p.DistinctParams

/-- Every procedure of the environment fits the name that it is found under. -/
def Env.Orderly (env : Env) : Prop :=
  ∀ name p, env.procedures.get? name = some p → p.Fits name

/-- A procedure that is defined under a name fits it. -/
theorem Procedure.fits_of_ofFormals {name : String} {formals body : SExpr} {p : Procedure}
    (hname : Vocabulary.standard.isName name = true)
    (hfree : Registry.standard.contains name = false)
    (hp : Procedure.ofFormals name formals body = .ok p) : p.Fits name where
  name_eq := name_of_ofFormals hp
  isName := hname
  notPrimitive op hop hmem := by
    rw [Registry.contains_iff.2 ⟨op, hop, hmem⟩] at hfree
    exact Bool.noConfusion hfree
  distinctParams := distinctParams_of_ofFormals hp

namespace Tables

variable {t u : Tables}

/-- A step puts no procedure under a name that it does not fit. -/
theorem Step.fits (h : Step t u) (ht : ∀ name p, t.procedures.get? name = some p → p.Fits name) :
    ∀ name p, u.procedures.get? name = some p → p.Fits name := by
  cases h with
  | define hname hfree hp =>
    intro other q hq
    rw [Table.get?_insert] at hq
    split at hq
    · next heq =>
      obtain rfl := Option.some.inj hq
      rw [heq]
      exact Procedure.fits_of_ofFormals hname hfree hp
    · exact ht other q hq
  | capture hp => exact ht

/-- A step takes no name out of the table of procedures. -/
theorem Step.contains {name : String} (h : Step t u) (ht : t.procedures.contains name = true) :
    u.procedures.contains name = true := by
  cases h with
  | define _ _ _ => rw [Table.contains_insert, ht, Bool.or_true]
  | capture _ => exact ht

end Tables

/-! ## Evaluations -/

section Evaluation

variable (levels : Nat) (literal : Bool) (x : SExpr) (s : EvalState)

/-- An evaluation keeps the table of procedures in order. -/
theorem Env.Orderly.runFrom_eval {s : EvalState} (hs : s.env.Orderly) :
    ((eval levels literal x).runFrom s).2.env.Orderly :=
  (s.grows_runFrom_eval levels literal x).preserves (fun _ _ h => h.fits) hs

/-- However an evaluation ends, no name is taken out of the table of procedures. -/
theorem contains_runFrom_eval {name : String} (h : s.env.procedures.contains name = true) :
    ((eval levels literal x).runFrom s).2.env.procedures.contains name = true :=
  (s.grows_runFrom_eval levels literal x).preserves
    (P := fun t => t.procedures.contains name = true) (fun _ _ h => h.contains) h

end Evaluation

/-- A call whose head stands for `defun` defines the procedure that it is given, in the state that
the evaluation of its head has left, or it fails and leaves this state as it is. -/
theorem Eval.runFrom_defun_of_head {levels : Nat} {literal evaluated : Bool} {address : SExpr}
    {s t : EvalState} {a : Atom} {op : Operation} (data : SExpr)
    (hhead : (head (eval levels literal) address).runFrom s = (.ok (a, evaluated), t))
    (hcallee : Callee.resolve t literal evaluated a = .ok (.operation op))
    (hop : op.meaning = .form .defun) :
    let r := (eval (levels + 1) literal (.cons address data)).runFrom s
    (∃ e, r = (.error e, t)) ∨
      ∃ name formals body p env, data.toList? = some [.atom name, formals, body] ∧
        t.env.define name.text formals body = .ok (p, env) ∧
        r = (.ok (.atom name), { t with env }) := by
  rcases runFrom_form_of_head data hhead hcallee hop with hfail | ⟨args, hargs, hr⟩
  · exact .inl hfail
  · rw [hr, hargs]
    rcases Form.runFrom_defun_cases (eval levels true) args t with
      hfail | ⟨name, formals, body, p, env, rfl, hdefine, hvalue⟩
    · exact .inl hfail
    · exact .inr ⟨name, formals, body, p, env, rfl, hdefine, hvalue⟩

/-! ## The listing -/

/-- The procedures are listed under their names. -/
theorem Env.Orderly.map_name_values {env : Env} (henv : env.Orderly) :
    env.procedures.values.map Procedure.name = env.procedures.entries.map Prod.fst := by
  unfold Table.values
  rw [List.map_map]
  refine List.map_congr_left fun entry hentry => ?_
  exact (henv entry.1 entry.2 (Table.get?_eq_some_iff.2 hentry)).name_eq

/-- The listing of a table has every procedure once, in the order of the names. -/
theorem Env.Orderly.listing {env : Env} (henv : env.Orderly) :
    (env.procedures.values.map Procedure.name).Pairwise (· < ·) ∧
      ∀ name p, env.procedures.get? name = some p ↔ p ∈ env.procedures.values ∧ p.name = name := by
  constructor
  · rw [henv.map_name_values]
    exact env.procedures.sorted
  · intro name p
    constructor
    · exact fun hget => ⟨Table.mem_values_iff.2 ⟨name, hget⟩, (henv name p hget).name_eq⟩
    · rintro ⟨hmem, rfl⟩
      obtain ⟨name, hget⟩ := Table.mem_values_iff.1 hmem
      rw [(henv name p hget).name_eq]
      exact hget

/-! ## Sessions -/

theorem Env.orderly_empty : (∅ : Env).Orderly := by
  intro name p hget
  have hnone : (∅ : Table Procedure).get? name = some p := hget
  simp at hnone

theorem Statement.orderly_run {env : Env} (s : Statement) (henv : env.Orderly) :
    (s.run env).2.Orderly :=
  run_induction (fun x _ => Env.Orderly.runFrom_eval _ _ x (s := { env }) henv) henv

theorem Statement.contains_run {env : Env} (s : Statement) {name : String}
    (h : env.procedures.contains name = true) :
    (s.run env).2.procedures.contains name = true :=
  run_induction (P := fun env => env.procedures.contains name = true)
    (fun x _ => contains_runFrom_eval _ _ x { env } h) h

/-- Between two statements of a session the table of procedures is in order. -/
theorem Program.orderly_between (texts : List String) (text : String) (n : Nat) :
    (between texts text n).Orderly :=
  between_induction (fun _ s henv => s.orderly_run henv) Env.orderly_empty texts text n

theorem Program.contains_runAll {env : Env} {name : String} (texts : List String)
    (h : env.procedures.contains name = true) :
    (runAll env texts).procedures.contains name = true :=
  runAll_induction (P := fun env => env.procedures.contains name = true)
    (fun _ s h => s.contains_run h) texts h

/-- Between two statements of a session every procedure is found under its own name, which is a name
and none of a primitive operation, its parameters are distinct names, and the listing has every
procedure once, in the order of the names. Whatever is run or evaluated afterwards, and however it
ends, no name loses its procedure. A call of `defun`, whatever its head is and wherever it stands,
either defines a procedure or fails and leaves everything as it was. -/
theorem procedures_orderly (texts : List String) (text : String) (n : Nat) :
    let env := Program.between texts text n
    env.Orderly ∧
      (env.procedures.values.map Procedure.name).Pairwise (· < ·) ∧
      (∀ name p, env.procedures.get? name = some p ↔
        p ∈ env.procedures.values ∧ p.name = name) ∧
      (∀ name, env.procedures.contains name = true →
        ∀ more, (Program.runAll env more).procedures.contains name = true) ∧
      ∀ s : EvalState,
        (∀ name, s.env.procedures.contains name = true → ∀ levels literal x,
          ((eval levels literal x).runFrom s).2.env.procedures.contains name = true) ∧
        ∀ levels literal address data a evaluated t op,
          (Eval.head (eval levels literal) address).runFrom s = (.ok (a, evaluated), t) →
          Callee.resolve t literal evaluated a = .ok (.operation op) →
          op.meaning = .form .defun →
          let r := (eval (levels + 1) literal (.cons address data)).runFrom s
          (∃ e, r = (.error e, t)) ∨
            ∃ name formals body p env, data.toList? = some [.atom name, formals, body] ∧
              t.env.define name.text formals body = .ok (p, env) ∧
              r = (.ok (.atom name), { t with env }) := by
  intro env
  have henv : env.Orderly := Program.orderly_between texts text n
  refine ⟨henv, henv.listing.1, henv.listing.2, fun name h more => ?_, fun s => ⟨?_, ?_⟩⟩
  · exact Program.contains_runAll more h
  · exact fun name h levels literal x => contains_runFrom_eval levels literal x s h
  · intro levels literal address data a evaluated t op hhead hcallee hop
    exact Eval.runFrom_defun_of_head data hhead hcallee hop

/-- A procedure stays that a failing statement has defined, and the call of a computed `defun` with
a parameter given twice leaves it as it is. -/
theorem procedures_orderly_computed :
    let env := Program.between ["(list (defun f (x) x) (car 5))"] "" 0
    let address : SExpr := .ofList [.atom ⟨"car"⟩, .ofList [.atom ⟨"list"⟩,
      .ofList [.atom ⟨"quote"⟩, .atom ⟨"defun"⟩]]]
    let data : SExpr := .ofList [.atom ⟨"f"⟩, .ofList [.atom ⟨"x"⟩, .atom ⟨"x"⟩], .atom ⟨"x"⟩]
    env.Orderly ∧ env.procedures.contains "f" = true ∧
      (Program.runAll env ["(defun g (y) (f y)) (f"]).procedures.contains "f" = true ∧
      (Eval.head (eval 255 false) address).runFrom { env } = (.ok (⟨"defun"⟩, true), { env }) ∧
      ∃ e, (eval 256 false (.cons address data)).runFrom { env } = (.error e, { env }) := by
  intro env address data
  have hf : env.procedures.contains "f" = true := by decide +kernel
  have hhead : (Eval.head (eval 255 false) address).runFrom { env } =
      (.ok (⟨"defun"⟩, true), { env }) := by decide +kernel
  obtain ⟨op, hcallee, hop⟩ : ∃ op,
      Callee.resolve { env } false true ⟨"defun"⟩ = .ok (.operation op) ∧
        op.meaning = .form .defun := ⟨_, rfl, rfl⟩
  have hfailure : ((eval 256 false (.cons address data)).runFrom { env }).1 =
      .error (DefinitionError.duplicateParameter "x" "f") := by decide +kernel
  obtain ⟨henv, -, -, hmore, hstate⟩ :=
    procedures_orderly ["(list (defun f (x) x) (car 5))"] "" 0
  refine ⟨henv, hf, hmore "f" hf _, hhead, ?_⟩
  rcases (hstate { env }).2 255 false address data ⟨"defun"⟩ true { env } op hhead hcallee hop with
    hfail | ⟨_, _, _, _, _, _, _, hvalue⟩
  · exact hfail
  · rw [hvalue] at hfailure
    simp at hfailure

end PairLisp
