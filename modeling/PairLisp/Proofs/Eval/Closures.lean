import Mathlib.Data.List.Induction
import PairLisp.Proofs.Eval.Growth
import PairLisp.Proofs.Handle

/-!
# The closures of a statement

The closures of a statement stand in a row, and the number of a closure is its place in the row. They
can also be kept in a table under the texts of their handles (`Closures.table`), and then a new
closure is put under the handle whose number is one more than the size of the table. That this key is
a new one, so that no closure is ever lost, rests on the keys: they are the handles from one up to
the size of the table, and nothing takes a key away (`closures_numbered`).

The two ways of keeping closures agree: one looks up a handle in the row or in the table.
-/

namespace PairLisp

open Tables

/-! ## Closures under their handles -/

namespace Closures

variable {cs : Closures} {p q : Procedure}

/-- The closures under the texts of their handles. -/
def table (cs : Closures) : Table Procedure :=
  (∅ : Table Procedure).insertAll
    (cs.captured.toList.zipIdx.map fun entry => ((Atom.handle (entry.2 + 1)).text, entry.1))

theorem table_empty : (∅ : Closures).table = ∅ := rfl

/-- A new closure is put under the text of its handle. -/
theorem table_capture (cs : Closures) (p : Procedure) :
    (cs.capture p).2.table = cs.table.insert (cs.capture p).1.text p := by
  show (∅ : Table Procedure).insertAll ((cs.captured.push p).toList.zipIdx.map _) = _
  rw [Array.toList_push, List.zipIdx_append, List.map_append]
  unfold Table.insertAll
  rw [List.foldl_append]
  simp [table, Table.insertAll, capture, size]

/-- Every collection of closures comes about by making one closure after the other. -/
theorem capture_induction {P : Closures → Prop} (empty : P ∅)
    (capture : ∀ cs p, P cs → P (cs.capture p).2) (cs : Closures) : P cs := by
  obtain ⟨⟨ps⟩⟩ := cs
  induction ps using List.reverseRecOn with
  | nil => exact empty
  | append_singleton ps p ih =>
    have hpush : (Closures.capture ⟨⟨ps⟩⟩ p).2 = ⟨⟨ps ++ [p]⟩⟩ := by simp [Closures.capture]
    rw [← hpush]
    exact capture _ p ih

/-- Besides the new closure, all that is found was there before. -/
theorem find?_capture_of_ne {a : Atom} (h : a ≠ (cs.capture p).1) :
    (cs.capture p).2.find? a = cs.find? a := by
  cases hfind : cs.find? a with
  | some q => exact find?_capture_of_find? hfind
  | none =>
    rw [Option.eq_none_iff_forall_ne_some]
    intro q hq
    obtain ⟨n, rfl, hn⟩ := exists_of_find? hq
    have hn' : (cs.captured.push p)[n]? = some q := hn
    rw [find?_handle] at hfind
    -- the closure would stand behind those that were there, in the place of the new one
    rw [Array.getElem?_push, hfind] at hn'
    split at hn'
    · next hplace => exact h (by rw [hplace]; rfl)
    · simp at hn'

/-- The table has under the text of an atom the closure that the atom names. -/
theorem get?_table (cs : Closures) (a : Atom) : cs.table.get? a.text = cs.find? a := by
  induction cs using capture_induction with
  | empty =>
    rw [table_empty, Table.get?_empty]
    refine (Option.eq_none_iff_forall_ne_some.2 fun p hp => ?_).symm
    obtain ⟨n, -, hn⟩ := exists_of_find? hp
    have hn' : (#[] : Array Procedure)[n]? = some p := hn
    simp at hn'
  | capture cs p ih =>
    rw [table_capture, Table.get?_insert]
    split
    · next htext =>
      have heq : a = (cs.capture p).1 := congrArg Atom.mk htext
      rw [heq, find?_capture]
    · next htext =>
      rw [ih, find?_capture_of_ne fun heq => htext (congrArg Atom.text heq)]

/-- The keys of the table are the handles from one up to the number of closures. -/
theorem contains_table_iff {key : String} :
    cs.table.contains key = true ↔ ∃ n, 1 ≤ n ∧ n ≤ cs.size ∧ key = (Atom.handle n).text := by
  have hkey : cs.table.get? key = cs.find? ⟨key⟩ := get?_table cs ⟨key⟩
  rw [Table.contains_iff]
  constructor
  · rintro ⟨p, hp⟩
    rw [hkey] at hp
    obtain ⟨n, heq, hn⟩ := exists_of_find? hp
    have hlt : n < cs.size := (Array.getElem?_eq_some_iff.1 hn).1
    exact ⟨n + 1, by omega, by omega, congrArg Atom.text heq⟩
  · rintro ⟨n, hpos, hle, rfl⟩
    obtain ⟨k, rfl⟩ : ∃ k, n = k + 1 := ⟨n - 1, by omega⟩
    have hlt : k < cs.captured.size := hle
    exact ⟨cs.captured[k], by rw [get?_table, find?_handle, Array.getElem?_eq_getElem hlt]⟩

/-- The handle of a new closure is no key yet. -/
theorem contains_table_handle (cs : Closures) :
    cs.table.contains (Atom.handle (cs.size + 1)).text = false := by
  refine Bool.eq_false_iff.2 fun h => ?_
  obtain ⟨n, -, hle, htext⟩ := contains_table_iff.1 h
  have hn : cs.size + 1 = n := Atom.handle_injective (congrArg Atom.mk htext)
  omega

theorem size_table (cs : Closures) : cs.table.size = cs.size := by
  induction cs using capture_induction with
  | empty => rfl
  | capture cs p ih =>
    have hfresh : cs.table.contains (cs.capture p).1.text = false := contains_table_handle cs
    have hsize : (cs.capture p).2.size = cs.size + 1 := Array.size_push p
    rw [table_capture, Table.size_insert hfresh, ih, hsize]

end Closures

/-! ## Evaluations one after the other -/

namespace Tables

variable {t u : Tables}

/-- A step leaves every closure under its handle. -/
theorem Step.find? {a : Atom} {p : Procedure} (h : Step t u) (ht : t.closures.find? a = some p) :
    u.closures.find? a = some p := by
  cases h with
  | define _ _ _ => exact ht
  | capture _ => exact Closures.find?_capture_of_find? ht

theorem Step.size_le (h : Step t u) : t.closures.size ≤ u.closures.size := by
  cases h with
  | define _ _ _ => exact Nat.le_refl _
  | capture _ =>
    show t.closures.captured.size ≤ (t.closures.captured.push _).size
    rw [Array.size_push]
    exact Nat.le_succ _

/-- A step makes no closure but with distinct names for its parameters. -/
theorem Step.distinctParams (h : Step t u) (ht : ∀ p ∈ t.closures.captured, p.DistinctParams) :
    ∀ p ∈ u.closures.captured, p.DistinctParams := by
  cases h with
  | define _ _ _ => exact ht
  | capture hp =>
    intro q hq
    rcases Array.mem_push.1 hq with hq | rfl
    · exact ht q hq
    · exact Procedure.distinctParams_of_ofFormals hp

end Tables

/-- An expression that is to be evaluated at some depth. -/
structure Request where
  depth : Nat
  literal : Bool
  x : SExpr

/-- The state after evaluations one after the other, whatever came of them. -/
def EvalState.after (s : EvalState) (requests : List Request) : EvalState :=
  requests.foldl (fun s r => ((evalAt r.depth r.literal r.x).runFrom s).2) s

theorem EvalState.grows_after (s : EvalState) (requests : List Request) :
    Grows s.tables (s.after requests).tables := by
  induction requests generalizing s with
  | nil => exact Grows.refl s.tables
  | cons r requests ih =>
    exact (s.grows_runFrom_eval (Limits.evaluation - r.depth) r.literal r.x).trans (ih _)

/-- A call whose head stands for `lambda` makes a closure, in the state that the evaluation of its
head has left, or it fails and leaves this state as it is. -/
theorem Eval.runFrom_lambda_of_head {levels : Nat} {literal evaluated : Bool} {address : SExpr}
    {s t : EvalState} {a : Atom} {op : Operation} (data : SExpr)
    (hhead : (head (eval levels literal) address).runFrom s = (.ok (a, evaluated), t))
    (hcallee : Callee.resolve t literal evaluated a = .ok (.operation op))
    (hop : op.meaning = .form .lambda) :
    let r := (eval (levels + 1) literal (.cons address data)).runFrom s
    (∃ e, r = (.error e, t)) ∨
      ∃ formals body p, data.toList? = some [formals, body] ∧
        Procedure.ofFormals "lambda" formals body = .ok p ∧
        r = (.ok (.atom (t.closures.capture p).1), { t with closures := (t.closures.capture p).2 }) := by
  rcases runFrom_form_of_head data hhead hcallee hop with hfail | ⟨args, hargs, hr⟩
  · exact .inl hfail
  · rw [hr, hargs]
    rcases Form.runFrom_lambda_cases (eval levels true) args t with
      hfail | ⟨formals, body, p, rfl, hp, hvalue⟩
    · exact .inl hfail
    · exact .inr ⟨formals, body, p, rfl, hp, hvalue⟩

/-- A closure that has been made stays under its handle. -/
theorem EvalState.get?_table_after {s : EvalState} {key : String} {p : Procedure}
    (h : s.closures.table.get? key = some p) (requests : List Request) :
    (s.after requests).closures.table.get? key = some p := by
  have hkey : ∀ cs : Closures, cs.table.get? key = cs.find? ⟨key⟩ := fun cs =>
    Closures.get?_table cs ⟨key⟩
  rw [hkey] at h ⊢
  exact (s.grows_after requests).preserves (P := fun t => t.closures.find? ⟨key⟩ = some p)
    (fun _ _ hstep => hstep.find?) h

theorem EvalState.size_table_le_after (s : EvalState) (requests : List Request) :
    s.closures.table.size ≤ (s.after requests).closures.table.size := by
  rw [Closures.size_table, Closures.size_table]
  exact (s.grows_after requests).preserves (P := fun t => s.closures.size ≤ t.closures.size)
    (fun _ _ hstep hle => Nat.le_trans hle hstep.size_le) (Nat.le_refl _)

/-- The closures of a statement have distinct names for their parameters. -/
theorem EvalState.distinctParams_after {env : Env} {requests : List Request} {key : String}
    {p : Procedure} (h : (EvalState.after { env } requests).closures.table.get? key = some p) :
    p.DistinctParams := by
  have hstart : ∀ p ∈ (∅ : Closures).captured, p.DistinctParams := by
    intro p hp
    have hmem : p ∈ (#[] : Array Procedure) := hp
    simp at hmem
  have hall := (EvalState.grows_after { env } requests).preserves
    (P := fun t => ∀ p ∈ t.closures.captured, p.DistinctParams)
    (fun _ _ hstep => hstep.distinctParams) hstart
  have hfind : (EvalState.after { env } requests).closures.find? ⟨key⟩ = some p :=
    (Closures.get?_table _ ⟨key⟩).symm.trans h
  obtain ⟨n, -, hn⟩ := Closures.exists_of_find? hfind
  exact hall p (Array.mem_of_getElem? hn)

/-- Take a state without closures and any evaluations after it, whatever comes of them. The closures
then stand in a table under their handles, which are numbered from one up to the size of the table,
and have distinct names for their parameters. Further evaluations make the table no smaller and leave
every closure under its handle. A call of `lambda` in any state, whatever its head is and wherever it
stands, either makes a closure and has its handle, which was no key, for its value, or it fails and
leaves everything as it was. -/
theorem closures_numbered (env : Env) (requests : List Request) :
    let s := EvalState.after { env } requests
    (∀ a, s.closures.find? a = s.closures.table.get? a.text) ∧
      s.closures.size = s.closures.table.size ∧
      (∀ key, s.closures.table.contains key = true ↔
        ∃ n, 1 ≤ n ∧ n ≤ s.closures.table.size ∧ key = (Atom.handle n).text) ∧
      (∀ key p, s.closures.table.get? key = some p → p.DistinctParams) ∧
      (∀ more, s.closures.table.size ≤ (s.after more).closures.table.size ∧
        ∀ key p, s.closures.table.get? key = some p →
          (s.after more).closures.table.get? key = some p) ∧
      ∀ u levels literal address data a evaluated t op,
        (Eval.head (eval levels literal) address).runFrom u = (.ok (a, evaluated), t) →
        Callee.resolve t literal evaluated a = .ok (.operation op) →
        op.meaning = .form .lambda →
        let r := (eval (levels + 1) literal (.cons address data)).runFrom u
        (∃ e, r = (.error e, t)) ∨ ∃ p closures,
          let handle := Atom.handle (t.closures.table.size + 1)
          r = (.ok (.atom handle), { t with closures }) ∧
            t.closures.table.contains handle.text = false ∧
            closures.table = t.closures.table.insert handle.text p ∧ p.DistinctParams := by
  intro s
  have hkeys : ∀ key, s.closures.table.contains key = true ↔
      ∃ n, 1 ≤ n ∧ n ≤ s.closures.table.size ∧ key = (Atom.handle n).text := by
    intro key
    rw [Closures.size_table]
    exact Closures.contains_table_iff
  refine ⟨fun a => (Closures.get?_table _ a).symm, (Closures.size_table _).symm, hkeys,
    fun key p h => EvalState.distinctParams_after h, fun more => ⟨?_, ?_⟩, ?_⟩
  · exact s.size_table_le_after more
  · exact fun key p h => EvalState.get?_table_after h more
  · intro u levels literal address data a evaluated t op hhead hcallee hop
    rcases Eval.runFrom_lambda_of_head data hhead hcallee hop with
      hfail | ⟨formals, body, p, -, hp, hvalue⟩
    · exact .inl hfail
    · refine .inr ⟨p, (t.closures.capture p).2, ?_⟩
      dsimp only
      rw [Closures.size_table]
      exact ⟨hvalue, Closures.contains_table_handle t.closures, Closures.table_capture t.closures p,
        Procedure.distinctParams_of_ofFormals hp⟩

/-- The second of two closures is made in an evaluation that fails, and is still there when the third
one is made. -/
theorem closures_numbered_failure :
    let request (x : SExpr) : Request := { depth := 0, literal := false, x }
    let identity : SExpr := .ofList [.atom ⟨"lambda"⟩, .ofList [.atom ⟨"x"⟩], .atom ⟨"x"⟩]
    let failing : SExpr := .ofList [.atom ⟨"list"⟩, identity,
      .ofList [.atom ⟨"car"⟩, .atom ⟨"5"⟩]]
    let s := EvalState.after { env := ∅ } [request identity, request failing]
    let data : SExpr := .ofList [.ofList [.atom ⟨"y"⟩], .atom ⟨"y"⟩]
    let p : Procedure := { name := "lambda", params := ["x"], body := .atom ⟨"x"⟩ }
    s.closures.table.size = 2 ∧ s.closures.table.get? "#<lambda:2>" = some p ∧ p.DistinctParams ∧
      (s.after [request failing]).closures.table.get? "#<lambda:2>" = some p ∧
      (Eval.head (eval 255 true) (.atom ⟨"λ"⟩)).runFrom s = (.ok (⟨"λ"⟩, false), s) ∧
      s.closures.table.contains "#<lambda:3>" = false ∧
      ((eval 256 true (.cons (.atom ⟨"λ"⟩) data)).runFrom s).1 = .ok (.atom ⟨"#<lambda:3>"⟩) := by
  intro request identity failing s data p
  have hsize : s.closures.table.size = 2 := by decide +kernel
  have hp : s.closures.table.get? "#<lambda:2>" = some p := by decide +kernel
  have hhead : (Eval.head (eval 255 true) (.atom ⟨"λ"⟩)).runFrom s = (.ok (⟨"λ"⟩, false), s) := rfl
  obtain ⟨op, hcallee, hop⟩ : ∃ op, Callee.resolve s true false ⟨"λ"⟩ = .ok (.operation op) ∧
      op.meaning = .form .lambda := ⟨_, rfl, rfl⟩
  have hvalue : ((eval 256 true (.cons (.atom ⟨"λ"⟩) data)).runFrom s).1 =
      .ok (.atom ⟨"#<lambda:3>"⟩) := by decide +kernel
  obtain ⟨-, -, -, hparams, hmore, hlambda⟩ :=
    closures_numbered ∅ [request identity, request failing]
  have hfresh : s.closures.table.contains "#<lambda:3>" = false := by
    rcases hlambda s 255 true (.atom ⟨"λ"⟩) data ⟨"λ"⟩ false s op hhead hcallee hop with
      ⟨e, hfail⟩ | ⟨_, _, -, hfresh, -, -⟩
    · rw [hfail] at hvalue
      simp at hvalue
    · rw [hsize] at hfresh
      exact hfresh
  exact ⟨hsize, hp, hparams _ p hp, (hmore [request failing]).2 _ p hp, hhead, hfresh, hvalue⟩

end PairLisp
