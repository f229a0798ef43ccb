import PairLisp.Proofs.Eval.Step

/-!
# Calls that are refused

What is called takes a list of arguments of a certain length. A call with other data is refused
before any argument is evaluated, so that it leaves the state in which the evaluation of its head
has ended (`evalAt_refused`).

Procedures and operations look at the data in the same way: what they ask for is a
`Callee.Signature`, and `Signature.refusal` is the error of data that do not meet it. Operations
alone have an error of their own for a call without arguments. At the limit of the depth of
evaluation nothing is called, so the error is another one there.
-/

namespace PairLisp

open EvalM

namespace Callee

/-- What a procedure or an operation asks of the data of a call. -/
structure Signature where
  /-- The name under which errors report what is called. -/
  name : String
  arity : Arity
  /-- Whether a call without arguments is an error of its own. -/
  needsArguments : Bool
deriving DecidableEq

/-- The signature of what is called, unless the head stands for a value and nothing is called. -/
def signature? : Callee → Option Signature
  | .value _ => none
  | .procedure p => some { name := p.name, arity := .exact p.arity, needsArguments := false }
  | .operation op =>
    some { name := op.name, arity := op.arity, needsArguments := op.needsArguments }

namespace Signature

variable {sig : Signature} {data : SExpr}

/-- The data are no list of as many arguments as the arity allows. -/
def Refuses (sig : Signature) (data : SExpr) : Prop :=
  ∀ args, data.toList? = some args → sig.arity.allows args.length = false

/-- Whether the data are no list, or empty where there have to be arguments. -/
def misshapen (sig : Signature) (data : SExpr) : Bool :=
  (sig.needsArguments && data.isNil) || data.toList?.isNone

/-- The error of a call with data that are refused. -/
def refusal (sig : Signature) (data : SExpr) : Error :=
  if sig.needsArguments && data.isNil then StructuralError.needsArguments sig.name
  else
    match data.toList? with
    | some args => DefinitionError.argumentCount sig.name sig.arity.bound args.length
    | none => StructuralError.improperArguments sig.name data

theorem kind_refusal (sig : Signature) (data : SExpr) :
    (sig.refusal data).kind =
      if sig.misshapen data then "StructuralError" else "DefinitionError" := by
  unfold refusal misshapen
  cases sig.needsArguments && data.isNil with
  | true => rfl
  | false =>
    cases data.toList? with
    | none => rfl
    | some args => rfl

end Signature

end Callee

namespace Eval

open Callee

variable {callee : Callee} {sig : Signature} {data : SExpr} {inward : SExpr → EvalM SExpr}

/-- A call that is refused evaluates nothing. -/
theorem callCallee_of_refuses (hsig : callee.signature? = some sig) (hdata : sig.Refuses data) :
    callCallee inward data (.ok callee) = fail (sig.refusal data) := by
  cases callee with
  | value x => simp [signature?] at hsig
  | procedure p =>
    obtain rfl := Option.some.inj hsig
    show callProcedure inward p data = _
    rw [callProcedure_eq]
    unfold argumentList Signature.refusal
    cases hargs : data.toList? with
    | none => rfl
    | some args =>
      have hne : args.length ≠ p.arity := by simpa [Arity.allows] using hdata args hargs
      rw [pure_bind, applyProcedure, if_pos hne]
      rfl
  | operation op =>
    obtain rfl := Option.some.inj hsig
    show callOperation inward op data = _
    rw [callOperation_eq]
    unfold argumentList Signature.refusal
    dsimp only
    split
    · rfl
    · cases hargs : data.toList? with
      | none => rfl
      | some args =>
        have hcheck : op.arity.check op.name args.length =
            .error (.argumentCount op.name op.arity.bound args.length) := by
          unfold Arity.check
          rw [hdata args hargs]
          rfl
        rw [pure_bind, applyOperation, hcheck]

/-- With no levels left the head of a call has to be a name that is not evaluated. -/
theorem eq_of_head_zero {literal evaluated : Bool} {address : SExpr} {a : Atom} {s t : EvalState}
    (h : (head (eval 0 literal) address).runFrom s = (.ok (a, evaluated), t)) : t = s := by
  by_cases hreserved : ∃ b, address = .atom b ∧ Registry.standard.isReserved b.text = true
  · obtain ⟨b, rfl, hb⟩ := hreserved
    rw [head_of_isReserved _ hb] at h
    exact (congrArg Prod.snd h).symm
  · have hfree : ∀ b, address = .atom b → Registry.standard.isReserved b.text = false := by
      intro b hb
      exact Bool.eq_false_iff.2 fun hreserved' => hreserved ⟨b, hb, hreserved'⟩
    rw [head_of_not_isReserved _ hfree] at h
    exact absurd (congrArg (Except.isOk ∘ Prod.fst) h) Bool.false_ne_true

end Eval

open Callee

/-- A call of a procedure, a closure or an operation whose data are no list of arguments, or one of
a length that is not allowed, fails, and the state is the one that the evaluation of the head has
left. The data decide on the error, unless the call stands too deep. -/
theorem evalAt_refused {depth : Nat} {literal evaluated : Bool} {address data : SExpr} {a : Atom}
    {s t : EvalState} {callee : Callee} {sig : Signature}
    (hhead : (Eval.head (evalAt (depth + 1) literal) address).runFrom s = (.ok (a, evaluated), t))
    (hcallee : Callee.resolve t literal evaluated a = .ok callee)
    (hsig : callee.signature? = some sig) (hdata : sig.Refuses data) :
    let e : Error :=
      if depth < Limits.evaluation then sig.refusal data else StructuralError.evaluationLimit
    (evalAt depth literal (.cons address data)).runFrom s = (.error e, t) ∧
      e.kind =
        if sig.misshapen data ∨ Limits.evaluation ≤ depth then "StructuralError"
        else "DefinitionError" := by
  intro e
  unfold evalAt at hhead ⊢
  by_cases hdepth : depth < Limits.evaluation
  · have he : e = sig.refusal data := if_pos hdepth
    obtain ⟨levels, hlevels⟩ : ∃ levels, Limits.evaluation - depth = levels + 1 :=
      ⟨Limits.evaluation - depth - 1, by omega⟩
    have hlevels' : Limits.evaluation - (depth + 1) = levels := by omega
    rw [hlevels'] at hhead
    rw [hlevels, Eval.runFrom_eval_of_head hhead, hcallee, Eval.callCallee_of_refuses hsig hdata, he,
      Signature.kind_refusal, runFrom_fail]
    simp [Nat.not_le.2 hdepth]
  · have he : e = StructuralError.evaluationLimit := if_neg hdepth
    have hlimit := Nat.not_lt.1 hdepth
    rw [Nat.sub_eq_zero_of_le (Nat.le_succ_of_le hlimit)] at hhead
    rw [Nat.sub_eq_zero_of_le hlimit, Eval.eq_of_head_zero hhead, he, if_pos (.inr hlimit)]
    exact ⟨rfl, rfl⟩

/-- The head makes a closure with one parameter, which is called with a definition and a call of an
unknown function. The closure stays, and the definition is not made. -/
theorem evalAt_refused_closure :
    let address : SExpr :=
      .ofList [.atom ⟨"lambda"⟩, .ofList [.atom ⟨"x"⟩], .atom ⟨"x"⟩]
    let data : SExpr :=
      .ofList [.ofList [.atom ⟨"defun"⟩, .atom ⟨"f"⟩, .ofList [.atom ⟨"y"⟩], .atom ⟨"y"⟩],
        .ofList [.atom ⟨"g"⟩]]
    let p : Procedure := { name := "lambda", params := ["x"], body := .atom ⟨"x"⟩ }
    let s : EvalState := { env := ∅ }
    let t : EvalState := { s with closures := { captured := #[p] } }
    let sig : Signature := { name := "lambda", arity := .exact 1, needsArguments := false }
    (Eval.head (evalAt 4 true) address).runFrom s = (.ok (⟨"#<lambda:1>"⟩, true), t) ∧
      Callee.resolve t true true ⟨"#<lambda:1>"⟩ = .ok (.procedure p) ∧ sig.Refuses data ∧
      (evalAt 3 true (.cons address data)).runFrom s =
        (.error (.definition (.argumentCount "lambda" 1 2)), t) := by
  intro address data p s t sig
  have hhead : (Eval.head (evalAt 4 true) address).runFrom s =
      (.ok (⟨"#<lambda:1>"⟩, true), t) := by
    decide +kernel
  have hcallee : Callee.resolve t true true ⟨"#<lambda:1>"⟩ = .ok (.procedure p) := by
    rfl
  have hdata : sig.Refuses data := by
    intro args hargs
    obtain rfl := Option.some.inj ((SExpr.toList?_ofList _).symm.trans hargs)
    rfl
  exact ⟨hhead, hcallee, hdata, (evalAt_refused hhead hcallee rfl hdata).1⟩

/-- At the limit of the depth a number of arguments that is not allowed makes no difference. -/
theorem not_definitionError_at_limit :
    ¬ ∀ (depth : Nat) (literal evaluated : Bool) (address data : SExpr) (a : Atom)
      (s t : EvalState) (callee : Callee) (sig : Signature),
      (Eval.head (evalAt (depth + 1) literal) address).runFrom s = (.ok (a, evaluated), t) →
      Callee.resolve t literal evaluated a = .ok callee → callee.signature? = some sig →
      sig.Refuses data → ∃ e, (evalAt depth literal (.cons address data)).runFrom s = (.error e, t) ∧
        e.kind = if sig.misshapen data then "StructuralError" else "DefinitionError" := by
  intro h
  let op : Operation :=
    { name := "car", synonyms := ["first"], arity := .exact 1, meaning := .function .car,
      reserved := true }
  let sig : Signature := { name := "car", arity := .exact 1, needsArguments := true }
  let data : SExpr := .ofList [.atom ⟨"1"⟩, .atom ⟨"2"⟩]
  let s : EvalState := { env := ∅ }
  have hhead : (Eval.head (evalAt 257 false) (.atom ⟨"car"⟩)).runFrom s =
      (.ok (⟨"car"⟩, false), s) := by
    decide +kernel
  have hcallee : Callee.resolve s false false ⟨"car"⟩ = .ok (.operation op) := rfl
  have hdata : sig.Refuses data := by
    intro args hargs
    obtain rfl := Option.some.inj ((SExpr.toList?_ofList _).symm.trans hargs)
    rfl
  have hlimit : (evalAt 256 false (.cons (.atom ⟨"car"⟩) data)).runFrom s =
      (.error (.structural .evaluationLimit), s) := rfl
  obtain ⟨e, he, hkind⟩ := h 256 false false _ data _ s s _ sig hhead hcallee rfl hdata
  obtain rfl : .structural .evaluationLimit = e :=
    Except.error.inj (congrArg Prod.fst (hlimit.symm.trans he))
  exact absurd hkind (by decide +kernel)

end PairLisp
