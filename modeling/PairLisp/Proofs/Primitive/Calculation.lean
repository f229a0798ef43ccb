import PairLisp.Primitive.Builtin
import PairLisp.Proofs.Primitive.Argument

/-!
# Exact arithmetic

Sum, difference, product and quotient calculate step by step from the left. A `Calculation` says what
the exact result of each step is, without regard to the range of numbers: `Calculation.after` is the
result of the first steps. A step fails if it divides by zero or if its exact result is out of range
(`Calculation.Fails`), and a calculation comes to its exact result, or to the error of the first step
that fails (`Calculation.Outcome`).

The arithmetic primitives do the calculation for all numbers that their arguments stand for
(`Builtin.apply_arithmetic`). They look at all arguments before the first step, so a fault in the last
argument comes before a failure of the first step.
-/

namespace PairLisp

/-- Steps from a first number, each with one operand, under the name that errors show. -/
structure Calculation where
  operation : String
  /-- The exact result of a step. -/
  step : Int → Int → Int
  /-- Whether a step divides by its operand. -/
  divides : Bool := false
  start : Int
  operands : List Int

namespace Calculation

/-- The exact result of the first `k` steps. -/
def after (c : Calculation) (k : Nat) : Int := (c.operands.take k).foldl c.step c.start

/-- The error of the step behind the first `k` ones. -/
inductive Fails (c : Calculation) (k : Nat) : Error → Prop where
  | zero (hdivides : c.divides = true) (hk : c.operands[k]? = some 0) :
    Fails c k (ArithmeticError.divisionByZero c.operation)
  | overflow {n : Int} (hk : c.operands[k]? = some n) (hzero : c.divides = true → n ≠ 0)
    (hrange : ¬ Integer.InRange (c.after (k + 1))) :
    Fails c k (ArithmeticError.overflow c.operation)

/-- What a calculation comes to: its exact result, or the error of the first step that fails. -/
inductive Outcome (c : Calculation) : Except Error Int → Prop where
  | exact (h : ∀ k e, ¬ c.Fails k e) : Outcome c (.ok (c.after c.operands.length))
  | failure {k : Nat} {e : Error} (h : c.Fails k e) (hfirst : ∀ j < k, ∀ e', ¬ c.Fails j e') :
    Outcome c (.error e)

/-- One step, with the tests that it makes. -/
def attempt (c : Calculation) (total n : Int) : Except Error Int :=
  if c.divides = true ∧ n = 0 then .error (ArithmeticError.divisionByZero c.operation)
  else Arithmetic.checked c.operation (c.step total n)

/-- The steps from left to right, each with its tests. -/
def run (c : Calculation) : Except Error Int := c.operands.foldlM c.attempt c.start

/-- The calculation that is left after a first step with the given result. -/
def next (c : Calculation) (total : Int) (ns : List Int) : Calculation :=
  { c with start := total, operands := ns }

variable {c : Calculation} {n : Int} {ns : List Int} {e : Error} {k : Nat}

theorem run_of_cons (h : c.operands = n :: ns) :
    c.run = c.attempt c.start n >>= fun total => (c.next total ns).run := by
  unfold run
  rw [h, List.foldlM_cons]
  rfl

theorem after_succ (h : c.operands = n :: ns) (k : Nat) :
    c.after (k + 1) = (c.next (c.step c.start n) ns).after k := by
  unfold after
  rw [h]
  rfl

/-- The first step fails with the error that its tests find. -/
theorem fails_zero_iff (h : c.operands = n :: ns) :
    c.Fails 0 e ↔ c.attempt c.start n = .error e := by
  have hoperand : c.operands[0]? = some n := by rw [h]; rfl
  have hafter : c.after 1 = c.step c.start n := after_succ h 0
  unfold attempt Arithmetic.checked
  constructor
  · intro hfails
    cases hfails with
    | zero hdivides hk =>
      have hn : n = 0 := Option.some.inj (hoperand.symm.trans hk)
      rw [if_pos ⟨hdivides, hn⟩]
    | @overflow m hk hzero hrange =>
      have hm : n = m := Option.some.inj (hoperand.symm.trans hk)
      rw [hafter] at hrange
      rw [if_neg fun hz => hzero hz.1 (hm ▸ hz.2), if_neg hrange]
  · intro hattempt
    split at hattempt
    · next hz =>
      rw [← Except.error.inj hattempt]
      exact .zero hz.1 (hz.2 ▸ hoperand)
    · next hz =>
      split at hattempt
      · simp at hattempt
      · next hrange =>
        rw [← Except.error.inj hattempt]
        refine .overflow hoperand (fun hdivides hn => hz ⟨hdivides, hn⟩) ?_
        rw [hafter]
        exact hrange

/-- The later steps are those of the calculation that is left. -/
theorem fails_succ_iff (h : c.operands = n :: ns) :
    c.Fails (k + 1) e ↔ (c.next (c.step c.start n) ns).Fails k e := by
  have hoperand : c.operands[k + 1]? = ns[k]? := by rw [h]; rfl
  constructor
  · intro hfails
    cases hfails with
    | zero hdivides hk => exact .zero hdivides (hoperand.symm.trans hk)
    | overflow hk hzero hrange =>
      rw [after_succ h] at hrange
      exact .overflow (hoperand.symm.trans hk) hzero hrange
  · intro hfails
    cases hfails with
    | zero hdivides hk => exact .zero hdivides (hoperand.trans hk)
    | overflow hk hzero hrange =>
      rw [← after_succ h] at hrange
      exact .overflow (hoperand.trans hk) hzero hrange

/-- A step that passes its tests has the exact result. -/
theorem eq_step_of_attempt {total m : Int} (h : c.attempt total n = .ok m) :
    m = c.step total n := by
  unfold attempt Arithmetic.checked at h
  split at h
  · simp at h
  · split at h
    · exact (Except.ok.inj h).symm
    · simp at h

/-- The steps with their tests come to the outcome of the calculation. -/
theorem outcome_run (c : Calculation) : c.Outcome c.run := by
  generalize hns : c.operands = ns
  induction ns generalizing c with
  | nil =>
    have hnone : ∀ k e, ¬ c.Fails k e := by
      intro k e hfails
      cases hfails with
      | zero _ hk => simp [hns] at hk
      | overflow hk => simp [hns] at hk
    have hrun : c.run = .ok (c.after c.operands.length) := by
      unfold run after
      rw [hns]
      rfl
    rw [hrun]
    exact .exact hnone
  | cons n ns ih =>
    rw [run_of_cons hns]
    cases hfirst : c.attempt c.start n with
    | error e =>
      refine .failure ((fails_zero_iff hns).2 hfirst) fun j hj => ?_
      omega
    | ok total =>
      have htotal := eq_step_of_attempt hfirst
      subst htotal
      have hpass : ∀ e, ¬ c.Fails 0 e := by
        intro e hfails
        rw [(fails_zero_iff hns).1 hfails] at hfirst
        simp at hfirst
      rw [ok_bind]
      have hrest := ih (c.next (c.step c.start n) ns) rfl
      generalize (c.next (c.step c.start n) ns).run = r at hrest
      cases hrest with
      | exact hnone =>
        have hlength : c.after c.operands.length =
            (c.next (c.step c.start n) ns).after ns.length := by
          rw [hns]
          exact after_succ hns ns.length
        show c.Outcome (.ok ((c.next (c.step c.start n) ns).after ns.length))
        rw [← hlength]
        refine .exact fun k e => ?_
        cases k with
        | zero => exact hpass e
        | succ k => exact fun hfails => hnone k e ((fails_succ_iff hns).1 hfails)
      | @failure k e hfails hearlier =>
        refine .failure ((fails_succ_iff hns).2 hfails) fun j hj => ?_
        cases j with
        | zero => exact hpass
        | succ j =>
          intro e' hfails'
          exact hearlier j (by omega) e' ((fails_succ_iff hns).1 hfails')

end Calculation

/-! ## The arithmetic primitives -/

namespace Builtin

/-- The functions that calculate with any number of numbers. -/
def arithmetic : List Builtin := [.sum, .difference, .product, .quotient]

/-- What an arithmetic function calculates of a sequence of numbers. A difference of a single number
is its negative. -/
def calculation : Builtin → List Int → Option Calculation
  | sum, ns => some { operation := "sum", step := (· + ·), start := 0, operands := ns }
  | product, ns => some { operation := "product", step := (· * ·), start := 1, operands := ns }
  | difference, [n] =>
    some { operation := "negation", step := (· - ·), start := 0, operands := [n] }
  | difference, n :: ns =>
    some { operation := "difference", step := (· - ·), start := n, operands := ns }
  | quotient, n :: ns =>
    some { operation := "quotient", step := Int.tdiv, divides := true, start := n, operands := ns }
  | _, _ => none

/-- An arithmetic function runs its calculation on the numbers that its arguments stand for. -/
theorem exists_run {f : Builtin} (hf : f ∈ arithmetic) :
    ∃ g, f.apply = fold g ∧ ∀ ns, ns ≠ [] → ∃ c, calculation f ns = some c ∧ g ns = c.run := by
  have hplain : ∀ (operation : String) (step : Int → Int → Int) (start : Int) (ns : List Int),
      ns.foldlM (fun total n => Arithmetic.checked operation (step total n)) start =
        ({ operation, step, start, operands := ns } : Calculation).run := by
    intro operation step start ns
    -- no step divides, so that no step tests its operand
    rfl
  simp only [arithmetic, List.mem_cons, List.not_mem_nil, or_false] at hf
  rcases hf with rfl | rfl | rfl | rfl
  · exact ⟨Arithmetic.sum, rfl, fun ns _ => ⟨_, rfl, hplain "sum" (· + ·) 0 ns⟩⟩
  · refine ⟨Arithmetic.difference, rfl, fun ns hne => ?_⟩
    match ns with
    | [n] =>
      refine ⟨_, rfl, ?_⟩
      have hnegative : Arithmetic.difference [n] = Arithmetic.checked "negation" (0 - n) := by
        rw [Int.zero_sub]
        rfl
      rw [hnegative, ← hplain, List.foldlM_cons]
      cases Arithmetic.checked "negation" (0 - n) <;> rfl
    | n :: m :: ns => exact ⟨_, rfl, hplain "difference" (· - ·) n (m :: ns)⟩
  · exact ⟨Arithmetic.product, rfl, fun ns _ => ⟨_, rfl, hplain "product" (· * ·) 1 ns⟩⟩
  · refine ⟨Arithmetic.quotient, rfl, fun ns hne => ?_⟩
    obtain ⟨n, ns, rfl⟩ := List.exists_cons_of_ne_nil hne
    refine ⟨_, rfl, ?_⟩
    unfold Arithmetic.quotient Calculation.run Calculation.attempt
    simp only [true_and]

/-- Sum, difference, product and quotient of at least one argument. If all arguments stand for numbers,
the value is the exact result of the calculation with all of them, or the error is that of the first
step that fails. Otherwise the error is that of the first argument, or element of an argument, at
fault. -/
theorem apply_arithmetic {f : Builtin} (hf : f ∈ arithmetic) {args : List SExpr}
    (hne : args ≠ []) :
    (∀ ns, Argument.Splices args ns →
        ∃ c r, calculation f ns = some c ∧ c.Outcome r ∧ f.apply args = r.map .ofInt) ∧
      (∀ e, FirstFault Argument.StandsFor Argument.Faulty args e → f.apply args = .error e) ∧
      ((∃ ns, Argument.Splices args ns) ∨
        ∃ e, FirstFault Argument.StandsFor Argument.Faulty args e) := by
  obtain ⟨g, happly, hg⟩ := exists_run hf
  rw [happly]
  refine ⟨?_, ?_, ?_⟩
  · intro ns hns
    obtain ⟨c, hc, hrun⟩ := hg ns (hns.ne_nil hne)
    refine ⟨c, c.run, hc, c.outcome_run, ?_⟩
    unfold fold
    rw [Argument.numbers_eq_ok_iff.2 hns, ok_bind, hrun]
    cases c.run <;> rfl
  · intro e he
    unfold fold
    rw [Argument.numbers_eq_error_iff.2 he]
    rfl
  · cases hnumbers : Argument.numbers args with
    | ok ns => exact .inl ⟨ns, Argument.numbers_eq_ok_iff.1 hnumbers⟩
    | error e => exact .inr ⟨e, Argument.numbers_eq_error_iff.1 hnumbers⟩

/-- The least number divided by -1 is out of range, and the division by zero behind it is not reached.
A name is found before the product in front of it is. -/
theorem apply_arithmetic_least :
    let least : SExpr := .ofInt (-9223372036854775808)
    let args : List SExpr := [.ofList [least, .ofInt (-1)], .ofInt 0]
    let ns : List Int := [-9223372036854775808, -1, 0]
    let name : SExpr := .atom ⟨"x"⟩
    let bad : List SExpr := [.ofList [least, .atom ⟨"+02"⟩], .ofList [.ofInt 1, name], .nil]
    quotient ∈ arithmetic ∧ args ≠ [] ∧ Argument.Splices args ns ∧
      (∃ c r, calculation .quotient ns = some c ∧ c.Outcome r ∧
        quotient.apply args = r.map .ofInt) ∧
      quotient.apply args = .error (ArithmeticError.overflow "quotient") ∧
      product ∈ arithmetic ∧ bad ≠ [] ∧
      FirstFault Argument.StandsFor Argument.Faulty bad (TypeError.expectedNumber name) ∧
      product.apply bad = .error (TypeError.expectedNumber name) := by
  intro least args ns name bad
  have hquotient : quotient ∈ arithmetic := by decide
  have hproduct : product ∈ arithmetic := by decide
  have hsplices : Argument.Splices args ns :=
    Argument.numbers_eq_ok_iff.1 (by decide +kernel)
  have hfault : FirstFault Argument.StandsFor Argument.Faulty bad (TypeError.expectedNumber name) :=
    Argument.numbers_eq_error_iff.1 (by decide +kernel)
  exact ⟨hquotient, by simp [args], hsplices,
    (apply_arithmetic hquotient (by simp [args])).1 ns hsplices, by decide +kernel,
    hproduct, by simp [bad], hfault, (apply_arithmetic hproduct (by simp [bad])).2.1 _ hfault⟩

end Builtin

end PairLisp
