import Mathlib.Control.Monad.Basic
import PairLisp.Proofs.Program.Split
import PairLisp.Proofs.Program.Tokens

/-!
# Two programs in one text

If a program ends outside of every string and of every clause, another program may be written
below it: the text of both has the outcomes of the first, and then those that the second has in the
environment that the first one leaves (`Program.run_below`).

Each step of a run takes the two texts one by one. The line end between them ends the comment in
which the first one may end, and as it is a blank, no token goes across it. The statements of the
first program are split off as if it stood alone, as none of them is left open, and statements are
run one after the other.
-/

namespace PairLisp

variable {ts us : List Token} {text₁ text₂ : String}

namespace Program

theorem runStatements_append (env : Env) (ss ss' : List Statement) :
    runStatements env (ss ++ ss') =
      ((runStatements env ss).1 ++ (runStatements (runStatements env ss).2 ss').1,
        (runStatements (runStatements env ss).2 ss').2) := by
  induction ss generalizing env with
  | nil => rfl
  | cons s ss ih => simp only [List.cons_append, runStatements, ih]

/-- Of two programs in one text, where the second begins on a line of its own, the second is run
after the first, in the environment that the first one leaves. -/
theorem run_below (h₁ : tokens text₁ = .ok ts) (h₂ : tokens text₂ = .ok us)
    (hstray₁ : ¬ IsStrayCharacter text₁) (hstray₂ : ¬ IsStrayCharacter text₂)
    (hclosed : ∀ s ∈ Statement.split ts, ¬ s.IsOpen) (env : Env) :
    run env (text₁ ++ "\n" ++ text₂) =
      ((run env text₁).1 ++ (run (run env text₁).2 text₂).1, (run (run env text₁).2 text₂).2) := by
  obtain ⟨kept, hscan₁, hwritten₁⟩ := (tokens_eq_ok_iff hstray₁).1 h₁
  obtain ⟨kept', hscan₂, hwritten₂⟩ := (tokens_eq_ok_iff hstray₂).1 h₂
  have hscan : Comment.scan .code 1 (text₁ ++ "\n" ++ text₂).toList =
      .ok (kept ++ '\n' :: kept') := by
    rw [String.toList_append, String.toList_append, List.append_assoc]
    exact Comment.scan_below hscan₁ hwritten₁.count_quote hscan₂
  have hwritten : Token.Written (kept ++ '\n' :: kept') (ts ++ us) :=
    hwritten₁.append (by decide) hwritten₂
  unfold run
  rw [tokens_of_written hscan hwritten, h₁, h₂]
  show runStatements env (Statement.split (ts ++ us)) = _
  rw [Statement.split_append hclosed, runStatements_append]

/-- The first program ends in a line comment with the mark of a block comment in it, and the second
one begins with a block comment. -/
theorem run_below_comments :
    let text₁ := "(defun sq (x) (product x x)) ; a #| square"
    let text₂ := "#| of 12 |# (sq 12) )"
    let ts : List Token :=
      ["(", "defun", "sq", "(", "x", ")", "(", "product", "x", "x", ")", ")"]
    let us : List Token := ["(", "sq", "12", ")", ")"]
    tokens text₁ = .ok ts ∧ tokens text₂ = .ok us ∧ ¬ IsStrayCharacter text₁ ∧
      ¬ IsStrayCharacter text₂ ∧ (∀ s ∈ Statement.split ts, ¬ s.IsOpen) ∧
      (run ∅ text₁).1.length = 1 ∧ (run (run ∅ text₁).2 text₂).1.length = 2 ∧
      run ∅ (text₁ ++ "\n" ++ text₂) =
        ((run ∅ text₁).1 ++ (run (run ∅ text₁).2 text₂).1, (run (run ∅ text₁).2 text₂).2) := by
  intro text₁ text₂ ts us
  have h₁ : tokens text₁ = .ok ts := by decide +kernel
  have h₂ : tokens text₂ = .ok us := by decide +kernel
  have hstrip₁ : Comment.strip text₁ = .ok "(defun sq (x) (product x x)) " := by decide +kernel
  have hstrip₂ : Comment.strip text₂ = .ok "  (sq 12) )" := by decide +kernel
  have hstray₁ : ¬ IsStrayCharacter text₁ :=
    not_isStrayCharacter_of_length hstrip₁ (by decide +kernel)
  have hstray₂ : ¬ IsStrayCharacter text₂ :=
    not_isStrayCharacter_of_length hstrip₂ (by decide +kernel)
  have hclosed : ∀ s ∈ Statement.split ts, ¬ s.IsOpen := by
    have hsplit : Statement.split ts = [{ tokens := ts }] := by decide +kernel
    rw [hsplit, List.forall_mem_singleton]
    rintro ⟨t, ht⟩
    simp at ht
  exact ⟨h₁, h₂, hstray₁, hstray₂, hclosed, by decide +kernel, by decide +kernel,
    run_below h₁ h₂ hstray₁ hstray₂ hclosed ∅⟩

end Program

end PairLisp
