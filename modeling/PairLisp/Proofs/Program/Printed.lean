import PairLisp.Proofs.Clause.Nesting
import PairLisp.Proofs.Program.Session
import PairLisp.Proofs.Program.Split
import PairLisp.Proofs.Program.Tokens
import PairLisp.Proofs.SExpr.Printed

/-!
# Printed expressions as programs

The printed form of an expression whose atoms a program may write down is a program of a single
statement, and what the statement writes down is the expression again, except that its numerals
have lost their plus signs (`Program.statements_print`). So it comes through all the steps of a
program: its strings are not taken for comments, its tokens stay apart, its brackets close it at its
end, and the dotted pairs that it is brought into are read back.

With `quote` around it the expression is not evaluated, so what the program gives is the expression
that has been printed (`Program.run_quote_print`).
-/

namespace PairLisp

open SExpr

/-! ## Statements of the grammar -/

namespace Statement

variable {e : Surface .standard}

/-- What the grammar spells is a single statement. -/
theorem split_spelling (e : Surface .standard) : split e.spelling = [{ tokens := e.spelling }] := by
  cases hts : e.spelling with
  | nil => exact absurd hts e.spelling_ne_nil
  | cons t ts =>
    rcases Surface.spelling_cases hts with ⟨hplain, rfl⟩ | ⟨ho, -⟩
    · rw [split_token hplain, split_nil]
    · have hclosing := Clause.closing?_clause Vocabulary.separated_standard hts ho []
      rw [List.append_nil] at hclosing
      rw [split_clause ho hclosing, List.take_length, List.drop_length, split_nil]

/-- A statement of the grammar writes down the expression that it stands for, if its brackets nest
less deeply than the limit. -/
theorem expression_spelling (hwritable : e.tree.All Writable)
    (hnesting : e.nesting < Limits.nesting) :
    expression { tokens := e.spelling } = .ok e.tree := by
  have hdotted : Clause.dotted e.spelling = .ok e.tree.tokens :=
    Clause.dottedIn_spelling Vocabulary.separated_standard e (Nat.le_of_lt hnesting)
  have hread : ofTokens e.tree.tokens = .ok e.tree :=
    ofTokens_tokens hwritable (Nat.lt_of_le_of_lt e.addressNesting_tree_le hnesting)
  show (Clause.dotted e.spelling >>= fun ts => ofTokens ts) = .ok e.tree
  rw [hdotted, ok_bind, hread]

end Statement

/-! ## Programs -/

namespace Program

variable {x : SExpr}

/-- A printed expression is a program of one statement, which writes down the expression without
its plus signs. -/
theorem statements_print (hx : x.All Writable) (hnesting : x.printNesting < Limits.nesting) :
    ∃ ts, tokens x.print = .ok ts ∧ Statement.split ts = [{ tokens := ts }] ∧
      Statement.expression { tokens := ts } = .ok (x.mapAtoms Atom.withoutPlus) := by
  obtain ⟨e, htree, hprint, hwritten⟩ := written_printOnto x hx
  have htext : Token.Written (x.printOnto []) e.spelling := by
    have h := hwritten [] [] Token.stops_nil .nil
    rwa [List.append_nil] at h
  refine ⟨e.spelling, ?_, Statement.split_spelling e, ?_⟩
  · refine tokens_of_written ?_ htext
    unfold print
    rw [String.toList_ofList]
    exact Comment.uncommented_of_written htext 1
  · rw [← hprint] at hnesting
    rw [← htree]
    refine Statement.expression_spelling ?_ hnesting
    rw [htree]
    exact all_mapAtoms (fun a => writable_withoutPlus) hx

end Program

/-! ## Quotations -/

/-- The expression in a quotation. -/
def SExpr.quoted (x : SExpr) : SExpr := .ofList [.atom ⟨"quote"⟩, x]

namespace SExpr

variable {x : SExpr}

theorem print_quoted (x : SExpr) : x.quoted.print = "(quote " ++ x.print ++ ")" := by
  have hquote : Atom.displayChars ⟨"quote"⟩ = ['q', 'u', 'o', 't', 'e'] := by decide
  have hnil : (SExpr.cons x .nil).terminator.isNil = true := rfl
  have hprint : x.quoted.printOnto [] =
      '(' :: 'q' :: 'u' :: 'o' :: 't' :: 'e' :: ' ' :: x.printOnto [')'] := by
    show printOnto (.cons (.atom ⟨"quote"⟩) (.cons x .nil)) [] = _
    rw [printOnto, if_pos hnil, printOnto, hquote]
    rfl
  have hchars : ∀ y : SExpr, y.print.toList = y.printOnto [] := fun y => String.toList_ofList
  rw [← String.toList_inj, String.toList_append, String.toList_append, hchars, hchars, hprint,
    printOnto_eq_append, List.append_assoc]
  rfl

theorem writable_quoted (hx : x.All Writable) : x.quoted.All Writable :=
  ⟨⟨by decide, by decide⟩, hx, ⟨by decide, by decide⟩⟩

theorem printNesting_quoted (x : SExpr) : x.quoted.printNesting = x.printNesting + 1 := by
  show max 0 (max x.printNesting 0) + 1 = x.printNesting + 1
  omega

theorem mapAtoms_quoted (x : SExpr) :
    x.quoted.mapAtoms Atom.withoutPlus = (x.mapAtoms Atom.withoutPlus).quoted := by
  have hquote : Atom.withoutPlus ⟨"quote"⟩ = ⟨"quote"⟩ := by decide
  have hnil : Atom.withoutPlus .nil = .nil := by decide
  simp only [quoted, ofList, mapAtoms, SExpr.nil, hquote, hnil]

/-- The value of a quotation is the expression in it, whatever the state is. -/
theorem runFrom_quoted (x : SExpr) (s : EvalState) :
    (evalAt 0 false x.quoted).runFrom s = (.ok x, s) := rfl

end SExpr

namespace Program

/-- A printed expression in a quotation is a program with a single outcome, the expression without
its plus signs, and it leaves the environment as it is. -/
theorem run_quote_print (env : Env) (x : SExpr) (hx : x.All Writable) (h : x.printNesting ≤ 126) :
    let r := run env ("(quote " ++ x.print ++ ")")
    r.1.map Outcome.result = [.ok (x.mapAtoms Atom.withoutPlus)] ∧ r.2 = env := by
  have hnesting : x.quoted.printNesting < Limits.nesting := by
    rw [printNesting_quoted]
    exact Nat.lt_succ_of_le (Nat.succ_le_succ h)
  obtain ⟨ts, htokens, hsplit, hexpression⟩ := statements_print (writable_quoted hx) hnesting
  rw [mapAtoms_quoted] at hexpression
  have hrun := Statement.run_of_expression_ok env hexpression
  rw [runFrom_quoted] at hrun
  unfold run
  rw [← print_quoted, htokens]
  dsimp only
  rw [hsplit, runStatements, hrun]
  exact ⟨rfl, rfl⟩

/-- A pair and a list, with a string that looks like two comments and an open bracket, where a
procedure is defined. -/
theorem run_quote_print_string :
    let x : SExpr := .cons (.cons (.atom ⟨"a"⟩) (.atom ⟨"+5"⟩))
      (.ofList [.atom ⟨"\"; #| (\""⟩, .atom ⟨"-0"⟩])
    let env := (run ∅ "(defun f (x) x)").2
    let r := run env ("(quote " ++ x.print ++ ")")
    x.print = "((a . 5) \"; #| (\" -0)" ∧ x.All Writable ∧ x.printNesting ≤ 126 ∧
      r.1.map Outcome.result = [.ok (x.mapAtoms Atom.withoutPlus)] ∧ r.2 = env := by
  intro x env r
  have hx : x.All Writable :=
    ⟨⟨⟨by decide, by decide⟩, ⟨by decide, by decide⟩⟩, ⟨by decide, by decide⟩,
      ⟨by decide, by decide⟩, ⟨by decide, by decide⟩⟩
  have hnesting : x.printNesting ≤ 126 := by decide
  exact ⟨by decide +kernel, hx, hnesting, run_quote_print env x hx hnesting⟩

end Program

end PairLisp
