import Mathlib.Control.Monad.Basic
import PairLisp.Proofs.Clause.Faults
import PairLisp.Proofs.Eval.Invariant
import PairLisp.Proofs.Program.Session
import PairLisp.Proofs.Program.Split

/-!
# Every token of a program

A run rejects a program as a whole, if its text has no tokens, or it has an outcome for each of the
statements, and every token is in one of them (`Program.run_accounts`).

A statement without a fault is a single token or a whole clause, so in its dotted form only the
dots can be wrong, or the depth. No evaluation has an error about the text of a program
(`Statement.not_ofText_of_run`): of the errors that an evaluation raises by itself none is of this
kind.
-/

namespace PairLisp

open Vocabulary

/-! ## No errors about texts in evaluations -/

/-- An error about a text: about its characters, or about its tokens. -/
def Error.OfText : Error → Prop
  | .lexical _ => True
  | .structural e => ¬ e.OfForm
  | _ => False

namespace Invariant

/-- An evaluation does not end with an error about a text. -/
def notOfText : Invariant := ofEnds (fun _ _ => True) (¬ ·.OfText) (fun _ => False)

theorem lawful_notOfText : notOfText.Lawful := by
  have hplain : ∀ {e : Error}, e.Plain → ¬ e.OfText := by
    intro e hplain htext
    cases e with
    | lexical | binding => exact hplain
    | structural => exact htext hplain
    | definition | arithmetic | type => exact htext
  exact lawful_ofEnds (fun _ => trivial) (fun _ _ => trivial) (fun _ => trivial)
    (fun _ => trivial) (fun _ => trivial) (fun h _ => hplain h) (fun _ => hplain trivial)
    (fun _ => not_false)

end Invariant

namespace Statement

variable {s : Statement} {ts : List Token}

/-- A statement that writes an expression has no error about a text. -/
theorem not_ofText_of_run {x : SExpr} {e : Error} {env : Env} (hx : s.expression = .ok x)
    (he : (s.run env).1.result = .error e) : ¬ e.OfText := by
  rw [run_of_expression_ok env hx] at he
  have hends := Invariant.lawful_notOfText.ends (Limits.evaluation - 0) false
    (Invariant.all_code_ofEnds x) (s := { env }) trivial
  unfold evalAt at he
  generalize (eval (Limits.evaluation - 0) false x).runFrom { env } = r at hends he
  cases hends with
  | value => simp at he
  | failure _ _ hfailure => exact Except.error.inj he ▸ hfailure
  | lost hlost => exact hlost.elim

theorem result_run_ne_lexical (env : Env) (s : Statement) (l : LexicalError) :
    (s.run env).1.result ≠ .error l := by
  cases hx : s.expression with
  | error e =>
    rw [run_of_expression_error env hx]
    simp
  | ok x => exact fun h => not_ofText_of_run hx h trivial

/-! ## The statements of a program -/

theorem not_isOpen_of_fault (h : ∀ t, s.fault ≠ some (.openClause t)) : ¬ s.IsOpen :=
  fun ⟨t, ht⟩ => h t ht

/-- Only the last statement may be a clause that is never closed. -/
theorem not_isOpen_of_mem_dropLast (h : s ∈ (split ts).dropLast) : ¬ s.IsOpen := by
  have hcons : ∀ {s' : Statement} {ss : List Statement}, s ∈ (s' :: ss).dropLast →
      s = s' ∨ s ∈ ss.dropLast := by
    intro s' ss h
    cases ss with
    | nil => simp at h
    | cons s'' ss => exact List.mem_cons.1 h
  induction ts using split_induction with
  | nil => simp [split_nil] at h
  | clause t ts n ho hclosing ih =>
    rw [split_clause ho hclosing] at h
    rcases hcons h with rfl | h
    · exact not_isOpen_of_fault fun t => by simp
    · exact ih h
  | unclosed t ts ho hclosing => simp [split_unclosed ho hclosing] at h
  | stray t ts ho hs ih =>
    rw [split_stray ho hs] at h
    rcases hcons h with rfl | h
    · exact not_isOpen_of_fault fun t => by simp
    · exact ih h
  | token t ts ht ih =>
    rw [split_token ht] at h
    rcases hcons h with rfl | h
    · exact not_isOpen_of_fault fun t => by simp
    · exact ih h

/-- A statement without a fault is a single token or a clause that ends with the last token. -/
theorem Shape.token_or_closed (h : s.Shape) (hfault : s.fault = none) :
    (∃ t, s.tokens = [t] ∧ standard.isStructural t = false) ∨
      Clause.Closed standard s.tokens := by
  cases h with
  | token ht => exact .inl ⟨_, rfl, ht⟩
  | clause ho h => exact .inr ((Clause.closed_iff separated_standard.opensApart ho).2 h)
  | unclosed => simp at hfault
  | stray => simp at hfault

/-- In the dotted form of a statement without a fault only the dots may be wrong, or the depth. -/
theorem Shape.fails_dotted (h : s.Shape) (hfault : s.fault = none) :
    Fails (· ∈ Clause.faults) (Clause.dotted s.tokens) := by
  rcases h.token_or_closed hfault with ⟨t, ht, hplain⟩ | hclosed
  · have hdotted : Clause.dotted [t] = .ok [t] :=
      (Clause.dottedIn_eq_ok separated_standard [t]).2 (Clause.spells_token hplain)
    rw [ht, hdotted]
    exact fails_ok _
  · exact Clause.fails_dottedIn_closed separated_standard.opensApart hclosed

end Statement

/-! ## The outcomes of a program -/

namespace Program

/-- There is an outcome for each statement. -/
theorem sources_runStatements (env : Env) (ss : List Statement) :
    (runStatements env ss).1.map Outcome.source = ss.map Statement.source := by
  induction ss generalizing env with
  | nil => rfl
  | cons s ss ih =>
    rw [runStatements_cons, List.map_cons, List.map_cons, ih, s.source_run]

theorem result_runStatements_ne_lexical (env : Env) (ss : List Statement) (l : LexicalError) :
    ∀ o ∈ (runStatements env ss).1, o.result ≠ .error l := by
  intro o ho
  obtain ⟨s, -, env', rfl⟩ := exists_of_mem_runStatements ho
  exact s.result_run_ne_lexical env' l

/-- A text without tokens has an error for its only outcome and changes nothing. Any other text has
an outcome for each of its statements, which is no such error. The statements have all tokens in
order, no statement but the last is a clause that is never closed, and those without a fault are a
single token or a clause that ends with the last token, so that its dotted form fails for no other
reason than the places of dots and the depth of clauses. -/
theorem run_accounts (env : Env) (text : String) :
    (∀ e : LexicalError, tokens text = .error e →
      run env text = ([{ source := Text.trim text, result := .error e }], env)) ∧
    ∀ ts, tokens text = .ok ts →
      (run env text).1.map Outcome.source = (Statement.split ts).map Statement.source ∧
      (∀ o ∈ (run env text).1, ∀ e : LexicalError, o.result ≠ .error e) ∧
      (Statement.split ts).flatMap Statement.tokens = ts ∧
      (∀ s ∈ (Statement.split ts).dropLast, ∀ t, s.fault ≠ some (.openClause t)) ∧
      ∀ s ∈ Statement.split ts, s.fault = none →
        ((∃ t, s.tokens = [t] ∧ standard.isStructural t = false) ∨
          Clause.Closed standard s.tokens) ∧
        ∀ e, Clause.dotted s.tokens = .error e →
          e ∈ [.missingAddress, .missingData, .repeatedDot, .crowdedData, .tooDeep] := by
  constructor
  · exact fun e he => run_of_tokens_error he env
  · intro ts hts
    rw [run_of_tokens hts]
    refine ⟨sources_runStatements env _, fun o ho e => ?_, Statement.flatMap_tokens_split ts,
      fun s hs t ht => ?_, fun s hs hfault => ?_⟩
    · exact result_runStatements_ne_lexical env _ e o ho
    · exact Statement.not_isOpen_of_mem_dropLast hs ⟨t, ht⟩
    · have hshape := Statement.shape_of_mem_split hs
      exact ⟨hshape.token_or_closed hfault, hshape.fails_dotted hfault⟩

/-- A string without an end, and a program of four statements: a token, a stray bracket, a clause
with two dots and a clause that is never closed. -/
theorem run_accounts_mixed :
    let rejected := "(f \"x)"
    let text := "x ) \x7ba . b . c] (f"
    let ts : List Token := ["x", ")", "\x7b", "a", ".", "b", ".", "c", "]", "(", "f"]
    tokens rejected = .error (.openString 3 "\"x)") ∧ (run ∅ rejected).2 = ∅ ∧
      tokens text = .ok ts ∧ (Statement.split ts).flatMap Statement.tokens = ts ∧
      ∀ o ∈ (run ∅ text).1, ∀ e : LexicalError, o.result ≠ .error e := by
  intro rejected text ts
  have hrejected : tokens rejected = .error (.openString 3 "\"x)") := by decide +kernel
  have htext : tokens text = .ok ts := by decide +kernel
  have hrun := (run_accounts ∅ rejected).1 _ hrejected
  obtain ⟨-, hresults, hsplit, -, -⟩ := (run_accounts ∅ text).2 ts htext
  exact ⟨hrejected, congrArg Prod.snd hrun, htext, hsplit, hresults⟩

end Program

end PairLisp
