import Mathlib.Data.List.Infix
import PairLisp.Proofs.Program.Sequence
import PairLisp.Proofs.Program.Session
import PairLisp.Proofs.Token.Border

/-!
# Statements run again

An outcome shows its statement as a text of its own: the tokens with a space between any two of
them. This text is a program with the statement for its only one (`Program.split_tokens_source`), so
running it where the statement has been run gives the same outcome and leaves the same environment
(`Program.run_source`).

The tokens stay apart in the text, and none of them is taken for a comment. This holds of the token
of a program that is a single character as well: such a character may be of no class, but it is no
semicolon, as a semicolon begins a comment and would have been taken out.
-/

namespace PairLisp.Program

open Token

variable {text : String} {ts : List Token} {s : Statement}

/-- The text of a statement has the tokens of the statement. -/
theorem tokens_source (h : tokens text = .ok ts) (hs : s ∈ Statement.split ts) :
    tokens s.source = .ok s.tokens := by
  have hpart : s.tokens <:+: ts := Statement.infix_of_mem_split hs
  obtain ⟨kept, hscan, hwritten | ⟨c, honly, hlexeme, rfl⟩⟩ := tokens_eq_ok_iff_reads.1 h
  · have hsource : Written s.source.toList s.tokens :=
      written_intercalate fun t ht => hwritten.isLexeme t (hpart.subset ht)
    exact tokens_of_written (Comment.uncommented_of_written hsource 1) hsource
  · -- the program is a single character, and so is the statement
    have htokens : s.tokens = [String.ofList [c]] :=
      ((List.infix_singleton_iff _ _).1 hpart).resolve_left
        (Statement.shape_of_mem_split hs).tokens_ne_nil
    have hsource : s.source = String.ofList [c] := by
      unfold Statement.source
      rw [htokens, String.intercalate_singleton]
    have hmem : c ∈ kept.filter (!Text.isBlank ·) := honly ▸ List.mem_singleton_self c
    obtain ⟨hkept, hblank⟩ := List.mem_filter.1 hmem
    have hsemicolon : c ≠ ';' := by
      rintro rfl
      have hquote := Comment.quote_mem_of_semicolon_mem hscan (by simp) hkept
      exact absurd (Text.eq_of_filter_not_isBlank honly hquote (by decide)) (by decide)
    rw [hsource, htokens]
    refine tokens_eq_ok_iff_reads.2 ⟨[c], ?_, .inr ⟨c, ?_, hlexeme, rfl⟩⟩
    · rw [String.toList_ofList]
      exact Comment.scan_singleton hsemicolon
    · rw [List.filter_singleton, hblank]
      rfl

/-- The text of a statement is a program with this statement for its only one. -/
theorem split_tokens_source (h : tokens text = .ok ts) (hs : s ∈ Statement.split ts) :
    tokens s.source = .ok s.tokens ∧ Statement.split s.tokens = [s] :=
  ⟨tokens_source h hs, (Statement.shape_of_mem_split hs).split_tokens⟩

/-- The environment that the first `n` statements of a program leave. -/
def envAfter (env : Env) (text : String) (n : Nat) : Env :=
  (runStatements env ((statements text).take n)).2

/-- The text that an outcome shows for its statement, run in the environment in which the statement
has been run, gives this outcome alone and leaves the environment that the statement has left. -/
theorem run_source {outcome : Outcome} {k : Nat} (h : tokens text = .ok ts) (env : Env)
    (houtcome : (run env text).1[k]? = some outcome) :
    run (envAfter env text k) outcome.source = ([outcome], envAfter env text (k + 1)) := by
  have hstatements : statements text = Statement.split ts := by
    unfold statements
    rw [h]
  rw [run_of_tokens h, getElem?_runStatements] at houtcome
  obtain ⟨s, hs, rfl⟩ := Option.map_eq_some_iff.1 houtcome
  obtain ⟨htokens, hsplit⟩ := split_tokens_source h (List.mem_of_getElem? hs)
  have htake : (Statement.split ts).take (k + 1) = (Statement.split ts).take k ++ [s] := by
    rw [List.take_add_one, hs]
    rfl
  have hsource : ∀ env, (s.run env).1.source = s.source := fun env => s.source_run env
  unfold envAfter
  rw [hstatements, htake, runStatements_append, hsource, run_of_tokens htokens, hsplit]
  rfl

/-- The third of four statements, between a stray bracket and a clause that is never closed, has a
string with the marks of comments in it. -/
theorem run_source_string :
    let text := "(defun f (x) x) ) \x7bf \"; #|\"] ; |#\n(f"
    let ts : List Token :=
      ["(", "defun", "f", "(", "x", ")", "x", ")", ")", "\x7b", "f", "\"; #|\"", "]", "(", "f"]
    let outcome : Outcome :=
      { source := "\x7b f \"; #|\" ]", result := .ok (.atom ⟨"\"; #|\""⟩) }
    tokens text = .ok ts ∧ (run ∅ text).1[2]? = some outcome ∧
      run (envAfter ∅ text 2) outcome.source = ([outcome], envAfter ∅ text 3) := by
  intro text ts outcome
  have htokens : tokens text = .ok ts := by decide +kernel
  have hparts : (run ∅ text).1[2]?.map (fun o => (o.source, o.result)) =
      some (outcome.source, outcome.result) := by decide +kernel
  have houtcome : (run ∅ text).1[2]? = some outcome := by
    obtain ⟨o, ho, heq⟩ := Option.map_eq_some_iff.1 hparts
    cases o
    obtain ⟨rfl, rfl⟩ := Prod.mk.inj heq
    exact ho
  exact ⟨htokens, houtcome, run_source htokens ∅ houtcome⟩

end PairLisp.Program
