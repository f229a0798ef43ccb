import PairLisp.Program
import PairLisp.Proofs.Clause.Matching
import PairLisp.Proofs.Result

/-!
# Statements one after the other

`Statement.split` takes one statement after the other off the tokens of a program. The first token
settles what is taken: a whole clause, all that is left if the clause has no end, or the token
alone.

As the end of a clause does not depend on what stands behind it, tokens behind complete statements
are split as if they stood alone (`Statement.split_append`), and the tokens of a statement, by
themselves, are this statement again (`Statement.Shape.split_tokens`). All tokens are in the
statements, in order (`Statement.flatMap_tokens_split`).
-/

namespace PairLisp

variable {t : Token} {ts us : List Token}

namespace Clause

variable {v : Vocabulary}

/-! ## The end of a clause -/

/-- What stands behind a clause does not matter for where it ends. -/
theorem closing?_append {depth n : Nat} (h : closing? v depth ts = some n) :
    closing? v depth (ts ++ us) = some n := by
  fun_induction closing? v depth ts generalizing n with
  | case1 => simp at h
  | case2 depth t ts ho ih =>
    obtain ⟨m, hm, rfl⟩ := Option.map_eq_some_iff.1 h
    rw [List.cons_append, closing?, if_pos ho, ih hm]
    rfl
  | case3 depth t ts ho hc hdepth =>
    rw [List.cons_append, closing?, if_neg ho, if_pos hc, if_pos hdepth]
    exact h
  | case4 depth t ts ho hc hdepth ih =>
    obtain ⟨m, hm, rfl⟩ := Option.map_eq_some_iff.1 h
    rw [List.cons_append, closing?, if_neg ho, if_pos hc, if_neg hdepth, ih hm]
    rfl
  | case5 => simp at h
  | case6 depth t ts ho hc hdepth ih =>
    obtain ⟨m, hm, rfl⟩ := Option.map_eq_some_iff.1 h
    rw [List.cons_append, closing?, if_neg ho, if_neg hc, if_neg hdepth, ih hm]
    rfl

/-- The bracket that closes a clause is one of the tokens. -/
theorem closing?_lt {depth n : Nat} (h : closing? v depth ts = some n) : n < ts.length := by
  obtain ⟨c, hget, -⟩ := exists_close_of_closing? h
  exact (List.getElem?_eq_some_iff.1 hget).1

/-- A search needs no more than the tokens up to the place that it comes to. -/
theorem closing?_take {depth n : Nat} (h : closing? v depth ts = some n) :
    closing? v depth (ts.take (n + 1)) = some n := by
  fun_induction closing? v depth ts generalizing n with
  | case1 => simp at h
  | case2 depth t ts ho ih =>
    obtain ⟨m, hm, rfl⟩ := Option.map_eq_some_iff.1 h
    rw [List.take_succ_cons, closing?, if_pos ho, ih hm]
    rfl
  | case3 depth t ts ho hc hdepth =>
    obtain rfl := Option.some.inj h
    rw [List.take_succ_cons, closing?, if_neg ho, if_pos hc, if_pos hdepth]
  | case4 depth t ts ho hc hdepth ih =>
    obtain ⟨m, hm, rfl⟩ := Option.map_eq_some_iff.1 h
    rw [List.take_succ_cons, closing?, if_neg ho, if_pos hc, if_neg hdepth, ih hm]
    rfl
  | case5 => simp at h
  | case6 depth t ts ho hc hdepth ih =>
    obtain ⟨m, hm, rfl⟩ := Option.map_eq_some_iff.1 h
    rw [List.take_succ_cons, closing?, if_neg ho, if_neg hc, if_neg hdepth, ih hm]
    rfl

end Clause

namespace Statement

open Vocabulary

/-! ## The first statement -/

theorem split_nil : split [] = [] := by rw [split]

/-- A clause that is closed is the first statement. -/
theorem split_clause (ho : standard.isOpenToken t = true) {n : Nat}
    (h : Clause.closing? standard 0 (t :: ts) = some n) :
    split (t :: ts) = { tokens := t :: ts.take n } :: split (ts.drop n) := by
  rw [split]
  simp only [ho, Clause.finish_eq_ok_iff.2 h, if_true]

/-- A clause that is never closed takes in all that is left of the program. -/
theorem split_unclosed (ho : standard.isOpenToken t = true)
    (h : Clause.closing? standard 0 (t :: ts) = none) :
    split (t :: ts) = [{ tokens := t :: ts, fault := some (.openClause t) }] := by
  rw [split]
  simp only [ho, Clause.finish_eq_error h, if_true]

/-- A closing bracket or a dot outside clauses is a statement of its own, with a fault. -/
theorem split_stray (ho : standard.isOpenToken t = false)
    (h : (standard.isCloseToken t || standard.isDotToken t) = true) :
    split (t :: ts) = { tokens := [t], fault := some (.atTopLevel t) } :: split ts := by
  rw [split]
  simp only [ho, h, if_true, Bool.false_eq_true, if_false]

/-- A token without structure is a statement of its own. -/
theorem split_token (h : standard.isStructural t = false) :
    split (t :: ts) = { tokens := [t] } :: split ts := by
  obtain ⟨ho, hc, hd⟩ := isStructural_eq_false.1 h
  rw [split]
  simp only [ho, hc, hd, Bool.or_false, Bool.false_eq_true, if_false]

/-- Induction along the statements of a sequence of tokens: whatever the first token begins, the
claim holds of the tokens behind it. -/
theorem split_induction {P : List Token → Prop} (nil : P [])
    (clause : ∀ t ts n, standard.isOpenToken t = true →
      Clause.closing? standard 0 (t :: ts) = some n → P (ts.drop n) → P (t :: ts))
    (unclosed : ∀ t ts, standard.isOpenToken t = true →
      Clause.closing? standard 0 (t :: ts) = none → P (t :: ts))
    (stray : ∀ t ts, standard.isOpenToken t = false →
      (standard.isCloseToken t || standard.isDotToken t) = true → P ts → P (t :: ts))
    (token : ∀ t ts, standard.isStructural t = false → P ts → P (t :: ts))
    (ts : List Token) : P ts := by
  induction hlength : ts.length using Nat.strongRecOn generalizing ts with
  | ind k ih =>
    cases ts with
    | nil => exact nil
    | cons t ts =>
      have hrest : ∀ n, P (ts.drop n) := by
        intro n
        refine ih _ ?_ _ rfl
        rw [← hlength, List.length_drop, List.length_cons]
        omega
      cases ho : standard.isOpenToken t with
      | true =>
        cases hclosing : Clause.closing? standard 0 (t :: ts) with
        | some n => exact clause t ts n ho hclosing (hrest n)
        | none => exact unclosed t ts ho hclosing
      | false =>
        cases hs : standard.isCloseToken t || standard.isDotToken t with
        | true => exact stray t ts ho hs (hrest 0)
        | false =>
          exact token t ts (isStructural_eq_false.2 ⟨ho, Bool.or_eq_false_iff.1 hs⟩) (hrest 0)

/-- The statement begins a clause that is never closed. -/
def IsOpen (s : Statement) : Prop := ∃ t, s.fault = some (.openClause t)

/-! ## Tokens behind complete statements -/

/-- Tokens behind complete statements are split as if they stood alone. -/
theorem split_append (h : ∀ s ∈ split ts, ¬ s.IsOpen) :
    split (ts ++ us) = split ts ++ split us := by
  induction ts using split_induction with
  | nil => rw [split_nil, List.nil_append, List.nil_append]
  | clause t ts n ho hclosing ih =>
    rw [split_clause ho hclosing, List.forall_mem_cons] at h
    have hle : n ≤ ts.length := Nat.le_of_lt_succ (Clause.closing?_lt hclosing)
    have hclosing' : Clause.closing? standard 0 (t :: (ts ++ us)) = some n :=
      Clause.closing?_append hclosing
    rw [List.cons_append, split_clause ho hclosing', split_clause ho hclosing,
      List.take_append_of_le_length hle, List.drop_append_of_le_length hle, ih h.2,
      List.cons_append]
  | unclosed t ts ho hclosing =>
    -- a clause without an end takes everything
    rw [split_unclosed ho hclosing] at h
    exact absurd ⟨t, rfl⟩ (h _ (List.mem_singleton_self _))
  | stray t ts ho hs ih =>
    rw [split_stray ho hs, List.forall_mem_cons] at h
    rw [List.cons_append, split_stray ho hs, split_stray ho hs, ih h.2, List.cons_append]
  | token t ts ht ih =>
    rw [split_token ht, List.forall_mem_cons] at h
    rw [List.cons_append, split_token ht, split_token ht, ih h.2, List.cons_append]

/-! ## Every statement by itself -/

/-- No token is lost and none is taken twice. -/
theorem flatMap_tokens_split (ts : List Token) : (split ts).flatMap tokens = ts := by
  induction ts using split_induction with
  | nil => rw [split_nil, List.flatMap_nil]
  | clause t ts n ho hclosing ih =>
    rw [split_clause ho hclosing, List.flatMap_cons, ih]
    exact congrArg (t :: ·) (List.take_append_drop n ts)
  | unclosed t ts ho hclosing =>
    rw [split_unclosed ho hclosing, List.flatMap_singleton]
  | stray t ts ho hs ih =>
    rw [split_stray ho hs, List.flatMap_cons, ih]
    rfl
  | token t ts ht ih =>
    rw [split_token ht, List.flatMap_cons, ih]
    rfl

/-- The tokens of a statement stand next to each other in the program. -/
theorem infix_of_mem_split {s : Statement} (h : s ∈ split ts) : s.tokens <:+: ts := by
  have hmem : s.tokens ∈ (split ts).map tokens := List.mem_map_of_mem h
  rw [← flatMap_tokens_split ts]
  exact List.infix_of_mem_flatten hmem

/-- What a statement looks like. -/
inductive Shape : Statement → Prop where
  /-- A single token that is no bracket and no dot. -/
  | token {t : Token} (ht : standard.isStructural t = false) : Shape { tokens := [t] }
  /-- A clause that ends with the last token. -/
  | clause {t : Token} {ts : List Token} (ho : standard.isOpenToken t = true)
    (h : Clause.closing? standard 0 (t :: ts) = some ts.length) : Shape { tokens := t :: ts }
  /-- A clause that is never closed. -/
  | unclosed {t : Token} {ts : List Token} (ho : standard.isOpenToken t = true)
    (h : Clause.closing? standard 0 (t :: ts) = none) :
    Shape { tokens := t :: ts, fault := some (.openClause t) }
  /-- A closing bracket or a dot. -/
  | stray {t : Token} (ho : standard.isOpenToken t = false)
    (h : (standard.isCloseToken t || standard.isDotToken t) = true) :
    Shape { tokens := [t], fault := some (.atTopLevel t) }

/-- Every statement of a program has one of the four shapes. -/
theorem shape_of_mem_split {s : Statement} (h : s ∈ split ts) : s.Shape := by
  induction ts using split_induction with
  | nil => simp [split_nil] at h
  | clause t ts n ho hclosing ih =>
    rw [split_clause ho hclosing, List.mem_cons] at h
    rcases h with rfl | h
    · have hlength : (ts.take n).length = n :=
        List.length_take_of_le (Nat.le_of_lt_succ (Clause.closing?_lt hclosing))
      have htake : Clause.closing? standard 0 (t :: ts.take n) = some n :=
        Clause.closing?_take hclosing
      exact .clause ho (by rw [hlength, htake])
    · exact ih h
  | unclosed t ts ho hclosing =>
    rw [split_unclosed ho hclosing, List.mem_singleton] at h
    subst h
    exact .unclosed ho hclosing
  | stray t ts ho hs ih =>
    rw [split_stray ho hs, List.mem_cons] at h
    rcases h with rfl | h
    · exact .stray ho hs
    · exact ih h
  | token t ts ht ih =>
    rw [split_token ht, List.mem_cons] at h
    rcases h with rfl | h
    · exact .token ht
    · exact ih h

/-- A statement has at least one token. -/
theorem Shape.tokens_ne_nil {s : Statement} (h : s.Shape) : s.tokens ≠ [] := by
  cases h <;> exact List.cons_ne_nil _ _

/-- The tokens of a statement are this one statement. -/
theorem Shape.split_tokens {s : Statement} (h : s.Shape) : split s.tokens = [s] := by
  cases h with
  | token ht => rw [split_token ht, split_nil]
  | clause ho h => rw [split_clause ho h, List.take_length, List.drop_length, split_nil]
  | unclosed ho h => exact split_unclosed ho h
  | stray ho h => rw [split_stray ho h, split_nil]

end Statement

end PairLisp
