import PairLisp.Proofs.Clause.Balanced
import PairLisp.SExpr.Dotted

/-!
# The grammar of clauses

What a program may write down for an expression, in the grammar

  `e ::= token | open close | open e tail close`
  `tail ::= (nothing) | dot e | e tail`

where a token is no bracket and no dot. `Surface` and `Tail` are the trees of the grammar, with the
brackets and dots that were chosen. Each tree has a spelling as tokens, a depth to which its
brackets nest, and an expression that it stands for.

The brackets of a spelling are balanced (`Clause.balanced_spelling`), so a search for a closing
bracket passes over the spelling of a tree as a whole.
-/

namespace PairLisp

/-- An opening bracket. -/
abbrev OpenToken (v : Vocabulary) := { t : Token // v.isOpenToken t = true }

/-- A closing bracket. -/
abbrev CloseToken (v : Vocabulary) := { t : Token // v.isCloseToken t = true }

/-- A dot. -/
abbrev DotToken (v : Vocabulary) := { t : Token // v.isDotToken t = true }

/-- A token that is no bracket and no dot. -/
abbrev PlainToken (v : Vocabulary) := { t : Token // v.isStructural t = false }

mutual

/-- What may be written for an expression. -/
inductive Surface (v : Vocabulary) where
  /-- A single token. -/
  | token (t : PlainToken v)
  /-- A pair of brackets with nothing between them. -/
  | empty (opening : OpenToken v) (closing : CloseToken v)
  /-- A pair of brackets with at least one expression between them. -/
  | clause (opening : OpenToken v) (closing : CloseToken v) (first : Surface v) (rest : Tail v)

/-- What may be written behind an expression up to the bracket that closes its clause. -/
inductive Tail (v : Vocabulary) where
  /-- Nothing. -/
  | done
  /-- A dot and a last expression. -/
  | dot (dot : DotToken v) (data : Surface v)
  /-- One more expression. -/
  | next (e : Surface v) (rest : Tail v)

end

variable {v : Vocabulary}

mutual

/-- The tokens that are written. -/
def Surface.spelling : Surface v → List Token
  | .token t => [t.val]
  | .empty opening closing => [opening.val, closing.val]
  | .clause opening closing first rest =>
    opening.val :: (first.spelling ++ rest.spelling) ++ [closing.val]

/-- The tokens that are written. -/
def Tail.spelling : Tail v → List Token
  | .done => []
  | .dot dot data => dot.val :: data.spelling
  | .next e rest => e.spelling ++ rest.spelling

end

mutual

/-- How deeply the brackets nest. -/
def Surface.nesting : Surface v → Nat
  | .token _ => 0
  | .empty _ _ => 1
  | .clause _ _ first rest => max first.nesting rest.nesting + 1

/-- How deeply the brackets nest. -/
def Tail.nesting : Tail v → Nat
  | .done => 0
  | .dot _ data => data.nesting
  | .next e rest => max e.nesting rest.nesting

end

mutual

/-- The expression that is written down. -/
def Surface.tree : Surface v → SExpr
  | .token t => .atom ⟨t.val⟩
  | .empty _ _ => .nil
  | .clause _ _ first rest => .cons first.tree rest.tree

/-- The data of the last pair in front. -/
def Tail.tree : Tail v → SExpr
  | .done => .nil
  | .dot _ data => data.tree
  | .next e rest => .cons e.tree rest.tree

end

/-! ## Spellings -/

theorem Surface.spelling_ne_nil (e : Surface v) : e.spelling ≠ [] := by
  cases e <;> simp [Surface.spelling]

/-- A spelling is a single token, or it begins with an opening bracket and goes on. -/
theorem Surface.spelling_cases {e : Surface v} {t : Token} {ts : List Token}
    (h : e.spelling = t :: ts) :
    (v.isStructural t = false ∧ ts = []) ∨ (v.isOpenToken t = true ∧ ts ≠ []) := by
  cases e with
  | token t' =>
    obtain ⟨rfl, rfl⟩ := List.cons.inj h
    exact .inl ⟨t'.property, rfl⟩
  | empty opening closing =>
    obtain ⟨rfl, rfl⟩ := List.cons.inj h
    exact .inr ⟨opening.property, List.cons_ne_nil _ _⟩
  | clause opening closing first rest =>
    obtain ⟨rfl, rfl⟩ := List.cons.inj h
    exact .inr ⟨opening.property, by simp⟩

/-- No spelling begins with a dot. -/
theorem Surface.not_dot_of_spelling (hv : v.Separated) {e : Surface v} {t : Token}
    {ts : List Token} (h : e.spelling = t :: ts) : v.isDotToken t = false := by
  rcases Surface.spelling_cases h with ⟨hplain, -⟩ | ⟨ho, -⟩
  · exact (Vocabulary.isStructural_eq_false.1 hplain).2.2
  · exact hv.not_dot_of_open ho

namespace Clause

mutual

/-- The brackets of a spelling are balanced. -/
theorem balanced_spelling (hv : v.Separated) (e : Surface v) : Balanced v e.spelling := by
  match e with
  | .token t =>
    obtain ⟨ho, hc, -⟩ := Vocabulary.isStructural_eq_false.1 t.property
    exact .token ho hc .nil
  | .empty opening closing => exact .clause opening.property closing.property .nil .nil
  | .clause opening closing first tail =>
    have hbody := (balanced_spelling hv first).append (balanced_tail_spelling hv tail)
    exact .clause opening.property closing.property hbody .nil

/-- The brackets behind an expression are balanced. -/
theorem balanced_tail_spelling (hv : v.Separated) (tail : Tail v) : Balanced v tail.spelling := by
  match tail with
  | .done => exact .nil
  | .dot dot data =>
    exact .token (hv.not_open_of_dot dot.property) (hv.not_close_of_dot dot.property)
      (balanced_spelling hv data)
  | .next e tail => exact (balanced_spelling hv e).append (balanced_tail_spelling hv tail)

end

/-- A spelling that begins with an opening bracket ends with the bracket that closes the clause. -/
theorem closed_spelling (hv : v.Separated) {e : Surface v} {t : Token} {ts : List Token}
    (he : e.spelling = t :: ts) (ho : v.isOpenToken t = true) : Closed v (t :: ts) := by
  cases e with
  | token t' =>
    obtain ⟨rfl, -⟩ := List.cons.inj he
    rw [(Vocabulary.isStructural_eq_false.1 t'.property).1] at ho
    exact absurd ho Bool.false_ne_true
  | empty opening closing =>
    exact ⟨opening, [], closing, he.symm, opening.property, closing.property, .nil⟩
  | clause opening closing first tail =>
    have hbody := (balanced_spelling hv first).append (balanced_tail_spelling hv tail)
    exact ⟨opening, _, closing, he.symm, opening.property, closing.property, hbody⟩

/-- A search that begins at an opening bracket ends with the clause that it opens. -/
theorem closing?_clause (hv : v.Separated) {e : Surface v} {t : Token} {ts : List Token}
    (he : e.spelling = t :: ts) (ho : v.isOpenToken t = true) (rest : List Token) :
    closing? v 0 (t :: ts ++ rest) = some ts.length := by
  obtain ⟨opening, body, closing, heq, -, hc, hbody⟩ := closed_spelling hv he ho
  obtain ⟨rfl, htail⟩ := List.cons.inj heq
  have htail : ts = body ++ [closing] := htail
  have hlist : t :: (body ++ [closing]) ++ rest = t :: (body ++ closing :: rest) := by simp
  rw [htail, hlist, hbody.closing?_clause hv.opensApart ho hc, List.length_append, List.length_singleton]

/-- A sequence that begins with a spelling begins with an element of that length. -/
theorem elementLength_spelling (hv : v.Separated) {e : Surface v} {t : Token} {ts : List Token}
    (he : e.spelling = t :: ts) (rest : List Token) :
    elementLength v t (ts ++ rest) = .ok (ts.length + 1) := by
  rcases Surface.spelling_cases he with ⟨hplain, rfl⟩ | ⟨ho, -⟩
  · obtain ⟨ho, hc, -⟩ := Vocabulary.isStructural_eq_false.1 hplain
    exact elementLength_token ho hc
  · exact elementLength_clause ho (closing?_clause hv he ho rest)

end Clause

end PairLisp
