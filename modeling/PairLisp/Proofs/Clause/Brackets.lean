import PairLisp.Proofs.Clause.Dotted
import PairLisp.Proofs.SExpr.Dotted

/-!
# The kinds of brackets in clauses

Tokens that are the same when their brackets are made round have the same dotted form
(`Clause.dotted_eq_ok_of_round`). A search for a closing bracket does not look at kinds of brackets
(`Clause.closing?_map_round`), and in a tree of the grammar the brackets can be exchanged for those
of any such tokens (`exists_surface_of_round`).
-/

namespace PairLisp

open Vocabulary

variable {t u : Token} {ts us : List Token}

/-! ## Tokens -/

namespace Token

/-- A round bracket opens a clause, or closes one, if the bracket does for which it stands. -/
theorem isOpenToken_round (t : Token) :
    standard.isOpenToken t.round = standard.isOpenToken t := by
  unfold round
  split
  · next ho => rw [ho]; decide
  · split
    · next ho _ => rw [Bool.eq_false_iff.2 ho]; decide
    · rfl

theorem isCloseToken_round (t : Token) :
    standard.isCloseToken t.round = standard.isCloseToken t := by
  unfold round
  split
  · next ho => rw [separated_standard.not_close_of_open ho]; decide
  · split
    · next _ hc => rw [hc]; decide
    · rfl

/-- Only a dot is a dot with round brackets. -/
theorem isDotToken_round (t : Token) :
    standard.isDotToken t.round = standard.isDotToken t := by
  unfold round
  split
  · next ho => rw [separated_standard.not_dot_of_open ho]; decide
  · split
    · next _ hc => rw [separated_standard.not_dot_of_close hc]; decide
    · rfl

theorem isOpenToken_of_round (h : u.round = t.round) :
    standard.isOpenToken u = standard.isOpenToken t := by
  rw [← isOpenToken_round u, h, isOpenToken_round]

theorem isCloseToken_of_round (h : u.round = t.round) :
    standard.isCloseToken u = standard.isCloseToken t := by
  rw [← isCloseToken_round u, h, isCloseToken_round]

theorem isDotToken_of_round (h : u.round = t.round) :
    standard.isDotToken u = standard.isDotToken t := by
  rw [← isDotToken_round u, h, isDotToken_round]

/-- Tokens that are one with round brackets are structural together. -/
theorem isStructural_of_round (h : u.round = t.round) :
    standard.isStructural u = standard.isStructural t := by
  unfold isStructural
  rw [isOpenToken_of_round h, isCloseToken_of_round h, isDotToken_of_round h]

/-- A token that is no bracket and no dot stays what it is. -/
theorem eq_of_round (ht : standard.isStructural t = false) (h : u.round = t.round) : u = t := by
  have hu : standard.isStructural u = false := (isStructural_of_round h).trans ht
  rwa [round_plain hu, round_plain ht] at h

end Token

/-! ## Spellings -/

mutual

/-- Tokens that are a spelling but for the kinds of their brackets are a spelling of the same
expression. -/
theorem exists_surface_of_round (e : Surface standard) {us : List Token}
    (h : us.map Token.round = e.spelling.map Token.round) :
    ∃ e' : Surface standard,
      e'.spelling = us ∧ e'.nesting = e.nesting ∧ e'.tree = e.tree := by
  match e with
  | .token t =>
    obtain ⟨u, rfl, hu⟩ := List.map_eq_singleton_iff.1 h
    obtain rfl := Token.eq_of_round t.property hu
    exact ⟨.token t, rfl, rfl, rfl⟩
  | .empty opening closing =>
    obtain ⟨o, us, rfl, ho, hrest⟩ := List.map_eq_cons_iff.1 h
    obtain ⟨c, rfl, hc⟩ := List.map_eq_singleton_iff.1 hrest
    let opening' : OpenToken standard :=
      ⟨o, (Token.isOpenToken_of_round ho).trans opening.property⟩
    let closing' : CloseToken standard :=
      ⟨c, (Token.isCloseToken_of_round hc).trans closing.property⟩
    exact ⟨.empty opening' closing', rfl, rfl, rfl⟩
  | .clause opening closing first rest =>
    have hspelling : (Surface.clause opening closing first rest).spelling.map Token.round =
        opening.val.round :: (first.spelling.map Token.round ++
          (rest.spelling.map Token.round ++ [closing.val.round])) := by simp [Surface.spelling]
    rw [hspelling] at h
    obtain ⟨o, us, rfl, ho, h⟩ := List.map_eq_cons_iff.1 h
    obtain ⟨us₁, us, rfl, hfirst, h⟩ := List.map_eq_append_iff.1 h
    obtain ⟨us₂, us, rfl, hrest, h⟩ := List.map_eq_append_iff.1 h
    obtain ⟨c, rfl, hc⟩ := List.map_eq_singleton_iff.1 h
    obtain ⟨first', rfl, hfirstNesting, hfirstTree⟩ := exists_surface_of_round first hfirst
    obtain ⟨rest', rfl, hrestNesting, hrestTree⟩ := exists_tail_of_round rest hrest
    let opening' : OpenToken standard :=
      ⟨o, (Token.isOpenToken_of_round ho).trans opening.property⟩
    let closing' : CloseToken standard :=
      ⟨c, (Token.isCloseToken_of_round hc).trans closing.property⟩
    refine ⟨.clause opening' closing' first' rest', ?_, ?_, ?_⟩
    · simp [Surface.spelling, opening', closing']
    · rw [Surface.nesting, hfirstNesting, hrestNesting, Surface.nesting]
    · rw [Surface.tree, hfirstTree, hrestTree, Surface.tree]

/-- The same holds of what is written behind an expression. -/
theorem exists_tail_of_round (tail : Tail standard) {us : List Token}
    (h : us.map Token.round = tail.spelling.map Token.round) :
    ∃ tail' : Tail standard,
      tail'.spelling = us ∧ tail'.nesting = tail.nesting ∧ tail'.tree = tail.tree := by
  match tail with
  | .done =>
    exact ⟨.done, (List.map_eq_nil_iff.1 h).symm, rfl, rfl⟩
  | .dot dot data =>
    obtain ⟨d, us, rfl, hd, hdata⟩ := List.map_eq_cons_iff.1 h
    obtain ⟨data', rfl, hnesting, htree⟩ := exists_surface_of_round data hdata
    let dot' : DotToken standard := ⟨d, (Token.isDotToken_of_round hd).trans dot.property⟩
    exact ⟨.dot dot' data', rfl, hnesting, htree⟩
  | .next e rest =>
    rw [Tail.spelling, List.map_append] at h
    obtain ⟨us₁, us₂, rfl, he, hrest⟩ := List.map_eq_append_iff.1 h
    obtain ⟨e', rfl, heNesting, heTree⟩ := exists_surface_of_round e he
    obtain ⟨rest', rfl, hrestNesting, hrestTree⟩ := exists_tail_of_round rest hrest
    refine ⟨.next e' rest', rfl, ?_, ?_⟩
    · rw [Tail.nesting, heNesting, hrestNesting, Tail.nesting]
    · rw [Tail.tree, heTree, hrestTree, Tail.tree]

end

namespace Clause

/-- A search for a closing bracket does not look at kinds of brackets. -/
theorem closing?_map_round (depth : Nat) (ts : List Token) :
    closing? standard depth (ts.map Token.round) = closing? standard depth ts := by
  induction ts generalizing depth with
  | nil => rfl
  | cons t ts ih =>
    rw [List.map_cons]
    unfold closing?
    rw [Token.isOpenToken_round, Token.isCloseToken_round, ih, ih, ih]

/-- A clause with other brackets is closed at the same place. -/
theorem closing?_of_round (h : us.map Token.round = ts.map Token.round) (depth : Nat) :
    closing? standard depth us = closing? standard depth ts := by
  rw [← closing?_map_round depth us, h, closing?_map_round]

/-- Tokens that differ in the kinds of their brackets only have the same dotted form. -/
theorem dotted_eq_ok_of_round {out : List Token} (h : us.map Token.round = ts.map Token.round)
    (hts : dotted ts = .ok out) : dotted us = .ok out := by
  obtain ⟨e, rfl, hnesting, rfl⟩ := (dottedIn_eq_ok separated_standard out).1 hts
  obtain ⟨e', rfl, hnesting', htree⟩ := exists_surface_of_round e h
  rw [← htree]
  exact dottedIn_spelling separated_standard e' (hnesting' ▸ hnesting)

end Clause

end PairLisp
