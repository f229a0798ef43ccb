import PairLisp.Proofs.SExpr.All
import PairLisp.SExpr.Copy

/-!
# Sameness of expressions

Two expressions are the same if and only if they are written with the same tokens, as long as no
atom of theirs passes for a bracket or a dot (`SExpr.same_iff_tokens_eq`). A pair stands between
brackets of its own, and so the tokens say where an expression ends, whatever stands behind it
(`SExpr.tokens_append_inj`). A copy is the expression itself (`SExpr.copy_eq`).
-/

namespace PairLisp

namespace Atom

/-- The text of the atom is neither a bracket nor a dot. -/
def Unstructured (a : Atom) : Prop := Vocabulary.standard.isStructural a.text = false

instance : DecidablePred Unstructured := fun a =>
  inferInstanceAs (Decidable (Vocabulary.standard.isStructural a.text = false))

theorem Unstructured.text_ne_open {a : Atom} (h : a.Unstructured) : a.text ≠ "(" := by
  intro htext
  unfold Unstructured at h
  rw [htext] at h
  exact absurd h (by decide)

end Atom

namespace SExpr

variable {x y : SExpr}

/-! ## Expressions from their tokens -/

/-- An expression comes back from its tokens in front of any others, and so do the others. -/
theorem tokens_append_inj (hx : x.All Atom.Unstructured) (hy : y.All Atom.Unstructured)
    {rest rest' : List Token} (h : x.tokens ++ rest = y.tokens ++ rest') :
    x = y ∧ rest = rest' := by
  induction x generalizing y rest rest' with
  | atom a =>
    cases y with
    | atom b =>
      obtain ⟨htext, hrest⟩ := List.cons.inj h
      exact ⟨congrArg (fun text => atom ⟨text⟩) htext, hrest⟩
    | cons b e =>
      -- a pair begins with a bracket, which is no atom
      rw [tokens_cons] at h
      exact absurd (List.cons.inj h).1 hx.text_ne_open
  | cons a d iha ihd =>
    cases y with
    | atom b =>
      rw [tokens_cons] at h
      exact absurd (List.cons.inj h).1.symm hy.text_ne_open
    | cons b e =>
      have htokens : a.tokens ++ "." :: (d.tokens ++ ")" :: rest) =
          b.tokens ++ "." :: (e.tokens ++ ")" :: rest') := by
        simpa using h
      obtain ⟨rfl, hdata⟩ := iha hx.1 hy.1 htokens
      obtain ⟨rfl, hrest⟩ := ihd hx.2 hy.2 (List.cons.inj hdata).2
      exact ⟨rfl, (List.cons.inj hrest).2⟩

/-- Expressions whose atoms are no brackets or dots are told apart by their tokens. -/
theorem tokens_inj (hx : x.All Atom.Unstructured) (hy : y.All Atom.Unstructured) :
    x.tokens = y.tokens ↔ x = y := by
  constructor
  · intro h
    exact (tokens_append_inj hx hy (congrArg (· ++ []) h)).1
  · exact congrArg tokens

/-! ## Copies -/

/-- Behind the addresses in front of it a chain is put together again as it was. -/
theorem copyChain_eq (hcopy : ∀ a ∈ x.elements, a.copy = a) (addresses : List SExpr) :
    x.copyChain addresses = rebuild addresses x := by
  induction x generalizing addresses with
  | atom a => rfl
  | cons a d _ ihd =>
    rw [elements, List.forall_mem_cons] at hcopy
    rw [copyChain, ihd hcopy.2, hcopy.1]
    rfl

theorem copy_eq (x : SExpr) : x.copy = x := by
  have hall : x.copy = x ∧ ∀ a ∈ x.elements, a.copy = a := by
    induction x with
    | atom a => exact ⟨rfl, by simp [elements]⟩
    | cons a d iha ihd =>
      refine ⟨?_, ?_⟩
      · rw [copy, iha.1, copyChain_eq ihd.2]
        rfl
      · rw [elements, List.forall_mem_cons]
        exact ⟨iha.1, ihd.2⟩
  exact hall.1

/-- Expressions whose atoms are neither brackets nor dots are the same if and only if their tokens
are, and a copy has the tokens of the expression. -/
theorem same_iff_tokens_eq (x y : SExpr) :
    (x.All Atom.Unstructured → y.All Atom.Unstructured →
      (x.same y = true ↔ x.tokens = y.tokens)) ∧
    x.copy.tokens = x.tokens := by
  refine ⟨fun hx hy => ?_, congrArg tokens (copy_eq x)⟩
  rw [same_iff, tokens_inj hx hy]

/-- The pair `((a . (b . NIL)) . ".")` with a string that is no dot, and the pair of the same atoms
in the same order that associates the other way. -/
theorem same_iff_tokens_eq_regrouped :
    let x : SExpr := .cons (.cons (.atom ⟨"a"⟩) (.cons (.atom ⟨"b"⟩) nil)) (.atom ⟨"\".\""⟩)
    let y : SExpr := .cons (.cons (.atom ⟨"a"⟩) (.atom ⟨"b"⟩)) (.cons nil (.atom ⟨"\".\""⟩))
    x.All Atom.Unstructured ∧ y.All Atom.Unstructured ∧ x.same y = false ∧
      x.tokens ≠ y.tokens ∧ x.copy.tokens = x.tokens := by
  intro x y
  have hx : x.All Atom.Unstructured := by decide
  have hy : y.All Atom.Unstructured := by decide
  have hsame : x.same y = false := by decide
  obtain ⟨hiff, hcopy⟩ := same_iff_tokens_eq x y
  refine ⟨hx, hy, hsame, fun htokens => ?_, hcopy⟩
  rw [(hiff hx hy).2 htokens] at hsame
  exact Bool.noConfusion hsame

end SExpr

end PairLisp
