import PairLisp.Proofs.Clause.Surface
import PairLisp.Proofs.SExpr.All
import PairLisp.Proofs.Token.Written
import PairLisp.SExpr.Printer

/-!
# Printed expressions are in the grammar

An expression whose atoms a program may write down prints as a text of the grammar: the text is
written with the tokens of a surface expression (`SExpr.written_printOnto`). A list prints as a
clause without a dot and any other pair as one with a dot, so the brackets of the surface
expression nest as deeply as `SExpr.printNesting` says.

A numeral prints without its plus sign, and this is all that is lost: the surface expression stands
for the expression with the plus signs taken off its numerals.
-/

namespace PairLisp

/-! ## Atoms without plus signs -/

namespace Atom

/-- The atom without its plus sign, if it is a numeral that has one. -/
def withoutPlus (a : Atom) : Atom :=
  match a.text.toList with
  | '+' :: digits => if a.isNumeral then ⟨String.ofList digits⟩ else a
  | _ => a

variable {a : Atom}

/-- An atom without its plus sign has the text that the atom prints as. -/
theorem text_withoutPlus (a : Atom) : a.withoutPlus.text = a.display := by
  unfold withoutPlus
  split
  · next digits heq =>
    unfold display displayChars
    simp only [heq]
    split
    · rfl
    · rw [← heq, String.ofList_toList]
  · next hplus =>
    unfold display displayChars
    split
    · next digits heq => exact absurd heq (hplus digits)
    · rw [String.ofList_toList]

theorem digits_of_isNumeral (h : a.isNumeral = true) :
    Vocabulary.unsigned a.text.toList ≠ [] ∧
      ∀ c ∈ Vocabulary.unsigned a.text.toList, Vocabulary.standard.isDigit c = true := by
  refine Token.isNumeral_ofList.1 ?_
  rw [String.ofList_toList]
  exact h

/-- The digits behind the plus sign of a numeral, where there is one. -/
theorem withoutPlus_cases (a : Atom) : a.withoutPlus = a ∨
    ∃ digits, digits ≠ [] ∧ (∀ c ∈ digits, Vocabulary.standard.isDigit c = true) ∧
      a.withoutPlus = ⟨String.ofList digits⟩ := by
  unfold withoutPlus
  split
  · next digits heq =>
    split
    · next hnumeral =>
      obtain ⟨hne, hdigits⟩ := digits_of_isNumeral hnumeral
      rw [heq] at hne hdigits
      exact .inr ⟨digits, hne, hdigits, rfl⟩
    · exact .inl rfl
  · exact .inl rfl

end Atom

namespace SExpr

open Token

/-- The expression with a function applied to each of its atoms. -/
def mapAtoms (f : Atom → Atom) : SExpr → SExpr
  | .atom a => .atom (f a)
  | .cons a d => .cons (a.mapAtoms f) (d.mapAtoms f)

theorem all_mapAtoms {p q : Atom → Prop} {f : Atom → Atom} {x : SExpr} (h : ∀ a, p a → q (f a))
    (hx : x.All p) : (x.mapAtoms f).All q := by
  induction x with
  | atom a => exact h a hx
  | cons a d iha ihd => exact ⟨iha hx.1, ihd hx.2⟩

mutual

/-- How deeply the brackets of the printed form nest. -/
def printNesting : SExpr → Nat
  | .atom _ => 0
  | .cons a d =>
    if d.terminator.isNil then max a.printNesting d.elementsNesting + 1
    else max a.printNesting d.printNesting + 1

/-- How deeply the brackets of the elements of a list nest. -/
def elementsNesting : SExpr → Nat
  | .atom _ => 0
  | .cons a d => max a.printNesting d.elementsNesting

end

theorem stops_printElementsOnto (x : SExpr) (rest : List Char) :
    Stops (x.printElementsOnto rest) := by
  cases x with
  | atom a => exact stops_cons (by decide)
  | cons a d => exact stops_cons (by decide)

/-- A numeral can be written without its plus sign. -/
theorem writable_withoutPlus {a : Atom} (h : Writable a) : Writable a.withoutPlus := by
  rcases a.withoutPlus_cases with heq | ⟨digits, hne, hdigits, heq⟩
  · rw [heq]
    exact h
  · rw [heq]
    refine writable_of_isWord (isWord_ofList.2 ⟨hne, fun c hc => ?_⟩)
    exact Vocabulary.isWordChar_of_isDigit (hdigits c hc)

mutual

/-- A printed expression is written with the tokens of a surface expression that stands for it. -/
theorem written_printOnto (x : SExpr) (hx : x.All Writable) : ∃ e : Surface .standard,
    e.tree = x.mapAtoms Atom.withoutPlus ∧ e.nesting = x.printNesting ∧
      ∀ rest ts, Stops rest → Written rest ts → Written (x.printOnto rest) (e.spelling ++ ts) := by
  cases x with
  | atom a =>
    have ha : Writable a.withoutPlus := writable_withoutPlus hx
    refine ⟨.token ⟨a.withoutPlus.text, ha.2⟩, rfl, rfl, fun rest ts hrest h => ?_⟩
    have hlexeme : IsLexeme a.displayChars := by
      show Atom.isText a.display = true
      rw [← Atom.text_withoutPlus]
      exact ha.1
    have hne : a.displayChars ≠ [] := fun hnil => not_isLexeme_nil (hnil ▸ hlexeme)
    show Written (a.displayChars ++ rest) (a.withoutPlus.text :: ts)
    rw [Atom.text_withoutPlus]
    exact .token hlexeme (hrest.ends hne) h
  | cons a d =>
    obtain ⟨e, htree, hnesting, hwritten⟩ := written_printOnto a hx.1
    by_cases hnil : d.terminator.isNil = true
    · obtain ⟨tail, htree', hnesting', hwritten'⟩ := written_printElementsOnto d hx.2 hnil
      refine ⟨.clause ⟨"(", by decide⟩ ⟨")", by decide⟩ e tail, ?_, ?_, fun rest ts hrest h => ?_⟩
      · show SExpr.cons e.tree tail.tree = _
        rw [htree, htree', mapAtoms]
      · show max e.nesting tail.nesting + 1 = _
        rw [hnesting, hnesting', printNesting, if_pos hnil]
      · have hlist : (Surface.clause ⟨"(", by decide⟩ ⟨")", by decide⟩ e tail).spelling ++ ts =
            "(" :: (e.spelling ++ (tail.spelling ++ ")" :: ts)) := by
          simp [Surface.spelling]
        rw [hlist, printOnto, if_pos hnil]
        exact written_single (by decide)
          (hwritten _ _ (stops_printElementsOnto d rest) (hwritten' rest ts h))
    · obtain ⟨e', htree', hnesting', hwritten'⟩ := written_printOnto d hx.2
      refine ⟨.clause ⟨"(", by decide⟩ ⟨")", by decide⟩ e (.dot ⟨".", by decide⟩ e'), ?_, ?_,
        fun rest ts hrest h => ?_⟩
      · show SExpr.cons e.tree e'.tree = _
        rw [htree, htree', mapAtoms]
      · show max e.nesting e'.nesting + 1 = _
        rw [hnesting, hnesting', printNesting, if_neg hnil]
      · have hlist : (Surface.clause ⟨"(", by decide⟩ ⟨")", by decide⟩ e
            (.dot ⟨".", by decide⟩ e')).spelling ++ ts =
              "(" :: (e.spelling ++ "." :: (e'.spelling ++ ")" :: ts)) := by
          simp [Surface.spelling, Tail.spelling]
        have hdata := hwritten' (')' :: rest) (")" :: ts) (stops_cons (by decide))
          (written_single (by decide) h)
        have hdot : Written (' ' :: '.' :: ' ' :: d.printOnto (')' :: rest))
            ("." :: (e'.spelling ++ ")" :: ts)) :=
          .blank (by decide) (written_single (by decide) (.blank (by decide) hdata))
        rw [hlist, printOnto, if_neg hnil]
        exact written_single (by decide) (hwritten _ _ (stops_cons (by decide)) hdot)

/-- The elements of a list behind the first one are printed as a tail of the grammar, up to the
bracket that closes the clause. -/
theorem written_printElementsOnto (x : SExpr) (hx : x.All Writable)
    (hnil : x.terminator.isNil = true) : ∃ tail : Tail .standard,
    tail.tree = x.mapAtoms Atom.withoutPlus ∧ tail.nesting = x.elementsNesting ∧
      ∀ rest ts, Written rest ts →
        Written (x.printElementsOnto rest) (tail.spelling ++ ")" :: ts) := by
  cases x with
  | atom a =>
    obtain rfl := Atom.eq_nil_of_isNil hnil
    exact ⟨.done, rfl, rfl, fun rest ts h => written_single (by decide) h⟩
  | cons a d =>
    obtain ⟨e, htree, hnesting, hwritten⟩ := written_printOnto a hx.1
    obtain ⟨tail, htree', hnesting', hwritten'⟩ := written_printElementsOnto d hx.2 hnil
    refine ⟨.next e tail, ?_, ?_, fun rest ts h => ?_⟩
    · show SExpr.cons e.tree tail.tree = _
      rw [htree, htree', mapAtoms]
    · show max e.nesting tail.nesting = _
      rw [hnesting, hnesting', elementsNesting]
    · have hlist : (Tail.next e tail).spelling ++ ")" :: ts =
          e.spelling ++ (tail.spelling ++ ")" :: ts) := by
        simp [Tail.spelling]
      rw [hlist, printElementsOnto]
      exact .blank (by decide)
        (hwritten _ _ (stops_printElementsOnto d rest) (hwritten' rest ts h))

end

end SExpr

end PairLisp
