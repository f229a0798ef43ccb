import Mathlib.Data.List.Chain
import Mathlib.Logic.ExistsUnique
import PairLisp.Primitive.Builtin
import PairLisp.Proofs.Numeral.Spelling
import PairLisp.Proofs.Primitive.Argument
import PairLisp.Proofs.SExpr.Legible

/-!
# Comparisons

The functions `less`, `greater`, `leq` and `geq` compare numbers, and `eq` compares printed forms.

Two expressions that a program can get hold of are equal for `eq` if and only if they are the same up
to the plus signs of their numerals (`Builtin.apply_eq_of_legible`): no two others print alike.

An order tests its relation between all neighbours in a sequence of numbers, into which the arguments
behind the first are spliced; a list in the first place is refused (`Builtin.apply_order`).

Of two numbers, at most one of `less`, `eq` and `greater` holds. None of them does if the numbers are
equal but spelled in two ways that differ in more than a plus sign; otherwise exactly one does
(`Builtin.trichotomy`).
-/

namespace PairLisp.Builtin

open Argument

/-! ## Equality -/

/-- The function `eq` tells legible expressions apart unless they are the same without the plus signs
of their numerals. -/
theorem apply_eq_of_legible {x y : SExpr} (hx : x.All Atom.Legible) (hy : y.All Atom.Legible) :
    eq.apply [x, y] =
      .ok (.ofBool (decide (x.mapAtoms Atom.withoutPlus = y.mapAtoms Atom.withoutPlus))) := by
  have hprint : (x.print == y.print) =
      decide (x.mapAtoms Atom.withoutPlus = y.mapAtoms Atom.withoutPlus) := by
    rw [Bool.eq_iff_iff, beq_iff_eq, decide_eq_true_iff]
    exact SExpr.print_eq_iff hx hy
  show Except.ok (SExpr.ofBool (x.print == y.print)) = _
  rw [hprint]

/-- A plus sign makes no difference in front of a string and a handle. A string is told apart from the
pair whose text it has between its quotes. -/
theorem apply_eq_of_legible_string :
    let string : SExpr := .atom ⟨"\"(a . b)\""⟩
    let pair : SExpr := .cons (.atom ⟨"a"⟩) (.atom ⟨"b"⟩)
    let ending : SExpr := .cons string (.atom (.handle 1))
    let x : SExpr := .cons (.atom ⟨"+5"⟩) ending
    let y : SExpr := .cons (.atom ⟨"5"⟩) ending
    string.All Atom.Legible ∧ pair.All Atom.Legible ∧ x.All Atom.Legible ∧ y.All Atom.Legible ∧
      x ≠ y ∧ eq.apply [x, y] = .ok (.ofBool true) ∧
      eq.apply [string, pair] = .ok (.ofBool false) := by
  intro string pair ending x y
  have hstring : string.All Atom.Legible := .inl ⟨by decide, by decide⟩
  have hpair : pair.All Atom.Legible := ⟨.inl ⟨by decide, by decide⟩, .inl ⟨by decide, by decide⟩⟩
  have hending : ending.All Atom.Legible := ⟨hstring, .inr ⟨1, rfl⟩⟩
  have hx : x.All Atom.Legible := ⟨.inl ⟨by decide, by decide⟩, hending⟩
  have hy : y.All Atom.Legible := ⟨.inl ⟨by decide, by decide⟩, hending⟩
  have hsame : x.mapAtoms Atom.withoutPlus = y.mapAtoms Atom.withoutPlus := by decide +kernel
  have hdifferent : ¬ string.mapAtoms Atom.withoutPlus = pair.mapAtoms Atom.withoutPlus := by
    decide +kernel
  refine ⟨hstring, hpair, hx, hy, by decide, ?_, ?_⟩
  · rw [apply_eq_of_legible hx hy, decide_eq_true hsame]
  · rw [apply_eq_of_legible hstring hpair, decide_eq_false hdifferent]

/-! ## Orders -/

/-- The function tests the relation between neighbours. -/
inductive Orders : Builtin → (Int → Int → Prop) → Prop where
  | less : Orders less (· < ·)
  | greater : Orders greater (· > ·)
  | leq : Orders leq (· ≤ ·)
  | geq : Orders geq (· ≥ ·)

variable {f : Builtin} {r : Int → Int → Prop}

theorem Orders.exists_compare (h : Orders f r) :
    ∃ relation : Int → Int → Bool, f.apply = compare relation ∧
      ∀ m n, relation m n = true ↔ r m n := by
  cases h with
  | less | greater | leq | geq => exact ⟨_, rfl, fun m n => decide_eq_true_iff⟩

theorem chained_iff {relation : Int → Int → Bool} (h : ∀ m n, relation m n = true ↔ r m n)
    (n : Int) (ns : List Int) :
    Arithmetic.chained relation n ns = true ↔ (n :: ns).IsChain r := by
  induction ns generalizing n with
  | nil => exact iff_of_true rfl (List.isChain_singleton n)
  | cons m ms ih =>
    unfold Arithmetic.chained
    rw [Bool.and_eq_true, List.isChain_cons_cons, h, ih]

/-- An order of a number and further arguments that stand for numbers. -/
theorem apply_of_number (hf : Orders f r) {x : SExpr} {xs : List SExpr} {n : Int} {ns : List Int}
    (hx : Number x n) (hxs : Splices xs ns) :
    ∃ b, f.apply (x :: xs) = .ok (.ofBool b) ∧ (b = true ↔ (n :: ns).IsChain r) := by
  obtain ⟨relation, happly, hrelation⟩ := hf.exists_compare
  refine ⟨Arithmetic.chained relation n ns, ?_, chained_iff hrelation n ns⟩
  have hint : int x = .ok n := int_eq_ok_iff.2 hx
  have hnumbers : numbers xs = .ok ns := numbers_eq_ok_iff.2 hxs
  rw [happly]
  unfold compare
  dsimp only
  rw [hint, ok_bind, hnumbers, ok_bind]

/-- An order of arguments that stand for numbers. If the first of them is a number itself, the value
says whether the relation holds between all neighbours in the sequence with lists spliced in. If the
first is a list, it is refused. -/
theorem apply_order (hf : Orders f r) {x : SExpr} {xs : List SExpr} {ns : List Int}
    (h : Splices (x :: xs) ns) :
    (x.isAtom = true →
        ∃ b, f.apply (x :: xs) = .ok (.ofBool b) ∧ (b = true ↔ ns.IsChain r)) ∧
      (x.isAtom = false → f.apply (x :: xs) = .error (TypeError.expectedNumber x)) := by
  obtain ⟨ms, rest, hms, hrest, rfl⟩ := splices_cons_iff.1 h
  cases x with
  | atom a =>
    obtain ⟨n, hn, rfl⟩ := standsFor_atom_iff.1 hms
    exact ⟨fun _ => apply_of_number hf hn hrest, fun hatom => Bool.noConfusion hatom⟩
  | cons a d =>
    obtain ⟨relation, happly, -⟩ := hf.exists_compare
    refine ⟨fun hatom => Bool.noConfusion hatom, fun _ => ?_⟩
    rw [happly]
    rfl

/-- Behind a number in the first place, a list is spliced in. -/
theorem apply_order_spliced :
    let args : List SExpr := [.ofInt 1, .ofList [.ofInt 2, .ofInt 3], .ofInt 3]
    let ns : List Int := [1, 2, 3, 3]
    Orders leq (· ≤ ·) ∧ Splices args ns ∧
      (∃ b, leq.apply args = .ok (.ofBool b) ∧ (b = true ↔ ns.IsChain (· ≤ ·))) ∧
      leq.apply args = .ok (.ofBool true) := by
  intro args ns
  have hsplices : Splices args ns := numbers_eq_ok_iff.1 (by decide +kernel)
  obtain ⟨b, happly, hb⟩ := (apply_order .leq hsplices).1 rfl
  have hchain : b = true := hb.2 (by decide)
  exact ⟨.leq, hsplices, ⟨b, happly, hb⟩, hchain ▸ happly⟩

/-- A list in the first place is refused even if the relation holds between all neighbours. -/
theorem apply_order_list :
    let args : List SExpr := [.ofList [.ofInt 1, .ofInt 2], .ofInt 3]
    Orders less (· < ·) ∧ Splices args [1, 2, 3] ∧ [1, 2, 3].IsChain (· < ·) ∧
      less.apply args = .error (TypeError.expectedNumber (.ofList [.ofInt 1, .ofInt 2])) := by
  intro args
  have hsplices : Splices args [1, 2, 3] := numbers_eq_ok_iff.1 (by decide +kernel)
  exact ⟨.less, hsplices, by decide, rfl⟩

/-! ## Two numbers -/

/-- The function has the value `T` for the two atoms. -/
def Holds (f : Builtin) (a b : Atom) : Prop := f.apply [.atom a, .atom b] = .ok (.ofBool true)

instance (f : Builtin) (a b : Atom) : Decidable (f.Holds a b) :=
  inferInstanceAs (Decidable (_ = _))

theorem ofBool_eq_true_iff {b : Bool} :
    (Except.ok (.ofBool b) : Except Error SExpr) = .ok (.ofBool true) ↔ b = true := by
  cases b <;> decide

variable {a b : Atom} {m n : Int}

/-- Of two numbers an order says whether it holds of them. -/
theorem apply_two (hf : Orders f r) (ha : a.toInt? = some m) (hb : b.toInt? = some n) :
    ∃ v, f.apply [.atom a, .atom b] = .ok (.ofBool v) ∧ (v = true ↔ r m n) := by
  have hnumber : Number (.atom a) m := ha
  have hsplices : Splices [.atom b] [n] := splices_singleton hb
  obtain ⟨v, happly, hv⟩ := apply_of_number hf hnumber hsplices
  exact ⟨v, happly, hv.trans List.isChain_pair⟩

theorem holds_order_iff (hf : Orders f r) (ha : a.toInt? = some m) (hb : b.toInt? = some n) :
    f.Holds a b ↔ r m n := by
  obtain ⟨v, happly, hv⟩ := apply_two hf ha hb
  unfold Holds
  rw [happly, ofBool_eq_true_iff, hv]

theorem legible_of_toInt? (h : a.toInt? = some n) : a.Legible :=
  .inl (SExpr.writable_of_isNumeral (Atom.toInt?_eq_some_iff.1 h).1)

/-- Numerals are equal if they differ in a plus sign at most. -/
theorem holds_eq_iff (ha : a.toInt? = some m) (hb : b.toInt? = some n) :
    eq.Holds a b ↔ a.withoutPlus = b.withoutPlus := by
  have hprint : (SExpr.atom a).print = (SExpr.atom b).print ↔
      SExpr.atom a.withoutPlus = SExpr.atom b.withoutPlus :=
    SExpr.print_eq_iff (legible_of_toInt? ha) (legible_of_toInt? hb)
  show Except.ok (SExpr.ofBool ((SExpr.atom a).print == (SExpr.atom b).print)) = _ ↔ _
  rw [ofBool_eq_true_iff, beq_iff_eq, hprint, SExpr.atom.injEq]

/-- Numerals of different numbers are not equal for `eq`. -/
theorem eq_of_holds_eq (ha : a.toInt? = some m) (hb : b.toInt? = some n) (h : eq.Holds a b) :
    m = n := by
  have hsame := congrArg Atom.toInt? ((holds_eq_iff ha hb).1 h)
  rw [Atom.toInt?_withoutPlus, Atom.toInt?_withoutPlus, ha, hb] at hsame
  exact Option.some.inj hsame

/-- The comparisons of which at most one holds. -/
def alternatives : List Builtin := [less, eq, greater]

/-- How two numbers stand to each other if the comparison of them holds. -/
def ordering : Builtin → Ordering
  | less => .lt
  | greater => .gt
  | _ => .eq

theorem ordering_inj {f g : Builtin} (hf : f ∈ alternatives) (hg : g ∈ alternatives)
    (h : f.ordering = g.ordering) : f = g := by
  have hall : ∀ f ∈ alternatives, ∀ g ∈ alternatives, f.ordering = g.ordering → f = g := by decide
  exact hall f hf g hg h

theorem compare_eq_ordering (ha : a.toInt? = some m) (hb : b.toInt? = some n)
    (hf : f ∈ alternatives) (h : f.Holds a b) : Ord.compare m n = f.ordering := by
  simp only [alternatives, List.mem_cons, List.not_mem_nil, or_false] at hf
  rcases hf with rfl | rfl | rfl
  · exact compare_lt_iff_lt.2 ((holds_order_iff .less ha hb).1 h)
  · exact compare_eq_iff_eq.2 (eq_of_holds_eq ha hb h)
  · exact compare_gt_iff_gt.2 ((holds_order_iff .greater ha hb).1 h)

/-- One of the alternatives holds unless the numbers are equal and their numerals are not. -/
theorem exists_holds_iff (ha : a.toInt? = some m) (hb : b.toInt? = some n) :
    (∃ f, f ∈ alternatives ∧ f.Holds a b) ↔ (m = n → a.withoutPlus = b.withoutPlus) := by
  constructor
  · rintro ⟨f, hf, h⟩ hmn
    have hordering : f.ordering = eq.ordering :=
      (compare_eq_ordering ha hb hf h).symm.trans (compare_eq_iff_eq.2 hmn)
    obtain rfl := ordering_inj hf (by decide) hordering
    exact (holds_eq_iff ha hb).1 h
  · intro h
    rcases lt_trichotomy m n with hlt | heq | hgt
    · exact ⟨less, by decide, (holds_order_iff .less ha hb).2 hlt⟩
    · exact ⟨eq, by decide, (holds_eq_iff ha hb).2 (h heq)⟩
    · exact ⟨greater, by decide, (holds_order_iff .greater ha hb).2 hgt⟩

/-- Every comparison of two numbers has a truth value. -/
theorem exists_apply_eq_ofBool (ha : a.toInt? = some m) (hb : b.toInt? = some n) :
    ∀ f ∈ alternatives ++ [leq, geq],
      ∃ v, f.apply [.atom a, .atom b] = .ok (.ofBool v) := by
  have horder : ∀ {f : Builtin} {r : Int → Int → Prop}, Orders f r →
      ∃ v, f.apply [.atom a, .atom b] = .ok (.ofBool v) := fun hf =>
    (apply_two hf ha hb).imp fun _ h => h.1
  intro f hf
  simp only [alternatives, List.cons_append, List.nil_append, List.mem_cons, List.not_mem_nil,
    or_false] at hf
  rcases hf with rfl | rfl | rfl | rfl | rfl
  · exact horder .less
  · exact ⟨_, rfl⟩
  · exact horder .greater
  · exact horder .leq
  · exact horder .geq

/-- The comparisons of two numerals for numbers within the range. At most one of `less`, `eq` and
`greater` holds. The orders depend on the numbers only, and `eq` holds if the numerals are the same but
for a plus sign; then they are numerals for one number. Exactly one of the three holds unless two
numerals for one number differ in more than that, and numerals as short as possible do not. -/
theorem trichotomy (ha : a.toInt? = some m) (hb : b.toInt? = some n) :
    (∀ f ∈ alternatives ++ [leq, geq], ∃ v, f.apply [.atom a, .atom b] = .ok (.ofBool v)) ∧
      (∀ f ∈ alternatives, ∀ g ∈ alternatives, f.Holds a b → g.Holds a b → f = g) ∧
      (less.Holds a b ↔ m < n) ∧ (greater.Holds a b ↔ n < m) ∧
      (leq.Holds a b ∧ geq.Holds a b ↔ m = n) ∧
      (eq.Holds a b ↔ a.withoutPlus = b.withoutPlus) ∧ (eq.Holds a b → m = n) ∧
      ((∃! f, f ∈ alternatives ∧ f.Holds a b) ↔ (m = n → a.withoutPlus = b.withoutPlus)) ∧
      (a.Shortest → b.Shortest →
        (∃! f, f ∈ alternatives ∧ f.Holds a b) ∧ (eq.Holds a b ↔ m = n)) := by
  have hunique : ∀ f ∈ alternatives, ∀ g ∈ alternatives, f.Holds a b → g.Holds a b → f = g := by
    intro f hf g hg h h'
    have hordering : f.ordering = g.ordering :=
      (compare_eq_ordering ha hb hf h).symm.trans (compare_eq_ordering ha hb hg h')
    exact ordering_inj hf hg hordering
  have hexactly : (∃! f, f ∈ alternatives ∧ f.Holds a b) ↔
      (m = n → a.withoutPlus = b.withoutPlus) := by
    rw [← exists_holds_iff ha hb]
    constructor
    · rintro ⟨f, hf, -⟩
      exact ⟨f, hf⟩
    · intro h
      exact existsUnique_of_exists_of_unique h fun f g hf hg =>
        hunique f hf.1 g hg.1 hf.2 hg.2
  have hboth : leq.Holds a b ∧ geq.Holds a b ↔ m = n := by
    rw [holds_order_iff .leq ha hb, holds_order_iff .geq ha hb]
    exact le_antisymm_iff.symm
  have hgreater : greater.Holds a b ↔ m > n := holds_order_iff .greater ha hb
  refine ⟨exists_apply_eq_ofBool ha hb, hunique, holds_order_iff .less ha hb, hgreater, hboth,
    holds_eq_iff ha hb, eq_of_holds_eq ha hb, hexactly, ?_⟩
  intro hashort hbshort
  have hspelling : m = n → a.withoutPlus = b.withoutPlus := by
    intro hmn
    rw [Atom.withoutPlus_of_shortest ha hashort, Atom.withoutPlus_of_shortest hb hbshort, hmn]
  exact ⟨hexactly.2 hspelling, eq_of_holds_eq ha hb, fun hmn => (holds_eq_iff ha hb).2 (hspelling hmn)⟩

/-- Of two numerals that differ in a plus sign, `eq` holds and neither `less` nor `greater` does. -/
theorem trichotomy_plus :
    let a : Atom := ⟨"+7"⟩
    let b : Atom := ⟨"7"⟩
    a.toInt? = some 7 ∧ b.toInt? = some 7 ∧ a.Shortest ∧ b.Shortest ∧
      (∃! f, f ∈ alternatives ∧ f.Holds a b) ∧ eq.Holds a b ∧ leq.Holds a b ∧ geq.Holds a b := by
  intro a b
  have ha : a.toInt? = some 7 := by decide +kernel
  have hb : b.toInt? = some 7 := by decide +kernel
  have hashort : a.Shortest := by decide +kernel
  have hbshort : b.Shortest := by decide +kernel
  obtain ⟨-, -, -, -, hboth, -, -, -, hshortest⟩ := trichotomy ha hb
  obtain ⟨hunique, heq⟩ := hshortest hashort hbshort
  obtain ⟨hleq, hgeq⟩ := hboth.2 rfl
  exact ⟨ha, hb, hashort, hbshort, hunique, heq.2 rfl, hleq, hgeq⟩

/-- Of two numerals for one number, one with a zero in front, none of the three holds. -/
theorem not_holds_leadingZero :
    let a : Atom := ⟨"05"⟩
    let b : Atom := ⟨"5"⟩
    a.toInt? = some 5 ∧ b.toInt? = some 5 ∧ leq.Holds a b ∧ geq.Holds a b ∧
      (∀ f ∈ alternatives, ¬ f.Holds a b) ∧ ¬ ∃! f, f ∈ alternatives ∧ f.Holds a b := by
  intro a b
  have hnone : ∀ f ∈ alternatives, ¬ f.Holds a b := by decide +kernel
  refine ⟨by decide +kernel, by decide +kernel, by decide +kernel, by decide +kernel, hnone, ?_⟩
  rintro ⟨f, ⟨hf, h⟩, -⟩
  exact hnone f hf h

end PairLisp.Builtin
