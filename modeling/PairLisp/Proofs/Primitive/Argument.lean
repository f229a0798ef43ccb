import Mathlib.Data.List.Forall2
import PairLisp.Primitive.Builtin
import PairLisp.Proofs.Result

/-!
# Numeric arguments

An argument of an arithmetic primitive stands for numbers (`Argument.StandsFor`): it is a numeral
within the range, or a list of at least one of them. Arguments that all do so stand for one
sequence, in which lists are spliced in at their places (`Argument.Splices`). A function of numbers
then works with these alone (`Builtin.fold_of_splices`, `Builtin.numeric_of_number`).

An argument that stands for no numbers is at fault, and its error is that of the first thing in it
which is (`Argument.Faulty`). Likewise the error of a row of arguments is that of the first one at
fault (`FirstFault`), whatever stands behind it. So `Argument.numbers` has a result if all arguments
stand for numbers, and otherwise the error of the first fault; there is no third case.
-/

namespace PairLisp

/-! ## Rows with a fault -/

/-- The first thing of the row that is at fault has the error: those in front of it have values. -/
def FirstFault {α β ε : Type} (Good : α → β → Prop) (Faulty : α → ε → Prop) (xs : List α)
    (e : ε) : Prop :=
  ∃ front x behind vs, xs = front ++ x :: behind ∧ List.Forall₂ Good front vs ∧ Faulty x e

section FirstFault

variable {α β ε : Type} {Good : α → β → Prop} {Faulty : α → ε → Prop} {x : α} {xs : List α} {e : ε}

theorem not_firstFault_nil : ¬ FirstFault Good Faulty [] e := by
  rintro ⟨front, x, behind, vs, heq, -, -⟩
  exact List.append_ne_nil_of_right_ne_nil front (List.cons_ne_nil x behind) heq.symm

/-- The first fault of a row is in its first thing, or it is the first one of those behind while the
first thing has a value. -/
theorem firstFault_cons_iff :
    FirstFault Good Faulty (x :: xs) e ↔
      Faulty x e ∨ ∃ v, Good x v ∧ FirstFault Good Faulty xs e := by
  constructor
  · rintro ⟨front, y, behind, vs, heq, hfront, hy⟩
    cases hfront with
    | nil =>
      obtain ⟨rfl, -⟩ := List.cons.inj heq
      exact .inl hy
    | @cons x' v front vs hx hfront =>
      obtain ⟨rfl, hrest⟩ := List.cons.inj heq
      exact .inr ⟨v, hx, front, y, behind, vs, hrest, hfront, hy⟩
  · rintro (hx | ⟨v, hx, front, y, behind, vs, rfl, hfront, hy⟩)
    · exact ⟨[], x, xs, [], rfl, .nil, hx⟩
    · exact ⟨x :: front, y, behind, v :: vs, rfl, .cons hx hfront, hy⟩

end FirstFault

namespace Argument

variable {x : SExpr} {xs args : List SExpr} {n : Int} {ns : List Int} {e : Error}

/-! ## Single numbers -/

/-- The expression is a numeral for the number, which is within the range. -/
def Number (x : SExpr) (n : Int) : Prop := x.toInt? = some n

/-- The error of an expression that is no such numeral. -/
inductive NoNumber : SExpr → Error → Prop where
  | outOfRange {a : Atom} (hnumeral : a.isNumeral = true)
    (h : ¬ Integer.InRange (Integer.ofNumeral a.text.toList)) :
    NoNumber (.atom a) (ArithmeticError.literalOutOfRange a)
  | otherKind {x : SExpr} (h : x.isNumeral = false) : NoNumber x (TypeError.expectedNumber x)

/-- A pair is no number. -/
theorem not_number_cons {a d : SExpr} : ¬ Number (.cons a d) n := by
  intro h
  simp [Number, SExpr.toInt?] at h

/-- A number that an argument stands for is within the range. -/
theorem Number.inRange (h : Number x n) : Integer.InRange n := by
  cases x with
  | atom a => exact (Atom.toInt?_eq_some_iff.1 h).2.2
  | cons a d => exact absurd h not_number_cons

/-- What an argument is taken for: a number, or the error that says why it is none. -/
theorem int_cases (x : SExpr) :
    (∃ n, int x = .ok n ∧ Number x n) ∨ ∃ e, int x = .error e ∧ NoNumber x e := by
  cases x with
  | cons a d => exact .inr ⟨_, rfl, .otherKind rfl⟩
  | atom a =>
    unfold int
    dsimp only
    split
    · next hnumeral =>
      split
      · next n hn => exact .inl ⟨n, rfl, hn⟩
      · next hnone =>
        refine .inr ⟨_, rfl, .outOfRange hnumeral fun hrange => ?_⟩
        have hsome : a.toInt? = some (Integer.ofNumeral a.text.toList) :=
          Atom.toInt?_eq_some_iff.2 ⟨hnumeral, rfl, hrange⟩
        rw [hsome] at hnone
        simp at hnone
    · next hnumeral => exact .inr ⟨_, rfl, .otherKind (Bool.eq_false_iff.2 hnumeral)⟩

/-- A number is not at fault. -/
theorem Number.not_noNumber (h : Number x n) : ¬ NoNumber x e := by
  intro he
  cases he with
  | outOfRange hnumeral hrange =>
    obtain ⟨-, rfl, hin⟩ := Atom.toInt?_eq_some_iff.1 h
    exact hrange hin
  | otherKind hkind =>
    cases x with
    | atom a => exact absurd ((Atom.toInt?_eq_some_iff.1 h).1.symm.trans hkind) (by decide)
    | cons a d => exact not_number_cons h

/-- There is one error for what is no number. -/
theorem NoNumber.unique {e' : Error} (h : NoNumber x e) (h' : NoNumber x e') : e = e' := by
  cases h with
  | outOfRange hnumeral hrange =>
    cases h' with
    | outOfRange => rfl
    | otherKind hkind => exact absurd (hnumeral.symm.trans hkind) (by decide)
  | otherKind hkind =>
    cases h' with
    | outOfRange hnumeral => exact absurd (hnumeral.symm.trans hkind) (by decide)
    | otherKind => rfl

/-- An argument is taken for a number exactly if it is one. -/
theorem int_eq_ok_iff : int x = .ok n ↔ Number x n := by
  rcases int_cases x with ⟨m, hint, hm⟩ | ⟨e, hint, he⟩
  · rw [hint, Except.ok.injEq]
    exact ⟨fun heq => heq ▸ hm, fun hn => Option.some.inj (hm.symm.trans hn)⟩
  · rw [hint]
    exact iff_of_false (by simp) fun hn => hn.not_noNumber he

/-- An argument is refused exactly if it is no number, with the error that says why. -/
theorem int_eq_error_iff : int x = .error e ↔ NoNumber x e := by
  rcases int_cases x with ⟨n, hint, hn⟩ | ⟨e', hint, he'⟩
  · rw [hint]
    exact iff_of_false (by simp) hn.not_noNumber
  · rw [hint, Except.error.injEq]
    exact ⟨fun heq => heq ▸ he', fun he => he'.unique he⟩

/-! ## Rows of numbers -/

/-- A row is taken for numbers exactly if each thing in it is one. -/
theorem ints_eq_ok_iff : ints xs = .ok ns ↔ List.Forall₂ Number xs ns := by
  induction xs generalizing ns with
  | nil =>
    rw [List.forall₂_nil_left_iff]
    exact ⟨fun h => (Except.ok.inj h).symm, fun h => h ▸ rfl⟩
  | cons x xs ih =>
    unfold ints
    rw [bind_eq_ok, List.forall₂_cons_left_iff]
    constructor
    · rintro ⟨n, hn, h⟩
      obtain ⟨ms, hms, heq⟩ := bind_eq_ok.1 h
      exact ⟨n, ms, int_eq_ok_iff.1 hn, ih.1 hms, (Except.ok.inj heq).symm⟩
    · rintro ⟨n, ms, hn, hms, rfl⟩
      exact ⟨n, int_eq_ok_iff.2 hn, bind_eq_ok.2 ⟨ms, ih.2 hms, rfl⟩⟩

/-- A row is refused exactly if something in it is no number, with the error of the first such
thing. -/
theorem ints_eq_error_iff : ints xs = .error e ↔ FirstFault Number NoNumber xs e := by
  induction xs with
  | nil => exact iff_of_false (by simp [ints]) not_firstFault_nil
  | cons x xs ih =>
    unfold ints
    rw [bind_eq_error, firstFault_cons_iff, int_eq_error_iff]
    refine or_congr_right (exists_congr fun n => ?_)
    rw [int_eq_ok_iff, bind_eq_error, ih]
    exact and_congr_right fun _ => or_iff_left (by simp)

/-! ## Arguments with lists spliced in -/

/-- The argument stands for the numbers: it is a single one, or the list of at least one. -/
inductive StandsFor : SExpr → List Int → Prop where
  | number {x : SExpr} {n : Int} (h : Number x n) : StandsFor x [n]
  | list {xs : List SExpr} {ns : List Int} (hne : xs ≠ []) (h : List.Forall₂ Number xs ns) :
    StandsFor (.ofList xs) ns

/-- The error of an argument that stands for no numbers. -/
inductive Faulty : SExpr → Error → Prop where
  | atom {a : Atom} {e : Error} (h : NoNumber (.atom a) e) : Faulty (.atom a) e
  | improper {a d : SExpr} (h : (SExpr.cons a d).toList? = none) :
    Faulty (.cons a d) (TypeError.expectedProperList (.cons a d))
  | element {xs : List SExpr} {e : Error} (h : FirstFault Number NoNumber xs e) :
    Faulty (.ofList xs) e

/-- The arguments stand for the numbers, lists spliced in at their places. -/
def Splices (args : List SExpr) (ns : List Int) : Prop :=
  ∃ nss, List.Forall₂ StandsFor args nss ∧ ns = nss.flatten

/-- An atom stands for a single number or for none, the empty list included. -/
theorem standsFor_atom_iff {a : Atom} :
    StandsFor (.atom a) ns ↔ ∃ n, Number (.atom a) n ∧ ns = [n] := by
  constructor
  · intro h
    generalize hx : SExpr.atom a = x at h
    cases h with
    | number hn => exact ⟨_, hx ▸ hn, rfl⟩
    | @list xs _ hne _ =>
      cases xs with
      | nil => exact absurd rfl hne
      | cons y ys => simp [SExpr.ofList] at hx
  · rintro ⟨n, hn, rfl⟩
    exact .number hn

/-- The error of an atom is the one that it has as a number. -/
theorem faulty_atom_iff {a : Atom} : Faulty (.atom a) e ↔ NoNumber (.atom a) e := by
  constructor
  · intro h
    generalize hx : SExpr.atom a = x at h
    cases h with
    | atom h => exact h
    | improper => simp at hx
    | @element xs _ h =>
      cases xs with
      | nil => exact absurd h not_firstFault_nil
      | cons y ys => simp [SExpr.ofList] at hx
  · exact .atom

section Pair

variable {a d : SExpr}

/-- A pair that stands for numbers is a proper list of them. -/
theorem StandsFor.exists_elements (h : StandsFor (.cons a d) ns) :
    ∃ xs, (SExpr.cons a d).toList? = some xs ∧ List.Forall₂ Number xs ns := by
  generalize hx : SExpr.cons a d = x at h
  cases h with
  | number hn => exact absurd (hx ▸ hn) not_number_cons
  | list _ hns => exact ⟨_, SExpr.toList?_ofList _, hns⟩

/-- A pair is at fault if it is no proper list, or if an element is no number. -/
theorem Faulty.pair_cases (h : Faulty (.cons a d) e) :
    ((SExpr.cons a d).toList? = none ∧ e = TypeError.expectedProperList (.cons a d)) ∨
      ∃ xs, (SExpr.cons a d).toList? = some xs ∧ FirstFault Number NoNumber xs e := by
  generalize hx : SExpr.cons a d = x at h
  cases h with
  | atom => simp at hx
  | improper hnone => exact .inl ⟨hnone, rfl⟩
  | element h => exact .inr ⟨_, SExpr.toList?_ofList _, h⟩

/-- A proper list stands for the numbers that are its elements. -/
theorem standsFor_cons_iff (hxs : (SExpr.cons a d).toList? = some xs) :
    StandsFor (.cons a d) ns ↔ List.Forall₂ Number xs ns := by
  constructor
  · intro h
    obtain ⟨ys, hys, hns⟩ := h.exists_elements
    exact Option.some.inj (hys.symm.trans hxs) ▸ hns
  · intro hns
    have heq := SExpr.eq_ofList_of_toList? hxs
    rw [heq]
    refine .list ?_ hns
    rintro rfl
    simp [SExpr.ofList, SExpr.nil] at heq

/-- The error of a proper list is that of its first element that is no number. -/
theorem faulty_cons_iff (hxs : (SExpr.cons a d).toList? = some xs) :
    Faulty (.cons a d) e ↔ FirstFault Number NoNumber xs e := by
  constructor
  · intro h
    rcases h.pair_cases with ⟨hnone, -⟩ | ⟨ys, hys, hfault⟩
    · simp [hnone] at hxs
    · exact Option.some.inj (hys.symm.trans hxs) ▸ hfault
  · intro h
    rw [SExpr.eq_ofList_of_toList? hxs]
    exact .element h

/-- A pair that is no proper list stands for nothing. -/
theorem not_standsFor_improper (hnone : (SExpr.cons a d).toList? = none) :
    ¬ StandsFor (.cons a d) ns := by
  intro h
  obtain ⟨xs, hxs, -⟩ := h.exists_elements
  simp [hnone] at hxs

/-- The error of a pair that is no proper list shows it as a whole, whatever there is in it. -/
theorem faulty_improper_iff (hnone : (SExpr.cons a d).toList? = none) :
    Faulty (.cons a d) e ↔ e = TypeError.expectedProperList (.cons a d) := by
  constructor
  · intro h
    rcases h.pair_cases with ⟨-, heq⟩ | ⟨xs, hxs, -⟩
    · exact heq
    · simp [hnone] at hxs
  · rintro rfl
    exact .improper hnone

end Pair

/-- An argument is taken for the numbers that it stands for. -/
theorem spliced_eq_ok_iff : spliced x = .ok ns ↔ StandsFor x ns := by
  cases x with
  | atom a =>
    show ints [.atom a] = .ok ns ↔ _
    rw [ints_eq_ok_iff, standsFor_atom_iff, List.forall₂_cons_left_iff]
    constructor
    · rintro ⟨n, ms, hn, hms, rfl⟩
      rw [List.forall₂_nil_left_iff.1 hms]
      exact ⟨n, hn, rfl⟩
    · rintro ⟨n, hn, rfl⟩
      exact ⟨n, [], hn, .nil, rfl⟩
  | cons a d =>
    unfold spliced
    dsimp only
    split
    · next xs hxs => rw [ints_eq_ok_iff, standsFor_cons_iff hxs]
    · next hnone => exact iff_of_false (by simp) (not_standsFor_improper hnone)

/-- An argument that stands for none has the error that says why. -/
theorem spliced_eq_error_iff : spliced x = .error e ↔ Faulty x e := by
  cases x with
  | atom a =>
    show ints [.atom a] = .error e ↔ _
    rw [ints_eq_error_iff, firstFault_cons_iff, faulty_atom_iff]
    exact or_iff_left fun ⟨_, _, h⟩ => not_firstFault_nil h
  | cons a d =>
    unfold spliced
    dsimp only
    split
    · next xs hxs => rw [ints_eq_error_iff, faulty_cons_iff hxs]
    · next hnone =>
      rw [Except.error.injEq, faulty_improper_iff hnone]
      exact eq_comm

theorem splices_nil : Splices [] [] := ⟨[], .nil, rfl⟩

theorem splices_singleton (h : Number x n) : Splices [x] [n] := ⟨[[n]], .cons (.number h) .nil, rfl⟩

/-- The numbers of the first argument come first. -/
theorem splices_cons_iff :
    Splices (x :: args) ns ↔ ∃ ms rest, StandsFor x ms ∧ Splices args rest ∧ ns = ms ++ rest := by
  constructor
  · rintro ⟨nss, hnss, rfl⟩
    obtain ⟨ms, mss, hms, hmss, rfl⟩ := List.forall₂_cons_left_iff.1 hnss
    exact ⟨ms, mss.flatten, hms, ⟨mss, hmss, rfl⟩, List.flatten_cons⟩
  · rintro ⟨ms, rest, hms, ⟨mss, hmss, rfl⟩, rfl⟩
    exact ⟨ms :: mss, .cons hms hmss, List.flatten_cons.symm⟩

/-- No argument stands for an empty row of numbers. -/
theorem StandsFor.ne_nil (h : StandsFor x ns) : ns ≠ [] := by
  cases h with
  | number => exact List.cons_ne_nil _ _
  | list hne h =>
    rintro rfl
    exact hne (List.forall₂_nil_right_iff.1 h)

/-- If there are arguments, there are numbers for which they stand. -/
theorem Splices.ne_nil (h : Splices args ns) (hne : args ≠ []) : ns ≠ [] := by
  obtain ⟨x, args, rfl⟩ := List.exists_cons_of_ne_nil hne
  obtain ⟨ms, rest, hms, -, rfl⟩ := splices_cons_iff.1 h
  exact List.append_ne_nil_of_left_ne_nil hms.ne_nil rest

/-- The arguments are taken for numbers if and only if all of them stand for numbers. -/
theorem numbers_eq_ok_iff : numbers args = .ok ns ↔ Splices args ns := by
  induction args generalizing ns with
  | nil =>
    constructor
    · intro h
      exact Except.ok.inj h ▸ splices_nil
    · rintro ⟨nss, hnss, rfl⟩
      rw [List.forall₂_nil_left_iff.1 hnss]
      rfl
  | cons x args ih =>
    unfold numbers
    rw [bind_eq_ok, splices_cons_iff]
    constructor
    · rintro ⟨ms, hms, h⟩
      obtain ⟨rest, hrest, heq⟩ := bind_eq_ok.1 h
      exact ⟨ms, rest, spliced_eq_ok_iff.1 hms, ih.1 hrest, (Except.ok.inj heq).symm⟩
    · rintro ⟨ms, rest, hms, hrest, rfl⟩
      exact ⟨ms, spliced_eq_ok_iff.2 hms, bind_eq_ok.2 ⟨rest, ih.2 hrest, rfl⟩⟩

/-- The error of a row of arguments is that of the first one which stands for no numbers. -/
theorem numbers_eq_error_iff : numbers args = .error e ↔ FirstFault StandsFor Faulty args e := by
  induction args with
  | nil => exact iff_of_false (by simp [numbers]) not_firstFault_nil
  | cons x args ih =>
    unfold numbers
    rw [bind_eq_error, firstFault_cons_iff, spliced_eq_error_iff]
    refine or_congr_right (exists_congr fun ms => ?_)
    rw [spliced_eq_ok_iff, bind_eq_error, ih]
    exact and_congr_right fun _ => or_iff_left (by simp)

end Argument

/-! ## Functions of numbers -/

namespace Builtin

open Argument

/-- A function of a sequence of numbers works with those that its arguments stand for. -/
theorem fold_of_splices {f : List Int → Except Error Int} {args : List SExpr} {ns : List Int}
    (h : Splices args ns) : fold f args = (f ns).map .ofInt := by
  have hnumbers : numbers args = .ok ns := numbers_eq_ok_iff.2 h
  unfold fold
  rw [hnumbers, ok_bind]
  cases f ns <;> rfl

/-- A function of two numbers works with those that its arguments are. -/
theorem numeric_of_number {f : Int → Int → Except Error Int} {x y : SExpr} {m n : Int}
    (hx : Number x m) (hy : Number y n) : numeric f [x, y] = (f m n).map .ofInt := by
  have hm : int x = .ok m := int_eq_ok_iff.2 hx
  have hn : int y = .ok n := int_eq_ok_iff.2 hy
  unfold numeric binary
  dsimp only
  rw [hm, ok_bind, hn, ok_bind]
  cases f m n <;> rfl

end Builtin

end PairLisp
