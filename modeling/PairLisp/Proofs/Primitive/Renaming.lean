import PairLisp.Primitive.Builtin
import PairLisp.Proofs.Result
import PairLisp.Proofs.SExpr.Renaming

/-!
# Primitive functions and the numbers of closures

No primitive function looks at the number of a closure. If the handles in its arguments are renamed,
then so are those in its value, and where it has an error it has one of the same kind; the error may
show a value, and then it shows it renamed (`Atom.Renames.corresponds_apply`).

There is one lemma for each way of taking an argument and one for each way in which a function is put
together, as in the treatment of results and errors.
-/

namespace PairLisp

/-- The two errors are of one kind. -/
def Error.SameKind (e e' : Error) : Prop := e.kind = e'.kind

theorem Error.sameKind_refl (e : Error) : e.SameKind e := rfl

/-- Two results are the same, or both are errors of one kind. -/
abbrev SameResult {α : Type} : Except Error α → Except Error α → Prop :=
  Corresponds Error.SameKind Eq

theorem sameResult_refl {α : Type} (r : Except Error α) : SameResult r r :=
  Corresponds.refl Error.sameKind_refl r

namespace Atom.Renames

variable {q : Atom → Prop} {ρ : Atom → Atom} (hρ : Renames q ρ)
include hρ

/-! ## Arguments -/

/-- No handle is a number, so a renaming changes nothing about numbers. -/
theorem sameResult_int (x : SExpr) :
    SameResult (Argument.int x) (Argument.int (x.mapAtoms ρ)) := by
  cases x with
  | cons a d => exact .error rfl
  | atom a =>
    by_cases ha : a.IsHandle
    · -- a handle is no number, whatever its own number is
      have hrefused : ∀ {b : Atom}, b.IsHandle →
          Argument.int (.atom b) = .error (TypeError.expectedNumber (.atom b)) := by
        rintro _ ⟨n, rfl⟩
        unfold Argument.int
        dsimp only
        rw [isNumeral_handle]
        rfl
      show SameResult (Argument.int (.atom a)) (Argument.int (.atom (ρ a)))
      rw [hrefused ha, hrefused (hρ.handle a ha)]
      exact .error rfl
    · show SameResult (Argument.int (.atom a)) (Argument.int (.atom (ρ a)))
      rw [hρ.plain a ha]
      exact sameResult_refl _

/-- No handle is a truth value, so a renaming changes nothing about truth values. -/
theorem sameResult_bool (x : SExpr) :
    SameResult (Argument.bool x) (Argument.bool (x.mapAtoms ρ)) := by
  unfold Argument.bool
  rw [hρ.toBool?_mapAtoms]
  split
  · exact .ok rfl
  · exact .error rfl

/-- Renamed or not, a row of arguments has the same numbers in it, or an error of the same kind. -/
theorem sameResult_ints (xs : List SExpr) :
    SameResult (Argument.ints xs) (Argument.ints (xs.map (SExpr.mapAtoms ρ))) := by
  induction xs with
  | nil => exact .ok rfl
  | cons x xs ih =>
    exact (hρ.sameResult_int x).bind_eq fun _ => ih.bind_eq fun _ => .ok rfl

/-- An argument that may be a list of numbers is the same numbers after a renaming. -/
theorem sameResult_spliced (x : SExpr) :
    SameResult (Argument.spliced x) (Argument.spliced (x.mapAtoms ρ)) := by
  cases x with
  | atom a => exact hρ.sameResult_ints [.atom a]
  | cons a d =>
    have hlist := hρ.toList?_mapAtoms (.cons a d)
    rw [SExpr.mapAtoms] at hlist ⊢
    unfold Argument.spliced
    dsimp only
    rw [hlist]
    cases (SExpr.cons a d).toList? with
    | some xs => exact hρ.sameResult_ints xs
    | none => exact .error rfl

/-- Arguments stand for the same numbers after a renaming, lists spliced in. -/
theorem sameResult_numbers (xs : List SExpr) :
    SameResult (Argument.numbers xs) (Argument.numbers (xs.map (SExpr.mapAtoms ρ))) := by
  induction xs with
  | nil => exact .ok rfl
  | cons x xs ih =>
    exact (hρ.sameResult_spliced x).bind_eq fun _ => ih.bind_eq fun _ => .ok rfl

end Atom.Renames

/-! ## Functions -/

/-- The second result is the first one with its handles renamed, or both are errors of one kind. -/
abbrev RenamedResult (ρ : Atom → Atom) : Except Error SExpr → Except Error SExpr → Prop :=
  Corresponds Error.SameKind fun x y => y = x.mapAtoms ρ

namespace Builtin

variable {ρ : Atom → Atom} {xs : List SExpr}

/-- Functions of one argument that go with each other on it go with each other as functions of a
row, which may have the wrong number of arguments. -/
theorem renamed_unary {f g : SExpr → Except Error SExpr}
    (h : ∀ x, xs = [x] → RenamedResult ρ (f x) (g (x.mapAtoms ρ))) :
    RenamedResult ρ (unary f xs) (unary g (xs.map (SExpr.mapAtoms ρ))) := by
  match xs with
  | [x] => exact h x rfl
  | [] | _ :: _ :: _ => exact .error rfl

/-- Functions of two arguments that go with each other on them do so as functions of a row. -/
theorem renamed_binary {f g : SExpr → SExpr → Except Error SExpr}
    (h : ∀ x y, xs = [x, y] → RenamedResult ρ (f x y) (g (x.mapAtoms ρ) (y.mapAtoms ρ))) :
    RenamedResult ρ (binary f xs) (binary g (xs.map (SExpr.mapAtoms ρ))) := by
  match xs with
  | [x, y] => exact h x y rfl
  | [] | [_] | _ :: _ :: _ :: _ => exact .error rfl

/-- A half of a pair that is renamed is the half of the pair, renamed. -/
theorem renamed_half (operation : String) {pick : SExpr → SExpr → SExpr}
    (hpick : ∀ a d, pick (a.mapAtoms ρ) (d.mapAtoms ρ) = (pick a d).mapAtoms ρ) :
    RenamedResult ρ (half operation pick xs) (half operation pick (xs.map (SExpr.mapAtoms ρ))) := by
  refine renamed_unary fun x _ => ?_
  cases x with
  | atom a => exact .error rfl
  | cons a d => exact .ok (hpick a d)

end Builtin

namespace Atom.Renames

open Builtin

variable {q : Atom → Prop} {ρ : Atom → Atom} (hρ : Renames q ρ)
include hρ

/-- Truth values stay as they are. -/
theorem renamed_ofBool (b : Bool) : RenamedResult ρ (.ok (.ofBool b)) (.ok (.ofBool b)) :=
  .ok (hρ.mapAtoms_ofBool b).symm

theorem renamed_ofInt (n : Int) : RenamedResult ρ (.ok (.ofInt n)) (.ok (.ofInt n)) :=
  .ok (hρ.mapAtoms_ofInt n).symm

theorem renamed_constant (b : Bool) (xs : List SExpr) :
    RenamedResult ρ (constant b xs) (constant b (xs.map (SExpr.mapAtoms ρ))) := by
  cases xs with
  | nil => exact hρ.renamed_ofBool b
  | cons x xs => exact .error rfl

/-- A test that does not look at handles has the same outcome after a renaming. -/
theorem renamed_test {f : SExpr → Bool} (hf : ∀ x, f (x.mapAtoms ρ) = f x) (xs : List SExpr) :
    RenamedResult ρ (test f xs) (test f (xs.map (SExpr.mapAtoms ρ))) := by
  refine renamed_unary fun x _ => ?_
  rw [hf]
  exact hρ.renamed_ofBool (f x)

/-- A fold has the same number for its value after a renaming, or an error of the same kind. -/
theorem renamed_fold (f : List Int → Except Error Int) (xs : List SExpr) :
    RenamedResult ρ (fold f xs) (fold f (xs.map (SExpr.mapAtoms ρ))) :=
  (hρ.sameResult_numbers xs).bind_eq fun ns =>
    (sameResult_refl (f ns)).bind_eq fun n => hρ.renamed_ofInt n

/-- A function of two numbers has the same number for its value after a renaming, or an error of the
same kind. -/
theorem renamed_numeric (f : Int → Int → Except Error Int) (xs : List SExpr) :
    RenamedResult ρ (numeric f xs) (numeric f (xs.map (SExpr.mapAtoms ρ))) :=
  renamed_binary fun x y _ => (hρ.sameResult_int x).bind_eq fun a =>
    (hρ.sameResult_int y).bind_eq fun b =>
      (sameResult_refl (f a b)).bind_eq fun n => hρ.renamed_ofInt n

/-- A comparison of numbers has the same outcome after a renaming. -/
theorem renamed_compare (r : Int → Int → Bool) (xs : List SExpr) :
    RenamedResult ρ (compare r xs) (compare r (xs.map (SExpr.mapAtoms ρ))) := by
  cases xs with
  | nil => exact .error rfl
  | cons x xs =>
    exact (hρ.sameResult_int x).bind_eq fun _ => (hρ.sameResult_numbers xs).bind_eq fun _ =>
      hρ.renamed_ofBool _

/-- A list has as many elements after a renaming. -/
theorem renamed_count (x : SExpr) : RenamedResult ρ (count x) (count (x.mapAtoms ρ)) := by
  unfold count
  rw [hρ.toList?_mapAtoms]
  cases x.toList? with
  | none => exact .error rfl
  | some xs =>
    show RenamedResult ρ (Arithmetic.checked "length" xs.length >>= _)
      (Arithmetic.checked "length" (xs.map (SExpr.mapAtoms ρ)).length >>= _)
    rw [List.length_map]
    exact (sameResult_refl _).bind_eq fun n => hρ.renamed_ofInt n

/-- A primitive function for arguments with renamed handles has its value with renamed handles, or
an error of the same kind. -/
theorem corresponds_apply (f : Builtin) {xs : List SExpr} (hxs : ∀ x ∈ xs, x.All q) :
    RenamedResult ρ (f.apply xs) (f.apply (xs.map (SExpr.mapAtoms ρ))) := by
  cases f with
  | truth | falsity => exact hρ.renamed_constant _ xs
  | sum | difference | product | quotient => exact hρ.renamed_fold _ xs
  | rem | mod | expt => exact hρ.renamed_numeric _ xs
  | less | greater | leq | geq => exact hρ.renamed_compare _ xs
  | eq =>
    refine renamed_binary fun x y hxy => ?_
    have hprint : (x.print == y.print) = ((x.mapAtoms ρ).print == (y.mapAtoms ρ).print) := by
      rw [Bool.eq_iff_iff, beq_iff_eq, beq_iff_eq]
      exact hρ.print_eq_iff (hxs x (by simp [hxy])) (hxs y (by simp [hxy]))
    rw [← hprint]
    exact hρ.renamed_ofBool _
  | integerp => exact hρ.renamed_test hρ.isNumeral_mapAtoms xs
  | atom => exact hρ.renamed_test (SExpr.isAtom_mapAtoms ρ) xs
  | null => exact hρ.renamed_test hρ.isNil_mapAtoms xs
  | not =>
    exact renamed_unary fun x _ => (hρ.sameResult_bool x).bind_eq fun b => hρ.renamed_ofBool (!b)
  | cons => exact renamed_binary fun x y _ => .ok rfl
  | list => exact .ok (SExpr.mapAtoms_ofList hρ.nil_eq xs).symm
  | car | cdr => exact renamed_half _ fun _ _ => rfl
  | length => exact renamed_unary fun x _ => hρ.renamed_count x

end Atom.Renames

end PairLisp
