import PairLisp.Proofs.SExpr.Legible

/-!
# Renaming handles

The numbers of closures, and with them the texts of their handles, depend on what was evaluated
before. A renaming takes handles to handles and leaves all other atoms alone
(`Atom.Renames`). What the library asks of an expression has the same answer after a renaming: it is a
list of as many elements, a numeral, a truth value. Two expressions print alike after the renaming if
and only if they did so before, as long as it takes different handles in them to different ones
(`Atom.Renames.print_eq_iff`).
-/

namespace PairLisp

/-- The function renames handles and nothing else. It takes different atoms among those with the
property to different ones, and these are legible. -/
structure Atom.Renames (q : Atom → Prop) (ρ : Atom → Atom) : Prop where
  plain : ∀ a, ¬ a.IsHandle → ρ a = a
  handle : ∀ a, a.IsHandle → (ρ a).IsHandle
  legible : ∀ a, q a → a.Legible
  inj : ∀ a b, q a → q b → ρ a = ρ b → a = b

namespace SExpr

variable {f : Atom → Atom} {x : SExpr}

/-! ## The shape of an expression -/

/-- The elements of a renamed expression are its elements, renamed. -/
theorem elements_mapAtoms (f : Atom → Atom) (x : SExpr) :
    (x.mapAtoms f).elements = x.elements.map (mapAtoms f) := by
  induction x with
  | atom a => rfl
  | cons a d _ ihd => exact congrArg (a.mapAtoms f :: ·) ihd

/-- A function on atoms makes no atom into a pair and no pair into an atom. -/
theorem isAtom_mapAtoms (f : Atom → Atom) (x : SExpr) : (x.mapAtoms f).isAtom = x.isAtom := by
  cases x <;> rfl

/-- A list is mapped element by element if the empty list stays. -/
theorem mapAtoms_ofList (hnil : f .nil = .nil) (xs : List SExpr) :
    (ofList xs).mapAtoms f = ofList (xs.map (mapAtoms f)) := by
  induction xs with
  | nil => exact congrArg SExpr.atom hnil
  | cons x xs ih => exact congrArg (SExpr.cons (x.mapAtoms f)) ih

/-- A function that leaves all atoms of an expression alone. -/
theorem mapAtoms_eq_self {p : Atom → Prop} (hf : ∀ a, p a → f a = a) (hx : x.All p) :
    x.mapAtoms f = x := by
  induction x with
  | atom a => exact congrArg SExpr.atom (hf a hx)
  | cons a d iha ihd => rw [mapAtoms, iha hx.1, ihd hx.2]

/-- Two functions on atoms, one after the other, are one function on atoms. -/
theorem mapAtoms_mapAtoms (f g : Atom → Atom) (x : SExpr) :
    (x.mapAtoms f).mapAtoms g = x.mapAtoms fun a => g (f a) := by
  induction x with
  | atom a => rfl
  | cons a d iha ihd => rw [mapAtoms, mapAtoms, mapAtoms, iha, ihd]

/-- Two functions that take the same atoms to one atom do so with expressions. -/
theorem mapAtoms_eq_iff {p : Atom → Prop} {g : Atom → Atom}
    (hfg : ∀ a b, p a → p b → (f a = f b ↔ g a = g b)) {y : SExpr} (hx : x.All p) (hy : y.All p) :
    x.mapAtoms f = y.mapAtoms f ↔ x.mapAtoms g = y.mapAtoms g := by
  induction x generalizing y with
  | atom a =>
    cases y with
    | atom b => simp only [mapAtoms, SExpr.atom.injEq, hfg a b hx hy]
    | cons b e => simp [mapAtoms]
  | cons a d iha ihd =>
    cases y with
    | atom b => simp [mapAtoms]
    | cons b e => simp only [mapAtoms, SExpr.cons.injEq, iha hx.1 hy.1, ihd hx.2 hy.2]

end SExpr

namespace Atom.Renames

variable {q : Atom → Prop} {ρ : Atom → Atom} (hρ : Renames q ρ)
include hρ

/-! ## What does not change -/

/-- The empty list is no handle, so it stays. -/
theorem nil_eq : ρ .nil = .nil := hρ.plain _ not_isHandle_nil

theorem t_eq : ρ .t = .t := hρ.plain _ not_isHandle_t

/-- What has the same answer for all handles has the same answer after a renaming. -/
theorem congr {β : Type} {f : Atom → β} {b : β} (hf : ∀ n, f (Atom.handle n) = b) (a : Atom) :
    f (ρ a) = f a := by
  by_cases ha : a.IsHandle
  · obtain ⟨m, hm⟩ := hρ.handle a ha
    obtain ⟨n, rfl⟩ := ha
    rw [hm, hf, hf]
  · rw [hρ.plain a ha]

/-- No handle is the empty list, whatever its number. -/
theorem isNil_eq (a : Atom) : (ρ a).isNil = a.isNil := hρ.congr isNil_handle a

theorem isTrue_eq (a : Atom) : (ρ a).isTrue = a.isTrue := hρ.congr isTrue_handle a

/-- No handle is a numeral, whatever its number. -/
theorem isNumeral_eq (a : Atom) : (ρ a).isNumeral = a.isNumeral := hρ.congr isNumeral_handle a

theorem mapAtoms_ofBool (b : Bool) : (SExpr.ofBool b).mapAtoms ρ = .ofBool b := by
  cases b
  · exact congrArg SExpr.atom hρ.nil_eq
  · exact congrArg SExpr.atom hρ.t_eq

theorem mapAtoms_ofInt (n : Int) : (SExpr.ofInt n).mapAtoms ρ = .ofInt n :=
  congrArg SExpr.atom (hρ.plain _ (not_isHandle_ofInt n))

/-- A renamed expression is a proper list if the expression is one, of the renamed elements. -/
theorem toList?_mapAtoms (x : SExpr) :
    (x.mapAtoms ρ).toList? = x.toList?.map (List.map (SExpr.mapAtoms ρ)) := by
  unfold SExpr.toList?
  rw [SExpr.terminator_mapAtoms, hρ.isNil_eq, SExpr.elements_mapAtoms]
  split <;> rfl

/-- An expression is the empty list after a renaming if it is so before. -/
theorem isNil_mapAtoms (x : SExpr) : (x.mapAtoms ρ).isNil = x.isNil := by
  cases x with
  | atom a => exact hρ.isNil_eq a
  | cons a d => rfl

theorem isNumeral_mapAtoms (x : SExpr) : (x.mapAtoms ρ).isNumeral = x.isNumeral := by
  cases x with
  | atom a => exact hρ.isNumeral_eq a
  | cons a d => rfl

/-- A renamed expression stands for the same truth value, or for none. -/
theorem toBool?_mapAtoms (x : SExpr) : (x.mapAtoms ρ).toBool? = x.toBool? := by
  cases x with
  | atom a =>
    show (if (ρ a).isTrue then some true else if (ρ a).isNil then some false else none) = _
    rw [hρ.isTrue_eq, hρ.isNil_eq]
    rfl
  | cons a d => rfl

/-! ## Printed forms -/

/-- A legible atom is legible after a renaming, since only handles are renamed, to handles. -/
theorem legible_apply {a : Atom} (ha : q a) : (ρ a).Legible := by
  rcases hρ.legible a ha with hwritable | hhandle
  · rw [hρ.plain a (not_isHandle_of_writable hwritable)]
    exact .inl hwritable
  · exact .inr (hρ.handle a hhandle)

/-- The plus sign makes the only difference between two atoms after a renaming if and only if it
did so before. -/
theorem withoutPlus_eq_iff {a b : Atom} (ha : q a) (hb : q b) :
    a.withoutPlus = b.withoutPlus ↔ (ρ a).withoutPlus = (ρ b).withoutPlus := by
  have hwritten : ∀ {c d : Atom}, SExpr.Writable c → d.IsHandle →
      c.withoutPlus ≠ d.withoutPlus := by
    rintro c _ hc ⟨n, rfl⟩ heq
    rw [withoutPlus_handle] at heq
    exact not_isHandle_of_writable (SExpr.writable_withoutPlus hc) ⟨n, heq⟩
  have hhandle : ∀ {c : Atom}, c.IsHandle → c.withoutPlus = c := by
    rintro _ ⟨n, rfl⟩
    exact withoutPlus_handle n
  have hplain : ∀ {c : Atom}, SExpr.Writable c → ρ c = c := fun hc =>
    hρ.plain _ (not_isHandle_of_writable hc)
  rcases hρ.legible a ha with ha' | ha' <;> rcases hρ.legible b hb with hb' | hb'
  · rw [hplain ha', hplain hb']
  · rw [hplain ha']
    exact iff_of_false (hwritten ha' hb') (hwritten ha' (hρ.handle b hb'))
  · rw [hplain hb']
    exact iff_of_false (hwritten hb' ha').symm (hwritten hb' (hρ.handle a ha')).symm
  · rw [hhandle ha', hhandle hb', hhandle (hρ.handle a ha'), hhandle (hρ.handle b hb')]
    exact ⟨congrArg ρ, hρ.inj a b ha hb⟩

/-- Two expressions print alike after a renaming if and only if they did so before. -/
theorem print_eq_iff {x y : SExpr} (hx : x.All q) (hy : y.All q) :
    x.print = y.print ↔ (x.mapAtoms ρ).print = (y.mapAtoms ρ).print := by
  have hlegible : ∀ {z : SExpr}, z.All q → z.All Legible := fun hz => hz.imp hρ.legible
  have hrenamed : ∀ {z : SExpr}, z.All q → (z.mapAtoms ρ).All Legible := fun hz =>
    SExpr.all_mapAtoms (fun _ ha => hρ.legible_apply ha) hz
  rw [SExpr.print_eq_iff (hlegible hx) (hlegible hy),
    SExpr.print_eq_iff (hrenamed hx) (hrenamed hy), SExpr.mapAtoms_mapAtoms,
    SExpr.mapAtoms_mapAtoms]
  exact SExpr.mapAtoms_eq_iff (fun _ _ ha hb => hρ.withoutPlus_eq_iff ha hb) hx hy

end Atom.Renames

end PairLisp
