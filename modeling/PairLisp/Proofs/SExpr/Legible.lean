import PairLisp.Proofs.Handle
import PairLisp.Proofs.SExpr.Printed

/-!
# Printed forms tell expressions apart

Two expressions print alike if and only if they are the same up to the plus signs of their numerals
(`SExpr.print_eq_iff`). This holds of expressions whose atoms are legible: a program may write them
down, or they are handles of closures.

The printed form of a legible atom is a string in quotes, or it has neither a space nor a parenthesis
nor a dot nor a quote. So it is clear where an atom ends, and a dot between two spaces is no atom.
Hence two expressions that print alike in front of two texts print alike up to their ends, and the
texts behind them are the same (`SExpr.printOnto_inj`).
-/

namespace PairLisp

open Vocabulary

/-! ## Where an atom ends -/

namespace Printed

variable {c : Char} {cs ds rest rest' : List Char}

/-- The character has no meaning of its own in a printed form. -/
def Visible (c : Char) : Prop := c ∉ [' ', '(', ')', '.', '"']

instance : DecidablePred Visible := fun _ => inferInstanceAs (Decidable (¬ _))

/-- Letters and digits are visible. -/
theorem visible_of_isWordChar (h : standard.isWordChar c = true) : Visible c := by
  have hpunctuation : c ∉ punctuation := not_mem_punctuation_of_isWordChar h
  have hspace : c ≠ ' ' := by
    rintro rfl
    exact absurd h (by decide)
  have hall : ∀ d ∈ ['(', ')', '.', '"'], d ∈ punctuation := forall_mem_of_all (by decide)
  intro hmem
  rcases List.mem_cons.1 hmem with heq | hmem
  · exact hspace heq
  · exact hpunctuation (hall c hmem)

/-- The printed form of a single atom: a string, or characters without a meaning of their own. -/
def Block (cs : List Char) : Prop :=
  (∃ body, cs = '"' :: (body ++ ['"']) ∧ '"' ∉ body) ∨ (cs ≠ [] ∧ ∀ c ∈ cs, Visible c)

/-- The text is empty or begins with a character that ends the atom in front of it. -/
def Bounded (rest : List Char) : Prop := ∀ c, rest.head? = some c → ¬ Visible c

theorem bounded_nil : Bounded [] := fun c hc => by simp at hc

/-- A printed atom ends where the next character is not visible. -/
theorem bounded_cons (h : ¬ Visible c) : Bounded (c :: cs) := by
  intro d hd
  obtain rfl : c = d := Option.some.inj hd
  exact h

/-- Two runs of characters with a property, in front of texts that begin without it. -/
theorem run_inj {p : Char → Bool} (hcs : ∀ c ∈ cs, p c = true) (hds : ∀ c ∈ ds, p c = true)
    (hrest : ∀ c, rest.head? = some c → p c = false)
    (hrest' : ∀ c, rest'.head? = some c → p c = false) (h : cs ++ rest = ds ++ rest') :
    cs = ds ∧ rest = rest' := by
  obtain ⟨hrun, hbehind⟩ := Token.takeWhile_dropWhile_iff.2 ⟨rfl, hcs, hrest⟩
  obtain ⟨hrun', hbehind'⟩ := Token.takeWhile_dropWhile_iff.2 ⟨rfl, hds, hrest'⟩
  rw [h] at hrun hbehind
  exact ⟨hrun.symm.trans hrun', hbehind.symm.trans hbehind'⟩

/-- A block begins with a quote or with a visible character. -/
theorem Block.first (h : Block cs) (heq : cs ++ rest = c :: rest') : c = '"' ∨ Visible c := by
  rcases h with ⟨body, rfl, -⟩ | ⟨hne, hall⟩
  · exact .inl (List.cons.inj heq).1.symm
  · obtain ⟨d, ds, rfl⟩ := List.exists_cons_of_ne_nil hne
    obtain ⟨rfl, -⟩ := List.cons.inj heq
    exact .inr (hall d List.mem_cons_self)

/-- It is clear where a block ends. -/
theorem Block.inj (hcs : Block cs) (hds : Block ds) (hrest : Bounded rest)
    (hrest' : Bounded rest') (h : cs ++ rest = ds ++ rest') : cs = ds ∧ rest = rest' := by
  have hmixed : ∀ {body es us us' : List Char}, (es ≠ [] ∧ ∀ c ∈ es, Visible c) →
      '"' :: (body ++ ['"']) ++ us ≠ es ++ us' := by
    rintro body es us us' ⟨hne, hall⟩ heq
    obtain ⟨d, es, rfl⟩ := List.exists_cons_of_ne_nil hne
    obtain ⟨rfl, -⟩ := List.cons.inj heq
    exact hall '"' List.mem_cons_self (by decide)
  rcases hcs with ⟨body, rfl, hbody⟩ | hcs <;> rcases hds with ⟨body', rfl, hbody'⟩ | hds
  · -- both strings end at their second quotes
    have hquoted : body ++ '"' :: rest = body' ++ '"' :: rest' := by
      simpa using (List.cons.inj h).2
    have hplain : ∀ {es : List Char}, '"' ∉ es → ∀ c ∈ es, (c != '"') = true := by
      intro es hes c hc
      rw [bne_iff_ne]
      rintro rfl
      exact hes hc
    have hend : ∀ {us : List Char} (c : Char), ('"' :: us).head? = some c →
        (c != '"') = false := by
      intro us c hc
      rw [← Option.some.inj hc]
      rfl
    obtain ⟨rfl, hbehind⟩ := run_inj (hplain hbody) (hplain hbody') hend hend hquoted
    exact ⟨rfl, (List.cons.inj hbehind).2⟩
  · exact absurd h (hmixed hds)
  · exact absurd h.symm (hmixed hcs)
  · have hbound : ∀ {us : List Char}, Bounded us → ∀ c, us.head? = some c →
        decide (Visible c) = false := fun hus c hc => decide_eq_false (hus c hc)
    exact run_inj (fun c hc => decide_eq_true (hcs.2 c hc))
      (fun c hc => decide_eq_true (hds.2 c hc)) (hbound hrest) (hbound hrest') h

end Printed

/-! ## Legible atoms -/

namespace Atom

open Printed

variable {a : Atom}

/-- A program may write the atom down, or it is the handle of a closure. -/
def Legible (a : Atom) : Prop := SExpr.Writable a ∨ a.IsHandle

/-- The text of an atom that can be written is one block. -/
theorem block_of_writable (h : SExpr.Writable a) : Block a.text.toList := by
  obtain ⟨htext, hplain⟩ := h
  rw [← String.ofList_toList (s := a.text)] at htext hplain
  generalize a.text.toList = cs at htext hplain
  have hdigits : ∀ {c : Char}, standard.isDigit c = true → Visible c := fun hc =>
    visible_of_isWordChar (isWordChar_of_isDigit hc)
  rcases Token.isLexeme_iff.1 htext with ⟨hne, hall⟩ | ⟨hne, hall⟩ | hstring | (rfl | rfl) |
    ⟨c, rfl, hc⟩
  · exact .inr ⟨hne, fun c hc => visible_of_isWordChar (hall c hc)⟩
  · have hvisible : ∀ c ∈ unsigned cs, Visible c := fun c hc => hdigits (hall c hc)
    refine .inr ⟨fun hnil => hne (by rw [hnil]; rfl), ?_⟩
    exact forall_mem_of_unsigned (by decide) (by decide) hvisible
  · exact .inl hstring
  · exact .inr ⟨by simp, forall_mem_of_all (by decide)⟩
  · exact .inr ⟨by simp, forall_mem_of_all (by decide)⟩
  · refine .inr ⟨by simp, List.forall_mem_singleton.2 fun hmem => ?_⟩
    have hnone : ∀ c ∈ [' ', '(', ')', '.', '"'], standard.isSymbol c = true →
        standard.isStructural (String.ofList [c]) = true := forall_mem_of_all (by decide)
    rw [hnone c hmem hc] at hplain
    exact Bool.noConfusion hplain

/-- A numeral shows all its characters but a plus sign. -/
theorem displayChars_eq_toList (a : Atom) : a.displayChars = a.withoutPlus.text.toList := by
  rw [text_withoutPlus]
  exact String.toList_ofList.symm

theorem withoutPlus_handle (n : Nat) : (handle n).withoutPlus = handle n := by
  unfold withoutPlus
  rw [toList_handle]
  rfl

theorem visible_of_mem_handle (n : Nat) : ∀ c ∈ (handle n).text.toList, Visible c := by
  have hbegin : ∀ c ∈ '#' :: "<lambda:".toList, Visible c := forall_mem_of_all (by decide)
  rw [toList_handle]
  intro c hc
  rw [← List.cons_append, ← List.cons_append, List.mem_append, List.mem_append] at hc
  rcases hc with (hc | hc) | hc
  · exact hbegin c hc
  · exact visible_of_isWordChar (isWordChar_of_isDigit (isDigit_of_mem_toDigits hc))
  · rw [List.mem_singleton.1 hc]
    decide

/-- A legible atom is printed in one block. -/
theorem block_displayChars (h : a.Legible) : Block a.displayChars := by
  rw [displayChars_eq_toList]
  rcases h with hwritable | ⟨n, rfl⟩
  · exact block_of_writable (SExpr.writable_withoutPlus hwritable)
  · rw [withoutPlus_handle]
    exact .inr ⟨by rw [toList_handle]; exact List.cons_ne_nil _ _, visible_of_mem_handle n⟩

/-- Atoms that show the same characters differ in a plus sign at most. -/
theorem withoutPlus_inj {b : Atom} (h : a.displayChars = b.displayChars) :
    a.withoutPlus = b.withoutPlus := by
  rw [displayChars_eq_toList, displayChars_eq_toList] at h
  exact eq_of_toList h

/-- The digits of a numeral are not the text of `NIL`. -/
theorem isNil_ofList_digits {digits : List Char}
    (h : ∀ c ∈ digits, standard.isDigit c = true) : (mk (String.ofList digits)).isNil = false := by
  refine Bool.eq_false_iff.2 fun hnil => ?_
  have hdigits : digits = ['N', 'I', 'L'] := by
    rw [← String.toList_ofList (l := digits)]
    exact congrArg (fun a => a.text.toList) (eq_nil_of_isNil hnil)
  rw [hdigits] at h
  exact absurd (h 'N' List.mem_cons_self) (by decide)

/-- No other atom becomes the empty list without its plus sign. -/
theorem isNil_withoutPlus (a : Atom) : a.withoutPlus.isNil = a.isNil := by
  rcases a.withoutPlus_cases with heq | ⟨digits, -, hdigits, heq⟩
  · rw [heq]
  · rw [heq, isNil_ofList_digits hdigits]
    refine (Bool.eq_false_iff.2 fun hnil => ?_).symm
    -- taking the plus sign off `NIL` leaves it as it is
    obtain rfl := eq_nil_of_isNil hnil
    have hsame : (mk (String.ofList digits)).isNil = true := by
      rw [← heq]
      decide
    rw [isNil_ofList_digits hdigits] at hsame
    exact Bool.noConfusion hsame

theorem withoutPlus_withoutPlus (a : Atom) : a.withoutPlus.withoutPlus = a.withoutPlus := by
  rcases a.withoutPlus_cases with heq | ⟨digits, -, hdigits, heq⟩
  · rw [heq, heq]
  · rw [heq]
    unfold withoutPlus
    rw [String.toList_ofList]
    split
    · exact absurd (hdigits '+' List.mem_cons_self) (by decide)
    · rfl

/-- A plus sign does not show. -/
theorem displayChars_withoutPlus (a : Atom) : a.withoutPlus.displayChars = a.displayChars := by
  rw [displayChars_eq_toList, displayChars_eq_toList, withoutPlus_withoutPlus]

end Atom

namespace SExpr

open Printed

variable {x y : SExpr} {rest rest' cs : List Char} {c : Char}

/-! ## Expressions that print alike -/

/-- What is printed of an expression begins with a bracket, a quote or a visible character. -/
theorem first_printOnto (hx : x.All Atom.Legible) (h : x.printOnto rest = c :: cs) :
    c = '(' ∨ c = '"' ∨ Visible c := by
  cases x with
  | atom a => exact .inr ((Atom.block_displayChars hx).first h)
  | cons a d =>
    unfold printOnto at h
    split at h
    · exact .inl (List.cons.inj h).1.symm
    · exact .inl (List.cons.inj h).1.symm

/-- An atom does not begin like a pair. -/
theorem displayChars_ne_paren {a : Atom} (ha : a.Legible) (rest cs : List Char) :
    a.displayChars ++ rest ≠ '(' :: cs := by
  intro h
  rcases (Atom.block_displayChars ha).first h with heq | hvisible
  · exact absurd heq (by decide)
  · exact absurd hvisible (by decide)

/-- What is printed of a pair begins with a bracket. -/
theorem exists_printOnto_cons (a d : SExpr) (rest : List Char) :
    ∃ cs, (SExpr.cons a d).printOnto rest = '(' :: cs := by
  unfold printOnto
  split <;> exact ⟨_, rfl⟩

/-- No element of a list is printed like a dot. -/
theorem printElementsOnto_ne_dot (hx : x.All Atom.Legible) (rest cs : List Char) :
    x.printElementsOnto rest ≠ ' ' :: '.' :: cs := by
  intro h
  cases x with
  | atom a => simp [printElementsOnto] at h
  | cons a d =>
    rw [printElementsOnto] at h
    rcases first_printOnto hx.1 (List.cons.inj h).2 with heq | heq | hvisible
    · exact absurd heq (by decide)
    · exact absurd heq (by decide)
    · exact absurd hvisible (by decide)

/-- The elements behind the first are set off from it. -/
theorem bounded_printElementsOnto (x : SExpr) (rest : List Char) :
    Bounded (x.printElementsOnto rest) := by
  cases x with
  | atom a => exact bounded_cons (by decide)
  | cons a d => exact bounded_cons (by decide)

mutual

/-- Two expressions that print alike in front of two texts that end atoms. -/
theorem printOnto_inj (x y : SExpr) (hx : x.All Atom.Legible) (hy : y.All Atom.Legible)
    {rest rest' : List Char} (hrest : Bounded rest) (hrest' : Bounded rest')
    (h : x.printOnto rest = y.printOnto rest') :
    x.mapAtoms Atom.withoutPlus = y.mapAtoms Atom.withoutPlus ∧ rest = rest' := by
  match x, y with
  | .atom a, .atom b =>
    obtain ⟨hdisplay, hbehind⟩ :=
      (Atom.block_displayChars hx).inj (Atom.block_displayChars hy) hrest hrest' h
    exact ⟨congrArg SExpr.atom (Atom.withoutPlus_inj hdisplay), hbehind⟩
  | .atom a, .cons b e =>
    obtain ⟨cs, hcs⟩ := exists_printOnto_cons b e rest'
    exact absurd (h.trans hcs) (displayChars_ne_paren hx rest cs)
  | .cons a d, .atom b =>
    obtain ⟨cs, hcs⟩ := exists_printOnto_cons a d rest
    exact absurd (h.symm.trans hcs) (displayChars_ne_paren hy rest' cs)
  | .cons a d, .cons b e =>
    have hdot : ∀ us : List Char, Bounded (' ' :: '.' :: ' ' :: us) := fun us =>
      bounded_cons (by decide)
    have hparen : ∀ us : List Char, Bounded (')' :: us) := fun us => bounded_cons (by decide)
    rw [printOnto, printOnto] at h
    -- whether the data are those of a list shows behind the address
    split at h <;> split at h
    · next hd he =>
      obtain ⟨haddress, hdata⟩ := printOnto_inj a b hx.1 hy.1 (bounded_printElementsOnto d rest)
        (bounded_printElementsOnto e rest') (List.cons.inj h).2
      obtain ⟨hdata, hbehind⟩ := printElementsOnto_inj d e hx.2 hy.2 hd he hdata
      exact ⟨by rw [mapAtoms, mapAtoms, haddress, hdata], hbehind⟩
    · obtain ⟨-, hdata⟩ := printOnto_inj a b hx.1 hy.1 (bounded_printElementsOnto d rest)
        (hdot _) (List.cons.inj h).2
      exact absurd hdata (printElementsOnto_ne_dot hx.2 rest _)
    · obtain ⟨-, hdata⟩ := printOnto_inj a b hx.1 hy.1 (hdot _)
        (bounded_printElementsOnto e rest') (List.cons.inj h).2
      exact absurd hdata.symm (printElementsOnto_ne_dot hy.2 rest' _)
    · obtain ⟨haddress, hdata⟩ := printOnto_inj a b hx.1 hy.1 (hdot _) (hdot _) (List.cons.inj h).2
      have hdata : d.printOnto (')' :: rest) = e.printOnto (')' :: rest') := by simpa using hdata
      obtain ⟨hdata, hbehind⟩ := printOnto_inj d e hx.2 hy.2 (hparen _) (hparen _) hdata
      exact ⟨by rw [mapAtoms, mapAtoms, haddress, hdata], (List.cons.inj hbehind).2⟩

/-- Two ends of lists that print alike. -/
theorem printElementsOnto_inj (x y : SExpr) (hx : x.All Atom.Legible) (hy : y.All Atom.Legible)
    {rest rest' : List Char} (hnil : x.terminator.isNil = true) (hnil' : y.terminator.isNil = true)
    (h : x.printElementsOnto rest = y.printElementsOnto rest') :
    x.mapAtoms Atom.withoutPlus = y.mapAtoms Atom.withoutPlus ∧ rest = rest' := by
  match x, y with
  | .atom a, .atom b =>
    obtain rfl := Atom.eq_nil_of_isNil hnil
    obtain rfl := Atom.eq_nil_of_isNil hnil'
    exact ⟨rfl, (List.cons.inj h).2⟩
  | .atom a, .cons b e => simp [printElementsOnto] at h
  | .cons a d, .atom b => simp [printElementsOnto] at h
  | .cons a d, .cons b e =>
    rw [printElementsOnto, printElementsOnto] at h
    obtain ⟨haddress, hdata⟩ := printOnto_inj a b hx.1 hy.1 (bounded_printElementsOnto d rest)
      (bounded_printElementsOnto e rest') (List.cons.inj h).2
    obtain ⟨hdata, hbehind⟩ := printElementsOnto_inj d e hx.2 hy.2 hnil hnil' hdata
    exact ⟨by rw [mapAtoms, mapAtoms, haddress, hdata], hbehind⟩

end

/-! ## Plus signs do not show -/

/-- The atom at the end of a chain is mapped like the others. -/
theorem terminator_mapAtoms (f : Atom → Atom) (x : SExpr) :
    (x.mapAtoms f).terminator = f x.terminator := by
  induction x with
  | atom a => rfl
  | cons a d _ ihd => exact ihd

mutual

/-- An expression is printed as it is without its plus signs. -/
theorem printOnto_mapAtoms_withoutPlus (x : SExpr) (rest : List Char) :
    (x.mapAtoms Atom.withoutPlus).printOnto rest = x.printOnto rest := by
  cases x with
  | atom a =>
    show a.withoutPlus.displayChars ++ rest = a.displayChars ++ rest
    rw [Atom.displayChars_withoutPlus]
  | cons a d =>
    rw [mapAtoms, printOnto, printOnto, terminator_mapAtoms, Atom.isNil_withoutPlus,
      printOnto_mapAtoms_withoutPlus a, printOnto_mapAtoms_withoutPlus a,
      printElementsOnto_mapAtoms_withoutPlus d, printOnto_mapAtoms_withoutPlus d]

/-- The elements of a list behind the first are printed as they are without their plus signs. -/
theorem printElementsOnto_mapAtoms_withoutPlus (x : SExpr) (rest : List Char) :
    (x.mapAtoms Atom.withoutPlus).printElementsOnto rest = x.printElementsOnto rest := by
  cases x with
  | atom a => rfl
  | cons a d =>
    rw [mapAtoms, printElementsOnto, printElementsOnto, printOnto_mapAtoms_withoutPlus a,
      printElementsOnto_mapAtoms_withoutPlus d]

end

/-- Two legible expressions print alike if and only if they are the same without the plus signs of
their numerals. -/
theorem print_eq_iff (hx : x.All Atom.Legible) (hy : y.All Atom.Legible) :
    x.print = y.print ↔ x.mapAtoms Atom.withoutPlus = y.mapAtoms Atom.withoutPlus := by
  unfold print
  constructor
  · intro h
    have hchars : x.printOnto [] = y.printOnto [] := by
      rw [← String.toList_ofList (l := x.printOnto []), h, String.toList_ofList]
    exact (printOnto_inj x y hx hy bounded_nil bounded_nil hchars).1
  · intro h
    rw [← printOnto_mapAtoms_withoutPlus x, h, printOnto_mapAtoms_withoutPlus]

end SExpr

end PairLisp
