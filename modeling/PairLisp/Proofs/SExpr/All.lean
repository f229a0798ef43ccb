import PairLisp.Proofs.Vocabulary
import PairLisp.SExpr.Dotted

/-!
# Properties of all atoms of an expression

Much of what can be said about an expression is a property of its atoms: that a program may
write them, that none of them names a closure, that a certain name is not among them.
`SExpr.All p` says that every atom has the property `p`.

The lemmas follow the atoms of an expression through what the library does with it: the parts
of an expression have no other atoms than the expression, and an expression that was read from
tokens has only atoms that a program may write (`SExpr.all_ofTokens`).
-/

namespace PairLisp

namespace SExpr

variable {p q : Atom → Prop} {x : SExpr} {xs : List SExpr}

/-- Every atom of the expression has the property. -/
def All (p : Atom → Prop) : SExpr → Prop
  | .atom a => p a
  | .cons a d => a.All p ∧ d.All p

@[simp] theorem all_atom (a : Atom) : (SExpr.atom a).All p ↔ p a := Iff.rfl

@[simp] theorem all_cons (a d : SExpr) : (SExpr.cons a d).All p ↔ a.All p ∧ d.All p := Iff.rfl

instance All.decidable [DecidablePred p] : (x : SExpr) → Decidable (x.All p)
  | .atom a => inferInstanceAs (Decidable (p a))
  | .cons a d =>
    have := decidable a
    have := decidable d
    inferInstanceAs (Decidable (a.All p ∧ d.All p))

/-- What follows from the property of an atom holds of all atoms as well. -/
theorem All.imp (h : ∀ a, p a → q a) (hx : x.All p) : x.All q := by
  induction x with
  | atom a => exact h a hx
  | cons a d iha ihd => exact ⟨iha hx.1, ihd hx.2⟩

/-- A property of every atom whatsoever holds of those of any expression. -/
theorem all_of_forall (h : ∀ a, p a) (x : SExpr) : x.All p := by
  induction x with
  | atom a => exact h a
  | cons a d iha ihd => exact ⟨iha, ihd⟩

/-! ## Parts of an expression -/

/-- The elements of an expression have no other atoms than the expression. -/
theorem All.elements (hx : x.All p) : ∀ y ∈ x.elements, y.All p := by
  induction x with
  | atom a => simp [SExpr.elements]
  | cons a d _ ihd =>
    intro y hy
    rw [SExpr.elements, List.mem_cons] at hy
    rcases hy with rfl | hy
    · exact hx.1
    · exact ihd hx.2 y hy

/-- The elements of a proper list have no other atoms than the list. -/
theorem All.toList? (hx : x.All p) (h : x.toList? = some xs) : ∀ y ∈ xs, y.All p := by
  unfold SExpr.toList? at h
  split at h
  · rw [← Option.some.inj h]
    exact hx.elements
  · simp at h

/-- A list has the atoms of its elements and the one of the empty list at its end. -/
theorem all_ofList (hnil : p .nil) (h : ∀ y ∈ xs, y.All p) : (ofList xs).All p := by
  induction xs with
  | nil => exact hnil
  | cons y ys ih =>
    exact ⟨h y List.mem_cons_self, ih fun z hz => h z (List.mem_cons_of_mem y hz)⟩

theorem all_ofBool (ht : p .t) (hnil : p .nil) (b : Bool) : (SExpr.ofBool b).All p := by
  cases b
  · exact hnil
  · exact ht

/-! ## Expressions read from tokens -/

/-- The pairs that a reader is inside of hold only addresses whose atoms have the property. -/
def Frame.All (p : Atom → Prop) : Frame → Prop
  | .address => True
  | .data a => a.All p

/-- What a reader has read last has only atoms with the property. -/
def Reading.All (p : Atom → Prop) : Reading → Prop
  | .want => True
  | .got x => x.All p

/-- An atom that a program may write down: the text of a token other than a bracket or a dot. -/
def Writable (a : Atom) : Prop :=
  Atom.isText a.text = true ∧ Vocabulary.standard.isStructural a.text = false

/-- A word can be written. -/
theorem writable_of_isWord {a : Atom} (h : Vocabulary.standard.isWord a.text = true) :
    Writable a := by
  refine ⟨?_, Vocabulary.isStructural_of_isWord h⟩
  unfold Atom.isText
  simp [h]

/-- A numeral can be written. -/
theorem writable_of_isNumeral {a : Atom} (h : a.isNumeral = true) : Writable a := by
  have htext : Vocabulary.standard.isNumeral a.text = true := h
  refine ⟨?_, Vocabulary.isStructural_of_isNumeral htext⟩
  unfold Atom.isText
  simp [htext]

/-- An expression that is read from a single token can be written. -/
theorem all_ofToken {t : Token} (h : ofToken t = .ok x) : x.All Writable := by
  unfold ofToken at h
  split at h
  · simp at h
  · next hs =>
    split at h
    · next y hy =>
      obtain rfl := Except.ok.inj h
      unfold ofText? Atom.ofText? at hy
      split at hy
      · next ht =>
        obtain rfl := Option.some.inj hy
        exact ⟨ht, by simpa using hs⟩
      · simp at hy
    · simp at h

/-- Reading goes on with atoms that a program may write down. -/
theorem all_read {room : Nat} {r : Reading} {frames : List Frame} {ts : List Token}
    (hr : r.All Writable) (hf : ∀ f ∈ frames, f.All Writable)
    (h : read room r frames ts = .ok x) : x.All Writable := by
  induction ts generalizing room r frames with
  | nil =>
    cases r with
    | want => simp [read] at h
    | got y =>
      cases frames with
      | nil =>
        simp only [read, Except.ok.injEq] at h
        exact h ▸ hr
      | cons f frames => cases f <;> simp [read] at h
  | cons t ts ih =>
    cases r with
    | want =>
      unfold read at h
      split at h
      · -- the token opens a pair
        cases room with
        | zero => simp at h
        | succ room =>
          have hf' : ∀ f ∈ Frame.address :: frames, f.All Writable :=
            List.forall_mem_cons.2 ⟨trivial, hf⟩
          exact ih (r := .want) trivial hf' h
      · split at h
        · next y hy => exact ih (r := .got y) (all_ofToken hy) hf h
        · simp at h
    | got y =>
      cases frames with
      | nil => simp [read] at h
      | cons f frames =>
        rw [List.forall_mem_cons] at hf
        cases f with
        | address =>
          unfold read at h
          split at h
          · have hf' : ∀ f ∈ Frame.data y :: frames, f.All Writable :=
              List.forall_mem_cons.2 ⟨hr, hf.2⟩
            exact ih (r := .want) trivial hf' h
          · simp at h
        | data a =>
          unfold read at h
          split at h
          · exact ih (r := .got (.cons a y)) ⟨hf.1, hr⟩ hf.2 h
          · simp at h

/-- An expression that was read from tokens has only atoms that a program may write down. -/
theorem all_ofTokens {ts : List Token} (h : ofTokens ts = .ok x) : x.All Writable :=
  all_read (r := .want) trivial (by simp) h

end SExpr

end PairLisp
