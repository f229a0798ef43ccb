import PairLisp.Error

/-!
# Results of computations that may fail

Most operations of the library give an `Except`: a result or an error. The lemmas here take such
a computation apart at its steps: if it has a result, every step has one, and if it has an error,
one of its steps has that error. `Fails P` says that no error is possible but those with the
property `P`; it passes from the steps to the whole. `Corresponds` compares two computations: both
have results, which match, or both have errors, which match.
-/

namespace PairLisp

variable {ε α β : Type}

theorem ok_bind (a : α) (f : α → Except ε β) : (.ok a >>= f) = f a := rfl

/-- A sequence has a result if its first part has one with which the second part has this result. -/
theorem bind_eq_ok {r : Except ε α} {f : α → Except ε β} {b : β} :
    (r >>= f) = .ok b ↔ ∃ a, r = .ok a ∧ f a = .ok b := by
  cases r with
  | error e => simp [bind, Except.bind]
  | ok a => simp [bind, Except.bind]

/-- A sequence has the error of its first part, or that of its second part. -/
theorem bind_eq_error {r : Except ε α} {f : α → Except ε β} {e : ε} :
    (r >>= f) = .error e ↔ r = .error e ∨ ∃ a, r = .ok a ∧ f a = .error e := by
  cases r with
  | error e' => simp [bind, Except.bind]
  | ok a => simp [bind, Except.bind]

/-- The result is that of the computation, with the function applied to it. -/
theorem map_eq_ok {r : Except ε α} {f : α → β} {b : β} :
    r.map f = .ok b ↔ ∃ a, r = .ok a ∧ f a = b := by
  cases r with
  | error e => simp [Except.map]
  | ok a => simp [Except.map]

theorem map_eq_error {r : Except ε α} {f : α → β} {e : ε} :
    r.map f = .error e ↔ r = .error e := by
  cases r with
  | error e => simp [Except.map]
  | ok a => simp [Except.map]

theorem map_map {γ : Type} (r : Except ε α) (f : α → β) (g : β → γ) :
    (r.map f).map g = r.map fun a => g (f a) := by
  cases r <;> rfl

/-- Whatever error there is has the property. -/
def Fails (P : ε → Prop) (r : Except ε α) : Prop :=
  ∀ e, r = .error e → P e

theorem fails_ok {P : ε → Prop} (a : α) : Fails P (.ok a : Except ε α) := by
  intro e h
  simp at h

theorem fails_error {P : ε → Prop} {e : ε} (h : P e) : Fails P (.error e : Except ε α) := by
  intro e' he'
  exact Except.error.inj he' ▸ h

/-- What follows from the property of an error holds of all errors as well. -/
theorem Fails.imp {P Q : ε → Prop} {r : Except ε α} (hr : Fails P r) (h : ∀ e, P e → Q e) :
    Fails Q r :=
  fun e he => h e (hr e he)

/-- The second part of a sequence only matters for the result that the first one has. -/
theorem Fails.bind_of_eq {P : ε → Prop} {r : Except ε α} {f : α → Except ε β} (hr : Fails P r)
    (hf : ∀ a, r = .ok a → Fails P (f a)) : Fails P (r >>= f) := by
  cases r with
  | error e => exact fails_error (hr e rfl)
  | ok a => exact hf a rfl

theorem Fails.bind {P : ε → Prop} {r : Except ε α} {f : α → Except ε β} (hr : Fails P r)
    (hf : ∀ a, Fails P (f a)) : Fails P (r >>= f) :=
  hr.bind_of_eq fun a _ => hf a

theorem Fails.map {P : ε → Prop} {r : Except ε α} (hr : Fails P r) (f : α → β) :
    Fails P (r.map f) := by
  cases r with
  | error e => exact fails_error (hr e rfl)
  | ok a => exact fails_ok (f a)

/-- A fold fails at the first element that it cannot go on with. -/
theorem foldlM_eq_error_iff {f : β → α → Except ε β} {as : List α} {b : β} {e : ε} :
    as.foldlM f b = .error e ↔ ∃ before a after c, as = before ++ a :: after ∧
      before.foldlM f b = .ok c ∧ f c a = .error e := by
  constructor
  · intro h
    induction as generalizing b with
    | nil => cases h
    | cons a as ih =>
      rw [List.foldlM_cons, bind_eq_error] at h
      rcases h with h | ⟨c, hc, h⟩
      · exact ⟨[], a, as, b, rfl, rfl, h⟩
      · obtain ⟨before, a', after, c', rfl, hbefore, ha'⟩ := ih h
        refine ⟨a :: before, a', after, c', rfl, ?_, ha'⟩
        rw [List.foldlM_cons, hc]
        exact hbefore
  · rintro ⟨before, a, after, c, rfl, hbefore, ha⟩
    rw [List.foldlM_append, hbefore, ok_bind, List.foldlM_cons, ha]
    rfl

/-- If the errors of every step have the property, so have those of the fold. -/
theorem fails_foldlM {P : ε → Prop} {f : β → α → Except ε β} (hf : ∀ b a, Fails P (f b a))
    (b : β) (l : List α) : Fails P (l.foldlM f b) := by
  induction l generalizing b with
  | nil => exact fails_ok b
  | cons a l ih =>
    rw [List.foldlM_cons]
    exact (hf b a).bind ih

/-- Both have results that match, or both have errors that match. -/
inductive Corresponds {ε' : Type} (F : ε → ε' → Prop) (V : α → β → Prop) :
    Except ε α → Except ε' β → Prop where
  | ok {a : α} {b : β} (h : V a b) : Corresponds F V (.ok a) (.ok b)
  | error {e : ε} {e' : ε'} (h : F e e') : Corresponds F V (.error e) (.error e')

namespace Corresponds

variable {F : ε → ε → Prop}

/-- A computation corresponds to itself. -/
theorem refl (hF : ∀ e, F e e) (r : Except ε α) : Corresponds F Eq r r := by
  cases r with
  | error e => exact .error (hF e)
  | ok a => exact .ok rfl

/-- Two sequences correspond if they do so one part after the other. -/
theorem bind {γ δ : Type} {V : α → β → Prop} {W : γ → δ → Prop} {r : Except ε α} {r' : Except ε β}
    {f : α → Except ε γ} {g : β → Except ε δ} (hr : Corresponds F V r r')
    (hf : ∀ a b, V a b → Corresponds F W (f a) (g b)) : Corresponds F W (r >>= f) (r' >>= g) := by
  cases hr with
  | ok h => exact hf _ _ h
  | error h => exact .error h

/-- Two sequences whose first parts have the same result. -/
theorem bind_eq {γ δ : Type} {W : γ → δ → Prop} {r r' : Except ε α} {f : α → Except ε γ}
    {g : α → Except ε δ} (hr : Corresponds F Eq r r') (hf : ∀ a, Corresponds F W (f a) (g a)) :
    Corresponds F W (r >>= f) (r' >>= g) :=
  hr.bind fun a _ hab => hab ▸ hf a

end Corresponds

end PairLisp
