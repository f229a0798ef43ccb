import PairLisp.Proofs.Clause.Dotted

/-!
# What may be wrong with a clause

A clause whose brackets match can only have its dots in the wrong places, or nest too deeply
(`Clause.fails_dottedIn_closed`). All else that may be wrong with tokens is found when a program is
taken apart into its statements.

This is so in every vocabulary in which no dot opens a clause. A bracket that opens clauses and closes
them counts as one that opens them, wherever it stands (`Vocabulary.opensFirst`), so it may as well
close none.
-/

namespace PairLisp

namespace Clause

variable {v : Vocabulary} {clause : List Token → Except StructuralError (List Token)}
  {pairs : Nat} {t : Token} {ts : List Token}

/-- The errors of clauses whose brackets match. -/
def faults : List StructuralError :=
  [.missingAddress, .missingData, .repeatedDot, .crowdedData, .tooDeep]

/-- Balanced tokens begin with an element, and behind it they are balanced as well. -/
theorem Balanced.exists_element (hv : v.OpensApart)
    (hclause : ∀ ts, Closed v ts → Fails (· ∈ faults) (clause ts)) (h : Balanced v (t :: ts)) :
    ∃ n, elementLength v t ts = .ok n ∧ Balanced v (ts.drop (n - 1)) ∧
      Fails (· ∈ faults) (element clause (t :: ts.take (n - 1))) := by
  generalize htokens : t :: ts = us at h
  cases h with
  | nil => simp at htokens
  | token ho hc h =>
    obtain ⟨rfl, rfl⟩ := List.cons.inj htokens
    exact ⟨1, elementLength_token ho hc, h, fails_ok _⟩
  | @clause opening closing body rest ho hc hbody h =>
    obtain ⟨rfl, rfl⟩ := List.cons.inj htokens
    have hlist : body ++ closing :: rest = (body ++ [closing]) ++ rest := by simp
    have hcount : body.length + 1 + 1 - 1 = (body ++ [closing]).length := by simp
    have hlength : elementLength v t (body ++ closing :: rest) = .ok (body.length + 1 + 1) :=
      elementLength_clause ho (hbody.closing?_clause hv ho hc rest)
    refine ⟨body.length + 1 + 1, hlength, ?_, ?_⟩
    · rwa [hcount, hlist, List.drop_left]
    · rw [hcount, hlist, List.take_left, element_of_length (by simp)]
      exact hclause _ ⟨t, body, closing, rfl, ho, hc, hbody⟩

/-- Behind a dot there may be too little, too much, or an element at fault. -/
theorem fails_afterDot (hv : v.OpensApart)
    (hclause : ∀ ts, Closed v ts → Fails (· ∈ faults) (clause ts)) (h : Balanced v ts) :
    Fails (· ∈ faults) (afterDot v clause ts) := by
  cases ts with
  | nil => exact fails_error (by decide)
  | cons t ts =>
    cases hdot : v.isDotToken t with
    | true =>
      unfold afterDot
      dsimp only
      rw [hdot]
      exact fails_error (by decide)
    | false =>
      obtain ⟨n, hn, -, helement⟩ := h.exists_element hv hclause
      rw [afterDot_cons hdot, hn, ok_bind]
      split
      · next hlength =>
        have htake : ts.take (n - 1) = ts := by
          rw [hlength]
          exact List.take_length
        rwa [htake] at helement
      · exact fails_error (by decide)

/-- The elements of a clause are looked at one by one, and what is left stays balanced. -/
theorem fails_elements (hv : v.OpensApart)
    (hclause : ∀ ts, Closed v ts → Fails (· ∈ faults) (clause ts)) (h : Balanced v ts) :
    Fails (· ∈ faults) (elements v clause pairs ts) := by
  induction hlength : ts.length using Nat.strongRecOn generalizing ts pairs with
  | ind k ih =>
    cases ts with
    | nil =>
      rw [elements_nil]
      exact fails_ok _
    | cons t ts =>
      cases hdot : v.isDotToken t with
      | true =>
        rw [elements, hdot]
        exact fails_error (by decide)
      | false =>
        obtain ⟨n, hn, hrest, helement⟩ := h.exists_element hv hclause
        have hshorter : (ts.drop (n - 1)).length < k := by
          rw [← hlength, List.length_drop, List.length_cons]
          omega
        rw [elements_cons hdot, hn, ok_bind]
        refine helement.bind fun address => Fails.map ?_ _
        generalize ts.drop (n - 1) = rest at hrest hshorter ⊢
        cases rest with
        | nil => exact ih _ hshorter hrest rfl
        | cons s ss =>
          cases hs : v.isDotToken s with
          | true =>
            have hdata : Balanced v ss := hrest.tail (hv.not_open_of_dot hs)
            rw [afterElement_dot hs]
            exact (fails_afterDot hv hclause hdata).map _
          | false =>
            rw [afterElement_other hs]
            exact ih _ hshorter hrest rfl

/-- What is wrong with a clause that is closed is its dots or its depth. -/
theorem fails_dottedClause (hv : v.OpensApart) (room : Nat) (h : Closed v ts) :
    Fails (· ∈ faults) (dottedClause v room ts) := by
  induction room generalizing ts with
  | zero => exact fails_error (by decide)
  | succ room ih =>
    obtain ⟨opening, body, closing, rfl, ho, hc, hbody⟩ := h
    by_cases hne : body = []
    · subst hne
      exact fails_ok _
    · rw [dottedClause_clause room opening closing hne]
      exact fails_elements hv (fun ts hts => ih hts) hbody

/-- A statement that is a clause whose brackets match has no other errors. -/
theorem fails_dottedIn_closed (hv : v.OpensApart) (h : Closed v ts) :
    Fails (· ∈ faults) (dottedIn v ts) := by
  have hclosed := h
  obtain ⟨opening, body, closing, rfl, ho, -⟩ := h
  rw [List.cons_append] at hclosed ⊢
  rw [dottedIn_closed ho ((closed_iff hv ho).1 hclosed)]
  exact fails_dottedClause hv _ hclosed

end Clause

/-! ## Brackets that open clauses and close them -/

namespace Vocabulary

/-- The same vocabulary, but a bracket that opens and closes clauses only opens them. -/
def opensFirst (v : Vocabulary) : Vocabulary :=
  { v with isCloseToken := fun t => v.isCloseToken t && !v.isOpenToken t }

variable {v : Vocabulary} {t : Token}

theorem isOpenToken_opensFirst (t : Token) : v.opensFirst.isOpenToken t = v.isOpenToken t := rfl

theorem isDotToken_opensFirst (t : Token) : v.opensFirst.isDotToken t = v.isDotToken t := rfl

theorem isCloseToken_opensFirst (t : Token) :
    v.opensFirst.isCloseToken t = (v.isCloseToken t && !v.isOpenToken t) := rfl

/-- If no dot opens a clause, brackets that open first are apart from closing ones. -/
theorem opensApart_opensFirst (h : ∀ t, v.isDotToken t = true → v.isOpenToken t = false) :
    v.opensFirst.OpensApart where
  not_close_of_open {t} ho := by
    rw [isOpenToken_opensFirst] at ho
    rw [isCloseToken_opensFirst, ho, Bool.not_true, Bool.and_false]
  not_dot_of_open {t} ho := by
    rw [isOpenToken_opensFirst] at ho
    exact Bool.eq_false_iff.2 fun hdot => Bool.false_ne_true ((h t hdot).symm.trans ho)

end Vocabulary

namespace Clause

variable {v : Vocabulary} {clause : List Token → Except StructuralError (List Token)}
  {t : Token} {ts : List Token}

/-- Brackets are looked at for opening a clause before they are looked at for closing one. -/
theorem closing?_opensFirst (depth : Nat) (ts : List Token) :
    closing? v.opensFirst depth ts = closing? v depth ts := by
  induction ts generalizing depth with
  | nil => rfl
  | cons t ts ih =>
    unfold closing?
    rw [Vocabulary.isOpenToken_opensFirst, Vocabulary.isCloseToken_opensFirst, ih, ih, ih]
    cases v.isOpenToken t <;> simp

/-- The search for the end of a clause takes a bracket that both opens and closes for an opening
one. -/
theorem finish_opensFirst (ts : List Token) (start : Nat) :
    finish v.opensFirst ts start = finish v ts start := by
  unfold finish
  rw [closing?_opensFirst]

/-- The length of an element is the same where brackets that open do not close. -/
theorem elementLength_opensFirst (t : Token) (ts : List Token) :
    elementLength v.opensFirst t ts = elementLength v t ts := by
  unfold elementLength
  rw [Vocabulary.isOpenToken_opensFirst, Vocabulary.isCloseToken_opensFirst, finish_opensFirst]
  cases v.isOpenToken t <;> simp

theorem afterDot_opensFirst (ts : List Token) :
    afterDot v.opensFirst clause ts = afterDot v clause ts := by
  cases ts with
  | nil => rfl
  | cons t ts =>
    unfold afterDot
    dsimp only
    rw [elementLength_opensFirst, Vocabulary.isDotToken_opensFirst]

theorem elements_opensFirst (pairs : Nat) (ts : List Token) :
    elements v.opensFirst clause pairs ts = elements v clause pairs ts := by
  induction hlength : ts.length using Nat.strongRecOn generalizing pairs ts with
  | ind k ih =>
    cases ts with
    | nil => rw [elements_nil, elements_nil]
    | cons t ts =>
      cases hdot : v.isDotToken t with
      | true =>
        rw [elements, elements, Vocabulary.isDotToken_opensFirst, hdot]
        rfl
      | false =>
        have hdot' : v.opensFirst.isDotToken t = false := hdot
        rw [elements_cons hdot, elements_cons hdot', elementLength_opensFirst]
        congr 1
        funext n
        congr 1
        funext address
        congr 1
        have hshorter : (ts.drop (n - 1)).length < k := by
          rw [← hlength, List.length_drop, List.length_cons]
          omega
        have hrest := ih _ hshorter (pairs + 1) _ rfl
        cases hdrop : ts.drop (n - 1) with
        | nil =>
          rw [hdrop] at hrest
          exact hrest
        | cons s ss =>
          rw [hdrop] at hrest
          unfold afterElement
          dsimp only
          rw [Vocabulary.isDotToken_opensFirst, afterDot_opensFirst, hrest]

/-- A clause has the same dotted form where brackets that open do not close. -/
theorem dottedClause_opensFirst (room : Nat) :
    dottedClause v.opensFirst room = dottedClause v room := by
  induction room with
  | zero => rfl
  | succ room ih =>
    funext clause
    unfold dottedClause
    rw [ih]
    cases inner clause with
    | nil => rfl
    | cons t ts => exact elements_opensFirst 0 (t :: ts)

/-- A statement has the same dotted form, or the same error. -/
theorem dottedIn_opensFirst (ts : List Token) : dottedIn v.opensFirst ts = dottedIn v ts := by
  cases ts with
  | nil => rfl
  | cons t ts =>
    have hstructural : v.opensFirst.isStructural t = v.isStructural t := by
      unfold Vocabulary.isStructural
      rw [Vocabulary.isOpenToken_opensFirst, Vocabulary.isCloseToken_opensFirst,
        Vocabulary.isDotToken_opensFirst]
      cases v.isOpenToken t <;> simp
    unfold dottedIn
    dsimp only
    rw [finish_opensFirst, dottedClause_opensFirst, hstructural, Vocabulary.isOpenToken_opensFirst]

/-- A statement whose first token opens a clause that its last token closes has no other errors. -/
theorem fails_dottedIn_of_closing? (hv : ∀ t, v.isDotToken t = true → v.isOpenToken t = false)
    (ho : v.isOpenToken t = true) (h : closing? v 0 (t :: ts) = some ts.length) :
    Fails (· ∈ faults) (dottedIn v (t :: ts)) := by
  have hapart := Vocabulary.opensApart_opensFirst hv
  rw [← closing?_opensFirst] at h
  rw [← dottedIn_opensFirst]
  exact fails_dottedIn_closed hapart ((closed_iff hapart ho).2 h)

end Clause

end PairLisp
