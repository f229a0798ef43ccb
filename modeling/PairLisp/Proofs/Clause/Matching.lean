import PairLisp.Clause
import PairLisp.Proofs.Result

/-!
# Matching brackets

`Clause.closing?` goes through tokens and keeps count of the clauses that stand open. The lemmas
here say what it does with a single token of each kind, and what is known of the place that it
comes to: there is a closing bracket there. So an element of a clause is a single token or has a
bracket at each end (`Clause.elementLength_cases`). For the rest, brackets and dots have to be told
apart (`Vocabulary.Separated`), as they are in the language.
-/

namespace PairLisp

namespace Vocabulary

/-- No token is of two of the three kinds that give a program its shape. -/
structure Separated (v : Vocabulary) : Prop where
  not_close_of_open {t : Token} : v.isOpenToken t = true → v.isCloseToken t = false
  not_dot_of_open {t : Token} : v.isOpenToken t = true → v.isDotToken t = false
  not_dot_of_close {t : Token} : v.isCloseToken t = true → v.isDotToken t = false

/-- No opening bracket is a closing bracket or a dot. A closing bracket may be a dot. -/
structure OpensApart (v : Vocabulary) : Prop where
  not_close_of_open {t : Token} : v.isOpenToken t = true → v.isCloseToken t = false
  not_dot_of_open {t : Token} : v.isOpenToken t = true → v.isDotToken t = false

/-- Two kinds of tokens have no token in common if the two classes of characters have no
character in common. -/
theorem isSingle_eq_false {p q : Char → Bool} {t : Token} (h : ∀ c, p c = true → q c = false)
    (ht : isSingle p t = true) : isSingle q t = false := by
  unfold isSingle at ht ⊢
  split at ht
  · exact h _ ht
  · simp at ht

/-- The language tells brackets and dots apart. -/
theorem separated_standard : standard.Separated where
  not_close_of_open := isSingle_eq_false fun c hc => by
    simp only [Bool.or_eq_true, beq_iff_eq] at hc
    rcases hc with (rfl | rfl) | rfl <;> decide
  not_dot_of_open := isSingle_eq_false fun c hc => by
    simp only [Bool.or_eq_true, beq_iff_eq] at hc
    rcases hc with (rfl | rfl) | rfl <;> decide
  not_dot_of_close := isSingle_eq_false fun c hc => by
    simp only [Bool.or_eq_true, beq_iff_eq] at hc
    rcases hc with (rfl | rfl) | rfl <;> decide

variable {v : Vocabulary} {t : Token}

/-- A closing bracket opens nothing. -/
theorem OpensApart.not_open_of_close (hv : v.OpensApart) (h : v.isCloseToken t = true) :
    v.isOpenToken t = false := by
  refine Bool.eq_false_iff.2 fun ho => ?_
  rw [hv.not_close_of_open ho] at h
  exact Bool.false_ne_true h

/-- A dot opens nothing. -/
theorem OpensApart.not_open_of_dot (hv : v.OpensApart) (h : v.isDotToken t = true) :
    v.isOpenToken t = false := by
  refine Bool.eq_false_iff.2 fun ho => ?_
  rw [hv.not_dot_of_open ho] at h
  exact Bool.false_ne_true h

theorem Separated.opensApart (hv : v.Separated) : v.OpensApart :=
  ⟨hv.not_close_of_open, hv.not_dot_of_open⟩

theorem Separated.not_open_of_close (hv : v.Separated) (h : v.isCloseToken t = true) :
    v.isOpenToken t = false :=
  hv.opensApart.not_open_of_close h

theorem Separated.not_open_of_dot (hv : v.Separated) (h : v.isDotToken t = true) :
    v.isOpenToken t = false :=
  hv.opensApart.not_open_of_dot h

theorem Separated.not_close_of_dot (hv : v.Separated) (h : v.isDotToken t = true) :
    v.isCloseToken t = false := by
  refine Bool.eq_false_iff.2 fun hc => ?_
  rw [hv.not_dot_of_close hc] at h
  exact Bool.false_ne_true h

/-- A token without structure is neither a bracket nor a dot. -/
theorem isStructural_eq_false : v.isStructural t = false ↔
    v.isOpenToken t = false ∧ v.isCloseToken t = false ∧ v.isDotToken t = false := by
  unfold isStructural
  rw [Bool.or_eq_false_iff, Bool.or_eq_false_iff, and_assoc]

end Vocabulary

namespace Clause

variable {v : Vocabulary} {t : Token} {ts : List Token}

/-! ## One token -/

/-- An opening bracket has one more clause stand open for what follows. -/
theorem closing?_open (depth : Nat) (h : v.isOpenToken t = true) :
    closing? v depth (t :: ts) = (closing? v (depth + 1) ts).map (· + 1) := by
  rw [closing?, if_pos h]

/-- A closing bracket that closes the outermost clause ends the search. -/
theorem closing?_outermost (ho : v.isOpenToken t = false) (hc : v.isCloseToken t = true) :
    closing? v 1 (t :: ts) = some 0 := by
  rw [closing?, if_neg (by rw [ho]; exact Bool.false_ne_true), if_pos hc, if_pos (Nat.le_refl 1)]

/-- A closing bracket has one clause less stand open, and the search goes on if one is left. -/
theorem closing?_close (depth : Nat) (ho : v.isOpenToken t = false)
    (hc : v.isCloseToken t = true) :
    closing? v (depth + 2) (t :: ts) = (closing? v (depth + 1) ts).map (· + 1) := by
  have hdepth : ¬ depth + 2 ≤ 1 := by omega
  rw [closing?, if_neg (by rw [ho]; exact Bool.false_ne_true), if_pos hc, if_neg hdepth]
  rfl

/-- Other tokens leave the count as it is. -/
theorem closing?_other (depth : Nat) (ho : v.isOpenToken t = false)
    (hc : v.isCloseToken t = false) :
    closing? v (depth + 1) (t :: ts) = (closing? v (depth + 1) ts).map (· + 1) := by
  have hdepth : ¬ depth + 1 = 0 := by omega
  rw [closing?, if_neg (by rw [ho]; exact Bool.false_ne_true),
    if_neg (by rw [hc]; exact Bool.false_ne_true), if_neg hdepth]

/-! ## The place that is found -/

/-- The search ends at a closing bracket. -/
theorem exists_close_of_closing? {depth n : Nat} (h : closing? v depth ts = some n) :
    ∃ c, ts[n]? = some c ∧ v.isCloseToken c = true := by
  induction ts generalizing depth n with
  | nil => simp [closing?] at h
  | cons t ts ih =>
    -- in every case but the last the search has gone on behind the first token
    have hrest : ∀ {d}, (closing? v d ts).map (· + 1) = some n →
        ∃ c, (t :: ts)[n]? = some c ∧ v.isCloseToken c = true := by
      intro d hd
      obtain ⟨m, hm, rfl⟩ := Option.map_eq_some_iff.1 hd
      rw [List.getElem?_cons_succ]
      exact ih hm
    unfold closing? at h
    split at h
    · exact hrest h
    · split at h
      · next hc =>
        split at h
        · rw [← Option.some.inj h]
          exact ⟨t, rfl, hc⟩
        · exact hrest h
      · split at h
        · simp at h
        · exact hrest h

/-- A clause that begins with an opening bracket ends with a closing one. -/
theorem exists_clause_of_closing? {n : Nat} (ho : v.isOpenToken t = true)
    (h : closing? v 0 (t :: ts) = some n) :
    ∃ body c rest, ts = body ++ c :: rest ∧ v.isCloseToken c = true ∧ n = body.length + 1 := by
  rw [closing?_open 0 ho] at h
  obtain ⟨m, hm, rfl⟩ := Option.map_eq_some_iff.1 h
  obtain ⟨c, hget, hc⟩ := exists_close_of_closing? hm
  obtain ⟨hlt, hm'⟩ := List.getElem?_eq_some_iff.1 hget
  refine ⟨ts.take m, c, ts.drop (m + 1), ?_, hc, ?_⟩
  · rw [← hm', List.getElem_cons_drop, List.take_append_drop]
  · rw [List.length_take_of_le (by omega)]

/-- The search for the end of a clause succeeds with the place of the bracket that closes it. -/
theorem finish_eq_ok_iff {n : Nat} : finish v ts 0 = .ok n ↔ closing? v 0 ts = some n := by
  unfold finish
  rw [List.drop_zero]
  cases closing? v 0 ts <;> simp

/-- If no bracket closes it, the search fails with the bracket that opened it. -/
theorem finish_eq_error (h : closing? v 0 (t :: ts) = none) :
    finish v (t :: ts) 0 = .error (.openClause t) := by
  unfold finish
  rw [List.drop_zero, h]
  rfl

/-! ## The length of an element -/

/-- A token that is no bracket is an element by itself. -/
theorem elementLength_token (ho : v.isOpenToken t = false) (hc : v.isCloseToken t = false) :
    elementLength v t ts = .ok 1 := by
  unfold elementLength
  rw [ho, hc]
  rfl

/-- A clause is an element up to the bracket that closes it. -/
theorem elementLength_clause {n : Nat} (ho : v.isOpenToken t = true)
    (h : closing? v 0 (t :: ts) = some n) : elementLength v t ts = .ok (n + 1) := by
  unfold elementLength
  rw [if_pos ho, finish_eq_ok_iff.2 h]
  rfl

/-- An element is a single token that is no bracket, or a clause with both of its brackets. -/
theorem elementLength_cases {n : Nat} (h : elementLength v t ts = .ok n) :
    (v.isOpenToken t = false ∧ v.isCloseToken t = false ∧ n = 1) ∨
      v.isOpenToken t = true ∧ ∃ body c rest, ts = body ++ c :: rest ∧
        v.isCloseToken c = true ∧ n = body.length + 2 := by
  cases ho : v.isOpenToken t with
  | true =>
    unfold elementLength at h
    rw [if_pos ho] at h
    obtain ⟨last, hlast, rfl⟩ := map_eq_ok.1 h
    obtain ⟨body, c, rest, rfl, hc, rfl⟩ := exists_clause_of_closing? ho (finish_eq_ok_iff.1 hlast)
    exact .inr ⟨rfl, body, c, rest, rfl, hc, rfl⟩
  | false =>
    cases hc : v.isCloseToken t with
    | true =>
      unfold elementLength at h
      rw [ho, hc] at h
      simp at h
    | false =>
      rw [elementLength_token ho hc] at h
      exact .inl ⟨rfl, rfl, (Except.ok.inj h).symm⟩

end Clause

end PairLisp
