import PairLisp.Proofs.Clause.Matching

/-!
# Balanced tokens

Tokens are balanced if every bracket among them has its partner, whatever the kinds of the two. A
search for a closing bracket passes over balanced tokens (`Clause.Balanced.closing?_append`), and
what it has passed when it comes to the end of the clause is balanced
(`Clause.exists_balanced_of_closing?`). So a clause is an opening bracket, balanced tokens and a
closing bracket (`Clause.Closed`) if and only if the search comes to its last token
(`Clause.closed_iff`).
-/

namespace PairLisp.Clause

variable {v : Vocabulary} {t : Token} {body ts : List Token}

/-- Every bracket among the tokens has its partner. -/
inductive Balanced (v : Vocabulary) : List Token → Prop where
  | nil : Balanced v []
  | token {t : Token} {ts : List Token} (ho : v.isOpenToken t = false)
    (hc : v.isCloseToken t = false) (h : Balanced v ts) : Balanced v (t :: ts)
  | clause {opening closing : Token} {body ts : List Token} (ho : v.isOpenToken opening = true)
    (hc : v.isCloseToken closing = true) (hbody : Balanced v body) (h : Balanced v ts) :
    Balanced v (opening :: (body ++ closing :: ts))

/-- A clause from its opening bracket to the one that closes it. -/
def Closed (v : Vocabulary) (ts : List Token) : Prop :=
  ∃ opening body closing, ts = opening :: body ++ [closing] ∧ v.isOpenToken opening = true ∧
    v.isCloseToken closing = true ∧ Balanced v body

/-- A search that has gone over the given number of tokens. -/
theorem map_add_map_add (r : Option Nat) (m n : Nat) :
    (r.map (· + m)).map (· + n) = r.map (· + (m + n)) := by
  rw [Option.map_map]
  congr 1
  funext k
  exact Nat.add_assoc k m n

theorem Balanced.append {us : List Token} (h : Balanced v ts) (hus : Balanced v us) :
    Balanced v (ts ++ us) := by
  induction h with
  | nil => exact hus
  | token ho hc _ ih => exact .token ho hc ih
  | @clause opening closing body ts ho hc hbody _ _ ih =>
    rw [List.cons_append, List.append_assoc, List.cons_append]
    exact .clause ho hc hbody ih

/-- Behind a token that opens no clause the tokens are balanced as well. -/
theorem Balanced.tail (h : Balanced v (t :: ts)) (ho : v.isOpenToken t = false) :
    Balanced v ts := by
  generalize htokens : t :: ts = us at h
  cases h with
  | nil => simp at htokens
  | token _ _ h =>
    obtain ⟨-, rfl⟩ := List.cons.inj htokens
    exact h
  | clause ho' =>
    obtain ⟨rfl, -⟩ := List.cons.inj htokens
    rw [ho] at ho'
    exact Bool.noConfusion ho'

/-! ## Searching -/

/-- A search passes over balanced tokens. -/
theorem Balanced.closing?_append (hv : v.OpensApart) (h : Balanced v body) (rest : List Token)
    (depth : Nat) : closing? v (depth + 1) (body ++ rest) =
      (closing? v (depth + 1) rest).map (· + body.length) := by
  induction h generalizing depth rest with
  | nil =>
    show closing? v (depth + 1) rest = (closing? v (depth + 1) rest).map (· + 0)
    cases closing? v (depth + 1) rest <;> rfl
  | token ho hc _ ih =>
    rw [List.cons_append, closing?_other depth ho hc, ih, map_add_map_add, List.length_cons]
  | @clause opening closing body ts ho hc _ _ ihbody ih =>
    have hlist : opening :: (body ++ closing :: ts) ++ rest =
        opening :: (body ++ closing :: (ts ++ rest)) := by simp
    have hlength : (opening :: (body ++ closing :: ts)).length =
        ts.length + 1 + body.length + 1 := by
      simp only [List.length_cons, List.length_append]
      omega
    rw [hlist, hlength, closing?_open _ ho, ihbody,
      closing?_close depth (hv.not_open_of_close hc) hc, ih, map_add_map_add, map_add_map_add,
      map_add_map_add]
    simp only [Nat.add_assoc]

/-- What a search passes up to the end of the innermost clause is balanced. -/
theorem exists_balanced_of_closing? (hv : v.OpensApart) {depth n : Nat}
    (h : closing? v (depth + 1) ts = some n) :
    ∃ body c rest, ts = body ++ c :: rest ∧ Balanced v body ∧ v.isCloseToken c = true := by
  induction hlength : ts.length using Nat.strongRecOn generalizing ts depth n with
  | ind k ih =>
    cases ts with
    | nil => simp [closing?] at h
    | cons t ts =>
      rw [List.length_cons] at hlength
      cases ho : v.isOpenToken t with
      | true =>
        -- a clause, and then the search goes on at the depth where it has begun
        rw [closing?_open _ ho] at h
        obtain ⟨m, hm, -⟩ := Option.map_eq_some_iff.1 h
        obtain ⟨first, c, rest, rfl, hfirst, hc⟩ := ih _ (by omega) hm rfl
        rw [hfirst.closing?_append hv, closing?_close depth (hv.not_open_of_close hc) hc] at hm
        obtain ⟨_, hrest, -⟩ := Option.map_eq_some_iff.1 hm
        obtain ⟨m', hm', -⟩ := Option.map_eq_some_iff.1 hrest
        have hshorter : rest.length < k := by
          rw [← hlength, List.length_append, List.length_cons]
          omega
        obtain ⟨body, d, rest, rfl, hbody, hd⟩ := ih _ hshorter hm' rfl
        exact ⟨t :: (first ++ c :: body), d, rest, by simp, .clause ho hc hfirst hbody, hd⟩
      | false =>
        cases hc : v.isCloseToken t with
        | true => exact ⟨[], t, ts, rfl, .nil, hc⟩
        | false =>
          rw [closing?_other depth ho hc] at h
          obtain ⟨m, hm, -⟩ := Option.map_eq_some_iff.1 h
          obtain ⟨body, c, rest, rfl, hbody, hc'⟩ := ih _ (by omega) hm rfl
          exact ⟨t :: body, c, rest, rfl, .token ho hc hbody, hc'⟩

/-- The search that begins at an opening bracket ends behind balanced tokens. -/
theorem Balanced.closing?_clause (hv : v.OpensApart) {opening closing : Token}
    (h : Balanced v body) (ho : v.isOpenToken opening = true) (hc : v.isCloseToken closing = true)
    (rest : List Token) :
    closing? v 0 (opening :: (body ++ closing :: rest)) = some (body.length + 1) := by
  rw [closing?_open 0 ho, h.closing?_append hv, closing?_outermost (hv.not_open_of_close hc) hc,
    map_add_map_add]
  exact congrArg some (Nat.zero_add _)

/-- The search that begins at an opening bracket comes to the last token if and only if this closes
the clause. -/
theorem closed_iff (hv : v.OpensApart) (ho : v.isOpenToken t = true) :
    Closed v (t :: ts) ↔ closing? v 0 (t :: ts) = some ts.length := by
  constructor
  · rintro ⟨opening, body, closing, heq, -, hc, hbody⟩
    obtain ⟨rfl, htail⟩ := List.cons.inj heq
    have htail : ts = body ++ [closing] := htail
    rw [htail, hbody.closing?_clause hv ho hc, List.length_append, List.length_singleton]
  · intro h
    have hinner := h
    rw [closing?_open 0 ho] at hinner
    obtain ⟨m, hm, -⟩ := Option.map_eq_some_iff.1 hinner
    obtain ⟨body, c, rest, rfl, hbody, hc⟩ := exists_balanced_of_closing? hv hm
    rw [hbody.closing?_clause hv ho hc, Option.some.injEq, List.length_append,
      List.length_cons] at h
    obtain rfl : rest = [] := List.length_eq_zero_iff.1 (by omega)
    exact ⟨t, body, c, rfl, ho, hc, hbody⟩

end PairLisp.Clause
