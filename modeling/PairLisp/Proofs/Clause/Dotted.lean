import PairLisp.Clause.Dotted
import PairLisp.Proofs.Clause.Surface
import PairLisp.Proofs.Result

/-!
# The dotted form is that of the grammar

`Clause.dotted` accepts the spellings of the grammar whose brackets nest no deeper than the limit,
and no other sequence of tokens; the dotted form of a spelling is the expression that it stands
for, written as dotted pairs (`Clause.dotted_iff`).

The two directions follow the two recursions. That spellings are accepted goes by recursion on
the trees of the grammar. That nothing else is accepted goes by recursion on what is accepted: on
the room for clauses inside clauses, and for the elements of one clause on their tokens. Both
look at a clause one element at a time (`elements_cons`).
-/

namespace PairLisp.Clause

variable {v : Vocabulary} {clause : List Token → Except StructuralError (List Token)}
  {pairs : Nat} {t : Token} {ts : List Token}

/-! ## One element at a time -/

/-- The dotted form of what follows an element of a clause, after `pairs` pairs that stand
open. -/
def afterElement (v : Vocabulary) (clause : List Token → Except StructuralError (List Token))
    (pairs : Nat) : List Token → Except StructuralError (List Token)
  | [] => elements v clause pairs []
  | t :: ts =>
    if v.isDotToken t then (afterDot v clause ts).map (close · pairs)
    else elements v clause pairs (t :: ts)

theorem afterElement_dot (h : v.isDotToken t = true) :
    afterElement v clause pairs (t :: ts) = (afterDot v clause ts).map (close · pairs) :=
  if_pos h

theorem afterElement_other (h : v.isDotToken t = false) :
    afterElement v clause pairs (t :: ts) = elements v clause pairs (t :: ts) :=
  if_neg (by rw [h]; exact Bool.false_ne_true)

theorem afterDot_cons (h : v.isDotToken t = false) : afterDot v clause (t :: ts) =
    elementLength v t ts >>= fun n =>
      if n = ts.length + 1 then element clause (t :: ts) else .error .crowdedData := by
  unfold afterDot
  dsimp only
  rw [h]
  rfl

theorem elements_nil : elements v clause pairs [] = .ok (close ["NIL"] pairs) := by
  rw [elements]

/-- An element is brought into dotted form, and then what stands behind it. -/
theorem elements_cons (h : v.isDotToken t = false) : elements v clause pairs (t :: ts) =
    elementLength v t ts >>= fun n => element clause (t :: ts.take (n - 1)) >>= fun address =>
      (afterElement v clause (pairs + 1) (ts.drop (n - 1))).map ("(" :: address ++ "." :: ·) := by
  rw [elements, h]
  show (elementLength v t ts >>= _) = _
  congr 1
  funext n
  congr 1
  funext address
  cases ts.drop (n - 1) with
  | nil =>
    show (elements v clause (pairs + 1) [] >>= _) = _
    unfold afterElement
    cases elements v clause (pairs + 1) [] <;> rfl
  | cons s ss =>
    dsimp only [List.head?_cons, List.tail_cons]
    cases hs : v.isDotToken s with
    | true =>
      rw [if_pos rfl, afterElement_dot hs]
      cases afterDot v clause ss <;> rfl
    | false =>
      rw [if_neg Bool.false_ne_true, afterElement_other hs]
      cases elements v clause (pairs + 1) (s :: ss) <;> rfl

/-- A clause has no element that a dot begins. -/
theorem not_dot_of_elements {out : List Token} (h : elements v clause pairs (t :: ts) = .ok out) :
    v.isDotToken t = false := by
  refine Bool.eq_false_iff.2 fun hdot => ?_
  rw [elements, if_pos hdot] at h
  simp [bind, Except.bind] at h

theorem element_of_length (h : ts.length ≠ 1) : element clause ts = clause ts := by
  match ts with
  | [] => rfl
  | [_] => exact absurd rfl h
  | _ :: _ :: _ => rfl

theorem inner_clause (opening closing : Token) (body : List Token) :
    inner (opening :: body ++ [closing]) = body := by
  show (body ++ [closing]).dropLast = body
  exact List.dropLast_concat

theorem dottedClause_clause (room : Nat) (opening closing : Token) {body : List Token}
    (h : body ≠ []) : dottedClause v (room + 1) (opening :: body ++ [closing]) =
      elements v (dottedClause v room) 0 body := by
  unfold dottedClause
  rw [inner_clause]
  cases body with
  | nil => exact absurd rfl h
  | cons t ts => rfl

/-- A pair with its data and the parentheses behind them. -/
theorem close_tokens_cons (address data : SExpr) (pairs : Nat) :
    "(" :: address.tokens ++ "." :: close data.tokens (pairs + 1) =
      close (SExpr.cons address data).tokens pairs := by
  unfold close
  rw [SExpr.tokens_cons, List.replicate_succ]
  simp

/-! ## Spellings are accepted -/

/-- The elements of a clause that a spelling begins are that of the spelling and those behind it. -/
theorem elements_spelling_eq (hv : v.Separated) (e : Surface v) (tail : Tail v) (pairs : Nat) :
    elements v clause pairs (e.spelling ++ tail.spelling) =
      element clause e.spelling >>= fun address =>
        (afterElement v clause (pairs + 1) tail.spelling).map ("(" :: address ++ "." :: ·) := by
  obtain ⟨t, ts, hspelling⟩ := List.exists_cons_of_ne_nil e.spelling_ne_nil
  have hdot : v.isDotToken t = false := e.not_dot_of_spelling hv hspelling
  rw [hspelling, List.cons_append, elements_cons hdot, elementLength_spelling hv hspelling]
  show (element clause (t :: (ts ++ tail.spelling).take ts.length) >>= fun address =>
    (afterElement v clause (pairs + 1) ((ts ++ tail.spelling).drop ts.length)).map
      ("(" :: address ++ "." :: ·)) = _
  rw [List.take_left, List.drop_left]

theorem elements_spelling (hv : v.Separated) {e : Surface v} {tail : Tail v}
    (he : element clause e.spelling = .ok e.tree.tokens)
    (htail : ∀ pairs, afterElement v clause pairs tail.spelling =
      .ok (close tail.tree.tokens pairs)) (pairs : Nat) :
    elements v clause pairs (e.spelling ++ tail.spelling) =
      .ok (close (SExpr.cons e.tree tail.tree).tokens pairs) := by
  rw [elements_spelling_eq hv, he, htail]
  show Except.ok ("(" :: e.tree.tokens ++ "." :: close tail.tree.tokens (pairs + 1)) = _
  rw [close_tokens_cons]

/-- Behind an element and a dot there is a single element. -/
theorem afterElement_dot_spelling (hv : v.Separated) (dot : DotToken v) (data : Surface v)
    (pairs : Nat) : afterElement v clause pairs (dot.val :: data.spelling) =
      (element clause data.spelling).map (close · pairs) := by
  obtain ⟨t, ts, hspelling⟩ := List.exists_cons_of_ne_nil data.spelling_ne_nil
  have hdot : v.isDotToken t = false := data.not_dot_of_spelling hv hspelling
  have hlength := elementLength_spelling hv hspelling []
  rw [List.append_nil] at hlength
  rw [afterElement_dot dot.property, hspelling, afterDot_cons hdot, hlength]
  show (if ts.length + 1 = ts.length + 1 then element clause (t :: ts)
    else .error .crowdedData).map (close · pairs) = _
  rw [if_pos rfl]

/-- Behind an element the next spelling is taken for further elements of the clause. -/
theorem afterElement_next_spelling (hv : v.Separated) (e : Surface v) (tail : Tail v)
    (pairs : Nat) : afterElement v clause pairs (e.spelling ++ tail.spelling) =
      elements v clause pairs (e.spelling ++ tail.spelling) := by
  obtain ⟨t, ts, hspelling⟩ := List.exists_cons_of_ne_nil e.spelling_ne_nil
  have hdot : v.isDotToken t = false := e.not_dot_of_spelling hv hspelling
  rw [hspelling, List.cons_append]
  exact afterElement_other hdot

/-- The brackets of a clause are taken off and its elements are looked at. -/
theorem element_clause_spelling (room : Nat) (opening : OpenToken v) (closing : CloseToken v)
    (first : Surface v) (rest : Tail v) :
    element (dottedClause v (room + 1)) (Surface.clause opening closing first rest).spelling =
      elements v (dottedClause v room) 0 (first.spelling ++ rest.spelling) := by
  have hne : first.spelling ++ rest.spelling ≠ [] := by simp [first.spelling_ne_nil]
  show element _ (opening.val :: (first.spelling ++ rest.spelling) ++ [closing.val]) = _
  have hlength :
      (opening.val :: (first.spelling ++ rest.spelling) ++ [closing.val]).length ≠ 1 := by simp
  rw [element_of_length hlength, dottedClause_clause room _ _ hne]

mutual

/-- The spelling of a tree is an element, and its dotted form is that of the expression. -/
theorem element_spelling (hv : v.Separated) (e : Surface v) {room : Nat} (h : e.nesting ≤ room) :
    element (dottedClause v room) e.spelling = .ok e.tree.tokens := by
  match e with
  | .token t => rfl
  | .empty opening closing =>
    have hroom : 1 ≤ room := h
    obtain ⟨room, rfl⟩ := Nat.exists_eq_add_of_le' hroom
    rfl
  | .clause opening closing first tail =>
    have hroom : max first.nesting tail.nesting + 1 ≤ room := h
    obtain ⟨room, rfl⟩ : ∃ k, room = k + 1 := ⟨room - 1, by omega⟩
    have hfirst : element (dottedClause v room) first.spelling = .ok first.tree.tokens :=
      element_spelling hv first (by omega)
    have htail : ∀ pairs, afterElement v (dottedClause v room) pairs tail.spelling =
        .ok (close tail.tree.tokens pairs) :=
      afterElement_spelling hv tail (by omega)
    rw [element_clause_spelling, elements_spelling hv hfirst htail]
    exact congrArg Except.ok (List.append_nil _)

/-- What is written behind an element is accepted. -/
theorem afterElement_spelling (hv : v.Separated) (tail : Tail v) {room : Nat}
    (h : tail.nesting ≤ room) (pairs : Nat) :
    afterElement v (dottedClause v room) pairs tail.spelling =
      .ok (close tail.tree.tokens pairs) := by
  match tail with
  | .done => exact elements_nil
  | .dot dot data =>
    have hdata : element (dottedClause v room) data.spelling = .ok data.tree.tokens :=
      element_spelling hv data h
    show afterElement v _ pairs (dot.val :: data.spelling) = _
    rw [afterElement_dot_spelling hv, hdata]
    rfl
  | .next e tail =>
    have hroom : max e.nesting tail.nesting ≤ room := h
    have he : element (dottedClause v room) e.spelling = .ok e.tree.tokens :=
      element_spelling hv e (by omega)
    have htail : ∀ pairs, afterElement v (dottedClause v room) pairs tail.spelling =
        .ok (close tail.tree.tokens pairs) :=
      afterElement_spelling hv tail (by omega)
    show afterElement v _ pairs (e.spelling ++ tail.spelling) = _
    rw [afterElement_next_spelling hv, elements_spelling hv he htail]
    rfl

end

/-! ## Nothing else is accepted -/

/-- The tokens spell an expression with brackets that nest no deeper than `room`, and `out` is the
expression as dotted pairs. -/
def Spells (v : Vocabulary) (room : Nat) (ts out : List Token) : Prop :=
  ∃ e : Surface v, e.spelling = ts ∧ e.nesting ≤ room ∧ e.tree.tokens = out

/-- Every clause that is accepted is spelled by the grammar. -/
def ClausesSpelled (v : Vocabulary) (room : Nat) : Prop :=
  ∀ opening body closing out, v.isOpenToken opening = true → v.isCloseToken closing = true →
    dottedClause v room (opening :: body ++ [closing]) = .ok out →
    Spells v room (opening :: body ++ [closing]) out

theorem spells_token {room : Nat} (h : v.isStructural t = false) : Spells v room [t] [t] :=
  ⟨.token ⟨t, h⟩, rfl, Nat.zero_le room, rfl⟩

/-- The element that a sequence of tokens begins with is spelled by the grammar. -/
theorem spells_element {room n : Nat} {out : List Token} (hclauses : ClausesSpelled v room)
    (hdot : v.isDotToken t = false) (hn : elementLength v t ts = .ok n)
    (h : element (dottedClause v room) (t :: ts.take (n - 1)) = .ok out) :
    Spells v room (t :: ts.take (n - 1)) out := by
  rcases elementLength_cases hn with ⟨ho, hc, rfl⟩ | ⟨ho, body, closing, rest, rfl, hc, rfl⟩
  · have hplain : v.isStructural t = false :=
      Vocabulary.isStructural_eq_false.2 ⟨ho, hc, hdot⟩
    obtain rfl : [t] = out := Except.ok.inj h
    exact spells_token hplain
  · have htake : (body ++ closing :: rest).take (body.length + 2 - 1) = body ++ [closing] := by
      have hlist : body ++ closing :: rest = body ++ [closing] ++ rest := by simp
      have hcount : body.length + 2 - 1 = (body ++ [closing]).length := by simp
      rw [hcount, hlist, List.take_left]
    have hlength : (t :: (body ++ [closing])).length ≠ 1 := by simp
    rw [htake] at h ⊢
    rw [element_of_length hlength] at h
    exact hclauses t body closing out ho hc h

/-- What stands behind a dot is spelled by the grammar. -/
theorem spells_afterDot {room : Nat} {out : List Token} (hclauses : ClausesSpelled v room)
    (h : afterDot v (dottedClause v room) ts = .ok out) : Spells v room ts out := by
  cases ts with
  | nil => simp [afterDot] at h
  | cons t ts =>
    have hdot : v.isDotToken t = false := by
      refine Bool.eq_false_iff.2 fun hdot => ?_
      unfold afterDot at h
      dsimp only at h
      rw [if_pos hdot] at h
      simp [bind, Except.bind] at h
    rw [afterDot_cons hdot] at h
    obtain ⟨n, hn, hrest⟩ := bind_eq_ok.1 h
    split at hrest
    · next hlength =>
      -- the element takes all tokens that are left
      have htake : ts.take (n - 1) = ts := by
        rw [hlength]
        exact List.take_length
      rw [← htake] at hrest ⊢
      exact spells_element hclauses hdot hn hrest
    · simp at hrest

/-- The elements of a clause are spelled by the grammar. -/
theorem exists_of_elements {room : Nat} {out : List Token} (hclauses : ClausesSpelled v room)
    (hne : ts ≠ []) (h : elements v (dottedClause v room) pairs ts = .ok out) :
    ∃ (first : Surface v) (tail : Tail v), first.spelling ++ tail.spelling = ts ∧
      max first.nesting tail.nesting ≤ room ∧
      close (SExpr.cons first.tree tail.tree).tokens pairs = out := by
  induction hlength : ts.length using Nat.strongRecOn generalizing ts pairs out with
  | ind k ih =>
    obtain ⟨t, ts, rfl⟩ := List.exists_cons_of_ne_nil hne
    have hdot : v.isDotToken t = false := not_dot_of_elements h
    rw [elements_cons hdot] at h
    obtain ⟨n, hn, h⟩ := bind_eq_ok.1 h
    obtain ⟨address, haddress, h⟩ := bind_eq_ok.1 h
    obtain ⟨data, hdata, hout⟩ := map_eq_ok.1 h
    obtain ⟨first, hspelling, hnesting, rfl⟩ := spells_element hclauses hdot hn haddress
    -- it is enough to find what is written behind the first element
    suffices htail : ∃ tail : Tail v, tail.spelling = ts.drop (n - 1) ∧ tail.nesting ≤ room ∧
        close tail.tree.tokens (pairs + 1) = data by
      obtain ⟨tail, htail, htailNesting, rfl⟩ := htail
      refine ⟨first, tail, ?_, by omega, ?_⟩
      · rw [hspelling, htail, List.cons_append, List.take_append_drop]
      · rw [← hout, close_tokens_cons]
    have hshorter : (ts.drop (n - 1)).length < k := by
      rw [← hlength, List.length_drop, List.length_cons]
      omega
    generalize ts.drop (n - 1) = rest at hdata hshorter ⊢
    cases rest with
    | nil => exact ⟨.done, rfl, Nat.zero_le room, Except.ok.inj (elements_nil.symm.trans hdata)⟩
    | cons s ss =>
      cases hs : v.isDotToken s with
      | true =>
        rw [afterElement_dot hs] at hdata
        obtain ⟨last, hlast, hclose⟩ := map_eq_ok.1 hdata
        obtain ⟨e, he, heNesting, rfl⟩ := spells_afterDot hclauses hlast
        exact ⟨.dot ⟨s, hs⟩ e, congrArg (s :: ·) he, heNesting, hclose⟩
      | false =>
        rw [afterElement_other hs] at hdata
        obtain ⟨e, tail, htail, htailNesting, hclose⟩ :=
          ih _ hshorter (List.cons_ne_nil s ss) hdata rfl
        exact ⟨.next e tail, htail, htailNesting, hclose⟩

/-- Every clause that is accepted is spelled by the grammar, whatever room there is. -/
theorem clausesSpelled (v : Vocabulary) (room : Nat) : ClausesSpelled v room := by
  induction room with
  | zero =>
    intro opening body closing out _ _ h
    simp [dottedClause] at h
  | succ room ih =>
    intro opening body closing out ho hc h
    cases body with
    | nil =>
      obtain rfl : ["NIL"] = out := Except.ok.inj h
      exact ⟨.empty ⟨opening, ho⟩ ⟨closing, hc⟩, rfl, Nat.le_add_left 1 room, rfl⟩
    | cons t ts =>
      have hne : t :: ts ≠ [] := List.cons_ne_nil t ts
      rw [dottedClause_clause room _ _ hne] at h
      obtain ⟨first, tail, hspelling, hnesting, hout⟩ := exists_of_elements ih hne h
      refine ⟨.clause ⟨opening, ho⟩ ⟨closing, hc⟩ first tail, ?_, Nat.succ_le_succ hnesting, ?_⟩
      · rw [← hspelling]
        rfl
      · rw [← hout]
        exact (List.append_nil _).symm

/-! ## Statements -/

theorem dottedIn_open (ho : v.isOpenToken t = true) : dottedIn v (t :: ts) =
    finish v (t :: ts) 0 >>= fun last =>
      match (t :: ts)[last + 1]? with
      | some extra => .error (.afterClause extra)
      | none => dottedClause v Limits.nesting (t :: ts) :=
  if_pos ho

/-- The dotted form of a statement whose last token closes its clause is that of the clause. -/
theorem dottedIn_closed (ho : v.isOpenToken t = true)
    (h : closing? v 0 (t :: ts) = some ts.length) :
    dottedIn v (t :: ts) = dottedClause v Limits.nesting (t :: ts) := by
  have hend : (t :: ts)[ts.length + 1]? = none := List.getElem?_eq_none_iff.2 (Nat.le_refl _)
  rw [dottedIn_open ho, finish_eq_ok_iff.2 h, ok_bind, hend]

/-- A statement that the grammar spells is looked at like an element of a clause. -/
theorem dottedIn_spelling_eq (hv : v.Separated) (e : Surface v) :
    dottedIn v e.spelling = element (dottedClause v Limits.nesting) e.spelling := by
  obtain ⟨t, ts, hspelling⟩ := List.exists_cons_of_ne_nil e.spelling_ne_nil
  rw [hspelling]
  rcases Surface.spelling_cases hspelling with ⟨hplain, rfl⟩ | ⟨ho, hne⟩
  · have ho : v.isOpenToken t = false := (Vocabulary.isStructural_eq_false.1 hplain).1
    unfold dottedIn
    dsimp only
    rw [ho, hplain]
    rfl
  · have hclosing := closing?_clause hv hspelling ho []
    have hlength : (t :: ts).length ≠ 1 := by simpa using hne
    rw [List.append_nil] at hclosing
    rw [element_of_length hlength, dottedIn_closed ho hclosing]

/-- Every spelling that does not nest too deeply has the dotted form of its expression. -/
theorem dottedIn_spelling (hv : v.Separated) (e : Surface v) (h : e.nesting ≤ Limits.nesting) :
    dottedIn v e.spelling = .ok e.tree.tokens := by
  rw [dottedIn_spelling_eq hv]
  exact element_spelling hv e h

/-- A statement is accepted if and only if it is spelled by the grammar. -/
theorem dottedIn_eq_ok (hv : v.Separated) (out : List Token) :
    dottedIn v ts = .ok out ↔ Spells v Limits.nesting ts out := by
  constructor
  · intro h
    cases ts with
    | nil => simp [dottedIn] at h
    | cons t ts =>
      by_cases ho : v.isOpenToken t = true
      · rw [dottedIn_open ho] at h
        obtain ⟨last, hlast, h⟩ := bind_eq_ok.1 h
        obtain ⟨body, closing, rest, rfl, hc, rfl⟩ :=
          exists_clause_of_closing? ho (finish_eq_ok_iff.1 hlast)
        split at h
        · simp at h
        · next hend =>
          -- nothing stands behind the bracket that closes the clause
          have hrest : rest = [] := by
            rw [List.getElem?_eq_none_iff] at hend
            simpa using hend
          subst hrest
          exact clausesSpelled v _ t body closing out ho hc h
      · unfold dottedIn at h
        dsimp only at h
        rw [if_neg ho] at h
        split at h
        · next hplain =>
          rw [Bool.and_eq_true, List.isEmpty_iff, Bool.not_eq_true'] at hplain
          obtain ⟨rfl, hplain⟩ := hplain
          obtain rfl : [t] = out := Except.ok.inj h
          exact spells_token hplain
        · simp at h
  · rintro ⟨e, rfl, hnesting, rfl⟩
    exact dottedIn_spelling hv e hnesting

/-- The dotted form of a statement exists if and only if the statement is spelled by the grammar,
with brackets that nest no deeper than the limit, and then it is the expression that is spelled,
written as dotted pairs. Any other statement has an error of its shape. -/
theorem dotted_iff :
    (∀ ts out, dotted ts = .ok out ↔ ∃ e : Surface .standard,
      e.spelling = ts ∧ e.nesting ≤ Limits.nesting ∧ e.tree.tokens = out) ∧
    ∀ ts, (∃ fault : StructuralError, dotted ts = .error fault) ↔
      ¬ ∃ e : Surface .standard, e.spelling = ts ∧ e.nesting ≤ Limits.nesting := by
  have hiff : ∀ ts out, dotted ts = .ok out ↔ Spells .standard Limits.nesting ts out :=
    fun ts out => dottedIn_eq_ok Vocabulary.separated_standard out
  refine ⟨hiff, fun ts => ?_⟩
  constructor
  · rintro ⟨fault, hfault⟩ ⟨e, he, hnesting⟩
    have hok := (hiff ts e.tree.tokens).2 ⟨e, he, hnesting, rfl⟩
    rw [hfault] at hok
    simp at hok
  · intro hnone
    cases h : dotted ts with
    | error fault => exact ⟨fault, rfl⟩
    | ok out =>
      obtain ⟨e, he, hnesting, -⟩ := (hiff ts out).1 h
      exact absurd ⟨e, he, hnesting⟩ hnone

end PairLisp.Clause
