import Mathlib.Order.Bounds.Basic
import Mathlib.Order.Nat
import PairLisp.Proofs.Clause.Matching

/-!
# Counting brackets

The search for the end of a clause keeps count of the clauses that stand open. It ends at the first
place up to which as many tokens close a clause as open one (`Clause.finish_iff`).

The same holds of a search with clauses open from before, if these are counted as well
(`Clause.closing?_eq_some_iff`). A bracket at the beginning moves all places by one, and the clauses
that stand open by one.
-/

namespace PairLisp.Clause

variable {v : Vocabulary} {t : Token} {ts : List Token} {depth start n : Nat}

/-- The least of some places is found behind the first `k` ones, if none of the places is in
front. -/
theorem map_add_eq_some_iff {S S' : Set Nat} {o : Option Nat} {k : Nat} (hfront : ∀ i < k, i ∉ S)
    (hbehind : ∀ i, i + k ∈ S ↔ i ∈ S') (ho : ∀ m, o = some m ↔ IsLeast S' m) :
    o.map (· + k) = some n ↔ IsLeast S n := by
  constructor
  · intro h
    obtain ⟨m, hm, rfl⟩ := Option.map_eq_some_iff.1 h
    obtain ⟨hmem, hleast⟩ := (ho m).1 hm
    refine ⟨(hbehind m).2 hmem, fun i hi => ?_⟩
    obtain ⟨j, rfl⟩ := Nat.exists_eq_add_of_le' (Nat.le_of_not_lt fun hlt => hfront i hlt hi)
    exact Nat.add_le_add_right (hleast ((hbehind j).1 hi)) k
  · rintro ⟨hmem, hleast⟩
    obtain ⟨m, rfl⟩ := Nat.exists_eq_add_of_le' (Nat.le_of_not_lt fun hlt => hfront n hlt hmem)
    have hm : o = some m := (ho m).2
      ⟨(hbehind m).1 hmem, fun i hi => Nat.le_of_add_le_add_right (hleast ((hbehind i).2 hi))⟩
    rw [hm]
    rfl

/-- No least place is found exactly if there are no places. -/
theorem eq_none_iff_eq_empty {S : Set Nat} {o : Option Nat} (ho : ∀ i, o = some i ↔ IsLeast S i) :
    o = none ↔ S = ∅ := by
  classical
  constructor
  · rintro rfl
    refine Set.not_nonempty_iff_eq_empty.1 fun hne => ?_
    exact Option.some_ne_none _ ((ho _).2 hne.isLeast_natFind).symm
  · rintro rfl
    exact Option.eq_none_iff_forall_ne_some.2 fun i hi => ((ho i).1 hi).1

/-! ## Searching -/

/-- The places up to which the tokens close all clauses that they open, and as many more as stand
open in front of them. -/
def closedUpTo (v : Vocabulary) (depth : Nat) (ts : List Token) : Set Nat :=
  { i | i < ts.length ∧ (ts.take (i + 1)).countP v.isCloseToken =
    depth + (ts.take (i + 1)).countP v.isOpenToken }

/-- The first token is a place on its own if it closes the one clause that stands open. -/
theorem zero_mem_closedUpTo : 0 ∈ closedUpTo v depth (t :: ts) ↔
    (if v.isCloseToken t then 1 else 0) = depth + if v.isOpenToken t then 1 else 0 := by
  show 0 < (t :: ts).length ∧ [t].countP v.isCloseToken = depth + [t].countP v.isOpenToken ↔ _
  rw [List.countP_singleton, List.countP_singleton]
  exact and_iff_right (Nat.succ_pos _)

/-- Behind the first token the places are those of the tokens that are left, with as many clauses
open as the token leaves. -/
theorem succ_mem_closedUpTo {depth' i : Nat} (h : depth' + (if v.isCloseToken t then 1 else 0) =
      depth + if v.isOpenToken t then 1 else 0) :
    i + 1 ∈ closedUpTo v depth (t :: ts) ↔ i ∈ closedUpTo v depth' ts := by
  show i + 1 < (t :: ts).length ∧ (t :: ts.take (i + 1)).countP v.isCloseToken =
    depth + (t :: ts.take (i + 1)).countP v.isOpenToken ↔ i < ts.length ∧ _
  rw [List.countP_cons, List.countP_cons, List.length_cons, Nat.succ_lt_succ_iff]
  omega

/-- A token that leaves a clause open is passed, and the search goes on behind it. -/
theorem map_succ_eq_some_iff {o : Option Nat} {depth' : Nat}
    (h : depth' + 1 + (if v.isCloseToken t then 1 else 0) =
      depth + if v.isOpenToken t then 1 else 0)
    (ho : ∀ m, o = some m ↔ IsLeast (closedUpTo v (depth' + 1) ts) m) :
    o.map (· + 1) = some n ↔ IsLeast (closedUpTo v depth (t :: ts)) n := by
  refine map_add_eq_some_iff (fun i hi => ?_) (fun i => succ_mem_closedUpTo h) ho
  rw [Nat.lt_one_iff.1 hi, zero_mem_closedUpTo]
  omega

/-- A search ends at the first place where no clause stands open any more. -/
theorem closing?_eq_some_iff (hv : ∀ t, v.isOpenToken t = true → v.isCloseToken t = false) :
    closing? v (depth + 1) ts = some n ↔ IsLeast (closedUpTo v (depth + 1) ts) n := by
  induction ts generalizing depth n with
  | nil => exact iff_of_false (by simp [closing?]) fun h => absurd h.1.1 (Nat.not_lt_zero n)
  | cons t ts ih =>
    cases ho : v.isOpenToken t with
    | true =>
      rw [closing?_open _ ho]
      exact map_succ_eq_some_iff (by rw [ho, hv t ho]; rfl) fun m => ih
    | false =>
      cases hc : v.isCloseToken t with
      | true =>
        cases depth with
        | zero =>
          -- the bracket closes the last clause that stands open, and no place is in front of it
          have hfirst : IsLeast (closedUpTo v 1 (t :: ts)) 0 :=
            ⟨zero_mem_closedUpTo.2 (by rw [ho, hc]; rfl), fun i _ => Nat.zero_le i⟩
          rw [closing?_outermost ho hc, Option.some.injEq]
          exact ⟨fun h => h ▸ hfirst, fun h => hfirst.unique h⟩
        | succ depth =>
          rw [closing?_close depth ho hc]
          exact map_succ_eq_some_iff (by rw [ho, hc]; rfl) fun m => ih
      | false =>
        rw [closing?_other depth ho hc]
        exact map_succ_eq_some_iff (by rw [ho, hc]) fun m => ih

/-! ## The end of a clause -/

/-- The places behind `start` up to which, the token at `start` included, as many tokens close a
clause as open one. -/
def evenUpTo (v : Vocabulary) (ts : List Token) (start : Nat) : Set Nat :=
  { i | start < i ∧ i < ts.length ∧ (ts.extract start (i + 1)).countP v.isCloseToken =
    (ts.extract start (i + 1)).countP v.isOpenToken }

theorem drop_of_getElem? (hstart : ts[start]? = some t) :
    ts.drop start = t :: ts.drop (start + 1) := by
  obtain ⟨hlt, rfl⟩ := List.getElem?_eq_some_iff.1 hstart
  exact List.drop_eq_getElem_cons hlt

/-- With its opening bracket left out, a clause ends where one clause is closed that stands open. -/
theorem mem_evenUpTo (hstart : ts[start]? = some t) (ho : v.isOpenToken t = true)
    (hc : v.isCloseToken t = false) (i : Nat) :
    i + (start + 1) ∈ evenUpTo v ts start ↔ i ∈ closedUpTo v 1 (ts.drop (start + 1)) := by
  have hextract : ts.extract start (i + (start + 1) + 1) =
      t :: (ts.drop (start + 1)).take (i + 1) := by
    rw [List.extract_eq_take_drop, drop_of_getElem? hstart, ← List.take_succ_cons]
    congr 1
    omega
  show start < i + (start + 1) ∧ i + (start + 1) < ts.length ∧ _ ↔ i < _ ∧ _
  rw [hextract, List.countP_cons, List.countP_cons, ho, hc, List.length_drop]
  simp only [Bool.false_eq_true, ↓reduceIte, Nat.add_zero]
  omega

theorem finish_open (hstart : ts[start]? = some t) (ho : v.isOpenToken t = true) :
    finish v ts start = match (closing? v 1 (ts.drop (start + 1))).map (· + (start + 1)) with
      | some i => .ok i
      | none => .error (.openClause t) := by
  unfold finish
  rw [drop_of_getElem? hstart, closing?_open 0 ho, hstart]
  cases closing? v 1 (ts.drop (start + 1)) with
  | none => rfl
  | some n =>
    show Except.ok (start + (n + 1)) = .ok (n + (start + 1))
    rw [Nat.add_left_comm, Nat.add_comm]

/-- The search for the end of the clause that an opening bracket begins comes to the first place
behind this bracket up to which as many tokens close a clause as open one, and it fails if there is
no such place. -/
theorem finish_iff (hv : ∀ t, v.isOpenToken t = true → v.isCloseToken t = false)
    (hstart : ts[start]? = some t) (ho : v.isOpenToken t = true) :
    (∀ i, finish v ts start = .ok i ↔ IsLeast (evenUpTo v ts start) i) ∧
      ∀ e, finish v ts start = .error e ↔ e = .openClause t ∧ evenUpTo v ts start = ∅ := by
  have hfront : ∀ i < start + 1, i ∉ evenUpTo v ts start :=
    fun i hi hmem => absurd hmem.1 (Nat.not_lt.2 (Nat.le_of_lt_succ hi))
  have hfound : ∀ i, (closing? v 1 (ts.drop (start + 1))).map (· + (start + 1)) = some i ↔
      IsLeast (evenUpTo v ts start) i := fun i =>
    map_add_eq_some_iff hfront (mem_evenUpTo hstart ho (hv t ho)) fun m => closing?_eq_some_iff hv
  have hnone := eq_none_iff_eq_empty hfound
  rw [finish_open hstart ho]
  cases hresult : (closing? v 1 (ts.drop (start + 1))).map (· + (start + 1)) with
  | none =>
    rw [hresult] at hfound hnone
    refine ⟨fun i => iff_of_false (by simp) fun h => ?_, fun e => ?_⟩
    · exact Option.some_ne_none i ((hfound i).2 h).symm
    · rw [Except.error.injEq, eq_comm, and_iff_left (hnone.1 rfl)]
  | some n =>
    rw [hresult] at hfound hnone
    refine ⟨fun i => ?_, fun e => iff_of_false (by simp) fun h => ?_⟩
    · rw [Except.ok.injEq, ← hfound, Option.some.injEq]
    · exact Option.some_ne_none n (hnone.2 h.2)

/-- A clause with two clauses in it, in three kinds of brackets, and the same clause without its
last bracket. -/
theorem finish_iff_nested :
    let v := Vocabulary.standard
    let ts : List Token := ["(", "[", "a", ".", "b", "]", ".", "\x7b", "c", "d", "\x7d", ")", "e"]
    (∀ t, v.isOpenToken t = true → v.isCloseToken t = false) ∧ ts[0]? = some "(" ∧
      v.isOpenToken "(" = true ∧ finish v ts 0 = .ok 11 ∧ IsLeast (evenUpTo v ts 0) 11 ∧
      finish v (ts.take 11) 0 = .error (.openClause "(") ∧ evenUpTo v (ts.take 11) 0 = ∅ := by
  intro v ts
  have hv : ∀ t, v.isOpenToken t = true → v.isCloseToken t = false :=
    fun _ ht => Vocabulary.separated_standard.not_close_of_open ht
  have ho : v.isOpenToken "(" = true := by decide
  have hclosed : finish v ts 0 = .ok 11 := by decide +kernel
  have hopen : finish v (ts.take 11) 0 = .error (.openClause "(") := by decide +kernel
  exact ⟨hv, rfl, ho, hclosed, ((finish_iff hv rfl ho).1 11).1 hclosed, hopen,
    (((finish_iff hv rfl ho).2 _).1 hopen).2⟩

end PairLisp.Clause
