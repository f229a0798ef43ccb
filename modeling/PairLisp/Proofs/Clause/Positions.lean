import Mathlib.Control.Monad.Basic
import PairLisp.Proofs.Clause.Faults

/-!
# Positions in clauses

The search for dotted pairs cuts tokens into pieces: a clause without its two brackets, the element
that a sequence begins with, and what is behind it. Where the pieces begin and end is found by
counting brackets. `Clause.dottedIn` cuts with functions that give some piece for all positions, in
range or not. `Clause.Positional.dottedIn` is the same search with cuts that have no result if a
position is out of range, so that it has no result either if it makes such a cut anywhere.

It has the same results and the same errors (`Clause.Positional.dottedIn_eq`), in every vocabulary
and for all tokens. So no position is ever out of range. In particular no clause is looked at that
has fewer than two tokens, and no element that has none (`Clause.dottedIn_inRange`).
-/

namespace PairLisp.Clause

variable {v : Vocabulary} {t : Token} {ts : List Token}

/-- A computation that looks at tokens by their positions. It has a result or an error about the
tokens, and neither of the two if a position is out of range. -/
abbrev Positional := ExceptT StructuralError Option

namespace Positional

/-- A position is out of range. -/
def outOfRange {α : Type} : Positional α := ExceptT.mk none

/-- A computation in which no position is out of range. -/
def of {α : Type} (r : Except StructuralError α) : Positional α := ExceptT.mk (some r)

/-- The token at a position. -/
def token (ts : List Token) (i : Nat) : Positional Token := ExceptT.lift ts[i]?

/-- The tokens from one position up to another one. -/
def slice (ts : List Token) (start stop : Nat) : Positional (List Token) :=
  if start ≤ stop ∧ stop ≤ ts.length then pure (ts.extract start stop) else outOfRange

/-- The number of tokens of the element that a sequence begins with. -/
def elementLength (v : Vocabulary) (ts : List Token) : Positional Nat := do
  let first ← token ts 0
  of (Clause.elementLength v first ts.tail)

/-- The dotted form of an element of a clause. -/
def element (clause : List Token → Positional (List Token)) : List Token → Positional (List Token)
  | [t] => pure [t]
  | ts => clause ts

/-- The dotted form of what follows the dot of a clause. -/
def afterDot (v : Vocabulary) (clause : List Token → Positional (List Token)) (ts : List Token) :
    Positional (List Token) :=
  if ts.isEmpty then throw .missingData
  else do
    let first ← token ts 0
    if v.isDotToken first then throw .repeatedDot
    else do
      let n ← elementLength v ts
      if n = ts.length then element clause ts else throw .crowdedData

/-- The dotted form of what follows an element of a clause, after `pairs` pairs that stand open:
nothing, a dot, or further elements, whose dotted form the given function finds. -/
def afterElement (v : Vocabulary) (clause further : List Token → Positional (List Token))
    (pairs : Nat) (ts : List Token) : Positional (List Token) :=
  match ts[0]? with
  | none => pure (close ["NIL"] pairs)
  | some dot =>
    if v.isDotToken dot then do
      let data ← slice ts 1 ts.length
      (close · pairs) <$> afterDot v clause data
    else further ts

/-- The dotted form of the elements of a clause, after `pairs` pairs that stand open. A round that
takes no token off has no result either. -/
def elements (v : Vocabulary) (clause : List Token → Positional (List Token)) (pairs : Nat)
    (ts : List Token) : Positional (List Token) := do
  let first ← token ts 0
  if v.isDotToken first then throw .missingAddress
  else do
    let n ← elementLength v ts
    let address ← element clause (← slice ts 0 n)
    let rest ← slice ts n ts.length
    ("(" :: address ++ "." :: ·) <$> afterElement v clause
      (fun rest =>
        if rest.length < ts.length then elements v clause (pairs + 1) rest else outOfRange)
      (pairs + 1) rest
termination_by ts.length

/-- The dotted form of a clause in which clauses may nest up to the given depth. The two brackets
are taken off whether or not the clause is too deep, so that none has fewer than two tokens. -/
def dottedClause (v : Vocabulary) : (room : Nat) → List Token → Positional (List Token)
  | 0, clause => do
    let _ ← slice clause 1 (clause.length - 1)
    throw .tooDeep
  | room + 1, clause => do
    let inner ← slice clause 1 (clause.length - 1)
    if inner.isEmpty then pure ["NIL"] else elements v (dottedClause v room) 0 inner

/-- The dotted form of a statement. -/
def dottedIn (v : Vocabulary) (ts : List Token) : Positional (List Token) :=
  if ts.isEmpty then throw .emptyStatement
  else do
    let first ← token ts 0
    if v.isOpenToken first then do
      let last ← of (finish v ts 0)
      if last + 1 = ts.length then dottedClause v Limits.nesting ts
      else do
        let extra ← token ts (last + 1)
        throw (.afterClause extra)
    else if ts.length = 1 ∧ v.isStructural first = false then pure [first]
    else throw (.badStart first)

/-! ## Positions in range -/

variable {α β : Type} {pairs start stop n : Nat}
  {clause : List Token → Except StructuralError (List Token)}
  {clause' further : List Token → Positional (List Token)}

theorem of_bind (r : Except StructuralError α) (f : α → Except StructuralError β) :
    (of r >>= fun a => of (f a)) = of (r >>= f) := by
  cases r <;> rfl

theorem of_map (r : Except StructuralError α) (f : α → β) : f <$> of r = of (r.map f) := by
  cases r <;> rfl

/-- All tokens from a position on. -/
theorem slice_length (h : start ≤ ts.length) :
    slice ts start ts.length = pure (ts.drop start) := by
  unfold slice
  rw [if_pos ⟨h, Nat.le_refl _⟩, List.extract_eq_take_drop, ← List.length_drop, List.take_length]

/-- All tokens up to a position. -/
theorem slice_zero (h : stop ≤ ts.length) : slice ts 0 stop = pure (ts.take stop) :=
  if_pos ⟨Nat.zero_le stop, h⟩

theorem token_zero : token (t :: ts) 0 = pure t := rfl

theorem elementLength_cons : elementLength v (t :: ts) = of (Clause.elementLength v t ts) := rfl

/-- A clause ends behind its opening bracket, with one of the tokens. -/
theorem bounds_of_finish {last : Nat} (ho : v.isOpenToken t = true)
    (h : finish v (t :: ts) 0 = .ok last) : 1 ≤ last ∧ last ≤ ts.length := by
  obtain ⟨body, c, rest, rfl, -, rfl⟩ := exists_clause_of_closing? ho (finish_eq_ok_iff.1 h)
  rw [List.length_append, List.length_cons]
  omega

/-- The element that tokens begin with has one of them or more, and no more than there are. -/
theorem bounds_of_elementLength (h : Clause.elementLength v t ts = .ok n) :
    1 ≤ n ∧ n ≤ ts.length + 1 := by
  rcases elementLength_cases h with ⟨-, -, rfl⟩ | ⟨-, body, c, rest, rfl, -, rfl⟩
  · omega
  · rw [List.length_append, List.length_cons]
    omega

/-- An element that is no single token is a clause of two tokens or more. -/
theorem element_cons (hclause : ∀ ts, 2 ≤ ts.length → clause' ts = of (clause ts)) :
    element clause' (t :: ts) = of (Clause.element clause (t :: ts)) := by
  cases ts with
  | nil => rfl
  | cons u us => exact hclause (t :: u :: us) (by simp)

theorem afterDot_eq (hclause : ∀ ts, 2 ≤ ts.length → clause' ts = of (clause ts)) :
    afterDot v clause' ts = of (Clause.afterDot v clause ts) := by
  cases ts with
  | nil => rfl
  | cons t ts =>
    cases hdot : v.isDotToken t with
    | true =>
      unfold afterDot Clause.afterDot
      rw [token_zero, pure_bind]
      dsimp only
      rw [hdot]
      rfl
    | false =>
      unfold afterDot
      rw [token_zero, pure_bind, hdot, afterDot_cons hdot, ← of_bind, elementLength_cons,
        List.length_cons]
      show (of _ >>= fun n => _) = _
      congr 1
      funext n
      split
      · exact element_cons hclause
      · rfl

/-- What stands behind an element is taken apart without leaving the range. -/
theorem afterElement_eq (hclause : ∀ ts, 2 ≤ ts.length → clause' ts = of (clause ts))
    (hfurther : ts ≠ [] → further ts = of (Clause.elements v clause pairs ts)) :
    afterElement v clause' further pairs ts = of (Clause.afterElement v clause pairs ts) := by
  cases ts with
  | nil =>
    show pure _ = of (Clause.elements v clause pairs [])
    rw [elements_nil]
    rfl
  | cons s ss =>
    show (if v.isDotToken s then _ else _) = _
    cases hs : v.isDotToken s with
    | true =>
      have hdata : slice (s :: ss) 1 (s :: ss).length = pure ss := slice_length (Nat.le_add_left 1 _)
      rw [if_pos rfl, hdata, pure_bind, afterDot_eq hclause, of_map, afterElement_dot hs]
    | false =>
      rw [if_neg Bool.false_ne_true, hfurther (List.cons_ne_nil s ss), afterElement_other hs]

/-- The elements of a clause that are left are at least one when a round begins, and each round
takes off at least one. -/
theorem elements_eq (hclause : ∀ ts, 2 ≤ ts.length → clause' ts = of (clause ts)) (hne : ts ≠ []) :
    elements v clause' pairs ts = of (Clause.elements v clause pairs ts) := by
  induction hlength : ts.length using Nat.strongRecOn generalizing ts pairs with
  | ind k ih =>
    obtain ⟨t, ts, rfl⟩ := List.exists_cons_of_ne_nil hne
    cases hdot : v.isDotToken t with
    | true =>
      rw [elements, Clause.elements, token_zero, pure_bind, hdot]
      rfl
    | false =>
      rw [elements, token_zero, pure_bind, hdot, elements_cons hdot, elementLength_cons]
      show (of (Clause.elementLength v t ts) >>= _) = _
      cases hn : Clause.elementLength v t ts with
      | error e => rfl
      | ok n =>
        obtain ⟨hpos, hle⟩ := bounds_of_elementLength hn
        obtain ⟨n, rfl⟩ := Nat.exists_eq_add_of_le' hpos
        have hfirst : slice (t :: ts) 0 (n + 1) = pure (t :: ts.take n) := slice_zero hle
        have hrest : slice (t :: ts) (n + 1) (t :: ts).length = pure (ts.drop n) :=
          slice_length hle
        have hshorter : (ts.drop n).length < (t :: ts).length := by
          rw [List.length_drop, List.length_cons]
          omega
        show (slice (t :: ts) 0 (n + 1) >>= _) =
          of (Clause.element clause (t :: ts.take n) >>= fun address =>
            (Clause.afterElement v clause (pairs + 1) (ts.drop n)).map
              ("(" :: address ++ "." :: ·))
        rw [hfirst, pure_bind, element_cons hclause, ← of_bind]
        congr 1
        funext address
        rw [hrest, pure_bind, ← of_map]
        refine congrArg _ (afterElement_eq hclause fun hmore => ?_)
        rw [if_pos hshorter]
        exact ih _ (hlength ▸ hshorter) hmore rfl

/-- The tokens between the brackets of a clause are within its range. -/
theorem slice_inner {ts : List Token} (h : 2 ≤ ts.length) :
    slice ts 1 (ts.length - 1) = pure (inner ts) := by
  unfold slice inner
  rw [if_pos (by omega), List.extract_eq_take_drop, List.dropLast_eq_take, List.length_tail,
    List.drop_one]

/-- A clause of fewer than two tokens has no two brackets. -/
theorem dottedClause_of_length_lt (room : Nat) (clause : List Token) (h : clause.length < 2) :
    (dottedClause v room clause).run = none := by
  have hslice : slice clause 1 (clause.length - 1) = outOfRange := if_neg (by omega)
  cases room with
  | zero | succ =>
    unfold dottedClause
    rw [hslice]
    rfl

theorem dottedClause_eq (room : Nat) {ts : List Token} (h : 2 ≤ ts.length) :
    dottedClause v room ts = of (Clause.dottedClause v room ts) := by
  induction room generalizing ts with
  | zero =>
    unfold dottedClause
    rw [slice_inner h]
    rfl
  | succ room ih =>
    unfold dottedClause Clause.dottedClause
    rw [slice_inner h, pure_bind]
    cases inner ts with
    | nil => rfl
    | cons t us => exact elements_eq (fun ts hts => ih hts) (List.cons_ne_nil t us)

/-- A clause is brought into dotted form without leaving the range. -/
theorem dottedIn_eq (v : Vocabulary) (ts : List Token) :
    dottedIn v ts = of (Clause.dottedIn v ts) := by
  cases ts with
  | nil => rfl
  | cons t ts =>
    show (if v.isOpenToken t then _ else _) = _
    cases ho : v.isOpenToken t with
    | true =>
      rw [if_pos rfl, dottedIn_open ho]
      cases hlast : finish v (t :: ts) 0 with
      | error e => rfl
      | ok last =>
        obtain ⟨hpos, hle⟩ := bounds_of_finish ho hlast
        show (if last + 1 = ts.length + 1 then _ else token (t :: ts) (last + 1) >>= _) = _
        rw [ok_bind]
        by_cases hend : last = ts.length
        · have hnone : (t :: ts)[last + 1]? = none :=
            List.getElem?_eq_none_iff.2 (Nat.succ_le_succ (Nat.le_of_eq hend.symm))
          rw [if_pos (congrArg Nat.succ hend), hnone]
          exact dottedClause_eq Limits.nesting (by rw [List.length_cons]; omega)
        · have hlt : last < ts.length := Nat.lt_of_le_of_ne hle hend
          have hextra : (t :: ts)[last + 1]? = some ts[last] := by
            rw [List.getElem?_cons_succ, List.getElem?_eq_getElem hlt]
          rw [if_neg (mt Nat.succ.inj hend)]
          unfold token
          rw [hextra]
          rfl
    | false =>
      rw [if_neg Bool.false_ne_true]
      unfold Clause.dottedIn
      dsimp only
      rw [ho, if_neg Bool.false_ne_true]
      cases ts <;> cases v.isStructural t <;> rfl

end Positional

/-- No position is out of range when the dotted form of a statement is searched, although there
would be no result for a clause of fewer than two tokens, nor for an element of none. If the
statement begins with an opening bracket, its last token closes the clause, and no dot opens
clauses, then the clause can only have its dots in the wrong places, or nest too deeply. -/
theorem dottedIn_inRange (v : Vocabulary) (ts : List Token) :
    (∀ room clause, clause.length < 2 → (Positional.dottedClause v room clause).run = none) ∧
      (Positional.elementLength v []).run = none ∧
      (Positional.dottedIn v ts).run = some (dottedIn v ts) ∧
      ((∀ t, v.isDotToken t = true → v.isOpenToken t = false) →
        ∀ t us, ts = t :: us → v.isOpenToken t = true → finish v ts 0 = .ok us.length →
          ∀ e, dottedIn v ts = .error e →
            e ∈ [.missingAddress, .missingData, .repeatedDot, .crowdedData, .tooDeep]) := by
  refine ⟨Positional.dottedClause_of_length_lt, rfl,
    congrArg ExceptT.run (Positional.dottedIn_eq v ts), ?_⟩
  rintro hv t us rfl ho hfinish
  exact fails_dottedIn_of_closing? hv ho (finish_eq_ok_iff.1 hfinish)

/-- A vocabulary with a bracket that opens clauses and closes them, and a dot that closes them: the
last of the tokens, which closes the clause, leaves nothing behind the other dot. -/
theorem dottedIn_inRange_overlapping :
    let v := { Vocabulary.standard with
      isOpenToken := (["(", "begin"].contains ·)
      isCloseToken := ([")", "begin", "."].contains ·)
      isDotToken := ([",", "."].contains ·) }
    let ts : List Token := ["(", "begin", "a", ")", ",", "."]
    (∀ t, v.isDotToken t = true → v.isOpenToken t = false) ∧ v.isOpenToken "(" = true ∧
      finish v ts 0 = .ok 5 ∧ dottedIn v ts = .error .missingData ∧
      (Positional.dottedIn v ts).run = some (.error .missingData) ∧
      StructuralError.missingData ∈ faults := by
  intro v ts
  have hv : ∀ t, v.isDotToken t = true → v.isOpenToken t = false := by
    have hall : ∀ t ∈ [",", "."], v.isOpenToken t = false := by decide +kernel
    exact fun t ht => hall t (List.contains_iff_mem.1 ht)
  have ho : v.isOpenToken "(" = true := by decide +kernel
  have hfinish : finish v ts 0 = .ok 5 := by decide +kernel
  have hdotted : dottedIn v ts = .error .missingData := by decide +kernel
  obtain ⟨-, -, hrun, herrors⟩ := dottedIn_inRange v ts
  exact ⟨hv, ho, hfinish, hdotted, hdotted ▸ hrun, herrors hv _ _ rfl ho hfinish _ hdotted⟩

/-- A bracket that opens clauses and is a dot may leave the bracket that closes its clause
behind. -/
example :
    let v := { Vocabulary.standard with isDotToken := ([".", "["].contains ·) }
    dottedIn v ["(", "a", "[", "]", ")"] = .error (.unexpectedToken "]") := by
  decide +kernel

end PairLisp.Clause
