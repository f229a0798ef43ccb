import PairLisp.Proofs.Clause.Matching
import PairLisp.Proofs.SExpr.All

/-!
# Writing dotted pairs and reading them back

An expression that is written as dotted pairs and read again is the same expression, if its
addresses nest less deeply than the limit (`SExpr.read_tokens`), and too deep if they do not
(`SExpr.read_tokens_tooDeep`). How deep they nest is counted along the chain of data
(`SExpr.addressNesting_cons`). Whatever tokens the reader accepts, they are those of the expression
that it has read, up to the kinds of their brackets (`SExpr.tokens_of_read`).

The reader is never at the beginning of an expression for long: it stands inside some pairs, of
each of which it has read a part, with tokens still to come. So all three statements are about any
stack of frames and any tokens to come. For the last one, `Frame.written` gives back the tokens of
the part of a pair that has been read.
-/

namespace PairLisp

/-! ## Kinds of brackets -/

namespace Token

/-- The token with every bracket made a round one. -/
def round (t : Token) : Token :=
  if Vocabulary.standard.isOpenToken t then "("
  else if Vocabulary.standard.isCloseToken t then ")"
  else t

variable {t : Token}

theorem round_open (h : Vocabulary.standard.isOpenToken t = true) : round t = "(" := if_pos h

theorem round_close (h : Vocabulary.standard.isCloseToken t = true) : round t = ")" := by
  have ho := Vocabulary.separated_standard.not_open_of_close h
  unfold round
  rw [ho, h]
  rfl

theorem round_dot (h : Vocabulary.standard.isDotToken t = true) : round t = "." := by
  have ho := Vocabulary.separated_standard.not_open_of_dot h
  have hc := Vocabulary.separated_standard.not_close_of_dot h
  -- the dot is the only token of its kind
  have ht : t.toList = ['.'] := by
    change Vocabulary.isSingle (· == '.') t = true at h
    unfold Vocabulary.isSingle at h
    split at h
    · next c hlist => rw [hlist, beq_iff_eq.1 h]
    · simp at h
  unfold round
  rw [ho, hc]
  exact String.toList_inj.1 ht

theorem round_plain (h : Vocabulary.standard.isStructural t = false) : round t = t := by
  obtain ⟨ho, hc, -⟩ := Vocabulary.isStructural_eq_false.1 h
  unfold round
  rw [ho, hc]
  rfl

end Token

namespace SExpr

variable {x : SExpr} {room : Nat} {frames : List Frame} {t : Token} {ts : List Token}

/-! ## One step of the reader -/

/-- An opening bracket has the reader want the address of one more pair. -/
theorem read_open (h : Vocabulary.standard.isOpenToken t = true) :
    read (room + 1) .want frames (t :: ts) = read room .want (.address :: frames) ts := by
  rw [read, if_pos h]

theorem read_open_tooDeep (h : Vocabulary.standard.isOpenToken t = true) :
    read 0 .want frames (t :: ts) = .error .tooDeep := by
  rw [read, if_pos h]

/-- A dot behind an address has the reader want the data of the pair. -/
theorem read_dot (h : Vocabulary.standard.isDotToken t = true) :
    read room (.got x) (.address :: frames) (t :: ts) =
      read (room + 1) .want (.data x :: frames) ts := by
  rw [read, if_pos h]

/-- A closing bracket completes the pair. -/
theorem read_close {a : SExpr} (h : Vocabulary.standard.isCloseToken t = true) :
    read room (.got x) (.data a :: frames) (t :: ts) = read room (.got (.cons a x)) frames ts := by
  rw [read, if_pos h]

/-- An atom that a program may write down is read from its text. -/
theorem read_atom {a : Atom} (h : Writable a) :
    read room .want frames (a.text :: ts) = read room (.got (.atom a)) frames ts := by
  obtain ⟨htext, hplain⟩ := h
  have hopen : ¬ Vocabulary.standard.isOpenToken a.text = true := by
    rw [(Vocabulary.isStructural_eq_false.1 hplain).1]
    exact Bool.false_ne_true
  have htoken : ofToken a.text = .ok (.atom a) := by
    unfold ofToken ofText? Atom.ofText?
    rw [hplain, htext]
    rfl
  rw [read.eq_def]
  dsimp only
  rw [if_neg hopen, htoken]

/-! ## From an expression to its tokens and back -/

/-- How deeply addresses nest: an address counts one more than the deepest of the addresses inside
it, and the data of a pair count as much as the pair. -/
def addressNesting : SExpr → Nat
  | .atom _ => 0
  | .cons a d => max (a.addressNesting + 1) d.addressNesting

/-- A pair counts one more than the deepest of the addresses along its chain of data. -/
theorem addressNesting_cons (a d : SExpr) : (SExpr.cons a d).addressNesting =
    ((SExpr.cons a d).elements.map addressNesting).foldr max 0 + 1 := by
  induction d generalizing a with
  | atom b => simp [addressNesting, elements]
  | cons b e _ ih =>
    have hrest := ih b
    rw [elements, List.map_cons, List.foldr_cons]
    show max (a.addressNesting + 1) (SExpr.cons b e).addressNesting = _
    omega

/-- The reader passes over the tokens of an expression whose addresses it has room for. -/
theorem read_tokens (hx : x.All Writable) (h : x.addressNesting ≤ room) (frames : List Frame)
    (rest : List Token) :
    read room .want frames (x.tokens ++ rest) = read room (.got x) frames rest := by
  induction x generalizing room frames rest with
  | atom a => exact read_atom hx
  | cons a d iha ihd =>
    have hnesting : max (a.addressNesting + 1) d.addressNesting ≤ room := h
    obtain ⟨room, rfl⟩ : ∃ k, room = k + 1 := ⟨room - 1, by omega⟩
    have hlist : (SExpr.cons a d).tokens ++ rest =
        "(" :: (a.tokens ++ "." :: (d.tokens ++ ")" :: rest)) := by simp
    rw [hlist, read_open (by decide), iha hx.1 (by omega), read_dot (by decide),
      ihd hx.2 (by omega), read_close (by decide)]

/-- The reader gives up on the tokens of an expression whose addresses it has no room for. -/
theorem read_tokens_tooDeep (hx : x.All Writable) (h : room < x.addressNesting)
    (frames : List Frame) (rest : List Token) :
    read room .want frames (x.tokens ++ rest) = .error .tooDeep := by
  induction x generalizing room frames rest with
  | atom a => exact absurd h (Nat.not_lt_zero room)
  | cons a d iha ihd =>
    have hnesting : room < max (a.addressNesting + 1) d.addressNesting := h
    have hlist : (SExpr.cons a d).tokens ++ rest =
        "(" :: (a.tokens ++ "." :: (d.tokens ++ ")" :: rest)) := by simp
    rw [hlist]
    cases room with
    | zero => exact read_open_tooDeep (by decide)
    | succ room =>
      rw [read_open (by decide)]
      by_cases ha : room < a.addressNesting
      · exact iha hx.1 ha _ _
      · -- there is room for the address, so the data are too deep
        rw [read_tokens hx.1 (by omega), read_dot (by decide)]
        exact ihd hx.2 (by omega) _ _

/-! ## From tokens to the expression and back -/

/-- The tokens of the part of a pair that has been read. -/
def Frame.written : Frame → List Token
  | .address => ["("]
  | .data a => "(" :: a.tokens ++ ["."]

/-- The tokens of the expression that was read last. -/
def Reading.written : Reading → List Token
  | .want => []
  | .got x => x.tokens

/-- A token that is an expression is the token of that expression. -/
theorem tokens_of_ofToken (h : ofToken t = .ok x) : x.tokens = [t.round] := by
  unfold ofToken at h
  split at h
  · simp at h
  · next hplain =>
    rw [Token.round_plain (Bool.eq_false_iff.2 hplain)]
    split at h
    · next y hy =>
      obtain rfl := Except.ok.inj h
      unfold ofText? Atom.ofText? at hy
      split at hy
      · obtain rfl := Option.some.inj hy
        rfl
      · simp at hy
    · simp at h

/-- What has been read and what is still to come are the tokens of the expression that the reader
comes to. -/
theorem tokens_of_read {r : Reading} (h : read room r frames ts = .ok x) :
    frames.reverse.flatMap Frame.written ++ r.written ++ ts.map Token.round = x.tokens := by
  induction ts generalizing room r frames with
  | nil =>
    cases r with
    | want => simp [read] at h
    | got y =>
      cases frames with
      | nil =>
        obtain rfl : y = x := by simpa [read] using h
        simp [Reading.written]
      | cons f frames => cases f <;> simp [read] at h
  | cons t ts ih =>
    cases r with
    | want =>
      unfold read at h
      split at h
      · next ho =>
        -- the token opens a pair
        cases room with
        | zero => simp at h
        | succ room =>
          rw [← ih h]
          simp [Reading.written, Frame.written, Token.round_open ho]
      · split at h
        · next y hy =>
          rw [← ih h]
          simp [Reading.written, tokens_of_ofToken hy]
        · simp at h
    | got y =>
      cases frames with
      | nil => simp [read] at h
      | cons f frames =>
        cases f with
        | address =>
          unfold read at h
          split at h
          · next hdot =>
            rw [← ih h]
            simp [Reading.written, Frame.written, Token.round_dot hdot]
          · simp at h
        | data a =>
          unfold read at h
          split at h
          · next hc =>
            rw [← ih h]
            simp [Reading.written, Frame.written, Token.round_close hc]
          · simp at h

theorem ofToken_ne_openClause (t u : Token) : ofToken t ≠ .error (.openClause u) := by
  unfold ofToken
  split
  · simp
  · split <;> simp

/-- The reader does not look for the ends of clauses, so it never misses one. -/
theorem read_ne_openClause (r : Reading) (frames : List Frame) (ts : List Token) (u : Token) :
    read room r frames ts ≠ .error (.openClause u) := by
  fun_induction read room r frames ts with
  | case3 _ _ _ _ _ ih => exact ih
  | case4 _ _ _ _ _ _ _ ih => exact ih
  | case5 _ _ _ _ _ e he => exact fun h => ofToken_ne_openClause _ u (he.trans h)
  | case9 _ _ _ _ _ _ ih => exact ih
  | case12 _ _ _ _ _ _ _ ih => exact ih
  | _ => simp

/-- An expression comes back from its tokens if its addresses nest less deeply than the limit. -/
theorem ofTokens_tokens (hx : x.All Writable) (h : x.addressNesting < Limits.nesting) :
    ofTokens x.tokens = .ok x := by
  have hroom : x.addressNesting ≤ Limits.nesting - 1 := Nat.le_sub_one_of_lt h
  have hread := read_tokens hx hroom [] []
  rwa [List.append_nil] at hread

/-- An expression that a program may write down comes back from its tokens if and only if its
addresses nest less deeply than the limit, and otherwise is too deep. Conversely, the tokens that
an expression is read from are the tokens of the expression, once their brackets are made round. -/
theorem ofTokens_roundTrip :
    (∀ x : SExpr, x.All Writable →
      (ofTokens x.tokens = .ok x ↔ x.addressNesting < Limits.nesting) ∧
      (¬ x.addressNesting < Limits.nesting → ofTokens x.tokens = .error .tooDeep)) ∧
    ∀ (ts : List Token) (x : SExpr), ofTokens ts = .ok x → x.tokens = ts.map Token.round := by
  refine ⟨fun x hx => ?_, fun ts x h => (tokens_of_read h).symm⟩
  have hdeep : ¬ x.addressNesting < Limits.nesting → ofTokens x.tokens = .error .tooDeep := by
    intro h
    have hroom : Limits.nesting - 1 < x.addressNesting := by
      unfold Limits.nesting at h ⊢
      omega
    have hread := read_tokens_tooDeep hx hroom [] []
    rwa [List.append_nil] at hread
  refine ⟨⟨fun h => ?_, ofTokens_tokens hx⟩, hdeep⟩
  refine Decidable.byContradiction fun hnesting => ?_
  rw [hdeep hnesting] at h
  simp at h

/-- The expression `((a . +1) . "b c")`, also in other brackets. -/
theorem ofTokens_roundTrip_brackets :
    let x : SExpr := .cons (.cons (.atom ⟨"a"⟩) (.atom ⟨"+1"⟩)) (.atom ⟨"\"b c\""⟩)
    let ts : List Token := ["[", "\x7b", "a", ".", "+1", ")", ".", "\"b c\"", "\x7d"]
    x.All Writable ∧ ofTokens x.tokens = .ok x ∧ ofTokens ts = .ok x ∧
      x.tokens = ts.map Token.round := by
  intro x ts
  have hx : x.All Writable :=
    ⟨⟨⟨by decide, by decide⟩, ⟨by decide, by decide⟩⟩, ⟨by decide, by decide⟩⟩
  have hts : ofTokens ts = .ok x := by rfl
  exact ⟨hx, (ofTokens_roundTrip.1 x hx).1.2 (by decide), hts, ofTokens_roundTrip.2 ts x hts⟩

end SExpr

end PairLisp
