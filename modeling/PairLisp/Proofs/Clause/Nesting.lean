import Mathlib.Control.Monad.Basic
import PairLisp.Proofs.Clause.Dotted
import PairLisp.Proofs.SExpr.Dotted

/-!
# Two counts of nesting

The limit on nesting is counted twice. `Clause.dotted` counts brackets inside brackets, and the
reader of dotted pairs counts addresses inside addresses. An address that is a pair has been written
in brackets, so the second count is never more than the first (`Surface.addressNesting_tree_le`).
But the first may reach the limit and the second has to stay below it: of what `Clause.dotted`
accepts, the reader refuses those expressions whose addresses nest exactly as deeply as the limit
(`Clause.ofTokens_dotted`).

In the dotted form every pair has brackets of its own, also those along a list, so for the dotted
form of a list the first count is the length of the list (`SExpr.pairNesting`). The dotted form of a
statement is its own dotted form if and only if its pairs nest no deeper than the limit
(`Clause.dotted_dotted`).
-/

namespace PairLisp

open Vocabulary

/-! ## Addresses and brackets -/

mutual

/-- The addresses of an expression nest no deeper than the brackets that it is written with. -/
theorem Surface.addressNesting_tree_le {v : Vocabulary} (e : Surface v) :
    e.tree.addressNesting ≤ e.nesting := by
  cases e with
  | token t => exact Nat.le_refl 0
  | empty opening closing => exact Nat.zero_le 1
  | clause opening closing first rest =>
    have hfirst := Surface.addressNesting_tree_le first
    have hrest := Tail.addressNesting_tree_le rest
    show max (first.tree.addressNesting + 1) rest.tree.addressNesting ≤
      max first.nesting rest.nesting + 1
    omega

theorem Tail.addressNesting_tree_le {v : Vocabulary} (tail : Tail v) :
    tail.tree.addressNesting ≤ tail.nesting + 1 := by
  cases tail with
  | done => exact Nat.zero_le 1
  | dot dot data => exact Nat.le_succ_of_le (Surface.addressNesting_tree_le data)
  | next e rest =>
    have he := Surface.addressNesting_tree_le e
    have hrest := Tail.addressNesting_tree_le rest
    show max (e.tree.addressNesting + 1) rest.tree.addressNesting ≤
      max e.nesting rest.nesting + 1
    omega

end

mutual

/-- The atoms of an expression are `NIL` and the plain tokens that it is written with. -/
theorem Surface.all_tree {v : Vocabulary} {p : Atom → Prop} (hnil : p .nil) (e : Surface v)
    (h : ∀ t ∈ e.spelling, v.isStructural t = false → p ⟨t⟩) : e.tree.All p := by
  cases e with
  | token t => exact h t.val List.mem_cons_self t.property
  | empty opening closing => exact hnil
  | clause opening closing first rest =>
    have hmem : ∀ t ∈ first.spelling ++ rest.spelling,
        t ∈ (Surface.clause opening closing first rest).spelling :=
      fun t ht => List.mem_append_left _ (List.mem_cons_of_mem _ ht)
    exact ⟨Surface.all_tree hnil first fun t ht => h t (hmem t (List.mem_append_left _ ht)),
      Tail.all_tree hnil rest fun t ht => h t (hmem t (List.mem_append_right _ ht))⟩

theorem Tail.all_tree {v : Vocabulary} {p : Atom → Prop} (hnil : p .nil) (tail : Tail v)
    (h : ∀ t ∈ tail.spelling, v.isStructural t = false → p ⟨t⟩) : tail.tree.All p := by
  cases tail with
  | done => exact hnil
  | dot dot data =>
    exact Surface.all_tree hnil data fun t ht => h t (List.mem_cons_of_mem _ ht)
  | next e rest =>
    exact ⟨Surface.all_tree hnil e fun t ht => h t (List.mem_append_left _ ht),
      Tail.all_tree hnil rest fun t ht => h t (List.mem_append_right _ ht)⟩

end

/-- No atom of an expression is a bracket or a dot. -/
theorem Surface.plain_tree (e : Surface .standard) :
    e.tree.All fun a => standard.isStructural a.text = false :=
  e.all_tree (by decide) fun _ _ hplain => hplain

/-- A program may write down all atoms of an expression if it may write its plain tokens. -/
theorem Surface.writable_tree (e : Surface .standard)
    (htext : ∀ t ∈ e.spelling, standard.isStructural t = false → Atom.isText t = true) :
    e.tree.All SExpr.Writable :=
  e.all_tree ⟨by decide, by decide⟩ fun t ht hplain => ⟨htext t ht hplain, hplain⟩

namespace SExpr

variable {x : SExpr}

/-- How deeply pairs nest, also along the data. -/
def pairNesting : SExpr → Nat
  | .atom _ => 0
  | .cons a d => max a.pairNesting d.pairNesting + 1

/-- The dotted form of an expression is one of its spellings. Its brackets nest like its pairs. -/
theorem exists_surface_tokens (hx : x.All fun a => standard.isStructural a.text = false) :
    ∃ e : Surface .standard, e.spelling = x.tokens ∧ e.tree = x ∧ e.nesting = x.pairNesting := by
  induction x with
  | atom a => exact ⟨.token ⟨a.text, hx⟩, rfl, rfl, rfl⟩
  | cons a d iha ihd =>
    obtain ⟨address, haddress, rfl, hnesting⟩ := iha hx.1
    obtain ⟨data, hdata, rfl, hnesting'⟩ := ihd hx.2
    refine ⟨.clause ⟨"(", by decide⟩ ⟨")", by decide⟩ address (.dot ⟨".", by decide⟩ data),
      ?_, rfl, ?_⟩
    · rw [tokens_cons, ← haddress, ← hdata]
      rfl
    · show max address.nesting data.nesting + 1 = max _ _ + 1
      rw [hnesting, hnesting']

/-- The reader refuses the tokens of an expression whose addresses nest as deeply as the limit. -/
theorem ofTokens_tokens_tooDeep (hx : x.All Writable) (h : Limits.nesting ≤ x.addressNesting) :
    ofTokens x.tokens = .error .tooDeep := by
  have hroom : Limits.nesting - 1 < x.addressNesting := Nat.sub_one_lt_of_le (by decide) h
  have hread := read_tokens_tooDeep hx hroom [] []
  rwa [List.append_nil] at hread

end SExpr

/-! ## Brackets that nest too deeply -/

namespace Clause

variable {v : Vocabulary} {room : Nat}

/-- The elements of a clause are too deep if the first one or what is behind it is. -/
theorem elements_spelling_tooDeep (hv : v.Separated) {first : Surface v} {rest : Tail v}
    (h : room < max first.nesting rest.nesting)
    (hfirst : room < first.nesting →
      element (dottedClause v room) first.spelling = .error .tooDeep)
    (hrest : room < rest.nesting → ∀ pairs,
      afterElement v (dottedClause v room) pairs rest.spelling = .error .tooDeep) (pairs : Nat) :
    elements v (dottedClause v room) pairs (first.spelling ++ rest.spelling) =
      .error .tooDeep := by
  rw [elements_spelling_eq hv]
  by_cases hdeep : room < first.nesting
  · rw [hfirst hdeep]
    rfl
  · -- there is room for the first element, so the fault lies behind it
    rw [element_spelling hv first (Nat.le_of_not_lt hdeep), ok_bind, hrest (by omega)]
    rfl

mutual

/-- The spelling of a tree is refused where its brackets nest deeper than there is room. -/
theorem element_spelling_tooDeep (hv : v.Separated) (e : Surface v) {room : Nat}
    (h : room < e.nesting) : element (dottedClause v room) e.spelling = .error .tooDeep := by
  match e, room with
  | .token t, room => exact absurd h (Nat.not_lt_zero room)
  | .empty opening closing, 0 => rfl
  | .empty opening closing, room + 1 =>
    have hroom : room + 1 < 1 := h
    omega
  | .clause opening closing first rest, 0 =>
    have hlength : (Surface.clause opening closing first rest).spelling.length ≠ 1 := by
      simp [Surface.spelling]
    rw [element_of_length hlength]
    rfl
  | .clause opening closing first rest, room + 1 =>
    have hroom : room < max first.nesting rest.nesting := Nat.lt_of_succ_lt_succ h
    rw [element_clause_spelling]
    exact elements_spelling_tooDeep hv hroom (element_spelling_tooDeep hv first)
      (afterElement_spelling_tooDeep hv rest) 0

/-- So is what is written behind an element. -/
theorem afterElement_spelling_tooDeep (hv : v.Separated) (tail : Tail v) {room : Nat}
    (h : room < tail.nesting) (pairs : Nat) :
    afterElement v (dottedClause v room) pairs tail.spelling = .error .tooDeep := by
  match tail with
  | .done => exact absurd h (Nat.not_lt_zero room)
  | .dot dot data =>
    show afterElement v _ pairs (dot.val :: data.spelling) = _
    rw [afterElement_dot_spelling hv, element_spelling_tooDeep hv data h]
    rfl
  | .next e rest =>
    show afterElement v _ pairs (e.spelling ++ rest.spelling) = _
    rw [afterElement_next_spelling hv]
    exact elements_spelling_tooDeep hv h (element_spelling_tooDeep hv e)
      (afterElement_spelling_tooDeep hv rest) pairs

end

theorem dottedIn_spelling_tooDeep (hv : v.Separated) (e : Surface v)
    (h : Limits.nesting < e.nesting) : dottedIn v e.spelling = .error .tooDeep := by
  rw [dottedIn_spelling_eq hv]
  exact element_spelling_tooDeep hv e h

/-! ## Reading what was brought into dotted pairs -/

variable {ts out : List Token}

/-- A statement that `Clause.dotted` accepts has brackets that nest no deeper than the limit. If they
nest less deeply, its dotted form is read as the expression that the statement writes down. In
general it is read so unless the addresses of the expression nest exactly as deeply as the limit, and
then the reader refuses it. -/
theorem ofTokens_dotted
    (htext : ∀ t ∈ ts, standard.isStructural t = false → Atom.isText t = true)
    (h : dotted ts = .ok out) :
    ∃ e : Surface .standard, e.spelling = ts ∧ e.nesting ≤ Limits.nesting ∧ e.tree.tokens = out ∧
      (e.nesting < Limits.nesting → SExpr.ofTokens out = .ok e.tree) ∧
      (SExpr.ofTokens out = .ok e.tree ↔ e.tree.addressNesting ≠ Limits.nesting) ∧
      (SExpr.ofTokens out = .error .tooDeep ↔ e.tree.addressNesting = Limits.nesting) := by
  obtain ⟨e, rfl, hnesting, rfl⟩ := (dottedIn_eq_ok separated_standard out).1 h
  have hwritable : e.tree.All SExpr.Writable := e.writable_tree htext
  have hle := e.addressNesting_tree_le
  have hread : e.tree.addressNesting < Limits.nesting →
      SExpr.ofTokens e.tree.tokens = .ok e.tree := SExpr.ofTokens_tokens hwritable
  have hdeep : e.tree.addressNesting = Limits.nesting →
      SExpr.ofTokens e.tree.tokens = .error .tooDeep :=
    fun heq => SExpr.ofTokens_tokens_tooDeep hwritable (Nat.le_of_eq heq.symm)
  refine ⟨e, rfl, hnesting, rfl, fun hlt => hread (Nat.lt_of_le_of_lt hle hlt),
    ⟨fun hok heq => ?_, fun hne => hread (by omega)⟩, ⟨fun herror => ?_, hdeep⟩⟩
  · rw [hdeep heq] at hok
    simp at hok
  · refine Decidable.byContradiction fun hne => ?_
    rw [hread (by omega)] at herror
    simp at herror

/-- A list with an address in it, in three kinds of brackets. -/
theorem ofTokens_dotted_brackets :
    let ts : List Token := ["(", "[", "x", ".", "+1", "]", "\x7b", "\x7d", ")"]
    let out : List Token :=
      ["(", "(", "x", ".", "+1", ")", ".", "(", "NIL", ".", "NIL", ")", ")"]
    (∀ t ∈ ts, standard.isStructural t = false → Atom.isText t = true) ∧ dotted ts = .ok out ∧
      ∃ e : Surface .standard, e.spelling = ts ∧ e.nesting ≤ Limits.nesting ∧
        e.tree.tokens = out ∧ (e.nesting < Limits.nesting → SExpr.ofTokens out = .ok e.tree) ∧
        (SExpr.ofTokens out = .ok e.tree ↔ e.tree.addressNesting ≠ Limits.nesting) ∧
        (SExpr.ofTokens out = .error .tooDeep ↔ e.tree.addressNesting = Limits.nesting) := by
  intro ts out
  have htext : ∀ t ∈ ts, standard.isStructural t = false → Atom.isText t = true := by decide
  have hdotted : dotted ts = .ok out := by decide +kernel
  exact ⟨htext, hdotted, ofTokens_dotted htext hdotted⟩

/-- A token in the given number of brackets. -/
def wrapped (t : PlainToken .standard) : Nat → Surface .standard
  | 0 => .token t
  | n + 1 => .clause ⟨"(", by decide⟩ ⟨")", by decide⟩ (wrapped t n) .done

theorem spelling_wrapped (t : PlainToken .standard) (n : Nat) : (wrapped t n).spelling =
    List.replicate n "(" ++ t.val :: List.replicate n ")" := by
  induction n with
  | zero => rfl
  | succ n ih =>
    show "(" :: ((wrapped t n).spelling ++ []) ++ [")"] = _
    rw [ih, List.replicate_succ, List.replicate_succ' (a := ")")]
    simp

theorem nesting_wrapped (t : PlainToken .standard) (n : Nat) : (wrapped t n).nesting = n := by
  induction n with
  | zero => rfl
  | succ n ih =>
    show max (wrapped t n).nesting 0 + 1 = n + 1
    rw [ih, Nat.max_zero]

theorem addressNesting_wrapped (t : PlainToken .standard) (n : Nat) :
    (wrapped t n).tree.addressNesting = n := by
  induction n with
  | zero => rfl
  | succ n ih =>
    show max ((wrapped t n).tree.addressNesting + 1) 0 = n + 1
    rw [ih, Nat.max_zero]

/-- With as many brackets as the limit allows, the two counts disagree. -/
theorem ofTokens_dotted_limit :
    let ts : List Token := List.replicate 128 "(" ++ "x" :: List.replicate 128 ")"
    (∀ t ∈ ts, standard.isStructural t = false → Atom.isText t = true) ∧
      ∃ out, dotted ts = .ok out ∧ SExpr.ofTokens out = .error .tooDeep := by
  intro ts
  let x : PlainToken .standard := ⟨"x", by decide⟩
  have htext : ∀ t ∈ ts, standard.isStructural t = false → Atom.isText t = true := by
    intro t ht hplain
    simp only [ts, List.mem_append, List.mem_cons, List.mem_replicate] at ht
    rcases ht with ⟨-, rfl⟩ | rfl | ⟨-, rfl⟩
    · exact absurd hplain (by decide)
    · decide
    · exact absurd hplain (by decide)
  have hspelling : (wrapped x 128).spelling = ts := spelling_wrapped x 128
  have hwritable : (wrapped x 128).tree.All SExpr.Writable :=
    (wrapped x 128).writable_tree (hspelling ▸ htext)
  refine ⟨htext, (wrapped x 128).tree.tokens, ?_, ?_⟩
  · rw [← hspelling]
    exact dottedIn_spelling separated_standard _ (Nat.le_of_eq (nesting_wrapped x 128))
  · exact SExpr.ofTokens_tokens_tooDeep hwritable
      (Nat.le_of_eq (addressNesting_wrapped x 128).symm)

/-! ## Dotted pairs brought into dotted pairs -/

/-- The dotted form of a statement is its own dotted form if and only if the pairs of the expression
that it writes down nest no deeper than the limit. If they do, the dotted form is too deep. -/
theorem dotted_dotted (h : dotted ts = .ok out) :
    ∃ e : Surface .standard, e.spelling = ts ∧ e.tree.tokens = out ∧
      (dotted out = .ok out ↔ e.tree.pairNesting ≤ Limits.nesting) ∧
      (¬ e.tree.pairNesting ≤ Limits.nesting → dotted out = .error .tooDeep) := by
  obtain ⟨e, rfl, -, rfl⟩ := (dottedIn_eq_ok separated_standard out).1 h
  obtain ⟨e', hspelling, htree, hnesting⟩ := SExpr.exists_surface_tokens e.plain_tree
  have hok : e.tree.pairNesting ≤ Limits.nesting →
      dotted e.tree.tokens = .ok e.tree.tokens := by
    intro hle
    have hdotted := dottedIn_spelling separated_standard e' (hnesting ▸ hle)
    rwa [hspelling, htree] at hdotted
  have hdeep : ¬ e.tree.pairNesting ≤ Limits.nesting →
      dotted e.tree.tokens = .error .tooDeep := by
    intro hlt
    have hdotted := dottedIn_spelling_tooDeep separated_standard e'
      (hnesting ▸ Nat.lt_of_not_le hlt)
    rwa [hspelling] at hdotted
  refine ⟨e, rfl, rfl, ⟨fun hfixed => ?_, hok⟩, hdeep⟩
  refine Decidable.byContradiction fun hlt => ?_
  rw [hdeep hlt] at hfixed
  simp at hfixed

/-- A short list in two kinds of brackets. -/
theorem dotted_dotted_short :
    let ts : List Token := ["[", "a", "(", "b", ".", "c", ")", "]"]
    let out : List Token :=
      ["(", "a", ".", "(", "(", "b", ".", "c", ")", ".", "NIL", ")", ")"]
    dotted ts = .ok out ∧ dotted out = .ok out ∧ ∃ e : Surface .standard, e.spelling = ts ∧
      e.tree.tokens = out ∧ (dotted out = .ok out ↔ e.tree.pairNesting ≤ Limits.nesting) ∧
      (¬ e.tree.pairNesting ≤ Limits.nesting → dotted out = .error .tooDeep) := by
  intro ts out
  have hdotted : dotted ts = .ok out := by decide +kernel
  have hfixed : dotted out = .ok out := by decide +kernel
  exact ⟨hdotted, hfixed, dotted_dotted hdotted⟩

/-- A token, repeated up to the end of a clause. -/
def repeated (t : PlainToken .standard) : Nat → Tail .standard
  | 0 => .done
  | n + 1 => .next (.token t) (repeated t n)

theorem spelling_repeated (t : PlainToken .standard) (n : Nat) :
    (repeated t n).spelling = List.replicate n t.val := by
  induction n with
  | zero => rfl
  | succ n ih => exact congrArg (t.val :: ·) ih

theorem nesting_repeated (t : PlainToken .standard) (n : Nat) : (repeated t n).nesting = 0 := by
  induction n with
  | zero => rfl
  | succ n ih =>
    show max 0 (repeated t n).nesting = 0
    rw [ih, Nat.max_self]

theorem pairNesting_repeated (t : PlainToken .standard) (n : Nat) :
    (repeated t n).tree.pairNesting = n := by
  induction n with
  | zero => rfl
  | succ n ih =>
    show max 0 (repeated t n).tree.pairNesting + 1 = n + 1
    rw [ih, Nat.zero_max]

/-- The dotted form of a list that is longer than the limit is too deep. -/
theorem dotted_dotted_long :
    let ts : List Token := "(" :: List.replicate 129 "a" ++ [")"]
    ∃ out, dotted ts = .ok out ∧ dotted out = .error .tooDeep := by
  intro ts
  let a : PlainToken .standard := ⟨"a", by decide⟩
  let e : Surface .standard :=
    .clause ⟨"(", by decide⟩ ⟨")", by decide⟩ (.token a) (repeated a 128)
  have hspelling : e.spelling = ts := by
    show "(" :: ("a" :: (repeated a 128).spelling) ++ [")"] = _
    rw [spelling_repeated]
    rfl
  have hnesting : e.nesting ≤ Limits.nesting := by
    show max 0 (repeated a 128).nesting + 1 ≤ Limits.nesting
    rw [nesting_repeated]
    decide
  have hpairs : e.tree.pairNesting = 129 := by
    show max 0 (repeated a 128).tree.pairNesting + 1 = 129
    rw [pairNesting_repeated]
    rfl
  obtain ⟨e', htokens, -, hnesting'⟩ := SExpr.exists_surface_tokens e.plain_tree
  refine ⟨e.tree.tokens, ?_, ?_⟩
  · rw [← hspelling]
    exact dottedIn_spelling separated_standard e hnesting
  · rw [← htokens]
    refine dottedIn_spelling_tooDeep separated_standard e' ?_
    rw [hnesting', hpairs]
    decide

end Clause

end PairLisp
