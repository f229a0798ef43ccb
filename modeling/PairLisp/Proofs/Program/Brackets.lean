import Mathlib.Data.List.Forall2
import PairLisp.Proofs.Clause.Brackets
import PairLisp.Proofs.Program.Split
import PairLisp.Proofs.Program.Session
import PairLisp.Proofs.Program.Tokens
import PairLisp.Proofs.Token.Brackets

/-!
# Programs in other brackets

The brackets of a program may be exchanged for others, opening ones for opening ones and closing
ones for closing ones, wherever they stand outside of strings: the program is run in the same way
(`Program.run_rebracketed`). Only the texts of errors and statements show the new brackets.

The brackets are exchanged one at a time, from the last to the first
(`Program.roundTokens_rebracketed`). The scan of what stands in front of a bracket, which both texts
have in common, tells what the bracket is part of: a comment, which is left out, a string without an
end, with which no text has tokens, or else the code, where the bracket is a token. Afterwards the
statements are the same but for their brackets (`Statement.Alike`), and so their expressions are the
same.
-/

namespace PairLisp

open Vocabulary

/-! ## Exchanging brackets -/

namespace Comment

variable {line : Nat} {c : Char} {cs ds : List Char}

/-- The place of a text is in a string, and the string ends behind it. -/
def InString (cs : List Char) (i : Nat) : Prop :=
  ∃ s, scanTo .code 1 (cs.take i) = .ok s ∧ s.mode = .string ∧ '"' ∈ cs.drop i

instance (cs : List Char) (i : Nat) : Decidable (InString cs i) :=
  match h : scanTo .code 1 (cs.take i) with
  | .error _ => .isFalse (by simp [InString, h])
  | .ok s => decidable_of_iff (s.mode = .string ∧ '"' ∈ cs.drop i) (by simp [InString, h])

/-- The second text is the first with other brackets outside of its strings. -/
structure Rebracketed (cs ds : List Char) : Prop where
  length : cs.length = ds.length
  same : ∀ i c d, cs[i]? = some c → ds[i]? = some d →
    c = d ∨ (SameBracket c d ∧ ¬ InString cs i)

instance (cs ds : List Char) : Decidable (Rebracketed cs ds) :=
  decidable_of_iff (cs.length = ds.length ∧ ∀ p ∈ (cs.zip ds).zipIdx,
      p.1.1 = p.1.2 ∨ (SameBracket p.1.1 p.1.2 ∧ ¬ InString cs p.2)) <| by
    constructor
    · rintro ⟨hlength, hall⟩
      refine ⟨hlength, fun i c d hc hd => hall ((c, d), i) ?_⟩
      rw [List.mem_zipIdx_iff_getElem?, List.getElem?_zip_eq_some]
      exact ⟨hc, hd⟩
    · rintro ⟨hlength, hsame⟩
      refine ⟨hlength, fun p hp => ?_⟩
      rw [List.mem_zipIdx_iff_getElem?, List.getElem?_zip_eq_some] at hp
      exact hsame p.2 p.1.1 p.1.2 hp.1 hp.2

/-- The brackets behind a character may be exchanged without the character itself. -/
theorem Rebracketed.tail {pre : List Char} {d : Char}
    (h : Rebracketed (pre ++ c :: cs) (pre ++ d :: ds)) :
    Rebracketed (pre ++ c :: cs) (pre ++ c :: ds) := by
  refine ⟨by simpa using h.length, fun i x y hx hy => ?_⟩
  by_cases hi : i = pre.length
  · subst hi
    have hxc : some c = some x := by simpa using hx
    have hyc : some c = some y := by simpa using hy
    exact .inl (Option.some.inj (hxc.symm.trans hyc))
  · refine h.same i x y hx ?_
    rcases Nat.lt_or_gt_of_ne hi with hlt | hgt
    · rwa [List.getElem?_append_left hlt] at hy ⊢
    · obtain ⟨k, rfl⟩ : ∃ k, i = pre.length + (k + 1) := ⟨i - pre.length - 1, by omega⟩
      rw [List.getElem?_append_right (by omega), Nat.add_sub_cancel_left] at hy ⊢
      exact hy

/-- Quotes are no brackets, so every quote has been there before. -/
theorem Rebracketed.quote_mem {pre : List Char} {d : Char}
    (h : Rebracketed (pre ++ c :: cs) (pre ++ d :: ds)) (hquote : '"' ∈ ds) : '"' ∈ cs := by
  obtain ⟨k, hk, hget⟩ := List.getElem_of_mem hquote
  have hlength : k < cs.length := by
    have hboth := h.length
    simp only [List.length_append, List.length_cons] at hboth
    omega
  have hx : (pre ++ c :: cs)[pre.length + (k + 1)]? = some cs[k] := by simp [hlength]
  have hy : (pre ++ d :: ds)[pre.length + (k + 1)]? = some '"' := by simp [hk, hget]
  rcases h.same _ _ _ hx hy with heq | ⟨hsame, -⟩
  · exact heq ▸ List.getElem_mem hlength
  · exact absurd hsame.symm.mem_brackets (by decide)

/-! ## Scanning a bracket -/

theorem nextLine_bracket (hc : c ∈ brackets) : nextLine line c = line := by
  refine if_neg ?_
  rintro rfl
  exact absurd hc (by decide)

/-- A scan outside strings and comments keeps a bracket. -/
theorem scan_bracket (hc : c ∈ brackets) :
    scan .code line (c :: cs) = (scan .code line cs).map (c :: ·) := by
  rw [scan_plain (plain_of_mem_brackets hc), nextLine_bracket hc]

/-- A bracket in a line comment is left out. -/
theorem scan_line_bracket (hc : c ∈ brackets) :
    scan .line line (c :: cs) = scan .line line cs := by
  refine scan_in_line ?_
  rintro rfl
  exact absurd hc (by decide)

/-- A bracket in a block comment is left out. -/
theorem scan_block_bracket {opened : Nat} (hc : c ∈ brackets) :
    scan (.block opened) line (c :: cs) = scan (.block opened) line cs := by
  have hend : ¬ ['|', '#'] <+: c :: cs := fun hmark =>
    (plain_of_mem_brackets hc).2.2.2 (List.cons_prefix_cons.1 hmark).1.symm
  rw [scan_in_block hend, if_neg]
  rintro rfl
  exact absurd hc (by decide)

end Comment

namespace Program

open Comment Token

variable {c d : Char} {pre cs ds : List Char} {ts : List Token}

/-- The tokens of a text with their brackets made round, if the text has tokens. -/
def roundTokens (cs : List Char) : Option (List Token) :=
  (tokens (String.ofList cs)).toOption.map (·.map round)

theorem roundTokens_eq_some_iff : roundTokens cs = some ts ↔
    ∃ us, tokens (String.ofList cs) = .ok us ∧ us.map round = ts := by
  unfold roundTokens
  cases tokens (String.ofList cs) with
  | error e => simp [Except.toOption]
  | ok us => simp [Except.toOption]

/-- One bracket is exchanged. If it is part of a string, this has no end. -/
theorem exists_tokens_exchange (h : SameBracket c d)
    (hstring : ∀ s, scanTo .code 1 pre = .ok s → s.mode = .string → '"' ∉ ds)
    (hts : tokens (String.ofList (pre ++ c :: ds)) = .ok ts) :
    ∃ us, tokens (String.ofList (pre ++ d :: ds)) = .ok us ∧ us.map round = ts.map round := by
  have hc := h.mem_brackets
  have hd := h.symm.mem_brackets
  -- no mark goes over the border in front of a bracket
  have happend : ∀ {c}, c ∈ brackets → scan .code 1 (pre ++ c :: ds) =
      (scanTo .code 1 pre).bind (·.thenScan (c :: ds)) := by
    intro c hc
    obtain ⟨-, -, hblock, hstray⟩ := plain_of_mem_brackets hc
    exact scan_append ⟨by simp [hstray], by simp [hblock]⟩
  obtain ⟨kept, hkept, hreads⟩ := tokens_eq_ok_iff_reads.1 hts
  rw [String.toList_ofList, happend hc] at hkept
  obtain ⟨s, hs, hrest⟩ := bind_eq_ok.1 hkept
  suffices hexchange : ∃ kept' us, s.thenScan (d :: ds) = .ok kept' ∧ Reads kept' us ∧
      us.map round = ts.map round by
    obtain ⟨kept', us, hkept', hreads', hround⟩ := hexchange
    refine ⟨us, tokens_eq_ok_iff_reads.2 ⟨kept', ?_, hreads'⟩, hround⟩
    rw [String.toList_ofList, happend hd, hs]
    exact hkept'
  unfold Scanned.thenScan at hrest ⊢
  cases hmode : s.mode with
  | code =>
    rw [hmode, scan_bracket hc] at hrest
    obtain ⟨_, hmap, rfl⟩ := map_eq_ok.1 hrest
    obtain ⟨k, hk, rfl⟩ := map_eq_ok.1 hmap
    obtain ⟨us, hus, hround⟩ := hreads.exchange h (count_quote_of_code hs hmode)
    refine ⟨_, us, ?_, hus, hround⟩
    rw [scan_bracket hd, hk]
    rfl
  | string =>
    -- the string has no end, so the text would have no tokens
    have hnone : '"' ∉ c :: ds := by
      rw [List.mem_cons, not_or]
      exact ⟨Ne.symm (plain_of_mem_brackets hc).1, hstring s hs hmode⟩
    rw [hmode, scan_string hnone] at hrest
    obtain rfl := Except.ok.inj hrest
    have hcount := hreads.count_quote hc (by simp)
    rw [List.count_append, List.count_eq_zero.2 hnone, Nat.add_zero] at hcount
    have hodd : (0 + s.kept.count '"') % 2 = s.mode.quotes := quotes_of_scanTo hs
    rw [Nat.zero_add, hcount, hmode] at hodd
    exact absurd hodd (by decide)
  | line =>
    rw [hmode, scan_line_bracket hc] at hrest
    refine ⟨kept, ts, ?_, hreads, rfl⟩
    rw [scan_line_bracket hd, hrest]
  | block opened =>
    rw [hmode, scan_block_bracket hc] at hrest
    refine ⟨kept, ts, ?_, hreads, rfl⟩
    rw [scan_block_bracket hd, hrest]

/-- Another bracket of the same kind makes no difference to the tokens. -/
theorem roundTokens_exchange (h : SameBracket c d)
    (hstring : ∀ s, scanTo .code 1 pre = .ok s → s.mode = .string → '"' ∉ ds) :
    roundTokens (pre ++ c :: ds) = roundTokens (pre ++ d :: ds) := by
  have hone : ∀ {c d ts}, SameBracket c d → roundTokens (pre ++ c :: ds) = some ts →
      roundTokens (pre ++ d :: ds) = some ts := by
    intro c d ts h hts
    obtain ⟨us, hus, rfl⟩ := roundTokens_eq_some_iff.1 hts
    exact roundTokens_eq_some_iff.2 (exists_tokens_exchange h hstring hus)
  exact Option.ext fun ts => ⟨hone h, hone h.symm⟩

/-- Texts that are the same but for brackets outside of strings have the same tokens but for the
kinds of brackets. -/
theorem roundTokens_rebracketed (pre : List Char) (h : Rebracketed (pre ++ cs) (pre ++ ds)) :
    roundTokens (pre ++ cs) = roundTokens (pre ++ ds) := by
  induction cs generalizing pre ds with
  | nil =>
    have hlength := h.length
    rw [List.append_nil, List.length_append, Nat.left_eq_add, List.length_eq_zero_iff] at hlength
    rw [hlength]
  | cons c cs ih =>
    cases ds with
    | nil =>
      have hlength := h.length
      simp at hlength
    | cons d ds =>
      -- first all brackets behind the character, and then the character itself
      have hbehind : roundTokens (pre ++ c :: cs) = roundTokens (pre ++ c :: ds) := by
        have htail := h.tail
        rw [List.append_cons pre c cs, List.append_cons pre c ds] at htail ⊢
        exact ih (pre ++ [c]) htail
      rw [hbehind]
      have hget : (pre ++ c :: cs)[pre.length]? = some c := by simp
      have hget' : (pre ++ d :: ds)[pre.length]? = some d := by simp
      rcases h.same _ _ _ hget hget' with rfl | ⟨hsame, hstring⟩
      · rfl
      · refine roundTokens_exchange hsame fun s hs hmode hquote => hstring ⟨s, ?_, hmode, ?_⟩
        · rwa [List.take_left]
        · rw [List.drop_left]
          exact List.mem_cons_of_mem c (h.quote_mem hquote)

end Program

/-! ## Statements in other brackets -/

namespace Statement

variable {s s' : Statement} {ts us : List Token}

/-- The statements are the same but for the kinds of their brackets. -/
structure Alike (s s' : Statement) : Prop where
  tokens : s'.tokens.map Token.round = s.tokens.map Token.round
  fault : s'.fault.isSome = s.fault.isSome

theorem Alike.symm (h : s.Alike s') : s'.Alike s := ⟨h.tokens.symm, h.fault.symm⟩

/-- Programs in other brackets have statements that are alike, one by one. -/
theorem split_alike (h : us.map Token.round = ts.map Token.round) :
    List.Forall₂ Alike (split ts) (split us) := by
  induction ts using split_induction generalizing us with
  | nil =>
    obtain rfl := List.map_eq_nil_iff.1 h
    rw [split_nil]
    exact .nil
  | clause t ts n ho hclosing ih =>
    have hclosing' := (Clause.closing?_of_round h 0).trans hclosing
    obtain ⟨u, us, rfl, hu, hus⟩ := List.map_eq_cons_iff.1 h
    have ho' := (Token.isOpenToken_of_round hu).trans ho
    rw [split_clause ho hclosing, split_clause ho' hclosing']
    refine .cons ⟨?_, rfl⟩ (ih ?_)
    · rw [List.map_cons, List.map_cons, hu, List.map_take, List.map_take, hus]
    · rw [List.map_drop, List.map_drop, hus]
  | unclosed t ts ho hclosing =>
    have hclosing' := (Clause.closing?_of_round h 0).trans hclosing
    obtain ⟨u, us, rfl, hu, -⟩ := List.map_eq_cons_iff.1 h
    have ho' := (Token.isOpenToken_of_round hu).trans ho
    rw [split_unclosed ho hclosing, split_unclosed ho' hclosing']
    exact .cons ⟨h, rfl⟩ .nil
  | stray t ts ho hs ih =>
    obtain ⟨u, us, rfl, hu, hus⟩ := List.map_eq_cons_iff.1 h
    have ho' := (Token.isOpenToken_of_round hu).trans ho
    have hs' : (standard.isCloseToken u || standard.isDotToken u) = true := by
      rw [Token.isCloseToken_of_round hu, Token.isDotToken_of_round hu, hs]
    rw [split_stray ho hs, split_stray ho' hs']
    exact .cons ⟨congrArg ([·]) hu, rfl⟩ (ih hus)
  | token t ts ht ih =>
    obtain ⟨u, us, rfl, hu, hus⟩ := List.map_eq_cons_iff.1 h
    obtain rfl := Token.eq_of_round ht hu
    rw [split_token ht, split_token ht]
    exact .cons ⟨rfl, rfl⟩ (ih hus)

/-- A statement writes an expression if it has no fault and its dotted form is that of an
expression. -/
theorem expression_eq_ok_iff {x : SExpr} : s.expression = .ok x ↔
    s.fault = none ∧ ∃ ts, Clause.dotted s.tokens = .ok ts ∧ SExpr.ofTokens ts = .ok x := by
  unfold expression
  cases s.fault with
  | some e => simp [bind, Except.bind]
  | none =>
    show (Clause.dotted s.tokens >>= SExpr.ofTokens) = .ok x ↔ _
    rw [bind_eq_ok]
    simp

theorem Alike.expression_eq_ok (h : s.Alike s') {x : SExpr} (hx : s.expression = .ok x) :
    s'.expression = .ok x := by
  obtain ⟨hfault, ts, hts, hread⟩ := expression_eq_ok_iff.1 hx
  have hfault' : s'.fault = none := by
    rw [← Option.isNone_iff_eq_none, ← Option.not_isSome, h.fault, hfault]
    rfl
  exact expression_eq_ok_iff.2 ⟨hfault', ts, Clause.dotted_eq_ok_of_round h.tokens hts, hread⟩

end Statement

/-- What an outcome says but for the texts: the value, or the kind of the error. -/
def Outcome.verdict (o : Outcome) : Except String SExpr := o.result.mapError Error.kind

namespace Statement

variable {s s' : Statement}

/-- Statements that are alike have the same verdict and leave the same environment. -/
theorem Alike.run (h : s.Alike s') (env : Env) :
    (s.run env).1.verdict = (s'.run env).1.verdict ∧ (s.run env).2 = (s'.run env).2 := by
  cases hx : s.expression with
  | ok x =>
    rw [run_of_expression_ok env hx, run_of_expression_ok env (h.expression_eq_ok hx)]
    exact ⟨rfl, rfl⟩
  | error e =>
    cases hx' : s'.expression with
    | ok x =>
      rw [h.symm.expression_eq_ok hx'] at hx
      simp at hx
    | error e' =>
      rw [run_of_expression_error env hx, run_of_expression_error env hx']
      exact ⟨rfl, rfl⟩

end Statement

/-! ## Programs in other brackets -/

namespace Program

open Comment

theorem runStatements_alike {ss ss' : List Statement} (h : List.Forall₂ Statement.Alike ss ss')
    (env : Env) :
    (runStatements env ss).1.map Outcome.verdict =
        (runStatements env ss').1.map Outcome.verdict ∧
      (runStatements env ss).2 = (runStatements env ss').2 := by
  induction h generalizing env with
  | nil => exact ⟨rfl, rfl⟩
  | @cons s s' ss ss' hs _ ih =>
    obtain ⟨hverdict, henv⟩ := hs.run env
    obtain ⟨hrest, hend⟩ := ih (s.run env).2
    rw [runStatements_cons, runStatements_cons, ← henv]
    exact ⟨List.cons_eq_cons.2 ⟨hverdict, hrest⟩, hend⟩

/-- With other brackets outside of its strings a program has as many outcomes, each of them with the
same value or an error of the same kind, and leaves the same environment. -/
theorem run_rebracketed {text text' : String} (h : Rebracketed text.toList text'.toList)
    (env : Env) :
    (run env text).1.map Outcome.verdict = (run env text').1.map Outcome.verdict ∧
      (run env text).2 = (run env text').2 := by
  have hround : roundTokens text.toList = roundTokens text'.toList :=
    roundTokens_rebracketed [] h
  unfold roundTokens at hround
  rw [String.ofList_toList, String.ofList_toList] at hround
  cases htokens : tokens text with
  | error e =>
    cases htokens' : tokens text' with
    | error e' =>
      rw [run_of_tokens_error htokens, run_of_tokens_error htokens']
      exact ⟨rfl, rfl⟩
    | ok us =>
      rw [htokens, htokens'] at hround
      simp [Except.toOption] at hround
  | ok ts =>
    cases htokens' : tokens text' with
    | error e' =>
      rw [htokens, htokens'] at hround
      simp [Except.toOption] at hround
    | ok us =>
      rw [htokens, htokens'] at hround
      have hmap : ts.map Token.round = us.map Token.round := Option.some.inj hround
      rw [run_of_tokens htokens, run_of_tokens htokens']
      exact runStatements_alike (Statement.split_alike hmap.symm) env

/-- A definition, two calls and a clause that is never closed, with brackets in a string and in a
comment, and the same in mixed brackets. -/
theorem run_rebracketed_mixed :
    let text := "(defun f (x) x) (f \"(\") ) (f ; (\n 1) (("
    let text' := "[defun f \x7bx] x) \x7bf \"(\"] ) (f ; [\n 1\x7d [("
    Rebracketed text.toList text'.toList ∧
      (run ∅ text).1.map Outcome.verdict = (run ∅ text').1.map Outcome.verdict ∧
      (run ∅ text).2 = (run ∅ text').2 := by
  intro text text'
  have h : Rebracketed text.toList text'.toList := by decide +kernel
  exact ⟨h, run_rebracketed h ∅⟩

end Program

end PairLisp
