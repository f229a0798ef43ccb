import PairLisp.Proofs.Token.Language

/-!
# Other blanks between tokens

How many blanks stand between two tokens, and which ones, does not matter, nor do the blanks at the
ends of a text (`Token.tokenize_spaced`). Tokens that touch in a text may be taken apart as well: a
token is a token whatever stands behind it, as long as this begins with a blank.

`Token.spaced` puts tokens together with given texts in front of them. A single character is the one
text that the lexer does not look at. If it is written with a token at all, it is this token, so
that it is no exception (`Token.tokenize_of_written_cons`).
-/

namespace PairLisp.Token

open Vocabulary

variable {c : Char} {cs : List Char} {t : Token} {ts : List Token} {text front back : String}
  {gaps : List String}

/-- The tokens, each behind one of the given texts. -/
def spaced (gaps : List String) (ts : List Token) : String :=
  String.join (List.zipWith (· ++ ·) gaps ts)

theorem toList_spaced_cons (gap : String) :
    (spaced (gap :: gaps) (t :: ts)).toList =
      gap.toList ++ (t.toList ++ (spaced gaps ts).toList) := by
  unfold spaced
  rw [List.zipWith_cons_cons, String.toList_join, String.toList_join, List.flatMap_cons,
    String.toList_append, List.append_assoc]

/-- The first token in front of the others, which have blanks in front of them. -/
theorem written_spaced (hts : ∀ u ∈ t :: ts, IsLexeme u.toList) (hlength : gaps.length = ts.length)
    (hgaps : ∀ gap ∈ gaps, gap ≠ "" ∧ ∀ c ∈ gap.toList, Text.isBlank c = true) :
    Written (t.toList ++ (spaced gaps ts).toList) (t :: ts) := by
  induction ts generalizing t gaps with
  | nil =>
    obtain rfl : gaps = [] := List.length_eq_zero_iff.1 hlength
    have hone : Written t.toList [String.ofList t.toList] :=
      written_alone_iff.2 (hts t List.mem_cons_self)
    rw [String.ofList_toList] at hone
    show Written (t.toList ++ []) [t]
    rwa [List.append_nil]
  | cons u ts ih =>
    obtain ⟨gap, gaps, rfl⟩ := List.exists_cons_of_length_eq_add_one hlength
    obtain ⟨⟨hne, hblank⟩, hgaps⟩ := List.forall_mem_cons.1 hgaps
    obtain ⟨ht, hts⟩ := List.forall_mem_cons.1 hts
    have hrest : Written (u.toList ++ (spaced gaps ts).toList) (u :: ts) :=
      ih hts (Nat.succ.inj hlength) hgaps
    obtain ⟨c, cs, hgap⟩ := List.exists_cons_of_ne_nil (mt String.toList_eq_nil_iff.1 hne)
    have hc : Text.isBlank c = true := hblank c (by rw [hgap]; exact List.mem_cons_self)
    have hstops : Stops (spaced (gap :: gaps) (u :: ts)).toList := by
      rw [toList_spaced_cons, hgap]
      exact stops_cons (not_prolongs_of_isBlank hc)
    have hends : Ends t.toList (spaced (gap :: gaps) (u :: ts)).toList :=
      hstops.ends fun hnil => not_isLexeme_nil (hnil ▸ ht)
    have hmore : Written (spaced (gap :: gaps) (u :: ts)).toList (u :: ts) := by
      rw [toList_spaced_cons]
      exact (written_blanks_append hblank).2 hrest
    have hwritten := Written.token ht hends hmore
    rwa [String.ofList_toList] at hwritten

/-- A text that is written with at least one token has these tokens, even if it is a single
character. -/
theorem tokenize_of_written_cons (h : Written text.toList (t :: ts)) :
    tokenize text = .ok (t :: ts) := by
  by_cases hlength : text.length = 1
  · obtain ⟨c, hc⟩ := List.length_eq_one_iff.1 (String.length_toList.trans hlength)
    rw [hc] at h
    have hblank : Text.isBlank c = false := by
      -- a blank is written with no token
      refine Bool.eq_false_iff.2 fun hblank => ?_
      rw [written_blank_iff hblank, written_nil_iff] at h
      exact List.cons_ne_nil t ts h
    obtain ⟨-, heq⟩ := (written_singleton_iff hblank).1 h
    rw [heq, ← String.ofList_toList (s := text), hc]
    exact tokenize_singleton c
  · exact (tokenize_eq_ok_iff hlength).2 h

/-- The tokens of a text, with any blanks between them and at the ends, are a text with the same
tokens. -/
theorem tokenize_spaced (hlength : text.length ≠ 1) (htokens : tokenize text = .ok ts)
    (hgaps : ∀ gap ∈ gaps, gap ≠ "" ∧ ∀ c ∈ gap.toList, Text.isBlank c = true)
    (hcount : gaps.length + 1 = ts.length) (hfront : ∀ c ∈ front.toList, Text.isBlank c = true)
    (hback : ∀ c ∈ back.toList, Text.isBlank c = true) :
    tokenize (spaced (front :: gaps) ts ++ back) = .ok ts := by
  obtain ⟨t, ts, rfl⟩ := List.exists_cons_of_length_eq_add_one hcount.symm
  have hlexemes := ((tokenize_eq_ok_iff hlength).1 htokens).isLexeme
  apply tokenize_of_written_cons
  rw [String.toList_append, written_append_blanks hback, toList_spaced_cons,
    written_blanks_append hfront]
  exact written_spaced hlexemes (Nat.succ.inj hcount) hgaps

/-- Tokens that touch each other, taken apart by blanks of several kinds. -/
theorem tokenize_spaced_touching :
    let text := "(<=x-1\"a )\")"
    let ts : List Token := ["(", "<=", "x", "-1", "\"a )\"", ")"]
    let gaps := ["\n", " ", "\t\r\n", "\u00a0", "\u2003 "]
    text.length ≠ 1 ∧ tokenize text = .ok ts ∧ gaps.length + 1 = ts.length ∧
      (∀ gap ∈ gaps, gap ≠ "" ∧ ∀ c ∈ gap.toList, Text.isBlank c = true) ∧
      tokenize (spaced ("" :: gaps) ts ++ "\n") = .ok ts := by
  intro text ts gaps
  have hlength : text.length ≠ 1 := by decide +kernel
  have htokens : tokenize text = .ok ts := by decide +kernel
  have hall : ∀ gap ∈ gaps, gap ≠ "" ∧ gap.toList.all Text.isBlank = true := by decide +kernel
  have hgaps : ∀ gap ∈ gaps, gap ≠ "" ∧ ∀ c ∈ gap.toList, Text.isBlank c = true :=
    fun gap hgap => ⟨(hall gap hgap).1, List.all_eq_true.1 (hall gap hgap).2⟩
  have hback : ∀ c ∈ "\n".toList, Text.isBlank c = true := List.all_eq_true.1 (by decide +kernel)
  exact ⟨hlength, htokens, rfl, hgaps,
    tokenize_spaced hlength htokens hgaps rfl (by simp) hback⟩

end PairLisp.Token
