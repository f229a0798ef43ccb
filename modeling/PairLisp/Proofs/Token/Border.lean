import PairLisp.Proofs.Token.Written

/-!
# Between tokens

The tokens of a text can be found in one piece of it after the other, as long as no token goes over
the border between two pieces. A bracket, a dot or a blank is in no token of several characters but
strings, so a text may be cut in front of each of them that stands outside strings
(`Token.Written.cut`); `Token.Written.append_stops` puts the pieces together again.

With a space between any two of them, tokens are a text that is written with these tokens
(`Token.written_intercalate`).
-/

namespace PairLisp.Token

open Vocabulary

variable {c : Char} {cs ds : List Char} {ts : List Token}

/-! ## Cutting a text -/

/-- No lexeme but strings has the character next to another one. -/
def Solitary (c : Char) : Prop := ∀ a, IsLexeme a → '"' ∉ a → c ∈ a → a = [c]

theorem solitary_of_not_mem (hword : standard.isWordChar c = false)
    (hc : c ∉ ['+', '-', '<', '>', '=']) : Solitary c := by
  simp only [List.mem_cons, List.not_mem_nil, or_false, not_or] at hc
  obtain ⟨hplus, hminus, hless, hgreater, hequal⟩ := hc
  have hnot : ∀ {d}, standard.isWordChar d = true → c ≠ d := by
    rintro d hd rfl
    rw [hword] at hd
    exact Bool.noConfusion hd
  intro a ha hquote hmem
  rcases isLexeme_iff.1 ha with ⟨-, hall⟩ | ⟨-, hall⟩ | ⟨body, rfl, -⟩ | (rfl | rfl) | ⟨d, rfl, -⟩
  · exact absurd rfl (hnot (hall c hmem))
  · have hdigits : ∀ d ∈ unsigned a, c ≠ d := fun d hd => hnot (isWordChar_of_isDigit (hall d hd))
    exact absurd rfl (forall_mem_of_unsigned hplus hminus hdigits c hmem)
  · exact absurd List.mem_cons_self hquote
  · simp [hless, hequal] at hmem
  · simp [hgreater, hequal] at hmem
  · rw [List.mem_singleton.1 hmem]

theorem solitary_of_isBlank (hc : Text.isBlank c = true) : Solitary c := by
  refine solitary_of_not_mem (isWordChar_of_isBlank hc) fun hmem => ?_
  have hall : ∀ c ∈ ['+', '-', '<', '>', '='], c ∈ punctuation := forall_mem_of_all (by decide)
  exact not_mem_punctuation_of_isBlank hc (hall c hmem)

/-- A proper part of a string at its beginning has one quote. -/
theorem count_quote_of_string {body : List Char} (hbody : '"' ∉ body) (hcs : cs ≠ [])
    (h : cs ++ c :: ds = '"' :: (body ++ ['"'])) : cs.count '"' = 1 := by
  obtain ⟨d, cs, rfl⟩ := List.exists_cons_of_ne_nil hcs
  obtain ⟨rfl, htail⟩ := List.cons.inj h
  have htail : cs ++ c :: ds = body ++ ['"'] := htail
  have hinit : cs ++ (c :: ds).dropLast = body := by
    rw [← List.dropLast_append_of_ne_nil (List.cons_ne_nil c ds), htail, List.dropLast_concat]
  have hcount : cs.count '"' = 0 := by
    rw [List.count_eq_zero]
    exact fun hmem => hbody (hinit ▸ List.mem_append_left _ hmem)
  rw [List.count_cons_self, hcount]

/-- A text may be cut in front of such a character, if the character stands in no string. -/
theorem Written.cut (hc : Solitary c) (hquotes : cs.count '"' % 2 = 0)
    (h : Written (cs ++ c :: ds) ts) :
    ∃ us ws, ts = us ++ ws ∧ Written cs us ∧ Written (c :: ds) ws := by
  generalize htext : cs ++ c :: ds = text at h
  induction h generalizing cs with
  | nil => simp at htext
  | @blank d text ts hd h ih =>
    cases cs with
    | nil =>
      refine ⟨[], ts, rfl, .nil, ?_⟩
      rw [List.nil_append] at htext
      exact htext ▸ .blank hd h
    | cons e cs =>
      obtain ⟨rfl, htail⟩ := List.cons.inj htext
      rw [List.count_cons_of_ne (plain_of_isBlank hd).1] at hquotes
      obtain ⟨us, ws, rfl, hus, hws⟩ := ih hquotes htail
      exact ⟨us, ws, rfl, .blank hd hus, hws⟩
  | @token a text ts ha hends h ih =>
    by_cases hcs : cs = []
    · subst hcs
      refine ⟨[], _, rfl, .nil, ?_⟩
      rw [List.nil_append] at htext
      exact htext ▸ .token ha hends h
    · rcases List.append_eq_append_iff.1 htext with ⟨a', rfl, hrest⟩ | ⟨cs', rfl, hrest⟩
      · cases a' with
        | nil =>
          -- the cut is right behind the token
          obtain rfl : c :: ds = text := hrest
          rw [List.append_nil] at ha ⊢
          exact ⟨[String.ofList cs], ts, rfl, written_alone_iff.2 ha, h⟩
        | cons d a' =>
          -- no token goes over the cut
          exfalso
          obtain ⟨rfl, -⟩ := List.cons.inj hrest
          by_cases hquote : '"' ∈ cs ++ c :: a'
          · rcases string_or_plain_of_isLexeme ha with ⟨body, hstring, hbody⟩ | hplain
            · rw [count_quote_of_string hbody hcs hstring] at hquotes
              exact absurd hquotes (by decide)
            · exact (hplain _ hquote).1 rfl
          · have hsingle : cs ++ c :: a' = [c] := hc _ ha hquote (by simp)
            obtain ⟨e, es, rfl⟩ := List.exists_cons_of_ne_nil hcs
            simp at hsingle
      · have hquotes' : cs'.count '"' % 2 = 0 := by
          have hcount := count_quote_of_isLexeme ha
          rw [List.count_append] at hquotes
          omega
        obtain ⟨us, ws, rfl, hus, hws⟩ := ih hquotes' hrest.symm
        rw [hrest] at hends
        exact ⟨String.ofList a :: us, ws, rfl, .token ha hends.left hus, hws⟩

/-- A text may be cut at the two ends of each of its tokens. -/
theorem Written.cut_token {us vs : List Token} {t : Token} (h : Written cs (us ++ t :: vs)) :
    ∃ front back, cs = front ++ (t.toList ++ back) ∧ Written front us ∧ Written back vs ∧
      Ends t.toList back := by
  generalize htokens : us ++ t :: vs = ts at h
  induction h generalizing us with
  | nil => simp at htokens
  | @blank d cs ts hd _ ih =>
    obtain ⟨front, back, rfl, hfront, hback, hends⟩ := ih htokens
    exact ⟨d :: front, back, rfl, .blank hd hfront, hback, hends⟩
  | @token a cs ts ha hends hcs ih =>
    cases us with
    | nil =>
      obtain ⟨rfl, rfl⟩ := List.cons.inj htokens
      rw [String.toList_ofList]
      exact ⟨[], cs, rfl, .nil, hcs, hends⟩
    | cons u us =>
      obtain ⟨rfl, htail⟩ := List.cons.inj htokens
      obtain ⟨front, back, rfl, hfront, hback, hends'⟩ := ih htail
      refine ⟨a ++ front, back, ?_, .token ha hends.left hfront, hback, hends'⟩
      rw [List.append_assoc]

/-! ## Joining tokens -/

/-- Tokens with a space between any two of them are a text that is written with them. -/
theorem written_intercalate (h : ∀ t ∈ ts, IsLexeme t.toList) :
    Written (" ".intercalate ts).toList ts := by
  induction ts with
  | nil => exact .nil
  | cons t ts ih =>
    rw [List.forall_mem_cons] at h
    cases ts with
    | nil =>
      have hone : Written t.toList [String.ofList t.toList] := written_alone_iff.2 h.1
      rw [String.ofList_toList] at hone
      rw [String.intercalate_singleton]
      exact hone
    | cons u ts =>
      have hne : t.toList ≠ [] := fun hnil => not_isLexeme_nil (hnil ▸ h.1)
      have hmore : Written (t.toList ++ ' ' :: (" ".intercalate (u :: ts)).toList)
          (String.ofList t.toList :: u :: ts) :=
        .token h.1 ((stops_cons (by decide)).ends hne) (.blank (by decide) (ih h.2))
      rw [String.ofList_toList] at hmore
      rw [String.intercalate_cons_cons, String.toList_append, String.toList_append,
        List.append_assoc]
      exact hmore

end PairLisp.Token
