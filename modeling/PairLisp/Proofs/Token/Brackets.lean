import PairLisp.Proofs.SExpr.Dotted
import PairLisp.Proofs.Token.Border

/-!
# Other brackets in a text

A bracket that stands in no string is a token, so with another bracket of the same kind in its place
a text has the same tokens but for this one (`Token.Reads.exchange`).
-/

namespace PairLisp

open Vocabulary

variable {c d : Char} {cs ds : List Char} {ts : List Token}

/-! ## Brackets -/

namespace Vocabulary

/-- The characters are two brackets that open a clause, or two that close one. -/
def SameBracket (c d : Char) : Prop :=
  (standard.isOpen c = true ∧ standard.isOpen d = true) ∨
    (standard.isClose c = true ∧ standard.isClose d = true)

instance (c d : Char) : Decidable (SameBracket c d) := inferInstanceAs (Decidable (_ ∨ _))

theorem SameBracket.symm (h : SameBracket c d) : SameBracket d c :=
  h.imp And.symm And.symm

/-- The brackets of the language. -/
def brackets : List Char := ['(', '[', '\x7b', ')', ']', '\x7d']

/-- Such a character is one of the brackets of the language. -/
theorem SameBracket.mem_brackets (h : SameBracket c d) : c ∈ brackets := by
  simp only [SameBracket, standard, Bool.or_eq_true, beq_iff_eq] at h
  rcases h with ⟨(rfl | rfl) | rfl, -⟩ | ⟨(rfl | rfl) | rfl, -⟩ <;> decide

/-- A bracket begins neither a comment nor a string. -/
theorem plain_of_mem_brackets (h : c ∈ brackets) : Plain c := by
  have hall : ∀ c ∈ brackets, Plain c := forall_mem_of_all (by decide)
  exact hall c h

theorem isBlank_of_mem_brackets (h : c ∈ brackets) : Text.isBlank c = false := by
  have hall : ∀ c ∈ brackets, Text.isBlank c = false := forall_mem_of_all (by decide)
  exact hall c h

end Vocabulary

namespace Token

theorem ofChar?_of_mem_brackets (h : c ∈ brackets) : Start.ofChar? c = some .single := by
  have hall : ∀ c ∈ brackets, Start.ofChar? c = some .single := forall_mem_of_all (by decide)
  exact hall c h

/-- A bracket is a token wherever it stands outside a string. -/
theorem solitary_of_mem_brackets (h : c ∈ brackets) : Solitary c := by
  have hall : ∀ c ∈ brackets,
      standard.isWordChar c = false ∧ c ∉ ['+', '-', '<', '>', '='] :=
    forall_mem_of_all (by decide)
  exact solitary_of_not_mem (hall c h).1 (hall c h).2

/-- A bracket makes no token longer. -/
theorem not_prolongs_of_mem_brackets (h : c ∈ brackets) : ¬ Prolongs c := by
  have hall : ∀ c ∈ brackets, ¬ Prolongs c := forall_mem_of_all (by decide)
  exact hall c h

/-- Two brackets of one kind are the same round bracket. -/
theorem round_sameBracket (h : SameBracket c d) :
    round (String.ofList [c]) = round (String.ofList [d]) := by
  have hsingle : ∀ {p : Char → Bool} {c : Char}, p c = true →
      isSingle p (String.ofList [c]) = true := by
    intro p c hc
    unfold isSingle
    rwa [String.toList_ofList]
  rcases h with ⟨hc, hd⟩ | ⟨hc, hd⟩
  · rw [round_open (hsingle hc), round_open (hsingle hd)]
  · rw [round_close (hsingle hc), round_close (hsingle hd)]

/-! ## Brackets in a text -/

/-- A bracket at the beginning of a text is the first token. -/
theorem written_bracket_iff (hc : c ∈ brackets) :
    Written (c :: cs) ts ↔ ∃ us, ts = String.ofList [c] :: us ∧ Written cs us := by
  constructor
  · intro h
    generalize htext : c :: cs = text at h
    cases h with
    | nil => simp at htext
    | blank hd =>
      obtain ⟨rfl, -⟩ := List.cons.inj htext
      rw [isBlank_of_mem_brackets hc] at hd
      exact Bool.noConfusion hd
    | @token a cs' us ha hends h =>
      cases a with
      | nil => exact absurd ha not_isLexeme_nil
      | cons d a =>
        obtain ⟨rfl, rfl⟩ := List.cons.inj htext
        obtain rfl : a = [] := (Start.isLexeme_cons (ofChar?_of_mem_brackets hc)).1 ha
        exact ⟨us, rfl, h⟩
  · rintro ⟨us, rfl, h⟩
    exact written_single (ofChar?_of_mem_brackets hc) h

/-- With another bracket of the same kind a text has the same tokens but for the bracket. -/
theorem Reads.exchange (h : SameBracket c d) (hquotes : cs.count '"' % 2 = 0)
    (hreads : Reads (cs ++ c :: ds) ts) :
    ∃ us, Reads (cs ++ d :: ds) us ∧ us.map round = ts.map round := by
  have hc := h.mem_brackets
  have hd := h.symm.mem_brackets
  rcases hreads with hwritten | ⟨x, honly, hlexeme, -⟩
  · obtain ⟨us, bs, rfl, hus, hbs⟩ := hwritten.cut (solitary_of_mem_brackets hc) hquotes
    obtain ⟨ws, rfl, hws⟩ := (written_bracket_iff hc).1 hbs
    have hwritten' : Written (cs ++ d :: ds) (us ++ String.ofList [d] :: ws) :=
      hus.append_stops (stops_cons (not_prolongs_of_mem_brackets hd))
        ((written_bracket_iff hd).2 ⟨ws, rfl, hws⟩)
    refine ⟨_, .inl hwritten', ?_⟩
    rw [List.map_append, List.map_append, List.map_cons, List.map_cons, round_sameBracket h]
  · -- the bracket would be the only character, but it is a lexeme
    obtain rfl : c = x :=
      Text.eq_of_filter_not_isBlank honly (by simp) (isBlank_of_mem_brackets hc)
    exact absurd (Start.isLexeme_of_continues (ofChar?_of_mem_brackets hc) rfl) hlexeme

/-- A text with a bracket in it has its quotes in pairs if it has tokens. -/
theorem Reads.count_quote (hc : c ∈ brackets) (hmem : c ∈ cs) (h : Reads cs ts) :
    cs.count '"' % 2 = 0 := by
  rcases h with hwritten | ⟨x, honly, -, -⟩
  · exact hwritten.count_quote
  · -- the bracket is the only character
    have hcx : c = x := Text.eq_of_filter_not_isBlank honly hmem (isBlank_of_mem_brackets hc)
    have hquote : '"' ∉ cs := by
      intro hquote
      have hqx : '"' = x := Text.eq_of_filter_not_isBlank honly hquote (by decide)
      exact (plain_of_mem_brackets hc).1 (hcx.trans hqx.symm)
    rw [List.count_eq_zero.2 hquote]

end Token

end PairLisp
