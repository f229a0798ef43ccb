import PairLisp.Proofs.Text.Blank
import PairLisp.Proofs.Token.Form

/-!
# Texts that are written with tokens

A text is written with a sequence of tokens if it consists of their texts, in order, with blanks
between them, where two of them may touch only if the second does not make the first one longer.
The lexer finds the tokens of a text if and only if the text is written with them
(`Token.scan_eq_ok_iff`), so all that is said of the lexer here is said of `Token.Written`.

Blanks at the two ends of a text do not matter (`Token.written_trimChars`), and two texts with a
blank between them are written with the tokens of both (`Token.Written.append`). A text of a single
character is read without being looked at, which makes a difference only for characters that no
text is written with. `Token.Reads` takes in both, so it says which tokens a text has when the
blanks at its ends are taken off (`Token.tokenize_trimChars_iff`).
-/

namespace PairLisp.Token

open Vocabulary

variable {c : Char} {cs ds a rest : List Char} {ts us : List Token}

/-! ## The ends of lexemes -/

theorem Start.ofChar?_of_isBlank (h : Text.isBlank c = true) : Start.ofChar? c = none := by
  have hplain : c ∉ punctuation := not_mem_punctuation_of_isBlank h
  have hsymbol : ¬ standard.isSymbol c = true := fun hc => hplain (isSymbol_iff.1 hc).1
  have hquote : c ≠ '"' := by
    rintro rfl
    exact hplain (by decide)
  have hsign : ¬ (c = '+' ∨ c = '-') := by
    rintro (rfl | rfl) <;> exact hplain (by decide)
  have hangle : ¬ (c = '<' ∨ c = '>') := by
    rintro (rfl | rfl) <;> exact hplain (by decide)
  unfold ofChar?
  rw [isWordChar_of_isBlank h, if_neg Bool.false_ne_true, if_neg hquote, if_neg hsign,
    if_neg hangle, if_neg hsymbol]

/-- No lexeme begins with a blank. -/
theorem isBlank_of_isLexeme (h : IsLexeme (c :: cs)) : Text.isBlank c = false := by
  refine Bool.eq_false_iff.2 fun hc => ?_
  obtain ⟨k, hk, -⟩ := Start.exists_of_isLexeme h
  rw [Start.ofChar?_of_isBlank hc] at hk
  simp at hk

/-- The characters that may stand at the end of a longer lexeme. -/
def Prolongs (c : Char) : Prop := standard.isWordChar c = true ∨ c = '"' ∨ c = '='

instance : DecidablePred Prolongs := fun _ => inferInstanceAs (Decidable (_ ∨ _ ∨ _))

theorem prolongs_of_isLexeme (ha : a ≠ []) (h : IsLexeme (a ++ [c])) : Prolongs c := by
  obtain ⟨d, ds, rfl⟩ := List.exists_cons_of_ne_nil ha
  obtain ⟨k, -, hk⟩ := Start.exists_of_isLexeme h
  have hlast : c ∈ ds ++ [c] := by simp
  cases k with
  | word => exact .inl (hk c hlast)
  | quote =>
    obtain ⟨body, heq, -⟩ := hk
    obtain ⟨-, hc⟩ := List.append_inj' heq rfl
    exact .inr (.inl (List.cons.inj hc).1)
  | sign => exact .inl (isWordChar_of_isDigit (hk c hlast))
  | angle =>
    rcases hk with hk | hk
    · simp at hk
    · obtain ⟨-, hc⟩ := List.append_inj' (hk.trans (List.nil_append ['=']).symm) rfl
      exact .inr (.inr (List.cons.inj hc).1)
  | single =>
    have hnil : ds ++ [c] = [] := hk
    simp at hnil

/-- A token that ends in front of a text ends in front of each beginning of it. -/
theorem Ends.left (h : Ends a (cs ++ ds)) : Ends a cs := by
  intro d hd
  refine h d ?_
  rw [List.head?_append, hd]
  rfl

/-- The text begins with no character that may stand at the end of a longer lexeme. -/
def Stops (rest : List Char) : Prop := ∀ c, rest.head? = some c → ¬ Prolongs c

theorem stops_nil : Stops [] := fun c hc => by simp at hc

theorem stops_cons (h : ¬ Prolongs c) : Stops (c :: cs) := by
  intro d hd
  obtain rfl : c = d := Option.some.inj hd
  exact h

/-- Every lexeme ends in front of such a text. -/
theorem Stops.ends (h : Stops rest) (ha : a ≠ []) : Ends a rest :=
  fun d hd hlexeme => h d hd (prolongs_of_isLexeme ha hlexeme)

theorem not_prolongs_of_isBlank (h : Text.isBlank c = true) : ¬ Prolongs c := by
  rintro (hc | rfl | rfl)
  · rw [isWordChar_of_isBlank h] at hc
    exact Bool.noConfusion hc
  · exact absurd h (by decide)
  · exact absurd h (by decide)

/-- No lexeme ends with a blank. -/
theorem not_isLexeme_concat_blank (hc : Text.isBlank c = true) : ¬ IsLexeme (cs ++ [c]) := by
  intro h
  cases cs with
  | nil =>
    rw [isBlank_of_isLexeme h] at hc
    exact Bool.noConfusion hc
  | cons d ds =>
    exact not_prolongs_of_isBlank hc (prolongs_of_isLexeme (List.cons_ne_nil d ds) h)

/-- A symbol that no lexeme goes on behind ends in front of everything. -/
theorem ends_single (h : Start.ofChar? c = some .single) : Ends [c] rest := by
  intro d _ hlexeme
  exact List.cons_ne_nil d [] ((Start.isLexeme_cons h).1 hlexeme)

/-! ## Written texts -/

/-- The text consists of the tokens, with blanks between them. -/
inductive Written : List Char → List Token → Prop where
  | nil : Written [] []
  | blank {c : Char} {cs : List Char} {ts : List Token} (hc : Text.isBlank c = true)
      (h : Written cs ts) : Written (c :: cs) ts
  | token {a cs : List Char} {ts : List Token} (ha : IsLexeme a) (hends : Ends a cs)
      (h : Written cs ts) : Written (a ++ cs) (String.ofList a :: ts)

/-- A symbol that no lexeme goes on behind may touch whatever follows. -/
theorem written_single (hc : Start.ofChar? c = some .single) (h : Written cs ts) :
    Written (c :: cs) (String.ofList [c] :: ts) :=
  .token (Start.isLexeme_of_continues hc rfl) (ends_single hc) h

theorem scan_blank (position : Nat) (hc : Text.isBlank c = true) :
    scan .standard position (c :: cs) = scan .standard (position + 1) cs := by
  rw [scan.eq_def]
  exact if_pos hc

/-- The lexer goes on behind the token that it has taken. -/
theorem scan_first (position : Nat) (hc : Text.isBlank c = false)
    (h : first .standard (c :: cs) = some (a, rest)) :
    scan .standard position (c :: cs) =
      (scan .standard (position + a.length) rest).map (String.ofList a :: ·) := by
  have hblank : ¬ Text.isBlank c = true := by
    rw [hc]
    exact Bool.false_ne_true
  rw [scan.eq_def]
  dsimp only
  rw [if_neg hblank]
  split
  · next hnone =>
    rw [h] at hnone
    simp at hnone
  · next token rest' heq =>
    rw [h] at heq
    obtain ⟨rfl, rfl⟩ := Prod.mk.inj (Option.some.inj heq)
    rfl

/-- The lexer finds the tokens that a text is written with. -/
theorem scan_of_written (h : Written cs ts) (position : Nat) :
    scan .standard position cs = .ok ts := by
  induction h generalizing position with
  | nil => rw [scan.eq_def]
  | blank hc _ ih => rw [scan_blank position hc, ih]
  | @token a cs ts ha hends _ ih =>
    have hfirst : first .standard (a ++ cs) = some (a, cs) := first_eq_some_iff.2 ⟨rfl, ha, hends⟩
    cases a with
    | nil => exact absurd ha not_isLexeme_nil
    | cons c a =>
      rw [List.cons_append] at hfirst ⊢
      rw [scan_first position (isBlank_of_isLexeme ha) hfirst, ih]
      rfl

/-- A text is written with the tokens that the lexer finds. If it fails, the text in front of the
place that it names is written with tokens. -/
theorem written_of_scan (position : Nat) (cs : List Char) :
    (∀ ts, scan .standard position cs = .ok ts → Written cs ts) ∧
      ∀ e, scan .standard position cs = .error e → ∃ front c rest ts, cs = front ++ c :: rest ∧
        Written front ts ∧ Text.isBlank c = false ∧ first .standard (c :: rest) = none ∧
        e = failure .standard (position + front.length) c rest := by
  refine scan_induction .nil .blank (fun hfirst hfront h => ?_) position cs
  obtain ⟨-, ha, hends⟩ := first_eq_some_iff.1 hfirst
  obtain ⟨back, rfl⟩ := hfront
  exact .token ha hends.left h

theorem scan_eq_ok_iff {position : Nat} : scan .standard position cs = .ok ts ↔ Written cs ts :=
  ⟨(written_of_scan position cs).1 ts, fun h => scan_of_written h position⟩

theorem Written.isLexeme (h : Written cs ts) : ∀ t ∈ ts, IsLexeme t.toList := by
  induction h with
  | nil => simp
  | blank _ _ ih => exact ih
  | token ha _ _ ih =>
    refine List.forall_mem_cons.2 ⟨?_, ih⟩
    rw [String.toList_ofList]
    exact ha

/-- A lexeme is a token alone, and nothing else is a token alone. -/
theorem written_alone_iff : Written cs [String.ofList cs] ↔ IsLexeme cs := by
  constructor
  · intro h
    have hlexeme := h.isLexeme _ List.mem_cons_self
    rwa [String.toList_ofList] at hlexeme
  · intro h
    have hends : Ends cs [] := fun c hc => by simp at hc
    have hwritten := Written.token h hends .nil
    rwa [List.append_nil] at hwritten

/-! ## Blanks -/

theorem written_nil_iff : Written [] ts ↔ ts = [] := by
  refine ⟨fun h => ?_, fun h => h ▸ .nil⟩
  generalize hcs : ([] : List Char) = cs at h
  cases h with
  | nil => rfl
  | blank => simp at hcs
  | token ha =>
    obtain ⟨rfl, -⟩ := List.append_eq_nil_iff.1 hcs.symm
    exact absurd ha not_isLexeme_nil

/-- A blank in front of a text does not matter. -/
theorem written_blank_iff (hc : Text.isBlank c = true) : Written (c :: cs) ts ↔ Written cs ts := by
  refine ⟨fun h => ?_, .blank hc⟩
  generalize hcs : c :: cs = ds at h
  cases h with
  | nil => simp at hcs
  | blank _ h =>
    obtain ⟨-, rfl⟩ := List.cons.inj hcs
    exact h
  | @token a _ _ ha =>
    cases a with
    | nil => exact absurd ha not_isLexeme_nil
    | cons d a =>
      obtain ⟨rfl, -⟩ := List.cons.inj hcs
      rw [isBlank_of_isLexeme ha] at hc
      exact Bool.noConfusion hc

/-- Two texts are written with the tokens of both if nothing at the beginning of the second one may
make a token longer. -/
theorem Written.append_stops (h : Written cs ts) (hds : Stops ds) (h' : Written ds us) :
    Written (cs ++ ds) (ts ++ us) := by
  induction h with
  | nil => exact h'
  | blank hd _ ih => exact .blank hd ih
  | @token a cs ts ha hends _ ih =>
    have hends' : Ends a (cs ++ ds) := by
      cases cs with
      | nil => exact hds.ends fun hnil => not_isLexeme_nil (hnil ▸ ha)
      | cons d cs => exact hends
    rw [List.append_assoc]
    exact .token ha hends' ih

/-- Two texts with a blank between them are written with the tokens of both. -/
theorem Written.append (h : Written cs ts) (hc : Text.isBlank c = true) (h' : Written ds us) :
    Written (cs ++ c :: ds) (ts ++ us) :=
  h.append_stops (stops_cons (not_prolongs_of_isBlank hc)) (.blank hc h')

/-- A blank behind a text does not matter. -/
theorem written_concat_blank_iff (hc : Text.isBlank c = true) :
    Written (cs ++ [c]) ts ↔ Written cs ts := by
  constructor
  · intro h
    generalize hds : cs ++ [c] = ds at h
    induction h generalizing cs with
    | nil => simp at hds
    | @blank d ds ts hd h ih =>
      cases cs with
      | nil =>
        obtain ⟨-, rfl⟩ := List.cons.inj hds
        exact h
      | cons e cs =>
        obtain ⟨rfl, htail⟩ := List.cons.inj hds
        exact .blank hd (ih htail)
    | @token a ds ts ha hends h ih =>
      -- the blank stands behind the token, as no lexeme ends with a blank
      rcases List.eq_nil_or_concat ds with rfl | ⟨ds, d, rfl⟩
      · rw [List.append_nil] at hds
        rw [← hds] at ha
        exact absurd ha (not_isLexeme_concat_blank hc)
      · rw [List.concat_eq_append] at hds hends ih
        rw [← List.append_assoc] at hds
        obtain ⟨rfl, heq⟩ := List.append_inj' hds rfl
        obtain rfl : c = d := (List.cons.inj heq).1
        exact .token ha hends.left (ih rfl)
  · intro h
    have happend := h.append hc .nil
    rwa [List.append_nil] at happend

theorem written_blanks_append (h : ∀ c ∈ a, Text.isBlank c = true) :
    Written (a ++ cs) ts ↔ Written cs ts := by
  induction a with
  | nil => rfl
  | cons c a ih =>
    rw [List.forall_mem_cons] at h
    rw [List.cons_append, written_blank_iff h.1, ih h.2]

/-- Blanks behind a text make no difference. -/
theorem written_append_blanks (h : ∀ c ∈ a, Text.isBlank c = true) :
    Written (cs ++ a) ts ↔ Written cs ts := by
  induction a generalizing cs with
  | nil => rw [List.append_nil]
  | cons c a ih =>
    rw [List.forall_mem_cons] at h
    rw [List.append_cons, ih h.2, written_concat_blank_iff h.1]

/-- Blanks at the ends of a text do not matter. -/
theorem written_trimChars : Written (Text.trimChars cs) ts ↔ Written cs ts := by
  obtain ⟨front, back, hcs, hfront, hback⟩ := Text.exists_append_trimChars cs
  have htext : Written cs ts ↔ Written (front ++ (Text.trimChars cs ++ back)) ts := by rw [← hcs]
  rw [htext, written_blanks_append hfront, written_append_blanks hback]

/-! ## Texts of a single character -/

theorem isLexeme_singleton :
    IsLexeme [c] ↔ standard.isWordChar c = true ∨ standard.isSymbol c = true := by
  constructor
  · intro h
    obtain ⟨k, hk, hnil⟩ := Start.exists_of_isLexeme h
    unfold Start.ofChar? at hk
    split at hk
    · next hword => exact .inl hword
    split at hk
    · -- a quote does not stand alone
      obtain rfl := Option.some.inj hk
      obtain ⟨body, heq, -⟩ := hnil
      simp at heq
    split at hk
    · next hsign => rcases hsign with rfl | rfl <;> exact .inr (by decide)
    split at hk
    · next hangle => rcases hangle with rfl | rfl <;> exact .inr (by decide)
    split at hk
    · next hsingle => exact .inr hsingle
    · simp at hk
  · rintro (h | h)
    · exact isLexeme_iff.2 (.inl ⟨List.cons_ne_nil c [], by simpa using h⟩)
    · exact isLexeme_iff.2 (.inr (.inr (.inr (.inr ⟨c, rfl, h⟩))))

/-- A single character that is no blank is written with itself alone. -/
theorem written_singleton_iff (hc : Text.isBlank c = false) :
    Written [c] ts ↔ IsLexeme [c] ∧ ts = [String.ofList [c]] := by
  constructor
  · intro h
    generalize hcs : [c] = cs at h
    cases h with
    | nil => simp at hcs
    | blank hd =>
      obtain ⟨rfl, -⟩ := List.cons.inj hcs
      rw [hc] at hd
      exact Bool.noConfusion hd
    | @token a cs ts ha hends h =>
      cases a with
      | nil => exact absurd ha not_isLexeme_nil
      | cons d a =>
        obtain ⟨rfl, hnil⟩ := List.cons.inj hcs
        obtain ⟨rfl, rfl⟩ := List.append_eq_nil_iff.1 hnil.symm
        rw [written_nil_iff.1 h]
        exact ⟨ha, rfl⟩
  · rintro ⟨hc, rfl⟩
    exact written_alone_iff.2 hc

theorem isBlank_of_trimChars (h : Text.trimChars cs = [c]) : Text.isBlank c = false := by
  have hhead : (Text.trimChars cs).head? = some c := by
    rw [h]
    rfl
  exact Text.isBlank_of_head?_trimChars hhead

/-- The tokens of a text without blanks at its ends are those that it is written with, except for a
single character that begins no token. -/
theorem tokenize_trimChars (h : ∀ c, Text.trimChars cs = [c] → IsLexeme [c]) :
    tokenize (String.ofList (Text.trimChars cs)) = .ok ts ↔ Written cs ts := by
  rw [← written_trimChars]
  unfold tokenize tokenizeIn
  rw [String.toList_ofList]
  split
  · next c heq =>
    rw [heq, written_singleton_iff (isBlank_of_trimChars heq), Except.ok.injEq]
    exact ⟨fun hts => ⟨h c heq, hts.symm⟩, fun hts => hts.2.symm⟩
  · exact scan_eq_ok_iff

/-- The tokens of a text without comments: those that it is written with, or the only character
that is no blank, if this is part of no token. -/
def Reads (cs : List Char) (ts : List Token) : Prop :=
  Written cs ts ∨
    ∃ c, cs.filter (!Text.isBlank ·) = [c] ∧ ¬ IsLexeme [c] ∧ ts = [String.ofList [c]]

theorem tokenize_singleton (c : Char) : tokenize (String.ofList [c]) = .ok [String.ofList [c]] := by
  unfold tokenize tokenizeIn
  rw [String.toList_ofList]

/-- A text has its tokens when the blanks at its ends are taken off. -/
theorem tokenize_trimChars_iff :
    tokenize (String.ofList (Text.trimChars cs)) = .ok ts ↔ Reads cs ts := by
  by_cases h : ∃ c, Text.trimChars cs = [c] ∧ ¬ IsLexeme [c]
  · obtain ⟨c, hc, hlexeme⟩ := h
    have hfilter := Text.trimChars_eq_singleton.1 hc
    rw [hc, tokenize_singleton, Except.ok.injEq]
    constructor
    · exact fun hts => .inr ⟨c, hfilter, hlexeme, hts.symm⟩
    · rintro (hwritten | ⟨d, hd, -, rfl⟩)
      · -- the character would be a token
        rw [← written_trimChars, hc, written_singleton_iff (isBlank_of_trimChars hc)] at hwritten
        exact absurd hwritten.1 hlexeme
      · rw [hfilter] at hd
        rw [(List.cons.inj hd).1]
  · have hsingle : ∀ c, Text.trimChars cs = [c] → IsLexeme [c] :=
      fun c hc => Classical.not_not.1 fun hlexeme => h ⟨c, hc, hlexeme⟩
    rw [tokenize_trimChars hsingle]
    refine ⟨.inl, ?_⟩
    rintro (hwritten | ⟨c, hc, hlexeme, -⟩)
    · exact hwritten
    · exact absurd (hsingle c (Text.trimChars_eq_singleton.2 hc)) hlexeme

/-- A text that is written with tokens has these tokens, even if it is a single character. -/
theorem tokenize_of_written (h : Written cs ts) :
    tokenize (String.ofList (Text.trimChars cs)) = .ok ts :=
  tokenize_trimChars_iff.2 (.inl h)

/-! ## Quotes come in pairs -/

/-- A lexeme is a string, or all of its characters are letters, digits and symbols. -/
theorem string_or_visible_of_isLexeme (h : IsLexeme a) :
    (∃ body, a = '"' :: (body ++ ['"']) ∧ '"' ∉ body) ∨
      ∀ c ∈ a, standard.isWordChar c = true ∨ standard.isSymbol c = true := by
  rcases isLexeme_iff.1 h with ⟨-, hall⟩ | ⟨-, hall⟩ | hstring | (rfl | rfl) | ⟨c, rfl, hc⟩
  · exact .inr fun c hc => .inl (hall c hc)
  · have hdigits : ∀ c ∈ unsigned a, standard.isWordChar c = true ∨ standard.isSymbol c = true :=
      fun c hc => .inl (isWordChar_of_isDigit (hall c hc))
    exact .inr (forall_mem_of_unsigned (by decide) (by decide) hdigits)
  · exact .inl hstring
  · exact .inr (forall_mem_of_all (by decide))
  · exact .inr (forall_mem_of_all (by decide))
  · exact .inr (List.forall_mem_singleton.2 (.inr hc))

/-- A lexeme is a string, or all of its characters are plain. -/
theorem string_or_plain_of_isLexeme (h : IsLexeme a) :
    (∃ body, a = '"' :: (body ++ ['"']) ∧ '"' ∉ body) ∨ ∀ c ∈ a, Plain c := by
  refine (string_or_visible_of_isLexeme h).imp id fun hvisible c hc => ?_
  rcases hvisible c hc with hword | hsymbol
  · exact plain_of_isWordChar hword
  · exact (isSymbol_iff.1 hsymbol).2

theorem count_quote_of_isLexeme (h : IsLexeme a) : a.count '"' % 2 = 0 := by
  rcases string_or_plain_of_isLexeme h with ⟨body, rfl, hbody⟩ | hplain
  · rw [List.count_cons_self, List.count_append, List.count_eq_zero.2 hbody]
    rfl
  · rw [List.count_eq_zero.2 fun hmem => (hplain _ hmem).1 rfl]

/-- The number of quotes in a text that is written with tokens is even. -/
theorem Written.count_quote (h : Written cs ts) : cs.count '"' % 2 = 0 := by
  induction h with
  | nil => rfl
  | @blank c cs ts hc _ ih =>
    rw [List.count_cons_of_ne (plain_of_isBlank hc).1, ih]
  | token ha _ _ ih =>
    have hcount := count_quote_of_isLexeme ha
    rw [List.count_append]
    omega

end PairLisp.Token
