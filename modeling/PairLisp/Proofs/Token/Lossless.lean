import PairLisp.Proofs.Token.Spacing

/-!
# No character is lost

In every vocabulary, a text is its tokens with blanks alone between them and at its two ends
(`Token.tokenizeIn_lossless`). A text that has no tokens is so up to the place that the error names,
where there is no blank and no token of any shape. The classes of a vocabulary may have characters
in common with each other and with the blanks: the blanks in front of a token are taken off before
its shape is looked for, and each shape takes at least one character.
-/

namespace PairLisp.Token

variable {v : Vocabulary} {c : Char} {cs a : List Char} {ts : List Token}

/-! ## Tokens between blanks -/

/-- The text is made of the tokens, in this order, with blanks alone in front of each of them and
behind the last one. No token is empty, and each is of one of the forms. -/
def Interspersed (v : Vocabulary) (cs : List Char) (ts : List Token) : Prop :=
  (∀ t ∈ ts, t ≠ "" ∧ Form v t.toList) ∧
    ∃ gaps back, gaps.length = ts.length ∧
      (∀ gap ∈ back :: gaps, ∀ c ∈ gap.toList, Text.isBlank c = true) ∧
      cs = (spaced gaps ts ++ back).toList

theorem interspersed_nil : Interspersed v [] [] := by
  refine ⟨by simp, [], "", rfl, ?_, rfl⟩
  simp

/-- A blank in front makes no other tokens. -/
theorem Interspersed.blank (hc : Text.isBlank c = true) (h : Interspersed v cs ts) :
    Interspersed v (c :: cs) ts := by
  have hcons : ∀ {gap : String}, (∀ d ∈ gap.toList, Text.isBlank d = true) →
      ∀ d ∈ (String.ofList (c :: gap.toList)).toList, Text.isBlank d = true := by
    intro gap hgap
    rw [String.toList_ofList]
    exact List.forall_mem_cons.2 ⟨hc, hgap⟩
  obtain ⟨hts, gaps, back, hlength, hblank, rfl⟩ := h
  rw [List.forall_mem_cons] at hblank
  refine ⟨hts, ?_⟩
  cases ts with
  | nil =>
    obtain rfl : gaps = [] := List.length_eq_zero_iff.1 hlength
    refine ⟨[], String.ofList (c :: back.toList), rfl, ?_, ?_⟩
    · exact List.forall_mem_cons.2 ⟨hcons hblank.1, hblank.2⟩
    · rw [String.toList_append, String.toList_append, String.toList_ofList]
      rfl
  | cons t ts =>
    obtain ⟨gap, gaps, rfl⟩ := List.exists_cons_of_length_eq_add_one hlength
    obtain ⟨hback, hgaps⟩ := hblank
    rw [List.forall_mem_cons] at hgaps
    refine ⟨String.ofList (c :: gap.toList) :: gaps, back, hlength, ?_, ?_⟩
    · exact List.forall_mem_cons.2 ⟨hback, List.forall_mem_cons.2 ⟨hcons hgaps.1, hgaps.2⟩⟩
    · rw [String.toList_append, String.toList_append, toList_spaced_cons, toList_spaced_cons,
        String.toList_ofList]
      rfl

/-- A token in front is the first one. -/
theorem Interspersed.token (ha : Form v a) (h : Interspersed v cs ts) :
    Interspersed v (a ++ cs) (String.ofList a :: ts) := by
  obtain ⟨hts, gaps, back, hlength, hblank, rfl⟩ := h
  rw [List.forall_mem_cons] at hblank
  have hne : String.ofList a ≠ "" := by
    intro hempty
    refine ha.ne_nil ?_
    rw [← String.toList_ofList (l := a), hempty]
    rfl
  have hform : Form v (String.ofList a).toList := by rwa [String.toList_ofList]
  refine ⟨List.forall_mem_cons.2 ⟨⟨hne, hform⟩, hts⟩, "" :: gaps, back, ?_, ?_, ?_⟩
  · exact congrArg Nat.succ hlength
  · exact List.forall_mem_cons.2 ⟨hblank.1, List.forall_mem_cons.2 ⟨by simp, hblank.2⟩⟩
  · rw [String.toList_append, String.toList_append, toList_spaced_cons,
      String.toList_ofList (l := a), List.append_assoc, List.append_assoc]
    rfl

/-- The lexer takes blanks and tokens off the text, until nothing is left or where it fails. -/
theorem interspersed_of_scan (v : Vocabulary) (position : Nat) (cs : List Char) :
    (∀ ts, scan v position cs = .ok ts → Interspersed v cs ts) ∧
      ∀ e, scan v position cs = .error e → ∃ front c rest ts, cs = front ++ c :: rest ∧
        Interspersed v front ts ∧ Text.isBlank c = false ∧ first v (c :: rest) = none ∧
        e = failure v (position + front.length) c rest :=
  scan_induction interspersed_nil .blank (fun hfirst _ h => h.token (form_of_first hfirst).2)
    position cs

/-! ## Bytes and characters -/

/-- How many characters of the text begin in front of the given byte. -/
def charactersBefore (offset : Nat) : List Char → Nat
  | [] => 0
  | c :: cs => if offset = 0 then 0 else charactersBefore (offset - c.utf8Size) cs + 1

/-- As many bytes as the front has are as many characters as it has. -/
theorem charactersBefore_append (front rest : List Char) :
    charactersBefore (String.ofList front).utf8ByteSize (front ++ rest) = front.length := by
  induction front with
  | nil => cases rest <;> rfl
  | cons c front ih =>
    have hpos : c.utf8Size + (String.ofList front).utf8ByteSize ≠ 0 := by
      have := c.utf8Size_pos
      omega
    rw [String.ofList_cons, String.utf8ByteSize_append, String.utf8ByteSize_singleton,
      List.cons_append, charactersBefore, if_neg hpos, Nat.add_sub_cancel_left, ih,
      List.length_cons]

/-! ## All characters of a text -/

/-- What the lexer makes of a text that is not a single character, in any vocabulary. If the text
has tokens, it is made of these and of blanks. If it has none, then it is made of tokens and of
blanks up to the place of the error, where there is no blank, none of the five shapes takes anything
off, and no token of any form stands. The position is the number of characters in front of the byte
at which what is left of the text begins. -/
theorem tokenizeIn_lossless (v : Vocabulary) {text : String} (h : text.length ≠ 1) :
    (∀ ts, tokenizeIn v text = .ok ts → Interspersed v text.toList ts) ∧
      ∀ e, tokenizeIn v text = .error e → ∃ front c rest ts,
        text.toList = front ++ c :: rest ∧ Interspersed v front ts ∧ Text.isBlank c = false ∧
          (∀ shape ∈ shapes v, shape (c :: rest) = none) ∧
          (∀ a back, c :: rest = a ++ back → ¬ Form v a) ∧ e = failure v front.length c rest ∧
          charactersBefore (text.utf8ByteSize - (String.ofList (c :: rest)).utf8ByteSize)
            text.toList = front.length := by
  obtain ⟨hok, hfails⟩ := interspersed_of_scan v 0 text.toList
  rw [tokenizeIn_of_length h]
  refine ⟨hok, fun e he => ?_⟩
  obtain ⟨front, c, rest, ts, heq, hfront, hc, hnone, rfl⟩ := hfails e he
  have hshapes : ∀ shape ∈ shapes v, shape (c :: rest) = none :=
    List.findSome?_eq_none_iff.1 hnone
  refine ⟨front, c, rest, ts, heq, hfront, hc, hshapes, ?_, by rw [Nat.zero_add], ?_⟩
  · intro a back hback ha
    obtain ⟨shape, hmem, taken, htaken⟩ := exists_shape ha back
    rw [← hback, hshapes shape hmem] at htaken
    simp at htaken
  · have hsize : text.utf8ByteSize =
        (String.ofList front).utf8ByteSize + (String.ofList (c :: rest)).utf8ByteSize := by
      rw [← String.utf8ByteSize_append, ← String.ofList_append, ← heq, String.ofList_toList]
    rw [hsize, Nat.add_sub_cancel, heq, charactersBefore_append]

/-- A vocabulary with blanks that are letters, signs and symbols, and with characters of three other
classes. The second text has two characters of two bytes in front of the string without an end. -/
theorem tokenizeIn_lossless_overlapping :
    let v := { Vocabulary.standard with
      isLetter := ([' ', 'a', 'λ'].contains ·)
      isDigit := (['1', 'a', '<'].contains ·)
      isSign := (['λ', '-', ' '].contains ·)
      isQuote := (['"', '1'].contains ·)
      isSymbol := (['(', 'a', '-', '\u00a0'].contains ·) }
    let good := "λa <=\u00a01x1-a<("
    let ts : List Token := ["λa", "<=", "1x1", "-a<", "("]
    let bad := "λ \u00a0-a\"b"
    good.length ≠ 1 ∧ tokenizeIn v good = .ok ts ∧ Interspersed v good.toList ts ∧
      bad.length ≠ 1 ∧ tokenizeIn v bad = .error (.openString 5 "\"b") ∧
      ∃ front c rest us, bad.toList = front ++ c :: rest ∧ Interspersed v front us ∧
        failure v front.length c rest = .openString 5 "\"b" := by
  intro v good ts bad
  have hgood : good.length ≠ 1 := by decide +kernel
  have htokens : tokenizeIn v good = .ok ts := by decide +kernel
  have hbad : bad.length ≠ 1 := by decide +kernel
  have herror : tokenizeIn v bad = .error (.openString 5 "\"b") := by decide +kernel
  obtain ⟨front, c, rest, us, heq, hfront, -, -, -, he, -⟩ :=
    (tokenizeIn_lossless v hbad).2 _ herror
  exact ⟨hgood, htokens, (tokenizeIn_lossless v hgood).1 ts htokens, hbad, herror, front, c, rest,
    us, heq, hfront, he.symm⟩

end PairLisp.Token
