import Mathlib.Control.Monad.Basic
import PairLisp.Proofs.Token.Border

/-!
# Which texts have tokens

The lexer and the atoms agree on what a token is (`Token.atom_iff_token`): the texts that an atom
may have are those that the lexer takes for one token.

Which texts the lexer accepts can be said without tokens. Each quote begins a string or ends one, so
a character stands in no string if an even number of quotes is in front of it and it is no quote
itself (`Token.Paired`). A text has tokens if and only if its quotes are in pairs and each character
outside strings is of some class (`Token.Sound`), and the tokens have all of its characters but the
blanks outside strings (`Token.squeeze`). If a text has no tokens, it is written with tokens up to
the place that the error names (`Token.written_of_scan`), so no place in front of it offends.
-/

namespace PairLisp.Token

open Vocabulary

variable {c : Char} {cs ds a rest : List Char} {ts : List Token} {text : String} {inside : Bool}

/-! ## Atoms and tokens -/

/-- A text of any length but one is scanned from its beginning. -/
theorem tokenizeIn_of_length {v : Vocabulary} (h : text.length ≠ 1) :
    tokenizeIn v text = scan v 0 text.toList := by
  unfold tokenizeIn
  split
  · next c heq =>
    rw [← String.length_toList, heq] at h
    exact absurd rfl h
  · rfl

theorem tokenize_of_length (h : text.length ≠ 1) :
    tokenize text = scan .standard 0 text.toList :=
  tokenizeIn_of_length h

/-- A text has these tokens if it writes them with blanks between. -/
theorem tokenize_eq_ok_iff (h : text.length ≠ 1) :
    tokenize text = .ok ts ↔ Written text.toList ts := by
  rw [tokenize_of_length h, scan_eq_ok_iff]

/-- The texts of atoms are those of single tokens. -/
theorem isSome_ofText?_iff {s : String} :
    (Atom.ofText? s).isSome = true ↔ IsLexeme s.toList := by
  unfold Atom.ofText? IsLexeme
  rw [String.ofList_toList]
  split <;> simp [*]

/-- The texts of atoms are those that the lexer takes for one token, and every token of a text but
a single character is the text of an atom. -/
theorem atom_iff_token :
    (∀ s, (Atom.ofText? s).isSome = true ↔ tokenize (" " ++ s) = .ok [s]) ∧
      ∀ text ts, text.length ≠ 1 → tokenize text = .ok ts →
        ∀ t ∈ ts, Atom.ofText? t = some ⟨t⟩ := by
  constructor
  · intro s
    by_cases hs : s = ""
    · -- the text is a single blank, which is taken for a token
      subst hs
      have hblank : tokenize (" " ++ "") = .ok [" "] := rfl
      rw [isSome_ofText?_iff, hblank]
      exact iff_of_false not_isLexeme_nil (by simp)
    · have hlength : (" " ++ s).length ≠ 1 := by
        have hpos : s.length ≠ 0 := mt String.length_eq_zero_iff.1 hs
        rw [String.length_append]
        have hspace : " ".length = 1 := rfl
        omega
      have hlist : (" " ++ s).toList = ' ' :: s.toList := by
        rw [String.toList_append]
        rfl
      have halone : Written s.toList [String.ofList s.toList] ↔ IsLexeme s.toList :=
        written_alone_iff
      rw [String.ofList_toList] at halone
      rw [isSome_ofText?_iff, tokenize_eq_ok_iff hlength, hlist,
        written_blank_iff (by decide), halone]
  · intro text ts hlength h t ht
    have hlexeme := ((tokenize_eq_ok_iff hlength).1 h).isLexeme t ht
    unfold IsLexeme at hlexeme
    rw [String.ofList_toList] at hlexeme
    exact if_pos hlexeme

/-- Tokens that touch each other are taken apart, and each of them alone is a token again. -/
theorem atom_iff_token_touching :
    let text := "(<=x-1\"a )\")"
    let ts : List Token := ["(", "<=", "x", "-1", "\"a )\"", ")"]
    text.length ≠ 1 ∧ tokenize text = .ok ts ∧
      ∀ t ∈ ts, Atom.ofText? t = some ⟨t⟩ ∧ tokenize (" " ++ t) = .ok [t] := by
  intro text ts
  have hlength : text.length ≠ 1 := by decide +kernel
  have htokens : tokenize text = .ok ts := by decide +kernel
  refine ⟨hlength, htokens, fun t ht => ?_⟩
  have hatom : Atom.ofText? t = some ⟨t⟩ := atom_iff_token.2 text ts hlength htokens t ht
  refine ⟨hatom, (atom_iff_token.1 t).1 ?_⟩
  rw [hatom]
  rfl

/-! ## Characters outside strings -/

/-- The quotes of the text are in pairs, so that what follows the text is in none of its strings. -/
def Paired (cs : List Char) : Prop := cs.count '"' % 2 = 0

instance : DecidablePred Paired := fun _ => inferInstanceAs (Decidable (_ = _))

/-- Every character that stands in no string is of some class. -/
def Sound (cs : List Char) : Prop :=
  ∀ front c rest, cs = front ++ c :: rest → Paired front → c ≠ '"' → Classified c

/-- The text without the blanks outside strings, where the text begins inside a string or not. -/
def squeezeFrom : Bool → List Char → List Char
  | _, [] => []
  | inside, c :: cs =>
    if c = '"' then c :: squeezeFrom (!inside) cs
    else if Text.isBlank c && !inside then squeezeFrom inside cs
    else c :: squeezeFrom inside cs

/-- The text without the blanks outside strings. -/
def squeeze (cs : List Char) : List Char := squeezeFrom false cs

/-- If the quotes of a text go in pairs, those of a longer text do if they do so in the rest. -/
theorem Paired.append_iff (h : Paired cs) : Paired (cs ++ ds) ↔ Paired ds := by
  unfold Paired at *
  rw [List.count_append]
  omega

/-- A character that is no quote does not matter for the pairs. -/
theorem paired_cons_iff (h : c ≠ '"') : Paired (c :: cs) ↔ Paired cs := by
  unfold Paired
  rw [List.count_cons_of_ne h]

theorem sound_nil : Sound [] := by
  intro front c rest h
  simp at h

/-- A blank in front keeps a text sound. -/
theorem sound_blank (hc : Text.isBlank c = true) (h : Sound cs) : Sound (c :: cs) := by
  intro front d rest heq hfront hd
  cases front with
  | nil =>
    obtain ⟨rfl, -⟩ := List.cons.inj heq
    exact .inl hc
  | cons e front =>
    obtain ⟨rfl, rfl⟩ := List.cons.inj heq
    exact h front d rest rfl ((paired_cons_iff (plain_of_isBlank hc).1).1 hfront) hd

/-- Sound texts one after the other are sound if the quotes of the first go in pairs. -/
theorem sound_append (ha : Sound a) (hpaired : Paired a) (h : Sound cs) : Sound (a ++ cs) := by
  intro front c rest heq hfront hc
  rcases List.append_eq_append_iff.1 heq with ⟨front', rfl, hcs⟩ | ⟨rest', rfl, hrest⟩
  · exact h front' c rest hcs (hpaired.append_iff.1 hfront) hc
  · cases rest' with
    | nil => exact h [] c rest hrest.symm rfl hc
    | cons d rest' =>
      obtain ⟨rfl, -⟩ := List.cons.inj hrest
      exact ha front c rest' rfl hfront hc

/-- A token is sound by itself. -/
theorem sound_of_isLexeme (h : IsLexeme a) : Sound a := by
  intro front c rest heq hfront hc
  rcases string_or_visible_of_isLexeme h with ⟨body, hstring, hbody⟩ | hvisible
  · -- all characters but the first one have one quote in front of them
    exfalso
    cases front with
    | nil => exact hc (List.cons.inj (heq.symm.trans hstring)).1
    | cons d front =>
      have hone := count_quote_of_string hbody (List.cons_ne_nil d front) (heq.symm.trans hstring)
      unfold Paired at hfront
      omega
  · exact .inr (hvisible c (by simp [heq]))

/-- A text that is written with tokens has no character without a class outside strings. -/
theorem Written.sound (h : Written cs ts) : Sound cs := by
  induction h with
  | nil => exact sound_nil
  | blank hc _ ih => exact sound_blank hc ih
  | token ha _ _ ih => exact sound_append (sound_of_isLexeme ha) (count_quote_of_isLexeme ha) ih

/-! ## The characters of the tokens -/

theorem squeezeFrom_quote : squeezeFrom inside ('"' :: cs) = '"' :: squeezeFrom (!inside) cs := rfl

theorem squeezeFrom_cons (hc : c ≠ '"') : squeezeFrom inside (c :: cs) =
    if Text.isBlank c && !inside then squeezeFrom inside cs else c :: squeezeFrom inside cs :=
  if_neg hc

/-- A blank outside strings is left out. -/
theorem squeezeFrom_of_isBlank (hc : Text.isBlank c = true) :
    squeezeFrom false (c :: cs) = squeezeFrom false cs := by
  rw [squeezeFrom_cons (plain_of_isBlank hc).1, hc]
  rfl

/-- What is behind a text is squeezed on its own, inside a string if a quote of the text is left
over. -/
theorem squeezeFrom_append : squeezeFrom inside (cs ++ ds) =
    squeezeFrom inside cs ++ squeezeFrom (inside ^^ (cs.count '"' % 2 == 1)) ds := by
  induction cs generalizing inside with
  | nil => simp [squeezeFrom]
  | cons c cs ih =>
    by_cases hc : c = '"'
    · subst hc
      have hflip : (inside ^^ (('"' :: cs).count '"' % 2 == 1)) =
          (!inside ^^ (cs.count '"' % 2 == 1)) := by
        rw [List.count_cons_self]
        rcases Nat.mod_two_eq_zero_or_one (cs.count '"') with h | h <;>
          cases inside <;> simp [Nat.add_mod, h]
      rw [hflip, List.cons_append, squeezeFrom_quote, squeezeFrom_quote, ih, List.cons_append]
    · rw [List.cons_append, List.count_cons_of_ne hc, squeezeFrom_cons hc, squeezeFrom_cons hc, ih]
      split <;> rfl

/-- Texts are squeezed one after the other if the quotes of the first go in pairs. -/
theorem squeeze_append (h : Paired cs) : squeeze (cs ++ ds) = squeeze cs ++ squeeze ds := by
  unfold Paired at h
  unfold squeeze
  rw [squeezeFrom_append, h]
  rfl

/-- A text without quotes stays if it is in a string or has no blanks. -/
theorem squeezeFrom_eq_self (hquote : '"' ∉ cs)
    (h : inside = true ∨ ∀ c ∈ cs, Text.isBlank c = false) : squeezeFrom inside cs = cs := by
  induction cs with
  | nil => rfl
  | cons c cs ih =>
    rw [List.mem_cons, not_or] at hquote
    have hstays : ¬ (Text.isBlank c && !inside) = true := by
      rcases h with rfl | h
      · simp
      · simp [h c List.mem_cons_self]
    rw [squeezeFrom_cons (Ne.symm hquote.1), if_neg hstays,
      ih hquote.2 (h.imp id fun h d hd => h d (List.mem_cons_of_mem c hd))]

/-- All characters of a lexeme stay. -/
theorem squeeze_of_isLexeme (h : IsLexeme a) : squeeze a = a := by
  rcases string_or_visible_of_isLexeme h with ⟨body, rfl, hbody⟩ | hvisible
  · unfold squeeze
    rw [squeezeFrom_quote, squeezeFrom_append, Bool.not_false,
      squeezeFrom_eq_self hbody (.inl rfl)]
    rfl
  · refine squeezeFrom_eq_self (fun hmem => ?_) (.inr fun c hc => ?_)
    · rcases hvisible _ hmem with hc | hc
      · exact (plain_of_isWordChar hc).1 rfl
      · exact (isSymbol_iff.1 hc).2.1 rfl
    · exact (hvisible c hc).elim isBlank_of_isWordChar isBlank_of_isSymbol

/-- The tokens have all characters of the text but the blanks outside strings. -/
theorem Written.squeeze_eq (h : Written cs ts) : squeeze cs = ts.flatMap String.toList := by
  induction h with
  | nil => rfl
  | @blank c cs ts hc _ ih =>
    rw [← ih]
    exact squeezeFrom_of_isBlank hc
  | @token a cs ts ha _ _ ih =>
    rw [squeeze_append (count_quote_of_isLexeme ha), squeeze_of_isLexeme ha, ih,
      List.flatMap_cons, String.toList_ofList]

/-! ## The first place that offends -/

/-- The text has no token at a place outside strings, for the given reason: the character there is
of no class, or it is a quote without another one behind it. -/
inductive Offends (cs : List Char) : Nat → LexicalError → Prop where
  | char {front rest : List Char} {c : Char} (heq : cs = front ++ c :: rest)
      (hfront : Paired front) (hquote : c ≠ '"') (hc : ¬ Classified c) :
      Offends cs front.length (.unexpectedChar c front.length)
  | quote {front rest : List Char} (heq : cs = front ++ '"' :: rest) (hfront : Paired front)
      (hrest : '"' ∉ rest) :
      Offends cs front.length
        (.openString front.length (String.ofList (('"' :: rest).take 10)))

variable {front : List Char} {i : Nat} {e : LexicalError}

/-- The place that offends is within the text. -/
theorem Offends.lt_length (h : Offends cs i e) : i < cs.length := by
  cases h with
  | char heq => simp [heq]
  | quote heq => simp [heq]

/-- A place in front of the border between two parts of a text is a place of the first part. -/
theorem exists_of_append_eq {front' rest' : List Char} (h : front ++ rest = front' ++ c :: rest')
    (hlt : front'.length < front.length) :
    ∃ middle, front = front' ++ c :: middle ∧ rest' = middle ++ rest := by
  rcases List.append_eq_append_iff.1 h with ⟨middle, rfl, -⟩ | ⟨middle, rfl, hmiddle⟩
  · rw [List.length_append] at hlt
    omega
  · cases middle with
    | nil => simp at hlt
    | cons d middle =>
      obtain ⟨rfl, rfl⟩ := List.cons.inj hmiddle
      exact ⟨middle, rfl, rfl⟩

/-- No place offends in a beginning of a text with its quotes in pairs and all characters outside
strings of some class. -/
theorem Offends.length_le (h : Offends (front ++ rest) i e) (hpaired : Paired front)
    (hsound : Sound front) : front.length ≤ i := by
  rw [← Nat.not_lt]
  intro hlt
  cases h with
  | char heq hfront hquote hc =>
    obtain ⟨middle, hsplit, -⟩ := exists_of_append_eq heq hlt
    exact hc (hsound _ _ _ hsplit hfront hquote)
  | quote heq hfront hrest =>
    obtain ⟨middle, rfl, rfl⟩ := exists_of_append_eq heq hlt
    -- the quote would be the only one that is left over
    have hmiddle : middle.count '"' = 0 :=
      List.count_eq_zero.2 fun hmem => hrest (List.mem_append_left _ hmem)
    have hodd := hfront.append_iff.1 hpaired
    unfold Paired at hodd
    rw [List.count_cons_self, hmiddle] at hodd
    exact absurd hodd (by decide)

/-- No place offends in a sound text whose quotes go in pairs. -/
theorem not_offends (hpaired : Paired cs) (hsound : Sound cs) : ¬ Offends cs i e := by
  intro h
  have hlt := h.lt_length
  rw [← List.append_nil cs] at h
  exact absurd (h.length_le hpaired hsound) (Nat.not_le.2 hlt)

/-- A character that is a token alone begins a token whatever is behind it. -/
theorem exists_first_of_isLexeme (h : IsLexeme [c]) :
    ∃ a rest, first .standard (c :: cs) = some (a, rest) := by
  obtain ⟨k, hk, hcontinues⟩ := Start.exists_of_isLexeme h
  have hsplit : ∃ a rest, k.split cs = some (a, rest) := by
    cases k with
    | word => exact ⟨_, _, rfl⟩
    | quote =>
      obtain ⟨body, hbody, -⟩ := hcontinues
      simp at hbody
    | sign => exact ⟨_, _, rfl⟩
    | angle =>
      by_cases hcs : cs.head? = some '='
      · obtain ⟨ds, rfl⟩ := List.head?_eq_some_iff.1 hcs
        exact ⟨_, _, rfl⟩
      · exact ⟨_, _, Start.split_angle_of_ne hcs⟩
    | single => exact ⟨_, _, rfl⟩
  obtain ⟨a, rest, hsplit⟩ := hsplit
  refine ⟨c :: a, rest, ?_⟩
  rw [first_cons, hk, Option.bind_some, hsplit]
  rfl

/-- Where the lexer takes nothing, there is a character of no class or a quote without another one
behind it. -/
theorem of_first_eq_none (h : first .standard (c :: cs) = none) (hc : Text.isBlank c = false) :
    (c = '"' ∧ '"' ∉ cs) ∨ c ≠ '"' ∧ ¬ Classified c := by
  by_cases hquote : c = '"'
  · subst hquote
    rw [first_quote, Option.map_eq_none_iff] at h
    refine .inl ⟨rfl, fun hmem => ?_⟩
    unfold Start.split at h
    dsimp only at h
    split at h
    · next hnil =>
      obtain ⟨heq, hall, -⟩ := takeWhile_dropWhile_iff.1 ⟨rfl, hnil⟩
      rw [heq, List.append_nil] at hmem
      simpa using hall _ hmem
    · simp at h
  · refine .inr ⟨hquote, ?_⟩
    rintro (hblank | hclass)
    · rw [hblank] at hc
      exact Bool.noConfusion hc
    · obtain ⟨a, rest, hsome⟩ := exists_first_of_isLexeme (isLexeme_singleton.2 hclass)
      rw [h] at hsome
      simp at hsome

/-- The error of a text without tokens names the first place that offends. -/
theorem exists_first_offends (h : scan .standard 0 cs = .error e) :
    ∃ i, Offends cs i e ∧ ∀ j e', Offends cs j e' → i ≤ j := by
  obtain ⟨front, c, rest, ts, rfl, hfront, hc, hnone, rfl⟩ :=
    (written_of_scan 0 cs).2 e h
  refine ⟨front.length, ?_, fun j e' hj => hj.length_le hfront.count_quote hfront.sound⟩
  rw [Nat.zero_add]
  rcases of_first_eq_none hnone hc with ⟨rfl, hrest⟩ | ⟨hquote, hclass⟩
  · exact .quote rfl hfront.count_quote hrest
  · have hfailure : failure .standard front.length c rest = .unexpectedChar c front.length :=
      if_neg (mt isQuote_iff.1 hquote)
    rw [hfailure]
    exact .char rfl hfront.count_quote hquote hclass

/-! ## The language of the lexer -/

/-- A word ends where its letters and digits do. -/
theorem isWordChar_of_ends (hword : standard.isWord (String.ofList a) = true) (h : Ends a rest)
    (hc : rest.head? = some c) : standard.isWordChar c = false := by
  obtain ⟨hne, hall⟩ := isWord_ofList.1 hword
  refine Bool.eq_false_iff.2 fun hwordChar => h c hc ?_
  refine isLexeme_iff.2 (.inl ⟨by simp, ?_⟩)
  exact List.forall_mem_append.2 ⟨hall, List.forall_mem_singleton.2 hwordChar⟩

/-- What the lexer makes of a text that is not a single character. The text has tokens if and only
if its quotes are in pairs and each character outside strings is of some class. The tokens are the
text without the blanks outside strings, and no letter and no digit is right behind a word. If there
are no tokens, the error names the first place that offends. -/
theorem tokenize_characterised (text : String) (h : text.length ≠ 1) :
    ((∃ ts, tokenize text = .ok ts) ↔ Paired text.toList ∧ Sound text.toList) ∧
      (∀ ts, tokenize text = .ok ts →
        (String.join ts).toList = squeeze text.toList ∧
          ∀ us t vs, ts = us ++ t :: vs → standard.isWord t = true →
            ∃ front back, text.toList = front ++ (t.toList ++ back) ∧
              (String.join us).toList = squeeze front ∧ (String.join vs).toList = squeeze back ∧
              ∀ c, back.head? = some c → standard.isWordChar c = false) ∧
      ∀ e, tokenize text = .error e →
        ∃ i, Offends text.toList i e ∧ ∀ j e', Offends text.toList j e' → i ≤ j := by
  refine ⟨⟨?_, ?_⟩, ?_, ?_⟩
  · rintro ⟨ts, hts⟩
    have hwritten := (tokenize_eq_ok_iff h).1 hts
    exact ⟨hwritten.count_quote, hwritten.sound⟩
  · rintro ⟨hpaired, hsound⟩
    cases hresult : tokenize text with
    | ok ts => exact ⟨ts, rfl⟩
    | error e =>
      rw [tokenize_of_length h] at hresult
      obtain ⟨i, hi, -⟩ := exists_first_offends hresult
      exact absurd hi (not_offends hpaired hsound)
  · intro ts hts
    have hwritten := (tokenize_eq_ok_iff h).1 hts
    refine ⟨by rw [String.toList_join, hwritten.squeeze_eq], ?_⟩
    rintro us t vs rfl hword
    obtain ⟨front, back, htext, hfront, hback, hends⟩ := hwritten.cut_token
    refine ⟨front, back, htext, ?_, ?_, fun c hc => ?_⟩
    · rw [String.toList_join, hfront.squeeze_eq]
    · rw [String.toList_join, hback.squeeze_eq]
    · rw [← String.ofList_toList (s := t)] at hword
      exact isWordChar_of_ends hword hends hc
  · intro e he
    rw [tokenize_of_length h] at he
    exact exists_first_offends he

/-- A string may have characters of no class in it. Of a character of no class and a quote that is
left over, the error names the one in front. -/
theorem tokenize_characterised_unexpected :
    let good := "(list \"@ #\" x1 )"
    let ts : List Token := ["(", "list", "\"@ #\"", "x1", ")"]
    let bad := "(sum 1 @) \"abc"
    good.length ≠ 1 ∧ tokenize good = .ok ts ∧ (String.join ts).toList = squeeze good.toList ∧
      bad.length ≠ 1 ∧ tokenize bad = .error (.unexpectedChar '@' 7) ∧
      Offends bad.toList 10 (.openString 10 "\"abc") ∧
      ∃ i, Offends bad.toList i (.unexpectedChar '@' 7) ∧
        ∀ j e', Offends bad.toList j e' → i ≤ j := by
  intro good ts bad
  have hgood : good.length ≠ 1 := by decide +kernel
  have htokens : tokenize good = .ok ts := by decide +kernel
  have hbad : bad.length ≠ 1 := by decide +kernel
  have herror : tokenize bad = .error (.unexpectedChar '@' 7) := by decide +kernel
  have hopen : Offends bad.toList 10 (.openString 10 "\"abc") :=
    have hsplit : bad.toList = "(sum 1 @) ".toList ++ '"' :: "abc".toList := by decide +kernel
    .quote hsplit (by decide +kernel) (by decide +kernel)
  exact ⟨hgood, htokens, ((tokenize_characterised good hgood).2.1 ts htokens).1, hbad, herror,
    hopen, (tokenize_characterised bad hbad).2.2 _ herror⟩

end PairLisp.Token
