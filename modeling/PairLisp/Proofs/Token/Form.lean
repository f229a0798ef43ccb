import PairLisp.Proofs.Result
import PairLisp.Proofs.Token.Lexeme

/-!
# The forms of a token

`Token.Form` says what tokens of the five shapes are in any vocabulary, without saying how they are
found. Each shape takes off a beginning of the text of this form (`Token.form_of_shape`), and if some
beginning is of this form then one of the shapes takes one (`Token.exists_shape`). The classes of a
vocabulary may have characters in common, so it may be another one.

The lexer takes blanks and tokens off a text until nothing is left or it fails. What holds of the
empty text, and of a text with a blank or a token in front of it if it holds of this text, holds of
all that the lexer takes (`Token.scan_induction`).
-/

namespace PairLisp.Token

/-! ## The five forms of a token -/

/-- The characters of a token: a relation, a string, a signed numeral, a word or a symbol. -/
inductive Form (v : Vocabulary) : List Char → Prop where
  | relation {c : Char} (hc : c = '<' ∨ c = '>') : Form v [c, '=']
  | string {c d : Char} {body : List Char} (hc : v.isQuote c = true)
      (hbody : ∀ b ∈ body, v.isQuote b = false) (hd : v.isQuote d = true) :
      Form v (c :: (body ++ [d]))
  | signed {c : Char} {body : List Char} (hc : v.isSign c = true) (hne : body ≠ [])
      (hbody : ∀ b ∈ body, v.isDigit b = true) : Form v (c :: body)
  | word {body : List Char} (hne : body ≠ []) (hbody : ∀ b ∈ body, v.isWordChar b = true) :
      Form v body
  | symbol {c : Char} (hc : v.isSymbol c = true) : Form v [c]

variable {v : Vocabulary} {cs a rest : List Char}

/-- A token has at least one character. -/
theorem Form.ne_nil (h : Form v a) : a ≠ [] := by
  cases h with
  | word hne => exact hne
  | _ => exact List.cons_ne_nil _ _

/-- What is taken for a relation is one, at the beginning of the text. So it is with the other four
shapes. -/
theorem form_of_relation (h : relation cs = some (a, rest)) : cs = a ++ rest ∧ Form v a := by
  unfold relation at h
  split at h
  · obtain ⟨rfl, rfl⟩ := Prod.mk.inj (Option.some.inj h)
    exact ⟨rfl, .relation (.inl rfl)⟩
  · obtain ⟨rfl, rfl⟩ := Prod.mk.inj (Option.some.inj h)
    exact ⟨rfl, .relation (.inr rfl)⟩
  · simp at h

theorem form_of_string (h : string v cs = some (a, rest)) : cs = a ++ rest ∧ Form v a := by
  unfold string at h
  split at h
  · simp at h
  · next c cs =>
    split at h
    · next hc =>
      split at h
      · simp at h
      · next d rest' hdrop =>
        obtain ⟨rfl, rfl⟩ := Prod.mk.inj (Option.some.inj h)
        obtain ⟨heq, hbody, hd⟩ := takeWhile_dropWhile_iff.1 ⟨rfl, hdrop⟩
        refine ⟨?_, .string hc (fun b hb => by simpa using hbody b hb) (by simpa using hd d rfl)⟩
        rw [List.cons_append, List.cons_append, List.append_assoc]
        exact congrArg (c :: ·) heq
    · simp at h

theorem form_of_signed (h : signed v cs = some (a, rest)) : cs = a ++ rest ∧ Form v a := by
  unfold signed at h
  split at h
  · next c d cs =>
    split at h
    · next hcd =>
      rw [Bool.and_eq_true] at hcd
      obtain ⟨rfl, rfl⟩ := Prod.mk.inj (Option.some.inj h)
      obtain ⟨heq, hdigits, -⟩ := takeWhile_dropWhile_iff.1 ⟨rfl, rfl⟩
      refine ⟨congrArg (c :: d :: ·) heq, .signed hcd.1 (List.cons_ne_nil d _) ?_⟩
      exact List.forall_mem_cons.2 ⟨hcd.2, hdigits⟩
    · simp at h
  · simp at h

theorem form_of_word (h : word v cs = some (a, rest)) : cs = a ++ rest ∧ Form v a := by
  unfold word at h
  split at h
  · simp at h
  · next c cs =>
    split at h
    · next hc =>
      obtain ⟨rfl, rfl⟩ := Prod.mk.inj (Option.some.inj h)
      obtain ⟨heq, hword, -⟩ := takeWhile_dropWhile_iff.1 ⟨rfl, rfl⟩
      refine ⟨congrArg (c :: ·) heq, .word (List.cons_ne_nil c _) ?_⟩
      exact List.forall_mem_cons.2 ⟨hc, hword⟩
    · simp at h

theorem form_of_symbol (h : symbol v cs = some (a, rest)) : cs = a ++ rest ∧ Form v a := by
  unfold symbol at h
  split at h
  · simp at h
  · split at h
    · next hc =>
      obtain ⟨rfl, rfl⟩ := Prod.mk.inj (Option.some.inj h)
      exact ⟨rfl, .symbol hc⟩
    · simp at h

/-- Each shape takes a token of one of the forms off the text. -/
theorem form_of_shape {shape : Shape} (hmem : shape ∈ shapes v) (h : shape cs = some (a, rest)) :
    cs = a ++ rest ∧ Form v a := by
  simp only [shapes, List.mem_cons, List.not_mem_nil, or_false] at hmem
  rcases hmem with rfl | rfl | rfl | rfl | rfl
  · exact form_of_relation h
  · exact form_of_string h
  · exact form_of_signed h
  · exact form_of_word h
  · exact form_of_symbol h

/-- A text that begins with a token of one of the forms begins with one that is taken off, which may
be a longer one. -/
theorem exists_shape (h : Form v a) (rest : List Char) :
    ∃ shape ∈ shapes v, ∃ taken, shape (a ++ rest) = some taken := by
  cases h with
  | relation hc =>
    refine ⟨relation, by simp [shapes], ?_⟩
    rcases hc with rfl | rfl <;> exact ⟨_, rfl⟩
  | @string c d body hc hbody hd =>
    have hrun : (body ++ [d] ++ rest).takeWhile (!v.isQuote ·) = body ∧
        (body ++ [d] ++ rest).dropWhile (!v.isQuote ·) = d :: rest := by
      refine takeWhile_dropWhile_iff.2 ⟨?_, fun b hb => ?_, fun e he => ?_⟩
      · rw [List.append_assoc]
        rfl
      · rw [hbody b hb, Bool.not_false]
      · rw [← Option.some.inj he, hd, Bool.not_true]
    refine ⟨string v, by simp [shapes], (c :: body ++ [d], rest), ?_⟩
    unfold string
    rw [List.cons_append]
    dsimp only
    rw [if_pos hc, hrun.2, hrun.1]
  | @signed c body hc hne hbody =>
    obtain ⟨d, ds, rfl⟩ := List.exists_cons_of_ne_nil hne
    have hcd : (v.isSign c && v.isDigit d) = true := by
      rw [hc, hbody d List.mem_cons_self]
      rfl
    exact ⟨signed v, by simp [shapes], _, if_pos hcd⟩
  | word hne hbody =>
    obtain ⟨c, cs, rfl⟩ := List.exists_cons_of_ne_nil hne
    exact ⟨word v, by simp [shapes], _, if_pos (hbody c List.mem_cons_self)⟩
  | symbol hc => exact ⟨symbol v, by simp [shapes], _, if_pos hc⟩

/-! ## A run of the lexer -/

/-- What the lexer takes is a token, at the beginning of the text. -/
theorem form_of_first (h : first v cs = some (a, rest)) : cs = a ++ rest ∧ Form v a := by
  obtain ⟨shape, hmem, hs⟩ := List.exists_of_findSome?_eq_some h
  exact form_of_shape hmem hs

/-- If the lexer finds tokens, what is kept by blanks and tokens holds of the text with these. If it
fails, then it holds of the text in front of the place that it names. -/
theorem scan_induction {P : List Char → List Token → Prop} (hnil : P [] [])
    (hblank : ∀ {c cs ts}, Text.isBlank c = true → P cs ts → P (c :: cs) ts)
    (htoken : ∀ {cs a front rest ts}, first v cs = some (a, rest) → front <+: rest → P front ts →
      P (a ++ front) (String.ofList a :: ts)) (position : Nat) (cs : List Char) :
    (∀ ts, scan v position cs = .ok ts → P cs ts) ∧
      ∀ e, scan v position cs = .error e → ∃ front c rest ts, cs = front ++ c :: rest ∧
        P front ts ∧ Text.isBlank c = false ∧ first v (c :: rest) = none ∧
        e = failure v (position + front.length) c rest := by
  fun_induction scan v position cs with
  | case1 => exact ⟨fun ts h => Except.ok.inj h ▸ hnil, fun e h => by simp at h⟩
  | case2 position c cs hc ih =>
    refine ⟨fun ts h => hblank hc (ih.1 ts h), fun e h => ?_⟩
    obtain ⟨front, d, rest, ts, rfl, hfront, hd, hnone, rfl⟩ := ih.2 e h
    refine ⟨c :: front, d, rest, ts, rfl, hblank hc hfront, hd, hnone, ?_⟩
    rw [List.length_cons, Nat.add_right_comm, Nat.add_assoc]
  | case3 position c cs hc hnone =>
    refine ⟨fun ts h => by simp at h, fun e h => ?_⟩
    exact ⟨[], c, cs, [], rfl, hnil, Bool.eq_false_iff.2 hc, hnone, (Except.error.inj h).symm⟩
  | case4 position c cs hc token rest hfirst ih =>
    have heq : c :: cs = token ++ rest := (form_of_first hfirst).1
    refine ⟨fun ts h => ?_, fun e h => ?_⟩
    · obtain ⟨us, hus, rfl⟩ := map_eq_ok.1 h
      rw [heq]
      exact htoken hfirst (List.prefix_refl rest) (ih.1 us hus)
    · obtain ⟨front, d, rest', ts, rfl, hfront, hd, hnone, rfl⟩ := ih.2 e (map_eq_error.1 h)
      refine ⟨token ++ front, d, rest', _, ?_, htoken hfirst (List.prefix_append _ _) hfront, hd,
        hnone, ?_⟩
      · rw [heq, List.append_assoc]
      · rw [List.length_append, Nat.add_assoc]

end PairLisp.Token
