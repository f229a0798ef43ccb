import PairLisp.Eval.State
import PairLisp.Proofs.Numeral
import PairLisp.Proofs.SExpr.All

/-!
# Handles of closures

The handle of the closure number `n` is the atom with the text `#<lambda:n>`. No program can write
such an atom down, and no number or truth value is one: a handle begins with a character that no
other atom begins with. The number of a handle can be read off its text, so the handles of two
closures differ, and a collection of closures finds each closure under its own handle.
-/

namespace PairLisp

namespace Atom

/-- The atom is the handle of some closure. -/
def IsHandle (a : Atom) : Prop := ∃ n, a = handle n

/-- The characters of a handle. -/
theorem toList_handle (n : Nat) :
    (handle n).text.toList = '#' :: ("<lambda:".toList ++ Nat.toDigits 10 n ++ ['>']) := by
  have hopening : "#<lambda:".toList = '#' :: "<lambda:".toList := rfl
  have hclosing : ">".toList = ['>'] := rfl
  unfold handle
  rw [String.toList_append, String.toList_append, Nat.toString_eq_repr, Nat.toList_repr, hopening,
    hclosing, List.cons_append, List.cons_append]

/-- The number of a handle can be read off its text. -/
theorem handleId?_handle (n : Nat) : (handle n).handleId? = some n := by
  have hdigits : (("<lambda:".toList ++ Nat.toDigits 10 n ++ ['>']).drop 8).dropLast =
      Nat.toDigits 10 n := by
    have hprefix : "<lambda:".toList.length = 8 := rfl
    rw [List.append_assoc, List.drop_left' hprefix, List.dropLast_concat]
  have hid : Integer.ofDigits (Nat.toDigits 10 n) = n := Nat.ofDigitChars_ten_toDigits
  unfold handleId?
  rw [toList_handle]
  show (if handle n = handle (Integer.ofDigits _) then some (Integer.ofDigits _) else none) = _
  rw [hdigits, hid, if_pos rfl]

/-- Different numbers have different handles. -/
theorem handle_injective {m n : Nat} (h : handle m = handle n) : m = n := by
  have hid : (handle m).handleId? = (handle n).handleId? := by rw [h]
  rw [handleId?_handle, handleId?_handle] at hid
  exact Option.some.inj hid

/-- An atom with the number of a closure is the handle of this closure. -/
theorem eq_handle_of_handleId? {a : Atom} {n : Nat} (h : a.handleId? = some n) : a = handle n := by
  unfold handleId? at h
  split at h
  · dsimp only at h
    split at h
    · next heq =>
      rw [Option.some.inj h] at heq
      exact heq
    · simp at h
  · simp at h

/-! ## Atoms that are no handles -/

/-- No text that a program can write begins like a handle. -/
theorem isText_eq_false {s : String} {rest : List Char} (h : s.toList = '#' :: rest) :
    isText s = false := by
  have hword : Vocabulary.standard.isWord s = false := by
    have hchar : Vocabulary.standard.isWordChar '#' = false := by decide
    simp [Vocabulary.isWord, h, hchar]
  have hnumeral : Vocabulary.standard.isNumeral s = false := by
    have hdigit : Vocabulary.standard.isDigit '#' = false := by decide
    simp [Vocabulary.isNumeral, Vocabulary.unsigned, h, hdigit]
  have hstring : Vocabulary.standard.isString s = false := by
    have hquote : Vocabulary.standard.isQuote '#' = false := by decide
    unfold Vocabulary.isString
    rw [h]
    dsimp only
    rw [hquote]
    split <;> rfl
  have hrelation : Vocabulary.isRelation s = false := by
    have hall : ∀ t ∈ Vocabulary.relations, t.toList.head? ≠ some '#' := by decide
    have hfirst : s.toList.head? = some '#' := by rw [h]; rfl
    unfold Vocabulary.isRelation
    exact Bool.eq_false_iff.2 fun hs => hall s (List.contains_iff_mem.1 hs) hfirst
  have hsymbol : Vocabulary.standard.isSymbolToken s = false := by
    have hchar : Vocabulary.standard.isSymbol '#' = false := by decide
    unfold Vocabulary.isSymbolToken Vocabulary.isSingle
    rw [h]
    split
    · next c hc =>
      obtain ⟨rfl, -⟩ := List.cons.inj hc
      exact hchar
    · rfl
  unfold isText
  dsimp only
  rw [hword, hnumeral, hstring, hrelation, hsymbol]
  rfl

/-- A program cannot write a handle down. -/
theorem not_isHandle_of_isText {a : Atom} (h : isText a.text = true) : ¬ a.IsHandle := by
  rintro ⟨n, rfl⟩
  rw [isText_eq_false (toList_handle n)] at h
  exact Bool.false_ne_true h

/-- No handle can be written. -/
theorem not_isHandle_of_writable {a : Atom} (h : SExpr.Writable a) : ¬ a.IsHandle :=
  not_isHandle_of_isText h.1

theorem not_isHandle_t : ¬ t.IsHandle := not_isHandle_of_isText (by decide)

theorem not_isHandle_nil : ¬ nil.IsHandle := not_isHandle_of_isText (by decide)

/-- No numeral is a handle. -/
theorem not_isHandle_ofInt (n : Int) : ¬ (ofInt n).IsHandle := by
  have hnumeral : Vocabulary.standard.isNumeral (ofInt n).text = true := isNumeral_ofInt n
  refine not_isHandle_of_isText ?_
  unfold isText
  dsimp only
  rw [hnumeral, Bool.or_true, Bool.true_or, Bool.true_or, Bool.true_or]

/-- No handle is a numeral. -/
theorem isNumeral_handle (n : Nat) : (handle n).isNumeral = false := by
  have hdigit : Vocabulary.standard.isDigit '#' = false := by decide
  simp [isNumeral, Vocabulary.isNumeral, Vocabulary.unsigned, toList_handle, hdigit]

theorem isNil_handle (n : Nat) : (handle n).isNil = false := by
  refine Bool.eq_false_iff.2 fun h => not_isHandle_nil ⟨n, ?_⟩
  unfold isNil at h
  exact congrArg mk (beq_iff_eq.1 h).symm

theorem isTrue_handle (n : Nat) : (handle n).isTrue = false := by
  refine Bool.eq_false_iff.2 fun h => not_isHandle_t ⟨n, ?_⟩
  unfold isTrue at h
  exact congrArg mk (beq_iff_eq.1 h).symm

theorem truth?_handle (n : Nat) : (handle n).truth? = none := by
  unfold truth?
  rw [toList_handle]
  rfl

/-- No handle is a name. -/
theorem isName_handle (n : Nat) : Vocabulary.standard.isName (handle n).text = false := by
  refine Bool.eq_false_iff.2 fun h => ?_
  have htext : isText (handle n).text = true := by
    simp [isText, Vocabulary.isWord_of_isName h]
  rw [isText_eq_false (toList_handle n)] at htext
  exact Bool.false_ne_true htext

end Atom

/-! ## Collections of closures -/

namespace Closures

variable {cs : Closures} {a : Atom} {p q : Procedure}

/-- A handle is looked up by its number, and numbers begin with one. -/
theorem find?_handle (cs : Closures) (n : Nat) : cs.find? (.handle (n + 1)) = cs.captured[n]? := by
  unfold find?
  rw [Atom.handleId?_handle]

/-- All that a collection finds is in it, under a handle. -/
theorem exists_of_find? (h : cs.find? a = some p) :
    ∃ n, a = .handle (n + 1) ∧ cs.captured[n]? = some p := by
  unfold find? at h
  split at h
  · next n hn => exact ⟨n, Atom.eq_handle_of_handleId? hn, h⟩
  · simp at h

/-- A new closure is found under the handle that it is given. -/
theorem find?_capture (cs : Closures) (p : Procedure) :
    (cs.capture p).2.find? (cs.capture p).1 = some p := by
  show (cs.capture p).2.find? (.handle (cs.size + 1)) = some p
  rw [find?_handle]
  exact Array.getElem?_push_size

/-- A closure stays under its handle when others are made. -/
theorem find?_capture_of_find? (h : cs.find? a = some q) :
    (cs.capture p).2.find? a = some q := by
  obtain ⟨n, rfl, hn⟩ := exists_of_find? h
  have hlt : n < cs.captured.size := (Array.getElem?_eq_some_iff.1 hn).1
  rw [find?_handle]
  show (cs.captured.push p)[n]? = some q
  rw [Array.getElem?_push_lt hlt, ← hn, Array.getElem?_eq_getElem hlt]

end Closures

end PairLisp
