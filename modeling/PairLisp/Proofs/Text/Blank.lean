import PairLisp.Text.Blank

/-!
# Trimming

Trimming takes the blanks off the two ends of a text and nothing else, and what is left does not
begin with a blank. It leaves a single character exactly if there are only blanks beside this one
(`Text.trimChars_eq_singleton`).
-/

namespace PairLisp.Text

variable {c : Char}

theorem isBlank_of_mem_takeWhile {cs : List Char} : ∀ c ∈ cs.takeWhile isBlank, isBlank c = true :=
  List.all_eq_true.1 List.all_takeWhile

/-- What the blanks in front leave of a text is what trimming leaves of it, with blanks behind. -/
theorem exists_dropWhile_eq (cs : List Char) :
    ∃ back, cs.dropWhile isBlank = trimChars cs ++ back ∧ ∀ c ∈ back, isBlank c = true := by
  refine ⟨((cs.dropWhile isBlank).reverse.takeWhile isBlank).reverse, ?_, fun c hc => ?_⟩
  · unfold trimChars
    rw [← List.reverse_append, List.takeWhile_append_dropWhile, List.reverse_reverse]
  · exact isBlank_of_mem_takeWhile c (List.mem_reverse.1 hc)

/-- A text is what trimming leaves of it, with blanks at both ends. -/
theorem exists_append_trimChars (cs : List Char) :
    ∃ front back, cs = front ++ (trimChars cs ++ back) ∧ (∀ c ∈ front, isBlank c = true) ∧
      ∀ c ∈ back, isBlank c = true := by
  obtain ⟨back, hback, hblank⟩ := exists_dropWhile_eq cs
  refine ⟨cs.takeWhile isBlank, back, ?_, isBlank_of_mem_takeWhile, hblank⟩
  rw [← hback, List.takeWhile_append_dropWhile]

/-- A trimmed text does not begin with a blank. -/
theorem isBlank_of_head?_trimChars {cs : List Char} (h : (trimChars cs).head? = some c) :
    isBlank c = false := by
  obtain ⟨back, hback, -⟩ := exists_dropWhile_eq cs
  have hhead : (cs.dropWhile isBlank).head? = some c := by
    rw [hback, List.head?_append, h]
    rfl
  have hnot := List.head?_dropWhile_not isBlank cs
  rw [hhead] at hnot
  simpa using hnot

theorem filter_not_isBlank {cs : List Char} (h : ∀ c ∈ cs, isBlank c = true) :
    cs.filter (!isBlank ·) = [] := by
  rw [List.filter_eq_nil_iff]
  intro c hc
  rw [h c hc]
  exact Bool.false_ne_true

/-- A character that is no blank is the one that stands among blanks. -/
theorem eq_of_filter_not_isBlank {cs : List Char} {d : Char} (h : cs.filter (!isBlank ·) = [c])
    (hd : d ∈ cs) (hblank : isBlank d = false) : d = c := by
  have hmem : d ∈ cs.filter (!isBlank ·) := List.mem_filter.2 ⟨hd, by rw [hblank]; rfl⟩
  rwa [h, List.mem_singleton] at hmem

/-- Trimming leaves a single character exactly if no other character is there but blanks. -/
theorem trimChars_eq_singleton {cs : List Char} :
    trimChars cs = [c] ↔ cs.filter (!isBlank ·) = [c] := by
  constructor
  · intro h
    have hhead : (trimChars cs).head? = some c := by
      rw [h]
      rfl
    have hc : isBlank c = false := isBlank_of_head?_trimChars hhead
    obtain ⟨front, back, hcs, hfront, hback⟩ := exists_append_trimChars cs
    rw [hcs, h, List.filter_append, List.filter_append, filter_not_isBlank hfront,
      filter_not_isBlank hback]
    simp [hc]
  · intro h
    obtain ⟨front, back, rfl, hfront, hc, hback⟩ := List.filter_eq_cons_iff.1 h
    rw [List.filter_eq_nil_iff] at hback
    have hc' : isBlank c = false := by simpa using hc
    have hfront' : ∀ d ∈ front, isBlank d = true := by simpa using hfront
    have hback' : ∀ d ∈ back.reverse, isBlank d = true := by simpa using hback
    unfold trimChars
    rw [List.dropWhile_append_of_pos hfront', List.dropWhile_cons_of_neg (by simp [hc']),
      List.reverse_cons, List.dropWhile_append_of_pos hback',
      List.dropWhile_cons_of_neg (by simp [hc'])]
    rfl

end PairLisp.Text
