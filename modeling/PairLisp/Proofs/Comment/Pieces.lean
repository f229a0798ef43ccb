import Mathlib.Control.Monad.Basic
import PairLisp.Proofs.Comment.Scan

/-!
# The pieces of a text

Every text is a row of whole pieces, which are characters of code, strings and comments, and an
ending, which may be a piece that is not whole or a mark with nothing to end
(`Comment.exists_row`). `Comment.Row` and `Comment.Ending` describe both without the scan.

A scan keeps of a row what its pieces stand for (`Comment.scan_row`), and of that a second scan
keeps everything: between two characters that are kept a mark is never formed, since what is kept of
a comment is blank (`Comment.Row.uncommented`). The ending alone decides whether the scan fails, so
an error is about the mark with which the ending begins (`Comment.strip_eq_error_iff`).
-/

namespace PairLisp.Comment

variable {line : Nat} {c d : Char} {cs front rest kept kept' body mark : List Char}
  {text out : String}

/-- A row of whole pieces in front of the rest of a text, and what is kept of it. -/
inductive Row (rest : List Char) : (front kept : List Char) → Prop where
  | nil : Row rest [] []
  /-- A character that begins no other piece, nor with its successor a mark. -/
  | char {c : Char} {front kept : List Char} (hquote : c ≠ '"') (hline : c ≠ ';')
    (hopens : ¬ ['#', '|'] <+: c :: (front ++ rest))
    (hcloses : ¬ ['|', '#'] <+: c :: (front ++ rest)) (h : Row rest front kept) :
    Row rest (c :: front) (c :: kept)
  | string {body front kept : List Char} (hbody : '"' ∉ body) (h : Row rest front kept) :
    Row rest ('"' :: (body ++ '"' :: front)) ('"' :: (body ++ '"' :: kept))
  | line {body front kept : List Char} (hbody : '\n' ∉ body) (h : Row rest front kept) :
    Row rest (';' :: (body ++ '\n' :: front)) ('\n' :: kept)
  | block {body front kept : List Char} (hbody : ¬ ['|', '#'] <:+: body)
    (h : Row rest front kept) :
    Row rest ('#' :: '|' :: (body ++ '|' :: '#' :: front))
      (' ' :: (body.filter (· == '\n') ++ kept))

/-- What is left of a text behind a row of pieces that cannot be continued. -/
inductive Ending : List Char → Prop where
  | nil : Ending []
  | string {body : List Char} (hbody : '"' ∉ body) : Ending ('"' :: body)
  | line {body : List Char} (hbody : '\n' ∉ body) : Ending (';' :: body)
  | stray {cs : List Char} : Ending ('|' :: '#' :: cs)
  | block {body : List Char} (hbody : ¬ ['|', '#'] <:+: body) : Ending ('#' :: '|' :: body)

/-! ## Every text has pieces -/

/-- What occurs in a text has a first occurrence. -/
theorem exists_first_infix (hne : mark ≠ []) (h : mark <:+: cs) :
    ∃ body rest, cs = body ++ (mark ++ rest) ∧ ¬ mark <:+: body := by
  induction cs with
  | nil => exact absurd (List.infix_nil.1 h) hne
  | cons c cs ih =>
    by_cases hprefix : mark <+: c :: cs
    · obtain ⟨rest, hrest⟩ := hprefix
      exact ⟨[], rest, hrest.symm, fun hnil => hne (List.infix_nil.1 hnil)⟩
    · obtain ⟨body, rest, rfl, hbody⟩ := ih ((List.infix_cons_iff.1 h).resolve_left hprefix)
      refine ⟨c :: body, rest, rfl, fun hinfix => ?_⟩
      rcases List.infix_cons_iff.1 hinfix with hhead | htail
      · exact hprefix (hhead.trans (List.prefix_append (c :: body) _))
      · exact hbody htail

/-- Every text is a row of whole pieces and an ending. -/
theorem exists_row (cs : List Char) :
    ∃ front rest kept, cs = front ++ rest ∧ Row rest front kept ∧ Ending rest := by
  induction hlength : cs.length using Nat.strongRecOn generalizing cs with
  | ind length ih =>
    subst hlength
    cases cs with
    | nil => exact ⟨[], [], [], rfl, .nil, .nil⟩
    | cons c cs =>
      -- the text behind a whole piece
      have hlater : ∀ ds : List Char, ds.length ≤ cs.length →
          ∃ front rest kept, ds = front ++ rest ∧ Row rest front kept ∧ Ending rest :=
        fun ds hds => ih ds.length (Nat.lt_succ_of_le hds) ds rfl
      -- each way to begin a piece ends with the text or with the first end of such a piece
      by_cases hquote : c = '"'
      · subst hquote
        by_cases hend : '"' ∈ cs
        · obtain ⟨body, ds, rfl, hbody⟩ := List.eq_append_cons_of_mem hend
          obtain ⟨front, rest, kept, rfl, hrow, hrest⟩ := hlater ds (by simp; omega)
          exact ⟨_, rest, _, by simp, hrow.string hbody, hrest⟩
        · exact ⟨[], _, [], rfl, .nil, .string hend⟩
      by_cases hline : c = ';'
      · subst hline
        by_cases hend : '\n' ∈ cs
        · obtain ⟨body, ds, rfl, hbody⟩ := List.eq_append_cons_of_mem hend
          obtain ⟨front, rest, kept, rfl, hrow, hrest⟩ := hlater ds (by simp; omega)
          exact ⟨_, rest, _, by simp, hrow.line hbody, hrest⟩
        · exact ⟨[], _, [], rfl, .nil, .line hend⟩
      by_cases hopens : ['#', '|'] <+: c :: cs
      · obtain ⟨text, htext⟩ := hopens
        obtain ⟨rfl, rfl⟩ := List.cons.inj htext
        by_cases hend : ['|', '#'] <:+: text
        · obtain ⟨body, ds, rfl, hbody⟩ := exists_first_infix (by simp) hend
          obtain ⟨front, rest, kept, rfl, hrow, hrest⟩ := hlater ds (by simp; omega)
          exact ⟨_, rest, _, by simp, hrow.block hbody, hrest⟩
        · exact ⟨[], _, [], rfl, .nil, .block hend⟩
      by_cases hcloses : ['|', '#'] <+: c :: cs
      · obtain ⟨ds, hds⟩ := hcloses
        exact ⟨[], _, [], rfl, .nil, hds ▸ .stray⟩
      · obtain ⟨front, rest, kept, rfl, hrow, hrest⟩ := hlater cs (Nat.le_refl _)
        exact ⟨c :: front, rest, c :: kept, rfl, hrow.char hquote hline hopens hcloses, hrest⟩

/-! ## The scan of a row -/

/-- A row of pieces is scanned piece by piece. -/
theorem scan_row (h : Row rest front kept) :
    scan .code line (front ++ rest) =
      (scan .code (line + front.count '\n') rest).map (kept ++ ·) := by
  induction h generalizing line with
  | nil =>
    show scan .code line rest = (scan .code line rest).map fun k => k
    cases scan .code line rest <;> rfl
  | @char c front kept hquote hline hopens hcloses _ ih =>
    rw [List.cons_append, scan_code hquote hline hopens hcloses, ih, map_map, nextLine_add_count]
    rfl
  | @string body front kept hbody _ ih =>
    have hlines : line + body.count '\n' + front.count '\n' =
        line + ('"' :: (body ++ '"' :: front)).count '\n' := by
      simp [Nat.add_assoc]
    rw [List.cons_append, List.append_assoc, List.cons_append, scan_quote,
      scan_string_append hbody, ih, map_map, map_map, hlines]
    simp
  | @line body front kept hbody _ ih =>
    have hlines : line + 1 + front.count '\n' =
        line + (';' :: (body ++ '\n' :: front)).count '\n' := by
      simp [List.count_eq_zero.2 hbody]
      omega
    rw [List.cons_append, List.append_assoc, List.cons_append, scan_line_start,
      scan_line_comment hbody, ih, map_map, hlines]
    rfl
  | @block body front kept hbody _ ih =>
    have hlines : line + body.count '\n' + front.count '\n' =
        line + ('#' :: '|' :: (body ++ '|' :: '#' :: front)).count '\n' := by
      simp [Nat.add_assoc]
    rw [List.cons_append, List.cons_append, List.append_assoc, List.cons_append, List.cons_append,
      scan_block_start, scan_block_comment hbody, ih, map_map, map_map, hlines]
    simp

theorem Row.count_newline (h : Row rest front kept) : kept.count '\n' = front.count '\n' := by
  induction h with
  | nil => rfl
  | char _ _ _ _ _ ih => rw [List.count_cons, List.count_cons, ih]
  | string _ _ ih => simp [ih]
  | line hbody _ ih => simp [ih, List.count_eq_zero.2 hbody]
  | block _ _ ih => simp [ih, List.count_filter]

/-! ## What is kept -/

/-- A character of a mark that is kept of a row, or behind it, first of all has been the first one
before. -/
theorem Row.head? (h : Row rest front kept) (hd : d = '#' ∨ d = '|')
    (hrest : kept'.head? = some d → rest.head? = some d) (hhead : (kept ++ kept').head? = some d) :
    (front ++ rest).head? = some d := by
  cases h with
  | nil => exact hrest hhead
  | char => exact hhead
  | string =>
    obtain rfl : '"' = d := Option.some.inj hhead
    simp at hd
  | line =>
    obtain rfl : '\n' = d := Option.some.inj hhead
    simp at hd
  | block =>
    obtain rfl : ' ' = d := Option.some.inj hhead
    simp at hd

theorem not_pair_prefix {p q : Char} {ds : List Char} (h : ¬ [p, q] <+: c :: cs)
    (hhead : ds.head? = some q → cs.head? = some q) : ¬ [p, q] <+: c :: ds := by
  rintro ⟨es, hes⟩
  obtain ⟨rfl, rfl⟩ := List.cons.inj hes
  obtain ⟨fs, rfl⟩ := List.head?_eq_some_iff.1 (hhead rfl)
  exact h ⟨fs, rfl⟩

/-- What is kept of a row has no comments, and none begins at the border to what stands behind. -/
theorem Row.uncommented (h : Row rest front kept) (hkept' : Uncommented kept')
    (hrest : ∀ d, d = '#' ∨ d = '|' → kept'.head? = some d → rest.head? = some d) :
    Uncommented (kept ++ kept') := by
  induction h with
  | nil => exact hkept'
  | @char c front kept hquote hline hopens hcloses h ih =>
    intro line
    have hopens' := not_pair_prefix hopens (h.head? (.inr rfl) (hrest '|' (.inr rfl)))
    have hcloses' := not_pair_prefix hcloses (h.head? (.inl rfl) (hrest '#' (.inl rfl)))
    rw [List.cons_append, scan_code hquote hline hopens' hcloses', ih]
    rfl
  | string hbody _ ih =>
    intro line
    rw [List.cons_append, List.append_assoc, List.cons_append, scan_quote, ih.string_append hbody]
    rfl
  | line _ _ ih => exact ih.cons (by decide)
  | @block body front kept _ _ ih =>
    have hlines : ∀ c ∈ ' ' :: body.filter (· == '\n'), Vocabulary.Plain c := by
      rw [List.forall_mem_cons]
      refine ⟨by decide, fun c hc => ?_⟩
      rw [beq_iff_eq.1 (List.mem_filter.1 hc).2]
      decide
    have hblanks := ih.append hlines
    rwa [List.cons_append, ← List.append_assoc] at hblanks

/-! ## The scan of an ending -/

theorem uncommented_string (h : '"' ∉ body) : Uncommented ('"' :: body) := by
  intro line
  rw [scan_quote, scan_string h]
  rfl

theorem scan_last_line (h : '\n' ∉ body) : scan .code line (';' :: body) = .ok [] := by
  rw [scan_line_start, scan_open_line h]

/-- A comment that no mark ends is an error on the line where it begins. -/
theorem scan_unclosed (h : ¬ ['|', '#'] <:+: body) :
    scan .code line ('#' :: '|' :: body) = .error (.openComment line) := by
  rw [scan_block_start, scan_open_block h]
  rfl

/-! ## Texts without their comments -/

theorem strip_eq_scan_ending (htext : text.toList = front ++ rest) (hrow : Row rest front kept) :
    strip text =
      ((scan .code (front.count '\n' + 1) rest).map (kept ++ ·)).map String.ofList := by
  unfold strip
  rw [htext, scan_row hrow, Nat.add_comm]

/-- What is kept of a text without an error has no comments and as many line ends. -/
theorem strip_of_strip (h : strip text = .ok out) :
    strip out = .ok out ∧ out.toList.count '\n' = text.toList.count '\n' := by
  obtain ⟨front, rest, kept, htext, hrow, hending⟩ := exists_row text.toList
  rw [strip_eq_scan_ending htext hrow] at h
  obtain ⟨_, hmap, rfl⟩ := map_eq_ok.1 h
  obtain ⟨kept', hscan, rfl⟩ := map_eq_ok.1 hmap
  suffices hend : Uncommented kept' ∧ kept'.count '\n' = rest.count '\n' ∧
      ∀ d, d = '#' ∨ d = '|' → kept'.head? = some d → rest.head? = some d by
    obtain ⟨huncommented, hcount, hhead⟩ := hend
    constructor
    · rw [strip_eq_ok_iff, String.toList_ofList]
      exact hrow.uncommented huncommented hhead 1
    · rw [String.toList_ofList, htext, List.count_append, List.count_append, hrow.count_newline,
        hcount]
  cases hending with
  | nil =>
    obtain rfl := Except.ok.inj hscan
    exact ⟨uncommented_nil, rfl, by simp⟩
  | @string body hbody =>
    rw [uncommented_string hbody] at hscan
    obtain rfl := Except.ok.inj hscan
    exact ⟨uncommented_string hbody, rfl, fun d _ hd => hd⟩
  | @line body hbody =>
    rw [scan_last_line hbody] at hscan
    obtain rfl := Except.ok.inj hscan
    refine ⟨uncommented_nil, ?_, by simp⟩
    simp [List.count_eq_zero.2 hbody]
  | stray => simp [scan_stray] at hscan
  | block hbody => simp [scan_unclosed hbody] at hscan

/-- The error of a text is that of the mark with which its ending begins. -/
theorem strip_eq_error_iff {e : LexicalError} : strip text = .error e ↔
    ∃ front rest kept, text.toList = front ++ rest ∧ Row rest front kept ∧
      ((∃ cs, rest = '|' :: '#' :: cs ∧ e = .strayCommentEnd (front.count '\n' + 1)) ∨
        ∃ body, rest = '#' :: '|' :: body ∧ ¬ ['|', '#'] <:+: body ∧
          e = .openComment (front.count '\n' + 1)) := by
  constructor
  · intro h
    obtain ⟨front, rest, kept, htext, hrow, hending⟩ := exists_row text.toList
    refine ⟨front, rest, kept, htext, hrow, ?_⟩
    rw [strip_eq_scan_ending htext hrow, map_eq_error, map_eq_error] at h
    cases hending with
    | nil => simp [uncommented_nil _] at h
    | string hbody => simp [uncommented_string hbody _] at h
    | line hbody => simp [scan_last_line hbody] at h
    | @stray cs =>
      rw [scan_stray] at h
      exact .inl ⟨cs, rfl, (Except.error.inj h).symm⟩
    | @block body hbody =>
      rw [scan_unclosed hbody] at h
      exact .inr ⟨body, rfl, hbody, (Except.error.inj h).symm⟩
  · rintro ⟨front, rest, kept, htext, hrow, ⟨cs, rfl, rfl⟩ | ⟨body, rfl, hbody, rfl⟩⟩
    · rw [strip_eq_scan_ending htext hrow, map_eq_error, map_eq_error, scan_stray]
    · rw [strip_eq_scan_ending htext hrow, map_eq_error, map_eq_error, scan_unclosed hbody]

/-- What is left of a text without its comments has none, and it has the lines of the text. If there
is an error, its message tells the line of the first mark outside of strings and comments that ends
a block comment, or else of the mark that begins a block comment without an end. -/
theorem strip_lines (text : String) :
    (∀ out, strip text = .ok out →
      strip out = .ok out ∧ out.toList.count '\n' = text.toList.count '\n') ∧
    ∀ e, strip text = .error e ↔ ∃ front rest kept,
      text.toList = front ++ rest ∧ Row rest front kept ∧
      let n := front.count '\n' + 1
      ((∃ cs, rest = '|' :: '#' :: cs ∧ e = .strayCommentEnd n ∧
          e.message = s!"'|#' without a matching '#|' on line {n}") ∨
        ∃ body, rest = '#' :: '|' :: body ∧ ¬ ['|', '#'] <:+: body ∧ e = .openComment n ∧
          e.message = s!"block comment opened on line {n} is never closed") := by
  refine ⟨fun out h => strip_of_strip h, fun e => strip_eq_error_iff.trans ?_⟩
  constructor
  · rintro ⟨front, rest, kept, htext, hrow, ⟨cs, hrest, rfl⟩ | ⟨body, hrest, hbody, rfl⟩⟩
    · exact ⟨front, rest, kept, htext, hrow, .inl ⟨cs, hrest, rfl, rfl⟩⟩
    · exact ⟨front, rest, kept, htext, hrow, .inr ⟨body, hrest, hbody, rfl, rfl⟩⟩
  · rintro ⟨front, rest, kept, htext, hrow, ⟨cs, hrest, rfl, -⟩ | ⟨body, hrest, hbody, rfl, -⟩⟩
    · exact ⟨front, rest, kept, htext, hrow, .inl ⟨cs, hrest, rfl⟩⟩
    · exact ⟨front, rest, kept, htext, hrow, .inr ⟨body, hrest, hbody, rfl⟩⟩

/-- Marks that a comment keeps apart, marks in a comment and in a string, and on the sixth line one
that ends nothing. -/
theorem strip_lines_marks :
    let text := "(f # #|\n|\n|#|) ; |#\n\"#|\" #"
    let out := "(f #  \n\n|) \n\"#|\" #"
    let text' := text ++ "\n#;\n|# #|"
    strip text = .ok out ∧ strip out = .ok out ∧
      out.toList.count '\n' = text.toList.count '\n' ∧
      strip text' = .error (.strayCommentEnd 6) ∧
      ∃ front cs kept, text'.toList = front ++ '|' :: '#' :: cs ∧
        Row ('|' :: '#' :: cs) front kept ∧ front.count '\n' + 1 = 6 := by
  intro text out text'
  have hout : strip text = .ok out := by decide +kernel
  have herror : strip text' = .error (.strayCommentEnd 6) := by decide +kernel
  obtain ⟨hagain, hlines⟩ := (strip_lines text).1 out hout
  refine ⟨hout, hagain, hlines, herror, ?_⟩
  obtain ⟨front, rest, kept, htext, hrow, ⟨cs, rfl, hline, -⟩ | ⟨body, -, -, hline, -⟩⟩ :=
    ((strip_lines text').2 _).1 herror
  · exact ⟨front, cs, kept, htext, hrow, (LexicalError.strayCommentEnd.inj hline).symm⟩
  · simp at hline

end PairLisp.Comment
