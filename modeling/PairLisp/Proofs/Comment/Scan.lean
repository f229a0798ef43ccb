import PairLisp.Comment
import PairLisp.Proofs.Token.Written

/-!
# Scanning a text piece by piece

The scan of a text that consists of two pieces is the scan of the first piece, continued with the
second in the mode and on the line in which the first one ends (`Comment.scan_append`), unless the
border between them runs through a mark of a block comment. `Comment.scanTo` is the scan of a
piece: unlike the scan of a whole text it may end inside a block comment. A string
(`Comment.scan_string_append`) and a comment (`Comment.scan_line_comment`,
`Comment.scan_block_comment`) are scanned as a whole.

What a scan keeps does not depend on the number of the line that it begins on
(`Comment.scan_numbered`), and the quotes that it keeps tell whether it ends inside a string
(`Comment.quotes_of_scanTo`). A text that is written with tokens has no comments, whatever stands
in its strings (`Comment.uncommented_of_written`).
-/

namespace PairLisp.Comment

/-- How far a scan has come: what it has kept, and where in the program it stands. -/
structure Scanned where
  kept : List Char := []
  mode : Mode
  line : Nat
deriving DecidableEq

/-- The same with one more character kept in front. -/
def Scanned.keep (c : Char) (s : Scanned) : Scanned := { s with kept := c :: s.kept }

/-- Scans a piece of a text from the given mode on the given line. -/
def scanTo : Mode → (line : Nat) → List Char → Except LexicalError Scanned
  | mode, line, [] => .ok { mode, line }
  | .code, line, ';' :: cs => scanTo .line line cs
  | .code, line, '#' :: '|' :: cs => (scanTo (.block line) line cs).map (.keep ' ')
  | .code, line, '|' :: '#' :: _ => .error (.strayCommentEnd line)
  | .code, line, '"' :: cs => (scanTo .string line cs).map (.keep '"')
  | .code, line, c :: cs => (scanTo .code (nextLine line c) cs).map (.keep c)
  | .string, line, c :: cs =>
    (scanTo (if c = '"' then .code else .string) (nextLine line c) cs).map (.keep c)
  | .line, line, c :: cs =>
    if c = '\n' then (scanTo .code (line + 1) cs).map (.keep c) else scanTo .line line cs
  | .block _, line, '|' :: '#' :: cs => scanTo .code line cs
  | .block opened, line, c :: cs =>
    if c = '\n' then (scanTo (.block opened) (line + 1) cs).map (.keep c)
    else scanTo (.block opened) line cs

variable {m : Mode} {line opened : Nat} {c : Char} {cs ds kept body : List Char} {s : Scanned}

/-- A text loses its comments as a scan from its first line does it. -/
theorem strip_eq_ok_iff {text out : String} :
    strip text = .ok out ↔ scan .code 1 text.toList = .ok out.toList := by
  unfold strip
  rw [map_eq_ok]
  constructor
  · rintro ⟨kept, hkept, rfl⟩
    rw [String.toList_ofList]
    exact hkept
  · exact fun h => ⟨out.toList, h, String.ofList_toList⟩

/-! ## One character -/

theorem scan_nil (h : ∀ opened, m ≠ .block opened) : scan m line [] = .ok [] := by
  cases m with
  | block opened => exact absurd rfl (h opened)
  | _ => rfl

theorem scan_block_nil : scan (.block opened) line [] = .error (.openComment opened) := rfl

theorem scan_line_start : scan .code line (';' :: cs) = scan .line line cs := rfl

theorem scan_block_start :
    scan .code line ('#' :: '|' :: cs) = (scan (.block line) line cs).map (' ' :: ·) := rfl

theorem scan_stray : scan .code line ('|' :: '#' :: cs) = .error (.strayCommentEnd line) := rfl

theorem scan_quote : scan .code line ('"' :: cs) = (scan .string line cs).map ('"' :: ·) := rfl

/-- A character is kept that begins no string, no comment and no mark. -/
theorem scan_code (hquote : c ≠ '"') (hline : c ≠ ';') (hopens : ¬ ['#', '|'] <+: c :: cs)
    (hcloses : ¬ ['|', '#'] <+: c :: cs) :
    scan .code line (c :: cs) = (scan .code (nextLine line c) cs).map (c :: ·) := by
  rw [scan]
  · exact hline
  · rintro ds rfl rfl
    exact hopens ⟨ds, rfl⟩
  · rintro ds rfl rfl
    exact hcloses ⟨ds, rfl⟩
  · exact hquote

/-- A character that has no meaning in comments is kept. -/
theorem scan_plain (hc : Vocabulary.Plain c) :
    scan .code line (c :: cs) = (scan .code (nextLine line c) cs).map (c :: ·) := by
  obtain ⟨hquote, hline, hblock, hstray⟩ := hc
  refine scan_code hquote hline (fun h => hblock ?_) fun h => hstray ?_
  · exact (List.cons_prefix_cons.1 h).1.symm
  · exact (List.cons_prefix_cons.1 h).1.symm

/-- Within a string a scan keeps every character, and only a quote ends the string. -/
theorem scan_in_string : scan .string line (c :: cs) =
    (scan (if c = '"' then .code else .string) (nextLine line c) cs).map (c :: ·) := rfl

theorem scan_line_end : scan .line line ('\n' :: cs) = (scan .code (line + 1) cs).map ('\n' :: ·) :=
  rfl

/-- A comment of a line loses all characters but the end of the line. -/
theorem scan_in_line (hc : c ≠ '\n') : scan .line line (c :: cs) = scan .line line cs := if_neg hc

theorem scan_block_end : scan (.block opened) line ('|' :: '#' :: cs) = scan .code line cs := rfl

/-- A comment in marks keeps the ends of its lines and nothing else. -/
theorem scan_in_block (hend : ¬ ['|', '#'] <+: c :: cs) : scan (.block opened) line (c :: cs) =
    if c = '\n' then (scan (.block opened) (line + 1) cs).map (c :: ·)
    else scan (.block opened) line cs := by
  rw [scan]
  rintro ds rfl rfl
  exact hend ⟨ds, rfl⟩

/-! ## Two pieces -/

/-- The border between the two pieces does not run through a mark. -/
def Apart (cs ds : List Char) : Prop :=
  ¬ (cs.getLast? = some '#' ∧ ds.head? = some '|') ∧ ¬ (cs.getLast? = some '|' ∧ ds.head? = some '#')

/-- A mark that is not cut in two is not cut behind the first character either. -/
theorem Apart.tail (h : Apart (c :: cs) ds) : Apart cs ds := by
  cases cs with
  | nil => simp [Apart]
  | cons d cs => simpa [Apart] using h

theorem not_mark {p q : Char} (h : ∀ es, c = p → cs = q :: es → False) :
    ¬ [p, q] <+: c :: cs := by
  rintro ⟨es, hes⟩
  obtain ⟨rfl, rfl⟩ := List.cons.inj hes
  exact h es rfl rfl

/-- Two characters that are no mark in the first piece are none in front of the second. -/
theorem not_mark_append {p q : Char}
    (h : ¬ ((c :: cs).getLast? = some p ∧ ds.head? = some q))
    (hcs : ∀ es, c = p → cs = q :: es → False) : ¬ [p, q] <+: c :: (cs ++ ds) := by
  rintro ⟨es, hes⟩
  obtain ⟨rfl, happend⟩ := List.cons.inj hes
  cases cs with
  | nil =>
    obtain rfl : q :: es = ds := happend
    exact h ⟨rfl, rfl⟩
  | cons d cs =>
    obtain ⟨rfl, -⟩ := List.cons.inj happend
    exact hcs cs rfl rfl

/-- Continues a scan with the rest of the text. -/
def Scanned.thenScan (ds : List Char) (s : Scanned) : Except LexicalError (List Char) :=
  (scan s.mode s.line ds).map (s.kept ++ ·)

/-- A character that is kept comes in front of whatever is scanned after it. -/
theorem bind_map_keep (r : Except LexicalError Scanned) :
    (r.map (Scanned.keep c)).bind (Scanned.thenScan ds) =
      (r.bind (Scanned.thenScan ds)).map (c :: ·) := by
  cases r with
  | error e => rfl
  | ok s =>
    show (scan s.mode s.line ds).map _ = ((scan s.mode s.line ds).map _).map _
    cases scan s.mode s.line ds with
    | error e => rfl
    | ok k => rfl

/-- A text may be scanned in two pieces if the cut goes through no mark. -/
theorem scan_append (h : Apart cs ds) :
    scan m line (cs ++ ds) = (scanTo m line cs).bind (·.thenScan ds) := by
  fun_induction scanTo m line cs with
  | case1 m line =>
    show _ = (scan m line ds).map _
    cases heq : scan m line ds with
    | error e => simpa [Except.map] using heq
    | ok k => simpa [Except.map] using heq
  | case2 line cs ih => rw [List.cons_append, scan_line_start, ih h.tail]
  | case3 line cs ih =>
    rw [List.cons_append, List.cons_append, scan_block_start, ih h.tail.tail, bind_map_keep]
  | case4 line cs =>
    rw [List.cons_append, List.cons_append, scan_stray]
    rfl
  | case5 line cs ih => rw [List.cons_append, scan_quote, ih h.tail, bind_map_keep]
  | case6 line c cs hline hblock hstray hquote ih =>
    have hopens : ¬ ['#', '|'] <+: c :: (cs ++ ds) := not_mark_append h.1 hblock
    have hcloses : ¬ ['|', '#'] <+: c :: (cs ++ ds) := not_mark_append h.2 hstray
    rw [List.cons_append, scan_code hquote hline hopens hcloses, ih h.tail, bind_map_keep]
  | case7 line c cs ih => rw [List.cons_append, scan_in_string, ih h.tail, bind_map_keep]
  | case8 line cs ih => rw [List.cons_append, scan_line_end, ih h.tail, bind_map_keep]
  | case9 line c cs hc ih => rw [List.cons_append, scan_in_line hc, ih h.tail]
  | case10 opened line cs ih =>
    rw [List.cons_append, List.cons_append, scan_block_end, ih h.tail.tail]
  | case11 opened line cs hend ih =>
    have hopen : ¬ ['|', '#'] <+: '\n' :: (cs ++ ds) := not_mark_append h.2 hend
    rw [List.cons_append, scan_in_block hopen, if_pos rfl, ih h.tail, bind_map_keep]
  | case12 opened line c cs hend hc ih =>
    have hopen : ¬ ['|', '#'] <+: c :: (cs ++ ds) := not_mark_append h.2 hend
    rw [List.cons_append, scan_in_block hopen, if_neg hc, ih h.tail]

/-- The number of the line goes up with each end of a line. -/
theorem nextLine_add_count :
    nextLine line c + cs.count '\n' = line + (c :: cs).count '\n' := by
  unfold nextLine
  split
  · next hc =>
    rw [hc, List.count_cons_self]
    omega
  · next hc => rw [List.count_cons_of_ne hc]

/-! ## Strings and comments as a whole -/

/-- A string is kept up to its end, and the scan goes on behind it. -/
theorem scan_string_append (h : '"' ∉ body) :
    scan .string line (body ++ '"' :: ds) =
      (scan .code (line + body.count '\n') ds).map (body ++ '"' :: ·) := by
  induction body generalizing line with
  | nil => rfl
  | cons c body ih =>
    rw [List.mem_cons, not_or] at h
    rw [List.cons_append, scan_in_string, if_neg (Ne.symm h.1), ih h.2, map_map, nextLine_add_count]
    rfl

/-- A string without an end is kept as it is. -/
theorem scan_string (h : '"' ∉ cs) : scan .string line cs = .ok cs := by
  induction cs generalizing line with
  | nil => rfl
  | cons c cs ih =>
    rw [List.mem_cons, not_or] at h
    rw [scan_in_string, if_neg (Ne.symm h.1), ih h.2]
    rfl

/-- A line comment on the last line is left out. -/
theorem scan_open_line (h : '\n' ∉ body) : scan .line line body = .ok [] := by
  induction body with
  | nil => rfl
  | cons c body ih =>
    rw [List.mem_cons, not_or] at h
    rw [scan_in_line (Ne.symm h.1), ih h.2]

/-- A line comment ends with its line, and the line end stays. -/
theorem scan_line_comment (h : '\n' ∉ body) :
    scan .line line (body ++ '\n' :: ds) = (scan .code (line + 1) ds).map ('\n' :: ·) := by
  induction body with
  | nil => rfl
  | cons c body ih =>
    rw [List.mem_cons, not_or] at h
    rw [List.cons_append, scan_in_line (Ne.symm h.1), ih h.2]

/-- A block comment ends with the first mark that ends block comments, and its line ends stay. -/
theorem scan_block_comment (h : ¬ ['|', '#'] <:+: body) :
    scan (.block opened) line (body ++ '|' :: '#' :: ds) =
      (scan .code (line + body.count '\n') ds).map (body.filter (· == '\n') ++ ·) := by
  induction body generalizing line with
  | nil =>
    rw [List.nil_append, scan_block_end]
    show _ = (scan .code line ds).map fun k => k
    cases scan .code line ds <;> rfl
  | cons c body ih =>
    have hrest : ¬ ['|', '#'] <:+: body := fun hmark => h (List.infix_cons hmark)
    -- the mark behind the body does not begin inside it
    have hend : ¬ ['|', '#'] <+: c :: (body ++ '|' :: '#' :: ds) := by
      rintro ⟨es, hes⟩
      obtain ⟨rfl, htail⟩ := List.cons.inj hes
      cases body with
      | nil => simp at htail
      | cons d body =>
        obtain ⟨rfl, -⟩ := List.cons.inj htail
        exact h ⟨[], body, rfl⟩
    rw [List.cons_append, scan_in_block hend]
    by_cases hc : c = '\n'
    · subst hc
      have hlines : line + 1 + body.count '\n' = line + ('\n' :: body).count '\n' := by
        rw [List.count_cons_self]
        omega
      rw [if_pos rfl, ih hrest, map_map, hlines]
      rfl
    · have hfilter : (c :: body).filter (· == '\n') = body.filter (· == '\n') :=
        List.filter_cons_of_neg (by rwa [beq_iff_eq])
      rw [if_neg hc, ih hrest, List.count_cons_of_ne hc, hfilter]

/-- A block comment without an end is an error. -/
theorem scan_open_block (h : ¬ ['|', '#'] <:+: body) :
    scan (.block opened) line body = .error (.openComment opened) := by
  induction body generalizing line with
  | nil => rfl
  | cons c body ih =>
    have hrest : ¬ ['|', '#'] <:+: body := fun hmark => h (List.infix_cons hmark)
    have hend : ¬ ['|', '#'] <+: c :: body := fun hmark => h hmark.isInfix
    rw [scan_in_block hend]
    split
    · rw [ih hrest]
      rfl
    · exact ih hrest

/-! ## Numbers of lines -/

/-- The mode with another number for the line on which its block comment was opened. -/
def Mode.openedOn (n : Nat) : Mode → Mode
  | .block _ => .block n
  | m => m

/-- What a scan keeps does not depend on the numbers of the lines. -/
theorem scan_numbered (h : scan m line cs = .ok kept) (n line' : Nat) :
    scan (m.openedOn n) line' cs = .ok kept := by
  fun_induction scan m line cs generalizing kept n line' with
  | case1 => simp at h
  | case2 line m hm =>
    cases m with
    | block opened => exact absurd rfl (hm opened)
    | _ => exact h
  | case3 line cs ih => exact ih h n line'
  | case4 line cs ih =>
    obtain ⟨k, hk, rfl⟩ := map_eq_ok.1 h
    exact map_eq_ok.2 ⟨k, ih hk line' line', rfl⟩
  | case5 => simp at h
  | case6 line cs ih =>
    obtain ⟨k, hk, rfl⟩ := map_eq_ok.1 h
    exact map_eq_ok.2 ⟨k, ih hk n line', rfl⟩
  | case7 line c cs hline hblock hstray hquote ih =>
    obtain ⟨k, hk, rfl⟩ := map_eq_ok.1 h
    show scan .code line' _ = _
    rw [scan_code hquote hline (not_mark hblock) (not_mark hstray)]
    exact map_eq_ok.2 ⟨k, ih hk n _, rfl⟩
  | case8 line c cs ih =>
    obtain ⟨k, hk, rfl⟩ := map_eq_ok.1 h
    have hmode : (if c = '"' then Mode.code else .string).openedOn n =
        if c = '"' then .code else .string := by
      split <;> rfl
    have hrest := ih hk n (nextLine line' c)
    rw [hmode] at hrest
    exact map_eq_ok.2 ⟨k, hrest, rfl⟩
  | case9 line cs ih =>
    obtain ⟨k, hk, rfl⟩ := map_eq_ok.1 h
    exact map_eq_ok.2 ⟨k, ih hk n _, rfl⟩
  | case10 line c cs hc ih =>
    show scan .line line' _ = _
    rw [scan_in_line hc]
    exact ih h n line'
  | case11 opened line cs ih => exact ih h n line'
  | case12 opened line cs hend ih =>
    obtain ⟨k, hk, rfl⟩ := map_eq_ok.1 h
    show scan (.block n) line' _ = _
    rw [scan_in_block (not_mark hend), if_pos rfl]
    exact map_eq_ok.2 ⟨k, ih hk n _, rfl⟩
  | case13 opened line c cs hend hc ih =>
    show scan (.block n) line' _ = _
    rw [scan_in_block (not_mark hend), if_neg hc]
    exact ih h n line'

/-! ## Quotes -/

/-- The number of quotes of which the second is still to come. -/
def Mode.quotes : Mode → Nat
  | .string => 1
  | _ => 0

theorem count_keep_of_ne (hc : c ≠ '"') : (s.keep c).kept.count '"' = s.kept.count '"' :=
  List.count_cons_of_ne hc

/-- The quotes that a scan keeps come in pairs, except for the one that begins a string in which
the piece ends, and the one that ends the string in which it began. -/
theorem quotes_of_scanTo (h : scanTo m line cs = .ok s) :
    (m.quotes + s.kept.count '"') % 2 = s.mode.quotes := by
  fun_induction scanTo m line cs generalizing s with
  | case1 m line =>
    obtain rfl := Except.ok.inj h
    show (m.quotes + 0) % 2 = m.quotes
    cases m <;> rfl
  | case2 line cs ih => exact ih h
  | case3 line cs ih =>
    obtain ⟨t, ht, rfl⟩ := map_eq_ok.1 h
    rw [count_keep_of_ne (by decide)]
    exact ih ht
  | case4 => simp at h
  | case5 line cs ih =>
    obtain ⟨t, ht, rfl⟩ := map_eq_ok.1 h
    have hrest : (1 + t.kept.count '"') % 2 = t.mode.quotes := ih ht
    have hcount : (t.keep '"').kept.count '"' = t.kept.count '"' + 1 := List.count_cons_self
    rw [hcount]
    show (0 + (t.kept.count '"' + 1)) % 2 = t.mode.quotes
    omega
  | case6 line c cs hline hblock hstray hquote ih =>
    obtain ⟨t, ht, rfl⟩ := map_eq_ok.1 h
    rw [count_keep_of_ne hquote]
    exact ih ht
  | case7 line c cs ih =>
    obtain ⟨t, ht, rfl⟩ := map_eq_ok.1 h
    have hrest := ih ht
    by_cases hc : c = '"'
    · -- the string ends here
      subst hc
      have hcount : (t.keep '"').kept.count '"' = t.kept.count '"' + 1 := List.count_cons_self
      rw [if_pos rfl] at hrest
      change (0 + t.kept.count '"') % 2 = t.mode.quotes at hrest
      rw [hcount]
      show (1 + (t.kept.count '"' + 1)) % 2 = t.mode.quotes
      omega
    · rw [if_neg hc] at hrest
      rw [count_keep_of_ne hc]
      exact hrest
  | case8 line cs ih =>
    obtain ⟨t, ht, rfl⟩ := map_eq_ok.1 h
    rw [count_keep_of_ne (by decide)]
    exact ih ht
  | case9 line c cs hc ih => exact ih h
  | case10 opened line cs ih => exact ih h
  | case11 opened line cs hend ih =>
    obtain ⟨t, ht, rfl⟩ := map_eq_ok.1 h
    rw [count_keep_of_ne (by decide)]
    exact ih ht
  | case12 opened line c cs hend hc ih => exact ih h

/-- Outside of strings there are two of every quote. -/
theorem count_quote_of_code (h : scanTo .code line cs = .ok s) (hcode : s.mode = .code) :
    s.kept.count '"' % 2 = 0 := by
  have hparity : (0 + s.kept.count '"') % 2 = s.mode.quotes := quotes_of_scanTo h
  rwa [hcode, Nat.zero_add] at hparity

/-! ## Semicolons -/

/-- With another character than a semicolon in front there is a quote for a semicolon if there was
one without it. -/
theorem quote_mem_of_map_cons {r : Except LexicalError (List Char)} (hc : c ≠ ';')
    (h : r.map (c :: ·) = .ok kept) (hmem : ';' ∈ kept)
    (hr : ∀ {k}, r = .ok k → ';' ∈ k → '"' ∈ k) : '"' ∈ kept := by
  obtain ⟨k, hk, rfl⟩ := map_eq_ok.1 h
  have hrest : ';' ∈ k := (List.mem_cons.1 hmem).resolve_left (Ne.symm hc)
  exact List.mem_cons_of_mem c (hr hk hrest)

/-- A semicolon is kept in strings only, so a quote is kept as well. -/
theorem quote_mem_of_semicolon_mem (h : scan m line cs = .ok kept) (hm : m ≠ .string)
    (hmem : ';' ∈ kept) : '"' ∈ kept := by
  fun_induction scan m line cs generalizing kept with
  | case1 => simp at h
  | case2 =>
    obtain rfl := Except.ok.inj h
    simp at hmem
  | case3 line cs ih => exact ih h (by simp) hmem
  | case4 line cs ih =>
    exact quote_mem_of_map_cons (by decide) h hmem fun hk => ih hk (by simp)
  | case5 => simp at h
  | case6 line cs ih =>
    obtain ⟨k, -, rfl⟩ := map_eq_ok.1 h
    exact List.mem_cons_self
  | case7 line c cs hline hblock hstray hquote ih =>
    exact quote_mem_of_map_cons hline h hmem fun hk => ih hk (by simp)
  | case8 => exact absurd rfl hm
  | case9 line cs ih =>
    exact quote_mem_of_map_cons (by decide) h hmem fun hk => ih hk (by simp)
  | case10 line c cs hc ih => exact ih h (by simp) hmem
  | case11 opened line cs ih => exact ih h (by simp) hmem
  | case12 opened line cs hend ih =>
    exact quote_mem_of_map_cons (by decide) h hmem fun hk => ih hk (by simp)
  | case13 opened line c cs hend hc ih => exact ih h (by simp) hmem

/-- A single character is no comment unless it is a semicolon. -/
theorem scan_singleton (hc : c ≠ ';') : scan .code line [c] = .ok [c] := by
  by_cases hquote : c = '"'
  · subst hquote
    rfl
  · rw [scan_code hquote hc (by simp) (by simp)]
    rfl

/-! ## Texts below one another -/

/-- A text that is scanned to its end without an error ends outside of block comments. -/
theorem exists_scanTo (h : scan .code 1 cs = .ok kept) :
    ∃ s, scanTo .code 1 cs = .ok s ∧ s.kept = kept ∧ ∀ opened, s.mode ≠ .block opened := by
  have happend : scan .code 1 (cs ++ []) = _ := scan_append ⟨by simp, by simp⟩
  rw [List.append_nil, h] at happend
  obtain ⟨s, hs, hrest⟩ := bind_eq_ok.1 happend.symm
  obtain ⟨rest, hend, hkept⟩ := map_eq_ok.1 hrest
  have hmode : ∀ opened, s.mode ≠ .block opened := by
    intro opened hopened
    rw [hopened, scan_block_nil] at hend
    simp at hend
  rw [scan_nil hmode] at hend
  obtain rfl := Except.ok.inj hend
  rw [List.append_nil] at hkept
  exact ⟨s, hs, hkept, hmode⟩

/-- Below a text that does not end inside a string another one is scanned as if it stood alone. -/
theorem scan_below {kept' : List Char} (hcs : scan .code 1 cs = .ok kept)
    (hquotes : kept.count '"' % 2 = 0) (hds : scan .code 1 ds = .ok kept') :
    scan .code 1 (cs ++ '\n' :: ds) = .ok (kept ++ '\n' :: kept') := by
  obtain ⟨s, hs, rfl, hblock⟩ := exists_scanTo hcs
  have hmode : s.mode = .code ∨ s.mode = .line := by
    have hparity : (0 + s.kept.count '"') % 2 = s.mode.quotes := quotes_of_scanTo hs
    cases hm : s.mode with
    | code => exact .inl rfl
    | line => exact .inr rfl
    | block opened => exact absurd hm (hblock opened)
    | string =>
      rw [hm, Nat.zero_add, hquotes] at hparity
      exact absurd hparity (by decide)
  -- the line end is kept in both modes, and the second text begins on the line behind it
  have hrest : scan s.mode s.line ('\n' :: ds) = .ok ('\n' :: kept') := by
    have hnumbered : scan .code (s.line + 1) ds = .ok kept' := scan_numbered hds 0 _
    rcases hmode with hm | hm
    · rw [hm]
      exact map_eq_ok.2 ⟨kept', hnumbered, rfl⟩
    · rw [hm]
      exact map_eq_ok.2 ⟨kept', hnumbered, rfl⟩
  rw [scan_append ⟨by simp, by simp⟩, hs]
  exact map_eq_ok.2 ⟨_, hrest, rfl⟩

/-! ## Texts without comments -/

/-- A scan keeps the text as it is. -/
def Uncommented (cs : List Char) : Prop := ∀ line, scan .code line cs = .ok cs

theorem uncommented_nil : Uncommented [] := fun _ => rfl

/-- A plain character in front begins no comment. -/
theorem Uncommented.cons (hc : Vocabulary.Plain c) (h : Uncommented cs) :
    Uncommented (c :: cs) := by
  intro line
  rw [scan_plain hc]
  exact map_eq_ok.2 ⟨cs, h _, rfl⟩

/-- Plain characters in front begin no comment. -/
theorem Uncommented.append (h : Uncommented ds) (hcs : ∀ c ∈ cs, Vocabulary.Plain c) :
    Uncommented (cs ++ ds) := by
  induction cs with
  | nil => exact h
  | cons c cs ih =>
    rw [List.forall_mem_cons] at hcs
    exact (ih hcs.2).cons hcs.1

/-- Nothing in a string is a mark. -/
theorem Uncommented.string_append (h : Uncommented ds) (hcs : '"' ∉ cs) (line : Nat) :
    scan .string line (cs ++ '"' :: ds) = .ok (cs ++ '"' :: ds) := by
  rw [scan_string_append hcs, h]
  rfl

/-- A text that is written with tokens has no comments. -/
theorem uncommented_of_written {ts : List Token} (h : Token.Written cs ts) : Uncommented cs := by
  induction h with
  | nil => exact uncommented_nil
  | blank hc _ ih => exact ih.cons (Vocabulary.plain_of_isBlank hc)
  | token ha _ _ ih =>
    rcases Token.string_or_plain_of_isLexeme ha with ⟨body, rfl, hbody⟩ | hplain
    · intro line
      rw [List.cons_append, List.append_assoc]
      exact map_eq_ok.2 ⟨_, ih.string_append hbody line, rfl⟩
    · exact ih.append hplain

end PairLisp.Comment
