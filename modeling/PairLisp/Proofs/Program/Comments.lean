import Mathlib.Control.Monad.Basic
import PairLisp.Proofs.Program.Session
import PairLisp.Proofs.Program.Tokens
import PairLisp.Proofs.Token.Border

/-!
# Comments in programs

A program with a comment in it is run like the one with a blank in the place of the comment
(`Program.run_comment`): a space for a block comment, the end of the line for a line comment.

A scan takes a comment as a whole (`Comment.scan_block_comment`, `Comment.scan_line_comment`). Of a
block comment the line ends stay, so there may be more blanks in its place than one, which makes no
difference to the tokens, as the comment does not stand in a string
(`Token.Reads.append_blanks`).
-/

namespace PairLisp

/-! ## Scanning behind the beginning -/

namespace Comment

variable {cs ds : List Char} {s : Scanned}

/-- A text is scanned from where the scan of what stands in front of it has ended, if no mark goes
over the border. -/
theorem scan_behind (hcs : scanTo .code 1 cs = .ok s) (hcode : s.mode = .code)
    (hlast : cs.getLast? ≠ some '|') (hds : ds.head? ≠ some '|') :
    scan .code 1 (cs ++ ds) = (scan .code s.line ds).map (s.kept ++ ·) := by
  rw [scan_append ⟨fun h => hds h.2, fun h => hlast h.1⟩, hcs, ← hcode]
  rfl

end Comment

/-! ## Blanks for a comment -/

namespace Token

variable {cs ds blanks : List Char} {ts : List Token}

/-- Behind a blank that stands in no string there may be more of them. -/
theorem Reads.append_blanks (hquotes : cs.count '"' % 2 = 0)
    (hblanks : ∀ c ∈ blanks, Text.isBlank c = true) (h : Reads (cs ++ ' ' :: ds) ts) :
    Reads (cs ++ ' ' :: (blanks ++ ds)) ts := by
  have hspace : Text.isBlank ' ' = true := by decide
  rcases h with hwritten | ⟨c, honly, hlexeme, rfl⟩
  · obtain ⟨us, ws, rfl, hus, hws⟩ := hwritten.cut (solitary_of_isBlank hspace) hquotes
    rw [written_blank_iff hspace] at hws
    exact .inl (hus.append hspace ((written_blanks_append hblanks).2 hws))
  · refine .inr ⟨c, ?_, hlexeme, rfl⟩
    rw [List.filter_append] at honly ⊢
    rw [← honly]
    congr 1
    rw [← List.singleton_append, ← List.singleton_append, List.filter_append, List.filter_append,
      List.filter_append, Text.filter_not_isBlank hblanks]
    rfl

end Token

/-! ## Programs with comments -/

namespace Program

open Comment

variable {front back body : String} {s : Scanned} {ts : List Token}

/-- A block comment behind the beginning of a program stands for a space. -/
theorem tokens_block_comment (hfront : scanTo .code 1 front.toList = .ok s)
    (hcode : s.mode = .code) (hlast : front.toList.getLast? ≠ some '|')
    (hbody : ¬ ['|', '#'] <:+: body.toList) (h : tokens (front ++ " " ++ back) = .ok ts) :
    tokens (front ++ "#|" ++ body ++ "|#" ++ back) = .ok ts := by
  have hspace : (front ++ " " ++ back).toList = front.toList ++ ' ' :: back.toList := by simp
  have hcomment : (front ++ "#|" ++ body ++ "|#" ++ back).toList =
      front.toList ++ '#' :: '|' :: (body.toList ++ '|' :: '#' :: back.toList) := by simp
  obtain ⟨kept, hkept, hreads⟩ := tokens_eq_ok_iff_reads.1 h
  rw [hspace, scan_behind hfront hcode hlast (by simp)] at hkept
  obtain ⟨_, hback, rfl⟩ := map_eq_ok.1 hkept
  obtain ⟨rest, hrest, rfl⟩ := map_eq_ok.1 hback
  have hlines : ∀ c ∈ body.toList.filter (· == '\n'), Text.isBlank c = true := by
    intro c hc
    rw [beq_iff_eq.1 (List.mem_filter.1 hc).2]
    decide
  have hquotes := count_quote_of_code hfront hcode
  refine tokens_eq_ok_iff_reads.2 ⟨_, ?_, hreads.append_blanks hquotes hlines⟩
  have hrest' : scan .code (s.line + body.toList.count '\n') back.toList = .ok rest :=
    scan_numbered hrest 0 _
  rw [hcomment, scan_behind hfront hcode hlast (by simp), scan_block_start,
    scan_block_comment hbody, hrest']
  rfl

/-- A line comment behind the beginning of a program stands for nothing. -/
theorem tokens_line_comment (hfront : scanTo .code 1 front.toList = .ok s)
    (hcode : s.mode = .code) (hlast : front.toList.getLast? ≠ some '|')
    (hbody : '\n' ∉ body.toList) (back : String) :
    tokens (front ++ ";" ++ body ++ "\n" ++ back) = tokens (front ++ "\n" ++ back) := by
  have hline : (front ++ "\n" ++ back).toList = front.toList ++ '\n' :: back.toList := by simp
  have hcomment : (front ++ ";" ++ body ++ "\n" ++ back).toList =
      front.toList ++ ';' :: (body.toList ++ '\n' :: back.toList) := by simp
  have hsame : scan .code s.line (';' :: (body.toList ++ '\n' :: back.toList)) =
      scan .code s.line ('\n' :: back.toList) := scan_line_comment hbody
  unfold tokens strip
  rw [hline, hcomment, scan_behind hfront hcode hlast (by simp),
    scan_behind hfront hcode hlast (by simp), hsame]

/-- A comment behind the beginning of a program, which ends outside of strings and comments, makes
no difference: a block comment stands for a space, and a line comment for nothing in front of the
end of its line. -/
theorem run_comment (hfront : scanTo .code 1 front.toList = .ok s) (hcode : s.mode = .code)
    (hlast : front.toList.getLast? ≠ some '|') (back : String) (env : Env) :
    (∀ body : String, ¬ ['|', '#'] <:+: body.toList →
      (∃ ts, tokens (front ++ " " ++ back) = .ok ts) →
      run env (front ++ "#|" ++ body ++ "|#" ++ back) = run env (front ++ " " ++ back)) ∧
    ∀ body : String, '\n' ∉ body.toList →
      (∃ ts, tokens (front ++ "\n" ++ back) = .ok ts) →
      run env (front ++ ";" ++ body ++ "\n" ++ back) = run env (front ++ "\n" ++ back) := by
  constructor
  · rintro body hbody ⟨ts, h⟩
    have hblock := tokens_block_comment hfront hcode hlast hbody h
    rw [run_of_tokens hblock, run_of_tokens h]
  · rintro body hbody ⟨ts, h⟩
    have hline := (tokens_line_comment hfront hcode hlast hbody back).trans h
    rw [run_of_tokens hline, run_of_tokens h]

/-- A block comment over two lines and a line comment, with quotes and marks in them, between an
operation and its arguments. -/
theorem run_comment_marks :
    let front := "(defun f (x) x) [f"
    let back := "\"#|\")"
    let block := "#| \" |\n; "
    let line := " |# \" ("
    let ts : List Token := ["(", "defun", "f", "(", "x", ")", "x", ")", "[", "f", "\"#|\"", ")"]
    scanTo .code 1 front.toList = .ok { kept := front.toList, mode := .code, line := 1 } ∧
      front.toList.getLast? ≠ some '|' ∧ ¬ ['|', '#'] <:+: block.toList ∧
      '\n' ∉ line.toList ∧ tokens (front ++ " " ++ back) = .ok ts ∧
      tokens (front ++ "\n" ++ back) = .ok ts ∧
      run ∅ (front ++ "#|" ++ block ++ "|#" ++ back) = run ∅ (front ++ " " ++ back) ∧
      run ∅ (front ++ ";" ++ line ++ "\n" ++ back) = run ∅ (front ++ "\n" ++ back) := by
  intro front back block line ts
  have hblock : ¬ ['|', '#'] <:+: block.toList := by decide +kernel
  have hline : '\n' ∉ line.toList := by decide +kernel
  have hfront : scanTo .code 1 front.toList =
      .ok { kept := front.toList, mode := .code, line := 1 } := by decide +kernel
  have hlast : front.toList.getLast? ≠ some '|' := by decide +kernel
  have hspace : tokens (front ++ " " ++ back) = .ok ts := by decide +kernel
  have hend : tokens (front ++ "\n" ++ back) = .ok ts := by decide +kernel
  have hrun := run_comment hfront rfl hlast back ∅
  exact ⟨hfront, hlast, hblock, hline, hspace, hend, hrun.1 block hblock ⟨ts, hspace⟩,
    hrun.2 line hline ⟨ts, hend⟩⟩

end Program

end PairLisp
