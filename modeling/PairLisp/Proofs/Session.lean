import PairLisp.Session
import PairLisp.Proofs.Program.Account
import PairLisp.Proofs.SExpr.Dotted

/-!
# When a session runs its input

A session waits for more lines as long as its text opens more brackets than it closes. This balance
of brackets (`Session.balance`) is made up of those of the statements: a clause that is never closed
has a positive one, a closing bracket that closes nothing has the balance -1, and all other
statements have none (`Statement.Shape.surplus_pos_iff`). So the text has an open clause if its
balance is positive. The converse is true as far as no closing brackets are strays: each of them
takes a bracket off the balance that is still to be closed (`Session.exists_isOpen_iff`).

Each program that a session runs (`Session.programs`) runs in the environment that the ones before
it have left (`Session.env_of_programs`). None has a positive balance, so an outcome about an open
clause can only come behind a stray bracket (`Session.openClause_iff`).
-/

namespace PairLisp

open Vocabulary

variable {t : Token} {ts us : List Token}

namespace Session

/-! ## The balance of brackets -/

theorem balance_open (ho : standard.isOpenToken t = true) :
    balance (t :: ts) = balance ts + 1 := by
  rw [balance, if_pos ho]

theorem balance_close (hc : standard.isCloseToken t = true) :
    balance (t :: ts) = balance ts - 1 := by
  have ho := separated_standard.not_open_of_close hc
  rw [balance, if_neg (by rw [ho]; exact Bool.false_ne_true), if_pos hc]

theorem balance_other (ho : standard.isOpenToken t = false)
    (hc : standard.isCloseToken t = false) : balance (t :: ts) = balance ts := by
  rw [balance, if_neg (by rw [ho]; exact Bool.false_ne_true),
    if_neg (by rw [hc]; exact Bool.false_ne_true)]

/-- The balances of two rows of tokens add up. -/
theorem balance_append (ts us : List Token) : balance (ts ++ us) = balance ts + balance us := by
  induction ts with
  | nil => exact (Int.zero_add _).symm
  | cons t ts ih =>
    rw [List.cons_append, balance, balance, ih]
    split
    · omega
    · split <;> omega

theorem balance_of_balanced (h : Clause.Balanced standard ts) : balance ts = 0 := by
  induction h with
  | nil => rfl
  | token ho hc _ ih => rw [balance_other ho hc, ih]
  | clause ho hc _ _ ihbody ih =>
    rw [balance_open ho, balance_append, balance_close hc, ihbody, ih]
    rfl

/-- A closed clause is in balance. -/
theorem balance_of_closed (h : Clause.Closed standard ts) : balance ts = 0 := by
  obtain ⟨opening, body, closing, rfl, ho, hc, hbody⟩ := h
  rw [List.cons_append, balance_open ho, balance_append, balance_close hc,
    balance_of_balanced hbody]
  rfl

/-- A search that does not come to the end of the clauses that stand open passes fewer closing than
opening brackets, those of the open clauses included. -/
theorem balance_of_closing?_eq_none {depth : Nat} (hdepth : 0 < depth)
    (h : Clause.closing? standard depth ts = none) : 0 < depth + balance ts := by
  -- a bracket moves the depth and the balance of what is left in opposite directions
  induction ts generalizing depth with
  | nil =>
    rw [balance]
    omega
  | cons t ts ih =>
    obtain ⟨d, rfl⟩ : ∃ d, depth = d + 1 := ⟨depth - 1, by omega⟩
    cases ho : standard.isOpenToken t with
    | true =>
      rw [Clause.closing?_open _ ho, Option.map_eq_none_iff] at h
      have hrest := ih (Nat.succ_pos _) h
      rw [balance_open ho]
      omega
    | false =>
      cases hc : standard.isCloseToken t with
      | true =>
        cases d with
        | zero =>
          -- the search would end here
          simp [Clause.closing?_outermost ho hc] at h
        | succ d =>
          rw [Clause.closing?_close d ho hc, Option.map_eq_none_iff] at h
          have hrest := ih (Nat.succ_pos _) h
          rw [balance_close hc]
          omega
      | false =>
        rw [Clause.closing?_other d ho hc, Option.map_eq_none_iff] at h
        rw [balance_other ho hc]
        exact ih (Nat.succ_pos _) h

end Session

/-! ## Open clauses and stray brackets -/

namespace Statement

variable {s : Statement} {ss : List Statement}

/-- The statement is a closing bracket that closes no clause. -/
def isStrayClosing (s : Statement) : Bool :=
  match s.tokens with
  | [t] => standard.isCloseToken t
  | _ => false

/-- The brackets that are left to close in a statement. -/
def surplus (s : Statement) : Int :=
  Session.balance s.tokens + if s.isStrayClosing then 1 else 0

theorem isStrayClosing_singleton (t : Token) (fault : Option StructuralError) :
    ({ tokens := [t], fault } : Statement).isStrayClosing = standard.isCloseToken t := rfl

theorem isStrayClosing_of_open (ho : standard.isOpenToken t = true)
    (fault : Option StructuralError) :
    ({ tokens := t :: ts, fault } : Statement).isStrayClosing = false := by
  cases ts with
  | nil => exact separated_standard.not_close_of_open ho
  | cons u ts => rfl

theorem surplus_of_not_stray (h : s.isStrayClosing = false) :
    s.surplus = Session.balance s.tokens := by
  unfold surplus
  rw [h]
  exact Int.add_zero _

theorem surplus_of_stray (h : s.isStrayClosing = true) :
    s.surplus = Session.balance s.tokens + 1 := by
  unfold surplus
  rw [h]
  rfl

/-- Brackets are left to close in an open clause, and in no other statement. -/
theorem Shape.surplus_pos_iff (h : s.Shape) : 0 ≤ s.surplus ∧ (s.IsOpen ↔ 0 < s.surplus) := by
  have hnone : ∀ {s : Statement}, (∀ t, s.fault ≠ some (.openClause t)) → s.surplus = 0 →
      0 ≤ s.surplus ∧ (s.IsOpen ↔ 0 < s.surplus) := by
    intro s hfault hsurplus
    rw [hsurplus]
    exact ⟨Int.le_refl 0, iff_of_false (not_isOpen_of_fault hfault) (Int.lt_irrefl 0)⟩
  cases h with
  | @token t ht =>
    obtain ⟨ho, hc, -⟩ := isStructural_eq_false.1 ht
    refine hnone (by simp) ?_
    rw [surplus_of_not_stray ((isStrayClosing_singleton t _).trans hc)]
    exact Session.balance_other ho hc
  | @clause t ts ho h =>
    refine hnone (by simp) ?_
    rw [surplus_of_not_stray (isStrayClosing_of_open ho _)]
    exact Session.balance_of_closed ((Clause.closed_iff separated_standard.opensApart ho).2 h)
  | @unclosed t ts ho h =>
    rw [Clause.closing?_open 0 ho, Option.map_eq_none_iff] at h
    have hpos := Session.balance_of_closing?_eq_none (Nat.succ_pos 0) h
    rw [surplus_of_not_stray (isStrayClosing_of_open ho _), Session.balance_open ho]
    exact ⟨by omega, iff_of_true ⟨t, rfl⟩ (by omega)⟩
  | @stray t ho h =>
    refine hnone (by simp) ?_
    cases hc : standard.isCloseToken t with
    | true =>
      rw [surplus_of_stray ((isStrayClosing_singleton t _).trans hc), Session.balance_close hc]
      rfl
    | false =>
      rw [surplus_of_not_stray ((isStrayClosing_singleton t _).trans hc)]
      exact Session.balance_other ho hc

/-- Among statements there is an open clause if brackets are left to close, those that stray
brackets close not counted. -/
theorem exists_isOpen_iff (h : ∀ s ∈ ss, s.Shape) :
    let left := Session.balance (ss.flatMap tokens) + ss.countP isStrayClosing
    0 ≤ left ∧ ((∃ s ∈ ss, s.IsOpen) ↔ 0 < left) := by
  induction ss with
  | nil => exact ⟨Int.le_refl 0, iff_of_false (by simp) (Int.lt_irrefl 0)⟩
  | cons s ss ih =>
    rw [List.forall_mem_cons] at h
    obtain ⟨hnonneg, hopen⟩ := h.1.surplus_pos_iff
    obtain ⟨hrest, hrestopen⟩ := ih h.2
    -- no statement takes away from what the others leave to close
    have hleft : Session.balance ((s :: ss).flatMap tokens) + (s :: ss).countP isStrayClosing =
        s.surplus + (Session.balance (ss.flatMap tokens) + ss.countP isStrayClosing) := by
      unfold surplus
      rw [List.flatMap_cons, Session.balance_append, List.countP_cons]
      split <;> omega
    rw [hleft, List.exists_mem_cons_iff, hopen, hrestopen]
    dsimp only at hrest ⊢
    omega

/-! ## Outcomes about open clauses -/

/-- Neither the normal form of a statement nor the reader misses the end of a clause. -/
theorem Shape.fault_of_expression (h : s.Shape)
    (hx : s.expression = .error (.openClause t)) : s.fault = some (.openClause t) := by
  unfold expression at hx
  cases hfault : s.fault with
  | some e =>
    rw [hfault] at hx
    exact congrArg some (Except.error.inj hx)
  | none =>
    rw [hfault] at hx
    have hdotted : (Clause.dotted s.tokens >>= SExpr.ofTokens) = .error (.openClause t) := hx
    rcases bind_eq_error.1 hdotted with herror | ⟨ts, -, hread⟩
    · exact absurd (h.fails_dotted hfault _ herror) (by simp [Clause.faults])
    · exact absurd hread (SExpr.read_ne_openClause _ _ _ t)

/-- A statement has an outcome about an open clause if and only if it is one. -/
theorem Shape.result_openClause_iff (h : s.Shape) (env : Env) :
    (∃ t, (s.run env).1.result = .error (StructuralError.openClause t)) ↔ s.IsOpen := by
  constructor
  · rintro ⟨t, ht⟩
    cases hx : s.expression with
    | ok x => exact absurd id (not_ofText_of_run hx ht)
    | error e =>
      rw [run_of_expression_error env hx] at ht
      obtain rfl := Error.structural.inj (Except.error.inj ht)
      exact ⟨t, h.fault_of_expression hx⟩
  · rintro ⟨t, ht⟩
    have hx : s.expression = .error (.openClause t) := by
      unfold expression
      rw [ht]
      rfl
    rw [run_of_expression_error env hx]
    exact ⟨t, rfl⟩

end Statement

namespace Program

variable {text : String} {env : Env}

/-- A program has an outcome about an open clause if and only if one of its statements is one. -/
theorem exists_result_openClause_iff (h : tokens text = .ok ts) (env : Env) :
    (∃ o ∈ (run env text).1, ∃ t, o.result = .error (StructuralError.openClause t)) ↔
      ∃ s ∈ Statement.split ts, s.IsOpen := by
  rw [run_of_tokens h]
  constructor
  · rintro ⟨o, ho, hresult⟩
    obtain ⟨k, hk⟩ := List.getElem?_of_mem ho
    rw [getElem?_runStatements] at hk
    obtain ⟨s, hs, rfl⟩ := Option.map_eq_some_iff.1 hk
    have hmem : s ∈ Statement.split ts := List.mem_of_getElem? hs
    exact ⟨s, hmem, ((Statement.shape_of_mem_split hmem).result_openClause_iff _).1 hresult⟩
  · rintro ⟨s, hmem, hopen⟩
    obtain ⟨k, hk⟩ := List.getElem?_of_mem hmem
    let before := (runStatements env ((Statement.split ts).take k)).2
    refine ⟨(s.run before).1, List.mem_of_getElem? (i := k) ?_, ?_⟩
    · rw [getElem?_runStatements, hk]
      rfl
    · exact ((Statement.shape_of_mem_split hmem).result_openClause_iff before).2 hopen

end Program

/-! ## The programs of a session -/

namespace Session

variable {s t : Session} {line text : String} {lines : List String}

/-- Whether a session takes a line for a blank one or for a command. -/
def isCommand (s : Session) (line : String) : Bool :=
  s.pending == "" && ["", ":help", ":env", ":debug", ":quit", ":exit"].contains (Text.trim line)

/-- The program that a session runs when it takes a line, if there is one. -/
def completed (s : Session) (line : String) : Option String :=
  let text := s.pending ++ line ++ "\n"
  if s.isCommand line = true ∨ 0 < openBrackets text then none else some text

theorem feed_of_not_isCommand (h : s.isCommand line = false) : s.feed line = s.submit line := by
  unfold isCommand at h
  unfold feed
  split
  · rfl
  · next hpending =>
    rw [Decidable.not_not.1 hpending] at h
    split
    case h_7 => rfl
    all_goals
      -- a command
      next hline =>
        rw [hline] at h
        exact absurd h (by decide)

/-- The program is run, and its outcomes are what the session prints. -/
theorem feed_of_completed (h : s.completed line = some text) : s.feed line =
    .next { s with env := (Program.run s.env text).2, pending := "" }
      (unlines ((Program.run s.env text).1.map (Outcome.line s.verbose))) := by
  unfold completed at h
  dsimp only at h
  split at h
  · simp at h
  · next hnot =>
    rw [not_or, Bool.not_eq_true] at hnot
    obtain rfl := Option.some.inj h
    rw [feed_of_not_isCommand hnot.1]
    unfold submit
    dsimp only
    rw [if_neg hnot.2]

/-- A command ends the session or leaves the environment as it is. -/
theorem feed_of_isCommand (h : s.isCommand line = true) :
    s.feed line = .quit ∨ ∃ t output, s.feed line = .next t output ∧ t.env = s.env := by
  unfold isCommand at h
  rw [Bool.and_eq_true, beq_iff_eq] at h
  obtain ⟨hpending, hline⟩ := h
  unfold feed
  rw [if_neg (Decidable.not_not.2 hpending)]
  split
  · exact .inr ⟨_, _, rfl, rfl⟩
  · exact .inr ⟨_, _, rfl, rfl⟩
  · exact .inr ⟨_, _, rfl, rfl⟩
  · exact .inr ⟨_, _, rfl, rfl⟩
  · exact .inl rfl
  · exact .inl rfl
  · -- no command is left
    simp_all

/-- Where no program is run the environment stays as it is. -/
theorem env_of_completed_eq_none {output : String} (h : s.completed line = none)
    (hfeed : s.feed line = .next t output) : t.env = s.env := by
  cases hcommand : s.isCommand line with
  | true =>
    rcases feed_of_isCommand hcommand with hquit | ⟨u, _, hnext, henv⟩
    · simp [hquit] at hfeed
    · obtain ⟨rfl, -⟩ := Reply.next.inj (hnext.symm.trans hfeed)
      exact henv
  | false =>
    have hpos : 0 < openBrackets (s.pending ++ line ++ "\n") := by
      unfold completed at h
      simpa [hcommand] using h
    rw [feed_of_not_isCommand hcommand] at hfeed
    unfold submit at hfeed
    dsimp only at hfeed
    rw [if_pos hpos] at hfeed
    obtain ⟨rfl, -⟩ := Reply.next.inj hfeed
    rfl

/-- The programs that a session runs when it takes the given lines, each with the environment in
which it is run. -/
def programs (s : Session) : List String → List (Env × String)
  | [] => []
  | line :: lines =>
    match Text.applyBackspaces line with
    | none => []
    | some line =>
      match s.feed line with
      | .next t _ => ((s.completed line).map (s.env, ·)).toList ++ t.programs lines
      | .quit => []

/-- A session runs no program that opens more brackets than it closes. -/
theorem openBrackets_of_completed (h : s.completed line = some text) : openBrackets text ≤ 0 := by
  unfold completed at h
  dsimp only at h
  split at h
  · simp at h
  · next hnot =>
    rw [← Option.some.inj h]
    exact Int.not_lt.1 fun hpos => hnot (.inr hpos)

/-- What comes of the first of the lines: the session ends, it goes on in the same environment, or it
runs a program and goes on in the environment that this leaves. -/
theorem programs_cons (s : Session) (line : String) (lines : List String) :
    s.programs (line :: lines) = [] ∨ ∃ t : Session,
      (t.env = s.env ∧ s.programs (line :: lines) = t.programs lines) ∨
        ∃ text, openBrackets text ≤ 0 ∧ t.env = (Program.run s.env text).2 ∧
          s.programs (line :: lines) = (s.env, text) :: t.programs lines := by
  rw [programs]
  split
  · exact .inl rfl
  · next line' _ =>
    split
    · next t output hfeed =>
      cases hcompleted : s.completed line' with
      | none => exact .inr ⟨t, .inl ⟨env_of_completed_eq_none hcompleted hfeed, rfl⟩⟩
      | some text =>
        rw [feed_of_completed hcompleted] at hfeed
        obtain ⟨rfl, -⟩ := Reply.next.inj hfeed
        exact .inr ⟨_, .inr ⟨text, openBrackets_of_completed hcompleted, rfl, rfl⟩⟩
    · exact .inl rfl

theorem openBrackets_of_mem_programs {p : Env × String} (h : p ∈ s.programs lines) :
    openBrackets p.2 ≤ 0 := by
  induction lines generalizing s with
  | nil => simp [programs] at h
  | cons line lines ih =>
    obtain hnil | ⟨t, ⟨-, hsame⟩ | ⟨text, hle, -, hrun⟩⟩ := s.programs_cons line lines
    · simp [hnil] at h
    · exact ih (hsame ▸ h)
    · rw [hrun] at h
      rcases List.mem_cons.1 h with rfl | hrest
      · exact hle
      · exact ih hrest

/-- Each program is run in the environment that the ones before it have left. -/
theorem env_of_programs {k : Nat} {p : Env × String} (h : (s.programs lines)[k]? = some p) :
    p.1 = Program.runAll s.env (((s.programs lines).take k).map Prod.snd) := by
  induction lines generalizing s k with
  | nil => simp [programs] at h
  | cons line lines ih =>
    obtain hnil | ⟨t, ⟨henv, hsame⟩ | ⟨text, -, henv, hrun⟩⟩ := s.programs_cons line lines
    · simp [hnil] at h
    · rw [hsame] at h ⊢
      rw [ih h, henv]
    · rw [hrun] at h ⊢
      cases k with
      | zero =>
        obtain rfl : (s.env, text) = p := Option.some.inj h
        rfl
      | succ k =>
        rw [List.getElem?_cons_succ] at h
        rw [ih h, henv]
        rfl

/-! ## Open clauses in sessions -/

/-- The number of closing brackets that are statements of their own. -/
def strayClosings (ts : List Token) : Nat :=
  (Statement.split ts).countP Statement.isStrayClosing

theorem exists_isOpen_iff (h : Program.tokens text = .ok ts) :
    (∃ s ∈ Statement.split ts, s.IsOpen) ↔ 0 < openBrackets text + strayClosings ts := by
  have hleft := Statement.exists_isOpen_iff fun s (hs : s ∈ Statement.split ts) =>
    Statement.shape_of_mem_split hs
  rw [Statement.flatMap_tokens_split] at hleft
  unfold openBrackets strayClosings
  rw [h]
  exact hleft.2

/-- A text has an open clause if it opens more brackets than it closes, those closing brackets not
counted that close nothing. A session does not run a text that opens more brackets than it closes
altogether, so what it runs has an outcome about an open clause only behind a stray bracket. -/
theorem openClause_iff (lines : List String) :
    (∀ text ts, Program.tokens text = .ok ts →
      ((∃ s ∈ Statement.split ts, s.IsOpen) ↔ 0 < openBrackets text + strayClosings ts)) ∧
    ∀ p ∈ programs {} lines, ∀ ts, Program.tokens p.2 = .ok ts →
      openBrackets p.2 ≤ 0 ∧
        ((∃ o ∈ (Program.run p.1 p.2).1, ∃ t,
            o.result = .error (StructuralError.openClause t)) ↔
          0 < openBrackets p.2 + strayClosings ts) := by
  refine ⟨fun text ts h => exists_isOpen_iff h, fun p hp ts h => ⟨?_, ?_⟩⟩
  · exact openBrackets_of_mem_programs hp
  · rw [Program.exists_result_openClause_iff h, exists_isOpen_iff h]

/-- Three lines of a program with brackets in a string and in a comment, and with a stray bracket in
front of a clause that is never closed. -/
theorem openClause_iff_lines :
    let lines := ["(list \"(\"", "; )", ") ] (car"]
    let text := "(list \"(\"\n; )\n) ] (car\n"
    let ts : List Token := ["(", "list", "\"(\"", ")", "]", "(", "car"]
    (∅, text) ∈ programs {} lines ∧ Program.tokens text = .ok ts ∧ openBrackets text ≤ 0 ∧
      strayClosings ts = 1 ∧
      ∃ o ∈ (Program.run ∅ text).1, ∃ t, o.result = .error (StructuralError.openClause t) := by
  intro lines text ts
  have hprograms : (∅, text) ∈ programs {} lines := by decide +kernel
  have htokens : Program.tokens text = .ok ts := by decide +kernel
  have hstray : strayClosings ts = 1 := by decide +kernel
  obtain ⟨hle, hiff⟩ := (openClause_iff lines).2 _ hprograms ts htokens
  exact ⟨hprograms, htokens, hle, hstray, hiff.2 (by decide +kernel)⟩

/-- Behind a stray bracket a clause is still open in a text with as many closing as opening brackets,
and the session runs it. -/
theorem openBrackets_stray :
    let text := ") (\n"
    Program.tokens text = .ok [")", "("] ∧ openBrackets text ≤ 0 ∧
      (∃ s ∈ Statement.split [")", "("], s.IsOpen) ∧ (∅, text) ∈ programs {} [") ("] ∧
      ∃ o ∈ (Program.run ∅ text).1, o.result = .error (StructuralError.openClause "(") := by
  intro text
  have hopen : ({ tokens := ["("], fault := some (.openClause "(") } : Statement) ∈
      Statement.split [")", "("] := by
    decide +kernel
  exact ⟨by decide +kernel, by decide +kernel, ⟨_, hopen, "(", rfl⟩, by decide +kernel,
    by decide +kernel⟩

end Session

end PairLisp
