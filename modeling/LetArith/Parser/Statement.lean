import LetArith.Parser.Expression

/-!
Reading statements. A statement that fails with a report is given up as far as its semicolon; one
that fails in silence gives up a single token, and what follows is read afresh. Either way the
window moves on (`pending_statement_lt`), so `program` reaches the end of the text.
-/

namespace LetArith.Parser

theorem pending_advance_lt_of_not_atBoundary {s : Parser} (h : ¬s.atBoundary = true) :
    s.advance.pending < s.pending := by
  have moved := s.pending_advance_le
  have positive : 0 < s.pending := pending_pos_of_current fun last => h (by simp [atBoundary, last])
  omega

def skip (s : Parser) : Parser :=
  if s.atBoundary = true then s else s.advance.skip
termination_by s.pending
decreasing_by exact pending_advance_lt_of_not_atBoundary ‹_›

def reportIllegal (s : Parser) : Parser :=
  if s.current.kind = .illegal then s.report (.illegalCharacter s.current.literal) else s

@[simp] theorem pending_reportIllegal (s : Parser) : s.reportIllegal.pending = s.pending := by
  unfold reportIllegal
  split <;> simp

def skipTail (s : Parser) : Parser :=
  if s.atBoundary = true then s else s.reportIllegal.advance.skipTail
termination_by s.pending
decreasing_by
  have moved := s.reportIllegal.pending_advance_le
  have step := pending_advance_lt_of_not_atBoundary ‹_›
  rw [pending_reportIllegal] at moved
  omega

theorem pending_skip_le (s : Parser) : s.skip.pending ≤ s.pending := by
  fun_induction skip s with
  | case1 => exact Nat.le_refl _
  | case2 s _ ih => exact Nat.le_trans ih s.pending_advance_le_pending

theorem pending_skipTail_le (s : Parser) : s.skipTail.pending ≤ s.pending := by
  fun_induction skipTail s with
  | case1 => exact Nat.le_refl _
  | case2 s _ ih =>
    have moved := s.reportIllegal.pending_advance_le_pending
    rw [pending_reportIllegal] at moved
    exact Nat.le_trans ih moved

/-- Reads the value of a binding. A value that is missing without a report is reported here, so a
binding never fails in silence. -/
def bindingValue (s : Parser) : Option Expr × Parser :=
  match s.expression .lowest with
  | (some value, t) => (some value, t.skipTail)
  | (none, t) =>
    (none, if t.diagnostics.length = s.diagnostics.length then
      t.report (.missingExpression t.current.kind) else t)

/-- Takes the current token as the keyword of a binding, and ends on the semicolon after it or at
the end of the text. What stands between the value and the semicolon is discarded. -/
def letBinding (s : Parser) : Option Statement × Parser :=
  match s.expectPeek .identifier with
  | (false, t) => (none, t)
  | (true, named) =>
    match named.expectPeek .assign with
    | (false, t) => (none, t)
    | (true, assigned) =>
      let value := assigned.advance.bindingValue
      let name : Name := ⟨named.current, named.current.literal⟩
      (value.1.map (.letBinding s.current name), value.2)

def expressionStatement (s : Parser) : Option Statement × Parser :=
  let value := s.expression .lowest
  (value.1.map (.expression s.current), value.2)

def statementBody (s : Parser) : Option Statement × Parser :=
  match s.rules.statement s.current.kind with
  | some .letBinding => s.letBinding
  | some .expression | none => s.expressionStatement

def recover (reported : Bool) (s : Parser) : Parser :=
  if reported then s.skip else s

def statement (s : Parser) : Option Statement × Parser :=
  let body := s.statementBody
  let reported := s.diagnostics.length < body.2.diagnostics.length
  (body.1, (body.2.recover (body.1.isNone && reported)).advance)

theorem pending_bindingValue_le (s : Parser) : s.bindingValue.2.pending ≤ s.pending := by
  have read := s.pending_expression_le .lowest
  unfold bindingValue
  split
  next value t equation =>
    rw [equation] at read
    exact Nat.le_trans t.pending_skipTail_le read
  next t equation =>
    rw [equation] at read
    split
    · exact read
    · exact read

theorem pending_letBinding_le (s : Parser) : s.letBinding.2.pending ≤ s.pending := by
  have first := s.pending_expectPeek_le .identifier
  unfold letBinding
  split
  next t equation =>
    rw [equation] at first
    exact first
  next named equation =>
    rw [equation] at first
    have second := named.pending_expectPeek_le .assign
    split
    next t equation =>
      rw [equation] at second
      exact Nat.le_trans second first
    next assigned equation =>
      rw [equation] at second
      have third := assigned.advance.pending_bindingValue_le
      have moved := assigned.pending_advance_le_pending
      exact Nat.le_trans third (Nat.le_trans moved (Nat.le_trans second first))

theorem pending_statementBody_le (s : Parser) : s.statementBody.2.pending ≤ s.pending := by
  unfold statementBody
  split
  · exact s.pending_letBinding_le
  · exact s.pending_expression_le .lowest
  · exact s.pending_expression_le .lowest

theorem pending_recover_le (reported : Bool) (s : Parser) :
    (s.recover reported).pending ≤ s.pending := by
  unfold recover
  split
  · exact s.pending_skip_le
  · exact Nat.le_refl _

theorem pending_statement_lt {s : Parser} (h : s.current.kind ≠ .endOfInput) :
    s.statement.2.pending < s.pending := by
  have positive := pending_pos_of_current h
  have body := s.pending_statementBody_le
  have recovered := s.statementBody.2.pending_recover_le (s.statementBody.1.isNone &&
    s.diagnostics.length < s.statementBody.2.diagnostics.length)
  exact Nat.lt_of_le_of_lt (pending_advance_le _) (by omega)

def program (s : Parser) : Program × Parser :=
  if s.current.kind = .endOfInput then ([], s)
  else
    let first := s.statement
    let others := first.2.program
    (first.1.toList ++ others.1, others.2)
termination_by s.pending
decreasing_by exact pending_statement_lt ‹_›

end LetArith.Parser

namespace LetArith

def parse (source : String) (limit : Nat) : Program × Parser :=
  (Parser.ofSource source limit).program

end LetArith
