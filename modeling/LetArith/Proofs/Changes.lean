import LetArith.Proofs.Statements

/-!
Changes to a parser that its readers do not see. A change is made to a state, and it is unseen if the
single steps from there come to the same before it and after it, under rules that agree
(`Rules.Agree`). Then so do the readings of expressions, statements and programs (`Unseen.reads`,
`Unseen.program_eq`). The readings may be limited to those that start and end in certain states, as
long as these take in every state on the way.
-/

namespace LetArith

/-- The rules differ at most on kinds that do not bind as operators, and on whether an expression
statement is one by a rule of its own. -/
structure Rules.Agree (first second : Rules) : Prop where
  operand : ∀ kind, second.operand kind = first.operand kind
  binary : ∀ kind, Precedence.lowest < kind.precedence →
    second.isBinary kind = first.isBinary kind
  binding : ∀ kind, second.statement kind = some .letBinding ↔
    first.statement kind = some .letBinding

theorem Rules.Agree.refl (rules : Rules) : rules.Agree rules :=
  ⟨fun _ => rfl, fun _ _ => rfl, fun _ => Iff.rfl⟩

namespace Parser

variable {change : Parser → Parser} {s t : Parser}

theorem takesOperator_of_agree (agree : s.rules.Agree t.rules) (peek : t.peek = s.peek)
    (p : Precedence) : t.takesOperator p = s.takesOperator p := by
  rw [takesOperator, takesOperator, peek]
  by_cases binds : p < s.peek.kind.precedence
  · rw [agree.binary _ (Nat.lt_of_le_of_lt p.rank.zero_le binds)]
  · simp [binds]

/-! ## Steps -/

structure Commutes (change : Parser → Parser) : Prop where
  advance_eq : ∀ s, (change s).advance = change s.advance
  report_eq : ∀ s diagnostic, (change s).report diagnostic = change (s.report diagnostic)
  enter_eq : ∀ s, (change s).enter = change s.enter
  leave_eq : ∀ s, (change s).leave = change s.leave
  current_eq : ∀ s, (change s).current = s.current
  diagnostics_eq : ∀ s, (change s).diagnostics = s.diagnostics

namespace Commutes

variable (h : Commutes change)
include h

theorem peek_eq (s : Parser) : (change s).peek = s.peek := by
  rw [← advance_current, h.advance_eq, h.current_eq, advance_current]

theorem atBoundary_eq (s : Parser) : (change s).atBoundary = s.atBoundary := by
  rw [atBoundary, atBoundary, h.current_eq]

theorem skip_eq (s : Parser) : (change s).skip = change s.skip := by
  fun_induction Parser.skip s with
  | case1 s boundary => rw [Parser.skip, if_pos (by rwa [h.atBoundary_eq])]
  | case2 s more ih => rw [Parser.skip, if_neg (by rwa [h.atBoundary_eq]), h.advance_eq, ih]

theorem reportIllegal_eq (s : Parser) : (change s).reportIllegal = change s.reportIllegal := by
  rw [Parser.reportIllegal, Parser.reportIllegal, h.current_eq, h.report_eq]
  split <;> rfl

theorem skipTail_eq (s : Parser) : (change s).skipTail = change s.skipTail := by
  fun_induction Parser.skipTail s with
  | case1 s boundary => rw [Parser.skipTail, if_pos (by rwa [h.atBoundary_eq])]
  | case2 s more ih =>
    rw [Parser.skipTail, if_neg (by rwa [h.atBoundary_eq]), h.reportIllegal_eq, h.advance_eq, ih]

theorem recover_eq (reported : Bool) (s : Parser) :
    (change s).recover reported = change (s.recover reported) := by
  cases reported with
  | true => exact h.skip_eq s
  | false => rfl

end Commutes

theorem statementBody_of_rule (rule : s.rules.statement s.current.kind = some .letBinding) :
    s.statementBody = s.letBinding := by
  rw [statementBody, rule]

theorem statementBody_of_no_rule (rule : s.rules.statement s.current.kind ≠ some .letBinding) :
    s.statementBody = s.expressionStatement := by
  unfold statementBody
  split
  next binding => exact absurd binding rule
  all_goals rfl

/-- A change that is not seen on the way from a state in `start` to one in `finish`: the rules agree,
and there is as much room as before, or more where a refusal would not come to `finish`. -/
structure Unseen (change : Parser → Parser) (start finish : Parser → Prop) : Prop
    extends Commutes change where
  agree : ∀ s, start s → s.rules.Agree (change s).rules
  room : ∀ s, start s → s.depth < s.limit → (change s).depth < (change s).limit
  full : ∀ s, start s → ¬s.depth < s.limit → finish (s.report (.nestingTooDeep s.limit)) →
    ¬(change s).depth < (change s).limit ∧ (change s).limit = s.limit
  start_of_leads : ∀ s t, Leads s t → start s → start t
  start_enter : ∀ s, start s → start s.enter
  finish_of_leads : ∀ s t, Leads s t → finish t → finish s
  finish_of_leave : ∀ s, finish s.leave → finish s

namespace Unseen

variable {start finish : Parser → Prop} (h : Unseen change start finish)
include h

/-! ## Expressions -/

theorem operand_eq (starts : start s) {rule : Option OperandRule}
    (known : s.rules.operand s.current.kind = rule) :
    (change s).rules.operand (change s).current.kind = rule := by
  rw [h.current_eq, (h.agree s starts).operand, known]

theorem takesOperator_eq (starts : start s) (p : Precedence) :
    (change s).takesOperator p = s.takesOperator p :=
  takesOperator_of_agree (h.agree s starts) (h.peek_eq s) p

theorem reads {goal : Goal} {result : Option Expr} (reads : Reads goal s result t)
    (starts : start s) (ends : finish t) : Reads goal (change s) result (change t) := by
  induction reads with
  | @integer s _ rule read =>
    have rule := h.operand_eq starts rule
    rw [← h.current_eq s] at read ⊢
    exact .integer rule read
  | @overflow s rule read =>
    have rule := h.operand_eq starts rule
    rw [← h.current_eq s] at read
    rw [← h.report_eq, ← h.current_eq s]
    exact .overflow rule read
  | @unary s t operand rule inner ih =>
    have inner := ih (h.start_of_leads _ _ (.advance s) starts) ends
    rw [← h.advance_eq] at inner
    rw [← h.current_eq s]
    exact .unary (h.operand_eq starts rule) inner
  | @group s t value rule inner closed ih =>
    have inner := ih (h.start_of_leads _ _ (.advance s) starts)
      (h.finish_of_leads _ _ (.advance t) ends)
    rw [← h.advance_eq] at inner ⊢
    exact .group (h.operand_eq starts rule) inner (by rwa [h.peek_eq])
  | @unclosed s t value rule inner closed ih =>
    have inner := ih (h.start_of_leads _ _ (.advance s) starts)
      (h.finish_of_leads _ _ (.report t _) ends)
    rw [← h.advance_eq] at inner
    rw [← h.peek_eq t] at closed
    rw [← h.report_eq, ← h.peek_eq t]
    exact .unclosed (h.operand_eq starts rule) inner closed
  | @groupFailed s t rule inner ih =>
    have inner := ih (h.start_of_leads _ _ (.advance s) starts) ends
    rw [← h.advance_eq] at inner
    exact .groupFailed (h.operand_eq starts rule) inner
  | @illegal s rule kind =>
    have rule := h.operand_eq starts rule
    rw [← h.current_eq s] at kind
    rw [← h.report_eq, ← h.current_eq s]
    exact .illegal rule kind
  | @silent s rule kind => exact .silent (h.operand_eq starts rule) (by rwa [h.current_eq])
  | @last p left s stop => exact .last (by rwa [h.takesOperator_eq starts])
  | @join p left right s t u result more inner others first rest =>
    have inside := h.start_of_leads _ _ (.moves 2 s) starts
    have first := first inside (h.finish_of_leads _ _ others.leads ends)
    have rest := rest (h.start_of_leads _ _ inner.leads inside) ends
    rw [← h.advance_eq, ← h.advance_eq, ← h.peek_eq s] at first
    rw [← h.peek_eq s] at rest
    exact .join (by rwa [h.takesOperator_eq starts]) first rest
  | @joinFailed p left s t more inner first =>
    have first := first (h.start_of_leads _ _ (.moves 2 s) starts) ends
    rw [← h.advance_eq, ← h.advance_eq, ← h.peek_eq s] at first
    exact .joinFailed (by rwa [h.takesOperator_eq starts]) first
  | @nested p left s t u result room first others operand rest =>
    have ends := h.finish_of_leave u ends
    have inside := h.start_enter s starts
    have operand := operand inside (h.finish_of_leads _ _ others.leads ends)
    have rest := rest (h.start_of_leads _ _ first.leads inside) ends
    rw [← h.enter_eq] at operand
    rw [← h.leave_eq]
    exact .nested (h.room s starts room) operand rest
  | @nestedFailed p s t room first operand =>
    have operand := operand (h.start_enter s starts) (h.finish_of_leave t ends)
    rw [← h.enter_eq] at operand
    rw [← h.leave_eq]
    exact .nestedFailed (h.room s starts room) operand
  | @refused p s full =>
    obtain ⟨full, same⟩ := h.full s starts full ends
    rw [← h.report_eq, ← same]
    exact .refused full

theorem expression_eq (starts : start s) (p : Precedence) (ends : finish (s.expression p).2) :
    (change s).expression p = ((s.expression p).1, change (s.expression p).2) :=
  (h.reads (expression_reads p s) starts ends).expression_eq

/-! ## Statements -/

theorem bindingValue_eq (starts : start s) (ends : finish s.bindingValue.2) :
    (change s).bindingValue = (s.bindingValue.1, change s.bindingValue.2) := by
  have inner := h.expression_eq starts .lowest
  rcases read : s.expression .lowest with ⟨_ | value, t⟩ <;> rw [read] at inner
  · have before : finish t := by
      rw [bindingValue, read] at ends
      refine h.finish_of_leads _ _ ?_ ends
      dsimp only
      split
      · exact .report t _
      · exact .refl t
    rw [bindingValue, bindingValue, inner before, read]
    simp only [h.diagnostics_eq, h.current_eq, h.report_eq]
    split <;> rfl
  · have before : finish t := by
      rw [bindingValue, read] at ends
      exact h.finish_of_leads _ _ t.skipTail_leads ends
    rw [bindingValue, bindingValue, inner before, read]
    simp only [h.skipTail_eq]

theorem letBinding_eq (starts : start s) (ends : finish s.letBinding.2) :
    (change s).letBinding = (s.letBinding.1, change s.letBinding.2) := by
  have name : (change s).peek = s.peek := h.peek_eq s
  have sign : (change s).advance.peek = s.advance.peek := by rw [h.advance_eq, h.peek_eq]
  by_cases named : s.peek.kind = .identifier
  · by_cases assign : s.advance.peek.kind = .assign
    · have behind : start s.advance.advance.advance := h.start_of_leads _ _ (.moves 3 s) starts
      rw [letBinding_of_assigned named assign] at ends ⊢
      rw [letBinding_of_assigned (by rwa [name]) (by rwa [sign]), h.current_eq, name, h.advance_eq,
        h.advance_eq, h.advance_eq, h.bindingValue_eq behind ends]
    · rw [letBinding_of_unassigned named assign, letBinding_of_unassigned (by rwa [name])
        (by rwa [sign]), sign, h.advance_eq, h.report_eq]
  · rw [letBinding_of_unnamed named, letBinding_of_unnamed (by rwa [name]), name, h.report_eq]

theorem expressionStatement_eq (starts : start s) (ends : finish s.expressionStatement.2) :
    (change s).expressionStatement =
      (s.expressionStatement.1, change s.expressionStatement.2) := by
  rw [expressionStatement, expressionStatement, h.expression_eq starts .lowest ends, h.current_eq]

theorem statementBody_eq (starts : start s) (ends : finish s.statementBody.2) :
    (change s).statementBody = (s.statementBody.1, change s.statementBody.2) := by
  have binding := (h.agree s starts).binding (change s).current.kind
  by_cases rule : s.rules.statement s.current.kind = some .letBinding
  · rw [statementBody_of_rule rule] at ends ⊢
    rw [statementBody_of_rule (binding.2 (by rwa [h.current_eq])), h.letBinding_eq starts ends]
  · rw [statementBody_of_no_rule rule] at ends ⊢
    rw [statementBody_of_no_rule (mt binding.1 (by rwa [h.current_eq])),
      h.expressionStatement_eq starts ends]

theorem statement_eq (starts : start s) (ends : finish s.statement.2) :
    (change s).statement = (s.statement.1, change s.statement.2) := by
  have rest : Leads s.statementBody.2 s.statement.2 := (recover_leads _ _).trans (.advance _)
  have body := h.statementBody_eq starts (h.finish_of_leads _ _ rest ends)
  rw [statement, body]
  dsimp only
  rw [h.diagnostics_eq, h.diagnostics_eq, h.recover_eq, h.advance_eq]
  rfl

theorem program_eq (starts : start s) (ends : finish s.program.2) :
    (change s).program = (s.program.1, change s.program.2) := by
  induction s using program_induction with
  | last s done => rw [program_of_end done, program_of_end (by rwa [h.current_eq])]
  | step s more ih =>
    rw [program_of_statement more] at ends ⊢
    have first := h.statement_eq starts (h.finish_of_leads _ _ s.statement.2.program_leads ends)
    have others := ih (h.start_of_leads _ _ s.statement_leads starts) ends
    rw [program_of_statement (by rwa [h.current_eq]), first]
    dsimp only
    rw [others]

end Unseen

end Parser

end LetArith
