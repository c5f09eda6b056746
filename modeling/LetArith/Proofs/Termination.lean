import LetArith.Proofs.Steps
import Mathlib.Tactic.Ring

/-!
How many steps a reading takes. Every level of nesting that is left allows a reading some steps for
each move that is left, whatever the rules are: an operator is joined only behind a token, and where
the window no longer moves, at the end of the text, a reading can only go deeper
(`Reads.length_steps`).
-/

namespace LetArith.Parser

variable {s t u : Parser}

theorem Leads.pending_le (h : Leads s t) : t.pending ≤ s.pending := by
  obtain ⟨n, added, rfl⟩ := h
  exact (pending_iterate_advance_le n s).trans (Nat.sub_le _ _)

def spent (s t : Parser) : Nat :=
  s.pending - t.pending

/-! ## Expressions -/

/-- What a reading may take when it uses up so many moves. A descent through all the levels may
follow every move, and one more may start where none is left. -/
def Goal.allowance (levels spent : Nat) : Goal → Nat
  | .operand => (spent + 1) * (4 * levels + 1) + 2
  | .operators _ _ => spent * (4 * levels + 3)
  | .expression _ => (spent + 1) * (4 * levels + 1)

theorem length_expectSteps (s : Parser) (wanted : Kind) : (s.expectSteps wanted).length = 1 := by
  unfold expectSteps
  split <;> rfl

theorem length_integerSteps_le (s : Parser) : s.integerSteps.length ≤ 1 := by
  unfold integerSteps
  split <;> simp

theorem length_illegalSteps_le (s : Parser) : s.illegalSteps.length ≤ 1 := by
  unfold illegalSteps
  split <;> simp

theorem length_closingSteps_le (r : Option Expr × Parser) : (closingSteps r).length ≤ 1 := by
  unfold closingSteps
  split
  · exact Nat.le_of_eq (length_expectSteps _ _)
  · exact Nat.zero_le _

theorem Goal.allowance_mono (goal : Goal) (levels : Nat) {spent more : Nat} (h : spent ≤ more) :
    goal.allowance levels spent ≤ goal.allowance levels more := by
  cases goal with
  | operand => exact Nat.add_le_add_right (Nat.mul_le_mul_right _ (Nat.succ_le_succ h)) 2
  | operators => exact Nat.mul_le_mul_right _ h
  | expression => exact Nat.mul_le_mul_right _ (Nat.succ_le_succ h)

theorem length_groupingSteps_le {r : Option Expr}
    (read : s.advance.expression .lowest = (r, t))
    (inner : (readSteps (.expression .lowest) s.advance).length ≤
      Goal.allowance s.levels (s.spent u) (.expression .lowest)) :
    s.groupingSteps.length ≤ Goal.allowance s.levels (s.spent u) .operand := by
  have closing := length_closingSteps_le (r, t)
  rw [groupingSteps_of_read read, List.length_cons, List.length_append, Goal.allowance]
  rw [Goal.allowance] at inner
  omega

/-! ### What is used up -/

theorem spent_mono {v : Parser} (first : s.pending ≤ u.pending) (last : v.pending ≤ t.pending) :
    s.spent t ≤ u.spent v := by
  unfold spent
  omega

theorem spent_add (first : t.pending ≤ s.pending) (second : u.pending ≤ t.pending) :
    s.spent u = s.spent t + t.spent u := by
  unfold spent
  omega

theorem spent_of_takesOperator {p : Precedence} (more : s.takesOperator p = true)
    (first : Leads s.advance.advance t) (second : Leads t u) :
    s.advance.advance.spent t + t.spent u + 1 ≤ s.spent u := by
  have moved := pending_advance_lt_of_takesOperator more
  have moved' := s.advance.pending_advance_le_pending
  have before := first.pending_le
  have behind := second.pending_le
  unfold spent
  omega

theorem Goal.allowance_join {levels m n k : Nat} (h : m + n + 1 ≤ k) (p q : Precedence)
    (left right : Expr) :
    2 + Goal.allowance levels m (.expression p) + Goal.allowance levels n (.operators q right) ≤
      Goal.allowance levels k (.operators q left) := by
  have bound := Nat.mul_le_mul_right (4 * levels + 3) h
  simp only [Goal.allowance]
  refine Nat.le_trans ?_ bound
  ring_nf
  omega

theorem Goal.allowance_nested {levels m n k : Nat} (h : m + n ≤ k) (p : Precedence)
    (left : Expr) :
    2 + Goal.allowance levels m .operand + Goal.allowance levels n (.operators p left) ≤
      Goal.allowance (levels + 1) k (.expression p) := by
  have bound := Nat.mul_le_mul_right (4 * (levels + 1) + 1) (Nat.succ_le_succ h)
  simp only [Goal.allowance]
  refine Nat.le_trans ?_ bound
  simp only [Nat.succ_eq_add_one]
  ring_nf
  omega

theorem Reads.length_steps {goal : Goal} {result : Option Expr} (h : Reads goal s result t) :
    (readSteps goal s).length ≤ goal.allowance s.levels (s.spent t) := by
  induction h with
  | @integer s value rule | @overflow s rule =>
    have own := s.length_integerSteps_le
    rw [readSteps_of_integer rule, Goal.allowance]
    omega
  | @unary s t operand rule inner ih =>
    have bound := ih.trans (Goal.allowance_mono _ _
      (spent_mono (t := t) (u := s) s.pending_advance_le_pending le_rfl))
    rw [readSteps_of_unary rule, unarySteps, List.length_cons]
    exact Nat.succ_le_succ (bound.trans (Nat.le_succ _))
  | @group s t value rule inner closed ih =>
    rw [readSteps_of_grouping rule]
    exact length_groupingSteps_le inner.expression_eq (ih.trans (Goal.allowance_mono _ _
      (spent_mono s.pending_advance_le_pending t.pending_advance_le_pending)))
  | @unclosed s t value rule inner closed ih =>
    rw [readSteps_of_grouping rule]
    exact length_groupingSteps_le inner.expression_eq (ih.trans (Goal.allowance_mono _ _
      (spent_mono s.pending_advance_le_pending le_rfl)))
  | @groupFailed s t rule inner ih =>
    rw [readSteps_of_grouping rule]
    exact length_groupingSteps_le inner.expression_eq (ih.trans (Goal.allowance_mono _ _
      (spent_mono s.pending_advance_le_pending le_rfl)))
  | @illegal s rule kind | @silent s rule kind =>
    have own := s.length_illegalSteps_le
    rw [readSteps_of_no_operand rule, Goal.allowance]
    omega
  | last stop =>
    rw [readSteps_of_last stop]
    exact Nat.zero_le _
  | @join p left right s t u result more inner others operand rest =>
    have kept := ((Leads.moves 2 s).trans inner.leads).levels_eq
    have used := spent_of_takesOperator more inner.leads others.leads
    rw [kept] at rest
    calc (readSteps (.operators p left) s).length
        = 2 + (readSteps (.expression s.peek.kind.precedence) s.advance.advance).length +
            (readSteps (.operators p (.binary s.peek s.peek.literal left right)) t).length := by
          rw [readSteps_of_join more inner.expression_eq]
          simp only [binarySteps, List.length_cons, List.length_append, advance_current]
          omega
      _ ≤ _ := Nat.add_le_add (Nat.add_le_add_left operand 2) rest
      _ ≤ _ := Goal.allowance_join used _ _ _ _
  | @joinFailed p left s t more inner operand =>
    have used := spent_of_takesOperator more inner.leads (.refl t)
    calc (readSteps (.operators p left) s).length
        = 2 + (readSteps (.expression s.peek.kind.precedence) s.advance.advance).length := by
          rw [readSteps_of_joinFailed more inner.expression_eq]
          simp only [binarySteps, List.length_cons, advance_current]
          omega
      _ ≤ _ := Nat.add_le_add_left operand 2
      _ ≤ _ := (Nat.le_add_right _ _).trans (Goal.allowance_join used _ p left left)
  | @nested p left s t u result room first others operand rest =>
    have used := spent_add (s := s.enter) first.leads.pending_le others.leads.pending_le
    rw [first.leads.levels_eq] at rest
    rw [levels_of_room room]
    calc (readSteps (.expression p) s).length
        = 2 + (readSteps .operand s.enter).length + (readSteps (.operators p left) t).length := by
          rw [readSteps_of_nested room first.read_eq]
          simp only [List.length_cons, List.length_append, List.length_nil]
          omega
      _ ≤ _ := Nat.add_le_add (Nat.add_le_add_left operand 2) rest
      _ ≤ _ := Goal.allowance_nested used.ge _ _
  | @nestedFailed p s t room first operand =>
    rw [levels_of_room room]
    calc (readSteps (.expression p) s).length
        = 2 + (readSteps .operand s.enter).length := by
          rw [readSteps_of_nestedFailed room first.read_eq]
          simp only [List.length_cons, List.length_append, List.length_nil]
          omega
      _ ≤ _ := Nat.add_le_add_left operand 2
      _ ≤ _ := (Nat.le_add_right _ _).trans
        (Goal.allowance_nested (n := 0) le_rfl p (.integer s.current 0))
  | @refused p s full =>
    rw [readSteps_of_full full]
    exact Nat.mul_pos (Nat.succ_pos _) (Nat.succ_pos _)

/-! ## Statements -/

theorem length_skipSteps_le (s : Parser) : s.skipSteps.length ≤ s.spent s.skip := by
  fun_induction skip s with
  | case1 s boundary =>
    rw [skipSteps, if_pos boundary]
    exact Nat.zero_le _
  | case2 s more ih =>
    have moved := pending_advance_lt_of_not_atBoundary more
    have behind := s.advance.pending_skip_le
    rw [skipSteps, if_neg more, List.length_cons]
    unfold spent at ih ⊢
    omega

theorem length_tailSteps_le (s : Parser) : s.tailSteps.length ≤ 2 * s.spent s.skipTail := by
  fun_induction skipTail s with
  | case1 s boundary =>
    rw [tailSteps, if_pos boundary]
    exact Nat.zero_le _
  | case2 s more ih =>
    have own := s.length_illegalSteps_le
    have moved : s.reportIllegal.advance.pending < s.pending := by
      rw [← pending_reportIllegal s]
      exact pending_advance_lt_of_not_atBoundary (by rwa [reportIllegal_atBoundary])
    have behind := s.reportIllegal.advance.pending_skipTail_le
    rw [tailSteps, if_neg more, List.length_append, List.length_cons]
    unfold spent at ih ⊢
    omega

theorem length_expression_steps (p : Precedence) (s : Parser) :
    (readSteps (.expression p) s).length ≤ (s.spent (s.expression p).2 + 1) * (4 * s.levels + 1) :=
  (expression_reads p s).length_steps

theorem mul_widen {m n k : Nat} (width more : Nat) (h : m + n ≤ k) :
    (m + 1) * width + (n + 1) * more ≤ (k + 1) * (width + more) := by
  rw [Nat.mul_add]
  exact Nat.add_le_add (Nat.mul_le_mul_right _ (by omega)) (Nat.mul_le_mul_right _ (by omega))

theorem length_bindingSteps_le (s : Parser) :
    s.bindingSteps.length ≤ (s.spent s.bindingValue.2 + 1) * (4 * s.levels + 3) := by
  have inner := length_expression_steps .lowest s
  have moved := s.pending_expression_le .lowest
  rcases read : s.expression .lowest with ⟨_ | value, t⟩ <;> rw [read] at inner moved
  · have last : s.spent s.bindingValue.2 = s.spent t := by
      rw [bindingValue, read]
      dsimp only
      split <;> rfl
    have report : (if t.diagnostics.length = s.diagnostics.length then
        [Step.report (.missingExpression t.current.kind)] else []).length ≤ (0 + 1) * 2 := by
      split <;> simp
    rw [bindingSteps_of_none read, List.length_append, last]
    exact (Nat.add_le_add inner report).trans (mul_widen (n := 0) _ _ le_rfl)
  · have tail : t.tailSteps.length ≤ (t.spent t.skipTail + 1) * 2 := by
      have bound := t.length_tailSteps_le
      omega
    have total := spent_add moved t.pending_skipTail_le
    rw [bindingSteps_of_some read, List.length_append, bindingValue, read, total]
    exact (Nat.add_le_add inner tail).trans (mul_widen _ _ le_rfl)

theorem length_letSteps_le (s : Parser) :
    s.letSteps.length ≤ (s.spent s.letBinding.2 + 1) * (4 * s.levels + 6) := by
  by_cases named : s.peek.kind = .identifier
  · by_cases assign : s.advance.peek.kind = .assign
    · have value := s.advance.advance.advance.length_bindingSteps_le
      have moved : s.advance.advance.advance.spent s.letBinding.2 ≤ s.spent s.letBinding.2 :=
        spent_mono (Leads.moves 3 s).pending_le le_rfl
      rw [letBinding_of_assigned named assign] at moved ⊢
      rw [letSteps_of_assigned named assign]
      exact (Nat.add_le_add_right value 3).trans (mul_widen (n := 0) (4 * s.levels + 3) 3 moved)
    · rw [letSteps_of_unassigned named assign]
      exact Nat.le_trans (by simp) (Nat.mul_le_mul (Nat.succ_pos _) (Nat.le_add_left 2 _))
  · rw [letSteps_of_unnamed named]
    exact Nat.mul_pos (Nat.succ_pos _) (Nat.succ_pos _)

theorem length_bodySteps_le (s : Parser) :
    s.bodySteps.length ≤ (s.spent s.statementBody.2 + 1) * (4 * s.levels + 6) := by
  have bare := (length_expression_steps .lowest s).trans
    (Nat.mul_le_mul_left _ (by omega : _ ≤ 4 * s.levels + 6))
  rcases rule : s.rules.statement s.current.kind with _ | _ | _ <;>
    rw [bodySteps, statementBody, rule]
  · exact bare
  · exact s.length_letSteps_le
  · exact bare

theorem length_recoverSteps_le (reported : Bool) (s : Parser) :
    (s.recoverSteps reported).length ≤ s.spent (s.recover reported) := by
  unfold recoverSteps recover
  split
  · exact s.length_skipSteps_le
  · exact Nat.zero_le _

theorem length_statementSteps_le (s : Parser) :
    s.statementSteps.length ≤ (s.spent s.statement.2 + 1) * (4 * s.levels + 7) := by
  have body := s.length_bodySteps_le
  have skipped := length_recoverSteps_le (s.statementBody.1.isNone &&
    s.diagnostics.length < s.statementBody.2.diagnostics.length) s.statementBody.2
  have total : s.spent s.statementBody.2 + s.statementBody.2.spent s.recovered ≤
      s.spent s.statement.2 := by
    have back : s.recovered.pending ≤ s.statementBody.2.pending := pending_recover_le _ _
    rw [← spent_add s.pending_statementBody_le back]
    exact spent_mono le_rfl s.recovered.pending_advance_le_pending
  have bound := mul_widen (4 * s.levels + 6) 1 total
  rw [statementSteps, List.length_append, List.length_append]
  rw [Nat.mul_one] at bound
  exact (Nat.add_le_add_right (Nat.add_le_add body skipped) 1).trans bound

theorem length_programSteps_le (s : Parser) :
    s.programSteps.length ≤ 2 * s.spent s.program.2 * (4 * s.levels + 7) := by
  induction s using program_induction with
  | last s done =>
    rw [programSteps, if_pos done]
    exact Nat.zero_le _
  | step s more ih =>
    have first := s.length_statementSteps_le
    have moved := pending_statement_lt more
    have total := spent_add moved.le s.statement.2.program_leads.pending_le
    have kept := s.statement_leads.levels_eq
    rw [programSteps, if_neg more, List.length_append, program_of_statement more, total]
    rw [kept] at ih
    calc s.statementSteps.length + s.statement.2.programSteps.length
        ≤ (s.spent s.statement.2 + 1) * (4 * s.levels + 7) +
            2 * s.statement.2.spent s.statement.2.program.2 * (4 * s.levels + 7) :=
          Nat.add_le_add first ih
      _ ≤ _ := by
          rw [← Nat.add_mul]
          refine Nat.mul_le_mul_right _ ?_
          unfold spent
          omega

/-! ## The end of every reading -/

def budget (s : Parser) : Nat :=
  (2 * s.pending + 1) * (4 * s.levels + 7)

theorem statement_moves (s : Parser) :
    ∃ n added, 0 < n ∧ s.statement.2 = (advance^[n] s).reportAll added := by
  obtain ⟨n, added, same⟩ := s.recovered_leads
  refine ⟨n + 1, added, n.succ_pos, ?_⟩
  rw [statement_eq, same, ← advance_iterate_advance]
  rfl

theorem program_current_kind (s : Parser) : s.program.2.current.kind = .endOfInput := by
  induction s using program_induction with
  | last s done => rwa [program_of_end done]
  | step s more ih => rwa [program_of_statement more]

theorem spent_le (s t : Parser) : s.spent t ≤ s.pending :=
  Nat.sub_le _ _

/-- Whatever the rules, a reading ends: the moves and the levels that are left bound its steps. A
statement moves the window on, and a program is read to the end of the text. -/
theorem readings_end (s : Parser) :
    (∀ p, s.play (readSteps (.expression p) s) = (s.expression p).2 ∧
      (readSteps (.expression p) s).length ≤ s.budget) ∧
    (s.play s.statementSteps = s.statement.2 ∧ s.statementSteps.length ≤ s.budget ∧
      ∃ n added, 0 < n ∧ s.statement.2 = (advance^[n] s).reportAll added) ∧
    (s.play s.programSteps = s.program.2 ∧ s.programSteps.length ≤ s.budget ∧
      s.program.2.current.kind = .endOfInput) := by
  have used := s.spent_le
  refine ⟨fun p => ⟨play_readSteps _ s, ?_⟩, ⟨s.play_statementSteps, ?_, s.statement_moves⟩,
    ⟨s.play_programSteps, ?_, s.program_current_kind⟩⟩
  · have less := used (s.expression p).2
    exact (length_expression_steps p s).trans (Nat.mul_le_mul (by omega) (by omega))
  · have less := used s.statement.2
    exact s.length_statementSteps_le.trans (Nat.mul_le_mul_right _ (by omega))
  · have less := used s.program.2
    exact s.length_programSteps_le.trans (Nat.mul_le_mul_right _ (by omega))

end LetArith.Parser
