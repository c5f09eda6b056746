import LetArith.Proofs.Window

/-!
The reading of expressions as a relation. `Reads goal s result t` has one rule for each thing that
can happen while an expression is read, so an invariant of readings is an induction with one short
case for each rule. `reads_iff` says that the relation is the graph of the readers, at every depth
and under any rules.
-/

namespace LetArith.Parser

/-- What is read: the operand at the window, the operators after `left` that bind tighter than `p`,
or both of these one level deeper. -/
inductive Goal where
  | operand
  | operators (p : Precedence) (left : Expr)
  | expression (p : Precedence)

inductive Reads : Goal → Parser → Option Expr → Parser → Prop where
  | integer {s : Parser} {value : Nat} (rule : s.rules.operand s.current.kind = some .integer)
      (read : integerValue? s.current.literal = some value) :
      Reads .operand s (some (.integer s.current value)) s
  | overflow {s : Parser} (rule : s.rules.operand s.current.kind = some .integer)
      (read : integerValue? s.current.literal = none) :
      Reads .operand s none (s.report (.invalidInteger s.current.literal))
  | unary {s t : Parser} {operand : Option Expr}
      (rule : s.rules.operand s.current.kind = some .unary)
      (inner : Reads (.expression .unary) s.advance operand t) :
      Reads .operand s (operand.map (.unary s.current s.current.literal)) t
  | group {s t : Parser} {value : Expr} (rule : s.rules.operand s.current.kind = some .grouping)
      (inner : Reads (.expression .lowest) s.advance (some value) t)
      (closed : t.peek.kind = .rightParen) :
      Reads .operand s (some value) t.advance
  | unclosed {s t : Parser} {value : Expr}
      (rule : s.rules.operand s.current.kind = some .grouping)
      (inner : Reads (.expression .lowest) s.advance (some value) t)
      (closed : t.peek.kind ≠ .rightParen) :
      Reads .operand s none (t.report (.unexpectedToken .rightParen t.peek.kind))
  | groupFailed {s t : Parser} (rule : s.rules.operand s.current.kind = some .grouping)
      (inner : Reads (.expression .lowest) s.advance none t) :
      Reads .operand s none t
  | illegal {s : Parser} (rule : s.rules.operand s.current.kind = none)
      (kind : s.current.kind = .illegal) :
      Reads .operand s none (s.report (.illegalCharacter s.current.literal))
  | silent {s : Parser} (rule : s.rules.operand s.current.kind = none)
      (kind : s.current.kind ≠ .illegal) :
      Reads .operand s none s
  | last {p : Precedence} {left : Expr} {s : Parser} (stop : ¬s.takesOperator p = true) :
      Reads (.operators p left) s (some left) s
  | join {p : Precedence} {left right : Expr} {s t u : Parser} {result : Option Expr}
      (more : s.takesOperator p = true)
      (inner : Reads (.expression s.peek.kind.precedence) s.advance.advance (some right) t)
      (others : Reads (.operators p (.binary s.peek s.peek.literal left right)) t result u) :
      Reads (.operators p left) s result u
  | joinFailed {p : Precedence} {left : Expr} {s t : Parser} (more : s.takesOperator p = true)
      (inner : Reads (.expression s.peek.kind.precedence) s.advance.advance none t) :
      Reads (.operators p left) s none t
  | nested {p : Precedence} {left : Expr} {s t u : Parser} {result : Option Expr}
      (room : s.depth < s.limit) (first : Reads .operand s.enter (some left) t)
      (others : Reads (.operators p left) t result u) :
      Reads (.expression p) s result u.leave
  | nestedFailed {p : Precedence} {s t : Parser} (room : s.depth < s.limit)
      (first : Reads .operand s.enter none t) :
      Reads (.expression p) s none t.leave
  | refused {p : Precedence} {s : Parser} (full : ¬s.depth < s.limit) :
      Reads (.expression p) s none (s.report (.nestingTooDeep s.limit))

theorem Reads.leads {goal : Goal} {s t : Parser} {result : Option Expr}
    (h : Reads goal s result t) : Leads s t := by
  induction h with
  | integer => exact .refl _
  | overflow => exact .report _ _
  | unary _ _ ih => exact (Leads.advance _).trans ih
  | group _ _ _ ih => exact (Leads.advance _).trans (ih.trans (.advance _))
  | unclosed _ _ _ ih => exact (Leads.advance _).trans (ih.trans (.report _ _))
  | groupFailed _ _ ih => exact (Leads.advance _).trans ih
  | illegal => exact .report _ _
  | silent => exact .refl _
  | last => exact .refl _
  | join _ _ _ inner others => exact (Leads.moves 2 _).trans (inner.trans others)
  | joinFailed _ _ inner => exact (Leads.moves 2 _).trans inner
  | nested _ _ _ first others => exact (first.trans others).leave
  | nestedFailed _ _ first => exact first.leave
  | refused => exact .report _ _

/-! ## The readers, without the levels that tie them together -/

theorem expression_of_room {s : Parser} (room : s.depth < s.limit) (p : Precedence) :
    s.expression p = ((s.enter.expressionWith s.enter.expressionReader p).1,
      (s.enter.expressionWith s.enter.expressionReader p).2.leave) := by
  have levels : s.limit - s.depth = s.limit - (s.depth + 1) + 1 := by omega
  rw [expression, expressionReader, levels]
  simp only [ExprReader.within, nestedWith, room, if_true]
  rfl

theorem expression_of_full {s : Parser} (full : ¬s.depth < s.limit) (p : Precedence) :
    s.expression p = (none, s.report (.nestingTooDeep s.limit)) := by
  have levels : s.limit - s.depth = 0 := by omega
  rw [expression, expressionReader, levels]
  rfl

theorem Leads.expressionReader_eq {s t : Parser} (h : Leads s t) :
    t.expressionReader = s.expressionReader := by
  rw [expressionReader, expressionReader, h.limit_eq, h.depth_eq]

/-- The reader of a goal, for a parser that has already entered the level of the goal. -/
def read : Goal → Parser → Option Expr × Parser
  | .operand, s => s.operandWith s.expressionReader
  | .operators p left, s => s.climbWith s.expressionReader p left
  | .expression p, s => s.expression p

theorem Reads.read_eq {goal : Goal} {s t : Parser} {result : Option Expr}
    (h : Reads goal s result t) : read goal s = (result, t) := by
  induction h with
  | integer rule value => simp [read, operandWith, rule, Parser.integer, value]
  | overflow rule value => simp [read, operandWith, rule, Parser.integer, value]
  | @unary s t operand rule _ ih =>
    have inner : s.expressionReader.read .unary s.advance = (operand, t) := ih
    simp [read, operandWith, rule, unaryWith, inner]
  | @group s t value rule _ closed ih =>
    have inner : s.expressionReader.read .lowest s.advance = (some value, t) := ih
    simp [read, operandWith, rule, groupingWith, inner, expectPeek, closed]
  | @unclosed s t value rule _ closed ih =>
    have inner : s.expressionReader.read .lowest s.advance = (some value, t) := ih
    simp [read, operandWith, rule, groupingWith, inner, expectPeek, closed]
  | @groupFailed s t rule _ ih =>
    have inner : s.expressionReader.read .lowest s.advance = (none, t) := ih
    simp [read, operandWith, rule, groupingWith, inner]
  | illegal rule kind =>
    rw [read, operandWith, rule]
    simp only [kind, if_true]
  | silent rule kind =>
    rw [read, operandWith, rule]
    simp only [kind, if_false]
  | last stop => rw [read, climbWith, if_neg stop]
  | @join p left right s t u result more h _ ih others =>
    have inner : s.advance.binaryWith s.expressionReader left =
        (some (.binary s.peek s.peek.literal left right), t) := by
      have right : s.expressionReader.read s.peek.kind.precedence s.advance.advance =
        (some right, t) := ih
      simp [binaryWith, right]
    have same : t.expressionReader = s.expressionReader :=
      ((Leads.moves 2 s).trans h.leads).expressionReader_eq
    rw [read, same] at others
    rw [read, climbWith, if_pos more]
    split
    next equation => rw [inner] at equation; cases equation; exact others
    next equation => rw [inner] at equation; cases equation
  | @joinFailed p left s t more _ ih =>
    have inner : s.advance.binaryWith s.expressionReader left = (none, t) := by
      have right : s.expressionReader.read s.peek.kind.precedence s.advance.advance =
        (none, t) := ih
      simp [binaryWith, right]
    rw [read, climbWith, if_pos more]
    split
    next equation => rw [inner] at equation; cases equation
    next equation => rw [inner] at equation; cases equation; rfl
  | @nested p left s t u result room h _ first others =>
    rw [read, h.leads.expressionReader_eq] at others
    rw [read] at first
    rw [read, expression_of_room room, expressionWith, first]
    simp only [others]
  | nestedFailed room _ first =>
    rw [read] at first
    rw [read, expression_of_room room, expressionWith, first]
  | refused full => exact expression_of_full full _

/-! ## Every reading follows the rules -/

private def Follows (inner : ExprReader) (n : Nat) : Prop :=
  ∀ p s, s.limit - s.depth = n → Reads (.expression p) s (inner.read p s).1 (inner.read p s).2

private theorem reads_operandWith {inner : ExprReader} {n : Nat} (follows : Follows inner n)
    {s : Parser} (levels : s.limit - s.depth = n) :
    Reads .operand s (s.operandWith inner).1 (s.operandWith inner).2 := by
  unfold operandWith
  split
  next rule =>
    unfold Parser.integer
    split
    next value => exact .integer rule value
    next value => exact .overflow rule value
  next rule => exact .unary rule (follows .unary s.advance levels)
  next rule =>
    have read := follows .lowest s.advance levels
    unfold groupingWith expectPeek
    split
    next value t equation =>
      rw [equation] at read
      split
      next closed => exact .group rule read closed
      next closed => exact .unclosed rule read closed
    next t equation =>
      rw [equation] at read
      exact .groupFailed rule read
  next rule =>
    split
    next kind => exact .illegal rule kind
    next kind => exact .silent rule kind

private theorem reads_climbWith {inner : ExprReader} {n : Nat} (follows : Follows inner n)
    (p : Precedence) (left : Expr) {s : Parser} (levels : s.limit - s.depth = n) :
    Reads (.operators p left) s (s.climbWith inner p left).1 (s.climbWith inner p left).2 := by
  fun_induction climbWith inner p left s with
  | case1 left s more joined t equation ih =>
    have read := follows s.peek.kind.precedence s.advance.advance levels
    have kept := (Leads.moves 2 s).trans read.leads
    simp only [binaryWith, Prod.mk.injEq, Option.map_eq_some_iff] at equation
    obtain ⟨⟨right, found, rfl⟩, rfl⟩ := equation
    rw [advance_current] at found ih ⊢
    rw [found] at read
    exact .join more read (ih (by rw [kept.limit_eq, kept.depth_eq, levels]))
  | case2 left s more t equation =>
    have read := follows s.peek.kind.precedence s.advance.advance levels
    simp only [binaryWith, Prod.mk.injEq, Option.map_eq_none_iff] at equation
    obtain ⟨missing, rfl⟩ := equation
    rw [advance_current] at missing ⊢
    rw [missing] at read
    exact .joinFailed more read
  | case3 left s stop => exact .last stop

private theorem within_follows (n : Nat) : Follows (.within n) n := by
  induction n with
  | zero =>
    intro p s levels
    exact .refused (by omega)
  | succ n ih =>
    intro p s levels
    have room : s.depth < s.limit := by omega
    have inside : s.enter.limit - s.enter.depth = n := by simp only [enter]; omega
    have first := reads_operandWith ih inside
    simp only [ExprReader.within, nestedWith, room, if_true, expressionWith]
    split
    next left t equation =>
      rw [equation] at first
      have levels : t.limit - t.depth = n := by
        rw [first.leads.limit_eq, first.leads.depth_eq, inside]
      exact .nested room first (reads_climbWith ih p left levels)
    next t equation =>
      rw [equation] at first
      exact .nestedFailed room first

theorem expression_reads (p : Precedence) (s : Parser) :
    Reads (.expression p) s (s.expression p).1 (s.expression p).2 :=
  within_follows _ p s rfl

theorem reads_iff {goal : Goal} {s t : Parser} {result : Option Expr} :
    Reads goal s result t ↔ read goal s = (result, t) := by
  refine ⟨Reads.read_eq, fun equation => ?_⟩
  have follows : Follows s.expressionReader (s.limit - s.depth) := within_follows _
  have reads : Reads goal s (read goal s).1 (read goal s).2 := by
    cases goal with
    | operand => exact reads_operandWith follows rfl
    | operators p left => exact reads_climbWith follows p left rfl
    | expression p => exact expression_reads p s
  rwa [equation] at reads

theorem Reads.expression_eq {p : Precedence} {s t : Parser} {result : Option Expr}
    (h : Reads (.expression p) s result t) : s.expression p = (result, t) :=
  h.read_eq

theorem expression_leads (p : Precedence) (s : Parser) : Leads s (s.expression p).2 :=
  (expression_reads p s).leads

theorem expression_of_no_operand {s : Parser}
    (unknown : s.rules.operand s.current.kind = none) (p : Precedence) :
    ∃ added, s.expression p = (none, s.reportAll added) := by
  by_cases room : s.depth < s.limit
  · by_cases kind : s.current.kind = .illegal
    · have failed : Reads .operand s.enter none _ := .illegal unknown kind
      exact ⟨_, (Reads.nestedFailed room failed).expression_eq⟩
    · have failed : Reads .operand s.enter none _ := .silent unknown kind
      rw [(Reads.nestedFailed room failed).expression_eq]
      exact ⟨[], congrArg (Prod.mk none) (reportAll_nil s).symm⟩
  · exact ⟨_, expression_of_full room p⟩

theorem expression_eq_none {s : Parser} (unknown : s.rules.operand s.current.kind = none)
    (p : Precedence) : (s.expression p).1 = none := by
  obtain ⟨added, failed⟩ := expression_of_no_operand unknown p
  rw [failed]

end LetArith.Parser
