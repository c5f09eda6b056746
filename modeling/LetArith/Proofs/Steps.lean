import LetArith.Parser.Action
import LetArith.Proofs.Statements

/-!
What a parser does one step at a time. A step moves the window, records a report, or begins or ends
the body of an expression. `readSteps` lists the steps of a reading in their order. It follows the
calls of the readers without the levels that tie these together, so its recursion ends only because
the tokens and the levels of nesting that are left do. Played one after the other, the steps of an
action are the action (`play_actionSteps`).
-/

namespace LetArith

inductive Step where
  | advance
  | report (diagnostic : Diagnostic)
  | enter
  | leave
deriving DecidableEq, Repr

namespace Parser

def step (s : Parser) : Step → Parser
  | .advance => s.advance
  | .report diagnostic => s.report diagnostic
  | .enter => s.enter
  | .leave => s.leave

def play (s : Parser) (steps : List Step) : Parser :=
  steps.foldl step s

def moves (steps : List Step) : Nat :=
  steps.count .advance

/-- The reports of some steps, each with the place where the window then stands. The steps start at
`place`. -/
def reportsFrom (place : Nat) : List Step → List (Nat × Diagnostic)
  | [] => []
  | .advance :: steps => reportsFrom (place + 1) steps
  | .report diagnostic :: steps => (place, diagnostic) :: reportsFrom place steps
  | .enter :: steps | .leave :: steps => reportsFrom place steps

/-! ## Steps of expressions -/

def expectSteps (s : Parser) (wanted : Kind) : List Step :=
  if s.peek.kind = wanted then [.advance] else [.report (.unexpectedToken wanted s.peek.kind)]

def integerSteps (s : Parser) : List Step :=
  match integerValue? s.current.literal with
  | some _ => []
  | none => [.report (.invalidInteger s.current.literal)]

def illegalSteps (s : Parser) : List Step :=
  if s.current.kind = .illegal then [.report (.illegalCharacter s.current.literal)] else []

def closingSteps : Option Expr × Parser → List Step
  | (some _, t) => t.expectSteps .rightParen
  | (none, _) => []

/-- An operand may be read where the window stands, and starts a reading of its own there. -/
def Goal.rank : Goal → Nat
  | .operand => 1
  | .operators _ _ | .expression _ => 0

def readSteps : Goal → Parser → List Step
  | .operand, s =>
    match s.rules.operand s.current.kind with
    | some .integer => s.integerSteps
    | some .unary => .advance :: readSteps (.expression .unary) s.advance
    | some .grouping =>
      .advance :: (readSteps (.expression .lowest) s.advance ++
        closingSteps (s.advance.expression .lowest))
    | none => s.illegalSteps
  | .operators p left, s =>
    if _ : s.takesOperator p = true then
      .advance :: .advance :: (readSteps (.expression s.peek.kind.precedence) s.advance.advance ++
        match _ : s.advance.advance.expression s.peek.kind.precedence with
        | (some right, t) => readSteps (.operators p (.binary s.peek s.peek.literal left right)) t
        | (none, _) => [])
    else []
  | .expression p, s =>
    if _ : s.depth < s.limit then
      .enter :: ((readSteps .operand s.enter ++
        match _ : read .operand s.enter with
        | (some left, t) => readSteps (.operators p left) t
        | (none, _) => []) ++ [.leave])
    else [.report (.nestingTooDeep s.limit)]
termination_by goal s => (s.limit - s.depth, 2 * s.pending + goal.rank)
decreasing_by
  · have moved := s.pending_advance_le_pending
    exact Prod.Lex.right _ (by simp only [Goal.rank]; omega)
  · have moved := s.pending_advance_le_pending
    exact Prod.Lex.right _ (by simp only [Goal.rank]; omega)
  · have moved := pending_advance_lt_of_takesOperator ‹_›
    have moved' := s.advance.pending_advance_le_pending
    exact Prod.Lex.right _ (by simp only [Goal.rank]; omega)
  · have moved := pending_advance_lt_of_takesOperator ‹_›
    have moved' := s.advance.pending_advance_le_pending
    have inner := s.advance.advance.pending_expression_le s.peek.kind.precedence
    have kept := (Leads.moves 2 s).trans (expression_leads s.peek.kind.precedence s.advance.advance)
    rw [‹s.advance.advance.expression s.peek.kind.precedence = (some right, t)›] at inner kept
    simp only at inner
    rw [kept.limit_eq, kept.depth_eq]
    exact Prod.Lex.right _ (by simp only [Goal.rank]; omega)
  · exact Prod.Lex.left _ _ (by simp only [enter]; omega)
  · have kept := (reads_iff.2 ‹read .operand s.enter = (some left, t)›).leads
    have depth : t.depth = s.depth + 1 := kept.depth_eq
    have limit : t.limit = s.limit := kept.limit_eq
    exact Prod.Lex.left _ _ (by omega)

def unarySteps (s : Parser) : List Step :=
  .advance :: readSteps (.expression .unary) s.advance

def binarySteps (s : Parser) : List Step :=
  .advance :: readSteps (.expression s.current.kind.precedence) s.advance

def groupingSteps (s : Parser) : List Step :=
  .advance :: (readSteps (.expression .lowest) s.advance ++
    closingSteps (s.advance.expression .lowest))

/-! ## Levels -/

def levels (s : Parser) : Nat :=
  s.limit - s.depth

theorem Leads.levels_eq {s t : Parser} (h : Leads s t) : t.levels = s.levels := by
  rw [levels, levels, h.limit_eq, h.depth_eq]

theorem levels_of_room {s : Parser} (room : s.depth < s.limit) :
    s.levels = s.enter.levels + 1 := by
  simp only [levels, enter]
  omega

/-! ## Steps of statements -/

def skipSteps (s : Parser) : List Step :=
  if s.atBoundary = true then [] else .advance :: s.advance.skipSteps
termination_by s.pending
decreasing_by exact pending_advance_lt_of_not_atBoundary ‹_›

def tailSteps (s : Parser) : List Step :=
  if s.atBoundary = true then []
  else s.illegalSteps ++ .advance :: s.reportIllegal.advance.tailSteps
termination_by s.pending
decreasing_by
  have moved := s.reportIllegal.pending_advance_le
  have step := pending_advance_lt_of_not_atBoundary ‹_›
  rw [pending_reportIllegal] at moved
  omega

def bindingSteps (s : Parser) : List Step :=
  readSteps (.expression .lowest) s ++
    match s.expression .lowest with
    | (some _, t) => t.tailSteps
    | (none, t) =>
      if t.diagnostics.length = s.diagnostics.length then
        [.report (.missingExpression t.current.kind)]
      else []

def letSteps (s : Parser) : List Step :=
  s.expectSteps .identifier ++
    match s.expectPeek .identifier with
    | (false, _) => []
    | (true, named) =>
      named.expectSteps .assign ++
        match named.expectPeek .assign with
        | (false, _) => []
        | (true, assigned) => .advance :: assigned.advance.bindingSteps

def bodySteps (s : Parser) : List Step :=
  match s.rules.statement s.current.kind with
  | some .letBinding => s.letSteps
  | some .expression | none => readSteps (.expression .lowest) s

def recoverSteps (reported : Bool) (s : Parser) : List Step :=
  if reported then s.skipSteps else []

def statementSteps (s : Parser) : List Step :=
  let body := s.statementBody
  let reported := s.diagnostics.length < body.2.diagnostics.length
  s.bodySteps ++ body.2.recoverSteps (body.1.isNone && reported) ++ [.advance]

def programSteps (s : Parser) : List Step :=
  if s.current.kind = .endOfInput then [] else s.statementSteps ++ s.statement.2.programSteps
termination_by s.pending
decreasing_by exact pending_statement_lt ‹_›

def actionSteps (s : Parser) : Action → List Step
  | .advance => [.advance]
  | .expectPeek wanted => s.expectSteps wanted
  | .report diagnostic => [.report diagnostic]
  | .precedences | .rules | .messages => []
  | .setStatement _ _ | .setOperand _ _ | .setBinary _ => []
  | .statement => s.statementSteps
  | .letBinding => s.letSteps
  | .expressionStatement => readSteps (.expression .lowest) s
  | .expression p => readSteps (.expression p) s
  | .integer => s.integerSteps
  | .unary => s.unarySteps
  | .grouping => s.groupingSteps
  | .binary _ => s.binarySteps
  | .program => s.programSteps

/-! ## Playing steps -/

variable {s t : Parser}

@[simp] theorem play_nil (s : Parser) : s.play [] = s := rfl

@[simp] theorem play_cons (s : Parser) (x : Step) (steps : List Step) :
    s.play (x :: steps) = (s.step x).play steps := rfl

@[simp] theorem play_append (s : Parser) (front back : List Step) :
    s.play (front ++ back) = (s.play front).play back :=
  List.foldl_append

@[simp] theorem moves_nil : moves [] = 0 := rfl

@[simp] theorem moves_append (front back : List Step) :
    moves (front ++ back) = moves front + moves back :=
  List.count_append

@[simp] theorem moves_advance (steps : List Step) :
    moves (.advance :: steps) = moves steps + 1 :=
  List.count_cons_self

@[simp] theorem reportsFrom_nil (place : Nat) : reportsFrom place [] = [] := rfl

@[simp] theorem reportsFrom_advance (place : Nat) (steps : List Step) :
    reportsFrom place (.advance :: steps) = reportsFrom (place + 1) steps := rfl

@[simp] theorem reportsFrom_append (place : Nat) (front back : List Step) :
    reportsFrom place (front ++ back) =
      reportsFrom place front ++ reportsFrom (place + moves front) back := by
  induction front generalizing place with
  | nil => rfl
  | cons x front ih =>
    cases x with
    | advance =>
      rw [List.cons_append, reportsFrom_advance, ih, reportsFrom_advance, moves_advance,
        Nat.add_right_comm, Nat.add_assoc]
    | report diagnostic => exact congrArg ((place, diagnostic) :: ·) (ih place)
    | enter => exact ih place
    | leave => exact ih place

theorem diagnostics_play (s : Parser) (place : Nat) (steps : List Step) :
    (s.play steps).diagnostics = s.diagnostics ++ (reportsFrom place steps).map Prod.snd := by
  induction steps generalizing s place with
  | nil => exact (List.append_nil _).symm
  | cons x steps ih =>
    cases x with
    | advance => exact ih s.advance (place + 1)
    | report diagnostic =>
      rw [play_cons, ih _ place]
      exact List.append_assoc _ _ _
    | enter => exact ih s.enter place
    | leave => exact ih s.leave place

theorem length_diagnostics_play (s : Parser) (place : Nat) (steps : List Step) :
    (s.play steps).diagnostics.length =
      s.diagnostics.length + (reportsFrom place steps).length := by
  rw [diagnostics_play s place, List.length_append, List.length_map]

theorem limit_play (s : Parser) (steps : List Step) : (s.play steps).limit = s.limit := by
  induction steps generalizing s with
  | nil => rfl
  | cons x steps ih =>
    rw [play_cons, ih]
    cases x <;> rfl

theorem exists_of_mem_reportsFrom {place : Nat} {steps : List Step} {r : Nat × Diagnostic}
    (mem : r ∈ reportsFrom place steps) :
    ∃ front back, steps = front ++ .report r.2 :: back ∧ r.1 = place + moves front := by
  induction steps generalizing place with
  | nil => cases mem
  | cons x steps ih =>
    cases x with
    | advance =>
      obtain ⟨front, back, rfl, there⟩ := ih mem
      exact ⟨.advance :: front, back, rfl, by rw [there, moves_advance, Nat.add_right_comm]; rfl⟩
    | report diagnostic =>
      rcases List.mem_cons.1 mem with rfl | mem
      · exact ⟨[], steps, rfl, rfl⟩
      · obtain ⟨front, back, rfl, there⟩ := ih mem
        exact ⟨.report diagnostic :: front, back, rfl, there⟩
    | enter =>
      obtain ⟨front, back, rfl, there⟩ := ih mem
      exact ⟨.enter :: front, back, rfl, there⟩
    | leave =>
      obtain ⟨front, back, rfl, there⟩ := ih mem
      exact ⟨.leave :: front, back, rfl, there⟩

theorem play_expectSteps (s : Parser) (wanted : Kind) :
    s.play (s.expectSteps wanted) = (s.expectPeek wanted).2 := by
  unfold expectSteps expectPeek
  split <;> rfl

theorem play_integerSteps (s : Parser) : s.play s.integerSteps = s.integer.2 := by
  unfold integerSteps integer
  cases integerValue? s.current.literal <;> rfl

theorem play_illegalSteps (s : Parser) : s.play s.illegalSteps = s.reportIllegal := by
  unfold illegalSteps reportIllegal
  split <;> rfl

theorem tokenAt_play (s : Parser) (steps : List Step) (n : Nat) :
    (s.play steps).tokenAt n = s.tokenAt (moves steps + n) := by
  induction steps generalizing s with
  | nil => rw [play_nil, moves_nil, Nat.zero_add]
  | cons x steps ih =>
    rw [play_cons, ih]
    cases x with
    | advance => rw [step, tokenAt_advance, moves_advance, Nat.add_right_comm]
    | report diagnostic => exact tokenAt_reportAll _ s [diagnostic]
    | enter => exact tokenAt_enter _ s
    | leave => exact tokenAt_leave _ s

/-! The steps of a reading, case by case. -/

theorem readSteps_operand (s : Parser) : readSteps .operand s =
    match s.rules.operand s.current.kind with
    | some .integer => s.integerSteps
    | some .unary => s.unarySteps
    | some .grouping => s.groupingSteps
    | none => s.illegalSteps := by
  rw [readSteps]
  rfl

theorem readSteps_operators (p : Precedence) (left : Expr) (s : Parser) :
    readSteps (.operators p left) s =
      if s.takesOperator p = true then
        .advance :: (s.advance.binarySteps ++
          match s.advance.advance.expression s.peek.kind.precedence with
          | (some right, t) => readSteps (.operators p (.binary s.peek s.peek.literal left right)) t
          | (none, _) => [])
      else [] := by
  conv_lhs => rw [readSteps]
  split
  · split
    next read => rw [read]; rfl
    next read => rw [read]; rfl
  · rfl

theorem readSteps_expression (p : Precedence) (s : Parser) :
    readSteps (.expression p) s =
      if s.depth < s.limit then
        .enter :: (readSteps .operand s.enter ++
          (match read .operand s.enter with
          | (some left, t) => readSteps (.operators p left) t
          | (none, _) => []) ++ [.leave])
      else [.report (.nestingTooDeep s.limit)] := by
  conv_lhs => rw [readSteps]
  split
  · split
    next first => rw [first]
    next first => rw [first]
  · rfl

theorem readSteps_of_integer (rule : s.rules.operand s.current.kind = some .integer) :
    readSteps .operand s = s.integerSteps := by
  rw [readSteps_operand, rule]

theorem readSteps_of_unary (rule : s.rules.operand s.current.kind = some .unary) :
    readSteps .operand s = s.unarySteps := by
  rw [readSteps_operand, rule]

theorem readSteps_of_grouping (rule : s.rules.operand s.current.kind = some .grouping) :
    readSteps .operand s = s.groupingSteps := by
  rw [readSteps_operand, rule]

theorem readSteps_of_no_operand (rule : s.rules.operand s.current.kind = none) :
    readSteps .operand s = s.illegalSteps := by
  rw [readSteps_operand, rule]

variable {p : Precedence} {left : Expr}

theorem readSteps_of_last (stop : ¬s.takesOperator p = true) :
    readSteps (.operators p left) s = [] := by
  rw [readSteps_operators, if_neg stop]

theorem readSteps_of_join {right : Expr} (more : s.takesOperator p = true)
    (read : s.advance.advance.expression s.peek.kind.precedence = (some right, t)) :
    readSteps (.operators p left) s =
      .advance :: (s.advance.binarySteps ++
        readSteps (.operators p (.binary s.peek s.peek.literal left right)) t) := by
  rw [readSteps_operators, if_pos more, read]

theorem readSteps_of_joinFailed (more : s.takesOperator p = true)
    (read : s.advance.advance.expression s.peek.kind.precedence = (none, t)) :
    readSteps (.operators p left) s = .advance :: s.advance.binarySteps := by
  rw [readSteps_operators, if_pos more, read]
  exact congrArg (Step.advance :: ·) (List.append_nil _)

theorem readSteps_of_nested (room : s.depth < s.limit)
    (first : read .operand s.enter = (some left, t)) :
    readSteps (.expression p) s =
      .enter :: (readSteps .operand s.enter ++ readSteps (.operators p left) t ++ [.leave]) := by
  rw [readSteps_expression, if_pos room, first]

theorem readSteps_of_nestedFailed (room : s.depth < s.limit)
    (first : read .operand s.enter = (none, t)) :
    readSteps (.expression p) s = .enter :: (readSteps .operand s.enter ++ [.leave]) := by
  rw [readSteps_expression, if_pos room, first]
  exact congrArg (Step.enter :: · ++ [.leave]) (List.append_nil _)

theorem readSteps_of_full (full : ¬s.depth < s.limit) :
    readSteps (.expression p) s = [.report (.nestingTooDeep s.limit)] := by
  rw [readSteps_expression, if_neg full]

theorem grouping_of_none {s t : Parser} (read : s.advance.expression .lowest = (none, t)) :
    s.grouping = (none, t) := by
  have inner : s.expressionReader.read .lowest s.advance = (none, t) := read
  rw [grouping, groupingWith, inner]

theorem grouping_of_some {s t : Parser} {value : Expr}
    (read : s.advance.expression .lowest = (some value, t)) :
    s.grouping = (if (t.expectPeek .rightParen).1 then some value else none,
      (t.expectPeek .rightParen).2) := by
  have inner : s.expressionReader.read .lowest s.advance = (some value, t) := read
  rw [grouping, groupingWith, inner]

theorem groupingSteps_of_read {r : Option Expr} (read : s.advance.expression .lowest = (r, t)) :
    s.groupingSteps =
      .advance :: (readSteps (.expression .lowest) s.advance ++ closingSteps (r, t)) := by
  rw [groupingSteps, read]

theorem Reads.play_eq {goal : Goal} {result : Option Expr} (h : Reads goal s result t) :
    s.play (readSteps goal s) = t := by
  induction h with
  | @integer s value rule read => simp [readSteps_of_integer rule, integerSteps, read]
  | overflow rule read => simp [readSteps_of_integer rule, integerSteps, read, step]
  | unary rule _ ih => exact (readSteps_of_unary rule).symm ▸ ih
  | group rule inner closed ih =>
    rw [readSteps_of_grouping rule, groupingSteps_of_read inner.expression_eq]
    simp [step, ih, closingSteps, expectSteps, closed]
  | unclosed rule inner closed ih =>
    rw [readSteps_of_grouping rule, groupingSteps_of_read inner.expression_eq]
    simp [step, ih, closingSteps, expectSteps, closed]
  | groupFailed rule inner ih =>
    rw [readSteps_of_grouping rule, groupingSteps_of_read inner.expression_eq]
    simp [step, ih, closingSteps]
  | illegal rule kind => simp [readSteps_of_no_operand rule, illegalSteps, kind, step]
  | silent rule kind => simp [readSteps_of_no_operand rule, illegalSteps, kind]
  | last stop => simp [readSteps_of_last stop]
  | join more inner _ read others =>
    rw [readSteps_of_join more inner.expression_eq]
    simp [step, binarySteps, read, others]
  | joinFailed more inner read =>
    rw [readSteps_of_joinFailed more inner.expression_eq]
    simp [step, binarySteps, read]
  | nested room first _ operand others =>
    rw [readSteps_of_nested room first.read_eq]
    simp [step, operand, others]
  | nestedFailed room first operand =>
    rw [readSteps_of_nestedFailed room first.read_eq]
    simp [step, operand]
  | refused full => simp [readSteps_of_full full, step]

theorem play_readSteps (goal : Goal) (s : Parser) :
    s.play (readSteps goal s) = (read goal s).2 :=
  (reads_iff.2 rfl).play_eq

theorem play_unarySteps (s : Parser) : s.play s.unarySteps = s.unary.2 :=
  play_readSteps (.expression .unary) s.advance

theorem play_binarySteps (left : Expr) (s : Parser) : s.play s.binarySteps = (s.binary left).2 :=
  play_readSteps (.expression s.current.kind.precedence) s.advance

theorem play_groupingSteps (s : Parser) : s.play s.groupingSteps = s.grouping.2 := by
  have inner : s.advance.play (readSteps (.expression .lowest) s.advance) =
    (s.advance.expression .lowest).2 := play_readSteps _ _
  rcases found : s.advance.expression .lowest with ⟨_ | value, t⟩ <;> rw [found] at inner
  · rw [groupingSteps_of_read found, grouping_of_none found]
    simp [step, inner, closingSteps]
  · rw [groupingSteps_of_read found, grouping_of_some found]
    simp [step, inner, closingSteps, play_expectSteps]

theorem play_skipSteps (s : Parser) : s.play s.skipSteps = s.skip := by
  fun_induction skip s with
  | case1 s boundary => rw [skipSteps, if_pos boundary, play_nil]
  | case2 s more ih =>
    rw [skipSteps, if_neg more]
    exact ih

theorem play_tailSteps (s : Parser) : s.play s.tailSteps = s.skipTail := by
  fun_induction skipTail s with
  | case1 s boundary => rw [tailSteps, if_pos boundary, play_nil]
  | case2 s more ih =>
    rw [tailSteps, if_neg more, play_append, play_illegalSteps]
    exact ih

theorem bindingSteps_of_some {value : Expr} (read : s.expression .lowest = (some value, t)) :
    s.bindingSteps = readSteps (.expression .lowest) s ++ t.tailSteps := by
  rw [bindingSteps, read]

theorem bindingSteps_of_none (read : s.expression .lowest = (none, t)) :
    s.bindingSteps = readSteps (.expression .lowest) s ++
      if t.diagnostics.length = s.diagnostics.length then
        [.report (.missingExpression t.current.kind)]
      else [] := by
  rw [bindingSteps, read]

theorem play_bindingSteps (s : Parser) : s.play s.bindingSteps = s.bindingValue.2 := by
  have inner : s.play (readSteps (.expression .lowest) s) = (s.expression .lowest).2 :=
    play_readSteps _ _
  rcases read : s.expression .lowest with ⟨_ | value, t⟩ <;> rw [read] at inner
  · rw [bindingSteps_of_none read, bindingValue, read, play_append, inner]
    dsimp only
    split <;> rfl
  · rw [bindingSteps_of_some read, bindingValue, read, play_append, inner]
    exact t.play_tailSteps

theorem letSteps_of_unnamed (named : s.peek.kind ≠ .identifier) :
    s.letSteps = [.report (.unexpectedToken .identifier s.peek.kind)] := by
  simp [letSteps, expectSteps, expectPeek, named]

theorem letSteps_of_unassigned (named : s.peek.kind = .identifier)
    (assign : s.advance.peek.kind ≠ .assign) :
    s.letSteps = [.advance, .report (.unexpectedToken .assign s.advance.peek.kind)] := by
  simp [letSteps, expectSteps, expectPeek, named, assign]

theorem letSteps_of_assigned (named : s.peek.kind = .identifier)
    (assign : s.advance.peek.kind = .assign) :
    s.letSteps = .advance :: .advance :: .advance :: s.advance.advance.advance.bindingSteps := by
  simp [letSteps, expectSteps, expectPeek, named, assign]

theorem play_letSteps (s : Parser) : s.play s.letSteps = s.letBinding.2 := by
  by_cases named : s.peek.kind = .identifier
  · by_cases assign : s.advance.peek.kind = .assign
    · rw [letSteps_of_assigned named assign, letBinding_of_assigned named assign]
      exact s.advance.advance.advance.play_bindingSteps
    · rw [letSteps_of_unassigned named assign, letBinding_of_unassigned named assign]
      rfl
  · rw [letSteps_of_unnamed named, letBinding_of_unnamed named]
    rfl

theorem play_bodySteps (s : Parser) : s.play s.bodySteps = s.statementBody.2 := by
  rcases rule : s.rules.statement s.current.kind with _ | _ | _ <;>
    rw [bodySteps, statementBody, rule]
  · exact play_readSteps (.expression .lowest) s
  · exact s.play_letSteps
  · exact play_readSteps (.expression .lowest) s

theorem play_recoverSteps (reported : Bool) (s : Parser) :
    s.play (s.recoverSteps reported) = s.recover reported := by
  unfold recoverSteps recover
  split
  · exact s.play_skipSteps
  · rfl

theorem play_statementSteps (s : Parser) : s.play s.statementSteps = s.statement.2 := by
  rw [statementSteps, play_append, play_append, play_bodySteps, play_recoverSteps]
  rfl

theorem play_programSteps (s : Parser) : s.play s.programSteps = s.program.2 := by
  induction s using program_induction with
  | last s done => rw [programSteps, if_pos done, program_of_end done, play_nil]
  | step s more ih =>
    rw [programSteps, if_neg more, program_of_statement more, play_append, play_statementSteps]
    exact ih

/-- The steps of an action are all that it does. Only the actions that change the rules do more than
their steps, and they do nothing else. -/
theorem play_actionSteps (s : Parser) (action : Action) :
    (s.perform action).2 =
      { s.play (s.actionSteps action) with rules := (s.perform action).2.rules } := by
  cases action with
  | advance | report | precedences | rules | messages => rfl
  | setStatement | setOperand | setBinary => rfl
  | expectPeek wanted => rw [actionSteps, play_expectSteps]; rfl
  | statement => rw [actionSteps, play_statementSteps]; rfl
  | letBinding => rw [actionSteps, play_letSteps]; rfl
  | expressionStatement => rw [actionSteps, play_readSteps]; rfl
  | expression p => rw [actionSteps, play_readSteps]; rfl
  | integer => rw [actionSteps, play_integerSteps]; rfl
  | unary => rw [actionSteps, play_unarySteps]; rfl
  | grouping => rw [actionSteps, play_groupingSteps]; rfl
  | binary left => rw [actionSteps, play_binarySteps left]; rfl
  | program => rw [actionSteps, play_programSteps]; rfl

end Parser
end LetArith
