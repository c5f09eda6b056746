import LetArith.Proofs.Statements

/-!
Two parsers side by side. The second faces the tokens of a text, and the first the same tokens with
more behind them. If nothing more is there, or if it starts with a semicolon and the rules are those
of the language, the two read the same up to there (`Reads.alike`, `Ends.alike`), and their reports
differ only in what they name for the end of the text.
-/

namespace LetArith

/-- The kind that is seen where a token of the kind `next` stands in place of the end of a text. -/
def Kind.continued (kind next : Kind) : Kind :=
  if kind = .endOfInput then next else kind

def Diagnostic.continued (next : Kind) : Diagnostic → Diagnostic
  | .unexpectedToken expected got => .unexpectedToken expected (got.continued next)
  | .missingExpression got => .missingExpression (got.continued next)
  | diagnostic => diagnostic

@[simp] theorem Kind.continued_endOfInput (kind : Kind) : kind.continued .endOfInput = kind := by
  unfold continued
  split
  next last => exact last.symm
  next => rfl

@[simp] theorem Diagnostic.continued_endOfInput (diagnostic : Diagnostic) :
    diagnostic.continued .endOfInput = diagnostic := by
  cases diagnostic <;> simp [continued]

namespace Parser

variable {back : List Token} {before : List Diagnostic} {s t u v : Parser}

def nextKind (back : List Token) : Kind :=
  (back.headD .endOfInput).kind

/-- What `t` faces, `s` faces before `back`. What `t` has reported, `s` has reported after
`before`. -/
structure Alike (back : List Token) (before : List Diagnostic) (s t : Parser) : Prop where
  faces : ∃ front, t.Faces front ∧ s.Faces (front ++ back) ∧ ∀ x ∈ front, x.kind ≠ .endOfInput
  diagnostics : s.diagnostics = before ++ t.diagnostics.map (.continued (nextKind back))
  rules : s.rules = t.rules
  depth : s.depth = t.depth
  limit : s.limit = t.limit
  closed : back = [] ∨ nextKind back = .semicolon ∧ s.rules = .standard

/-! ## Moves and reports -/

namespace Alike

variable (h : Alike back before s t)
include h

theorem at_end (done : t.current.kind = .endOfInput) : s.Faces back ∧ t.Faces [] := by
  obtain ⟨front, faces, faces', inText⟩ := h.faces
  cases front with
  | nil => exact ⟨faces', faces⟩
  | cons x front =>
    rw [faces.current_eq] at done
    exact absurd done (inText x (.head front))

theorem advance (more : t.current.kind ≠ .endOfInput ∨ back = []) :
    Alike back before s.advance t.advance := by
  refine ⟨?_, h.diagnostics, h.rules, h.depth, h.limit, h.closed⟩
  obtain ⟨front, faces, faces', inText⟩ := h.faces
  cases front with
  | nil =>
    rcases more with more | rfl
    · exact absurd (congrArg Token.kind faces.current_eq_endOfInput) more
    · exact ⟨[], faces.advance_nil, faces'.advance_nil, inText⟩
  | cons x front =>
    exact ⟨front, faces.advance, faces'.advance, fun y mem => inText y (.tail x mem)⟩

theorem current_kind : s.current.kind = t.current.kind.continued (nextKind back) := by
  obtain ⟨front, faces, faces', inText⟩ := h.faces
  cases front with
  | nil =>
    have last : t.current.kind = .endOfInput := congrArg Token.kind faces.current_eq_endOfInput
    rw [Kind.continued, if_pos last]
    cases back with
    | nil => exact congrArg Token.kind faces'.current_eq_endOfInput
    | cons y back => exact congrArg Token.kind faces'.current_eq
  | cons x front =>
    rw [faces.current_eq, faces'.current_eq, Kind.continued, if_neg (inText x (.head front))]

theorem window : (s.current = t.current ∧ Alike back before s.advance t.advance) ∨
    s.current.kind = .semicolon ∧ t.current.kind = .endOfInput ∧ s.rules = .standard := by
  by_cases more : t.current.kind = .endOfInput
  · obtain ⟨faces, faces'⟩ := h.at_end more
    rcases h.closed with rfl | ⟨semicolon, standard⟩
    · refine .inl ⟨?_, h.advance (.inr rfl)⟩
      rw [faces.current_eq_endOfInput, faces'.current_eq_endOfInput]
    · have kind := h.current_kind
      rw [Kind.continued, if_pos more, semicolon] at kind
      exact .inr ⟨kind, more, standard⟩
  · refine .inl ⟨?_, h.advance (.inl more)⟩
    obtain ⟨front, faces, faces', inText⟩ := h.faces
    cases front with
    | nil => exact absurd (congrArg Token.kind faces.current_eq_endOfInput) more
    | cons x front => rw [faces.current_eq, faces'.current_eq]

theorem report (diagnostic : Diagnostic) :
    Alike back before (s.report (diagnostic.continued (nextKind back)))
      (t.report diagnostic) := by
  obtain ⟨front, faces, faces', inText⟩ := h.faces
  refine ⟨⟨front, faces.report, faces'.report, inText⟩, ?_, h.rules, h.depth, h.limit, h.closed⟩
  simp [Parser.report, h.diagnostics]

theorem enter : Alike back before s.enter t.enter := by
  obtain ⟨front, faces, faces', inText⟩ := h.faces
  exact ⟨⟨front, faces.enter, faces'.enter, inText⟩, h.diagnostics, h.rules,
    congrArg (· + 1) h.depth, h.limit, h.closed⟩

theorem leave : Alike back before s.leave t.leave := by
  obtain ⟨front, faces, faces', inText⟩ := h.faces
  exact ⟨⟨front, faces.leave, faces'.leave, inText⟩, h.diagnostics, h.rules,
    congrArg (· - 1) h.depth, h.limit, h.closed⟩

end Alike

/-! ## Expressions -/

namespace Alike

theorem of_operand (h : Alike back before s t) {rule : OperandRule}
    (known : s.rules.operand s.current.kind = some rule) :
    t.rules.operand t.current.kind = some rule ∧ s.current = t.current ∧
      Alike back before s.advance t.advance := by
  obtain ⟨same, next⟩ | ⟨kind, -, standard⟩ := h.window
  · exact ⟨by rw [← known, same, h.rules], same, next⟩
  · rw [standard, kind] at known
    cases known

theorem of_no_operand (h : Alike back before s t)
    (unknown : s.rules.operand s.current.kind = none) :
    t.rules.operand t.current.kind = none ∧
      (s.current.kind = .illegal ↔ t.current.kind = .illegal) := by
  obtain ⟨same, -⟩ | ⟨kind, done, standard⟩ := h.window
  · rw [← h.rules, ← same]
    exact ⟨unknown, Iff.rfl⟩
  · rw [← h.rules, standard, kind, done]
    exact ⟨rfl, by decide⟩

theorem takesOperator_eq (behind : Alike back before s.advance t.advance) (p : Precedence) :
    t.takesOperator p = s.takesOperator p := by
  have rules : s.rules = t.rules := behind.rules
  obtain ⟨same, -⟩ | ⟨kind, done, -⟩ := behind.window
  · rw [advance_current, advance_current] at same
    rw [takesOperator, takesOperator, same, rules]
  · rw [advance_current] at kind done
    rw [takesOperator, takesOperator, kind, done]
    simp [Kind.precedence, Precedence.not_lt_lowest]

theorem of_takesOperator (behind : Alike back before s.advance t.advance) {p : Precedence}
    (more : s.takesOperator p = true) :
    s.peek = t.peek ∧ Alike back before s.advance.advance t.advance.advance := by
  obtain ⟨same, next⟩ | ⟨kind, -, -⟩ := behind.window
  · exact ⟨same, next⟩
  · rw [advance_current] at kind
    simp [takesOperator, kind, Kind.precedence, Precedence.not_lt_lowest] at more

end Alike

def Goal.Continues : Goal → Prop
  | .operators _ _ => True
  | .operand | .expression _ => False

/-- What one parser reads, the other reads. Where something is found both may move on, as an
operator behind it does. -/
theorem Reads.alike {goal : Goal} {s s' t : Parser} {result : Option Expr}
    (h : Reads goal s result s') (alike : Alike back before s t)
    (inside : goal.Continues → Alike back before s.advance t.advance) :
    ∃ t', Reads goal t result t' ∧ Alike back before s' t' ∧
      (result ≠ none → Alike back before s'.advance t'.advance) := by
  induction h generalizing t with
  | integer rule read =>
    obtain ⟨rule, same, next⟩ := alike.of_operand rule
    rw [same] at read ⊢
    exact ⟨t, .integer rule read, alike, fun _ => next⟩
  | overflow rule read =>
    obtain ⟨rule, same, next⟩ := alike.of_operand rule
    rw [same] at read ⊢
    exact ⟨_, .overflow rule read, alike.report (.invalidInteger _), absurd rfl⟩
  | unary rule _ ih =>
    obtain ⟨rule, same, next⟩ := alike.of_operand rule
    obtain ⟨t', reads, there, behind⟩ := ih next nofun
    rw [same]
    exact ⟨t', .unary rule reads, there, fun found => behind (by simpa using found)⟩
  | group rule _ closed ih =>
    obtain ⟨rule, -, next⟩ := alike.of_operand rule
    obtain ⟨t', reads, there, behind⟩ := ih next nofun
    -- a closing parenthesis is no semicolon, so it is one that both face
    obtain ⟨paren, after⟩ | ⟨kind, -, -⟩ := (behind nofun).window
    · rw [advance_current, advance_current] at paren
      rw [paren] at closed
      exact ⟨_, .group rule reads closed, behind nofun, fun _ => after⟩
    · rw [advance_current, closed] at kind
      cases kind
  | @unclosed s s' value rule _ closed ih =>
    obtain ⟨rule, -, next⟩ := alike.of_operand rule
    obtain ⟨t', reads, there, behind⟩ := ih next nofun
    have kind : s'.peek.kind = t'.peek.kind.continued (nextKind back) :=
      (behind nofun).current_kind
    have open' : t'.peek.kind ≠ .rightParen := by
      intro paren
      rw [kind, paren] at closed
      exact closed rfl
    rw [kind]
    exact ⟨_, .unclosed rule reads open', there.report (.unexpectedToken .rightParen _), absurd rfl⟩
  | groupFailed rule _ ih =>
    obtain ⟨rule, -, next⟩ := alike.of_operand rule
    obtain ⟨t', reads, there, -⟩ := ih next nofun
    exact ⟨t', .groupFailed rule reads, there, absurd rfl⟩
  | illegal rule kind =>
    obtain ⟨same, -⟩ | ⟨kind', -, -⟩ := alike.window
    · rw [alike.rules, same] at rule
      rw [same] at kind ⊢
      exact ⟨_, .illegal rule kind, alike.report (.illegalCharacter _), absurd rfl⟩
    · rw [kind] at kind'
      cases kind'
  | silent rule kind =>
    obtain ⟨rule, kinds⟩ := alike.of_no_operand rule
    exact ⟨t, .silent rule (mt kinds.2 kind), alike, absurd rfl⟩
  | last stop =>
    have behind := inside trivial
    rw [← behind.takesOperator_eq] at stop
    exact ⟨t, .last stop, alike, fun _ => behind⟩
  | join more _ _ inner others =>
    have behind := inside trivial
    obtain ⟨same, next⟩ := behind.of_takesOperator more
    rw [← behind.takesOperator_eq] at more
    obtain ⟨t', reads, there, after⟩ := inner next nofun
    obtain ⟨t'', reads', result⟩ := others there fun _ => after nofun
    rw [same] at reads reads'
    exact ⟨t'', .join more reads reads', result⟩
  | joinFailed more _ inner =>
    have behind := inside trivial
    obtain ⟨same, next⟩ := behind.of_takesOperator more
    rw [← behind.takesOperator_eq] at more
    obtain ⟨t', reads, there, -⟩ := inner next nofun
    rw [same] at reads
    exact ⟨t', .joinFailed more reads, there, absurd rfl⟩
  | nested room _ _ first others =>
    rw [alike.depth, alike.limit] at room
    obtain ⟨t', reads, there, after⟩ := first alike.enter nofun
    obtain ⟨t'', reads', there', after'⟩ := others there fun _ => after nofun
    exact ⟨t''.leave, .nested room reads reads', there'.leave, fun found => (after' found).leave⟩
  | nestedFailed room _ first =>
    rw [alike.depth, alike.limit] at room
    obtain ⟨t', reads, there, -⟩ := first alike.enter nofun
    exact ⟨t'.leave, .nestedFailed room reads, there.leave, absurd rfl⟩
  | refused full =>
    rw [alike.depth, alike.limit] at full
    rw [alike.limit]
    exact ⟨_, .refused full, alike.report (.nestingTooDeep _), absurd rfl⟩

namespace Alike

variable (h : Alike back before s t)
include h

theorem expression (p : Precedence) :
    (s.expression p).1 = (t.expression p).1 ∧
      Alike back before (s.expression p).2 (t.expression p).2 ∧
      ((t.expression p).1 ≠ none →
        Alike back before (s.expression p).2.advance (t.expression p).2.advance) := by
  obtain ⟨t', reads, there, behind⟩ := (expression_reads p s).alike h nofun
  rw [reads.expression_eq]
  exact ⟨rfl, there, behind⟩

/-! ## Statements -/

theorem atBoundary_eq : t.atBoundary = s.atBoundary := by
  obtain ⟨same, -⟩ | ⟨kind, done, -⟩ := h.window
  · rw [atBoundary, atBoundary, same]
  · simp [atBoundary, kind, done]

theorem advance_inside (more : ¬s.atBoundary = true) : Alike back before s.advance t.advance := by
  obtain ⟨-, next⟩ | ⟨kind, -, -⟩ := h.window
  · exact next
  · exact absurd (by simp [atBoundary, kind]) more

theorem skip : Alike back before s.skip t.skip := by
  fun_induction Parser.skip s generalizing t with
  | case1 s boundary =>
    rw [← h.atBoundary_eq] at boundary
    rw [Parser.skip, if_pos boundary]
    exact h
  | case2 s more ih =>
    have next := h.advance_inside more
    rw [← h.atBoundary_eq] at more
    rw [Parser.skip.eq_def t, if_neg more]
    exact ih next

theorem reportIllegal : Alike back before s.reportIllegal t.reportIllegal := by
  obtain ⟨same, -⟩ | ⟨kind, done, -⟩ := h.window
  · rw [Parser.reportIllegal, Parser.reportIllegal, same]
    split
    · exact h.report (.illegalCharacter _)
    · exact h
  · rw [Parser.reportIllegal, Parser.reportIllegal, kind, done]
    exact h

theorem length_diagnostics : s.diagnostics.length = before.length + t.diagnostics.length := by
  rw [h.diagnostics, List.length_append, List.length_map]

theorem skipTail : Alike back before s.skipTail t.skipTail := by
  fun_induction Parser.skipTail s generalizing t with
  | case1 s boundary =>
    rw [← h.atBoundary_eq] at boundary
    rw [Parser.skipTail, if_pos boundary]
    exact h
  | case2 s more ih =>
    have next := h.reportIllegal.advance_inside (by rwa [reportIllegal_atBoundary])
    rw [← h.atBoundary_eq] at more
    rw [Parser.skipTail.eq_def t, if_neg more]
    exact ih next

theorem bindingValue : s.bindingValue.1 = t.bindingValue.1 ∧
    Alike back before s.bindingValue.2 t.bindingValue.2 := by
  obtain ⟨value, read, -⟩ := h.expression .lowest
  rw [bindingValue_fst, bindingValue_fst]
  refine ⟨value, ?_⟩
  -- both report the value themselves, or neither does
  have first := h.length_diagnostics
  have second := read.length_diagnostics
  rw [Parser.bindingValue, Parser.bindingValue]
  rcases left : s.expression .lowest with ⟨_ | e, u⟩ <;>
    rcases right : t.expression .lowest with ⟨_ | f, v⟩ <;>
    simp only [left, right] at value read second ⊢
  · by_cases silent : v.diagnostics.length = t.diagnostics.length
    · rw [if_pos silent, if_pos (by omega), read.current_kind]
      exact read.report (.missingExpression _)
    · rw [if_neg silent, if_neg (by omega)]
      exact read
  · cases value
  · cases value
  · exact read.skipTail

omit h in
theorem letBinding (h : Alike back before s t) (same : s.current = t.current)
    (next : Alike back before s.advance t.advance) :
    s.letBinding.1 = t.letBinding.1 ∧ Alike back before s.letBinding.2 t.letBinding.2 := by
  have kind : s.peek.kind = t.peek.kind.continued (nextKind back) := next.current_kind
  -- the text of `t` may end in place of the name, or in place of the sign, or behind both
  obtain ⟨name, second⟩ | ⟨semicolon, done, -⟩ := next.window
  · have kind' : s.advance.peek.kind = t.advance.peek.kind.continued (nextKind back) :=
      second.current_kind
    rw [advance_current, advance_current] at name
    by_cases named : t.peek.kind = .identifier
    · obtain ⟨sign, third⟩ | ⟨semicolon, done, -⟩ := second.window
      · rw [advance_current, advance_current] at sign
        by_cases assign : t.advance.peek.kind = .assign
        · obtain ⟨value, there⟩ := third.bindingValue
          rw [letBinding_of_assigned named assign, letBinding_of_assigned (by rwa [name])
            (by rwa [sign]), value, same, name]
          exact ⟨rfl, there⟩
        · rw [letBinding_of_unassigned named assign, letBinding_of_unassigned (by rwa [name])
            (by rwa [sign]), kind']
          exact ⟨rfl, next.report (.unexpectedToken .assign _)⟩
      · rw [advance_current] at semicolon done
        rw [letBinding_of_unassigned named (by rw [done]; decide), letBinding_of_unassigned
          (by rwa [name]) (by rw [semicolon]; decide), kind']
        exact ⟨rfl, next.report (.unexpectedToken .assign _)⟩
    · rw [letBinding_of_unnamed named, letBinding_of_unnamed (by rwa [name]), kind]
      exact ⟨rfl, h.report (.unexpectedToken .identifier _)⟩
  · rw [advance_current] at semicolon done
    have unnamed : s.peek.kind ≠ .identifier := by rw [semicolon]; decide
    have unnamed' : t.peek.kind ≠ .identifier := by rw [done]; decide
    rw [letBinding_of_unnamed unnamed, letBinding_of_unnamed unnamed', kind]
    exact ⟨rfl, h.report (.unexpectedToken .identifier _)⟩

theorem expressionStatement : s.expressionStatement.1 = t.expressionStatement.1 ∧
    Alike back before s.expressionStatement.2 t.expressionStatement.2 := by
  obtain ⟨value, read, -⟩ := h.expression .lowest
  refine ⟨?_, read⟩
  rw [Parser.expressionStatement, Parser.expressionStatement, value]
  obtain ⟨same, -⟩ | ⟨kind, -, standard⟩ := h.window
  · rw [same]
  · rw [← value, expression_eq_none (by rw [standard, kind]; rfl)]
    rfl

theorem statementBody : s.statementBody.1 = t.statementBody.1 ∧
    Alike back before s.statementBody.2 t.statementBody.2 := by
  obtain ⟨same, next⟩ | ⟨kind, done, standard⟩ := h.window
  · rw [Parser.statementBody, Parser.statementBody, same, h.rules]
    split
    · exact h.letBinding same next
    · exact h.expressionStatement
    · exact h.expressionStatement
  · rw [statementBody_of_expression standard (by rw [kind]; decide),
      statementBody_of_expression (h.rules ▸ standard) (by rw [done]; decide)]
    exact h.expressionStatement

theorem recover (reported : Bool) :
    Alike back before (s.recover reported) (t.recover reported) := by
  unfold Parser.recover
  split
  · exact h.skip
  · exact h

theorem recovered : Alike back before s.recovered t.recovered := by
  obtain ⟨found, there⟩ := h.statementBody
  have first := h.length_diagnostics
  have second := there.length_diagnostics
  have reported : s.diagnostics.length < s.statementBody.2.diagnostics.length ↔
      t.diagnostics.length < t.statementBody.2.diagnostics.length := by omega
  rw [Parser.recovered, Parser.recovered, found]
  simp only [reported]
  exact there.recover _

end Alike

/-! ## Programs -/

/-- How the reading of a program comes to the end of its text: between two statements, or inside the
last one, whose last move then leads over the end. -/
inductive Ends : Bool → Parser → Parser → Prop where
  | between {s : Parser} (done : s.current.kind = .endOfInput) : Ends false s s
  | inside {s : Parser} (more : s.current.kind ≠ .endOfInput)
      (done : s.recovered.current.kind = .endOfInput) : Ends true s s.recovered
  | statement {inside : Bool} {s t : Parser} (more : s.current.kind ≠ .endOfInput)
      (more' : s.recovered.current.kind ≠ .endOfInput)
      (others : Ends inside s.recovered.advance t) : Ends inside s t

theorem exists_ends (s : Parser) : ∃ inside t, Ends inside s t := by
  induction s using program_induction with
  | last s done => exact ⟨false, s, .between done⟩
  | step s more ih =>
    by_cases done : s.recovered.current.kind = .endOfInput
    · exact ⟨true, s.recovered, .inside more done⟩
    · obtain ⟨inside, t, ends⟩ := ih
      exact ⟨inside, t, .statement more done ends⟩

def behind (inside : Bool) (s : Parser) : Parser :=
  if inside then s.advance else s

theorem Ends.current_kind {inside : Bool} (h : Ends inside s t) : t.current.kind = .endOfInput := by
  induction h with
  | between done => exact done
  | inside _ done => exact done
  | statement _ _ _ ih => exact ih

theorem Ends.leads {inside : Bool} (h : Ends inside s t) : Leads s t := by
  induction h with
  | between => exact .refl _
  | inside => exact recovered_leads _
  | statement _ _ _ ih => exact (recovered_leads _).trans ((Leads.advance _).trans ih)

@[simp] theorem behind_diagnostics (inside : Bool) (s : Parser) :
    (s.behind inside).diagnostics = s.diagnostics := by
  cases inside <;> rfl

/-- The program that `s` reads starts with the statements of `t`, and goes on where the text of `t`
ends. -/
theorem Ends.alike {inside : Bool} (h : Ends inside t v) (alike : Alike back before s t) :
    ∃ u, Alike back before u v ∧ t.program.2 = v.behind inside ∧
      s.program = (t.program.1 ++ (u.behind inside).program.1, (u.behind inside).program.2) := by
  have more' {s t : Parser} (alike : Alike back before s t) (more : t.current.kind ≠ .endOfInput) :
      s.current.kind ≠ .endOfInput := by
    rw [alike.current_kind, Kind.continued, if_neg more]
    exact more
  induction h generalizing s with
  | between done =>
    rw [program_of_end done]
    exact ⟨s, alike, rfl, rfl⟩
  | @inside t more done =>
    have last : t.recovered.advance.program = ([], t.recovered.advance) :=
      program_of_faces_nil (alike.recovered.at_end done).2.advance_nil
    refine ⟨s.recovered, alike.recovered, ?_, ?_⟩
    · rw [program_of_statement more, statement_eq, last]
      rfl
    · rw [program_of_statement (more' alike more), program_of_statement more, statement_eq,
        statement_eq, last, alike.statementBody.1, List.append_nil]
      rfl
  | statement more inner others ih =>
    obtain ⟨u, there, last, read⟩ := ih (alike.recovered.advance (.inl inner))
    refine ⟨u, there, ?_, ?_⟩
    · rw [program_of_statement more]
      exact last
    · rw [program_of_statement (more' alike more), program_of_statement more, statement_eq,
        statement_eq, alike.statementBody.1, read, List.append_assoc]

/-! ## The same tokens -/

namespace Alike

variable (h : Alike [] before s t)
include h

theorem current_eq : s.current = t.current ∧ Alike [] before s.advance t.advance := by
  obtain both | ⟨semicolon, last, -⟩ := h.window
  · exact both
  · rw [h.current_kind, last] at semicolon
    cases semicolon

theorem peek_eq : s.peek = t.peek :=
  h.current_eq.2.current_eq.1

theorem diagnostics_eq : s.diagnostics = before ++ t.diagnostics := by
  have same := h.diagnostics
  rwa [show Diagnostic.continued (nextKind []) = id from
    funext Diagnostic.continued_endOfInput, List.map_id] at same

theorem program : s.program.1 = t.program.1 ∧ Alike [] before s.program.2 t.program.2 := by
  obtain ⟨inside, v, ends⟩ := t.exists_ends
  obtain ⟨u, there, last, read⟩ := ends.alike h
  have next : Alike [] before (u.behind inside) (v.behind inside) := by
    cases inside
    · exact there
    · exact there.current_eq.2
  have kind : (v.behind inside).current.kind = .endOfInput := by
    have faces := (there.at_end ends.current_kind).2
    cases inside
    · exact ends.current_kind
    · exact congrArg Token.kind faces.advance_nil.current_eq_endOfInput
  rw [read, last, program_of_faces_nil (next.at_end kind).1]
  exact ⟨List.append_nil _, next⟩

end Alike

theorem alike_ofSource {source : String} {limit : Nat} (faces : s.Faces (lexemes source.toList))
    (standard : s.rules = .standard) (depth : s.depth = 0) (bound : s.limit = limit) :
    Alike [] s.diagnostics s (ofSource source limit) :=
  ⟨⟨_, ofSource_faces source limit, by rwa [List.append_nil], kind_ne_of_mem_lexemes⟩,
    (List.append_nil _).symm, standard, depth, bound, .inl rfl⟩

end Parser
end LetArith
