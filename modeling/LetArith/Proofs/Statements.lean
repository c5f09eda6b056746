import LetArith.Proofs.Acceptance
import LetArith.Proofs.Lexing

/-!
Statements on a window that faces known tokens. Every reading of a statement only moves and reports
(`statement_leads`). A `Layout` is a list of tokens that starts with well-formed statements, and a
program laid out so is read back exactly, whatever follows it (`Layout.program_eq`).
-/

namespace LetArith.Parser

/-! ## Moves and reports -/

theorem skip_leads (s : Parser) : Leads s s.skip := by
  fun_induction skip s with
  | case1 s => exact .refl s
  | case2 s _ ih => exact (Leads.advance s).trans ih

theorem reportIllegal_leads (s : Parser) : Leads s s.reportIllegal := by
  unfold reportIllegal
  split
  · exact .report s _
  · exact .refl s

@[simp] theorem reportIllegal_atBoundary (s : Parser) :
    s.reportIllegal.atBoundary = s.atBoundary := by
  unfold reportIllegal
  split <;> rfl

theorem skipTail_leads (s : Parser) : Leads s s.skipTail := by
  fun_induction skipTail s with
  | case1 s => exact .refl s
  | case2 s _ ih => exact s.reportIllegal_leads.trans ((Leads.advance _).trans ih)

theorem bindingValue_leads (s : Parser) : Leads s s.bindingValue.2 := by
  have read := expression_leads .lowest s
  unfold bindingValue
  split
  next value t equation =>
    rw [equation] at read
    exact read.trans t.skipTail_leads
  next t equation =>
    rw [equation] at read
    split
    · exact read.trans (.report t _)
    · exact read

theorem letBinding_leads (s : Parser) : Leads s s.letBinding.2 := by
  have first := Leads.expectPeek s .identifier
  unfold letBinding
  split
  next t equation =>
    rw [equation] at first
    exact first
  next named equation =>
    rw [equation] at first
    have second := Leads.expectPeek named .assign
    split
    next t equation =>
      rw [equation] at second
      exact first.trans second
    next assigned equation =>
      rw [equation] at second
      exact first.trans (second.trans ((Leads.advance _).trans assigned.advance.bindingValue_leads))

theorem statementBody_leads (s : Parser) : Leads s s.statementBody.2 := by
  unfold statementBody
  split
  · exact s.letBinding_leads
  · exact expression_leads .lowest s
  · exact expression_leads .lowest s

theorem recover_leads (reported : Bool) (s : Parser) : Leads s (s.recover reported) := by
  unfold recover
  split
  · exact s.skip_leads
  · exact .refl s

/-- Where a statement leaves the window before its last move. -/
def recovered (s : Parser) : Parser :=
  s.statementBody.2.recover
    (s.statementBody.1.isNone && s.diagnostics.length < s.statementBody.2.diagnostics.length)

theorem statement_eq (s : Parser) : s.statement = (s.statementBody.1, s.recovered.advance) := rfl

theorem recovered_leads (s : Parser) : Leads s s.recovered :=
  s.statementBody_leads.trans (recover_leads _ _)

theorem statement_leads (s : Parser) : Leads s s.statement.2 :=
  s.recovered_leads.trans (.advance _)

theorem program_of_end {s : Parser} (done : s.current.kind = .endOfInput) :
    s.program = ([], s) := by
  rw [program, if_pos done]

theorem program_of_statement {s : Parser} (more : s.current.kind ≠ .endOfInput) :
    s.program = (s.statement.1.toList ++ s.statement.2.program.1, s.statement.2.program.2) := by
  rw [program, if_neg more]

theorem program_induction {motive : Parser → Prop}
    (last : ∀ s, s.current.kind = .endOfInput → motive s)
    (step : ∀ s, s.current.kind ≠ .endOfInput → motive s.statement.2 → motive s) (s : Parser) :
    motive s := by
  fun_induction program s with
  | case1 s done => exact last s done
  | case2 s more first others ih => exact step s more ih

theorem program_leads (s : Parser) : Leads s s.program.2 := by
  induction s using program_induction with
  | last s done =>
    rw [program_of_end done]
    exact .refl s
  | step s more ih =>
    rw [program_of_statement more]
    exact s.statement_leads.trans ih

theorem statement_of_success {s t : Parser} {found : Statement}
    (body : s.statementBody = (some found, t)) : s.statement = (some found, t.advance) := by
  rw [statement, body]
  rfl

theorem statement_of_silence {s t : Parser} (body : s.statementBody = (none, t))
    (silent : t.diagnostics = s.diagnostics) : s.statement = (none, t.advance) := by
  rw [statement, body]
  simp [recover, silent]

theorem forall_mem_program {motive : Statement → Prop} (s : Parser)
    (read : ∀ t found, Leads s t → t.statement.1 = some found → motive found) :
    ∀ found ∈ s.program.1, motive found := by
  fun_induction program s with
  | case1 s done => simp
  | case2 s more first others ih =>
    refine List.forall_mem_append.2 ⟨?_, ?_⟩
    · intro found mem
      exact read s found (.refl s) (Option.mem_toList.1 mem)
    · apply ih
      intro t found moved
      exact read t found (s.statement_leads.trans moved)

theorem bindingValue_fst (s : Parser) : s.bindingValue.1 = (s.expression .lowest).1 := by
  unfold bindingValue
  split
  next value t equation => rw [equation]
  next t equation => rw [equation]

theorem bindingValue_of_silent {s t : Parser} (read : s.expression .lowest = (none, t))
    (silent : t.diagnostics = s.diagnostics) :
    s.bindingValue = (none, t.report (.missingExpression t.current.kind)) := by
  rw [bindingValue, read]
  exact congrArg (Prod.mk none) (if_pos (by rw [silent]))

theorem bindingValue_of_report {s t : Parser} {diagnostic : Diagnostic}
    (read : s.expression .lowest = (none, t))
    (reported : t.diagnostics = s.diagnostics ++ [diagnostic]) : s.bindingValue = (none, t) := by
  rw [bindingValue, read]
  exact congrArg (Prod.mk none) (if_neg (by simp [reported]))

theorem letBinding_of_unnamed {s : Parser} (named : s.peek.kind ≠ .identifier) :
    s.letBinding = (none, s.report (.unexpectedToken .identifier s.peek.kind)) := by
  simp [letBinding, expectPeek, named]

theorem letBinding_of_unassigned {s : Parser} (named : s.peek.kind = .identifier)
    (assign : s.advance.peek.kind ≠ .assign) :
    s.letBinding = (none, s.advance.report (.unexpectedToken .assign s.advance.peek.kind)) := by
  simp [letBinding, expectPeek, named, assign]

theorem letBinding_of_assigned {s : Parser} (named : s.peek.kind = .identifier)
    (assign : s.advance.peek.kind = .assign) :
    s.letBinding =
      (s.advance.advance.advance.bindingValue.1.map
          (.letBinding s.current ⟨s.peek, s.peek.literal⟩),
        s.advance.advance.advance.bindingValue.2) := by
  simp [letBinding, expectPeek, named, assign]

theorem letBinding_of_accepts {s : Parser} {e : Expr} {j : Nat} (standard : s.rules = .standard)
    (named : s.peek.kind = .identifier) (assign : s.advance.peek.kind = .assign)
    (accepts : s.advance.advance.advance.Accepts .lowest e j) :
    s.letBinding = (some (.letBinding s.current ⟨s.peek, s.peek.literal⟩ e),
      (advance^[j] s.advance.advance.advance).skipTail) := by
  rw [letBinding_of_assigned named assign, bindingValue, accepts.expression_eq standard]
  rfl

theorem exists_of_letBinding {s : Parser} {found : Statement} (h : s.letBinding.1 = some found) :
    s.peek.kind = .identifier ∧ s.advance.peek.kind = .assign ∧
      ∃ value, (s.advance.advance.advance.expression .lowest).1 = some value ∧
        found = .letBinding s.current ⟨s.peek, s.peek.literal⟩ value := by
  by_cases named : s.peek.kind = .identifier
  · by_cases assign : s.advance.peek.kind = .assign
    · rw [letBinding_of_assigned named assign, bindingValue_fst] at h
      obtain ⟨value, read, rfl⟩ := Option.map_eq_some_iff.1 h
      exact ⟨named, assign, value, read, rfl⟩
    · rw [letBinding_of_unassigned named assign] at h
      cases h
  · rw [letBinding_of_unnamed named] at h
    cases h

/-! ## Single statements -/

variable {s : Parser} {x : Token} {vs ts : List Token} {e : Expr} {n : Nat}

def operatorKinds : List Kind := [.plus, .minus, .asterisk, .slash]

theorem lowest_lt_precedence_iff {kind : Kind} :
    Precedence.lowest < kind.precedence ↔ kind ∈ operatorKinds := by
  cases kind <;> decide

theorem expression_of_faces (faces : s.Faces (x :: vs ++ ts)) (standard : s.rules = .standard)
    (derived : Derives .sum (x :: vs) e n) (room : s.depth + n ≤ s.limit)
    (next : (ts.headD .endOfInput).kind ∉ operatorKinds) :
    s.expression .lowest = (some e, advance^[vs.length] s) := by
  have tokens : upcoming (vs.length + 1) s = x :: vs := faces.upcoming_eq
  have after : s.tokenAt (vs.length + 1) = ts.headD .endOfInput := faces.tokenAt_length
  rw [← tokens] at derived
  refine (reads_of_derives derived standard room (by decide) ?_).expression_eq
  rw [after]
  exact mt lowest_lt_precedence_iff.1 next

theorem current_kind_ne {level : Level} {kind : Kind} (faces : s.Faces (x :: vs ++ ts))
    (derived : Derives level (x :: vs) e n) (other : kind ∉ expressionKinds) :
    s.current.kind ≠ kind := by
  rw [faces.current_eq]
  exact derived.kind_ne other x (.head vs)

theorem statementBody_of_keyword (standard : s.rules = .standard)
    (keyword : s.current.kind = .letKeyword) : s.statementBody = s.letBinding := by
  rw [statementBody, standard, keyword]
  rfl

theorem statementBody_of_expression (standard : s.rules = .standard)
    (kind : s.current.kind ≠ .letKeyword) :
    s.statementBody =
      ((s.expression .lowest).1.map (.expression s.current), (s.expression .lowest).2) := by
  have rule : s.rules.statement s.current.kind = none := by
    rw [standard, Rules.standard_statement_eq_none kind]
  rw [statementBody, rule]
  rfl

theorem statement_cases {found : Statement} (standard : s.rules = .standard)
    (h : s.statement.1 = some found) :
    (∃ value, (s.expression .lowest).1 = some value ∧ found = .expression s.current value) ∨
    (s.current.kind = .letKeyword ∧ s.peek.kind = .identifier ∧
      ∃ value, (s.advance.advance.advance.expression .lowest).1 = some value ∧
        found = .letBinding s.current ⟨s.peek, s.peek.literal⟩ value) := by
  replace h : s.statementBody.1 = some found := h
  by_cases keyword : s.current.kind = .letKeyword
  · rw [statementBody_of_keyword standard keyword] at h
    obtain ⟨named, -, value, read, rfl⟩ := exists_of_letBinding h
    exact .inr ⟨keyword, named, value, read, rfl⟩
  · rw [statementBody_of_expression standard keyword] at h
    obtain ⟨value, read, rfl⟩ := Option.map_eq_some_iff.1 h
    exact .inl ⟨value, read, rfl⟩

theorem statement_expression (faces : s.Faces (x :: vs ++ ts)) (standard : s.rules = .standard)
    (derived : Derives .sum (x :: vs) e n) (room : s.depth + n ≤ s.limit)
    (next : (ts.headD .endOfInput).kind ∉ operatorKinds) :
    s.statement = (some (.expression x e), advance^[vs.length + 1] s) := by
  have read := expression_of_faces faces standard derived room next
  have first : s.current = x := faces.current_eq
  have body : s.statementBody = (some (.expression x e), advance^[vs.length] s) := by
    rw [statementBody_of_expression standard (current_kind_ne faces derived (by decide)), read,
      first]
    rfl
  rw [statement_of_success body, advance_iterate_advance]

theorem statement_semicolon (kind : s.current.kind = .semicolon) (standard : s.rules = .standard)
    (room : s.depth < s.limit) : s.statement = (none, s.advance) := by
  have silent : Reads .operand s.enter none s.enter := by
    apply Reads.silent <;> simp only [enter, standard, kind] <;> decide
  have read : s.expression .lowest = (none, s) := (Reads.nestedFailed room silent).expression_eq
  have body : s.statementBody = (none, s) := by
    rw [statementBody_of_expression standard (by rw [kind]; decide), read]
    rfl
  exact statement_of_silence body rfl

theorem program_semicolon (kind : s.current.kind = .semicolon) (standard : s.rules = .standard)
    (room : s.depth < s.limit) : s.program = s.advance.program := by
  rw [program_of_statement (by rw [kind]; decide), statement_semicolon kind standard room]
  rfl

theorem skipTail_eq_advance
    (value : s.current.kind ≠ .semicolon ∧ s.current.kind ≠ .endOfInput ∧ s.current.kind ≠ .illegal)
    (boundary : s.advance.atBoundary = true) : s.skipTail = s.advance := by
  have more : ¬s.atBoundary = true := by simp [atBoundary, value]
  rw [skipTail, if_neg more, reportIllegal, if_neg value.2.2, skipTail, if_pos boundary]

theorem atBoundary_of_faces (faces : s.Faces ts) (next : ∀ y ∈ ts.head?, y.kind = .semicolon) :
    s.atBoundary = true := by
  cases ts with
  | nil => simp [atBoundary, faces.current_eq_endOfInput, Token.endOfInput]
  | cons y ts => simp [atBoundary, faces.current_eq, next y rfl]

theorem program_of_faces_nil (faces : s.Faces []) : s.program = ([], s) := by
  apply program_of_end
  rw [faces.current_eq_endOfInput]
  rfl

theorem program_advance (faces : s.Faces ts) (next : ∀ y ∈ ts.head?, y.kind = .semicolon)
    (standard : s.rules = .standard) (room : s.depth < s.limit) :
    s.advance.program.1 = s.program.1 ∧
      s.advance.program.2.diagnostics = s.program.2.diagnostics := by
  cases ts with
  | nil =>
    rw [program_of_faces_nil faces, program_of_faces_nil faces.advance_nil]
    exact ⟨rfl, rfl⟩
  | cons y ts =>
    have kind : s.current.kind = .semicolon := by rw [faces.current_eq, next y rfl]
    rw [program_semicolon kind standard room]
    exact ⟨rfl, rfl⟩

theorem bindingValue_of_faces (faces : s.Faces (x :: vs ++ ts)) (standard : s.rules = .standard)
    (derived : Derives .sum (x :: vs) e n) (room : s.depth + n ≤ s.limit)
    (next : ∀ y ∈ ts.head?, y.kind = .semicolon) :
    s.bindingValue = (some e, advance^[vs.length + 1] s) := by
  have follows : (ts.headD .endOfInput).kind ∉ operatorKinds := by
    cases ts with
    | nil => decide
    | cons y ts => rw [List.headD_cons, next y rfl]; decide
  have last : (advance^[vs.length] s).current ∈ x :: vs := by
    have tokens : upcoming (vs.length + 1) s = x :: vs := faces.upcoming_eq
    rw [← tokens]
    exact tokenAt_mem_upcoming vs.length s
  have boundary : (advance^[vs.length] s).advance.atBoundary = true := by
    rw [advance_iterate_advance]
    exact atBoundary_of_faces (faces.moves (x :: vs)) next
  have tail := skipTail_eq_advance ⟨derived.kind_ne (by decide) _ last,
    derived.kind_ne (by decide) _ last, derived.kind_ne (by decide) _ last⟩ boundary
  rw [bindingValue, expression_of_faces faces standard derived room follows]
  simp only [tail, advance_iterate_advance]

theorem statementBody_of_letBinding {l name a : Token} (faces : s.Faces (l :: name :: a :: ts))
    (standard : s.rules = .standard) (keyword : l.kind = .letKeyword)
    (named : name.kind = .identifier) (assign : a.kind = .assign) :
    s.statementBody =
      (s.advance.advance.advance.bindingValue.1.map (.letBinding l ⟨name, name.literal⟩),
        s.advance.advance.advance.bindingValue.2) := by
  have first : s.peek = name := faces.peek_eq
  have second : s.advance.peek = a := faces.advance.peek_eq
  rw [statementBody_of_keyword standard (by rw [faces.current_eq, keyword]),
    letBinding_of_assigned (by rw [first, named]) (by rw [second, assign]), faces.current_eq, first]

theorem statement_letBinding {l name a : Token}
    (faces : s.Faces (l :: name :: a :: (x :: vs ++ ts))) (standard : s.rules = .standard)
    (keyword : l.kind = .letKeyword) (named : name.kind = .identifier) (assign : a.kind = .assign)
    (derived : Derives .sum (x :: vs) e n) (room : s.depth + n ≤ s.limit)
    (next : ∀ y ∈ ts.head?, y.kind = .semicolon) :
    s.statement = (some (.letBinding l ⟨name, name.literal⟩ e), advance^[vs.length + 5] s) := by
  have value := bindingValue_of_faces faces.advance.advance.advance standard derived room next
  have body : s.statementBody =
      (some (.letBinding l ⟨name, name.literal⟩ e), advance^[vs.length + 4] s) := by
    rw [statementBody_of_letBinding faces standard keyword named assign, value]
    rfl
  rw [statement_of_success body, advance_iterate_advance]

/-! ## Layouts -/

/-- Tokens that are the statements of a program, up to those of `back`. Every binding ends in a
semicolon or in the end of input. A bare expression may be followed by anything that does not
continue it, and other semicolons stand where they like. -/
inductive Layout (room : Nat) (back : List Token) : List Token → Program → Prop where
  | nil : Layout room back back []
  | semicolon {x : Token} {ts : List Token} {p : Program} (kind : x.kind = .semicolon)
      (positive : 0 < room) (others : Layout room back ts p) : Layout room back (x :: ts) p
  | letBinding {l name a : Token} {vs ts : List Token} {e : Expr} {n : Nat} {p : Program}
      (keyword : l.kind = .letKeyword) (named : name.kind = .identifier) (assign : a.kind = .assign)
      (value : Derives .sum vs e n) (fits : n ≤ room)
      (next : ∀ y ∈ ts.head?, y.kind = .semicolon) (others : Layout room back ts p) :
      Layout room back (l :: name :: a :: (vs ++ ts)) (.letBinding l ⟨name, name.literal⟩ e :: p)
  | expression {x : Token} {vs ts : List Token} {e : Expr} {n : Nat} {p : Program}
      (value : Derives .sum (x :: vs) e n) (fits : n ≤ room)
      (next : ∀ y ∈ ts.head?, y.kind ≠ .minus) (others : Layout room back ts p) :
      Layout room back (x :: vs ++ ts) (.expression x e :: p)

def StartsStatement (ts : List Token) : Prop :=
  ∀ y ∈ ts.head?, y.kind ∈ operatorKinds → y.kind = .minus

theorem startsStatement_of_derives {level : Level} (h : Derives level (x :: vs) e n)
    (ts : List Token) : StartsStatement (x :: vs ++ ts) := by
  rintro y ⟨⟩ operator
  rcases h.head_kind x rfl with kind | kind | kind
  · rw [kind] at operator
    exact absurd operator (by decide)
  · exact kind
  · rw [kind] at operator
    exact absurd operator (by decide)

theorem startsStatement_of_kind (kind : x.kind ∉ operatorKinds) (ts : List Token) :
    StartsStatement (x :: ts) := by
  rintro y ⟨⟩ operator
  exact absurd operator kind

namespace Layout

variable {room : Nat} {back : List Token} {p : Program}

theorem startsStatement (h : Layout room back ts p) (starts : StartsStatement back) :
    StartsStatement ts := by
  cases h with
  | nil => exact starts
  | semicolon kind => exact startsStatement_of_kind (by rw [kind]; decide) _
  | letBinding keyword => exact startsStatement_of_kind (by rw [keyword]; decide) _
  | expression value => exact startsStatement_of_derives value _

theorem follows (starts : StartsStatement ts) (next : ∀ y ∈ ts.head?, y.kind ≠ .minus) :
    (ts.headD .endOfInput).kind ∉ operatorKinds := by
  cases ts with
  | nil => decide
  | cons y ts =>
    intro operator
    apply next y rfl
    exact starts y rfl operator

theorem program_eq (h : Layout room back ts p) (starts : StartsStatement back) {s : Parser}
    (faces : s.Faces ts) (standard : s.rules = .standard) (space : s.depth + room ≤ s.limit) :
    ∃ n, (Parser.advance^[n] s).Faces back ∧
      s.program.1 = p ++ (Parser.advance^[n] s).program.1 ∧
      s.program.2.diagnostics = (Parser.advance^[n] s).program.2.diagnostics := by
  induction h generalizing s with
  | nil => exact ⟨0, faces, rfl, rfl⟩
  | @semicolon x ts p kind positive others ih =>
    obtain ⟨n, there, rest⟩ := ih faces.advance standard space
    have current : s.current.kind = .semicolon := by rw [faces.current_eq, kind]
    refine ⟨n + 1, there, ?_⟩
    rw [program_semicolon current standard (by omega), Function.iterate_succ_apply]
    exact rest
  | @letBinding l name a vs ts e n p keyword named assign value fits next others ih =>
    obtain ⟨x, vs, rfl⟩ := List.exists_cons_of_ne_nil value.ne_nil
    have read := statement_letBinding faces standard keyword named assign value (by omega) next
    have here : (Parser.advance^[vs.length + 4] s).Faces ts :=
      faces.advance.advance.advance.moves (x :: vs)
    obtain ⟨k, there, found, reported⟩ := ih here (by simpa using standard) (by simpa using space)
    have positive := value.nesting_pos
    -- the binding has moved over its boundary, which the rest of the program would skip
    obtain ⟨same, same'⟩ := program_advance here next (by simpa using standard) (by simp; omega)
    rw [← advance_iterate_advance] at read
    have more : s.current.kind ≠ .endOfInput := by rw [faces.current_eq, keyword]; decide
    refine ⟨k + (vs.length + 4), ?_⟩
    rw [Function.iterate_add_apply, program_of_statement more, read]
    exact ⟨there, congrArg _ (same.trans found), same'.trans reported⟩
  | @expression x vs ts e n p value fits next others ih =>
    have read := statement_expression faces standard value (by omega)
      (follows (others.startsStatement starts) next)
    obtain ⟨k, there, found, reported⟩ := ih (faces.moves (x :: vs))
      (by simpa using standard) (by simpa using space)
    have more : s.current.kind ≠ .endOfInput := current_kind_ne faces value (by decide)
    refine ⟨k + (vs.length + 1), ?_⟩
    rw [Function.iterate_add_apply, program_of_statement more, read]
    exact ⟨there, congrArg _ found, reported⟩

theorem program_eq_of_end (h : Layout room [] ts p) {s : Parser} (faces : s.Faces ts)
    (standard : s.rules = .standard) (space : s.depth + room ≤ s.limit) :
    s.program.1 = p ∧ s.program.2.diagnostics = s.diagnostics := by
  obtain ⟨n, there, found, reported⟩ := h.program_eq nofun faces standard space
  rw [program_of_faces_nil there] at found reported
  exact ⟨found.trans (List.append_nil p), reported.trans (iterate_advance_diagnostics n s)⟩

end Layout

theorem Layout.parse_eq {source : String} {limit : Nat} {p : Program}
    (h : Layout limit [] (lexemes source.toList) p) :
    (parse source limit).1 = p ∧ (parse source limit).2.diagnostics = [] :=
  h.program_eq_of_end (ofSource_faces source limit) rfl (Nat.le_of_eq (Nat.zero_add limit))

theorem parse_of_derives {source : String} {limit : Nat} (value : Derives .sum (x :: vs) e n)
    (tokens : lexemes source.toList = x :: vs) (fits : n ≤ limit) :
    (parse source limit).1 = [.expression x e] ∧ (parse source limit).2.diagnostics = [] := by
  have layout : Layout limit [] (lexemes source.toList) [.expression x e] := by
    rw [tokens, ← List.append_nil (x :: vs)]
    exact .expression value fits nofun .nil
  exact layout.parse_eq

/-! ## Programs that report -/

theorem statement_of_report {t : Parser} (body : s.statementBody = (none, t))
    (longer : s.diagnostics.length < t.diagnostics.length) :
    s.statement = (none, t.skip.advance) := by
  rw [statement, body]
  simp [recover, longer]

theorem program_of_report (more : s.current.kind ≠ .endOfInput)
    (longer : s.diagnostics.length < s.statementBody.2.diagnostics.length) :
    s.program.2.diagnostics ≠ s.diagnostics := by
  have first := ((recover_leads _ _).trans (.advance _) : Leads s.statementBody.2 s.statement.2)
  have rest := (first.trans s.statement.2.program_leads).length_diagnostics_le
  rw [program_of_statement more]
  intro same
  rw [same] at rest
  omega

def Overruns (room : Nat) (ts : List Token) : Prop :=
  ∀ s : Parser, s.Faces ts → s.rules = .standard → s.limit = s.depth + room →
    s.program.2.diagnostics ≠ s.diagnostics

theorem Layout.overruns {room : Nat} {back : List Token} {p : Program}
    (h : Layout room back ts p) (starts : StartsStatement back) (later : Overruns room back) :
    Overruns room ts := by
  intro s faces standard space
  obtain ⟨n, there, -, reported⟩ := h.program_eq starts faces standard (by omega)
  have rest := later _ there (by simpa using standard) (by simpa using space)
  rwa [reported, ← iterate_advance_diagnostics n s]

theorem Faces.skip (faces : s.Faces ts)
    (plain : ∀ x ∈ ts, x.kind ≠ .semicolon ∧ x.kind ≠ .endOfInput) :
    s.skip.Faces [] ∧ s.skip.diagnostics = s.diagnostics := by
  induction ts generalizing s with
  | nil =>
    have boundary : s.atBoundary = true := atBoundary_of_faces faces nofun
    rw [Parser.skip, if_pos boundary]
    exact ⟨faces, rfl⟩
  | cons x ts ih =>
    obtain ⟨first, others⟩ := List.forall_mem_cons.1 plain
    have more : ¬s.atBoundary = true := by simp [atBoundary, faces.current_eq, first]
    rw [Parser.skip, if_neg more]
    exact ih faces.advance others

end LetArith.Parser
