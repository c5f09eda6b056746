import LetArith.Proofs.Agreement

/-!
Two texts with a semicolon between them. They are parsed one after the other, and no failure in the
first changes what is read of the second (`parse_semicolon`). Only where the limit leaves no room
for any expression is the semicolon itself reported, if no statement of the first text goes up to
it.
-/

namespace LetArith

/-- The tokens end between two statements: none of them is left without its semicolon. -/
def Closed (ts : List Token) : Prop :=
  ∀ x ∈ ts.getLast?, x.kind = .semicolon

instance (ts : List Token) : Decidable (Closed ts) :=
  inferInstanceAs (Decidable (∀ x ∈ ts.getLast?, x.kind = .semicolon))

theorem closed_append_cons {x : Token} (semicolon : x.kind = .semicolon)
    (front back : List Token) : Closed (front ++ x :: back) ↔ Closed back := by
  cases back with
  | nil => simp [Closed, semicolon]
  | cons y back => simp [Closed, List.getLast?_append]

theorem not_closed {ts : List Token} (nonempty : ts ≠ []) (plain : ∀ x ∈ ts, x.kind ≠ .semicolon) :
    ¬Closed ts := by
  obtain ⟨x, last⟩ := Option.isSome_iff_exists.1 (List.getLast?_isSome.2 nonempty)
  exact fun closed => plain x (List.mem_of_getLast? last) (closed x last)

namespace Parser

variable {s t u : Parser} {ts : List Token}

/-! ## Statements without room -/

def Skims (s t : Parser) : Prop :=
  ∀ ts, s.Faces ts → ∃ front back, ts = front ++ back ∧ t.Faces back ∧
    ∀ x ∈ front, x.kind ≠ .semicolon

namespace Skims

theorem refl (s : Parser) : Skims s s :=
  fun ts faces => ⟨[], ts, rfl, faces, nofun⟩

theorem report (s : Parser) (diagnostic : Diagnostic) : Skims s (s.report diagnostic) :=
  fun ts faces => ⟨[], ts, rfl, faces.report, nofun⟩

theorem advance (plain : s.current.kind ≠ .semicolon) : Skims s s.advance := by
  intro ts faces
  cases ts with
  | nil => exact ⟨[], [], rfl, faces.advance_nil, nofun⟩
  | cons x ts =>
    rw [faces.current_eq] at plain
    exact ⟨[x], ts, rfl, faces.advance, by simpa using plain⟩

theorem trans (first : Skims s t) (second : Skims t u) : Skims s u := by
  intro ts faces
  obtain ⟨front, back, rfl, faces, plain⟩ := first ts faces
  obtain ⟨front', back, rfl, faces, plain'⟩ := second back faces
  exact ⟨front ++ front', back, (List.append_assoc _ _ _).symm, faces,
    List.forall_mem_append.2 ⟨plain, plain'⟩⟩

theorem skip (s : Parser) : Skims s s.skip := by
  fun_induction Parser.skip s with
  | case1 s => exact refl s
  | case2 s more ih =>
    apply trans _ ih
    apply advance
    intro semicolon
    exact more (by simp [atBoundary, semicolon])

end Skims

theorem skip_atBoundary (s : Parser) : s.skip.atBoundary = true := by
  fun_induction Parser.skip s with
  | case1 s boundary => exact boundary
  | case2 s _ ih => exact ih

theorem letBinding_of_full (full : ¬s.depth < s.limit) (keyword : s.current.kind = .letKeyword) :
    ∃ t diagnostic, s.letBinding = (none, t.report diagnostic) ∧ Skims s t ∧
      t.diagnostics = s.diagnostics := by
  have first : Skims s s.advance := .advance (by rw [keyword]; decide)
  by_cases named : s.peek.kind = .identifier
  · have second : Skims s s.advance.advance :=
      first.trans (.advance (by rw [advance_current, named]; decide))
    by_cases assign : s.advance.peek.kind = .assign
    · have third : Skims s s.advance.advance.advance :=
        second.trans (.advance (by rw [advance_current, assign]; decide))
      refine ⟨_, .nestingTooDeep s.limit, ?_, third, rfl⟩
      have value := expression_of_full (s := s.advance.advance.advance) full .lowest
      rw [letBinding_of_assigned named assign, bindingValue_of_report value rfl]
      rfl
    · exact ⟨_, _, letBinding_of_unassigned named assign, first, rfl⟩
  · exact ⟨_, _, letBinding_of_unnamed named, .refl s, rfl⟩

theorem statementBody_of_full (full : ¬s.depth < s.limit) (standard : s.rules = .standard) :
    ∃ t diagnostic, s.statementBody = (none, t.report diagnostic) ∧ Skims s t ∧
      t.diagnostics = s.diagnostics := by
  by_cases keyword : s.current.kind = .letKeyword
  · rw [statementBody_of_keyword standard keyword]
    exact letBinding_of_full full keyword
  · refine ⟨s, .nestingTooDeep s.limit, ?_, .refl s, rfl⟩
    rw [statementBody_of_expression standard keyword, expression_of_full full]
    rfl

theorem recovered_of_full (full : ¬s.depth < s.limit) (standard : s.rules = .standard) :
    Skims s s.recovered ∧ s.recovered.atBoundary = true := by
  obtain ⟨t, diagnostic, body, skims, kept⟩ := statementBody_of_full full standard
  have skipped : s.recovered = (t.report diagnostic).skip := by
    rw [recovered, body]
    simp [Parser.report, kept, Parser.recover]
  rw [skipped]
  exact ⟨skims.trans ((Skims.report t diagnostic).trans (.skip _)), skip_atBoundary _⟩

theorem Ends.closed_iff {inside : Bool} (h : Ends inside s t) (full : ¬s.depth < s.limit)
    (standard : s.rules = .standard) (faces : s.Faces ts)
    (before : ∀ x ∈ ts, x.kind ≠ .endOfInput) : inside = false ↔ Closed ts := by
  have first {s : Parser} {ts : List Token} (faces : s.Faces ts)
      (done : s.current.kind = .endOfInput) (before : ∀ x ∈ ts, x.kind ≠ .endOfInput) :
      ts = [] := by
    cases ts with
    | nil => rfl
    | cons x ts =>
      rw [faces.current_eq] at done
      exact absurd done (before x (.head ts))
  induction h generalizing ts with
  | between done =>
    rw [first faces done before]
    exact iff_of_true rfl nofun
  | @inside s more done =>
    obtain ⟨front, back, rfl, there, plain⟩ := (recovered_of_full full standard).1 ts faces
    have last : back = [] := first there done fun x mem => before x (List.mem_append_right _ mem)
    subst last
    refine iff_of_false nofun (not_closed ?_ (by simpa using plain))
    intro empty
    rw [empty] at faces
    exact more (congrArg Token.kind faces.current_eq_endOfInput)
  | @statement inside s t more more' others ih =>
    obtain ⟨skims, boundary⟩ := recovered_of_full full standard
    obtain ⟨front, back, rfl, there, plain⟩ := skims ts faces
    have kept := s.recovered_leads
    cases back with
    | nil => exact absurd (congrArg Token.kind there.current_eq_endOfInput) more'
    | cons x back =>
      rw [there.current_eq] at more'
      have semicolon : x.kind = .semicolon := by
        simpa [atBoundary, there.current_eq, more'] using boundary
      rw [closed_append_cons semicolon]
      apply ih _ (kept.rules_eq.trans standard) there.advance
      · exact fun y mem => before y (by simp [mem])
      · rwa [advance_depth, advance_limit, kept.depth_eq, kept.limit_eq]

/-! ## Behind the semicolon -/

theorem program_semicolon_of_full (kind : s.current.kind = .semicolon)
    (standard : s.rules = .standard) (full : ¬s.depth < s.limit) :
    s.program = (s.report (.nestingTooDeep s.limit)).advance.program := by
  have body : s.statementBody = (none, s.report (.nestingTooDeep s.limit)) := by
    rw [statementBody_of_expression standard (by rw [kind]; decide), expression_of_full full]
    rfl
  have boundary : (s.report (.nestingTooDeep s.limit)).atBoundary = true := by
    rw [atBoundary, Parser.report, kind]
    rfl
  have step : s.statement = (none, (s.report (.nestingTooDeep s.limit)).advance) := by
    rw [statement_of_report body (by simp [Parser.report]), skip, if_pos boundary]
  rw [program_of_statement (by rw [kind]; decide), step]
  rfl

end Parser

def semicolonReports (ts : List Token) (limit : Nat) : List Diagnostic :=
  if limit = 0 ∧ Closed ts then [.nestingTooDeep 0] else []

theorem lexemes_semicolon (front back : List Char) :
    lexemes (front ++ ';' :: back) = lexemes front ++ .mark ';' :: lexemes back := by
  rw [lexemes_append (.of_head (by decide) (by decide)),
    lexemes_mark (by decide) (by decide) (by decide)]

namespace Parser

/-- A statement that the semicolon ends is behind it already. Otherwise the semicolon is read as a
statement of its own, which is reported if there is no room for it. -/
theorem exists_behind {inside : Bool} {u : Parser} {x : Token} {ts us : List Token}
    (faces : u.Faces (x :: ts)) (semicolon : x.kind = .semicolon) (standard : u.rules = .standard)
    (depth : u.depth = 0) (closed : u.limit = 0 → (inside = false ↔ Closed us)) :
    ∃ w, (u.behind inside).program = w.program ∧ Leads u w ∧ w.Faces ts ∧
      w.diagnostics = u.diagnostics ++ semicolonReports us u.limit := by
  have kind : u.current.kind = .semicolon := by rw [faces.current_eq, semicolon]
  have moved (silent : semicolonReports us u.limit = []) :
      Leads u u.advance ∧ u.advance.Faces ts ∧
        u.advance.diagnostics = u.diagnostics ++ semicolonReports us u.limit := by
    rw [silent, List.append_nil]
    exact ⟨.advance u, faces.advance, rfl⟩
  cases inside with
  | true =>
    have silent : semicolonReports us u.limit = [] :=
      if_neg fun both => nomatch (closed both.1).2 both.2
    exact ⟨u.advance, rfl, moved silent⟩
  | false =>
    by_cases room : u.depth < u.limit
    · have silent : semicolonReports us u.limit = [] := if_neg fun both => by omega
      exact ⟨u.advance, program_semicolon kind standard room, moved silent⟩
    · have noRoom : u.limit = 0 := by omega
      have report : semicolonReports us u.limit = [.nestingTooDeep u.limit] := by
        rw [noRoom]
        exact if_pos ⟨rfl, (closed noRoom).1 rfl⟩
      rw [report]
      exact ⟨_, program_semicolon_of_full kind standard room, (Leads.report u _).trans (.advance _),
        faces.report.advance, rfl⟩

end Parser

theorem exists_parse_semicolon (a b : String) (limit : Nat) :
    ∃ w : Parser, w.Faces (lexemes b.toList) ∧ w.rules = .standard ∧ w.depth = 0 ∧
      w.limit = limit ∧
      w.diagnostics = (parse a limit).2.diagnostics.map (.continued .semicolon) ++
        semicolonReports (lexemes a.toList) limit ∧
      parse (a ++ ";" ++ b) limit = ((parse a limit).1 ++ w.program.1, w.program.2) := by
  let t := Parser.ofSource a limit
  have faces := Parser.ofSource_faces a limit
  have faces' := Parser.ofSource_faces (a ++ ";" ++ b) limit
  have text : (a ++ ";" ++ b).toList = a.toList ++ ';' :: b.toList := by simp
  rw [text, lexemes_semicolon] at faces'
  have alike : Parser.Alike (.mark ';' :: lexemes b.toList) []
      (Parser.ofSource (a ++ ";" ++ b) limit) t :=
    ⟨⟨_, faces, faces', kind_ne_of_mem_lexemes⟩, rfl, rfl, rfl, rfl, .inr ⟨rfl, rfl⟩⟩
  obtain ⟨inside, v, ends⟩ := t.exists_ends
  obtain ⟨u, there, last, read⟩ := ends.alike alike
  have standard : u.rules = .standard := there.rules.trans ends.leads.rules_eq
  have depth : u.depth = 0 := there.depth.trans ends.leads.depth_eq
  have bound : u.limit = limit := there.limit.trans ends.leads.limit_eq
  have closed (noRoom : u.limit = 0) : inside = false ↔ Closed (lexemes a.toList) := by
    have full : ¬t.depth < t.limit := by
      rw [show t.limit = 0 from bound.symm.trans noRoom]
      exact Nat.not_lt_zero _
    exact ends.closed_iff full rfl faces kind_ne_of_mem_lexemes
  obtain ⟨w, next, moved, behind, reported⟩ :=
    Parser.exists_behind (there.at_end ends.current_kind).1 rfl standard depth closed
  refine ⟨w, behind, moved.rules_eq.trans standard, moved.depth_eq.trans depth,
    moved.limit_eq.trans bound, ?_, ?_⟩
  · have same : (parse a limit).2.diagnostics = v.diagnostics := by
      rw [show (parse a limit).2 = v.behind inside from last, Parser.behind_diagnostics]
    rw [reported, there.diagnostics, same, bound]
    rfl
  · rw [← next]
    exact read

/-- What is parsed of two texts with a semicolon between them is what is parsed of each. Where the
first ended too early, the semicolon is named in place of the end of input. -/
theorem parse_semicolon (a b : String) (limit : Nat) :
    (parse (a ++ ";" ++ b) limit).1 = (parse a limit).1 ++ (parse b limit).1 ∧
    (parse (a ++ ";" ++ b) limit).2.diagnostics =
      (parse a limit).2.diagnostics.map (.continued .semicolon) ++
        semicolonReports (lexemes a.toList) limit ++ (parse b limit).2.diagnostics := by
  obtain ⟨w, faces, standard, depth, bound, reported, read⟩ := exists_parse_semicolon a b limit
  obtain ⟨found, there⟩ := (Parser.alike_ofSource faces standard depth bound).program
  rw [read, found, there.diagnostics_eq, reported]
  exact ⟨rfl, rfl⟩

theorem parse_semicolon_reports :
    (parse ("" ++ ";" ++ "") 0).2.diagnostics ≠
      (parse "" 0).2.diagnostics.map (.continued .semicolon) ++ (parse "" 0).2.diagnostics := by
  have empty : (Parser.ofSource "" 0).Faces [] := by
    have faces := Parser.ofSource_faces "" 0
    rwa [show lexemes "".toList = [] from lexemes_nil] at faces
  have alone : (Parser.ofSource ";" 0).Faces [.mark ';'] := by
    have faces := Parser.ofSource_faces ";" 0
    rwa [show lexemes ";".toList = [.mark ';'] by
      rw [lexemes_of_scan (by decide), lexemes_of_end (by decide)]; rfl] at faces
  have kind : (Parser.ofSource ";" 0).current.kind = .semicolon := by decide
  have reported : (parse ";" 0).2.diagnostics = [.nestingTooDeep 0] := by
    rw [parse, Parser.program_semicolon_of_full kind rfl (by decide),
      Parser.program_of_faces_nil alone.report.advance]
    rfl
  rw [show "" ++ ";" ++ "" = ";" by decide, reported, parse, Parser.program_of_faces_nil empty]
  exact List.cons_ne_nil _ _

end LetArith
