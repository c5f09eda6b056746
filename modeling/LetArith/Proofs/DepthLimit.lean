import LetArith.Proofs.Changes
import LetArith.Proofs.Nesting

/-!
The limit of nesting is seen only where it refuses an expression. A refusal is always reported, and
names the limit (`Bracketed.limit_eq`). So a larger limit is a change that no reading without such a
report sees (`withLimit_unseen`), and a whole text is parsed alike under both
(`parse_limit_transparent`).
-/

namespace LetArith

namespace Parser

variable {s t : Parser}

def withLimit (s : Parser) (limit : Nat) : Parser :=
  { s with limit := limit }

def Unrefused (s : Parser) : Prop :=
  ∀ n, .nestingTooDeep n ∉ s.diagnostics

theorem Unrefused.of_leads (h : t.Unrefused) (moved : Leads s t) : s.Unrefused := by
  obtain ⟨added, same⟩ := moved.diagnostics_eq
  intro n mem
  apply h n
  rw [same]
  exact List.mem_append_left added mem

theorem not_unrefused_report (s : Parser) (n : Nat) : ¬(s.report (.nestingTooDeep n)).Unrefused :=
  fun h => h n (List.mem_append_right _ (.head _))

theorem withLimit_unseen (larger : Nat) :
    Unseen (·.withLimit larger) (·.limit ≤ larger) Unrefused where
  advance_eq _ := rfl
  report_eq _ _ := rfl
  enter_eq _ := rfl
  leave_eq _ := rfl
  current_eq _ := rfl
  diagnostics_eq _ := rfl
  agree s _ := .refl s.rules
  room _ le room := Nat.lt_of_lt_of_le room le
  full s _ _ unrefused := absurd unrefused (not_unrefused_report s s.limit)
  start_of_leads _ _ moved le := moved.limit_eq.trans_le le
  start_enter _ le := le
  finish_of_leads _ _ moved unrefused := unrefused.of_leads moved
  finish_of_leave _ unrefused := unrefused

theorem program_withLimit {larger : Nat} (le : s.limit ≤ larger)
    (unrefused : s.program.2.Unrefused) :
    (s.withLimit larger).program = (s.program.1, s.program.2.withLimit larger) :=
  (withLimit_unseen larger).program_eq le unrefused

theorem nestingTooDeep_mem_program {s : Parser} {n : Nat}
    (mem : .nestingTooDeep n ∈ s.program.2.diagnostics) :
    .nestingTooDeep n ∈ s.diagnostics ∨ n = s.limit := by
  rw [← play_programSteps, diagnostics_play s 0] at mem
  rcases List.mem_append.1 mem with before | added
  · exact .inl before
  · obtain ⟨report, there, same⟩ := List.mem_map.1 added
    obtain ⟨front, back, steps, -⟩ := exists_of_mem_reportsFrom there
    refine .inr (s.bracketed_programSteps.limit_eq ?_)
    rw [steps, same]
    exact List.mem_append_right front (.head back)

theorem Faces.program_of_failure {ts : List Token} {diagnostic : Diagnostic} (faces : s.Faces ts)
    (nonempty : ts ≠ []) (plain : ∀ x ∈ ts, x.kind ≠ .semicolon ∧ x.kind ≠ .endOfInput)
    (body : s.statementBody = (none, s.report diagnostic)) :
    s.program.2.diagnostics = s.diagnostics ++ [diagnostic] := by
  obtain ⟨x, ts, rfl⟩ := List.exists_cons_of_ne_nil nonempty
  have more : s.current.kind ≠ .endOfInput := by
    rw [faces.current_eq]
    exact (plain x (.head ts)).2
  have given := statement_of_report body (by simp [Parser.report])
  obtain ⟨last, kept⟩ := faces.report.skip plain
  rw [program_of_statement more, given, program_of_faces_nil last.advance_nil]
  exact kept

end Parser

/-- A text that is parsed without a refusal is parsed alike under every larger limit, and a refusal
names the limit. -/
theorem parse_limit_transparent (source : String) (limit : Nat) :
    (∀ n, .nestingTooDeep n ∈ (parse source limit).2.diagnostics → n = limit) ∧
    ((∀ n, .nestingTooDeep n ∉ (parse source limit).2.diagnostics) → ∀ larger, limit ≤ larger →
      (parse source larger).1 = (parse source limit).1 ∧
      (parse source larger).2.diagnostics = (parse source limit).2.diagnostics) := by
  constructor
  · intro n mem
    exact (Parser.nestingTooDeep_mem_program mem).resolve_left (List.not_mem_nil)
  · intro unrefused larger le
    have same : parse source larger =
        ((parse source limit).1, (parse source limit).2.withLimit larger) :=
      Parser.program_withLimit (s := Parser.ofSource source limit) le unrefused
    rw [same]
    exact ⟨rfl, rfl⟩

/-- Parentheses take a level each. Where there is none an integer is refused, but a binding without a
name fails as under any limit, before an expression is read. -/
theorem parse_limit_transparent_unnamed :
    ((∀ n, .nestingTooDeep n ∉ (parse "((1))" 3).2.diagnostics) ∧
      (parse "((1))" 3).1 = [.expression (.mark '(') (.integer (.integer ['1']) 1)] ∧
      (parse "((1))" 256).1 = (parse "((1))" 3).1 ∧
      (parse "((1))" 256).2.diagnostics = (parse "((1))" 3).2.diagnostics) ∧
    (.nestingTooDeep 0 ∈ (parse "1" 0).2.diagnostics ∧
      ∀ n, .nestingTooDeep n ∈ (parse "1" 0).2.diagnostics → n = 0) ∧
    (∀ n, .nestingTooDeep n ∉ (parse "let 1" 0).2.diagnostics) ∧
      (parse "let 1" 1).1 = (parse "let 1" 0).1 ∧
      (parse "let 1" 1).2.diagnostics = [.unexpectedToken .identifier .integer] := by
  obtain ⟨nested, silent⟩ : (parse "((1))" 3).1 =
      [.expression (.mark '(') (.integer (.integer ['1']) 1)] ∧
      (parse "((1))" 3).2.diagnostics = [] := by
    have tokens : lexemes "((1))".toList =
        .mark '(' :: ((.mark '(' :: ([.integer ['1']] ++ [.mark ')'])) ++ [.mark ')']) := by
      rw [lexemes_of_scan (by decide), lexemes_of_scan (by decide), lexemes_of_scan (by decide),
        lexemes_of_scan (by decide), lexemes_of_scan (by decide), lexemes_of_end (by decide)]
      decide
    have one : Derives .operand [.integer ['1']] (.integer (.integer ['1']) 1) 1 :=
      .integer rfl (by decide) (by decide)
    have inner : Derives .operand (.mark '(' :: ([.integer ['1']] ++ [.mark ')']))
        (.integer (.integer ['1']) 1) 2 := .group rfl one.factor.term rfl
    have outer := Derives.group (x := .mark '(') (y := .mark ')') rfl inner.factor.term rfl
    exact Parser.parse_of_derives outer.factor.term tokens (by decide)
  have accepted (n : Nat) : .nestingTooDeep n ∉ (parse "((1))" 3).2.diagnostics := by
    rw [silent]
    exact List.not_mem_nil
  have refused : (parse "1" 0).2.diagnostics = [.nestingTooDeep 0] := by
    have faces : (Parser.ofSource "1" 0).Faces [.integer ['1']] := by
      have tokens : lexemes "1".toList = [.integer ['1']] := by
        rw [lexemes_of_scan (by decide), lexemes_of_end (by decide)]
        decide
      rw [← tokens]
      exact Parser.ofSource_faces _ _
    have body := Parser.statementBody_of_expression (s := Parser.ofSource "1" 0) rfl
      (by rw [faces.current_eq]; decide)
    rw [Parser.expression_of_full (by decide)] at body
    exact faces.program_of_failure (by decide) (by decide) body
  have reported : (parse "let 1" 0).2.diagnostics = [.unexpectedToken .identifier .integer] := by
    have faces : (Parser.ofSource "let 1" 0).Faces [.word ['l', 'e', 't'], .integer ['1']] := by
      have tokens : lexemes "let 1".toList = [.word ['l', 'e', 't'], .integer ['1']] := by
        rw [lexemes_of_scan (by decide), lexemes_of_scan (by decide), lexemes_of_end (by decide)]
        decide
      rw [← tokens]
      exact Parser.ofSource_faces _ _
    have body := (Parser.statementBody_of_keyword rfl (congrArg Token.kind faces.current_eq)).trans
      (Parser.letBinding_of_unnamed (by rw [faces.peek_eq]; decide))
    rw [faces.peek_eq] at body
    exact faces.program_of_failure (by decide) (by decide) body
  have unrefused (n : Nat) : .nestingTooDeep n ∉ (parse "let 1" 0).2.diagnostics := by
    rw [reported]
    simp
  obtain ⟨same, same'⟩ := (parse_limit_transparent "let 1" 0).2 unrefused 1 (Nat.zero_le 1)
  exact ⟨⟨accepted, nested, (parse_limit_transparent "((1))" 3).2 accepted 256 (by decide)⟩,
    ⟨by rw [refused]; exact .head _, (parse_limit_transparent "1" 0).1⟩,
    unrefused, same, same'.trans reported⟩

end LetArith
