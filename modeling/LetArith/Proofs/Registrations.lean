import LetArith.Proofs.Changes
import LetArith.Proofs.Driving

/-!
Registrations that change nothing. A caller may let any kind of token be a binary operator, but the
operators of a text are those whose precedence is above the lowest, and these have their rules
already. Likewise a kind without a rule starts an expression statement, as it does under a rule that
says so. The rules that come from such registrations agree with those of the language
(`exists_after_eq`), so no reading sees them (`program_after_registrations`).
-/

namespace LetArith

namespace Rules.Agree

variable {rules : Rules} (agree : standard.Agree rules)
include agree

theorem setBinary (kind : Kind) : standard.Agree (rules.setBinary kind) := by
  refine ⟨agree.operand, fun other binds => ?_, agree.binding⟩
  have binary := agree.binary other binds
  rw [standard_isBinary binds] at binary ⊢
  simp [Rules.setBinary, binary]

theorem setStatement {kind : Kind} (other : kind ≠ .letKeyword) :
    standard.Agree (rules.setStatement kind .expression) := by
  refine ⟨agree.operand, agree.binary, fun k => ?_⟩
  rw [← agree.binding k, Rules.setStatement]
  dsimp only
  split
  next same =>
    have unbound := (agree.binding kind).trans (by rw [standard_statement_eq_none other])
    simp [same, unbound]
  next => rfl

end Rules.Agree

namespace Parser

variable {s : Parser}

def withRules (s : Parser) (rules : Rules) : Parser :=
  { s with rules := rules }

theorem withRules_unseen (rules : Rules) :
    Unseen (·.withRules rules) (·.rules.Agree rules) (fun _ => True) where
  advance_eq _ := rfl
  report_eq _ _ := rfl
  enter_eq _ := rfl
  leave_eq _ := rfl
  current_eq _ := rfl
  diagnostics_eq _ := rfl
  agree _ agree := agree
  room _ _ room := room
  full _ _ full _ := ⟨full, rfl⟩
  start_of_leads _ _ moved agree := by rwa [moved.rules_eq]
  start_enter _ agree := agree
  finish_of_leads _ _ _ _ := trivial
  finish_of_leave _ _ := trivial

/-- Registers a kind as a binary operator, or one other than the keyword of bindings as the start of
an expression statement. -/
inductive Idle : Action → Prop where
  | binary (kind : Kind) : Idle (.setBinary kind)
  | expression {kind : Kind} (other : kind ≠ .letKeyword) : Idle (.setStatement kind .expression)

theorem exists_after_eq {registrations : List Action} (idle : ∀ x ∈ registrations, Idle x)
    (agree : Rules.standard.Agree s.rules) :
    ∃ rules, Rules.standard.Agree rules ∧ s.after registrations = s.withRules rules := by
  induction registrations generalizing s with
  | nil => exact ⟨s.rules, agree, rfl⟩
  | cons x others ih =>
    obtain ⟨first, rest⟩ := List.forall_mem_cons.1 idle
    rw [after]
    cases first with
    | binary kind => exact ih rest (agree.setBinary kind)
    | expression other => exact ih rest (agree.setStatement other)

end Parser

/-- Whatever kinds a caller registers as binary operators, or as starts of expression statements, a
text is parsed as before, if the keyword of bindings is left alone. What is taken as an operator is
decided by its precedence. -/
theorem program_after_registrations (source : String) (limit : Nat) (registrations : List Action)
    (idle : ∀ x ∈ registrations, Parser.Idle x) :
    let s := (Parser.ofSource source limit).after registrations
    s.program.1 = (parse source limit).1 ∧ s.program.2.seen = (parse source limit).2.seen ∧
      ∀ (t : Parser) p, t.rules = s.rules →
        (t.takesOperator p = true ↔ p < t.peek.kind.precedence) := by
  intro s
  obtain ⟨rules, agree, changed⟩ : ∃ rules, Rules.standard.Agree rules ∧
      s = (Parser.ofSource source limit).withRules rules :=
    Parser.exists_after_eq idle (.refl .standard)
  have same : s.program = ((parse source limit).1, (parse source limit).2.withRules rules) := by
    rw [changed]
    exact (Parser.withRules_unseen rules).program_eq (s := Parser.ofSource source limit) agree
      trivial
  rw [same]
  refine ⟨rfl, rfl, fun t p known => ?_⟩
  have agree : (t.withRules .standard).rules.Agree t.rules := by
    rw [known, changed]
    exact agree
  have alike : t.takesOperator p = (t.withRules .standard).takesOperator p :=
    Parser.takesOperator_of_agree agree rfl p
  rw [alike]
  exact Parser.takesOperator_iff rfl p

theorem program_after_registrations_adjacent :
    let registrations : List Action := [.setBinary .semicolon, .setBinary .integer,
      .setStatement .integer .expression, .setStatement .semicolon .expression]
    let s := (Parser.ofSource "1; 2 3" 1).after registrations
    (∀ x ∈ registrations, Parser.Idle x) ∧
      s.rules.isBinary .semicolon = true ∧ s.rules.isBinary .integer = true ∧
      s.program.1 = [.expression (.integer ['1']) (.integer (.integer ['1']) 1),
        .expression (.integer ['2']) (.integer (.integer ['2']) 2),
        .expression (.integer ['3']) (.integer (.integer ['3']) 3)] ∧
      s.program.2.diagnostics = [] := by
  intro registrations s
  have idle : ∀ x ∈ registrations, Parser.Idle x := by
    simp only [registrations, List.forall_mem_cons]
    exact ⟨.binary _, .binary _, .expression (by decide), .expression (by decide), nofun⟩
  obtain ⟨found, seen, -⟩ := program_after_registrations "1; 2 3" 1 registrations idle
  have integer (value : Nat) (digit : Char)
      (read : Text.readNat? (Token.integer [digit]).literal.toList = some value)
      (bound : value ≤ maxInteger) :
      Derives .sum [.integer [digit]] (.integer (.integer [digit]) value) 1 :=
    (Derives.integer rfl read bound).factor.term
  have layout : Parser.Layout 1 [] (lexemes "1; 2 3".toList)
      [.expression (.integer ['1']) (.integer (.integer ['1']) 1),
        .expression (.integer ['2']) (.integer (.integer ['2']) 2),
        .expression (.integer ['3']) (.integer (.integer ['3']) 3)] := by
    have tokens : lexemes "1; 2 3".toList = [.integer ['1']] ++ .mark ';' ::
        ([.integer ['2']] ++ ([.integer ['3']] ++ [])) := by
      rw [lexemes_of_scan (by decide), lexemes_of_scan (by decide), lexemes_of_scan (by decide),
        lexemes_of_scan (by decide), lexemes_of_end (by decide)]
      decide
    rw [tokens]
    refine .expression (integer 1 '1' (by decide) (by decide)) (Nat.le_refl 1) (by decide) ?_
    refine .semicolon (by decide) Nat.one_pos ?_
    refine .expression (integer 2 '2' (by decide) (by decide)) (Nat.le_refl 1) (by decide) ?_
    exact .expression (integer 3 '3' (by decide) (by decide)) (Nat.le_refl 1) nofun .nil
  refine ⟨idle, rfl, rfl, found.trans layout.parse_eq.1, ?_⟩
  exact (congrArg Prod.fst seen).trans layout.parse_eq.2

end LetArith
