import LetArith.Proofs.Failures
import LetArith.Proofs.Nesting

/-!
Failures of a parser that reads a text, wherever its caller has led it (`Reachable`). A failed
expression reports at most once and stops where it fails, so a failed statement reports at most once
(`expression_fails_once`). A statement that fails in silence gives up everything in front of the
token at which no operand starts, and that token as well (`statement_gives_up`).
-/

namespace LetArith.Parser
open Text

variable {source : String} {limit : Nat} {s t : Parser}

/-! ## The states of a parser -/

/-- The states of a parser on a text: at the start, after an action of its caller, and in the midst
of one. -/
inductive Reachable (source : String) (limit : Nat) : Parser → Prop where
  | start : Reachable source limit (ofSource source limit)
  | perform {s : Parser} (h : Reachable source limit s) (action : Action) :
      Reachable source limit (s.perform action).2
  | midst {s : Parser} (h : Reachable source limit s) (action : Action) (n : Nat) :
      Reachable source limit (s.play ((s.actionSteps action).take n))

structure OnText (limit : Nat) (s : Parser) : Prop where
  scanned : s.FacesScanned
  limit_eq : s.limit = limit
  ended : s.peek.kind = .endOfInput → s.peek = .endOfInput ∧ s.rest = []

theorem ended_advance (s : Parser) (last : s.advance.peek.kind = .endOfInput) :
    s.advance.peek = .endOfInput ∧ s.advance.rest = [] :=
  Prod.mk.inj (scan_eq_endOfInput last)

theorem ofSource_onText (source : String) (limit : Nat) :
    OnText limit (ofSource source limit) :=
  ⟨ofSource_facesScanned source limit, rfl, ended_advance _⟩

namespace OnText

variable (h : OnText limit s)
include h

theorem step (x : Step) : OnText limit (s.step x) := by
  cases x with
  | advance => exact ⟨h.scanned.leads (.advance s), h.limit_eq, s.ended_advance⟩
  | report diagnostic => exact ⟨h.scanned.leads (.report s diagnostic), h.limit_eq, h.ended⟩
  | enter => exact ⟨fun n => s.tokenAt_enter n ▸ h.scanned n, h.limit_eq, h.ended⟩
  | leave => exact ⟨fun n => s.tokenAt_leave n ▸ h.scanned n, h.limit_eq, h.ended⟩

theorem play (steps : List Step) : OnText limit (s.play steps) := by
  induction steps generalizing s with
  | nil => exact h
  | cons x steps ih => exact ih (h.step x)

theorem change_rules (rules : Rules) : OnText limit { s with rules := rules } := by
  refine ⟨fun n => ?_, h.limit_eq, h.ended⟩
  rw [tokenAt, iterate_advance_comm ({ · with rules := rules }) fun _ => rfl]
  exact h.scanned n

theorem perform (action : Action) : OnText limit (s.perform action).2 := by
  rw [play_actionSteps]
  exact (h.play _).change_rules _

theorem advance_advance (last : s.peek.kind = .endOfInput) : s.advance.advance = s.advance := by
  obtain ⟨peek, rest⟩ := h.ended last
  rw [Parser.advance, Parser.advance, peek, rest]
  rfl

end OnText

theorem Reachable.onText (h : Reachable source limit s) : OnText limit s := by
  induction h with
  | start => exact ofSource_onText source limit
  | perform _ action ih => exact ih.perform action
  | midst _ action n ih => exact ih.play _

/-! ## One report for a failure -/

theorem exists_denotes_of_overflow {x : Token} (scanned : x.Scanned) (kind : x.kind = .integer)
    (read : integerValue? x.literal = none) :
    ∃ value : Int, x.Denotes value ∧ maxInteger < value := by
  have other : ∀ mark ∈ markKinds, mark.2 ≠ .integer := by decide
  cases scanned.lexeme (by rw [kind]; decide) with
  | @integer digits nonempty numeric =>
    have numeral : readNat? digits.toList = .some (Nat.ofDigitChars 10 digits.toList 0) :=
      if_pos ⟨nonempty, List.all_eq_true.2 numeric⟩
    rw [integerValue?, numeral, Option.filter_eq_none_iff] at read
    have above := read _ rfl
    exact ⟨_, ⟨rfl, nonempty, numeric, rfl⟩, by simpa using above⟩
  | keyword | name | illegal => cases kind
  | mark known => exact absurd kind (other _ known)

theorem skip_diagnostics (s : Parser) : s.skip.diagnostics = s.diagnostics := by
  fun_induction skip s with
  | case1 => rfl
  | case2 s more ih => exact ih

theorem statement_diagnostics (s : Parser) :
    s.statement.2.diagnostics = s.statementBody.2.diagnostics := by
  rw [statement, advance_diagnostics, recover]
  split
  · exact skip_diagnostics _
  · rfl

theorem statement_failure (standard : s.rules = .standard) (failed : s.statement.1 = none) :
    ∃ added, s.statement.2.diagnostics = s.diagnostics ++ added ∧
      (s.current.kind = .letKeyword ∧ added.length = 1 ∨
        s.current.kind ≠ .letKeyword ∧ (s.expression .lowest).1 = none ∧
          Crosses s (s.expression .lowest).2 added ∧ Failure (s.expression .lowest).2 added) := by
  replace failed : s.statementBody.1 = none := failed
  rw [statement_diagnostics]
  by_cases keyword : s.current.kind = .letKeyword
  · rw [statementBody_of_keyword standard keyword] at failed ⊢
    obtain ⟨diagnostic, reported, -⟩ := letBinding_failure standard failed
    exact ⟨[diagnostic], reported, .inl ⟨keyword, rfl⟩⟩
  · rw [statementBody_of_expression standard keyword] at failed ⊢
    have missing := Option.map_eq_none_iff.1 failed
    have ending := expression_ending (s := s) standard .lowest
    rw [missing] at ending
    obtain ⟨added, crosses, failure⟩ := ending.exists_of_none
    exact ⟨added, crosses.diagnostics_eq, .inr ⟨keyword, missing, crosses, failure⟩⟩

/-- An expression that is read reports nothing. One that fails reports at most once, and stops on
the token that the report is about, or in front of it; where it reports nothing no operand starts. A
statement that fails reports at most once as well. -/
theorem expression_fails_once (reached : Reachable source limit s) (standard : s.rules = .standard)
    (p : Precedence) :
    let read := s.expression p
    read.2.limit = limit ∧
    (∀ e, read.1 = some e → read.2.diagnostics = s.diagnostics) ∧
    (read.1 = none → ∃ added, read.2.diagnostics = s.diagnostics ++ added ∧
      Failure read.2 added ∧
      ∀ literal, added = [.invalidInteger literal] →
        ∃ value : Int, read.2.current.Denotes value ∧ maxInteger < value) ∧
    (s.statement.1 = none → ∃ added,
      s.statement.2.diagnostics = s.diagnostics ++ added ∧ added.length ≤ 1) := by
  intro read
  have leads : Leads s read.2 := expression_leads p s
  have ending : Ending s read.2 read.1 := expression_ending standard p
  refine ⟨leads.limit_eq.trans reached.onText.limit_eq, fun e found => ?_, fun missing => ?_, ?_⟩
  · rw [found] at ending
    exact ending.crosses_of_some.1.diagnostics_eq.trans (List.append_nil _)
  · rw [missing] at ending
    obtain ⟨added, crosses, failure⟩ := ending.exists_of_none
    refine ⟨added, crosses.diagnostics_eq, failure, ?_⟩
    rintro literal rfl
    cases failure with
    | overflow kind read =>
      exact exists_denotes_of_overflow (reached.onText.scanned.leads leads 0) kind read
  · intro failed
    obtain ⟨added, reported, ⟨-, one⟩ | ⟨-, -, -, failure⟩⟩ := statement_failure standard failed
    · exact ⟨added, reported, Nat.le_of_eq one⟩
    · exact ⟨added, reported, failure.length_le⟩

theorem expression_fails_once_overflow :
    let source := "-(99999999999999999999 + 1); 2"
    let s := ofSource source 256
    let read := s.expression .lowest
    Reachable source 256 s ∧ s.rules = .standard ∧ read.1 = none ∧
      read.2.diagnostics = [.invalidInteger "99999999999999999999"] ∧
      ∃ value : Int, read.2.current.Denotes value ∧ maxInteger < value := by
  intro source s read
  have numeral : Reads .operand s.enter.advance.enter.advance.enter none _ :=
    .overflow (by decide) (by decide)
  have group : Reads .operand s.enter.advance.enter none _ :=
    .groupFailed (by decide) (.nestedFailed (by decide) numeral)
  have sign : Reads .operand s.enter none _ :=
    .unary (by decide) (.nestedFailed (by decide) group)
  have result : read = (none, _) := (Reads.nestedFailed (by decide) sign).expression_eq
  have reached : Reachable source 256 s := .start
  obtain ⟨-, -, fails, -⟩ := expression_fails_once reached rfl .lowest
  obtain ⟨added, reported, -, above⟩ := fails (congrArg Prod.fst result)
  have once : read.2.diagnostics = [.invalidInteger "99999999999999999999"] := by
    rw [result]
    decide
  exact ⟨reached, rfl, congrArg Prod.fst result, once, above _ (reported.symm.trans once)⟩

/-! ## Failures in silence -/

theorem exists_of_silence (standard : s.rules = .standard) (failed : s.statement.1 = none)
    (silent : s.statement.2.diagnostics = s.diagnostics) :
    ∃ j, s.expression .lowest = (none, advance^[j] s) ∧ s.statement.2 = advance^[j + 1] s ∧
      (∀ x ∈ upcoming j s, x.kind ∈ expressionKinds) ∧
      (s.tokenAt j).kind ∉ operandKinds ∧ (s.tokenAt j).kind ≠ .illegal := by
  obtain ⟨added, reported, causes⟩ := statement_failure standard failed
  obtain rfl : added = [] := List.append_right_eq_self.1 (reported.symm.trans silent)
  obtain ⟨-, one⟩ | ⟨keyword, missing, ⟨j, stopped, passed⟩, failure⟩ := causes
  · cases one
  · rw [reportAll_nil] at stopped
    have read : s.expression .lowest = (none, advance^[j] s) := Prod.ext missing stopped
    have body : s.statementBody = (none, advance^[j] s) := by
      rw [statementBody_of_expression standard keyword, read]
      rfl
    have moved := statement_of_silence body (iterate_advance_diagnostics j s)
    rw [advance_iterate_advance] at moved
    rw [stopped] at failure
    cases failure with
    | silent kind legal => exact ⟨j, read, congrArg Prod.snd moved, passed, kind, legal⟩

/-- A statement that fails in silence gives up its tokens up to the first one at which no operand
starts, and that one too. This is its first token alone just where no operand starts there, or where
nothing stands behind it. -/
theorem statement_gives_up (reached : Reachable source limit s) (standard : s.rules = .standard)
    (failed : s.statement.1 = none) (silent : s.statement.2.diagnostics = s.diagnostics) :
    (∃ j, s.statement.2 = advance^[j + 1] s ∧ (∀ x ∈ upcoming j s, x.kind ∈ expressionKinds) ∧
      (s.tokenAt j).kind ∉ operandKinds ∧ (s.tokenAt j).kind ≠ .illegal) ∧
    (s.statement.2 = s.advance ↔
      s.current.kind ∉ operandKinds ∨ s.peek.kind = .endOfInput) := by
  obtain ⟨j, read, moved, passed, stop, legal⟩ := exists_of_silence standard failed silent
  refine ⟨⟨j, moved, passed, stop, legal⟩, ?_, ?_⟩
  · intro one
    by_contra! starts
    obtain ⟨starts, more⟩ := starts
    obtain ⟨i, rfl⟩ := Nat.exists_eq_succ_of_ne_zero (n := j) (by rintro rfl; exact stop starts)
    -- a move beyond the next token would show in what is left
    have positive : 0 < s.advance.pending := pending_pos_of_current more
    have fewer := pending_iterate_advance_le (i + 1) s.advance
    rw [← Function.iterate_succ_apply, ← moved, one] at fewer
    omega
  · rintro (unknown | last)
    · rw [← standard_operand_eq_none_iff, ← standard] at unknown
      obtain ⟨added, fails⟩ := expression_of_no_operand unknown .lowest
      rw [read] at fails
      have here : advance^[j] s = s.reportAll added := congrArg Prod.snd fails
      have kept : (s.reportAll added).diagnostics = s.diagnostics :=
        here ▸ iterate_advance_diagnostics j s
      have nothing : added = [] := List.append_right_eq_self.1 kept
      rw [nothing, reportAll_nil] at here
      rw [moved, ← advance_iterate_advance, here]
    · rw [moved, Function.iterate_succ_apply]
      exact Function.iterate_fixed (reached.onText.advance_advance last) j

theorem statement_gives_up_name :
    let s := ofSource "x 1 + 2" 256
    Reachable "x 1 + 2" 256 s ∧ s.rules = .standard ∧ s.statement.1 = none ∧
      s.statement.2.diagnostics = s.diagnostics ∧ s.statement.2 = s.advance := by
  intro s
  have unknown : Reads .operand s.enter none _ := .silent (by decide) (by decide)
  have read : s.expression .lowest = (none, s) :=
    (Reads.nestedFailed (by decide) unknown).expression_eq
  have body : s.statementBody = (none, s) := by
    rw [statementBody_of_expression rfl (by decide), read]
    rfl
  have silent := statement_of_silence body rfl
  have reached : Reachable "x 1 + 2" 256 s := .start
  obtain ⟨-, one⟩ := statement_gives_up reached rfl (by rw [silent]) (by rw [silent]; rfl)
  exact ⟨reached, rfl, by rw [silent], by rw [silent]; rfl, one.2 (.inl (by decide))⟩

/-- The semicolon that the sum stops at is lost with it, and the next statement starts behind it. -/
theorem statement_gives_up_sum :
    let s := ofSource "1 + ; 2" 256
    Reachable "1 + ; 2" 256 s ∧ s.rules = .standard ∧ s.current.kind ≠ .endOfInput ∧
      s.statement.1 = none ∧ s.statement.2.diagnostics = s.diagnostics ∧
      s.peek = .mark '+' ∧ s.statement.2.current = .integer ['2'] := by
  intro s
  let one := Expr.integer (.integer ['1']) 1
  have first : Reads .operand s.enter (some one) s.enter := .integer (by decide) (by decide)
  have semicolon : Reads .operand s.enter.advance.advance.enter none _ :=
    .silent (by decide) (by decide)
  have sum : Reads (.operators .lowest one) s.enter none _ :=
    .joinFailed (by decide) (.nestedFailed (by decide) semicolon)
  have read : s.expression .lowest = (none, advance^[2] s) :=
    (Reads.nested (by decide) first sum).expression_eq
  have body : s.statementBody = (none, advance^[2] s) := by
    rw [statementBody_of_expression rfl (by decide), read]
    rfl
  rw [statement_of_silence body rfl]
  exact ⟨.start, rfl, by decide, rfl, rfl, by decide, by decide⟩

end LetArith.Parser
