import LetArith.Proofs.WellFormed

/-!
How readings fail. A reading that fails reports at most once, and why it failed is seen in the window
where it stops (`Failure`): on the way back out of the nested readings nothing moves and nothing is
reported again (`Reads.ending`). A binding that fails reports exactly once, and one that is read
drops what stands behind its value (`letBinding_outcome`).
-/

namespace LetArith
open Text

namespace Parser

variable {s t u : Parser} {added more : List Diagnostic}

def operandKinds : List Kind := [.integer, .minus, .leftParen]

theorem standard_operand_eq_none_iff {kind : Kind} :
    Rules.standard.operand kind = none ↔ kind ∉ operandKinds := by
  cases kind <;> decide

theorem mem_expressionKinds_of_operand {kind : Kind} {rule : OperandRule}
    (h : Rules.standard.operand kind = some rule) : kind ∈ expressionKinds := by
  cases kind <;> first | decide | cases h

theorem mem_expressionKinds_of_lt {p : Precedence} {kind : Kind} (h : p < kind.precedence) :
    kind ∈ expressionKinds := by
  cases kind <;> first | exact absurd h p.not_lt_lowest | decide

/-! ## Where a reading stops -/

def Crosses (s t : Parser) (added : List Diagnostic) : Prop :=
  ∃ j, t = (advance^[j] s).reportAll added ∧ ∀ x ∈ upcoming j s, x.kind ∈ expressionKinds

namespace Crosses

theorem refl (s : Parser) : Crosses s s [] :=
  ⟨0, (reportAll_nil s).symm, nofun⟩

theorem report (s : Parser) (diagnostic : Diagnostic) :
    Crosses s (s.report diagnostic) [diagnostic] :=
  ⟨0, rfl, nofun⟩

theorem advance (kind : s.current.kind ∈ expressionKinds) : Crosses s s.advance [] :=
  ⟨1, (reportAll_nil _).symm, by simpa [upcoming] using kind⟩

theorem trans (first : Crosses s t added) (second : Crosses t u more) :
    Crosses s u (added ++ more) := by
  obtain ⟨i, rfl, before⟩ := first
  obtain ⟨j, rfl, behind⟩ := second
  refine ⟨i + j, ?_, ?_⟩
  · rw [iterate_advance_reportAll, reportAll_reportAll, ← Function.iterate_add_apply, Nat.add_comm]
  · rw [upcoming_reportAll] at behind
    rw [upcoming_add]
    exact List.forall_mem_append.2 ⟨before, behind⟩

theorem leave (inside : Crosses s.enter t added) : Crosses s t.leave added := by
  obtain ⟨j, rfl, passed⟩ := inside
  rw [upcoming_enter] at passed
  refine ⟨j, ?_, passed⟩
  rw [iterate_advance_enter]
  rfl

theorem diagnostics_eq (h : Crosses s t added) : t.diagnostics = s.diagnostics ++ added := by
  obtain ⟨j, rfl, -⟩ := h
  simp [reportAll]

end Crosses

/-- What a reading may have reported when it fails, as the window shows it. -/
inductive Failure (t : Parser) : List Diagnostic → Prop where
  | silent (kind : t.current.kind ∉ operandKinds) (legal : t.current.kind ≠ .illegal) :
      Failure t []
  | illegal (kind : t.current.kind = .illegal) :
      Failure t [.illegalCharacter t.current.literal]
  | overflow (kind : t.current.kind = .integer)
      (read : integerValue? t.current.literal = none) :
      Failure t [.invalidInteger t.current.literal]
  | unclosed (next : t.peek.kind ≠ .rightParen) (last : t.peek.kind ∉ operatorKinds) :
      Failure t [.unexpectedToken .rightParen t.peek.kind]
  | refused : Failure t [.nestingTooDeep t.limit]

theorem Failure.leave (h : Failure t added) : Failure t.leave added := by
  cases h with
  | silent kind legal => exact .silent kind legal
  | illegal kind => exact .illegal kind
  | overflow kind read => exact .overflow kind read
  | unclosed next last => exact .unclosed next last
  | refused => exact .refused

theorem Failure.length_le (h : Failure t added) : added.length ≤ 1 := by
  cases h <;> simp

/-- How a reading from `s` ends in `t`: in silence on the last token of what is read, or with a
failure that the window explains. -/
inductive Ending (s t : Parser) : Option Expr → Prop where
  | read {e : Expr} (crosses : Crosses s t []) (last : t.current.kind ∈ expressionKinds) :
      Ending s t (some e)
  | failed {added : List Diagnostic} (crosses : Crosses s t added) (failure : Failure t added) :
      Ending s t none

namespace Ending

variable {result : Option Expr}

theorem after (first : Crosses s t []) (h : Ending t u result) : Ending s u result := by
  cases h with
  | read crosses last => exact .read (first.trans crosses) last
  | failed crosses failure => exact .failed (first.trans crosses) failure

theorem leave (h : Ending s.enter t result) : Ending s t.leave result := by
  cases h with
  | read crosses last => exact .read crosses.leave last
  | failed crosses failure => exact .failed crosses.leave failure.leave

theorem map (f : Expr → Expr) (h : Ending s t result) : Ending s t (result.map f) := by
  cases h with
  | read crosses last => exact .read crosses last
  | failed crosses failure => exact .failed crosses failure

theorem crosses_of_some {e : Expr} (h : Ending s t (some e)) :
    Crosses s t [] ∧ t.current.kind ∈ expressionKinds := by
  cases h with
  | read crosses last => exact ⟨crosses, last⟩

theorem exists_of_none (h : Ending s t none) : ∃ added, Crosses s t added ∧ Failure t added := by
  cases h with
  | failed crosses failure => exact ⟨_, crosses, failure⟩

end Ending

def Goal.Begun (s : Parser) : Goal → Prop
  | .operators _ _ => s.current.kind ∈ expressionKinds
  | .operand | .expression _ => True

theorem Reads.ending {goal : Goal} {result : Option Expr} (h : Reads goal s result t)
    (standard : s.rules = .standard) (begun : goal.Begun s) : Ending s t result := by
  induction h with
  | @integer s value rule read =>
    rw [standard] at rule
    exact .read (.refl s) (mem_expressionKinds_of_operand rule)
  | @overflow s rule read =>
    rw [standard] at rule
    exact .failed (.report s _) (.overflow (Rules.standard_operand_integer rule) read)
  | @unary s t operand rule _ ih =>
    rw [standard] at rule
    exact (ih standard trivial).map _ |>.after (.advance (mem_expressionKinds_of_operand rule))
  | @group s t value rule _ closed ih =>
    rw [standard] at rule
    obtain ⟨inside, last⟩ := (ih standard trivial).crosses_of_some
    refine .after (.advance (mem_expressionKinds_of_operand rule))
      (.read (inside.trans (.advance last)) ?_)
    rw [advance_current, closed]
    decide
  | @unclosed s t value rule inner closed ih =>
    rw [standard] at rule
    obtain ⟨inside, -⟩ := (ih standard trivial).crosses_of_some
    obtain ⟨n, -, -, last⟩ := inner.derived standard rfl
    exact .after (.advance (mem_expressionKinds_of_operand rule))
      (.failed (inside.trans (.report t _)) (.unclosed closed (mt lowest_lt_precedence_iff.2 last)))
  | @groupFailed s t rule _ ih =>
    rw [standard] at rule
    exact .after (.advance (mem_expressionKinds_of_operand rule)) (ih standard trivial)
  | @illegal s rule kind => exact .failed (.report s _) (.illegal kind)
  | @silent s rule kind =>
    rw [standard, standard_operand_eq_none_iff] at rule
    exact .failed (.refl s) (.silent rule kind)
  | @last p left s stop => exact .read (.refl s) begun
  | @join p left right s t u result more inner _ operand others =>
    rw [takesOperator_iff standard] at more
    obtain ⟨inside, last⟩ := (operand standard trivial).crosses_of_some
    have operator : Crosses s.advance s.advance.advance [] :=
      .advance (mem_expressionKinds_of_lt more)
    have kept := ((Leads.moves 2 s).trans inner.leads).rules_eq
    exact (others (kept.trans standard) last).after
      ((Crosses.advance begun).trans (operator.trans inside))
  | @joinFailed p left s t more _ operand =>
    rw [takesOperator_iff standard] at more
    have operator : Crosses s.advance s.advance.advance [] :=
      .advance (mem_expressionKinds_of_lt more)
    exact (operand standard trivial).after ((Crosses.advance begun).trans operator)
  | @nested p left s t u result room first _ operand others =>
    obtain ⟨inside, last⟩ := (operand standard trivial).crosses_of_some
    exact ((others (first.leads.rules_eq.trans standard) last).after inside).leave
  | @nestedFailed p s t room _ operand => exact (operand standard trivial).leave
  | @refused p s full => exact .failed (.report s _) .refused

theorem expression_ending (standard : s.rules = .standard) (p : Precedence) :
    Ending s (s.expression p).2 (s.expression p).1 :=
  (expression_reads p s).ending standard trivial

/-! ## Bindings -/

def reportsOfIllegal (ts : List Token) : List Diagnostic :=
  (ts.filter (·.kind = .illegal)).map fun x => .illegalCharacter x.literal

/-- From the last token of a value the window has moved to the first boundary behind it, and the
illegal tokens on the way are reported. -/
def DiscardsTail (s t : Parser) : Prop :=
  ∃ n, t = (advance^[n + 1] s).reportAll (reportsOfIllegal (upcoming n s.advance)) ∧
    (∀ i ≤ n, ¬(advance^[i] s).atBoundary = true) ∧ t.atBoundary = true

inductive BindingFailure (s : Parser) : Diagnostic → Prop where
  | unnamed (named : (s.tokenAt 1).kind ≠ .identifier) :
      BindingFailure s (.unexpectedToken .identifier (s.tokenAt 1).kind)
  | unassigned (named : (s.tokenAt 1).kind = .identifier) (assign : (s.tokenAt 2).kind ≠ .assign) :
      BindingFailure s (.unexpectedToken .assign (s.tokenAt 2).kind)
  | value {t : Parser} {diagnostic : Diagnostic} (named : (s.tokenAt 1).kind = .identifier)
      (assign : (s.tokenAt 2).kind = .assign)
      (read : s.advance.advance.advance.expression .lowest = (none, t))
      (reported : t.diagnostics = s.diagnostics ++ [diagnostic]) : BindingFailure s diagnostic
  | missing {t : Parser} (named : (s.tokenAt 1).kind = .identifier)
      (assign : (s.tokenAt 2).kind = .assign)
      (read : s.advance.advance.advance.expression .lowest = (none, t))
      (silent : t.diagnostics = s.diagnostics) :
      BindingFailure s (.missingExpression t.current.kind)

theorem reportIllegal_eq (s : Parser) :
    s.reportIllegal = s.reportAll (reportsOfIllegal [s.current]) := by
  by_cases kind : s.current.kind = .illegal
  · rw [reportIllegal, if_pos kind, reportsOfIllegal, List.filter_cons_of_pos (by simpa using kind)]
    rfl
  · rw [reportIllegal, if_neg kind, reportsOfIllegal, List.filter_cons_of_neg (by simpa using kind)]
    exact (reportAll_nil s).symm

theorem reportsOfIllegal_cons (x : Token) (ts : List Token) :
    reportsOfIllegal (x :: ts) = reportsOfIllegal [x] ++ reportsOfIllegal ts := by
  rw [reportsOfIllegal, ← List.singleton_append, List.filter_append, List.map_append]
  rfl

theorem exists_skipTail_eq (s : Parser) :
    ∃ n, s.skipTail = (advance^[n] s).reportAll (reportsOfIllegal (upcoming n s)) ∧
      (∀ i < n, ¬(advance^[i] s).atBoundary = true) ∧ (advance^[n] s).atBoundary = true := by
  fun_induction skipTail s with
  | case1 s boundary =>
    exact ⟨0, (reportAll_nil s).symm, fun i lt => absurd lt i.not_lt_zero, boundary⟩
  | case2 s more ih =>
    have next : s.reportIllegal.advance = s.advance.reportAll (reportsOfIllegal [s.current]) := by
      rw [reportIllegal_eq]
      rfl
    have boundary (n : Nat) :
        (advance^[n] s.reportIllegal.advance).atBoundary = (advance^[n + 1] s).atBoundary := by
      rw [next, iterate_advance_reportAll]
      rfl
    obtain ⟨n, same, before, last⟩ := ih
    refine ⟨n + 1, ?_, ?_, by rwa [boundary] at last⟩
    · rw [same, next, upcoming_reportAll, iterate_advance_reportAll, reportAll_reportAll, upcoming,
        reportsOfIllegal_cons s.current (upcoming n s.advance)]
      rfl
    · rintro (_ | i) lt
      · exact more
      · rw [← boundary]
        exact before i (Nat.lt_of_succ_lt_succ lt)

theorem skipTail_discards (inside : s.current.kind ∈ expressionKinds) :
    DiscardsTail s s.skipTail := by
  obtain ⟨n, same, before, last⟩ := s.exists_skipTail_eq
  cases n with
  | zero =>
    have plain : ∀ kind ∈ expressionKinds, kind ≠ .semicolon ∧ kind ≠ .endOfInput := by decide
    simp [atBoundary, plain _ inside] at last
  | succ n =>
    have legal : reportsOfIllegal (upcoming (n + 1) s) = reportsOfIllegal (upcoming n s.advance) := by
      have plain : ∀ kind ∈ expressionKinds, kind ≠ .illegal := by decide
      rw [upcoming, reportsOfIllegal, List.filter_cons_of_neg (by simpa using plain _ inside)]
      rfl
    rw [legal] at same
    exact ⟨n, same, fun i le => before i (Nat.lt_succ_of_le le), same ▸ last⟩

theorem letBinding_failure (standard : s.rules = .standard) (failed : s.letBinding.1 = none) :
    ∃ diagnostic, s.letBinding.2.diagnostics = s.diagnostics ++ [diagnostic] ∧
      BindingFailure s diagnostic := by
  by_cases named : s.peek.kind = .identifier
  · by_cases assign : s.advance.peek.kind = .assign
    · have ending := expression_ending (s := s.advance.advance.advance) standard .lowest
      rcases read : s.advance.advance.advance.expression .lowest with ⟨_ | value, t⟩ <;>
        rw [read] at ending
      · obtain ⟨added, crosses, failure⟩ := ending.exists_of_none
        have reported : t.diagnostics = s.diagnostics ++ added := crosses.diagnostics_eq
        rw [letBinding_of_assigned named assign]
        rcases added with _ | ⟨diagnostic, _ | ⟨second, others⟩⟩
        · rw [List.append_nil] at reported
          rw [bindingValue_of_silent read reported]
          exact ⟨_, congrArg (· ++ [_]) reported, .missing named assign read reported⟩
        · rw [bindingValue_of_report read reported]
          exact ⟨diagnostic, reported, .value named assign read reported⟩
        · exact absurd failure.length_le (by simp)
      · rw [letBinding_of_assigned named assign, bindingValue_fst, read] at failed
        cases failed
    · rw [letBinding_of_unassigned named assign]
      exact ⟨_, rfl, .unassigned named assign⟩
  · rw [letBinding_of_unnamed named]
    exact ⟨_, rfl, .unnamed named⟩

theorem Accepts.of_upcoming {p : Precedence} {e : Expr} {j : Nat} (h : s.Accepts p e j)
    (tokens : upcoming (j + 1) t = upcoming (j + 1) s) (depth : t.depth = s.depth)
    (limit : t.limit = s.limit) (stop : ¬p < (t.tokenAt (j + 1)).kind.precedence) :
    t.Accepts p e j := by
  obtain ⟨⟨n, derived, room⟩, -⟩ := h
  exact ⟨⟨n, tokens ▸ derived, by rwa [depth, limit]⟩, stop⟩

/-- A binding is read exactly if a name, an assignment and a value stand behind its keyword. It ends
on the first boundary behind the value, and what stands in between is dropped: it is reported where
it is illegal, and the binding is the same with anything else there that does not continue the value.
A binding that fails reports exactly once. -/
theorem letBinding_outcome (standard : s.rules = .standard) :
    let value := s.advance.advance.advance.expression .lowest
    (∀ found, s.letBinding.1 = some found ↔
      (s.tokenAt 1).kind = .identifier ∧ (s.tokenAt 2).kind = .assign ∧
        ∃ e, value.1 = some e ∧
          found = .letBinding (s.tokenAt 0) ⟨s.tokenAt 1, (s.tokenAt 1).literal⟩ e) ∧
    (∀ found, s.letBinding.1 = some found →
      ∃ j, value.2 = advance^[j] s.advance.advance.advance ∧ DiscardsTail value.2 s.letBinding.2 ∧
        ∀ other : Parser, other.rules = .standard → other.depth = s.depth →
          other.limit = s.limit → upcoming (j + 4) other = upcoming (j + 4) s →
          (other.tokenAt (j + 4)).kind ∉ operatorKinds → other.letBinding.1 = some found) ∧
    (s.letBinding.1 = none → ∃ diagnostic,
      s.letBinding.2.diagnostics = s.diagnostics ++ [diagnostic] ∧ BindingFailure s diagnostic) := by
  intro value
  refine ⟨fun found => ⟨exists_of_letBinding, ?_⟩, fun found read => ?_, letBinding_failure standard⟩
  · rintro ⟨named, assign, e, read, rfl⟩
    rw [letBinding_of_assigned named assign, bindingValue_fst, read]
    rfl
  · obtain ⟨named, assign, e, found, rfl⟩ := exists_of_letBinding read
    obtain ⟨j, accepts⟩ := exists_accepts (s := s.advance.advance.advance) standard found
    have there : value = (some e, advance^[j] s.advance.advance.advance) :=
      accepts.expression_eq standard
    rw [letBinding_of_accepts standard named assign accepts, there]
    refine ⟨j, rfl, skipTail_discards accepts.kind_mem, ?_⟩
    intro other standard' depth limit tokens next
    obtain ⟨first, tokens⟩ := List.cons.inj tokens
    obtain ⟨second, tokens⟩ := List.cons.inj tokens
    obtain ⟨third, tokens⟩ := List.cons.inj tokens
    have second : other.peek = s.peek := second
    have third : other.advance.peek = s.advance.peek := third
    have accepts' : other.advance.advance.advance.Accepts .lowest e j :=
      accepts.of_upcoming tokens depth limit (by
        rw [tokenAt_advance, tokenAt_advance, tokenAt_advance]
        exact mt lowest_lt_precedence_iff.1 next)
    rw [letBinding_of_accepts standard' (by rw [second, named]) (by rw [third, assign]) accepts',
      first, second]

theorem letBinding_outcome_dropped :
    let s := ofSource "let x = 1 @ 2; 3" 256
    s.letBinding.1 = some (.letBinding (.word ['l', 'e', 't']) ⟨.word ['x'], "x"⟩
        (.integer (.integer ['1']) 1)) ∧
      s.letBinding.2.diagnostics = [.illegalCharacter "@"] ∧
      s.letBinding.2.current = .mark ';' := by
  intro s
  have integer : Derives .product [.integer ['1']] (.integer (.integer ['1']) 1) 1 :=
    (Derives.integer rfl (by decide) (by decide)).factor
  have accepts : s.advance.advance.advance.Accepts .lowest (.integer (.integer ['1']) 1) 0 :=
    ⟨⟨1, integer.term, by decide⟩, by decide⟩
  have value := accepts.expression_eq rfl
  obtain ⟨reads, ends, -⟩ := letBinding_outcome (s := s) rfl
  have found := (reads _).2 ⟨by decide, by decide, _, congrArg Prod.fst value, rfl⟩
  obtain ⟨-, -, ⟨n, stands, before, last⟩, -⟩ := ends _ found
  rw [value] at stands before
  rcases n with _ | _ | _ | n
  · rw [stands] at last
    exact absurd last (by decide)
  · rw [stands] at last
    exact absurd last (by decide)
  · exact ⟨found, by rw [stands]; decide, by rw [stands]; decide⟩
  · exact absurd (show (advance^[3] s.advance.advance.advance).atBoundary = true by decide)
      (before 3 (by omega))

end Parser

end LetArith
