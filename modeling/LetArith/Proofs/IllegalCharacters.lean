import LetArith.Proofs.Termination
import LetArith.Proofs.Concatenation

/-!
What becomes of illegal characters under the rules of the language. A reading passes none of them
(`Reads.stops`). A statement passes one only behind a report of the same statement, and a report
that names one is made where it stands (`statement_accounted`). So each of them is reported at most
once and in order, and none stands between two semicolons where nothing is reported
(`illegal_characters_reported`).
-/

namespace LetArith

def Diagnostic.illegal? : Diagnostic → Option String
  | .illegalCharacter literal => some literal
  | _ => none

namespace Parser

variable {s t : Parser} {tokens : Nat → Token} {place : Nat} {found : Bool}
  {steps front back : List Step}

/-! ## Readings -/

/-- The tokens from the window on are those of a stream from a place on. -/
def Sees (s : Parser) (tokens : Nat → Token) (place : Nat) : Prop :=
  ∀ n, s.tokenAt n = tokens (place + n)

namespace Sees

theorem current_eq (h : s.Sees tokens place) : s.current = tokens place :=
  h 0

theorem advance (h : s.Sees tokens place) : s.advance.Sees tokens (place + 1) := fun n => by
  rw [tokenAt_advance, h, Nat.add_assoc, Nat.add_comm 1]

theorem peek_eq (h : s.Sees tokens place) : s.peek = tokens (place + 1) :=
  h.advance.current_eq

theorem play (h : s.Sees tokens place) (steps : List Step) :
    (s.play steps).Sees tokens (place + moves steps) := fun n => by
  rw [tokenAt_play, h, Nat.add_assoc]

theorem of_reads {goal : Goal} {result : Option Expr} (h : s.Sees tokens place)
    (reads : Reads goal s result t) : t.Sees tokens (place + moves (readSteps goal s)) := by
  have there := h.play (readSteps goal s)
  rwa [reads.play_eq] at there

end Sees

theorem add_moves_advance (place : Nat) (steps : List Step) :
    place + 1 + moves steps = place + moves (.advance :: steps) := by
  rw [moves_advance, Nat.add_right_comm, Nat.add_assoc]

theorem forall_of_first {motive : Nat → Prop} {first last : Nat} (here : motive first)
    (later : ∀ k, first + 1 ≤ k → k < last → motive k) (k : Nat) (le : first ≤ k) (lt : k < last) :
    motive k := by
  rcases Nat.eq_or_lt_of_le le with rfl | behind
  · exact here
  · exact later k behind lt

/-- What a reading may report where it stops on a token. It is not silent on an illegal one. -/
inductive Verdict (x : Token) : Bool → List Diagnostic → Prop where
  | silent {found : Bool} (legal : x.kind ≠ .illegal) : Verdict x found []
  | illegal (kind : x.kind = .illegal) : Verdict x false [.illegalCharacter x.literal]
  | other {diagnostic : Diagnostic} (legal : diagnostic.illegal? = none) :
      Verdict x false [diagnostic]

/-- The steps pass no illegal token, and report only about the token on which they stop. -/
structure Stops (tokens : Nat → Token) (place : Nat) (found : Bool) (steps : List Step) : Prop where
  passed (k : Nat) (le : place ≤ k) (lt : k < place + moves steps) : (tokens k).kind ≠ .illegal
  verdict : ∃ reported, Verdict (tokens (place + moves steps)) found reported ∧
    reportsFrom place steps = reported.map (place + moves steps, ·)

namespace Stops

theorem rest (legal : (tokens place).kind ≠ .illegal) : Stops tokens place found [] :=
  ⟨fun _ le lt => absurd lt (Nat.not_lt.2 le), [], .silent legal, rfl⟩

theorem report {reported : Diagnostic} (verdict : Verdict (tokens place) false [reported]) :
    Stops tokens place false [.report reported] :=
  ⟨fun _ le lt => absurd lt (Nat.not_lt.2 le), [reported], verdict, rfl⟩

theorem move (legal : (tokens place).kind ≠ .illegal) (h : Stops tokens (place + 1) found steps) :
    Stops tokens place found (.advance :: steps) := by
  obtain ⟨passed, verdict⟩ := h
  rw [add_moves_advance] at passed verdict
  exact ⟨forall_of_first legal passed, verdict⟩

theorem append (first : Stops tokens place true front)
    (second : Stops tokens (place + moves front) found back) :
    Stops tokens place found (front ++ back) := by
  obtain ⟨_, ⟨legal⟩, silent⟩ := first.verdict
  obtain ⟨passed, verdict⟩ := second
  rw [Nat.add_assoc, ← moves_append] at passed verdict
  refine ⟨fun k le lt => ?_, ?_⟩
  · rcases Nat.lt_or_ge k (place + moves front) with before | behind
    · exact first.passed k le before
    · exact passed k behind lt
  · rwa [reportsFrom_append, silent]

theorem legal (h : Stops tokens place true steps) :
    (tokens (place + moves steps)).kind ≠ .illegal := by
  obtain ⟨_, ⟨legal⟩, -⟩ := h.verdict
  exact legal

theorem silent (h : Stops tokens place true steps) : reportsFrom place steps = [] := by
  obtain ⟨_, ⟨-⟩, silent⟩ := h.verdict
  exact silent

theorem body (h : Stops tokens place found steps) :
    Stops tokens place found (.enter :: (steps ++ [.leave])) := by
  have same : moves (.enter :: (steps ++ [.leave])) = moves steps := by simp [moves]
  have same' : reportsFrom place (.enter :: (steps ++ [.leave])) = reportsFrom place steps := by
    simp [reportsFrom]
  constructor
  · rw [same]
    exact h.passed
  · rw [same, same']
    exact h.verdict

end Stops

theorem kind_ne_of_takesOperator {p : Precedence} (more : s.takesOperator p = true) :
    s.peek.kind ≠ .illegal := by
  intro illegal
  rw [takesOperator, illegal] at more
  exact p.not_lt_lowest (of_decide_eq_true (Bool.and_eq_true_iff.1 more).1)

def Goal.Ready (tokens : Nat → Token) (place : Nat) : Goal → Prop
  | .operators _ _ => (tokens place).kind ≠ .illegal
  | .operand | .expression _ => True

theorem Reads.stops {goal : Goal} {result : Option Expr} (h : Reads goal s result t)
    (standard : s.rules = .standard) (sees : s.Sees tokens place)
    (ready : goal.Ready tokens place) : Stops tokens place result.isSome (readSteps goal s) := by
  induction h generalizing place with
  | @integer s value rule read =>
    rw [readSteps_of_integer rule, integerSteps, read]
    rw [standard, sees.current_eq] at rule
    exact .rest (by rw [Rules.standard_operand_integer rule]; decide)
  | @overflow s rule read =>
    rw [readSteps_of_integer rule, integerSteps, read]
    exact .report (.other rfl)
  | @unary s t operand rule _ ih =>
    rw [readSteps_of_unary rule, Option.isSome_map]
    rw [standard, sees.current_eq] at rule
    exact .move (by rw [Rules.standard_operand_unary rule]; decide)
      (ih standard sees.advance trivial)
  | @group s t value rule inner closed ih =>
    rw [readSteps_of_grouping rule, groupingSteps_of_read inner.expression_eq, closingSteps,
      expectSteps, if_pos closed]
    rw [standard, sees.current_eq] at rule
    have inside := ih standard sees.advance trivial
    have there := sees.advance.of_reads inner
    refine .move (by rw [Rules.standard_operand_grouping rule]; decide) (inside.append ?_)
    exact .move inside.legal (.rest (by rw [← there.peek_eq, closed]; decide))
  | @unclosed s t value rule inner closed ih =>
    rw [readSteps_of_grouping rule, groupingSteps_of_read inner.expression_eq, closingSteps,
      expectSteps, if_neg closed]
    rw [standard, sees.current_eq] at rule
    exact .move (by rw [Rules.standard_operand_grouping rule]; decide)
      ((ih standard sees.advance trivial).append (.report (.other rfl)))
  | @groupFailed s t rule inner ih =>
    rw [readSteps_of_grouping rule, groupingSteps_of_read inner.expression_eq, closingSteps,
      List.append_nil]
    rw [standard, sees.current_eq] at rule
    exact .move (by rw [Rules.standard_operand_grouping rule]; decide)
      (ih standard sees.advance trivial)
  | @illegal s rule kind =>
    rw [readSteps_of_no_operand rule, illegalSteps, if_pos kind]
    rw [sees.current_eq] at kind ⊢
    exact .report (.illegal kind)
  | @silent s rule kind =>
    rw [readSteps_of_no_operand rule, illegalSteps, if_neg kind]
    rw [sees.current_eq] at kind
    exact .rest kind
  | last stop =>
    rw [readSteps_of_last stop]
    exact .rest ready
  | @join p left right s t u result more inner others operand rest =>
    have kept := ((Leads.moves 2 s).trans inner.leads).rules_eq
    have here := operand standard sees.advance.advance trivial
    have next := kind_ne_of_takesOperator more
    rw [sees.peek_eq] at next
    rw [readSteps_of_join more inner.expression_eq]
    exact .move ready (.append (.move next here) (by
      have there := rest (kept.trans standard) (sees.advance.advance.of_reads inner) here.legal
      rwa [binarySteps, moves_advance, advance_current, ← Nat.add_assoc, Nat.add_right_comm]))
  | @joinFailed p left s t more inner operand =>
    have next := kind_ne_of_takesOperator more
    rw [sees.peek_eq] at next
    rw [readSteps_of_joinFailed more inner.expression_eq]
    exact .move ready (.move next (operand standard sees.advance.advance trivial))
  | @nested p left s t u result room first others operand rest =>
    have inside : s.enter.Sees tokens place := fun n => (tokenAt_enter n s).trans (sees n)
    have here := operand standard inside trivial
    rw [readSteps_of_nested room first.read_eq]
    exact (here.append (rest (first.leads.rules_eq.trans standard) (inside.of_reads first)
      here.legal)).body
  | @nestedFailed p s t room first operand =>
    have inside : s.enter.Sees tokens place := fun n => (tokenAt_enter n s).trans (sees n)
    rw [readSteps_of_nestedFailed room first.read_eq]
    exact (operand standard inside trivial).body
  | refused full =>
    rw [readSteps_of_full full]
    exact .report (.other rfl)

theorem expression_stops (p : Precedence) (standard : s.rules = .standard)
    (sees : s.Sees tokens place) :
    Stops tokens place (s.expression p).1.isSome (readSteps (.expression p) s) :=
  (expression_reads p s).stops standard sees trivial

/-! ## Accounts -/

def illegalReports (reports : List (Nat × Diagnostic)) : List (Nat × String) :=
  reports.filterMap fun r => r.2.illegal?.map (r.1, ·)

theorem illegalReports_append (first second : List (Nat × Diagnostic)) :
    illegalReports (first ++ second) = illegalReports first ++ illegalReports second :=
  List.filterMap_append

theorem map_snd_illegalReports (reports : List (Nat × Diagnostic)) :
    (illegalReports reports).map Prod.snd =
      (reports.map Prod.snd).filterMap Diagnostic.illegal? := by
  rw [illegalReports, List.map_filterMap, List.filterMap_map]
  congr 1
  funext r
  cases illegal : r.2.illegal? <;> simp [illegal]

theorem mem_illegalReports {reports : List (Nat × Diagnostic)} {k : Nat} {literal : String} :
    (k, literal) ∈ illegalReports reports ↔ (k, .illegalCharacter literal) ∈ reports := by
  simp only [illegalReports, List.mem_filterMap, Option.map_eq_some_iff, Prod.exists, Prod.mk.injEq]
  constructor
  · rintro ⟨k, diagnostic, mem, literal, illegal, rfl, rfl⟩
    cases diagnostic <;> cases illegal
    exact mem
  · intro mem
    exact ⟨k, _, mem, literal, rfl, rfl, rfl⟩

/-- What is reported between two places accounts for the illegal tokens there: a report that names
one is made on it and is the only one, and each of them is reported or lies behind a report with no
semicolon in between. -/
structure Accounted (tokens : Nat → Token) (first last : Nat)
    (reports : List (Nat × Diagnostic)) : Prop where
  within : ∀ r ∈ reports, first ≤ r.1 ∧ r.1 < last
  named : ∀ r ∈ illegalReports reports, tokens r.1 = ⟨.illegal, r.2⟩
  ordered : (illegalReports reports).Pairwise (·.1 < ·.1)
  covered (k : Nat) (le : first ≤ k) (lt : k < last) (illegal : (tokens k).kind = .illegal) :
    ∃ r ∈ reports, r.1 ≤ k ∧ ∀ m, r.1 ≤ m → m ≤ k → (tokens m).kind ≠ .semicolon

namespace Accounted

variable {first middle last : Nat} {reports reports' : List (Nat × Diagnostic)}

theorem of_legal (legal : ∀ k, first ≤ k → k < last → (tokens k).kind ≠ .illegal) :
    Accounted tokens first last [] where
  within _ mem := absurd mem List.not_mem_nil
  named _ mem := absurd mem List.not_mem_nil
  ordered := .nil
  covered k le lt illegal := absurd illegal (legal k le lt)

theorem nil (place : Nat) : Accounted tokens place place [] :=
  of_legal fun _ le lt => absurd lt (Nat.not_lt.2 le)

theorem append (before : Accounted tokens first middle reports)
    (behind : Accounted tokens middle last reports') (le : first ≤ middle) (le' : middle ≤ last) :
    Accounted tokens first last (reports ++ reports') where
  within := by
    intro r mem
    rcases List.mem_append.1 mem with mem | mem
    · have bounds := before.within r mem
      omega
    · have bounds := behind.within r mem
      omega
  named := by
    rw [illegalReports_append]
    exact List.forall_mem_append.2 ⟨before.named, behind.named⟩
  ordered := by
    rw [illegalReports_append]
    refine List.pairwise_append.2 ⟨before.ordered, behind.ordered, ?_⟩
    intro r mem r' mem'
    have lt := (before.within _ (mem_illegalReports.1 mem)).2
    have le := (behind.within _ (mem_illegalReports.1 mem')).1
    exact Nat.lt_of_lt_of_le lt le
  covered := by
    intro k low high illegal
    rcases Nat.lt_or_ge k middle with here | there
    · obtain ⟨r, mem, reported⟩ := before.covered k low here illegal
      exact ⟨r, List.mem_append_left _ mem, reported⟩
    · obtain ⟨r, mem, reported⟩ := behind.covered k there high illegal
      exact ⟨r, List.mem_append_right _ mem, reported⟩

theorem move (legal : (tokens first).kind ≠ .illegal) (lt : first < last)
    (h : Accounted tokens (first + 1) last reports) : Accounted tokens first last reports := by
  have here : Accounted tokens first (first + 1) [] :=
    of_legal (forall_of_first legal fun _ le lt => absurd lt (Nat.not_lt.2 le))
  exact here.append h (Nat.le_succ first) lt

theorem of_report {diagnostic : Diagnostic} (le : first ≤ middle) (lt : middle < last)
    (verdict : Verdict (tokens middle) false [diagnostic])
    (before : ∀ k, first ≤ k → k < middle → (tokens k).kind ≠ .illegal)
    (behind : ∀ k, middle ≤ k → k < last → (tokens k).kind = .illegal →
      ∀ m, middle ≤ m → m ≤ k → (tokens m).kind ≠ .semicolon) :
    Accounted tokens first last [(middle, diagnostic)] where
  within := by simpa using ⟨le, lt⟩
  named := by
    cases verdict with
    | illegal kind =>
      rintro r (_ | ⟨_, ⟨⟩⟩)
      exact congrArg (Token.mk · _) kind
    | other legal =>
      intro r mem
      rw [illegalReports, List.filterMap_cons_none (by rw [legal]; rfl)] at mem
      cases mem
  ordered := by
    rcases illegal : diagnostic.illegal? with _ | literal <;> simp [illegalReports, illegal]
  covered := by
    intro k low high illegal
    have there : middle ≤ k := Nat.le_of_not_lt fun early => before k low early illegal
    exact ⟨_, .head _, there, behind k there high illegal⟩

end Accounted

/-! ## Statements -/

theorem kind_ne_of_atBoundary (boundary : s.atBoundary = true) : s.current.kind ≠ .illegal := by
  intro illegal
  simp [atBoundary, illegal] at boundary

theorem kind_ne_of_not_atBoundary (more : ¬s.atBoundary = true) : s.current.kind ≠ .semicolon := by
  intro semicolon
  simp [atBoundary, semicolon] at more

theorem skipSteps_passed (sees : s.Sees tokens place) :
    reportsFrom place s.skipSteps = [] ∧
    (∀ k, place ≤ k → k < place + moves s.skipSteps → (tokens k).kind ≠ .semicolon) ∧
    (tokens (place + moves s.skipSteps)).kind ≠ .illegal := by
  fun_induction skipSteps s generalizing place with
  | case1 s boundary =>
    refine ⟨rfl, fun _ le lt => absurd lt (Nat.not_lt.2 le), ?_⟩
    exact sees.current_eq ▸ kind_ne_of_atBoundary boundary
  | case2 s more ih =>
    obtain ⟨silent, passed, legal⟩ := ih sees.advance
    rw [add_moves_advance] at passed legal
    exact ⟨silent, forall_of_first (sees.current_eq ▸ kind_ne_of_not_atBoundary more) passed, legal⟩

theorem illegalSteps_accounted (sees : s.Sees tokens place) :
    Accounted tokens place (place + 1) (reportsFrom place s.illegalSteps) := by
  have only {k : Nat} (le : place ≤ k) (lt : k < place + 1) : k = place :=
    Nat.le_antisymm (Nat.le_of_lt_succ lt) le
  unfold illegalSteps
  split
  next kind =>
    rw [sees.current_eq] at kind ⊢
    refine .of_report le_rfl (Nat.lt_succ_self place) (.illegal kind) ?_ ?_
    · exact fun k le lt => absurd lt (Nat.not_lt.2 le)
    · intro k le lt illegal m low high
      rw [only low (Nat.lt_of_le_of_lt high lt), kind]
      decide
  next legal =>
    rw [sees.current_eq] at legal
    exact .of_legal fun k le lt => only le lt ▸ legal

theorem tailSteps_accounted (sees : s.Sees tokens place) :
    Accounted tokens place (place + moves s.tailSteps + 1) (reportsFrom place s.tailSteps) := by
  fun_induction tailSteps s generalizing place with
  | case1 s boundary =>
    have legal := sees.current_eq ▸ kind_ne_of_atBoundary boundary
    exact .move legal (Nat.lt_succ_self place) (.nil (place + 1))
  | case2 s more ih =>
    have silent : moves s.illegalSteps = 0 := by
      unfold illegalSteps
      split <;> rfl
    have next : s.reportIllegal.Sees tokens place := by
      have there := sees.play s.illegalSteps
      rwa [play_illegalSteps, silent] at there
    rw [reportsFrom_append, moves_append, moves_advance, silent, Nat.zero_add, Nat.add_zero,
      reportsFrom_advance]
    have tail := ih next.advance
    rw [Nat.add_right_comm place, Nat.add_assoc place] at tail
    exact (illegalSteps_accounted sees).append tail (Nat.le_succ place) (by omega)

/-- The body of a statement that was read accounts for all tokens up to the one behind it. A body
that failed stops on what it reports, and leaves the rest to the recovery. -/
inductive Settles (tokens : Nat → Token) (place : Nat) : Bool → List Step → Prop where
  | read {steps : List Step}
      (accounted : Accounted tokens place (place + moves steps + 1) (reportsFrom place steps)) :
      Settles tokens place true steps
  | failed {steps : List Step} (stops : Stops tokens place false steps) :
      Settles tokens place false steps

theorem Stops.accounted (h : Stops tokens place found steps)
    (silent : reportsFrom place steps = []) :
    Accounted tokens place (place + moves steps + 1) (reportsFrom place steps) := by
  obtain ⟨reported, verdict, same⟩ := h.verdict
  rw [silent] at same ⊢
  cases List.map_eq_nil_iff.1 same.symm
  cases verdict with
  | silent legal =>
    refine .of_legal fun k le lt => ?_
    rcases Nat.eq_or_lt_of_le (Nat.le_of_lt_succ lt) with rfl | before
    · exact legal
    · exact h.passed k le before

theorem Stops.settles (h : Stops tokens place found steps) : Settles tokens place found steps := by
  cases found with
  | true => exact .read (h.accounted h.silent)
  | false => exact .failed h

theorem Settles.move (legal : (tokens place).kind ≠ .illegal)
    (h : Settles tokens (place + 1) found steps) :
    Settles tokens place found (.advance :: steps) := by
  cases h with
  | failed stops => exact .failed (stops.move legal)
  | read accounted =>
    rw [add_moves_advance] at accounted
    exact .read (accounted.move legal (by omega))

theorem Stops.append_report {diagnostic : Diagnostic} (h : Stops tokens place found steps)
    (silent : reportsFrom place steps = []) (legal : diagnostic.illegal? = none) :
    Stops tokens place false (steps ++ [.report diagnostic]) := by
  have same : moves (steps ++ [.report diagnostic]) = moves steps := by simp [moves]
  refine ⟨?_, [diagnostic], .other legal, ?_⟩
  · rw [same]
    exact h.passed
  · rw [same, reportsFrom_append, silent]
    rfl

theorem bindingSteps_settles (standard : s.rules = .standard) (sees : s.Sees tokens place) :
    Settles tokens place s.bindingValue.1.isSome s.bindingSteps := by
  have inner := expression_stops .lowest standard sees
  have there := sees.of_reads (expression_reads .lowest s)
  have grown := s.length_diagnostics_play place (readSteps (.expression .lowest) s)
  rw [play_readSteps, Parser.read] at grown
  rw [bindingValue_fst]
  rcases read : s.expression .lowest with ⟨_ | value, t⟩ <;> rw [read] at inner there grown
  · rw [bindingSteps_of_none read]
    split
    next same =>
      have silent := List.length_eq_zero_iff.1 (Nat.left_eq_add.1 (same.symm.trans grown))
      exact .failed (inner.append_report silent rfl)
    next reported =>
      rw [List.append_nil]
      exact .failed inner
  · have tail := tailSteps_accounted there
    have before := Accounted.of_legal inner.passed
    rw [bindingSteps_of_some read]
    refine .read ?_
    rw [reportsFrom_append, inner.silent, moves_append, ← Nat.add_assoc]
    exact before.append tail (Nat.le_add_right _ _) (by omega)

theorem letSteps_settles (standard : s.rules = .standard) (sees : s.Sees tokens place)
    (keyword : s.current.kind = .letKeyword) :
    Settles tokens place s.letBinding.1.isSome s.letSteps := by
  have legal : (tokens place).kind ≠ .illegal := by
    rw [← sees.current_eq, keyword]
    decide
  by_cases named : s.peek.kind = .identifier
  · have legal' : (tokens (place + 1)).kind ≠ .illegal := by
      rw [← sees.peek_eq, named]
      decide
    by_cases assign : s.advance.peek.kind = .assign
    · have legal'' : (tokens (place + 1 + 1)).kind ≠ .illegal := by
        rw [← sees.advance.peek_eq, assign]
        decide
      rw [letBinding_of_assigned named assign, letSteps_of_assigned named assign, Option.isSome_map]
      exact .move legal (.move legal' (.move legal''
        (bindingSteps_settles standard sees.advance.advance.advance)))
    · rw [letBinding_of_unassigned named assign, letSteps_of_unassigned named assign]
      exact .failed (.move legal (.report (.other rfl)))
  · rw [letBinding_of_unnamed named, letSteps_of_unnamed named]
    exact .failed (.report (.other rfl))

theorem bodySteps_of_keyword (standard : s.rules = .standard)
    (keyword : s.current.kind = .letKeyword) : s.bodySteps = s.letSteps := by
  rw [bodySteps, standard, keyword]
  rfl

theorem bodySteps_of_expression (standard : s.rules = .standard)
    (kind : s.current.kind ≠ .letKeyword) : s.bodySteps = readSteps (.expression .lowest) s := by
  have rule : s.rules.statement s.current.kind = none := by
    rw [standard, Rules.standard_statement_eq_none kind]
  rw [bodySteps, rule]

theorem bodySteps_settles (standard : s.rules = .standard) (sees : s.Sees tokens place) :
    Settles tokens place s.statementBody.1.isSome s.bodySteps := by
  by_cases keyword : s.current.kind = .letKeyword
  · rw [statementBody_of_keyword standard keyword, bodySteps_of_keyword standard keyword]
    exact letSteps_settles standard sees keyword
  · rw [statementBody_of_expression standard keyword, bodySteps_of_expression standard keyword,
      Option.isSome_map]
    exact (expression_stops .lowest standard sees).settles

theorem Stops.accounted_of_skip (h : Stops tokens place false steps)
    (reported : reportsFrom place steps ≠ []) (sees : s.Sees tokens (place + moves steps)) :
    Accounted tokens place (place + moves (steps ++ s.skipSteps ++ [.advance]))
      (reportsFrom place (steps ++ s.skipSteps ++ [.advance])) := by
  obtain ⟨silent, passed, legal⟩ := skipSteps_passed sees
  have last : place + moves (steps ++ s.skipSteps ++ [.advance]) =
      place + moves steps + moves s.skipSteps + 1 := by
    simp only [moves_append, moves_advance, moves_nil]
    omega
  rw [last, reportsFrom_append, reportsFrom_append, silent, reportsFrom_advance, reportsFrom_nil,
    List.append_nil, List.append_nil]
  obtain ⟨_ | ⟨diagnostic, _ | _⟩, verdict, same⟩ := h.verdict
  · exact absurd same reported
  · rw [same]
    refine .of_report (Nat.le_add_right _ _) (by omega) verdict h.passed ?_
    intro k le lt illegal m low high
    -- the boundary itself is not illegal, so what is lies before it
    rcases Nat.eq_or_lt_of_le (Nat.le_of_lt_succ lt) with rfl | before
    · exact absurd illegal legal
    · exact passed m low (Nat.lt_of_le_of_lt high before)
  · cases verdict

theorem statement_accounted (standard : s.rules = .standard) (sees : s.Sees tokens place) :
    Accounted tokens place (place + moves s.statementSteps)
      (reportsFrom place s.statementSteps) := by
  have settles := bodySteps_settles standard sees
  have there := sees.play s.bodySteps
  have grown := s.length_diagnostics_play place s.bodySteps
  rw [play_bodySteps] at there grown
  -- where nothing is given up, the statement moves over the token on which its body stops
  have moved (accounted : Accounted tokens place (place + moves s.bodySteps + 1)
      (reportsFrom place s.bodySteps)) :
      Accounted tokens place (place + moves (s.bodySteps ++ [] ++ [.advance]))
        (reportsFrom place (s.bodySteps ++ [] ++ [.advance])) := by
    rwa [List.append_nil, reportsFrom_append, moves_append, reportsFrom_advance, reportsFrom_nil,
      List.append_nil, moves_advance, moves_nil, ← Nat.add_assoc, ← Nat.add_assoc]
  rcases body : s.statementBody with ⟨_ | value, t⟩ <;> rw [body] at settles there grown <;>
    simp only [statementSteps, body]
  · cases settles with
    | failed stops =>
      by_cases silent : reportsFrom place s.bodySteps = []
      · rw [silent] at grown
        have quiet : ¬s.diagnostics.length < t.diagnostics.length := by simp [grown]
        simp only [quiet, decide_false, Option.isNone_none, Bool.and_false, recoverSteps,
          Bool.false_eq_true, if_false]
        exact moved (stops.accounted silent)
      · have longer : s.diagnostics.length < t.diagnostics.length :=
          (Nat.lt_add_of_pos_right (List.length_pos_of_ne_nil silent)).trans_eq grown.symm
        simp only [longer, decide_true, Option.isNone_none, Bool.and_true, recoverSteps, if_true]
        exact stops.accounted_of_skip silent there
  · cases settles with
    | read accounted => exact moved accounted

theorem program_accounted (standard : s.rules = .standard) (sees : s.Sees tokens place) :
    Accounted tokens place (place + moves s.programSteps) (reportsFrom place s.programSteps) := by
  induction s using program_induction generalizing place with
  | last s done =>
    rw [programSteps, if_pos done]
    exact .nil place
  | step s more ih =>
    have there := sees.play s.statementSteps
    rw [play_statementSteps] at there
    have others := ih (s.statement_leads.rules_eq.trans standard) there
    rw [programSteps, if_neg more, reportsFrom_append, moves_append, ← Nat.add_assoc]
    exact (statement_accounted standard sees).append others (Nat.le_add_right _ _)
      (Nat.le_add_right _ _)

/-! ## Whole texts -/

def tokenStream (source : String) (n : Nat) : Token :=
  (tokenize source).getD n .endOfInput

theorem ofSource_sees (source : String) (limit : Nat) :
    (ofSource source limit).Sees (tokenStream source) 0 := fun n => by
  rw [Nat.zero_add, tokenStream, getD_tokenize]
  exact ofSource_faces source limit n

theorem getElem?_of_tokenStream {source : String} {k : Nat} {x : Token}
    (there : tokenStream source k = x) (more : x.kind ≠ .endOfInput) :
    (tokenize source)[k]? = some x := by
  rw [tokenStream, List.getD_eq_getElem?_getD] at there
  cases found : (tokenize source)[k]? with
  | none =>
    rw [found] at there
    exact absurd (congrArg Token.kind there).symm more
  | some y =>
    rw [found] at there
    exact congrArg some there

theorem lt_moves_programSteps {source : String} {k : Nat} (limit : Nat)
    (more : (tokenStream source k).kind ≠ .endOfInput) :
    k < moves (ofSource source limit).programSteps := by
  by_contra behind
  have last := (ofSource_sees source limit).play (ofSource source limit).programSteps
  have done := (ofSource source limit).program_current_kind
  rw [play_programSteps] at last
  rw [last.current_eq, Nat.zero_add, tokenStream, getD_tokenize] at done
  rw [tokenStream, getD_tokenize] at more
  have inside : k < (lexemes source.toList).length := by
    by_contra beyond
    rw [List.getD_eq_default _ _ (Nat.le_of_not_lt beyond)] at more
    exact more rfl
  rw [List.getD_eq_getElem _ _ (by omega)] at done
  exact kind_ne_of_mem_lexemes _ (List.getElem_mem _) done

theorem sublist_of_places {ts : List Token} {reports : List (Nat × String)} (place : Nat)
    (ordered : reports.Pairwise (·.1 < ·.1)) (behind : ∀ r ∈ reports, place ≤ r.1)
    (named : ∀ r ∈ reports, ts[r.1 - place]? = some ⟨.illegal, r.2⟩) :
    (reports.map Prod.snd).Sublist ((ts.filter (·.kind = .illegal)).map Token.literal) := by
  induction ts generalizing reports place with
  | nil =>
    cases reports with
    | nil => exact .slnil
    | cons r reports => cases named r (.head _)
  | cons x ts ih =>
    have later {reports : List (Nat × String)} (behind : ∀ r ∈ reports, place + 1 ≤ r.1)
        (named : ∀ r ∈ reports, (x :: ts)[r.1 - place]? = some ⟨.illegal, r.2⟩) :
        ∀ r ∈ reports, ts[r.1 - (place + 1)]? = some ⟨.illegal, r.2⟩ := by
      intro r mem
      have there := behind r mem
      rw [← named r mem, show r.1 - place = r.1 - (place + 1) + 1 by omega, List.getElem?_cons_succ]
    cases reports with
    | nil => exact List.nil_sublist _
    | cons r reports =>
      obtain ⟨after, ordered'⟩ := List.pairwise_cons.1 ordered
      obtain ⟨here, behind'⟩ := List.forall_mem_cons.1 behind
      rcases Nat.eq_or_lt_of_le here with same | lt
      · have first := named r (.head _)
        rw [← same, Nat.sub_self, List.getElem?_cons_zero, Option.some.injEq] at first
        have beyond (r' : Nat × String) (mem : r' ∈ reports) : place + 1 ≤ r'.1 :=
          same ▸ after r' mem
        have rest := ih (place + 1) ordered' beyond
          (later beyond fun r' mem => named r' (.tail _ mem))
        rw [first]
        exact rest.cons_cons r.2
      · have beyond (r' : Nat × String) (mem : r' ∈ r :: reports) : place + 1 ≤ r'.1 := by
          rcases List.mem_cons.1 mem with rfl | mem
          · exact lt
          · exact Nat.lt_trans lt (after r' mem)
        have rest := ih (place + 1) ordered beyond (later beyond named)
        exact rest.trans (((List.sublist_cons_self x ts).filter _).map _)

theorem Accounted.exists_between {source : String} {last : Nat}
    {reports : List (Nat × Diagnostic)} (h : Accounted (tokenStream source) 0 last reports)
    (whole : ∀ k, (tokenStream source k).kind ≠ .endOfInput → k < last)
    {front body back : List Token} (split : tokenize source = front ++ body ++ back)
    (closed : Closed front) (illegal : ∃ x ∈ body, x.kind = .illegal) :
    ∃ r ∈ reports, front.length ≤ r.1 ∧ r.1 < front.length + body.length := by
  obtain ⟨x, mem, kind⟩ := illegal
  obtain ⟨before, behind, rfl⟩ := List.append_of_mem mem
  have there : tokenStream source (front.length + before.length) = x := by
    rw [tokenStream, split]
    simp
  rw [← there] at kind
  obtain ⟨r, mem, le, plain⟩ := h.covered _ (Nat.zero_le _) (whole _ (by rw [kind]; decide)) kind
  refine ⟨r, mem, ?_, by rw [List.length_append, List.length_cons]; omega⟩
  by_contra early
  obtain ⟨y, last⟩ : ∃ y, front.getLast? = some y :=
    Option.isSome_iff_exists.1 (List.getLast?_isSome.2 fun empty => early (by simp [empty]))
  apply plain (front.length - 1) (by omega) (by omega)
  have semicolon := closed y last
  rw [List.getLast?_eq_getElem?] at last
  rw [tokenStream, split, List.getD_eq_getElem?_getD, List.append_assoc,
    List.getElem?_append_left (by omega), last]
  exact semicolon

end Parser

/-- The reports about a text, each with the place of the token at the window. -/
def placedReports (source : String) (limit : Nat) : List (Nat × Diagnostic) :=
  Parser.reportsFrom 0 (Parser.ofSource source limit).programSteps

/-- Each report is made with the window on a token of the text. An illegal character is reported on
its own token and at most once, in the order of the text, and where nothing is reported between two
semicolons no illegal character stands. -/
theorem illegal_characters_reported (source : String) (limit : Nat) :
    ((placedReports source limit).map Prod.snd = (parse source limit).2.diagnostics ∧
      ∀ r ∈ placedReports source limit, ∃ front back,
        (Parser.ofSource source limit).programSteps = front ++ .report r.2 :: back ∧
        ((Parser.ofSource source limit).play front).current =
          (tokenize source).getD r.1 .endOfInput) ∧
    ((Parser.illegalReports (placedReports source limit)).Pairwise (·.1 < ·.1) ∧
      ∀ r ∈ Parser.illegalReports (placedReports source limit),
        (tokenize source)[r.1]? = some ⟨.illegal, r.2⟩) ∧
    ((parse source limit).2.diagnostics.filterMap Diagnostic.illegal?).Sublist
      (((tokenize source).filter (·.kind = .illegal)).map Token.literal) ∧
    (∀ front body back, tokenize source = front ++ body ++ back → Closed front →
      (∀ x ∈ body, x.kind ≠ .semicolon) → (∃ x ∈ body, x.kind = .illegal) →
      ∃ r ∈ placedReports source limit,
        front.length ≤ r.1 ∧ r.1 < front.length + body.length) ∧
    ((parse source limit).2.diagnostics = [] → ∀ x ∈ tokenize source, x.kind ≠ .illegal) := by
  let s := Parser.ofSource source limit
  have sees := Parser.ofSource_sees source limit
  have account : Parser.Accounted (Parser.tokenStream source) 0 _ (placedReports source limit) :=
    Parser.program_accounted rfl sees
  have whole (k : Nat) (more : (Parser.tokenStream source k).kind ≠ .endOfInput) :
      k < 0 + Parser.moves s.programSteps := by
    rw [Nat.zero_add]
    exact Parser.lt_moves_programSteps limit more
  have same : (placedReports source limit).map Prod.snd = (parse source limit).2.diagnostics := by
    have grown := s.diagnostics_play 0 s.programSteps
    rw [Parser.play_programSteps] at grown
    exact grown.symm
  have named : ∀ r ∈ Parser.illegalReports (placedReports source limit),
      (tokenize source)[r.1]? = some ⟨.illegal, r.2⟩ := fun r mem =>
    Parser.getElem?_of_tokenStream (account.named r mem) (by simp)
  have literals : (parse source limit).2.diagnostics.filterMap Diagnostic.illegal? =
      (Parser.illegalReports (placedReports source limit)).map Prod.snd := by
    rw [← same, Parser.map_snd_illegalReports]
  refine ⟨⟨same, fun r mem => ?_⟩, ⟨account.ordered, named⟩, ?_, ?_, ?_⟩
  · obtain ⟨front, back, steps, there⟩ := Parser.exists_of_mem_reportsFrom mem
    refine ⟨front, back, steps, ?_⟩
    rw [there]
    exact (sees.play front).current_eq
  · rw [literals]
    exact Parser.sublist_of_places 0 account.ordered (fun _ _ => Nat.zero_le _) named
  · intro front body back split closed _ present
    exact account.exists_between whole split closed present
  · intro silent x mem kind
    have split : tokenize source = [] ++ tokenize source ++ [] := (List.append_nil _).symm
    obtain ⟨r, reported, -⟩ := account.exists_between whole split (by decide) ⟨x, mem, kind⟩
    rw [← same, List.map_eq_nil_iff] at silent
    rw [silent] at reported
    cases reported

/-- The report may stand before the illegal character. It is then about what was read before it. -/
theorem illegal_characters_reported_unclosed :
    tokenize "1;(2 @" = [.integer ['1'], .mark ';'] ++
        [.mark '(', .integer ['2'], .mark '@'] ++ [.endOfInput] ∧
      (∃ r ∈ placedReports "1;(2 @" 2, 2 ≤ r.1 ∧ r.1 < 5) ∧
      (parse "1;(2 @" 2).2.diagnostics ≠ [] := by
  have tokens : tokenize "1;(2 @" = [.integer ['1'], .mark ';'] ++
      [.mark '(', .integer ['2'], .mark '@'] ++ [.endOfInput] := by
    rw [tokenize, tokens_eq, lexemes_of_scan (by decide), lexemes_of_scan (by decide),
      lexemes_of_scan (by decide), lexemes_of_scan (by decide), lexemes_of_scan (by decide),
      lexemes_of_end (by decide)]
    decide
  obtain ⟨-, -, -, between, silent⟩ := illegal_characters_reported "1;(2 @" 2
  have found := between _ _ _ tokens (by decide) (by decide) ⟨.mark '@', by simp, by decide⟩
  refine ⟨tokens, found, fun empty => ?_⟩
  exact silent empty (.mark '@') (by simp [tokens]) (by decide)

end LetArith
