import LetArith.Proofs.Steps

/-!
The nesting of expressions. In the steps of every reader each body that begins also ends, and
wherever they are broken off, no more bodies are open than the limit leaves room for
(`Reads.bracketed`). So the depth counts the open bodies at every point of a run
(`depth_counts_bodies`).
-/

namespace LetArith.Parser

variable {s t : Parser} {room : Nat} {steps front back : List Step}

/-! ## Balanced steps -/

/-- Every body that begins also ends, and at most `room` bodies are ever open. -/
structure Balanced (room : Nat) (steps : List Step) : Prop where
  count_leave : steps.count .leave = steps.count .enter
  count_take (n : Nat) : (steps.take n).count .leave ≤ (steps.take n).count .enter ∧
    (steps.take n).count .enter ≤ (steps.take n).count .leave + room

namespace Balanced

theorem of_flat (flat : ∀ x ∈ steps, x ≠ .enter ∧ x ≠ .leave) : Balanced room steps := by
  have absent (part : List Step) (sub : part.Sublist steps) :
      part.count .leave = 0 ∧ part.count .enter = 0 :=
    ⟨List.count_eq_zero.2 fun mem => (flat _ (sub.subset mem)).2 rfl,
      List.count_eq_zero.2 fun mem => (flat _ (sub.subset mem)).1 rfl⟩
  refine ⟨?_, fun n => ?_⟩
  · obtain ⟨leave, enter⟩ := absent steps (.refl _)
    omega
  · obtain ⟨leave, enter⟩ := absent (steps.take n) (List.take_sublist _ _)
    omega

theorem nil : Balanced room [] :=
  of_flat fun _ mem => absurd mem List.not_mem_nil

theorem append (first : Balanced room front) (second : Balanced room back) :
    Balanced room (front ++ back) := by
  have whole := first.count_leave
  refine ⟨?_, fun n => ?_⟩
  · rw [List.count_append, List.count_append, whole, second.count_leave]
  · rcases Nat.le_total n front.length with inside | behind
    · rw [List.take_append_of_le_length inside]
      exact first.count_take n
    · have part := second.count_take (n - front.length)
      rw [List.take_append, List.take_of_length_le behind]
      simp only [List.count_append]
      omega

theorem of_leave (h : Balanced room steps) {n : Nat} (next : steps[n]? = some .leave) :
    (steps.take n).count .leave < (steps.take n).count .enter := by
  have behind := (h.count_take (n + 1)).1
  rw [List.take_add_one, next, Option.toList_some, List.count_append, List.count_append] at behind
  exact Nat.lt_of_succ_le (by simpa using behind)

theorem of_enter (h : Balanced room steps) {n : Nat} (next : steps[n]? = some .enter) :
    (steps.take n).count .enter < (steps.take n).count .leave + room := by
  have behind := (h.count_take (n + 1)).2
  rw [List.take_add_one, next, Option.toList_some, List.count_append, List.count_append] at behind
  exact Nat.lt_of_succ_le (by simpa using behind)

theorem body (inside : Balanced room steps) :
    Balanced (room + 1) (.enter :: (steps ++ [.leave])) := by
  have whole := inside.count_leave
  refine ⟨by simp [whole], fun n => ?_⟩
  cases n with
  | zero => simp
  | succ n =>
    rcases Nat.le_total n steps.length with inner | behind
    · have part := inside.count_take n
      rw [List.take_succ_cons, List.take_append_of_le_length inner]
      simp only [List.count_cons, beq_iff_eq, reduceCtorEq, if_true, if_false]
      omega
    · rw [List.take_succ_cons, List.take_append, List.take_of_length_le behind]
      -- the body is over, or its last step is the only one left out
      rcases n - steps.length with _ | k
      · simp [whole]
      · simp [whole]

end Balanced

theorem depth_play (h : ∀ n, (steps.take n).count .leave ≤ s.depth + (steps.take n).count .enter) :
    (s.play steps).depth + steps.count .leave = s.depth + steps.count .enter := by
  induction steps generalizing s with
  | nil => rfl
  | cons x steps ih =>
    have first := h 1
    have rest (n : Nat) := h (n + 1)
    simp only [List.take_succ_cons, List.take_zero, List.count_cons, List.count_nil, beq_iff_eq]
      at first rest
    rw [play_cons, List.count_cons, List.count_cons]
    cases x with
    | advance => exact ih (s := s.advance) fun n => by simpa using rest n
    | report diagnostic =>
      exact ih (s := s.report diagnostic) fun n => by simpa [report] using rest n
    | enter =>
      have same := ih (s := s.enter) fun n => by
        have part := rest n
        simp only [reduceCtorEq, if_true, if_false, enter_depth] at part ⊢
        omega
      simp only [beq_iff_eq, reduceCtorEq, if_true, if_false, enter_depth, step] at same ⊢
      omega
    | leave =>
      have same := ih (s := s.leave) fun n => by
        have part := rest n
        simp only [reduceCtorEq, if_true, if_false, leave] at part first ⊢
        omega
      simp only [beq_iff_eq, reduceCtorEq, if_true, if_false, leave, step] at first same ⊢
      omega

/-! ## The steps of every reader -/

/-- The form of the steps of a reader: bodies are brackets around other such steps, at most `room`
of them inside one another, and a refusal names the limit. -/
inductive Bracketed (limit : Nat) : Nat → List Step → Prop where
  | nil {room : Nat} : Bracketed limit room []
  | advance {room : Nat} : Bracketed limit room [.advance]
  | report {room : Nat} {diagnostic : Diagnostic}
      (named : ∀ n, diagnostic = .nestingTooDeep n → n = limit) :
      Bracketed limit room [.report diagnostic]
  | body {room : Nat} {steps : List Step} (inside : Bracketed limit room steps) :
      Bracketed limit (room + 1) (.enter :: (steps ++ [.leave]))
  | append {room : Nat} {front back : List Step} (first : Bracketed limit room front)
      (second : Bracketed limit room back) : Bracketed limit room (front ++ back)

theorem Bracketed.balanced {limit : Nat} (h : Bracketed limit room steps) :
    Balanced room steps := by
  induction h with
  | nil => exact .nil
  | advance => exact .of_flat (by simp)
  | report => exact .of_flat (by simp)
  | body _ ih => exact ih.body
  | append _ _ first second => exact first.append second

theorem Bracketed.limit_eq {limit n : Nat} (h : Bracketed limit room steps)
    (mem : .report (.nestingTooDeep n) ∈ steps) : n = limit := by
  induction h with
  | nil | advance => simp at mem
  | report named => exact named n (Step.report.inj (List.mem_singleton.1 mem)).symm
  | body _ ih => exact ih (by simpa using mem)
  | append _ _ first second => exact (List.mem_append.1 mem).elim first second

theorem Bracketed.move {limit : Nat} (h : Bracketed limit room steps) :
    Bracketed limit room (.advance :: steps) :=
  append .advance h

section
variable (limit : Nat)

theorem bracketed_expectSteps (s : Parser) (wanted : Kind) :
    Bracketed limit room (s.expectSteps wanted) := by
  unfold expectSteps
  split
  · exact .advance
  · exact .report nofun

theorem bracketed_integerSteps (s : Parser) : Bracketed limit room s.integerSteps := by
  unfold integerSteps
  split
  · exact .nil
  · exact .report nofun

theorem bracketed_illegalSteps (s : Parser) : Bracketed limit room s.illegalSteps := by
  unfold illegalSteps
  split
  · exact .report nofun
  · exact .nil

theorem bracketed_closingSteps (r : Option Expr × Parser) :
    Bracketed limit room (closingSteps r) := by
  unfold closingSteps
  split
  · exact bracketed_expectSteps _ _ _
  · exact .nil

theorem bracketed_skipSteps (s : Parser) : Bracketed limit room s.skipSteps := by
  fun_induction skipSteps s with
  | case1 s boundary => exact .nil
  | case2 s more ih => exact .move ih

theorem bracketed_tailSteps (s : Parser) : Bracketed limit room s.tailSteps := by
  fun_induction tailSteps s with
  | case1 s boundary => exact .nil
  | case2 s more ih => exact .append (bracketed_illegalSteps limit s) (.move ih)

end

theorem Reads.bracketed {goal : Goal} {result : Option Expr} (h : Reads goal s result t) :
    Bracketed s.limit s.levels (readSteps goal s) := by
  induction h with
  | integer rule | overflow rule =>
    rw [readSteps_of_integer rule]
    exact bracketed_integerSteps _ _
  | unary rule _ ih =>
    rw [readSteps_of_unary rule]
    exact .move ih
  | group rule inner _ ih | unclosed rule inner _ ih | groupFailed rule inner ih =>
    rw [readSteps_of_grouping rule]
    exact .move (.append ih (bracketed_closingSteps _ _))
  | illegal rule | silent rule =>
    rw [readSteps_of_no_operand rule]
    exact bracketed_illegalSteps _ _
  | last stop =>
    rw [readSteps_of_last stop]
    exact .nil
  | join more inner _ operand rest =>
    have kept := (Leads.moves 2 _).trans inner.leads
    rw [kept.levels_eq, kept.limit_eq] at rest
    rw [readSteps_of_join more inner.expression_eq]
    exact .move (.append (.move operand) rest)
  | joinFailed more inner operand =>
    rw [readSteps_of_joinFailed more inner.expression_eq]
    exact .move (.move operand)
  | nested room first _ operand rest =>
    rw [first.leads.levels_eq, first.leads.limit_eq] at rest
    rw [readSteps_of_nested room first.read_eq, levels_of_room room]
    exact .body (.append operand rest)
  | nestedFailed room first operand =>
    rw [readSteps_of_nestedFailed room first.read_eq, levels_of_room room]
    exact .body operand
  | refused full =>
    rw [readSteps_of_full full]
    exact .report fun n same => by cases same; rfl

theorem bracketed_expression (p : Precedence) (s : Parser) :
    Bracketed s.limit s.levels (readSteps (.expression p) s) :=
  (expression_reads p s).bracketed

theorem bracketed_bindingSteps (s : Parser) : Bracketed s.limit s.levels s.bindingSteps := by
  refine (bracketed_expression .lowest s).append ?_
  split
  · exact bracketed_tailSteps _ _
  · split
    · exact .report nofun
    · exact .nil

theorem bracketed_letSteps (s : Parser) : Bracketed s.limit s.levels s.letSteps := by
  by_cases named : s.peek.kind = .identifier
  · by_cases assign : s.advance.peek.kind = .assign
    · rw [letSteps_of_assigned named assign]
      exact .move (.move (.move s.advance.advance.advance.bracketed_bindingSteps))
    · rw [letSteps_of_unassigned named assign]
      exact .move (.report nofun)
  · rw [letSteps_of_unnamed named]
    exact .report nofun

theorem bracketed_statementSteps (s : Parser) : Bracketed s.limit s.levels s.statementSteps := by
  have body : Bracketed s.limit s.levels s.bodySteps := by
    unfold bodySteps
    split
    · exact s.bracketed_letSteps
    · exact bracketed_expression .lowest s
    · exact bracketed_expression .lowest s
  refine (body.append ?_).append .advance
  unfold recoverSteps
  split
  · exact bracketed_skipSteps _ _
  · exact .nil

theorem bracketed_programSteps (s : Parser) : Bracketed s.limit s.levels s.programSteps := by
  induction s using program_induction with
  | last s done =>
    rw [programSteps, if_pos done]
    exact .nil
  | step s more ih =>
    rw [s.statement_leads.levels_eq, s.statement_leads.limit_eq] at ih
    rw [programSteps, if_neg more]
    exact s.bracketed_statementSteps.append ih

theorem balanced_actionSteps (s : Parser) (action : Action) :
    Balanced s.levels (s.actionSteps action) := by
  cases action with
  | advance => exact .of_flat (by simp [actionSteps])
  | report => exact .of_flat (by simp [actionSteps])
  | precedences | rules | messages | setStatement | setOperand | setBinary => exact .nil
  | expectPeek wanted => exact (bracketed_expectSteps s.limit s wanted).balanced
  | statement => exact s.bracketed_statementSteps.balanced
  | letBinding => exact s.bracketed_letSteps.balanced
  | expressionStatement => exact (bracketed_expression .lowest s).balanced
  | expression p => exact (bracketed_expression p s).balanced
  | integer => exact (bracketed_integerSteps s.limit s).balanced
  | unary => exact (bracketed_expression .unary s.advance).move.balanced
  | grouping =>
    have inner := bracketed_expression .lowest s.advance
    exact (inner.append (bracketed_closingSteps _ _)).move.balanced
  | binary left => exact (bracketed_expression s.current.kind.precedence s.advance).move.balanced
  | program => exact s.bracketed_programSteps.balanced

/-! ## The depth of a run -/

theorem depth_play_take (s : Parser) (action : Action) (n : Nat) :
    (s.play ((s.actionSteps action).take n)).depth + ((s.actionSteps action).take n).count .leave =
      s.depth + ((s.actionSteps action).take n).count .enter := by
  apply depth_play
  intro m
  rw [List.take_take]
  exact ((s.balanced_actionSteps action).count_take _).1.trans (Nat.le_add_left _ _)

theorem perform_depth (s : Parser) (action : Action) : (s.perform action).2.depth = s.depth := by
  have whole := (s.balanced_actionSteps action).count_leave
  have same := s.depth_play_take action (s.actionSteps action).length
  rw [List.take_length] at same
  rw [play_actionSteps]
  simp only
  omega

theorem perform_limit (s : Parser) (action : Action) : (s.perform action).2.limit = s.limit := by
  rw [play_actionSteps]
  exact limit_play s _

theorem after_depth_limit (s : Parser) (actions : List Action) :
    (s.after actions).depth = s.depth ∧ (s.after actions).limit = s.limit := by
  induction actions generalizing s with
  | nil => exact ⟨rfl, rfl⟩
  | cons action others ih =>
    obtain ⟨depth, limit⟩ := ih (s.perform action).2
    exact ⟨depth.trans (s.perform_depth action), limit.trans (s.perform_limit action)⟩

/-- The depth of a parser is the number of bodies that are open. It is the same before and after
every action, whatever the rules, it never goes below zero or above the limit in between, and only
an open body ends. -/
theorem depth_counts_bodies (source : String) (limit : Nat) (actions : List Action)
    (action : Action) :
    (∀ s : Parser, (s.perform action).2.depth = s.depth) ∧
    let s := (ofSource source limit).after actions
    let steps := s.actionSteps action
    (s.perform action).2 = { s.play steps with rules := (s.perform action).2.rules } ∧
    s.depth = 0 ∧ (s.perform action).2.depth = 0 ∧
    ∀ n, let before := steps.take n
      before.count .leave ≤ before.count .enter ∧
      (s.play before).depth = before.count .enter - before.count .leave ∧
      (s.play before).depth ≤ limit ∧
      (steps[n]? = some .leave → 0 < (s.play before).depth) ∧
      (steps[n]? = some .enter → (s.play before).depth < limit) := by
  refine ⟨fun s => s.perform_depth action, ?_⟩
  intro s steps
  obtain ⟨depth, bound⟩ := (ofSource source limit).after_depth_limit actions
  replace depth : s.depth = 0 := depth
  replace bound : s.limit = limit := bound
  have balanced : Balanced s.levels steps := s.balanced_actionSteps action
  rw [levels, depth, bound, Nat.sub_zero] at balanced
  refine ⟨s.play_actionSteps action, depth, (s.perform_depth action).trans depth, fun n => ?_⟩
  have counted : (s.play (steps.take n)).depth + (steps.take n).count .leave =
    s.depth + (steps.take n).count .enter := s.depth_play_take action n
  obtain ⟨least, most⟩ := balanced.count_take n
  rw [depth, Nat.zero_add] at counted
  refine ⟨least, Nat.eq_sub_of_add_eq counted, ?_, fun ends => ?_, fun begins => ?_⟩
  · rw [← counted, Nat.add_comm] at most
    exact Nat.le_of_add_le_add_left most
  · have opened := balanced.of_leave ends
    rw [← counted] at opened
    exact Nat.pos_of_lt_add_left opened
  · have opened := balanced.of_enter begins
    rw [← counted, Nat.add_comm] at opened
    exact Nat.lt_of_add_lt_add_left opened

/-- A sign may be the operand of a sign at the end of the text. Only the limit stops these. -/
theorem depth_counts_bodies_at_end :
    let s := (ofSource "" 1).after [.setOperand .endOfInput .unary]
    let steps := s.actionSteps (.expression .lowest)
    (steps[0]? = some .enter ∧ (s.play (steps.take 0)).depth < 1) ∧
      (steps[3]? = some .leave ∧ 0 < (s.play (steps.take 3)).depth) := by
  intro s steps
  have steps_eq : steps = [.enter, .advance, .report (.nestingTooDeep 1), .leave] := by
    have operand : readSteps .operand s.enter = [.advance, .report (.nestingTooDeep 1)] := by
      rw [readSteps_of_unary rfl, unarySteps, readSteps_of_full (by decide)]
      rfl
    have refused : read .operand s.enter = (none, s.enter.advance.report (.nestingTooDeep 1)) := rfl
    have whole := readSteps_of_nestedFailed (p := .lowest) (by decide : s.depth < s.limit) refused
    rwa [operand] at whole
  have begins : steps[0]? = some .enter := by rw [steps_eq]; rfl
  have ends : steps[3]? = some .leave := by rw [steps_eq]; rfl
  have counted := depth_counts_bodies "" 1 [.setOperand .endOfInput .unary] (.expression .lowest)
  obtain ⟨-, -, -, -, points⟩ := counted
  exact ⟨⟨begins, (points 0).2.2.2.2 begins⟩, ⟨ends, (points 3).2.2.2.1 ends⟩⟩

end LetArith.Parser
