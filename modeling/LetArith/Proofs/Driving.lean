import LetArith.Proofs.Agreement
import LetArith.Proofs.Steps
import Mathlib.Order.Monotone.Basic

/-!
Driving a parser by hand. Neither an action nor a step of one takes the window off the tokens of the
text or back on them (`tokenAt_after`), and two parsers that face the same tokens answer every action
alike (`Alike.perform`). So a run on a text is a run on the list of its tokens, and its layout is
never seen.
-/

namespace LetArith

namespace Parser

variable {s t : Parser}

/-! ## The window on the tokens -/

theorem tokenAt_of_rules (rules : Rules) (s : Parser) (n : Nat) :
    ({ s with rules := rules } : Parser).tokenAt n = s.tokenAt n := by
  rw [tokenAt, iterate_advance_comm (fun s => { s with rules := rules }) fun _ => rfl]
  rfl

theorem tokenAt_perform (s : Parser) (action : Action) (n : Nat) :
    (s.perform action).2.tokenAt n = s.tokenAt (moves (s.actionSteps action) + n) := by
  rw [play_actionSteps, tokenAt_of_rules, tokenAt_play]

def reach (s : Parser) : List Action → Nat
  | [] => 0
  | action :: others => moves (s.actionSteps action) + (s.perform action).2.reach others

theorem tokenAt_after (s : Parser) (actions : List Action) (n : Nat) :
    (s.after actions).tokenAt n = s.tokenAt (s.reach actions + n) := by
  induction actions generalizing s with
  | nil => rw [after, reach, Nat.zero_add]
  | cons action others ih => rw [after, ih, tokenAt_perform, reach, Nat.add_assoc]

theorem reach_append (s : Parser) (front back : List Action) :
    s.reach (front ++ back) = s.reach front + (s.after front).reach back := by
  induction front generalizing s with
  | nil => rw [List.nil_append, reach, after, Nat.zero_add]
  | cons action others ih => rw [List.cons_append, reach, ih, reach, after, Nat.add_assoc]

theorem reach_take_succ (s : Parser) (actions : List Action) (k : Nat) :
    s.reach (actions.take (k + 1)) =
      s.reach (actions.take k) + (s.after (actions.take k)).reach actions[k]?.toList := by
  rw [List.take_add_one, reach_append]

theorem monotone_reach (s : Parser) (actions : List Action) :
    Monotone fun k => s.reach (actions.take k) :=
  monotone_nat_of_le_succ fun k => by
    rw [reach_take_succ]
    exact Nat.le_add_right _ _

theorem unary_eq (s : Parser) : s.unary =
    ((s.advance.expression .unary).1.map (Expr.unary s.current s.current.literal),
      (s.advance.expression .unary).2) := rfl

theorem binary_eq (left : Expr) (s : Parser) : s.binary left =
    ((s.advance.expression s.current.kind.precedence).1.map
        (Expr.binary s.current s.current.literal left),
      (s.advance.expression s.current.kind.precedence).2) := rfl

/-! ## Actions on the same tokens -/

namespace Alike

variable (h : Alike [] [] s t)
include h

theorem report_same (diagnostic : Diagnostic) :
    Alike [] [] (s.report diagnostic) (t.report diagnostic) := by
  have reported := h.report diagnostic
  rwa [show nextKind [] = .endOfInput from rfl, Diagnostic.continued_endOfInput] at reported

theorem change_rules (change : Rules → Rules) :
    Alike [] [] { s with rules := change s.rules } { t with rules := change t.rules } := by
  obtain ⟨front, faces, faces', inText⟩ := h.faces
  refine ⟨⟨front, ?_, ?_, inText⟩, h.diagnostics, congrArg change h.rules, h.depth, h.limit, .inl rfl⟩
  · exact fun n => (tokenAt_of_rules _ t n).trans (faces n)
  · exact fun n => (tokenAt_of_rules _ s n).trans (faces' n)

theorem expectPeek (wanted : Kind) : (s.expectPeek wanted).1 = (t.expectPeek wanted).1 ∧
    Alike [] [] (s.expectPeek wanted).2 (t.expectPeek wanted).2 := by
  rw [Parser.expectPeek, Parser.expectPeek, h.peek_eq]
  split
  · exact ⟨rfl, h.current_eq.2⟩
  · exact ⟨rfl, h.report_same _⟩

theorem integer : s.integer.1 = t.integer.1 ∧ Alike [] [] s.integer.2 t.integer.2 := by
  rw [Parser.integer, Parser.integer, h.current_eq.1]
  split
  · exact ⟨rfl, h⟩
  · exact ⟨rfl, h.report_same _⟩

theorem unary : s.unary.1 = t.unary.1 ∧ Alike [] [] s.unary.2 t.unary.2 := by
  obtain ⟨same, next⟩ := h.current_eq
  obtain ⟨operand, read, -⟩ := next.expression .unary
  rw [unary_eq, unary_eq, operand, same]
  exact ⟨rfl, read⟩

theorem binary (left : Expr) : (s.binary left).1 = (t.binary left).1 ∧
    Alike [] [] (s.binary left).2 (t.binary left).2 := by
  obtain ⟨same, next⟩ := h.current_eq
  obtain ⟨right, read, -⟩ := next.expression t.current.kind.precedence
  rw [binary_eq, binary_eq, same, right]
  exact ⟨rfl, read⟩

theorem grouping : s.grouping.1 = t.grouping.1 ∧ Alike [] [] s.grouping.2 t.grouping.2 := by
  obtain ⟨same, inner, -⟩ := h.current_eq.2.expression .lowest
  rcases read : t.advance.expression .lowest with ⟨_ | value, v⟩ <;> rw [read] at same inner
  · have read' : s.advance.expression .lowest = (none, (s.advance.expression .lowest).2) :=
      Prod.ext same rfl
    rw [grouping_of_none read, grouping_of_none read']
    exact ⟨rfl, inner⟩
  · obtain ⟨closed, there⟩ := inner.expectPeek .rightParen
    have read' : s.advance.expression .lowest =
        (some value, (s.advance.expression .lowest).2) := Prod.ext same rfl
    rw [grouping_of_some read, grouping_of_some read', closed]
    exact ⟨rfl, there⟩

theorem perform (action : Action) : (s.perform action).1 = (t.perform action).1 ∧
    Alike [] [] (s.perform action).2 (t.perform action).2 := by
  have same {α : Type} (outcome : α → Outcome) {x y : α × Parser}
      (h : x.1 = y.1 ∧ Alike [] [] x.2 y.2) :
      (x.map outcome id).1 = (y.map outcome id).1 ∧
        Alike [] [] (x.map outcome id).2 (y.map outcome id).2 :=
    ⟨congrArg outcome h.1, h.2⟩
  obtain ⟨current, next⟩ := h.current_eq
  cases action with
  | advance => exact ⟨rfl, next⟩
  | expectPeek wanted => exact same .expected (h.expectPeek wanted)
  | precedences =>
    refine ⟨?_, h⟩
    rw [Parser.perform, Parser.perform, current, h.peek_eq]
  | rules => exact ⟨congrArg Outcome.rules h.rules, h⟩
  | report diagnostic => exact ⟨rfl, h.report_same diagnostic⟩
  | messages =>
    refine ⟨?_, h⟩
    rw [Parser.perform, Parser.perform, h.diagnostics_eq, List.nil_append]
  | setStatement kind rule => exact ⟨rfl, h.change_rules (·.setStatement kind rule)⟩
  | setOperand kind rule => exact ⟨rfl, h.change_rules (·.setOperand kind rule)⟩
  | setBinary kind => exact ⟨rfl, h.change_rules (·.setBinary kind)⟩
  | statement =>
    exact same .statement ⟨h.statementBody.1, h.recovered.current_eq.2⟩
  | letBinding => exact same .statement (h.letBinding current next)
  | expressionStatement => exact same .statement h.expressionStatement
  | expression p =>
    obtain ⟨value, read, -⟩ := h.expression p
    exact same .expression ⟨value, read⟩
  | integer => exact same .expression h.integer
  | unary => exact same .expression h.unary
  | grouping => exact same .expression h.grouping
  | binary left => exact same .expression (h.binary left)
  | program => exact same .program h.program

end Alike

/-- What a caller sees of a parser between two actions. -/
def seen (s : Parser) : List Diagnostic × Token × Token × Nat :=
  (s.diagnostics, s.current, s.peek, s.depth)

theorem Alike.seen_eq (h : Alike [] [] s t) : s.seen = t.seen := by
  rw [seen, seen, h.diagnostics_eq, List.nil_append, h.current_eq.1, h.peek_eq, h.depth]

theorem Alike.performAll (h : Alike [] [] s t) (actions : List Action) :
    (s.performAll actions).map (Prod.map id seen) =
      (t.performAll actions).map (Prod.map id seen) := by
  induction actions generalizing s t with
  | nil => rfl
  | cons action others ih =>
    obtain ⟨outcome, there⟩ := h.perform action
    rw [Parser.performAll, Parser.performAll, List.map_cons, List.map_cons, ih there]
    congr 1
    exact Prod.ext outcome there.seen_eq

end Parser

theorem lexemes_eq_of_tokenize {source other : String}
    (same : tokenize other = tokenize source) : lexemes other.toList = lexemes source.toList :=
  congrArg List.dropLast same

/-- A parser that is driven by hand stands on the tokens of its text, between its actions and in the
midst of one, and never goes back on them. Texts with the same tokens cannot be told apart by any
actions. -/
theorem performAll_refines_tokenize (source : String) (limit : Nat) (actions : List Action) :
    (∃ places : Nat → Nat, places 0 = 0 ∧ Monotone places ∧ ∀ k,
      let s := (Parser.ofSource source limit).after (actions.take k)
      s.current = (tokenize source).getD (places k) .endOfInput ∧
        s.peek = (tokenize source).getD (places k + 1) .endOfInput ∧
        ∀ action ∈ actions[k]?,
          let steps := s.actionSteps action
          (s.perform action).2.seen = (s.play steps).seen ∧
          places (k + 1) = places k + Parser.moves steps ∧
          ∀ n,
            let t := s.play (steps.take n)
            let place := places k + Parser.moves (steps.take n)
            t.current = (tokenize source).getD place .endOfInput ∧
              t.peek = (tokenize source).getD (place + 1) .endOfInput) ∧
    ∀ other, tokenize other = tokenize source →
      (Parser.ofSource other limit).seen = (Parser.ofSource source limit).seen ∧
      ((Parser.ofSource other limit).performAll actions).map (Prod.map id Parser.seen) =
        ((Parser.ofSource source limit).performAll actions).map (Prod.map id Parser.seen) := by
  have faces := Parser.ofSource_faces source limit
  constructor
  · let start := Parser.ofSource source limit
    have within (k : Nat) (steps : List Step) (n : Nat) :
        ((start.after (actions.take k)).play steps).tokenAt n =
          (tokenize source).getD (start.reach (actions.take k) + Parser.moves steps + n)
            .endOfInput := by
      rw [Parser.tokenAt_play, Parser.tokenAt_after, getD_tokenize, Nat.add_assoc]
      exact faces _
    refine ⟨fun k => start.reach (actions.take k), rfl, start.monotone_reach actions,
      fun k => ⟨within k [] 0, within k [] 1, fun action mem => ⟨?_, ?_, fun n => ?_⟩⟩⟩
    · rw [Parser.play_actionSteps]
      rfl
    · have next := start.reach_take_succ actions k
      rw [Option.mem_def.1 mem] at next
      exact next
    · exact ⟨within k _ 0, within k _ 1⟩
  · intro other same
    have faces' := Parser.ofSource_faces other limit
    rw [lexemes_eq_of_tokenize same] at faces'
    have alike := Parser.alike_ofSource faces' rfl rfl rfl
    exact ⟨alike.seen_eq, alike.performAll actions⟩

theorem performAll_refines_tokenize_difference :
    let actions : List Action := [.expression .sum, .setBinary .semicolon, .grouping, .program]
    tokenize "1 -\n2 ;" = tokenize "1-2;" ∧
      ((Parser.ofSource "1 -\n2 ;" 1).performAll actions).map (Prod.map id Parser.seen) =
        ((Parser.ofSource "1-2;" 1).performAll actions).map (Prod.map id Parser.seen) := by
  intro actions
  have tokens (text : List Char) (h : text = "1 -\n2 ;".toList ∨ text = "1-2;".toList) :
      lexemes text = [.integer ['1'], .mark '-', .integer ['2'], .mark ';'] := by
    rcases h with rfl | rfl <;>
      rw [lexemes_of_scan (by decide), lexemes_of_scan (by decide), lexemes_of_scan (by decide),
        lexemes_of_scan (by decide), lexemes_of_end (by decide)] <;> decide
  have same : tokenize "1 -\n2 ;" = tokenize "1-2;" := by
    rw [tokenize, tokenize, tokens_eq, tokens_eq, tokens _ (.inl rfl), tokens _ (.inr rfl)]
  exact ⟨same, ((performAll_refines_tokenize "1-2;" 1 actions).2 "1 -\n2 ;" same).2⟩

end LetArith
