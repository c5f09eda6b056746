import LetArith.Parser.Basic
import LetArith.Precedence
import LetArith.Tree
import LetArith.Text.Format

/-!
Reading an expression by precedence climbing: an operand, then every operator that binds tighter
than the caller asks for, each with a right operand of its own.

The readers below take the reader for nested expressions as an argument, and `within n` ties the
knot for `n` levels. Each level spends one unit of `limit - depth`, so `expressionReader` has as
many levels as the limit leaves room for. At the limit an expression is refused before its first
token is looked at.
-/

namespace LetArith
open Text

/-- A way to read an expression whose operators bind tighter than a precedence. It never moves the
window back. -/
structure ExprReader where
  read : Precedence → Parser → Option Expr × Parser
  pending_le : ∀ p s, (read p s).2.pending ≤ s.pending

def maxInteger : Nat := Nat.pow 2 63 - 1

def integerValue? (literal : String) : Option Nat :=
  (readNat? literal.toList).filter (· ≤ maxInteger)

namespace Parser

def integer (s : Parser) : Option Expr × Parser :=
  match integerValue? s.current.literal with
  | some value => (some (.integer s.current value), s)
  | none => (none, s.report (.invalidInteger s.current.literal))

def unaryWith (inner : ExprReader) (s : Parser) : Option Expr × Parser :=
  let operand := inner.read .unary s.advance
  (operand.1.map (.unary s.current s.current.literal), operand.2)

/-- Takes the current token as an operator after `left`. The right operand stops before operators of
the same precedence, so these associate to the left. -/
def binaryWith (inner : ExprReader) (left : Expr) (s : Parser) : Option Expr × Parser :=
  let right := inner.read s.current.kind.precedence s.advance
  (right.1.map (.binary s.current s.current.literal left), right.2)

def groupingWith (inner : ExprReader) (s : Parser) : Option Expr × Parser :=
  match inner.read .lowest s.advance with
  | (some value, t) =>
    let closed := t.expectPeek .rightParen
    (if closed.1 then some value else none, closed.2)
  | (none, t) => (none, t)

/-- A token that starts no expression is left for the caller to report, unless it is illegal. -/
def operandWith (inner : ExprReader) (s : Parser) : Option Expr × Parser :=
  match s.rules.operand s.current.kind with
  | some .integer => s.integer
  | some .unary => s.unaryWith inner
  | some .grouping => s.groupingWith inner
  | none =>
    (none, if s.current.kind = .illegal then s.report (.illegalCharacter s.current.literal) else s)

def takesOperator (p : Precedence) (s : Parser) : Bool :=
  p < s.peek.kind.precedence && s.rules.isBinary s.peek.kind

theorem pending_integer_le (s : Parser) : s.integer.2.pending ≤ s.pending := by
  unfold integer
  split <;> simp

theorem pending_unaryWith_le (inner : ExprReader) (s : Parser) :
    (s.unaryWith inner).2.pending ≤ s.pending :=
  Nat.le_trans (inner.pending_le _ _) s.pending_advance_le_pending

theorem pending_binaryWith_le (inner : ExprReader) (left : Expr) (s : Parser) :
    (s.binaryWith inner left).2.pending ≤ s.pending :=
  Nat.le_trans (inner.pending_le _ _) s.pending_advance_le_pending

theorem pending_groupingWith_le (inner : ExprReader) (s : Parser) :
    (s.groupingWith inner).2.pending ≤ s.pending := by
  have read := Nat.le_trans (inner.pending_le .lowest s.advance) s.pending_advance_le_pending
  unfold groupingWith
  split
  next value t equation =>
    rw [equation] at read
    exact Nat.le_trans (t.pending_expectPeek_le .rightParen) read
  next t equation =>
    rw [equation] at read
    exact read

theorem pending_operandWith_le (inner : ExprReader) (s : Parser) :
    (s.operandWith inner).2.pending ≤ s.pending := by
  unfold operandWith
  split
  · exact s.pending_integer_le
  · exact s.pending_unaryWith_le inner
  · exact s.pending_groupingWith_le inner
  · split <;> simp

theorem pending_advance_lt_of_takesOperator {p : Precedence} {s : Parser}
    (h : s.takesOperator p = true) : s.advance.pending < s.pending := by
  have moved := s.pending_advance_le
  have positive : 0 < s.pending := pending_pos_of_peek fun last => by
    rw [takesOperator, last] at h
    exact p.not_lt_lowest (of_decide_eq_true (Bool.and_eq_true_iff.1 h).1)
  omega

def climbWith (inner : ExprReader) (p : Precedence) (left : Expr) (s : Parser) :
    Option Expr × Parser :=
  if s.takesOperator p = true then
    match _ : s.advance.binaryWith inner left with
    | (some joined, t) => climbWith inner p joined t
    | (none, t) => (none, t)
  else (some left, s)
termination_by s.pending
decreasing_by
  have joined := s.advance.pending_binaryWith_le inner left
  rw [‹s.advance.binaryWith inner left = _›] at joined
  exact Nat.lt_of_le_of_lt joined (pending_advance_lt_of_takesOperator ‹_›)

theorem pending_climbWith_le (inner : ExprReader) (p : Precedence) (left : Expr) (s : Parser) :
    (s.climbWith inner p left).2.pending ≤ s.pending := by
  fun_induction climbWith inner p left s with
  | case1 left s more joined t equation ih =>
    have step := s.advance.pending_binaryWith_le inner left
    rw [equation] at step
    exact Nat.le_trans ih (Nat.le_trans step s.pending_advance_le_pending)
  | case2 left s more t equation =>
    have step := s.advance.pending_binaryWith_le inner left
    rw [equation] at step
    exact Nat.le_trans step s.pending_advance_le_pending
  | case3 => exact Nat.le_refl _

def expressionWith (inner : ExprReader) (p : Precedence) (s : Parser) : Option Expr × Parser :=
  match s.operandWith inner with
  | (some left, t) => t.climbWith inner p left
  | (none, t) => (none, t)

theorem pending_expressionWith_le (inner : ExprReader) (p : Precedence) (s : Parser) :
    (s.expressionWith inner p).2.pending ≤ s.pending := by
  have operand := s.pending_operandWith_le inner
  unfold expressionWith
  split
  next left t equation =>
    rw [equation] at operand
    exact Nat.le_trans (t.pending_climbWith_le inner p left) operand
  next t equation =>
    rw [equation] at operand
    exact operand

def enter (s : Parser) : Parser :=
  { s with depth := s.depth + 1 }

def leave (s : Parser) : Parser :=
  { s with depth := s.depth - 1 }

def nestedWith (inner : ExprReader) (p : Precedence) (s : Parser) : Option Expr × Parser :=
  if s.depth < s.limit then
    let value := s.enter.expressionWith inner p
    (value.1, value.2.leave)
  else (none, s.report (.nestingTooDeep s.limit))

theorem pending_nestedWith_le (inner : ExprReader) (p : Precedence) (s : Parser) :
    (s.nestedWith inner p).2.pending ≤ s.pending := by
  unfold nestedWith
  split
  · exact s.enter.pending_expressionWith_le inner p
  · exact Nat.le_of_eq (s.pending_report _)

end Parser

namespace ExprReader

def refusal : ExprReader where
  read _ s := (none, s.report (.nestingTooDeep s.limit))
  pending_le _ s := Nat.le_of_eq (s.pending_report _)

def within : Nat → ExprReader
  | 0 => refusal
  | n + 1 =>
    { read := fun p s => s.nestedWith (within n) p
      pending_le := fun p s => s.pending_nestedWith_le (within n) p }

end ExprReader

namespace Parser

def expressionReader (s : Parser) : ExprReader :=
  .within (s.limit - s.depth)

def expression (p : Precedence) (s : Parser) : Option Expr × Parser :=
  s.expressionReader.read p s

def unary (s : Parser) : Option Expr × Parser :=
  s.unaryWith s.expressionReader

def binary (left : Expr) (s : Parser) : Option Expr × Parser :=
  s.binaryWith s.expressionReader left

def grouping (s : Parser) : Option Expr × Parser :=
  s.groupingWith s.expressionReader

theorem pending_expression_le (p : Precedence) (s : Parser) :
    (s.expression p).2.pending ≤ s.pending :=
  s.expressionReader.pending_le p s

end Parser

end LetArith
