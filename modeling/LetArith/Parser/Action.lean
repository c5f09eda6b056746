import LetArith.Parser.Statement

/-!
Driving a parser by hand: every operation on it as an action with an outcome. The readers of single
constructs may be called wherever the window stands.
-/

namespace LetArith

inductive Action where
  | advance
  | expectPeek (wanted : Kind)
  | precedences
  | rules
  | report (diagnostic : Diagnostic)
  | messages
  | setStatement (kind : Kind) (rule : StatementRule)
  | setOperand (kind : Kind) (rule : OperandRule)
  | setBinary (kind : Kind)
  | statement
  | letBinding
  | expressionStatement
  | expression (p : Precedence)
  | integer
  | unary
  | grouping
  | binary (left : Expr)
  | program
deriving DecidableEq, Repr

inductive Outcome where
  | done
  | expected (found : Bool)
  | precedences (current peek : Precedence)
  | rules (rules : Rules)
  | messages (texts : List String)
  | statement (result : Option Statement)
  | expression (result : Option Expr)
  | program (result : Program)

namespace Parser

def perform (s : Parser) : Action → Outcome × Parser
  | .advance => (.done, s.advance)
  | .expectPeek wanted => (s.expectPeek wanted).map .expected id
  | .precedences => (.precedences s.current.kind.precedence s.peek.kind.precedence, s)
  | .rules => (.rules s.rules, s)
  | .report diagnostic => (.done, s.report diagnostic)
  | .messages => (.messages (s.diagnostics.map Diagnostic.message), s)
  | .setStatement kind rule => (.done, { s with rules := s.rules.setStatement kind rule })
  | .setOperand kind rule => (.done, { s with rules := s.rules.setOperand kind rule })
  | .setBinary kind => (.done, { s with rules := s.rules.setBinary kind })
  | .statement => s.statement.map .statement id
  | .letBinding => s.letBinding.map .statement id
  | .expressionStatement => s.expressionStatement.map .statement id
  | .expression p => (s.expression p).map .expression id
  | .integer => s.integer.map .expression id
  | .unary => s.unary.map .expression id
  | .grouping => s.grouping.map .expression id
  | .binary left => (s.binary left).map .expression id
  | .program => s.program.map .program id

def after (s : Parser) : List Action → Parser
  | [] => s
  | action :: rest => (s.perform action).2.after rest

def performAll (s : Parser) : List Action → List (Outcome × Parser)
  | [] => []
  | action :: rest =>
    let step := s.perform action
    step :: step.2.performAll rest

end Parser

end LetArith
