import LetArith.Token

/-!
Which kinds of token start a statement or an expression, and which join two operands. A caller may
give any kind any of the rules; `standard` is the language itself.
-/

namespace LetArith

inductive StatementRule where
  | letBinding | expression
deriving DecidableEq, Repr

inductive OperandRule where
  | integer | unary | grouping
deriving DecidableEq, Repr

structure Rules where
  statement : Kind → Option StatementRule
  operand : Kind → Option OperandRule
  isBinary : Kind → Bool

namespace Rules

def standard : Rules where
  statement
    | .letKeyword => some .letBinding
    | _ => none
  operand
    | .integer => some .integer
    | .minus => some .unary
    | .leftParen => some .grouping
    | _ => none
  isBinary
    | .plus | .minus | .asterisk | .slash => true
    | _ => false

def setStatement (rules : Rules) (kind : Kind) (rule : StatementRule) : Rules :=
  { rules with statement := fun k => if k = kind then some rule else rules.statement k }

def setOperand (rules : Rules) (kind : Kind) (rule : OperandRule) : Rules :=
  { rules with operand := fun k => if k = kind then some rule else rules.operand k }

def setBinary (rules : Rules) (kind : Kind) : Rules :=
  { rules with isBinary := fun k => if k = kind then true else rules.isBinary k }

def statementKinds (rules : Rules) : List Kind :=
  Kind.all.filter fun kind => (rules.statement kind).isSome

def operandKinds (rules : Rules) : List Kind :=
  Kind.all.filter fun kind => (rules.operand kind).isSome

def binaryKinds (rules : Rules) : List Kind :=
  Kind.all.filter rules.isBinary

end Rules

end LetArith
