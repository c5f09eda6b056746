import LetArith.Tree
import LetArith.Text.Format

/-!
Two ways to write a tree. The canonical text is source text again, with every binary operation in
parentheses; the outline names the nodes. Neither shows the tokens kept in the tree.
-/

namespace LetArith
open Text

namespace Expr

def text : Expr → String
  | .integer _ value => writeInt value
  | .named name => name.text
  | .unary _ operator operand => operator ++ operand.text
  | .binary _ operator left right => "(" ++ left.text ++ " " ++ operator ++ " " ++ right.text ++ ")"

def outline : Expr → String
  | .integer _ value => "Integer(" ++ writeInt value ++ ")"
  | .named name => "Identifier(" ++ name.text ++ ")"
  | .unary _ operator operand => "Prefix(" ++ operator ++ ", " ++ operand.outline ++ ")"
  | .binary _ operator left right =>
    "Infix(" ++ operator ++ ", " ++ left.outline ++ ", " ++ right.outline ++ ")"

end Expr

namespace Statement

def text : Statement → String
  | .letBinding _ name value => "let " ++ name.text ++ " = " ++ value.text ++ ";"
  | .expression _ value => value.text

def outline : Statement → String
  | .letBinding _ name value => "Let(" ++ name.text ++ ", " ++ value.outline ++ ")"
  | .expression _ value => "Expression(" ++ value.outline ++ ")"

end Statement

namespace Program

def text (program : Program) : String :=
  lines (program.map Statement.text)

def outline (program : Program) : String :=
  lines (program.map Statement.outline)

end Program

end LetArith
