import LetArith.Token

/-!
Syntax trees. Every node keeps the token it was read from, so trees of different spellings differ
even where their meanings agree. Parentheses leave no node.
-/

namespace LetArith

structure Name where
  token : Token
  text : String
deriving DecidableEq, Repr

/-- The parser reads no name as an expression; names stand in trees that are built by hand. -/
inductive Expr where
  | integer (token : Token) (value : Int)
  | named (name : Name)
  | unary (token : Token) (operator : String) (operand : Expr)
  | binary (token : Token) (operator : String) (left right : Expr)
deriving DecidableEq, Repr

/-- A statement that is a bare expression keeps its first token, which may be a parenthesis. -/
inductive Statement where
  | letBinding (token : Token) (name : Name) (value : Expr)
  | expression (start : Token) (value : Expr)
deriving DecidableEq, Repr

abbrev Program := List Statement

def Expr.token : Expr → Token
  | .integer token _ | .unary token _ _ | .binary token _ _ _ => token
  | .named name => name.token

namespace Statement

def token : Statement → Token
  | .letBinding token _ _ => token
  | .expression start _ => start

def value : Statement → Expr
  | .letBinding _ _ value => value
  | .expression _ value => value

end Statement

end LetArith
