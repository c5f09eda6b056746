import LetArith.Token
import LetArith.Text.Format

/-!
What the parser reports about a source text. Each cause has a name and a message, and a report
gives them on one line.
-/

namespace LetArith
open Text

inductive Diagnostic where
  | unexpectedToken (expected got : Kind)
  | invalidInteger (literal : String)
  | illegalCharacter (literal : String)
  | missingExpression (got : Kind)
  | nestingTooDeep (limit : Nat)
deriving DecidableEq, Repr

namespace Diagnostic

def name : Diagnostic → String
  | .unexpectedToken .. => "UnexpectedToken"
  | .invalidInteger _ => "InvalidInteger"
  | .illegalCharacter _ => "IllegalCharacter"
  | .missingExpression _ => "MissingExpression"
  | .nestingTooDeep _ => "NestingTooDeep"

def message : Diagnostic → String
  | .unexpectedToken expected got =>
    "expected token to be '" ++ expected.label ++ "', got '" ++ got.label ++ "' instead"
  | .invalidInteger literal => "could not parse " ++ quoted literal ++ " as integer"
  | .illegalCharacter literal => "illegal character " ++ quoted literal
  | .missingExpression got => "expected expression after '=', got '" ++ got.label ++ "' instead"
  | .nestingTooDeep limit => "expression nesting exceeds the limit of " ++ limit.repr

def text (diagnostic : Diagnostic) : String :=
  "Error: " ++ diagnostic.name ++ " (" ++ diagnostic.message ++ ")"

end Diagnostic

end LetArith
