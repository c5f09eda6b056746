/-!
Tokens: a kind and the text it was read from. A kind has a label, under which diagnostics and token
listings name it, and a listing adds the literal where the label does not determine it.
-/

namespace LetArith

inductive Kind where
  | endOfInput | illegal | identifier | integer
  | plus | minus | asterisk | slash
  | assign | semicolon
  | leftParen | rightParen | leftBrace | rightBrace
  | letKeyword
deriving DecidableEq, Repr

namespace Kind

def all : List Kind :=
  [.endOfInput, .illegal, .identifier, .integer, .plus, .minus, .asterisk, .slash, .assign,
    .semicolon, .leftParen, .rightParen, .leftBrace, .rightBrace, .letKeyword]

theorem mem_all (kind : Kind) : kind ∈ all := by
  cases kind <;> decide

def label : Kind → String
  | .endOfInput => "EOF"
  | .illegal => "ILLEGAL"
  | .identifier => "IDENTIFIER"
  | .integer => "INT"
  | .plus => "+"
  | .minus => "-"
  | .asterisk => "*"
  | .slash => "/"
  | .assign => "="
  | .semicolon => ";"
  | .leftParen => "("
  | .rightParen => ")"
  | .leftBrace => "\x7b"
  | .rightBrace => "\x7d"
  | .letKeyword => "LET"

def isVaried : Kind → Bool
  | .identifier | .integer | .illegal => true
  | _ => false

def ofWord (word : String) : Kind :=
  if word = "let" then .letKeyword else .identifier

/-- The characters that are tokens on their own. Braces have kinds but are not among them. -/
def ofMark? : Char → Option Kind
  | '+' => some .plus
  | '-' => some .minus
  | '*' => some .asterisk
  | '/' => some .slash
  | '=' => some .assign
  | ';' => some .semicolon
  | '(' => some .leftParen
  | ')' => some .rightParen
  | _ => none

end Kind

structure Token where
  kind : Kind
  literal : String
deriving DecidableEq, Repr

namespace Token

def endOfInput : Token := ⟨.endOfInput, ""⟩

def word (letters : List Char) : Token :=
  ⟨Kind.ofWord (String.ofList letters), String.ofList letters⟩

def integer (digits : List Char) : Token :=
  ⟨.integer, String.ofList digits⟩

/-- A character outside every class is a token of its own and is left to the reader to report. -/
def mark (c : Char) : Token :=
  ⟨(Kind.ofMark? c).getD .illegal, String.singleton c⟩

def text (token : Token) : String :=
  if token.kind.isVaried then token.kind.label ++ " (" ++ token.literal ++ ")"
  else token.kind.label

end Token

end LetArith
