import LetArith.Token.Scan
import LetArith.Rules
import LetArith.Diagnostic

/-!
The state of a parser: the text it has not read yet, a window of two tokens on it, what it has
reported, its rules, and how deep it stands in nested expressions. `pending` bounds the moves that
are left: a move decreases it until nothing is left (`pending_advance_le`).
-/

namespace LetArith

structure Parser where
  rest : List Char
  current : Token
  peek : Token
  diagnostics : List Diagnostic
  rules : Rules
  depth : Nat
  limit : Nat

namespace Parser

def defaultLimit : Nat := 256

def advance (s : Parser) : Parser :=
  { s with current := s.peek, peek := (scan s.rest).1, rest := (scan s.rest).2 }

def ofSource (source : String) (limit : Nat) : Parser :=
  let unread : Parser := ⟨source.toList, .endOfInput, .endOfInput, [], .standard, 0, limit⟩
  unread.advance.advance

def report (s : Parser) (diagnostic : Diagnostic) : Parser :=
  { s with diagnostics := s.diagnostics ++ [diagnostic] }

def expectPeek (s : Parser) (wanted : Kind) : Bool × Parser :=
  if s.peek.kind = wanted then (true, s.advance)
  else (false, s.report (.unexpectedToken wanted s.peek.kind))

def atBoundary (s : Parser) : Bool :=
  s.current.kind = .semicolon || s.current.kind = .endOfInput

def pending (s : Parser) : Nat :=
  3 * s.rest.length + (if s.peek.kind = .endOfInput then 0 else 2)
    + (if s.current.kind = .endOfInput then 0 else 1)

theorem pending_advance_le (s : Parser) : s.advance.pending ≤ s.pending - 1 := by
  by_cases last : (scan s.rest).1.kind = .endOfInput
  · have rest := scan_eq_endOfInput last
    by_cases peek : s.peek.kind = .endOfInput <;>
      simp [pending, advance, rest, Token.endOfInput, peek]
    omega
  · have shorter := scan_rest_lt last
    by_cases peek : s.peek.kind = .endOfInput <;> simp [pending, advance, last, peek] <;> omega

theorem pending_advance_le_pending (s : Parser) : s.advance.pending ≤ s.pending :=
  Nat.le_trans s.pending_advance_le (Nat.sub_le _ _)

@[simp] theorem pending_report (s : Parser) (diagnostic : Diagnostic) :
    (s.report diagnostic).pending = s.pending := rfl

theorem pending_expectPeek_le (s : Parser) (wanted : Kind) :
    (s.expectPeek wanted).2.pending ≤ s.pending := by
  unfold expectPeek
  split
  · exact s.pending_advance_le_pending
  · exact Nat.le_of_eq (s.pending_report _)

theorem pending_pos_of_current {s : Parser} (h : s.current.kind ≠ .endOfInput) :
    0 < s.pending := by
  simp [pending, h]

theorem pending_pos_of_peek {s : Parser} (h : s.peek.kind ≠ .endOfInput) : 0 < s.pending := by
  simp only [pending, h, if_false]
  omega

end Parser

end LetArith
