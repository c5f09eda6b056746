import LetArith.Token.Scan
import LetArith.Text.ByteOffset

/-!
A cursor over a source text. Its position counts UTF-8 bytes and may be moved anywhere; reading from
a position past the end or inside a character has no answer. The next token is found from what
stands at the position, and each way to find one says for itself how far to move on.
-/

namespace LetArith
open Text

/-- What a text may start with: the part that is matched, the token for it, if it is not passed over,
and the bytes to move on. -/
structure Pattern where
  part? : List Char → Option (List Char)
  token? : List Char → Option Token
  bytes : List Char → Nat
  bytes_pos : ∀ {text part}, part? text = some part → token? part = none → 0 < bytes part

namespace Pattern

def run? (p : Char → Bool) (text : List Char) : Option (List Char) :=
  if text.takeWhile p = [] then none else some (text.takeWhile p)

def blanks : Pattern where
  part? := run? isBlank
  token? _ := none
  bytes := byteSize
  bytes_pos found _ := by
    unfold run? at found
    split at found
    · cases found
    · cases found
      exact byteSize_pos ‹_›

def digits : Pattern where
  part? := run? Char.isDigit
  token? part := some (.integer part)
  bytes := byteSize
  bytes_pos _ := nofun

def mark (c : Char) (kind : Kind) (literal : String) : Pattern where
  part? text := if text.head? = some c then some [c] else none
  token? _ := some ⟨kind, literal⟩
  bytes _ := literal.utf8ByteSize
  bytes_pos _ := nofun

def all : List Pattern :=
  [blanks, digits, mark '+' .plus "+", mark '-' .minus "-", mark '*' .asterisk "*",
    mark '/' .slash "/", mark '=' .assign "=", mark ';' .semicolon ";", mark '(' .leftParen "(",
    mark ')' .rightParen ")"]

def first? (text : List Char) : Option (Pattern × List Char) :=
  all.findSome? fun pattern => (pattern.part? text).map (pattern, ·)

theorem first?_bytes_pos {text part : List Char} {pattern : Pattern}
    (found : first? text = some (pattern, part)) (skipped : pattern.token? part = none) :
    0 < pattern.bytes part := by
  obtain ⟨pattern, -, found⟩ := List.exists_of_findSome?_eq_some found
  obtain ⟨part, found, same⟩ := Option.map_eq_some_iff.1 found
  cases same
  exact pattern.bytes_pos found skipped

end Pattern

structure Cursor where
  source : String
  position : Nat
deriving DecidableEq, Repr

namespace Cursor

def ofSource (source : String) : Cursor :=
  ⟨source, 0⟩

def advance (cursor : Cursor) (bytes : Nat) : Cursor :=
  { cursor with position := cursor.position + bytes }

def atEnd (cursor : Cursor) : Bool :=
  cursor.source.utf8ByteSize ≤ cursor.position

def remainder? (cursor : Cursor) : Option (List Char) :=
  dropBytes? cursor.position cursor.source.toList

def at? (cursor : Cursor) : Option (Option Char) :=
  cursor.remainder?.map List.head?

theorem position_lt {cursor : Cursor} {c : Char} {rest : List Char}
    (h : cursor.remainder? = some (c :: rest)) :
    cursor.position < cursor.source.utf8ByteSize := by
  obtain ⟨front, text, position⟩ := dropBytes?_eq_some_iff.1 h
  have positive := c.utf8Size_pos
  rw [← byteSize_toList, text, byteSize_append, byteSize_cons]
  omega

def word? (cursor : Cursor) (text : List Char) : Option (Token × Cursor) :=
  let outside := (offsets 0 text).find? fun (_, c) => !isLetter c
  let size := (outside.map Prod.fst).getD (byteSize text)
  (takeBytes? size text).map fun letters => (.word letters, cursor.advance size)

def next? (cursor : Cursor) : Option (Token × Cursor) :=
  match _ : cursor.remainder? with
  | none => none
  | some [] => some (.endOfInput, cursor)
  | some (c :: rest) =>
    if isLetter c then cursor.word? (c :: rest)
    else
      match _ : Pattern.first? (c :: rest) with
      | none => some (⟨.illegal, String.singleton c⟩, cursor.advance c.utf8Size)
      | some (pattern, part) =>
        let behind := cursor.advance (pattern.bytes part)
        match _ : pattern.token? part with
        | some token => some (token, behind)
        | none => behind.next?
termination_by cursor.source.utf8ByteSize - cursor.position
decreasing_by
  have inside := position_lt ‹_›
  have moved := Pattern.first?_bytes_pos ‹_› ‹_›
  simp only [advance]
  omega

end Cursor

end LetArith
