import LetArith.Token
import LetArith.Text.Letter

/-!
From text to tokens. `scan` skips blanks and takes one token, the longest where a word or an
integer starts. It ends in the end of input exactly when no token is left, and otherwise leaves a
shorter text (`scan_rest_lt`), so `tokens` reaches the end.
-/

namespace LetArith
open Text

def isBlank (c : Char) : Bool :=
  c = ' ' || c = '\t' || c = '\n' || c = '\r'

def scan : List Char → Token × List Char
  | [] => (.endOfInput, [])
  | c :: rest =>
    if isBlank c then scan rest
    else if isLetter c then
      (.word (c :: rest.takeWhile isLetter), rest.dropWhile isLetter)
    else if c.isDigit then
      (.integer (c :: rest.takeWhile Char.isDigit), rest.dropWhile Char.isDigit)
    else (.mark c, rest)

private theorem length_dropWhile_le (p : Char → Bool) (text : List Char) :
    (text.dropWhile p).length ≤ text.length :=
  (List.dropWhile_sublist p).length_le

theorem word_kind_ne (letters : List Char) : (Token.word letters).kind ≠ .endOfInput := by
  unfold Token.word Kind.ofWord
  split <;> simp

theorem mark_kind_ne (c : Char) : (Token.mark c).kind ≠ .endOfInput := by
  unfold Token.mark Kind.ofMark?
  split <;> simp

theorem scan_rest_le (text : List Char) : (scan text).2.length ≤ text.length := by
  induction text with
  | nil => simp [scan]
  | cons c rest ih =>
    have letters := length_dropWhile_le isLetter rest
    have digits := length_dropWhile_le Char.isDigit rest
    rw [scan, List.length_cons]
    split
    · omega
    · split
      · simpa using Nat.le_succ_of_le letters
      · split
        · simpa using Nat.le_succ_of_le digits
        · simp

theorem scan_rest_lt {text : List Char} (h : (scan text).1.kind ≠ .endOfInput) :
    (scan text).2.length < text.length := by
  cases text with
  | nil => simp [scan, Token.endOfInput] at h
  | cons c rest =>
    have blank := scan_rest_le rest
    have letters := length_dropWhile_le isLetter rest
    have digits := length_dropWhile_le Char.isDigit rest
    rw [scan, List.length_cons]
    split
    · omega
    · split
      · simpa using Nat.lt_succ_of_le letters
      · split
        · simpa using Nat.lt_succ_of_le digits
        · simp

theorem scan_eq_endOfInput {text : List Char} (h : (scan text).1.kind = .endOfInput) :
    scan text = (.endOfInput, []) := by
  induction text with
  | nil => rfl
  | cons c rest ih =>
    simp only [scan] at h ⊢
    split at h
    · simp_all
    · split at h
      · exact absurd h (word_kind_ne _)
      · split at h
        · simp [Token.integer] at h
        · exact absurd h (mark_kind_ne _)

def tokens (text : List Char) : List Token :=
  if (scan text).1.kind = .endOfInput then [(scan text).1]
  else (scan text).1 :: tokens (scan text).2
termination_by text.length
decreasing_by exact scan_rest_lt ‹_›

def tokenize (source : String) : List Token :=
  tokens source.toList

end LetArith
