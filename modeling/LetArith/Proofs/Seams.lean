import LetArith.Proofs.Lexing
import Mathlib.Data.List.DropRight

/-!
Texts that meet inside a run. A run of letters or of digits is one token, so where one goes on across
the seam of two texts, the whole has a token less than the parts (`Run.length_across`). The tokens of
two texts therefore follow each other exactly where no run crosses the seam (`tokenize_append_iff`).
-/

namespace LetArith
open Text

/-- A class of characters that are taken together as one token, as far as they go, and never with
characters outside it. -/
structure Run (p : Char → Bool) : Prop where
  lexemes_cons : ∀ c rest, p c = true →
    ∃ x, lexemes (c :: rest) = x :: lexemes (rest.dropWhile p)
  apart : ∀ c d, p c = false → p d = true →
    ¬(isLetter c = true ∧ isLetter d = true) ∧ ¬(c.isDigit = true ∧ d.isDigit = true)

theorem run_isLetter : Run isLetter where
  lexemes_cons _ rest letter := ⟨_, lexemes_letter letter rest⟩
  apart c d outside letter := by
    refine ⟨fun both => ?_, fun both => ?_⟩
    · simp [outside] at both
    · simp [isLetter_of_isDigit both.2] at letter

theorem run_isDigit : Run Char.isDigit where
  lexemes_cons _ rest digit := ⟨_, lexemes_digit digit rest⟩
  apart c d outside digit := by
    refine ⟨fun both => ?_, fun both => ?_⟩
    · simp [isLetter_of_isDigit digit] at both
    · simp [outside] at both

namespace Run

variable {p : Char → Bool} (run : Run p)
include run

theorem length_of_run {part rest : List Char} (nonempty : part ≠ [])
    (inside : ∀ c ∈ part, p c = true) :
    (lexemes (part ++ rest)).length = (lexemes (rest.dropWhile p)).length + 1 := by
  obtain ⟨c, part, rfl⟩ := List.exists_cons_of_ne_nil nonempty
  obtain ⟨first, others⟩ := List.forall_mem_cons.1 inside
  obtain ⟨x, taken⟩ := run.lexemes_cons c (part ++ rest) first
  rw [List.cons_append, taken, List.length_cons, List.dropWhile_append_of_pos others]

theorem seam_rdropWhile (front rest : List Char) {part : List Char} (nonempty : part ≠ [])
    (inside : ∀ c ∈ part, p c = true) : Seam (front.rdropWhile p) (part ++ rest) := by
  intro c last d next
  rw [List.head?_append_of_ne_nil _ nonempty] at next
  have outside := List.rdropWhile_last_not p front (List.ne_nil_of_mem (List.mem_of_getLast? last))
  rw [List.getLast_of_getLast?_eq_some last] at outside
  exact run.apart c d (Bool.eq_false_iff.2 outside) (inside d (List.mem_of_head? next))

theorem length_across (front rest : List Char) {c d : Char} (last : p c = true)
    (first : p d = true) :
    (lexemes (front ++ [c] ++ d :: rest)).length + 1 =
      (lexemes (front ++ [c])).length + (lexemes (d :: rest)).length := by
  let part := front.rtakeWhile p ++ [c]
  have nonempty : part ≠ [] := List.concat_ne_nil c _
  have inside : ∀ x ∈ part, p x = true :=
    List.forall_mem_append.2 ⟨fun x mem => List.mem_rtakeWhile_imp mem, by simpa using last⟩
  have cut (back : List Char) : (lexemes (front ++ [c] ++ back)).length =
      (lexemes (front.rdropWhile p)).length + ((lexemes (back.dropWhile p)).length + 1) := by
    have split : front ++ [c] ++ back = front.rdropWhile p ++ (part ++ back) := by
      rw [← List.append_assoc, ← List.append_assoc, List.rdropWhile_append_rtakeWhile]
    rw [split, lexemes_append (run.seam_rdropWhile front back nonempty inside), List.length_append,
      run.length_of_run nonempty inside]
  have whole := cut (d :: rest)
  have before := cut []
  have behind : (lexemes ([d] ++ rest)).length = (lexemes (rest.dropWhile p)).length + 1 :=
    run.length_of_run (List.cons_ne_nil d []) (by simpa using first)
  rw [List.dropWhile_cons_of_pos first] at whole
  rw [List.append_nil, List.dropWhile_nil, lexemes_nil, List.length_nil] at before
  rw [List.singleton_append] at behind
  omega

end Run

theorem lexemes_append_iff {front back : List Char} :
    lexemes (front ++ back) = lexemes front ++ lexemes back ↔ Seam front back := by
  refine ⟨fun same c last d first => ?_, lexemes_append⟩
  obtain ⟨front, rfl⟩ := List.getLast?_eq_some_iff.1 last
  obtain ⟨rest, rfl⟩ := List.head?_eq_some_iff.1 first
  have sum := congrArg List.length same
  rw [List.length_append] at sum
  refine ⟨fun both => ?_, fun both => ?_⟩
  · have fewer := run_isLetter.length_across front rest both.1 both.2
    omega
  · have fewer := run_isDigit.length_across front rest both.1 both.2
    omega

/-- The tokens of two texts follow each other in the text that they make up unless it has a letter
next to a letter, or a digit next to a digit, where they meet. -/
theorem tokenize_append_iff (front back : String) :
    tokenize (front ++ back) = (tokenize front).dropLast ++ tokenize back ↔
      ¬∃ c d, front.toList.getLast? = some c ∧ back.toList.head? = some d ∧
        (isLetter c = true ∧ isLetter d = true ∨ c.isDigit = true ∧ d.isDigit = true) := by
  have seam : Seam front.toList back.toList ↔ ¬∃ c d, front.toList.getLast? = some c ∧
      back.toList.head? = some d ∧
      (isLetter c = true ∧ isLetter d = true ∨ c.isDigit = true ∧ d.isDigit = true) := by
    simp only [Seam, Option.mem_def, not_exists, not_and, not_or]
    exact ⟨fun h c d last first => h c last d first, fun h c last d first => h c d last first⟩
  have tokens : tokenize (front ++ back) = (tokenize front).dropLast ++ tokenize back ↔
      lexemes (front.toList ++ back.toList) = lexemes front.toList ++ lexemes back.toList := by
    rw [tokenize, tokenize, tokenize, String.toList_append, tokens_eq, tokens_eq back.toList,
      ← List.append_assoc, List.append_left_inj]
    rfl
  rw [tokens, lexemes_append_iff, seam]

end LetArith
