import LetArith.Proofs.Window
import Mathlib.Data.List.Basic
import Mathlib.Data.List.GetD
import Mathlib.Data.List.TakeWhile

/-!
What the tokens of a text are. A text is read word by word (`text_induction`), and where two texts
meet without a run of letters or of digits across the seam, their tokens follow each other
(`lexemes_append`). A parser that starts on a text faces its tokens (`ofSource_faces`).
-/

namespace LetArith

def lexemes (text : List Char) : List Token :=
  (tokens text).dropLast

/-! ## Classes of characters -/

theorem isBlank_iff {c : Char} : isBlank c = true ↔ c = ' ' ∨ c = '\t' ∨ c = '\n' ∨ c = '\r' := by
  simp [isBlank, or_assoc]

theorem isLetter_of_isBlank {c : Char} (h : isBlank c = true) : Text.isLetter c = false := by
  rcases isBlank_iff.1 h with rfl | rfl | rfl | rfl <;> decide

theorem isDigit_of_isBlank {c : Char} (h : isBlank c = true) : c.isDigit = false := by
  rcases isBlank_iff.1 h with rfl | rfl | rfl | rfl <;> decide

theorem isLetter_of_isDigit {c : Char} (h : c.isDigit = true) : Text.isLetter c = false := by
  have bound : c.toNat ≤ 57 := by
    simp only [Char.isDigit, Bool.and_eq_true, decide_eq_true_eq] at h
    exact h.2
  -- the ranges of letters start behind the digits
  have above : ∀ range ∈ Text.letters.ranges, 65 ≤ range.1 := by decide +kernel
  apply Bool.eq_false_iff.2
  intro letter
  obtain ⟨range, mem, low, -⟩ := (Text.CodeSet.contains_iff _ _).1 letter
  have := above range mem
  omega

theorem isBlank_of_isLetter {c : Char} (h : Text.isLetter c = true) : isBlank c = false :=
  Bool.eq_false_iff.2 fun blank => by simp [isLetter_of_isBlank blank] at h

theorem isBlank_of_isDigit {c : Char} (h : c.isDigit = true) : isBlank c = false :=
  Bool.eq_false_iff.2 fun blank => by simp [isDigit_of_isBlank blank] at h

/-! ## One token after another -/

theorem tokens_eq (text : List Char) : tokens text = lexemes text ++ [.endOfInput] := by
  have last : (tokens text).getLast? = some .endOfInput := by
    fun_induction tokens text with
    | case1 text done => simp [scan_eq_endOfInput done]
    | case2 text more ih => rw [List.getLast?_cons, ih]; rfl
  exact (List.dropLast_append_getLast? _ last).symm

theorem lexemes_of_scan {text : List Char} (more : (scan text).1.kind ≠ .endOfInput) :
    lexemes text = (scan text).1 :: lexemes (scan text).2 := by
  have next : tokens text = (scan text).1 :: tokens (scan text).2 := by rw [tokens, if_neg more]
  rw [lexemes, next, tokens_eq, List.dropLast_cons_of_ne_nil (by simp), List.dropLast_concat]

theorem lexemes_of_end {text : List Char} (done : (scan text).1.kind = .endOfInput) :
    lexemes text = [] := by
  rw [lexemes, tokens, if_pos done]
  rfl

@[simp] theorem lexemes_nil : lexemes [] = [] :=
  lexemes_of_end rfl

theorem getD_lexemes_zero (text : List Char) :
    (lexemes text).getD 0 .endOfInput = (scan text).1 := by
  by_cases more : (scan text).1.kind = .endOfInput
  · rw [lexemes_of_end more, scan_eq_endOfInput more]
    rfl
  · rw [lexemes_of_scan more]
    rfl

theorem getD_lexemes_succ (text : List Char) (n : Nat) :
    (lexemes text).getD (n + 1) .endOfInput = (lexemes (scan text).2).getD n .endOfInput := by
  by_cases more : (scan text).1.kind = .endOfInput
  · rw [lexemes_of_end more, scan_eq_endOfInput more, lexemes_nil]
    rfl
  · rw [lexemes_of_scan more]
    rfl

theorem getD_tokenize (source : String) (n : Nat) :
    (tokenize source).getD n .endOfInput = (lexemes source.toList).getD n .endOfInput := by
  rw [tokenize, tokens_eq]
  rcases Nat.lt_or_ge n (lexemes source.toList).length with inside | behind
  · rw [List.getD_append _ _ _ _ inside]
  · rw [List.getD_append_right _ _ _ _ behind, List.getD_eq_default _ _ behind]
    cases n - (lexemes source.toList).length <;> rfl

section

variable {c : Char}

theorem scan_blank (blank : isBlank c = true) (rest : List Char) : scan (c :: rest) = scan rest := by
  rw [scan, if_pos blank]

theorem scan_letter (letter : Text.isLetter c = true) (rest : List Char) : scan (c :: rest) =
    (.word (c :: rest.takeWhile Text.isLetter), rest.dropWhile Text.isLetter) := by
  simp [scan, isBlank_of_isLetter letter, letter]

theorem scan_digit (digit : c.isDigit = true) (rest : List Char) : scan (c :: rest) =
    (.integer (c :: rest.takeWhile Char.isDigit), rest.dropWhile Char.isDigit) := by
  simp [scan, isBlank_of_isDigit digit, isLetter_of_isDigit digit, digit]

theorem scan_mark (blank : isBlank c = false) (letter : Text.isLetter c = false)
    (digit : c.isDigit = false) (rest : List Char) : scan (c :: rest) = (.mark c, rest) := by
  simp [scan, blank, letter, digit]

theorem lexemes_blank (blank : isBlank c = true) (rest : List Char) :
    lexemes (c :: rest) = lexemes rest := by
  have same := scan_blank blank rest
  by_cases more : (scan rest).1.kind = .endOfInput
  · rw [lexemes_of_end more, lexemes_of_end (by rwa [same])]
  · rw [lexemes_of_scan more, lexemes_of_scan (by rwa [same]), same]

theorem lexemes_letter (letter : Text.isLetter c = true) (rest : List Char) :
    lexemes (c :: rest) = .word (c :: rest.takeWhile Text.isLetter) ::
      lexemes (rest.dropWhile Text.isLetter) := by
  have first := scan_letter letter rest
  rw [lexemes_of_scan (by rw [first]; exact word_kind_ne _), first]

theorem lexemes_digit (digit : c.isDigit = true) (rest : List Char) :
    lexemes (c :: rest) = .integer (c :: rest.takeWhile Char.isDigit) ::
      lexemes (rest.dropWhile Char.isDigit) := by
  have first := scan_digit digit rest
  rw [lexemes_of_scan (by rw [first]; simp [Token.integer]), first]

theorem lexemes_mark (blank : isBlank c = false) (letter : Text.isLetter c = false)
    (digit : c.isDigit = false) (rest : List Char) :
    lexemes (c :: rest) = .mark c :: lexemes rest := by
  have first := scan_mark blank letter digit rest
  rw [lexemes_of_scan (by rw [first]; exact mark_kind_ne c), first]

end

theorem text_induction {motive : List Char → Prop} (nil : motive [])
    (blank : ∀ c rest, isBlank c = true → motive rest → motive (c :: rest))
    (word : ∀ c rest, Text.isLetter c = true → motive (rest.dropWhile Text.isLetter) →
      motive (c :: rest))
    (integer : ∀ c rest, c.isDigit = true → motive (rest.dropWhile Char.isDigit) →
      motive (c :: rest))
    (mark : ∀ c rest, isBlank c = false → Text.isLetter c = false → c.isDigit = false →
      motive rest → motive (c :: rest)) (text : List Char) : motive text := by
  match text with
  | [] => exact nil
  | c :: rest =>
    have shorter (p : Char → Bool) : (rest.dropWhile p).length ≤ rest.length :=
      (List.dropWhile_sublist p).length_le
    have letters := shorter Text.isLetter
    have digits := shorter Char.isDigit
    cases isBlank' : isBlank c with
    | true => exact blank c rest isBlank' (text_induction nil blank word integer mark rest)
    | false =>
      cases isLetter' : Text.isLetter c with
      | true => exact word c rest isLetter' (text_induction nil blank word integer mark _)
      | false =>
        cases isDigit' : c.isDigit with
        | true => exact integer c rest isDigit' (text_induction nil blank word integer mark _)
        | false =>
          exact mark c rest isBlank' isLetter' isDigit'
            (text_induction nil blank word integer mark rest)
termination_by text.length
decreasing_by all_goals simp only [List.length_cons]; omega

/-! ## Seams -/

/-- No run of letters or of digits goes on from the first text into the second. -/
def Seam (front back : List Char) : Prop :=
  ∀ c ∈ front.getLast?, ∀ d ∈ back.head?,
    ¬(Text.isLetter c = true ∧ Text.isLetter d = true) ∧ ¬(c.isDigit = true ∧ d.isDigit = true)

theorem Seam.of_suffix {front rest back : List Char} (h : Seam front back) (part : rest <:+ front) :
    Seam rest back := by
  obtain ⟨before, rfl⟩ := part
  intro c mem
  apply h
  simp [List.getLast?_append, Option.mem_def.1 mem]

theorem Seam.of_head {front back : List Char} {c : Char} (letter : Text.isLetter c = false)
    (digit : c.isDigit = false) : Seam front (c :: back) := by
  rintro x - d ⟨⟩
  simp [letter, digit]

theorem run_append {p : Char → Bool} {c : Char} {rest back : List Char} (start : p c = true)
    (seam : ∀ x ∈ (c :: rest).getLast?, p x = true → ∀ d ∈ back.head?, p d = false) :
    (rest ++ back).takeWhile p = rest.takeWhile p ∧
      (rest ++ back).dropWhile p = rest.dropWhile p ++ back := by
  induction rest generalizing c with
  | nil =>
    have ends := seam c rfl start
    cases back with
    | nil => exact ⟨rfl, rfl⟩
    | cons d back => simp [ends d rfl]
  | cons d rest ih =>
    cases next : p d with
    | true =>
      obtain ⟨taken, dropped⟩ := ih next fun x mem => seam x (by simpa using mem)
      simp [next, taken, dropped]
    | false => simp [next]

theorem run_unique {p : Char → Bool} {first second front back : List Char}
    (same : first ++ front = second ++ back) (inside : ∀ c ∈ first, p c = true)
    (inside' : ∀ c ∈ second, p c = true) (stop : ∀ c ∈ front.head?, p c = false)
    (stop' : ∀ c ∈ back.head?, p c = false) : first = second ∧ front = back := by
  have taken (run rest : List Char) (inside : ∀ c ∈ run, p c = true)
      (stop : ∀ c ∈ rest.head?, p c = false) : (run ++ rest).takeWhile p = run := by
    rw [List.takeWhile_append_of_pos inside]
    cases rest with
    | nil => simp
    | cons c rest => simp [stop c rfl]
  have equal : first = second := by
    rw [← taken first front inside stop, same, taken second back inside' stop']
  exact ⟨equal, List.append_cancel_left (equal ▸ same)⟩

theorem lexemes_append {front back : List Char} (seam : Seam front back) :
    lexemes (front ++ back) = lexemes front ++ lexemes back := by
  induction front using text_induction with
  | nil => simp
  | blank c rest blank ih =>
    rw [List.cons_append, lexemes_blank blank, lexemes_blank blank,
      ih (seam.of_suffix (List.suffix_cons c rest))]
  | word c rest letter ih =>
    obtain ⟨taken, dropped⟩ := run_append letter fun x mem at' d next =>
      Bool.eq_false_iff.2 fun letter => (seam x mem d next).1 ⟨at', letter⟩
    have part := (List.dropWhile_suffix Text.isLetter).trans (List.suffix_cons c rest)
    rw [List.cons_append, lexemes_letter letter, lexemes_letter letter, taken, dropped,
      ih (seam.of_suffix part), List.cons_append]
  | integer c rest digit ih =>
    obtain ⟨taken, dropped⟩ := run_append digit fun x mem at' d next =>
      Bool.eq_false_iff.2 fun digit => (seam x mem d next).2 ⟨at', digit⟩
    have part := (List.dropWhile_suffix Char.isDigit).trans (List.suffix_cons c rest)
    rw [List.cons_append, lexemes_digit digit, lexemes_digit digit, taken, dropped,
      ih (seam.of_suffix part), List.cons_append]
  | mark c rest blank letter digit ih =>
    rw [List.cons_append, lexemes_mark blank letter digit, lexemes_mark blank letter digit,
      ih (seam.of_suffix (List.suffix_cons c rest)), List.cons_append]

theorem lexemes_word {name : List Char} (nonempty : name ≠ [])
    (letters : ∀ c ∈ name, Text.isLetter c = true) : lexemes name = [.word name] := by
  cases name with
  | nil => exact absurd rfl nonempty
  | cons c rest =>
    have run : ∀ d ∈ rest, Text.isLetter d = true := fun d mem => letters d (.tail c mem)
    rw [lexemes_letter (letters c (.head rest)), List.takeWhile_eq_self_iff.2 run,
      List.dropWhile_eq_nil_iff.2 run, lexemes_nil]

theorem lexemes_integer {digits : List Char} (nonempty : digits ≠ [])
    (numeric : ∀ c ∈ digits, c.isDigit = true) : lexemes digits = [.integer digits] := by
  cases digits with
  | nil => exact absurd rfl nonempty
  | cons c rest =>
    have run : ∀ d ∈ rest, d.isDigit = true := fun d mem => numeric d (.tail c mem)
    rw [lexemes_digit (numeric c (.head rest)), List.takeWhile_eq_self_iff.2 run,
      List.dropWhile_eq_nil_iff.2 run, lexemes_nil]

/-! ## What tokens are made of -/

inductive Token.Scanned : Token → Prop where
  | endOfInput : Scanned .endOfInput
  | word {letters : List Char} (nonempty : letters ≠ [])
      (alphabetic : ∀ c ∈ letters, Text.isLetter c = true) : Scanned (.word letters)
  | integer {digits : List Char} (nonempty : digits ≠ [])
      (numeric : ∀ c ∈ digits, c.isDigit = true) : Scanned (.integer digits)
  | mark {c : Char} (blank : isBlank c = false) (letter : Text.isLetter c = false)
      (digit : c.isDigit = false) : Scanned (.mark c)

theorem scanned_of_mem_lexemes {text : List Char} : ∀ x ∈ lexemes text, x.Scanned := by
  induction text using text_induction with
  | nil => simp
  | blank c rest blank ih => rwa [lexemes_blank blank]
  | word c rest letter ih =>
    rw [lexemes_letter letter]
    refine List.forall_mem_cons.2 ⟨.word (List.cons_ne_nil _ _) ?_, ih⟩
    exact List.forall_mem_cons.2 ⟨letter, fun d mem => List.mem_takeWhile_imp mem⟩
  | integer c rest digit ih =>
    rw [lexemes_digit digit]
    refine List.forall_mem_cons.2 ⟨.integer (List.cons_ne_nil _ _) ?_, ih⟩
    exact List.forall_mem_cons.2 ⟨digit, fun d mem => List.mem_takeWhile_imp mem⟩
  | mark c rest blank letter digit ih =>
    rw [lexemes_mark blank letter digit]
    exact List.forall_mem_cons.2 ⟨.mark blank letter digit, ih⟩

theorem kind_ne_of_mem_lexemes {text : List Char} :
    ∀ x ∈ lexemes text, x.kind ≠ .endOfInput := by
  induction text using text_induction with
  | nil => simp
  | blank c rest blank ih => rwa [lexemes_blank blank]
  | word c rest letter ih =>
    rw [lexemes_letter letter]
    exact List.forall_mem_cons.2 ⟨word_kind_ne _, ih⟩
  | integer c rest digit ih =>
    rw [lexemes_digit digit]
    exact List.forall_mem_cons.2 ⟨nofun, ih⟩
  | mark c rest blank letter digit ih =>
    rw [lexemes_mark blank letter digit]
    exact List.forall_mem_cons.2 ⟨mark_kind_ne c, ih⟩

/-! ## Parsers on a text -/

namespace Parser

theorem tokenAt_rest (n : Nat) (s : Parser) :
    s.tokenAt (n + 2) = (lexemes s.rest).getD n .endOfInput := by
  induction n generalizing s with
  | zero =>
    rw [getD_lexemes_zero]
    rfl
  | succ n ih =>
    rw [← tokenAt_advance, ih, getD_lexemes_succ]
    rfl

theorem ofSource_faces (source : String) (limit : Nat) :
    (ofSource source limit).Faces (lexemes source.toList) := fun n => by
  rw [ofSource, tokenAt_advance, tokenAt_advance, tokenAt_rest]

def FacesScanned (s : Parser) : Prop :=
  ∀ n, (s.tokenAt n).Scanned

theorem ofSource_facesScanned (source : String) (limit : Nat) :
    (ofSource source limit).FacesScanned := fun n => by
  rw [ofSource_faces source limit n, List.getD_eq_getElem?_getD]
  cases found : (lexemes source.toList)[n]? with
  | none => exact .endOfInput
  | some x => exact scanned_of_mem_lexemes x (List.mem_of_getElem? found)

theorem FacesScanned.leads {s t : Parser} (h : s.FacesScanned) (moved : Leads s t) :
    t.FacesScanned := by
  obtain ⟨m, same⟩ := moved.tokenAt_eq
  intro n
  rw [same]
  exact h (m + n)

end Parser

end LetArith
