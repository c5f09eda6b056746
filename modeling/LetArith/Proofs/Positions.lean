import LetArith.Token.Cursor
import LetArith.Proofs.Segmentation

/-!
A cursor never leaves the boundaries between characters. Its ways to find a token each count bytes on
their own, and together they move exactly as far as the scan of what is left of the source does
(`Cursor.next?_eq`). A cursor on a boundary therefore always finds a token, and the one that it
would find in a source of its own (`Cursor.next?_on_boundary`).
-/

namespace LetArith
open Text

/-! ## Offsets into a text -/

namespace Text

theorem takeBytes?_append (front back : List Char) :
    takeBytes? (byteSize front) (front ++ back) = some front := by
  have dropped : dropBytes? (byteSize front) (front ++ back) = some back :=
    dropBytes?_eq_some_iff.2 ⟨front, rfl, rfl⟩
  simp [takeBytes?, dropped]

theorem getD_find?_offsets (p : Char → Bool) (start : Nat) (text : List Char) :
    (((offsets start text).find? fun (_, c) => !p c).map Prod.fst).getD (start + byteSize text) =
      start + byteSize (text.takeWhile p) := by
  induction text generalizing start with
  | nil => rfl
  | cons c rest ih =>
    cases inside : p c with
    | true => simpa [offsets, inside, Nat.add_assoc] using ih (start + c.utf8Size)
    | false => simp [offsets, inside]

theorem extract_toByteArray {source : String} {front part rest : List Char}
    (split : source.toList = front ++ (part ++ rest)) :
    source.toByteArray.extract (byteSize front) (byteSize front + byteSize part) =
      (String.ofList part).toByteArray := by
  have bytes : source.toByteArray = (String.ofList front).toByteArray ++
      ((String.ofList part).toByteArray ++ (String.ofList rest).toByteArray) := by
    rw [← String.toByteArray_append, ← String.toByteArray_append, ← String.ofList_append,
      ← String.ofList_append, ← split, String.ofList_toList]
  have size (text : List Char) : (String.ofList text).toByteArray.size = byteSize text := by
    rw [String.size_toByteArray, byteSize_ofList]
  have before : (String.ofList front).toByteArray.extract (byteSize front)
      (byteSize front + byteSize part) = ByteArray.empty := by
    rw [ByteArray.extract_eq_empty_iff, size]
    exact Nat.min_le_right _ _
  rw [bytes, ByteArray.extract_append, size, Nat.sub_self, Nat.add_sub_cancel_left, before,
    ByteArray.extract_append_eq_left (size part).symm, ByteArray.empty_append]

end Text

/-! ## What a scan passes -/

theorem scan_dropWhile_isBlank (text : List Char) : scan (text.dropWhile isBlank) = scan text := by
  induction text with
  | nil => rfl
  | cons c rest ih =>
    cases blank : isBlank c with
    | true => rw [List.dropWhile_cons_of_pos blank, ih, scan_blank blank]
    | false => rw [List.dropWhile_cons_of_neg (by simp [blank])]

/-- What a scan goes over: the blanks in front of the token, and its literal. -/
def passed (text : List Char) : List Char :=
  text.takeWhile isBlank ++ (scan text).1.literal.toList

theorem passed_append_scan (text : List Char) : passed text ++ (scan text).2 = text := by
  induction text with
  | nil => rfl
  | cons c rest ih =>
    cases blank : isBlank c with
    | true =>
      rw [passed, List.takeWhile_cons_of_pos blank, scan_blank blank, List.cons_append,
        List.cons_append]
      exact congrArg (c :: ·) ih
    | false =>
      rw [passed, List.takeWhile_cons_of_neg (by simp [blank]), List.nil_append]
      cases letter : isLetter c with
      | true => simp [scan_letter letter, Token.word]
      | false =>
        cases digit : c.isDigit with
        | true => simp [scan_digit digit, Token.integer]
        | false => simp [scan_mark blank letter digit, Token.mark]

theorem scan_kind_iff {text : List Char} :
    (scan text).1.kind = .endOfInput ↔ ∀ c ∈ text, isBlank c = true := by
  constructor
  · intro done
    have whole := passed_append_scan text
    rw [passed, scan_eq_endOfInput done, List.append_nil] at whole
    exact List.takeWhile_eq_self_iff.1 ((List.append_nil _).symm.trans whole)
  · intro blank
    rw [← scan_dropWhile_isBlank, List.dropWhile_eq_nil_iff.2 blank]
    rfl

theorem lexeme_scan {text : List Char} (more : (scan text).1.kind ≠ .endOfInput) :
    Lexeme (scan text).1 := by
  have mem : (scan text).1 ∈ lexemes text := by
    rw [lexemes_of_scan more]
    exact List.mem_cons_self
  exact lexeme_iff.2 ⟨scanned_of_mem_lexemes _ mem, more⟩

/-! ## What a text starts with -/

namespace Pattern

variable {c : Char}

theorem run?_cons {p : Char → Bool} (inside : p c = true) (rest : List Char) :
    run? p (c :: rest) = some (c :: rest.takeWhile p) := by
  simp [run?, inside]

theorem run?_cons_eq_none {p : Char → Bool} (outside : p c = false) (rest : List Char) :
    run? p (c :: rest) = none := by
  simp [run?, outside]

theorem first?_blank (blank : isBlank c = true) (rest : List Char) :
    first? (c :: rest) = some (blanks, c :: rest.takeWhile isBlank) := by
  simp [first?, all, blanks, run?_cons blank]

theorem first?_digit (digit : c.isDigit = true) (rest : List Char) :
    first? (c :: rest) = some (digits, c :: rest.takeWhile Char.isDigit) := by
  simp [first?, all, blanks, digits, run?_cons digit, run?_cons_eq_none (isBlank_of_isDigit digit)]

theorem first?_mark {kind : Kind} (known : (c, kind) ∈ markKinds) (rest : List Char) :
    first? (c :: rest) = some (mark c kind (String.singleton c), [c]) := by
  simp only [markKinds, List.mem_cons, Prod.mk.injEq, List.not_mem_nil, or_false] at known
  rcases known with ⟨rfl, rfl⟩ | ⟨rfl, rfl⟩ | ⟨rfl, rfl⟩ | ⟨rfl, rfl⟩ | ⟨rfl, rfl⟩ | ⟨rfl, rfl⟩ |
    ⟨rfl, rfl⟩ | ⟨rfl, rfl⟩ <;> rfl

theorem first?_eq_none (blank : isBlank c = false) (digit : c.isDigit = false)
    (unknown : ∀ kind, (c, kind) ∉ markKinds) (rest : List Char) : first? (c :: rest) = none := by
  have other : ∀ mark ∈ markKinds, c ≠ mark.1 := fun mark mem same => unknown mark.2 (same ▸ mem)
  simp only [markKinds, List.forall_mem_cons] at other
  simp [first?, all, blanks, digits, mark, run?_cons_eq_none blank, run?_cons_eq_none digit, other]

end Pattern

/-! ## Cursors on a boundary -/

namespace Cursor

/-- The position is on a boundary between characters: the bytes in front of it are a text. -/
def Valid (cursor : Cursor) : Prop :=
  String.Pos.Raw.IsValid cursor.source ⟨cursor.position⟩

instance (cursor : Cursor) : Decidable cursor.Valid :=
  inferInstanceAs (Decidable (String.Pos.Raw.IsValid _ _))

variable {cursor : Cursor} {text : List Char}

theorem remainder?_eq_some_iff : cursor.remainder? = some text ↔
    ∃ front, cursor.source.toList = front ++ text ∧ byteSize front = cursor.position :=
  dropBytes?_eq_some_iff

theorem isSome_remainder?_iff : cursor.remainder?.isSome = true ↔ cursor.Valid := by
  rw [Valid, String.Pos.Raw.isValid_iff_exists_append, Option.isSome_iff_exists]
  constructor
  · rintro ⟨text, left⟩
    obtain ⟨front, split, size⟩ := remainder?_eq_some_iff.1 left
    refine ⟨String.ofList front, String.ofList text, ?_, ?_⟩
    · rw [← String.ofList_append, ← split, String.ofList_toList]
    · rw [String.Pos.Raw.ext_iff, String.byteIdx_rawEndPos, byteSize_ofList, size]
  · rintro ⟨front, text, split, place⟩
    refine ⟨text.toList, remainder?_eq_some_iff.2 ⟨front.toList, ?_, ?_⟩⟩
    · rw [split, String.toList_append]
    · rw [byteSize_toList, ← String.byteIdx_rawEndPos, ← place]

theorem valid_of_remainder? (left : cursor.remainder? = some text) : cursor.Valid :=
  isSome_remainder?_iff.1 (by rw [left]; rfl)

theorem remainder?_ofSource (source : String) : (ofSource source).remainder? = some source.toList :=
  remainder?_eq_some_iff.2 ⟨[], rfl, rfl⟩

theorem remainder?_advance {part rest : List Char} (left : cursor.remainder? = some (part ++ rest)) :
    (cursor.advance (byteSize part)).remainder? = some rest := by
  obtain ⟨front, split, size⟩ := remainder?_eq_some_iff.1 left
  refine remainder?_eq_some_iff.2 ⟨front ++ part, ?_, ?_⟩
  · rw [List.append_assoc]
    exact split
  · rw [byteSize_append, size]
    rfl

theorem advance_advance (cursor : Cursor) (first second : Nat) :
    (cursor.advance first).advance second = cursor.advance (first + second) := by
  simp [advance, Nat.add_assoc]

theorem word?_eq (cursor : Cursor) (text : List Char) : cursor.word? text =
    some (.word (text.takeWhile isLetter), cursor.advance (byteSize (text.takeWhile isLetter))) := by
  have size := getD_find?_offsets isLetter 0 text
  simp only [Nat.zero_add] at size
  have taken := takeBytes?_append (text.takeWhile isLetter) (text.dropWhile isLetter)
  rw [List.takeWhile_append_dropWhile] at taken
  rw [word?, size, taken]
  rfl

/-- The equation of `next?` without what its termination needs. -/
theorem next?_eq_match (cursor : Cursor) : cursor.next? =
    match cursor.remainder? with
    | none => none
    | some [] => some (.endOfInput, cursor)
    | some (c :: rest) =>
      if isLetter c then cursor.word? (c :: rest)
      else
        match Pattern.first? (c :: rest) with
        | none => some (⟨.illegal, String.singleton c⟩, cursor.advance c.utf8Size)
        | some (pattern, part) =>
          match pattern.token? part with
          | some token => some (token, cursor.advance (pattern.bytes part))
          | none => (cursor.advance (pattern.bytes part)).next? := by
  rw [next?]
  cases left : cursor.remainder? with
  | none => rfl
  | some text =>
    cases text with
    | nil => rfl
    | cons c rest =>
      dsimp only
      split
      · rfl
      · cases first : Pattern.first? (c :: rest) with
        | none => rfl
        | some found =>
          dsimp only
          cases token : found.1.token? found.2 <;> rfl

theorem next?_of_none (out : cursor.remainder? = none) : cursor.next? = none := by
  rw [next?_eq_match, out]

theorem next?_of_nil (left : cursor.remainder? = some []) :
    cursor.next? = some (.endOfInput, cursor) := by
  rw [next?_eq_match, left]

theorem next?_skips_blanks (left : cursor.remainder? = some text) :
    cursor.next? = (cursor.advance (byteSize (text.takeWhile isBlank))).next? := by
  cases text with
  | nil => rfl
  | cons c rest =>
    cases blank : isBlank c with
    | true =>
      rw [next?_eq_match, left]
      simp [isLetter_of_isBlank blank, Pattern.first?_blank blank, Pattern.blanks, blank]
    | false =>
      rw [List.takeWhile_cons_of_neg (by simp [blank])]
      rfl

theorem next?_of_token {c : Char} {rest : List Char} (left : cursor.remainder? = some (c :: rest))
    (blank : isBlank c = false) : cursor.next? =
      some ((scan (c :: rest)).1, cursor.advance (scan (c :: rest)).1.literal.utf8ByteSize) := by
  rw [next?_eq_match, left]
  cases letter : isLetter c with
  | true => simp [letter, word?_eq, scan_letter letter, Token.word, byteSize_ofList]
  | false =>
    cases digit : c.isDigit with
    | true =>
      simp [letter, Pattern.first?_digit digit, Pattern.digits, scan_digit digit, Token.integer,
        byteSize_ofList]
    | false =>
      rw [scan_mark blank letter digit]
      cases known : Kind.ofMark? c with
      | some kind =>
        have mem := Kind.ofMark?_eq_some_iff.1 known
        simp [letter, Pattern.first?_mark mem, Pattern.mark, Token.mark, known]
      | none =>
        have unknown := Kind.ofMark?_eq_none_iff.1 known
        simp [letter, Pattern.first?_eq_none blank digit unknown, Token.mark, known]

theorem next?_eq (left : cursor.remainder? = some text) :
    cursor.next? = some ((scan text).1, cursor.advance (byteSize (passed text))) := by
  -- all blanks are passed in one step, so the cursor behind them is at a token or at the end
  have behind : (cursor.advance (byteSize (text.takeWhile isBlank))).remainder? =
      some (text.dropWhile isBlank) :=
    remainder?_advance (by rw [List.takeWhile_append_dropWhile, left])
  rw [next?_skips_blanks left, passed, byteSize_append, byteSize_toList, ← advance_advance]
  cases next : text.dropWhile isBlank with
  | nil =>
    rw [next] at behind
    have done := scan_dropWhile_isBlank text
    rw [next] at done
    rw [next?_of_nil behind, ← done]
    rfl
  | cons c rest =>
    rw [next] at behind
    have blank : isBlank c = false := by
      have := List.head?_dropWhile_not isBlank text
      simpa [next] using this
    rw [next?_of_token behind blank, ← next, scan_dropWhile_isBlank]

theorem remainder?_behind (left : cursor.remainder? = some text) :
    (cursor.advance (byteSize (passed text))).remainder? = some (scan text).2 :=
  remainder?_advance (by rw [passed_append_scan, left])

def draw? : Nat → Cursor → Option (List Token × Cursor)
  | 0, cursor => some ([], cursor)
  | n + 1, cursor => do
    let (token, next) ← cursor.next?
    let (others, last) ← draw? n next
    return (token :: others, last)

theorem draw?_succ {n : Nat} {token : Token} {others : List Token} {next last : Cursor}
    (first : cursor.next? = some (token, next)) (rest : next.draw? n = some (others, last)) :
    cursor.draw? (n + 1) = some (token :: others, last) := by
  simp [draw?, first, rest]

theorem exists_draw? (n : Nat) (left : cursor.remainder? = some text) : ∃ last,
    cursor.draw? n = some ((List.range n).map fun k => (lexemes text).getD k .endOfInput, last) ∧
      last.Valid := by
  induction n generalizing cursor text with
  | zero => exact ⟨cursor, rfl, valid_of_remainder? left⟩
  | succ n ih =>
    obtain ⟨last, rest, valid⟩ := ih (remainder?_behind left)
    refine ⟨last, ?_, valid⟩
    rw [draw?_succ (next?_eq left) rest, List.range_succ_eq_map, List.map_cons, List.map_map,
      getD_lexemes_zero]
    simp only [Function.comp_def, Nat.succ_eq_add_one, getD_lexemes_succ]

theorem draw?_at_end (n : Nat) (left : cursor.remainder? = some []) :
    cursor.draw? n = some (List.replicate n .endOfInput, cursor) := by
  induction n with
  | zero => rfl
  | succ n ih => rw [draw?_succ (next?_of_nil left) ih, List.replicate_succ]

structure Finds (cursor : Cursor) (text : List Char) (token : Token) (next : Cursor) : Prop where
  next?_eq : cursor.next? = some (token, next)
  source_eq : next.source = cursor.source
  valid : next.Valid
  kind_iff : token.kind = .endOfInput ↔ ∀ c ∈ text, c ∈ [' ', '\t', '\n', '\r']
  stays : token.kind = .endOfInput → next.position = cursor.source.utf8ByteSize ∧
    ∀ n, next.draw? n = some (List.replicate n .endOfInput, next)
  moves : token.kind ≠ .endOfInput → cursor.position < next.position ∧
    token.literal.utf8ByteSize ≤ next.position ∧
    cursor.source.toByteArray.extract (next.position - token.literal.utf8ByteSize) next.position =
      token.literal.toByteArray
  fresh : ∃ other, (ofSource (String.ofList text)).next? = some (token, other) ∧
    other.remainder? = next.remainder?

theorem finds_of_remainder? (left : cursor.remainder? = some text) :
    cursor.Finds text (scan text).1 (cursor.advance (byteSize (passed text))) where
  next?_eq := next?_eq left
  source_eq := rfl
  valid := valid_of_remainder? (remainder?_behind left)
  kind_iff := by
    simp only [scan_kind_iff, isBlank_iff, List.mem_cons, List.not_mem_nil, or_false]
  stays done := by
    have behind := remainder?_behind left
    rw [scan_eq_endOfInput done] at behind
    refine ⟨?_, fun n => draw?_at_end n behind⟩
    obtain ⟨front, split, size⟩ := remainder?_eq_some_iff.1 behind
    rw [← size, ← byteSize_toList, ← List.append_nil front, ← split]
    rfl
  moves more := by
    obtain ⟨front, split, size⟩ := remainder?_eq_some_iff.1 left
    have positive := byteSize_pos (lexeme_scan more).literal_ne_nil
    have parts : cursor.source.toList = front ++ text.takeWhile isBlank ++
        ((scan text).1.literal.toList ++ (scan text).2) := by
      rw [split, List.append_assoc, ← List.append_assoc (text.takeWhile isBlank)]
      exact congrArg (front ++ ·) (passed_append_scan text).symm
    have slice := extract_toByteArray parts
    have ends : (cursor.advance (byteSize (passed text))).position =
        byteSize (front ++ text.takeWhile isBlank) + (scan text).1.literal.utf8ByteSize := by
      rw [advance, passed, byteSize_append, byteSize_append, byteSize_toList, ← size, Nat.add_assoc]
    rw [byteSize_toList] at positive
    rw [byteSize_toList, String.ofList_toList] at slice
    rw [ends, Nat.add_sub_cancel]
    refine ⟨?_, Nat.le_add_left _ _, slice⟩
    rw [← size, byteSize_append]
    omega
  fresh := by
    have other := remainder?_ofSource (String.ofList text)
    rw [String.toList_ofList] at other
    exact ⟨_, next?_eq other, (remainder?_behind other).trans (remainder?_behind left).symm⟩

theorem isSome_next?_iff : cursor.next?.isSome = true ↔ cursor.Valid := by
  rw [← isSome_remainder?_iff]
  cases left : cursor.remainder? with
  | none => simp [next?_of_none left]
  | some text => simp [next?_eq left]

/-- A cursor can be read from exactly where it is on a boundary. There it finds a token and stays on a
boundary, and it finds what a cursor on the text in front of it does. From the start of a source it
therefore finds all the tokens, and the end of input however often it is asked for more. -/
theorem next?_on_boundary (cursor : Cursor) :
    (cursor.remainder?.isSome = true ↔ cursor.Valid) ∧ (cursor.at?.isSome = true ↔ cursor.Valid) ∧
      (cursor.next?.isSome = true ↔ cursor.Valid) ∧
      (cursor.Valid → ∃ text, cursor.remainder? = some text ∧
        cursor.source.toByteArray.extract cursor.position cursor.source.utf8ByteSize =
          (String.ofList text).toByteArray ∧
        ∃ token next, cursor.Finds text token next) ∧
      ∀ n, ∃ last, (ofSource cursor.source).draw? n =
        some ((List.range n).map fun k => (tokenize cursor.source).getD k .endOfInput, last) ∧
          last.Valid := by
  refine ⟨isSome_remainder?_iff, ?_, isSome_next?_iff, fun valid => ?_, fun n => ?_⟩
  · rw [at?, Option.isSome_map, isSome_remainder?_iff]
  · obtain ⟨text, left⟩ := Option.isSome_iff_exists.1 (isSome_remainder?_iff.2 valid)
    refine ⟨text, left, ?_, _, _, finds_of_remainder? left⟩
    obtain ⟨front, split, size⟩ := remainder?_eq_some_iff.1 left
    have slice := extract_toByteArray (split.trans (congrArg (front ++ ·) (List.append_nil text).symm))
    rwa [← byteSize_append, ← split, byteSize_toList, size] at slice
  · simpa only [getD_tokenize] using exists_draw? n (remainder?_ofSource cursor.source)

theorem next?_on_boundary_accent :
    let cursor : Cursor := ⟨"é 12", 2⟩
    cursor.Valid ∧ ∃ text, cursor.remainder? = some text ∧
      cursor.source.toByteArray.extract cursor.position cursor.source.utf8ByteSize =
        (String.ofList text).toByteArray ∧
      ∃ token next, cursor.Finds text token next := by
  have valid : (⟨"é 12", 2⟩ : Cursor).Valid := by decide
  exact ⟨valid, (next?_on_boundary _).2.2.2.1 valid⟩

end Cursor

end LetArith
