import LetArith.Proofs.Lexing
import Mathlib.Data.List.Chain

/-!
Tokens as a segmentation of the text. A segmentation writes the text as literals with blanks around
them, and cuts no run of letters or of digits in two. Every text has exactly one, and its tokens are
those that the scan of the text takes.
-/

namespace LetArith
open Text

/-! ## Lexemes -/

def markKinds : List (Char × Kind) :=
  [('+', .plus), ('-', .minus), ('*', .asterisk), ('/', .slash), ('=', .assign), (';', .semicolon),
    ('(', .leftParen), (')', .rightParen)]

/-- The tokens that stand for a part of a text, by what the part is made of. -/
inductive Lexeme : Token → Prop where
  | keyword : Lexeme ⟨.letKeyword, "let"⟩
  | name {letters : String} (nonempty : letters.toList ≠ [])
      (alphabetic : ∀ c ∈ letters.toList, isLetter c = true) (other : letters ≠ "let") :
      Lexeme ⟨.identifier, letters⟩
  | integer {digits : String} (nonempty : digits.toList ≠ [])
      (numeric : ∀ c ∈ digits.toList, c.isDigit = true) : Lexeme ⟨.integer, digits⟩
  | mark {c : Char} {kind : Kind} (known : (c, kind) ∈ markKinds) :
      Lexeme ⟨kind, String.singleton c⟩
  | illegal {c : Char} (blank : isBlank c = false) (letter : isLetter c = false)
      (digit : c.isDigit = false) (unknown : ∀ kind, (c, kind) ∉ markKinds) :
      Lexeme ⟨.illegal, String.singleton c⟩

theorem Kind.ofMark?_eq_some_iff {c : Char} {kind : Kind} :
    Kind.ofMark? c = some kind ↔ (c, kind) ∈ markKinds := by
  constructor
  · intro h
    unfold Kind.ofMark? at h
    split at h <;> cases h <;> simp [markKinds]
  · intro known
    simp only [markKinds, List.mem_cons, Prod.mk.injEq, List.not_mem_nil, or_false] at known
    rcases known with ⟨rfl, rfl⟩ | ⟨rfl, rfl⟩ | ⟨rfl, rfl⟩ | ⟨rfl, rfl⟩ | ⟨rfl, rfl⟩ | ⟨rfl, rfl⟩ |
      ⟨rfl, rfl⟩ | ⟨rfl, rfl⟩ <;> rfl

theorem Kind.ofMark?_eq_none_iff {c : Char} :
    Kind.ofMark? c = none ↔ ∀ kind, (c, kind) ∉ markKinds := by
  simp only [Option.eq_none_iff_forall_ne_some, ne_eq, Kind.ofMark?_eq_some_iff]

theorem plain_of_mem_markKinds {c : Char} {kind : Kind} (known : (c, kind) ∈ markKinds) :
    isBlank c = false ∧ isLetter c = false ∧ c.isDigit = false := by
  have plain : ∀ mark ∈ markKinds,
      isBlank mark.1 = false ∧ isLetter mark.1 = false ∧ mark.1.isDigit = false := by
    decide +kernel
  exact plain _ known

theorem isLetter_let : ∀ c ∈ "let".toList, isLetter c = true :=
  List.all_eq_true.1 (by decide +kernel)

theorem Lexeme.kind_ne {x : Token} (h : Lexeme x) :
    x.kind ≠ .endOfInput ∧ x.kind ≠ .leftBrace ∧ x.kind ≠ .rightBrace := by
  cases h with
  | mark known =>
    have other : ∀ mark ∈ markKinds,
        mark.2 ≠ .endOfInput ∧ mark.2 ≠ .leftBrace ∧ mark.2 ≠ .rightBrace := by
      decide
    exact other _ known
  | keyword | name | integer | illegal => simp

theorem lexeme_iff {x : Token} : Lexeme x ↔ x.Scanned ∧ x.kind ≠ .endOfInput := by
  constructor
  · intro h
    refine ⟨?_, h.kind_ne.1⟩
    cases h with
    | keyword => exact @Token.Scanned.word ['l', 'e', 't'] (by decide) isLetter_let
    | @name letters nonempty alphabetic other =>
      have same : Token.word letters.toList = ⟨.identifier, letters⟩ := by
        simp [Token.word, Kind.ofWord, other]
      exact same ▸ .word nonempty alphabetic
    | @integer digits nonempty numeric =>
      have same : Token.integer digits.toList = ⟨.integer, digits⟩ := by simp [Token.integer]
      exact same ▸ .integer nonempty numeric
    | @mark c kind known =>
      obtain ⟨blank, letter, digit⟩ := plain_of_mem_markKinds known
      have same : Token.mark c = ⟨kind, String.singleton c⟩ := by
        rw [Token.mark, Kind.ofMark?_eq_some_iff.2 known]
        rfl
      exact same ▸ .mark blank letter digit
    | @illegal c blank letter digit unknown =>
      have same : Token.mark c = ⟨.illegal, String.singleton c⟩ := by
        rw [Token.mark, Kind.ofMark?_eq_none_iff.2 unknown]
        rfl
      exact same ▸ .mark blank letter digit
  · rintro ⟨scanned, more⟩
    cases scanned with
    | endOfInput => exact absurd rfl more
    | @word letters nonempty alphabetic =>
      unfold Token.word Kind.ofWord
      split
      next keyword =>
        rw [keyword]
        exact .keyword
      next other => exact .name (by simpa using nonempty) (by simpa using alphabetic) other
    | integer nonempty numeric =>
      exact .integer (by simpa using nonempty) (by simpa using numeric)
    | @mark c blank letter digit =>
      unfold Token.mark
      cases known : Kind.ofMark? c with
      | none => exact .illegal blank letter digit (Kind.ofMark?_eq_none_iff.1 known)
      | some kind => exact .mark (Kind.ofMark?_eq_some_iff.1 known)

namespace Lexeme

variable {x : Token} (h : Lexeme x)
include h

theorem literal_ne_nil : x.literal.toList ≠ [] := by
  cases h with
  | keyword => decide
  | name nonempty => exact nonempty
  | integer nonempty => exact nonempty
  | mark | illegal => simp

theorem not_blank : ∀ c ∈ x.literal.toList, isBlank c = false := by
  cases h with
  | keyword => exact fun c mem => isBlank_of_isLetter (isLetter_let c mem)
  | name _ alphabetic => exact fun c mem => isBlank_of_isLetter (alphabetic c mem)
  | integer _ numeric => exact fun c mem => isBlank_of_isDigit (numeric c mem)
  | mark known => simpa using (plain_of_mem_markKinds known).1
  | illegal blank => simpa using blank

theorem run_of_mem {c : Char} (mem : c ∈ x.literal.toList) :
    (isLetter c = true → ∀ d ∈ x.literal.toList, isLetter d = true) ∧
      (c.isDigit = true → ∀ d ∈ x.literal.toList, d.isDigit = true) := by
  cases h with
  | keyword =>
    refine ⟨fun _ => isLetter_let, fun digit => ?_⟩
    have letter := isLetter_let c mem
    simp [isLetter_of_isDigit digit] at letter
  | name _ alphabetic =>
    refine ⟨fun _ => alphabetic, fun digit => ?_⟩
    have letter := alphabetic c mem
    simp [isLetter_of_isDigit digit] at letter
  | integer _ numeric =>
    refine ⟨fun letter => ?_, fun _ => numeric⟩
    simp [isLetter_of_isDigit (numeric c mem)] at letter
  | @mark d | @illegal d =>
    have only : c = d := by simpa using mem
    subst only
    simp

theorem lexemes_literal : lexemes x.literal.toList = [x] := by
  obtain ⟨scanned, more⟩ := lexeme_iff.1 h
  cases scanned with
  | endOfInput => exact absurd rfl more
  | word nonempty alphabetic =>
    rw [Token.word, String.toList_ofList, lexemes_word nonempty alphabetic]
    rfl
  | integer nonempty numeric =>
    rw [Token.integer, String.toList_ofList, lexemes_integer nonempty numeric]
    rfl
  | mark blank letter digit =>
    rw [Token.mark, String.toList_singleton, lexemes_mark blank letter digit, lexemes_nil]
    rfl

end Lexeme

/-! ## Segmentations -/

/-- A token and the blanks behind it. -/
@[ext]
structure Piece where
  token : Token
  blanks : List Char
  lexeme : Lexeme token
  blank : ∀ c ∈ blanks, isBlank c = true

def Piece.chars (piece : Piece) : List Char :=
  piece.token.literal.toList ++ piece.blanks

/-- Both literals are runs of letters, or both are runs of digits. -/
def Token.Fuses (x y : Token) : Prop :=
  (∀ c ∈ x.literal.toList, isLetter c = true) ∧ (∀ c ∈ y.literal.toList, isLetter c = true) ∨
    (∀ c ∈ x.literal.toList, c.isDigit = true) ∧ ∀ c ∈ y.literal.toList, c.isDigit = true

/-- A way to write a text as literals with blanks around them. Neighbours with nothing between them
are not parts of one run. -/
@[ext]
structure Segmentation (text : List Char) where
  lead : List Char
  pieces : List Piece
  text_eq : text = lead ++ pieces.flatMap Piece.chars
  lead_blank : ∀ c ∈ lead, isBlank c = true
  maximal : pieces.IsChain fun first second => first.blanks = [] → ¬first.token.Fuses second.token

theorem lexemes_blanks {blanks : List Char} (blank : ∀ c ∈ blanks, isBlank c = true)
    (rest : List Char) : lexemes (blanks ++ rest) = lexemes rest := by
  induction blanks with
  | nil => rfl
  | cons c blanks ih =>
    obtain ⟨first, others⟩ := List.forall_mem_cons.1 blank
    rw [List.cons_append, lexemes_blank first, ih others]

theorem Lexeme.seam {x y : Token} (h : Lexeme x) (h' : Lexeme y) (apart : ¬x.Fuses y)
    (rest : List Char) : Seam x.literal.toList (y.literal.toList ++ rest) := by
  intro c last d next
  have mem : c ∈ x.literal.toList := List.mem_of_getLast? last
  have mem' : d ∈ y.literal.toList := by
    rw [List.head?_append_of_ne_nil _ h'.literal_ne_nil] at next
    exact List.mem_of_head? next
  refine ⟨fun both => apart (.inl ?_), fun both => apart (.inr ?_)⟩
  · exact ⟨(h.run_of_mem mem).1 both.1, (h'.run_of_mem mem').1 both.2⟩
  · exact ⟨(h.run_of_mem mem).2 both.1, (h'.run_of_mem mem').2 both.2⟩

theorem Lexeme.not_fuses {x y : Token} (h : Lexeme x) (h' : Lexeme y) {rest : List Char}
    (seam : Seam x.literal.toList (y.literal.toList ++ rest)) : ¬x.Fuses y := by
  obtain ⟨c, last⟩ := Option.isSome_iff_exists.1 (List.getLast?_isSome.2 h.literal_ne_nil)
  obtain ⟨d, others, first⟩ := List.exists_cons_of_ne_nil h'.literal_ne_nil
  have mem : c ∈ x.literal.toList := List.mem_of_getLast? last
  have mem' : d ∈ y.literal.toList := by rw [first]; exact .head others
  obtain ⟨letters, digits⟩ := seam c last d (by rw [first]; rfl)
  rintro (⟨front, back⟩ | ⟨front, back⟩)
  · exact letters ⟨front c mem, back d mem'⟩
  · exact digits ⟨front c mem, back d mem'⟩

namespace Segmentation

variable {text : List Char}

def tokens (s : Segmentation text) : List Token :=
  s.pieces.map Piece.token

/-! ## Every segmentation has the tokens of the text -/

private theorem lexemes_of_pieces {lead : List Char} {pieces : List Piece}
    (blank : ∀ c ∈ lead, isBlank c = true)
    (maximal : pieces.IsChain fun first second =>
      first.blanks = [] → ¬first.token.Fuses second.token) :
    lexemes (lead ++ pieces.flatMap Piece.chars) = pieces.map Piece.token := by
  induction pieces generalizing lead with
  | nil => simpa using lexemes_blanks blank []
  | cons piece pieces ih =>
    have seam : Seam piece.token.literal.toList (piece.blanks ++ pieces.flatMap Piece.chars) := by
      cases between : piece.blanks with
      | cons c rest =>
        have blank := piece.blank c (by simp [between])
        exact .of_head (isLetter_of_isBlank blank) (isDigit_of_isBlank blank)
      | nil =>
        cases pieces with
        | nil => exact fun c _ d => nofun
        | cons next pieces =>
          rw [List.nil_append, List.flatMap_cons, Piece.chars, List.append_assoc]
          exact piece.lexeme.seam next.lexeme ((List.isChain_cons_cons.1 maximal).1 between) _
    rw [lexemes_blanks blank, List.flatMap_cons, Piece.chars, List.append_assoc,
      lexemes_append seam, piece.lexeme.lexemes_literal, ih piece.blank maximal.tail,
      List.map_cons, List.singleton_append]

theorem tokens_eq (s : Segmentation text) : s.tokens = lexemes text := by
  have whole := lexemes_of_pieces s.lead_blank s.maximal
  rw [← s.text_eq] at whole
  exact whole.symm

/-! ## Every text has a segmentation -/

def empty : Segmentation [] where
  lead := []
  pieces := []
  text_eq := rfl
  lead_blank := nofun
  maximal := .nil

def blank {c : Char} (blank : isBlank c = true) (s : Segmentation text) :
    Segmentation (c :: text) where
  lead := c :: s.lead
  pieces := s.pieces
  text_eq := by rw [List.cons_append, ← s.text_eq]
  lead_blank := List.forall_mem_cons.2 ⟨blank, s.lead_blank⟩
  maximal := s.maximal

def cons {x : Token} (lexeme : Lexeme x) (s : Segmentation text)
    (seam : Seam x.literal.toList text) : Segmentation (x.literal.toList ++ text) where
  lead := []
  pieces := ⟨x, s.lead, lexeme, s.lead_blank⟩ :: s.pieces
  text_eq := by
    rw [List.nil_append, List.flatMap_cons, Piece.chars, List.append_assoc, ← s.text_eq]
  lead_blank := nofun
  maximal := by
    have text_eq := s.text_eq
    have maximal := s.maximal
    cases pieces : s.pieces with
    | nil => exact .singleton _
    | cons next others =>
      rw [pieces] at text_eq maximal
      refine .cons_cons (fun between => ?_) maximal
      rw [show s.lead = [] from between, List.nil_append, List.flatMap_cons, Piece.chars,
        List.append_assoc] at text_eq
      rw [text_eq] at seam
      exact lexeme.not_fuses next.lexeme seam

private theorem nonempty_of_run {p : Char → Bool} {c : Char} {rest : List Char} {x : Token}
    (lexeme : Lexeme x) (literal : x.literal.toList = c :: rest.takeWhile p)
    (ends : ∀ d ∈ x.literal.toList, ∀ y, p y = false →
      ¬(isLetter d = true ∧ isLetter y = true) ∧ ¬(d.isDigit = true ∧ y.isDigit = true))
    (s : Segmentation (rest.dropWhile p)) : Nonempty (Segmentation (c :: rest)) := by
  have seam : Seam x.literal.toList (rest.dropWhile p) := by
    intro d last y next
    have outside := List.head?_dropWhile_not p rest
    rw [next] at outside
    exact ends d (List.mem_of_getLast? last) y outside
  have whole := s.cons lexeme seam
  rw [literal, List.cons_append, List.takeWhile_append_dropWhile] at whole
  exact ⟨whole⟩

theorem nonempty (text : List Char) : Nonempty (Segmentation text) := by
  induction text using text_induction with
  | nil => exact ⟨empty⟩
  | blank c rest isBlank ih =>
    obtain ⟨s⟩ := ih
    exact ⟨s.blank isBlank⟩
  | word c rest letter ih =>
    obtain ⟨s⟩ := ih
    have run : ∀ d ∈ c :: rest.takeWhile isLetter, isLetter d = true :=
      List.forall_mem_cons.2 ⟨letter, fun d mem => List.mem_takeWhile_imp mem⟩
    have literal : (Token.word (c :: rest.takeWhile isLetter)).literal.toList =
        c :: rest.takeWhile isLetter := String.toList_ofList
    refine nonempty_of_run (lexeme_iff.2 ⟨.word (List.cons_ne_nil _ _) run, word_kind_ne _⟩)
      literal ?_ s
    rw [literal]
    intro d mem y outside
    have inside := run d mem
    exact ⟨fun both => by simp [outside] at both,
      fun both => by simp [isLetter_of_isDigit both.1] at inside⟩
  | integer c rest digit ih =>
    obtain ⟨s⟩ := ih
    have run : ∀ d ∈ c :: rest.takeWhile Char.isDigit, d.isDigit = true :=
      List.forall_mem_cons.2 ⟨digit, fun d mem => List.mem_takeWhile_imp mem⟩
    have literal : (Token.integer (c :: rest.takeWhile Char.isDigit)).literal.toList =
        c :: rest.takeWhile Char.isDigit := String.toList_ofList
    refine nonempty_of_run (lexeme_iff.2 ⟨.integer (List.cons_ne_nil _ _) run, nofun⟩) literal ?_ s
    rw [literal]
    intro d mem y outside
    exact ⟨fun both => by simp [isLetter_of_isDigit (run d mem)] at both,
      fun both => by simp [outside] at both⟩
  | mark c rest blank letter digit ih =>
    obtain ⟨s⟩ := ih
    have lexeme : Lexeme (.mark c) :=
      lexeme_iff.2 ⟨.mark blank letter digit, mark_kind_ne c⟩
    have literal : (Token.mark c).literal.toList = [c] := String.toList_singleton c
    have seam : Seam (Token.mark c).literal.toList rest := by
      rw [literal]
      rintro x ⟨⟩ d -
      simp [letter, digit]
    have whole := s.cons lexeme seam
    rw [literal, List.singleton_append] at whole
    exact ⟨whole⟩

/-! ## No text has two segmentations -/

private theorem head_of_pieces (pieces : List Piece) :
    ∀ c ∈ (pieces.flatMap Piece.chars).head?, isBlank c = false := by
  cases pieces with
  | nil => nofun
  | cons piece pieces =>
    rw [List.flatMap_cons, Piece.chars, List.append_assoc,
      List.head?_append_of_ne_nil _ piece.lexeme.literal_ne_nil]
    exact fun c mem => piece.lexeme.not_blank c (List.mem_of_head? mem)

private theorem pieces_unique {lead lead' : List Char} {pieces pieces' : List Piece}
    (same : lead ++ pieces.flatMap Piece.chars = lead' ++ pieces'.flatMap Piece.chars)
    (tokens : pieces.map Piece.token = pieces'.map Piece.token)
    (blank : ∀ c ∈ lead, isBlank c = true) (blank' : ∀ c ∈ lead', isBlank c = true) :
    lead = lead' ∧ pieces = pieces' := by
  obtain ⟨rfl, rest⟩ := run_unique same blank blank' (head_of_pieces pieces)
    (head_of_pieces pieces')
  refine ⟨rfl, ?_⟩
  clear same blank blank'
  induction pieces generalizing pieces' with
  | nil =>
    cases pieces' with
    | nil => rfl
    | cons => cases tokens
  | cons piece pieces ih =>
    cases pieces' with
    | nil => cases tokens
    | cons piece' pieces' =>
      obtain ⟨token, others⟩ := List.cons.inj tokens
      simp only [List.flatMap_cons, Piece.chars, List.append_assoc, token] at rest
      obtain ⟨blanks, rest⟩ := run_unique (List.append_cancel_left rest) piece.blank piece'.blank
        (head_of_pieces pieces) (head_of_pieces pieces')
      rw [Piece.ext token blanks, ih others rest]

theorem unique (s t : Segmentation text) : s = t := by
  obtain ⟨lead, pieces⟩ := pieces_unique (s.text_eq.symm.trans t.text_eq)
    (s.tokens_eq.trans t.tokens_eq.symm) s.lead_blank t.lead_blank
  exact Segmentation.ext lead pieces

end Segmentation

/-- The tokens of a text are those of its segmentation, of which there is exactly one. No brace is
among them. -/
theorem tokenize_iff_segmentation (source : String) :
    (∀ ts, (tokenize source = ts ++ [.endOfInput] ∧ ∀ x ∈ ts, x.kind ≠ .endOfInput) ↔
      ∃ s : Segmentation source.toList, s.tokens = ts) ∧
    (∃ s : Segmentation source.toList, ∀ t, t = s) ∧
    ∀ x ∈ tokenize source, x.kind ≠ .leftBrace ∧ x.kind ≠ .rightBrace := by
  obtain ⟨s⟩ := Segmentation.nonempty source.toList
  have tokens : tokenize source = s.tokens ++ [.endOfInput] := by
    rw [tokenize, tokens_eq, s.tokens_eq]
  have kinds : ∀ x ∈ s.tokens,
      x.kind ≠ .endOfInput ∧ x.kind ≠ .leftBrace ∧ x.kind ≠ .rightBrace := by
    intro x mem
    obtain ⟨piece, -, rfl⟩ := List.mem_map.1 mem
    exact piece.lexeme.kind_ne
  refine ⟨fun ts => ⟨?_, ?_⟩, ⟨s, fun t => t.unique s⟩, ?_⟩
  · rintro ⟨same, -⟩
    rw [tokens] at same
    exact ⟨s, List.append_cancel_right same⟩
  · rintro ⟨t, rfl⟩
    rw [t.unique s]
    exact ⟨tokens, fun x mem => (kinds x mem).1⟩
  · rw [tokens]
    refine List.forall_mem_append.2 ⟨fun x mem => (kinds x mem).2, ?_⟩
    simp [Token.endOfInput]

end LetArith
