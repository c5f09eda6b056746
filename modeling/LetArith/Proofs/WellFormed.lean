import LetArith.Proofs.Statements
import LetArith.Proofs.Segmentation

/-!
What the trees of the parser look like. A program is plain if it could have been written in the
language, and it is spelled if its nodes keep the tokens that they would be written with. Every
program that is read from a text is both (`spelled_of_parse`, `plain_of_parse`): its tokens are
those of the text, and a token of a text has a literal that goes with its kind.
-/

namespace LetArith
open Text

def operators : List String := ["+", "-", "*", "/"]

/-- An expression of the language: the operators are those of the grammar, the integers can be
written, and no name stands in it. -/
def Expr.Plain : Expr → Prop
  | .integer _ value => 0 ≤ value ∧ value ≤ maxInteger
  | .named _ => False
  | .unary _ operator operand => operator = "-" ∧ operand.Plain
  | .binary _ operator left right => operator ∈ operators ∧ left.Plain ∧ right.Plain

def Name.Plain (name : Name) : Prop :=
  name.text.toList ≠ [] ∧ name.text.toList.all isLetter = true ∧ name.text ≠ "let"

def Statement.Plain : Statement → Prop
  | .letBinding _ name value => name.Plain ∧ value.Plain
  | .expression _ value => value.Plain

def Program.Plain (p : Program) : Prop :=
  ∀ found ∈ p, found.Plain

instance Expr.decidablePlain : DecidablePred Expr.Plain
  | .integer _ value => inferInstanceAs (Decidable (0 ≤ value ∧ value ≤ maxInteger))
  | .named _ => inferInstanceAs (Decidable False)
  | .unary _ operator operand =>
    have := decidablePlain operand
    inferInstanceAs (Decidable (operator = "-" ∧ operand.Plain))
  | .binary _ operator left right =>
    have := decidablePlain left
    have := decidablePlain right
    inferInstanceAs (Decidable (operator ∈ operators ∧ left.Plain ∧ right.Plain))

instance (name : Name) : Decidable name.Plain :=
  inferInstanceAs (Decidable (name.text.toList ≠ [] ∧ name.text.toList.all isLetter = true ∧
    name.text ≠ "let"))

instance : DecidablePred Statement.Plain
  | .letBinding _ name value => inferInstanceAs (Decidable (name.Plain ∧ value.Plain))
  | .expression _ value => inferInstanceAs (Decidable value.Plain)

instance (p : Program) : Decidable p.Plain :=
  inferInstanceAs (Decidable (∀ found ∈ p, found.Plain))

/-! ## Trees with their tokens -/

def operatorTokens : List Token :=
  [⟨.plus, "+"⟩, ⟨.minus, "-"⟩, ⟨.asterisk, "*"⟩, ⟨.slash, "/"⟩]

/-- The token is a numeral of the value, which may start with zeros. -/
def Token.Denotes (x : Token) (value : Int) : Prop :=
  x.kind = .integer ∧ x.literal.toList ≠ [] ∧ (∀ c ∈ x.literal.toList, c.isDigit = true) ∧
    value = Nat.ofDigitChars 10 x.literal.toList 0

/-- How deep the readings of an expression are nested, without those that parentheses start. A left
operand is read where the expression itself is, a right operand one level deeper. -/
def Expr.nesting : Expr → Nat
  | .integer _ _ | .named _ => 1
  | .unary _ _ operand => 1 + operand.nesting
  | .binary _ _ left right => max left.nesting (1 + right.nesting)

/-- Every node keeps a token that it can be written with, and none is nested deeper than the
limit. -/
def Expr.Spelled (limit : Nat) : Expr → Prop
  | .integer x value =>
    x.Denotes value ∧ 0 ≤ value ∧ value ≤ maxInteger ∧ (Expr.integer x value).nesting ≤ limit
  | .named _ => False
  | .unary x operator operand =>
    x = ⟨.minus, "-"⟩ ∧ operator = "-" ∧ (Expr.unary x operator operand).nesting ≤ limit ∧
      operand.Spelled limit
  | .binary x operator left right =>
    x ∈ operatorTokens ∧ operator = x.literal ∧
      (Expr.binary x operator left right).nesting ≤ limit ∧
      left.Spelled limit ∧ right.Spelled limit

def Statement.Spelled (limit : Nat) : Statement → Prop
  | .letBinding x name value =>
    x = ⟨.letKeyword, "let"⟩ ∧ name.token = ⟨.identifier, name.text⟩ ∧ name.Plain ∧
      value.Spelled limit
  | .expression start value =>
    (start.kind = .integer ∨ start.kind = .minus ∨ start.kind = .leftParen) ∧ value.Spelled limit

def Program.Spelled (limit : Nat) (p : Program) : Prop :=
  ∀ found ∈ p, found.Spelled limit

theorem Expr.Spelled.plain {limit : Nat} {e : Expr} (h : e.Spelled limit) : e.Plain := by
  induction e with
  | integer x value => exact ⟨h.2.1, h.2.2.1⟩
  | named => exact h
  | unary x operator operand ih => exact ⟨h.2.1, ih h.2.2.2⟩
  | binary x operator left right first second =>
    obtain ⟨known, rfl, -, left, right⟩ := h
    have literals : ∀ x ∈ operatorTokens, x.literal ∈ operators := by decide
    exact ⟨literals x known, first left, second right⟩

theorem Expr.Spelled.nesting_le {limit : Nat} {e : Expr} (h : e.Spelled limit) :
    e.nesting ≤ limit := by
  cases e with
  | integer => exact h.2.2.2
  | named => exact h.elim
  | unary => exact h.2.2.1
  | binary => exact h.2.2.1

theorem Statement.Spelled.plain {limit : Nat} {found : Statement} (h : found.Spelled limit) :
    found.Plain := by
  cases found with
  | letBinding => exact ⟨h.2.2.1, h.2.2.2.plain⟩
  | expression => exact Expr.Spelled.plain h.2

/-! ## Literals -/

def fixedTokens : List Token :=
  .endOfInput :: ⟨.letKeyword, "let"⟩ ::
    markKinds.map fun mark => ⟨mark.2, String.singleton mark.1⟩

namespace Token.Scanned

variable {x : Token} (h : x.Scanned)
include h

theorem lexeme (more : x.kind ≠ .endOfInput) : Lexeme x :=
  lexeme_iff.2 ⟨h, more⟩

theorem eq_endOfInput (last : x.kind = .endOfInput) : x = .endOfInput := by
  cases h with
  | endOfInput => rfl
  | word => exact absurd last (word_kind_ne _)
  | integer => cases last
  | mark => exact absurd last (mark_kind_ne _)

theorem mem_fixedTokens (fixed : x.kind.isVaried = false) : x ∈ fixedTokens := by
  by_cases last : x.kind = .endOfInput
  · rw [h.eq_endOfInput last]
    exact .head _
  · cases h.lexeme last with
    | keyword => exact .tail _ (.head _)
    | mark known => exact .tail _ (.tail _ (List.mem_map.2 ⟨_, known, rfl⟩))
    | name | integer | illegal => cases fixed

theorem eq_of_kind {y : Token} (fixed : y ∈ fixedTokens) (kind : x.kind = y.kind) : x = y := by
  have plain : ∀ y ∈ fixedTokens, y.kind.isVaried = false := by decide
  have only : ∀ x ∈ fixedTokens, ∀ y ∈ fixedTokens, x.kind = y.kind → x = y := by decide
  exact only x (h.mem_fixedTokens (by rw [kind, plain y fixed])) y fixed kind

theorem mem_operatorTokens (operator : x.kind ∈ Parser.operatorKinds) : x ∈ operatorTokens := by
  have known : ∀ y ∈ operatorTokens, y ∈ fixedTokens := by decide
  have covered : ∀ kind ∈ Parser.operatorKinds, ∃ y ∈ operatorTokens, kind = y.kind := by decide
  obtain ⟨y, mem, kind⟩ := covered x.kind operator
  rwa [h.eq_of_kind (known y mem) kind]

theorem plain_of_identifier (kind : x.kind = .identifier) : Name.Plain ⟨x, x.literal⟩ := by
  have other : ∀ mark ∈ markKinds, mark.2 ≠ .identifier := by decide
  cases h.lexeme (by rw [kind]; decide) with
  | name nonempty alphabetic other => exact ⟨nonempty, List.all_eq_true.2 alphabetic, other⟩
  | keyword | integer | illegal => cases kind
  | mark known => exact absurd kind (other _ known)

end Token.Scanned

theorem Token.denotes_of_readNat? {x : Token} {value : Nat} (kind : x.kind = .integer)
    (read : readNat? x.literal.toList = some value) : x.Denotes value := by
  unfold readNat? at read
  split at read
  next numeral =>
    cases read
    exact ⟨kind, numeral.1, List.all_eq_true.1 numeral.2, rfl⟩
  next => cases read

/-! ## Trees -/

theorem Derives.spelled {level : Level} {ts : List Token} {e : Expr} {n : Nat}
    (h : Derives level ts e n) : (∀ x ∈ ts, x.Scanned) → ∀ limit, n ≤ limit → e.Spelled limit := by
  refine h.flat_induction ?integer ?negation ?group ?binary
  case integer =>
    intro x value kind read bound _ limit fits
    exact ⟨Token.denotes_of_readNat? kind read, Int.natCast_nonneg _, Int.ofNat_le.2 bound, fits⟩
  case negation =>
    intro x ts e n kind ih scanned limit fits
    obtain ⟨first, others⟩ := List.forall_mem_cons.1 scanned
    have token : x = ⟨.minus, "-"⟩ := first.eq_of_kind (by decide) kind
    have operand := (ih others n (Nat.le_refl n)).nesting_le
    exact ⟨token, by rw [token], (Nat.add_le_add_left operand 1).trans fits,
      ih others limit (by omega)⟩
  case group =>
    intro x y ts e n _ _ ih scanned limit fits
    obtain ⟨-, others⟩ := List.forall_mem_cons.1 scanned
    exact ih (List.forall_mem_append.1 others).1 limit (by omega)
  case binary =>
    intro front back x left right m n above first second scanned limit fits
    obtain ⟨before, others⟩ := List.forall_mem_append.1 scanned
    obtain ⟨operator, behind⟩ := List.forall_mem_cons.1 others
    have left_nested := (first before m (Nat.le_refl m)).nesting_le
    have right_nested := (second behind n (Nat.le_refl n)).nesting_le
    refine ⟨operator.mem_operatorTokens (Parser.lowest_lt_precedence_iff.1 above), rfl, ?_,
      first before limit (by omega), second behind limit (by omega)⟩
    simp only [Expr.nesting]
    omega

namespace Parser

variable {s : Parser} {limit : Nat}

theorem spelled_of_expression {p : Precedence} {e : Expr} (standard : s.rules = .standard)
    (scanned : s.FacesScanned) (space : s.limit ≤ s.depth + limit)
    (found : (s.expression p).1 = some e) : e.Spelled limit := by
  obtain ⟨j, ⟨n, derived, room⟩, -⟩ := exists_accepts standard found
  refine derived.spelled (fun x mem => ?_) limit (by omega)
  obtain ⟨i, there⟩ := List.getElem?_of_mem mem
  rw [upcoming_getElem?] at there
  split at there
  · cases there
    exact scanned i
  · cases there

theorem head_kind_of_expression {p : Precedence} {e : Expr} (standard : s.rules = .standard)
    (found : (s.expression p).1 = some e) :
    s.current.kind = .integer ∨ s.current.kind = .minus ∨ s.current.kind = .leftParen := by
  obtain ⟨j, ⟨n, derived, -⟩, -⟩ := exists_accepts standard found
  exact derived.head_kind s.current rfl

theorem spelled_of_statement {found : Statement} (standard : s.rules = .standard)
    (scanned : s.FacesScanned) (space : s.limit ≤ s.depth + limit)
    (h : s.statement.1 = some found) : found.Spelled limit := by
  obtain ⟨value, read, rfl⟩ | ⟨keyword, named, value, read, rfl⟩ := statement_cases standard h
  · exact ⟨head_kind_of_expression standard read,
      spelled_of_expression standard scanned space read⟩
  · have name : s.peek = ⟨.identifier, s.peek.literal⟩ := congrArg (Token.mk · _) named
    exact ⟨(scanned 0).eq_of_kind (by decide) keyword, name, (scanned 1).plain_of_identifier named,
      spelled_of_expression (s := s.advance.advance.advance) standard (scanned.leads (.moves 3 s))
        space read⟩

theorem spelled_of_program (standard : s.rules = .standard) (scanned : s.FacesScanned)
    (space : s.limit ≤ s.depth + limit) : Program.Spelled limit s.program.1 := by
  refine s.forall_mem_program ?_
  intro t found moved read
  exact spelled_of_statement (moved.rules_eq.trans standard) (scanned.leads moved)
    (by rwa [moved.limit_eq, moved.depth_eq]) read

theorem spelled_of_source (source : String) (limit : Nat) :
    Program.Spelled limit (ofSource source limit).program.1 :=
  spelled_of_program rfl (ofSource_facesScanned source limit)
    (Nat.le_of_eq (Nat.zero_add limit).symm)

end Parser

theorem plain_of_parse (source : String) (limit : Nat) : Program.Plain (parse source limit).1 :=
  fun found mem => (Parser.spelled_of_source source limit found mem).plain

/-- The nodes of every parsed program keep the tokens that they are written with, and none is nested
deeper than the limit. -/
theorem spelled_of_parse (source : String) (limit : Nat) :
    Program.Spelled limit (parse source limit).1 :=
  Parser.spelled_of_source source limit

end LetArith
