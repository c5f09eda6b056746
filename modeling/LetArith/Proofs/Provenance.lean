import LetArith.Proofs.Completeness
import Mathlib.Data.List.Flatten

/-!
Where the tokens of a tree come from. A statement that is read is derived from tokens in a row
(`statement_derived`), and the next one is read behind them, so the tokens of a text contain those
of its statements one behind the other (`contains_program`). A tree keeps the tokens that it is
derived from but for the parentheses (`Derives.withoutParentheses_eq`).
-/

namespace LetArith

/-! ## The tokens of a tree -/

def Kind.isParenthesis : Kind → Bool
  | .leftParen | .rightParen => true
  | _ => false

theorem Kind.isParenthesis_of_lt {p : Precedence} {kind : Kind} (h : p < kind.precedence) :
    kind.isParenthesis = false := by
  cases kind <;> first | exact absurd h p.not_lt_lowest | rfl

def withoutParentheses (ts : List Token) : List Token :=
  ts.filter fun x => !x.kind.isParenthesis

/-- The tokens that the nodes keep, in the order of the text. -/
def Expr.tokens : Expr → List Token
  | .integer x _ => [x]
  | .named name => [name.token]
  | .unary x _ operand => x :: operand.tokens
  | .binary x _ left right => left.tokens ++ x :: right.tokens

/-- A bare expression keeps its first token a second time, which is left out. -/
def Statement.tokens : Statement → List Token
  | .letBinding x name value => x :: name.token :: value.tokens
  | .expression _ value => value.tokens

@[simp] theorem withoutParentheses_nil : withoutParentheses [] = [] := rfl

@[simp] theorem withoutParentheses_append (front back : List Token) :
    withoutParentheses (front ++ back) = withoutParentheses front ++ withoutParentheses back :=
  List.filter_append front back

theorem withoutParentheses_cons {x : Token} (other : x.kind.isParenthesis = false)
    (ts : List Token) : withoutParentheses (x :: ts) = x :: withoutParentheses ts :=
  List.filter_cons_of_pos (by rw [other]; rfl)

theorem withoutParentheses_parenthesis {x : Token} (kind : x.kind.isParenthesis = true)
    (ts : List Token) : withoutParentheses (x :: ts) = withoutParentheses ts :=
  List.filter_cons_of_neg (by rw [kind]; decide)

theorem Derives.withoutParentheses_eq {level : Level} {ts : List Token} {e : Expr} {n : Nat}
    (h : Derives level ts e n) : withoutParentheses ts = e.tokens := by
  refine h.flat_induction ?integer ?negation ?group ?binary
  case integer =>
    intro x value kind _ _
    exact withoutParentheses_cons (by rw [kind]; rfl) []
  case negation =>
    intro x ts e n kind ih
    rw [withoutParentheses_cons (by rw [kind]; rfl), ih]
    rfl
  case group =>
    intro x y ts e n opening closing ih
    rw [withoutParentheses_parenthesis (by rw [opening]; rfl), withoutParentheses_append,
      withoutParentheses_parenthesis (by rw [closing]; rfl), withoutParentheses_nil,
      List.append_nil, ih]
  case binary =>
    intro front back x left right m n above first second
    rw [withoutParentheses_append, withoutParentheses_cons (Kind.isParenthesis_of_lt above), first,
      second]
    rfl

/-! ## One statement -/

theorem DerivesStatement.kind_ne_endOfInput {limit : Nat} {ts : List Token} {found : Statement}
    (h : DerivesStatement limit ts found) : ∀ x ∈ ts, x.kind ≠ .endOfInput := by
  cases h with
  | letBinding keyword named assign value =>
    simp only [List.forall_mem_cons, keyword, named, assign]
    exact ⟨nofun, nofun, nofun, value.kind_ne (by decide)⟩
  | expression value => exact value.kind_ne (by decide)

namespace Parser

variable {s : Parser} {limit : Nat} {found : Statement}

theorem statement_derived (standard : s.rules = .standard) (space : s.limit ≤ s.depth + limit)
    (read : s.statement.1 = some found) :
    ∃ count, DerivesStatement limit (upcoming count s) found ∧
      Leads (advance^[count] s) s.statement.2 := by
  replace read : s.statementBody.1 = some found := read
  by_cases keyword : s.current.kind = .letKeyword
  · rw [statementBody_of_keyword standard keyword] at read
    obtain ⟨named, assign, value, there, rfl⟩ := exists_of_letBinding read
    obtain ⟨j, accepts⟩ := exists_accepts (s := s.advance.advance.advance) standard there
    have body := letBinding_of_accepts standard named assign accepts
    rw [← statementBody_of_keyword standard keyword] at body
    obtain ⟨⟨n, derived, room⟩, -⟩ := accepts
    refine ⟨j + 4, .letBinding keyword named assign derived ?_, ?_⟩
    · simp only [advance_depth, advance_limit] at room
      omega
    · rw [statement_of_success body]
      have behind := (skipTail_leads (advance^[j] s.advance.advance.advance)).advanced
      rwa [advance_iterate_advance] at behind
  · rw [statementBody_of_expression standard keyword] at read
    obtain ⟨value, there, rfl⟩ := Option.map_eq_some_iff.1 read
    obtain ⟨j, accepts⟩ := exists_accepts standard there
    have value_eq := accepts.expression_eq standard
    obtain ⟨⟨n, derived, room⟩, -⟩ := accepts
    have body : s.statementBody = (some (.expression s.current value), advance^[j] s) := by
      rw [statementBody_of_expression standard keyword, value_eq]
      rfl
    refine ⟨j + 1, .expression derived (by omega), ?_⟩
    rw [statement_of_success body, advance_iterate_advance]
    exact .refl _

end Parser

/-! ## Whole programs -/

def Statement.headerLength : Statement → Nat
  | .letBinding .. => 3
  | .expression .. => 0

/-- A statement with the tokens that it is derived from, and those that were passed over before
them. -/
structure Excerpt (limit : Nat) where
  before : List Token
  tokens : List Token
  found : Statement
  derived : DerivesStatement limit tokens found

namespace Excerpt

variable {limit : Nat}

def header (excerpt : Excerpt limit) : List Token :=
  excerpt.tokens.take excerpt.found.headerLength

def block (excerpt : Excerpt limit) : List Token :=
  excerpt.tokens.drop excerpt.found.headerLength

def stream (excerpt : Excerpt limit) : List Token :=
  excerpt.before ++ (excerpt.header ++ excerpt.block)

theorem header_append_block (excerpt : Excerpt limit) :
    excerpt.header ++ excerpt.block = excerpt.tokens :=
  List.take_append_drop _ _

theorem block_derived (excerpt : Excerpt limit) :
    ∃ n ≤ limit, Derives .sum excerpt.block excerpt.found.value n := by
  obtain ⟨before, tokens, found, derived⟩ := excerpt
  cases derived with
  | letBinding _ _ _ value fits => exact ⟨_, fits, value⟩
  | expression value fits => exact ⟨_, fits, value⟩

theorem withoutParentheses_block (excerpt : Excerpt limit) :
    withoutParentheses excerpt.block = excerpt.found.value.tokens := by
  obtain ⟨n, -, derived⟩ := excerpt.block_derived
  exact derived.withoutParentheses_eq

theorem head?_block (excerpt : Excerpt limit) {start : Token} {value : Expr}
    (bare : excerpt.found = .expression start value) : excerpt.block.head? = some start := by
  obtain ⟨before, tokens, found, derived⟩ := excerpt
  cases derived with
  | letBinding => cases bare
  | expression =>
    cases bare
    rfl

theorem tokens_sublist (excerpt : Excerpt limit) :
    excerpt.found.tokens.Sublist excerpt.stream := by
  have value : excerpt.found.value.tokens.Sublist excerpt.block :=
    excerpt.withoutParentheses_block ▸ List.filter_sublist
  refine List.Sublist.trans ?_ (List.sublist_append_right excerpt.before _)
  obtain ⟨before, tokens, found, derived⟩ := excerpt
  cases derived with
  | letBinding => exact ((value.cons _).cons_cons _).cons_cons _
  | expression => exact value

end Excerpt

def Contains (limit : Nat) (ts : List Token) (p : Program) : Prop :=
  ∃ (excerpts : List (Excerpt limit)) (rest : List Token),
    ts = excerpts.flatMap Excerpt.stream ++ rest ∧ p = excerpts.map Excerpt.found

namespace Contains

variable {limit : Nat} {ts : List Token} {p : Program}

theorem nil (ts : List Token) : Contains limit ts [] :=
  ⟨[], ts, rfl, rfl⟩

theorem skip (front : List Token) (h : Contains limit ts p) : Contains limit (front ++ ts) p := by
  obtain ⟨excerpts, rest, rfl, rfl⟩ := h
  cases excerpts with
  | nil => exact nil _
  | cons excerpt excerpts =>
    refine ⟨{ excerpt with before := front ++ excerpt.before } :: excerpts, rest, ?_, rfl⟩
    simp [Excerpt.stream, Excerpt.header, Excerpt.block]

theorem cons {tokens : List Token} {found : Statement}
    (derived : DerivesStatement limit tokens found) (h : Contains limit ts p) :
    Contains limit (tokens ++ ts) (found :: p) := by
  obtain ⟨excerpts, rest, rfl, rfl⟩ := h
  refine ⟨⟨[], tokens, found, derived⟩ :: excerpts, rest, ?_, rfl⟩
  rw [List.flatMap_cons, Excerpt.stream, Excerpt.header_append_block, List.nil_append,
    List.append_assoc]

end Contains

theorem Parser.contains_program {s : Parser} {limit : Nat} {ts : List Token} (faces : s.Faces ts)
    (standard : s.rules = .standard) (space : s.limit ≤ s.depth + limit) :
    Contains limit ts s.program.1 := by
  induction s using program_induction generalizing ts with
  | last s done =>
    rw [program_of_end done]
    exact .nil ts
  | step s more ih =>
    have moved := s.statement_leads
    have others {ts : List Token} (there : s.statement.2.Faces ts) :
        Contains limit ts s.statement.2.program.1 :=
      ih there (moved.rules_eq.trans standard) (by rwa [moved.limit_eq, moved.depth_eq])
    rw [program_of_statement more]
    cases read : s.statement.1 with
    | none =>
      -- what a failed statement has passed stands before the next one that is read
      obtain ⟨n, there⟩ := faces.leads moved
      have behind := (others there).skip (ts.take n)
      rwa [List.take_append_drop] at behind
    | some found =>
      obtain ⟨count, derived, behind⟩ := statement_derived standard space read
      obtain ⟨back, rfl, after⟩ := faces.exists_append derived.kind_ne_endOfInput
      obtain ⟨n, there⟩ := after.leads behind
      have rest := (others there).skip (back.take n)
      rw [List.take_append_drop] at rest
      exact .cons derived rest

/-- The tokens of a parsed program are tokens of the text, each at most once and in order. Those of
the value of a statement are a block of the text without its parentheses. The blocks follow each
other as the statements do, and a bare expression starts with the first token of its block. -/
theorem tokens_of_parse (source : String) (limit : Nat) :
    ((parse source limit).1.flatMap Statement.tokens).Sublist (tokenize source) ∧
    ∃ (excerpts : List (Excerpt limit)) (rest : List Token),
      tokenize source = excerpts.flatMap Excerpt.stream ++ rest ∧
      (parse source limit).1 = excerpts.map Excerpt.found ∧
      ∀ excerpt ∈ excerpts,
        withoutParentheses excerpt.block = excerpt.found.value.tokens ∧
        ∀ start value, excerpt.found = .expression start value →
          excerpt.block.head? = some start := by
  have contains : Contains limit (lexemes source.toList) (parse source limit).1 :=
    Parser.contains_program (Parser.ofSource_faces source limit) rfl
      (Nat.le_of_eq (Nat.zero_add limit).symm)
  obtain ⟨excerpts, rest, same, program⟩ := contains
  have tokens : tokenize source = excerpts.flatMap Excerpt.stream ++ (rest ++ [.endOfInput]) := by
    rw [tokenize, tokens_eq, same, List.append_assoc]
  refine ⟨?_, excerpts, _, tokens, program, fun excerpt _ => ?_⟩
  · rw [tokens, program, List.flatMap_map]
    exact (List.Sublist.flatMap_right excerpts fun excerpt _ => excerpt.tokens_sublist).trans
      (List.sublist_append_left _ _)
  · exact ⟨excerpt.withoutParentheses_block, fun _ _ bare => excerpt.head?_block bare⟩

end LetArith
