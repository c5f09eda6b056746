import LetArith.Proofs.Statements
import Mathlib.Data.List.Chain

/-!
Well-formed programs are parsed. A program is written as lines, each a statement with the semicolons
behind it, and lines that stay apart are a layout of their statements (`layout_of_lines`).
-/

namespace LetArith

inductive DerivesStatement (limit : Nat) : List Token → Statement → Prop where
  | letBinding {l name a : Token} {ts : List Token} {e : Expr} {n : Nat}
      (keyword : l.kind = .letKeyword) (named : name.kind = .identifier) (assign : a.kind = .assign)
      (value : Derives .sum ts e n) (fits : n ≤ limit) :
      DerivesStatement limit (l :: name :: a :: ts) (.letBinding l ⟨name, name.literal⟩ e)
  | expression {x : Token} {ts : List Token} {e : Expr} {n : Nat}
      (value : Derives .sum (x :: ts) e n) (fits : n ≤ limit) :
      DerivesStatement limit (x :: ts) (.expression x e)

theorem DerivesStatement.limit_pos {limit : Nat} {ts : List Token} {found : Statement}
    (h : DerivesStatement limit ts found) : 0 < limit := by
  cases h with
  | letBinding _ _ _ value fits => exact Nat.lt_of_lt_of_le value.nesting_pos fits
  | expression value fits => exact Nat.lt_of_lt_of_le value.nesting_pos fits

theorem DerivesStatement.ne_nil {limit : Nat} {ts : List Token} {found : Statement}
    (h : DerivesStatement limit ts found) : ts ≠ [] := by
  cases h <;> exact List.cons_ne_nil _ _

structure Line (limit : Nat) where
  tokens : List Token
  found : Statement
  semicolons : List Token
  derived : DerivesStatement limit tokens found
  kind_eq : ∀ x ∈ semicolons, x.kind = .semicolon

namespace Line

variable {limit : Nat}

def stream (line : Line limit) : List Token :=
  line.tokens ++ line.semicolons

/-- Without a semicolon between them, only a bare expression is apart from what follows, and only if
that does not go on with it as a subtraction. -/
def Apart (line next : Line limit) : Prop :=
  line.semicolons = [] →
    (∃ x e, line.found = .expression x e) ∧ ∀ y ∈ next.tokens.head?, y.kind ≠ .minus

theorem head?_stream (line : Line limit) (ts : List Token) :
    (line.stream ++ ts).head? = line.tokens.head? := by
  rw [stream, List.append_assoc, List.head?_append_of_ne_nil _ line.derived.ne_nil]

theorem layout_semicolons {semicolons ts : List Token} {p : Program} (positive : 0 < limit)
    (kind_eq : ∀ x ∈ semicolons, x.kind = .semicolon) (others : Parser.Layout limit [] ts p) :
    Parser.Layout limit [] (semicolons ++ ts) p := by
  induction semicolons with
  | nil => exact others
  | cons x semicolons ih =>
    obtain ⟨kind, rest⟩ := List.forall_mem_cons.1 kind_eq
    exact .semicolon kind positive (ih rest)

theorem layout {tokens ts : List Token} {found : Statement} {p : Program}
    (derived : DerivesStatement limit tokens found)
    (binding : (∀ x e, found ≠ .expression x e) → ∀ y ∈ ts.head?, y.kind = .semicolon)
    (bare : ∀ y ∈ ts.head?, y.kind ≠ .minus) (others : Parser.Layout limit [] ts p) :
    Parser.Layout limit [] (tokens ++ ts) (found :: p) := by
  cases derived with
  | letBinding keyword named assign value fits =>
    exact .letBinding keyword named assign value fits (binding nofun) others
  | expression value fits => exact .expression value fits bare others

theorem layout_of_lines {lines : List (Line limit)} (apart : lines.IsChain Apart) :
    Parser.Layout limit [] (lines.flatMap stream) (lines.map found) := by
  induction lines with
  | nil => exact .nil
  | cons line lines ih =>
    have others := layout_semicolons line.derived.limit_pos line.kind_eq (ih apart.tail)
    rw [List.flatMap_cons, stream, List.append_assoc, List.map_cons]
    cases behind : line.semicolons with
    | cons x semicolons =>
      have kind := line.kind_eq x (by simp [behind])
      rw [behind] at others
      apply layout line.derived _ _ others
      · rintro - y ⟨⟩
        exact kind
      · rintro y ⟨⟩
        rw [kind]
        decide
    | nil =>
      rw [behind] at others
      cases lines with
      | nil => exact layout line.derived (fun _ => nofun) nofun others
      | cons next lines =>
        obtain ⟨⟨x, e, expression⟩, starts⟩ := (List.isChain_cons_cons.1 apart).1 behind
        apply layout line.derived _ _ others
        · exact fun binding => absurd expression (binding x e)
        · rwa [List.nil_append, List.flatMap_cons, head?_stream]

end Line

/-- A program that is written as lines which stay apart is parsed as its statements, in silence. -/
theorem parse_lines (source : String) (limit : Nat) (lines : List (Line limit))
    (apart : lines.IsChain Line.Apart)
    (tokens : tokenize source = lines.flatMap Line.stream ++ [.endOfInput]) :
    (parse source limit).1 = lines.map Line.found ∧ (parse source limit).2.diagnostics = [] := by
  have same : lexemes source.toList = lines.flatMap Line.stream := by
    rw [tokenize, tokens_eq] at tokens
    exact List.append_cancel_right tokens
  have layout := Line.layout_of_lines apart
  rw [← same] at layout
  exact layout.parse_eq

theorem parse_lines_adjacent :
    (parse "let x = 1;\n2 3" 1).1 =
        [.letBinding (.word ['l', 'e', 't']) ⟨.word ['x'], "x"⟩ (.integer (.integer ['1']) 1),
          .expression (.integer ['2']) (.integer (.integer ['2']) 2),
          .expression (.integer ['3']) (.integer (.integer ['3']) 3)] ∧
      (parse "let x = 1;\n2 3" 1).2.diagnostics = [] := by
  have integer (value : Nat) (x : Token) (kind : x.kind = .integer)
      (found : Text.readNat? x.literal.toList = some value) (bound : value ≤ maxInteger) :
      Derives .sum [x] (.integer x value) 1 :=
    (Derives.integer kind found bound).factor.term
  have one := integer 1 (.integer ['1']) rfl (by decide) (by decide)
  have two := integer 2 (.integer ['2']) rfl (by decide) (by decide)
  have three := integer 3 (.integer ['3']) rfl (by decide) (by decide)
  have named : (Token.word ['x']).kind = .identifier := by decide
  have binding := DerivesStatement.letBinding (l := .word ['l', 'e', 't']) (a := .mark '=')
    (by decide) named (by decide) one (Nat.le_refl 1)
  have tokens : lexemes "let x = 1;\n2 3".toList = [.word ['l', 'e', 't'], .word ['x'], .mark '=',
      .integer ['1'], .mark ';', .integer ['2'], .integer ['3']] := by
    rw [lexemes_of_scan (by decide), lexemes_of_scan (by decide), lexemes_of_scan (by decide),
      lexemes_of_scan (by decide), lexemes_of_scan (by decide), lexemes_of_scan (by decide),
      lexemes_of_scan (by decide), lexemes_of_end (by decide)]
    decide
  refine parse_lines "let x = 1;\n2 3" 1 [⟨_, _, [.mark ';'], binding, by decide⟩,
    ⟨_, _, [], .expression two (Nat.le_refl 1), nofun⟩,
    ⟨_, _, [], .expression three (Nat.le_refl 1), nofun⟩] ?_ ?_
  · refine .cons_cons nofun (.cons_cons (fun _ => ⟨⟨_, _, rfl⟩, ?_⟩) (.singleton _))
    rintro y ⟨⟩
    decide
  · rw [tokenize, tokens_eq, tokens]
    rfl

end LetArith
