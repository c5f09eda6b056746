import LetArith.Proofs.WellFormed
import LetArith.Tree.Render

/-!
The canonical text of an expression, read back. Its tokens are an operand, whose tree is the
expression with its tokens replaced by those of the text (`derives_respelled`). Parentheses cost
nesting that the expression alone does not, and `textNesting` counts it exactly: with that limit the
text is read (`program_of_text_fits`), and with less it runs out of room and reports nothing else
(`program_of_text_short`).
-/

namespace LetArith
open Text

def Token.ofText (text : String) : Token :=
  (scan text.toList).1

namespace Expr

/-- How deep the readings of the canonical text are nested. -/
def textNesting : Expr → Nat
  | .integer _ _ | .named _ => 1
  | .unary _ _ operand => 1 + operand.textNesting
  | .binary _ _ left right => 1 + max left.textNesting (1 + right.textNesting)

/-- The tree with the tokens of its canonical text. -/
def respelled : Expr → Expr
  | .integer _ value => .integer (.ofText (writeInt value)) value
  | .named name => .named name
  | .unary _ operator operand => .unary (.ofText operator) operator operand.respelled
  | .binary _ operator left right =>
    .binary (.ofText operator) operator left.respelled right.respelled

@[simp] theorem text_respelled (e : Expr) : e.respelled.text = e.text := by
  induction e with
  | integer | named => rfl
  | unary _ _ _ ih => simp only [respelled, text, ih]
  | binary _ _ _ _ left right => simp only [respelled, text, left, right]

@[simp] theorem outline_respelled (e : Expr) : e.respelled.outline = e.outline := by
  induction e with
  | integer | named => rfl
  | unary _ _ _ ih => simp only [respelled, outline, ih]
  | binary _ _ _ _ left right => simp only [respelled, outline, left, right]

end Expr

/-! ## The tokens of the canonical text -/

theorem ofText_of_lexemes {text : String} {x : Token} {ts : List Token}
    (h : lexemes text.toList = x :: ts) : Token.ofText text = x := by
  by_cases more : (scan text.toList).1.kind = .endOfInput
  · rw [lexemes_of_end more] at h
    cases h
  · rw [lexemes_of_scan more] at h
    exact (List.cons.inj h).1

theorem exists_mark_of_mem_operators {operator : String} (h : operator ∈ operators) :
    ∃ c, operator.toList = [c] ∧ isBlank c = false ∧ isLetter c = false ∧ c.isDigit = false ∧
      Token.ofText operator = .mark c := by
  simp only [operators, List.mem_cons, List.not_mem_nil, or_false] at h
  rcases h with rfl | rfl | rfl | rfl
  · exact ⟨'+', by decide⟩
  · exact ⟨'-', by decide⟩
  · exact ⟨'*', by decide⟩
  · exact ⟨'/', by decide⟩

theorem ofText_operator {operator : String} (h : operator ∈ operators) :
    (Token.ofText operator).literal = operator ∧
      (Token.ofText operator).kind ∈ Parser.operatorKinds := by
  simp only [operators, List.mem_cons, List.not_mem_nil, or_false] at h
  rcases h with rfl | rfl | rfl | rfl <;> decide

theorem lexemes_writeInt (n : Nat) :
    lexemes (writeInt n).toList = [.integer n.repr.toList] :=
  lexemes_integer (repr_toList_ne_nil n) isDigit_of_mem_repr

theorem lexemes_unary (x : Token) (operand : Expr) :
    lexemes (Expr.unary x "-" operand).text.toList =
      .ofText "-" :: lexemes operand.text.toList := by
  rw [Expr.text, String.toList_append]
  exact lexemes_mark (by decide) (by decide) (by decide) _

theorem lexemes_binary (x : Token) {operator : String} (left right : Expr)
    (h : operator ∈ operators) :
    lexemes (Expr.binary x operator left right).text.toList =
      Token.ofText "(" :: (lexemes left.text.toList ++
        Token.ofText operator :: lexemes right.text.toList ++ [Token.ofText ")"]) := by
  obtain ⟨c, chars, blank, letter, digit, token⟩ := exists_mark_of_mem_operators h
  have text : (Expr.binary x operator left right).text.toList =
      '(' :: (left.text.toList ++ ' ' :: c :: ' ' :: (right.text.toList ++ [')'])) := by
    simp [Expr.text, chars]
  have space (rest : List Char) : lexemes (' ' :: rest) = lexemes rest :=
    lexemes_blank (by decide) rest
  rw [text, lexemes_mark (by decide) (by decide) (by decide),
    lexemes_append (.of_head (by decide) (by decide)), space,
    lexemes_mark blank letter digit, space,
    lexemes_append (.of_head (by decide) (by decide)), ← token,
    lexemes_mark (by decide) (by decide) (by decide), lexemes_nil]
  simp
  exact ⟨rfl, rfl⟩

/-! ## What the tokens derive -/

theorem Derives.binary {front back : List Token} {x : Token} {left right : Expr} {m n : Nat}
    (first : Derives .operand front left m) (kind : x.kind ∈ Parser.operatorKinds)
    (second : Derives .operand back right n) :
    Derives .sum (front ++ x :: back) (.binary x x.literal left right) (max m (1 + n)) := by
  simp only [Parser.operatorKinds, List.mem_cons, List.not_mem_nil, or_false] at kind
  rcases kind with kind | kind | kind | kind
  · exact .sum first.factor.term (.inl kind) second.factor
  · exact .sum first.factor.term (.inr kind) second.factor
  · exact .term (.product first.factor (.inl kind) second)
  · exact .term (.product first.factor (.inr kind) second)

theorem derives_respelled {e : Expr} (plain : e.Plain) :
    Derives .operand (lexemes e.text.toList) e.respelled e.textNesting := by
  induction e with
  | integer x value =>
    obtain ⟨n, rfl⟩ := Int.eq_ofNat_of_zero_le plain.1
    have token := lexemes_writeInt n
    rw [Expr.text, token, Expr.respelled, ofText_of_lexemes token]
    refine .integer rfl ?_ (Int.ofNat_le.1 plain.2)
    rw [Token.integer, String.toList_ofList, readNat?_repr]
  | named name => exact plain.elim
  | unary x operator operand ih =>
    obtain ⟨rfl, plain⟩ := plain
    rw [lexemes_unary]
    exact .negation (by decide) (ih plain)
  | binary x operator left right first second =>
    obtain ⟨known, left, right⟩ := plain
    obtain ⟨literal, kind⟩ := ofText_operator known
    have inner := (first left).binary kind (second right)
    rw [literal] at inner
    rw [lexemes_binary x _ _ known]
    exact .group (by decide) inner (by decide)

/-! ## Reading with too little room -/

namespace Parser

/-- The reading of a goal comes to the limit, and this is all that it reports. -/
def RunsOut (goal : Goal) (s : Parser) : Prop :=
  ∃ t, Reads goal s none t ∧ t.diagnostics = s.diagnostics ++ [.nestingTooDeep s.limit]

theorem RunsOut.expression {s : Parser} (p : Precedence)
    (operand : s.depth < s.limit → RunsOut .operand s.enter) : RunsOut (.expression p) s := by
  by_cases room : s.depth < s.limit
  · obtain ⟨t, reads, reported⟩ := operand room
    exact ⟨t.leave, .nestedFailed room reads, reported⟩
  · exact ⟨_, .refused room, rfl⟩

theorem RunsOut.operators {level : Level} {vs ts : List Token} {x y : Token} {e : Expr} {n : Nat}
    {s : Parser} {p : Precedence} (faces : s.Faces (x :: vs ++ y :: ts))
    (standard : s.rules = .standard) (first : Derives level (x :: vs) e n)
    (room : s.depth + n ≤ s.limit) (admits : p.Admits level) (stops : level.StopsAt y.kind)
    (tighter : p < y.kind.precedence)
    (second : ∀ t : Parser, t.Faces ts → t.rules = .standard → t.depth = s.depth + 1 →
      t.limit = s.limit → RunsOut (.expression y.kind.precedence) t) :
    RunsOut (.expression p) s := by
  have positive := first.nesting_pos
  have inside := faces.enter
  have there : (advance^[vs.length + 1] s.enter).Faces (y :: ts) :=
    inside.moves (x :: vs)
  have next : (advance^[vs.length] s.enter).peek = y := by
    rw [iterate_advance_peek]
    exact there.current_eq
  obtain ⟨u, inner, reported⟩ := second (advance^[vs.length] s.enter).advance.advance
    (by rw [advance_iterate_advance]; exact there.advance) (by simpa using standard)
    (by simp) (by simp)
  have stuck : Reads (.operators p e) (advance^[vs.length] s.enter) none u := by
    apply Reads.joinFailed _ (by rwa [next])
    rwa [takesOperator_iff (by simpa using standard), next]
  obtain ⟨left, t, operand, others⟩ := passes_of_derives first inside.upcoming_eq standard
    (by simp only [enter_depth, enter_limit]; omega) admits
    (by rw [← iterate_advance_peek, next]; exact stops) stuck
  refine ⟨u.leave, .nested (by omega) operand others, ?_⟩
  simpa using reported

theorem runsOut_of_text {e : Expr} (plain : e.Plain) (p : Precedence) {s : Parser}
    {rest : List Token} (faces : s.Faces (lexemes e.text.toList ++ rest))
    (standard : s.rules = .standard) (short : s.limit < s.depth + e.textNesting) :
    RunsOut (.expression p) s := by
  induction e generalizing p s rest with
  | integer x value =>
    rw [Expr.textNesting] at short
    exact .expression p fun room => absurd room (by omega)
  | named name => exact plain.elim
  | unary x operator operand ih =>
    obtain ⟨rfl, plain⟩ := plain
    rw [lexemes_unary] at faces
    rw [Expr.textNesting] at short
    apply RunsOut.expression
    intro _
    obtain ⟨t, reads, reported⟩ := ih plain .unary faces.enter.advance standard
      (by simp only [advance_depth, advance_limit, enter_depth, enter_limit]; omega)
    refine ⟨t, .unary ?_ reads, reported⟩
    rw [enter_rules, standard, faces.enter.current_eq]
    decide
  | binary x operator left right first second =>
    obtain ⟨known, left_plain, right_plain⟩ := plain
    obtain ⟨-, kind⟩ := ofText_operator known
    rw [lexemes_binary x _ _ known] at faces
    simp only [List.cons_append, List.append_assoc] at faces
    rw [Expr.textNesting] at short
    apply RunsOut.expression
    intro _
    have inside := faces.enter.advance
    -- the left operand is read where the parentheses are, the right one a level deeper
    have inner : RunsOut (.expression .lowest) s.enter.advance := by
      by_cases fits : s.depth + 1 + left.textNesting ≤ s.limit
      · have derived := derives_respelled left_plain
        obtain ⟨y, vs, split⟩ := List.exists_cons_of_ne_nil derived.ne_nil
        rw [split] at derived inside
        refine .operators inside standard derived fits trivial nofun
          (lowest_lt_precedence_iff.2 kind) fun t there standard' depth limit => ?_
        exact second right_plain _ there standard' (by
          rw [depth, limit, advance_depth, advance_limit, enter_depth, enter_limit]
          omega)
      · exact first left_plain .lowest inside standard
          (by simp only [advance_depth, advance_limit, enter_depth, enter_limit]; omega)
    obtain ⟨t, reads, reported⟩ := inner
    refine ⟨t, .groupFailed ?_ reads, reported⟩
    rw [enter_rules, standard, faces.enter.current_eq]
    decide

end Parser

/-! ## The text of one expression as a program -/

theorem program_of_text_fits {e : Expr} (plain : e.Plain) {limit : Nat}
    (fits : e.textNesting ≤ limit) :
    ∃ start, (parse e.text limit).1 = [.expression start e.respelled] ∧
      (parse e.text limit).2.diagnostics = [] := by
  have derived := (derives_respelled plain).factor.term
  obtain ⟨x, vs, split⟩ := List.exists_cons_of_ne_nil derived.ne_nil
  rw [split] at derived
  exact ⟨x, Parser.parse_of_derives derived split fits⟩

theorem program_of_text_short {e : Expr} (plain : e.Plain) {limit : Nat}
    (short : limit < e.textNesting) :
    (parse e.text limit).1 = [] ∧
      (parse e.text limit).2.diagnostics = [.nestingTooDeep limit] := by
  have derived := derives_respelled plain
  have faces := Parser.ofSource_faces e.text limit
  rw [← List.append_nil (lexemes e.text.toList)] at faces
  obtain ⟨t, reads, reported⟩ := Parser.runsOut_of_text plain .lowest faces rfl
    (show limit < 0 + e.textNesting by omega)
  -- the recovery skips the rest of the text, in which no semicolon stands
  obtain ⟨n, left⟩ := faces.leads reads.leads
  obtain ⟨done, silent⟩ := left.skip (by
    intro x mem
    have mem : x ∈ lexemes e.text.toList := by simpa using List.mem_of_mem_drop mem
    exact ⟨derived.kind_ne (by decide) x mem, derived.kind_ne (by decide) x mem⟩)
  obtain ⟨x, vs, split⟩ := List.exists_cons_of_ne_nil derived.ne_nil
  rw [split] at derived faces
  have body : (Parser.ofSource e.text limit).statementBody = (none, t) := by
    rw [Parser.statementBody_of_expression rfl
      (Parser.current_kind_ne faces derived (by decide)), reads.expression_eq]
    rfl
  have failed := Parser.statement_of_report body (by rw [reported]; simp)
  rw [parse, Parser.program_of_statement (Parser.current_kind_ne faces derived (by decide)),
    failed, Parser.program_of_faces_nil done.advance_nil]
  exact ⟨rfl, silent.trans reported⟩

/-- The text of an expression is read back where the limit has room for its parentheses. With less
room the program is empty, and the limit is all that is reported. -/
theorem parse_text {e : Expr} (plain : e.Plain) (limit : Nat) :
    (e.textNesting ≤ limit → ∃ start f, (parse e.text limit).1 = [.expression start f] ∧
      f.outline = e.outline ∧ (parse e.text limit).2.diagnostics = []) ∧
    (limit < e.textNesting → (parse e.text limit).1 = [] ∧
      (parse e.text limit).2.diagnostics = [.nestingTooDeep limit]) := by
  refine ⟨?_, program_of_text_short plain⟩
  intro fits
  obtain ⟨start, found, silent⟩ := program_of_text_fits plain fits
  exact ⟨start, e.respelled, found, e.outline_respelled, silent⟩

theorem parse_text_sum :
    (∃ start f, (parse "(1 + 2)" 3).1 = [.expression start f] ∧
      f.outline = "Infix(+, Integer(1), Integer(2))" ∧ (parse "(1 + 2)" 3).2.diagnostics = []) ∧
    (parse "(1 + 2)" 2).1 = [] ∧ (parse "(1 + 2)" 2).2.diagnostics = [.nestingTooDeep 2] := by
  have plain : (Expr.binary (.mark '+') "+" (.integer (.integer ['1']) 1)
      (.integer (.integer ['2']) 2)).Plain := by
    decide
  exact ⟨(parse_text plain 3).1 (by decide), (parse_text plain 2).2 (by decide)⟩

end LetArith
