import LetArith.Proofs.CanonicalText
import LetArith.Proofs.Merging

/-!
The canonical text of a program, read back. Statements are taken from the front, with an expression
that is still being read before them: the next statement either lets it end or goes on with it as a
subtraction (`Resumes`). If the limit has room for every expression, the tokens are a layout of the
merged program, and otherwise the limit is reported (`rereads`).
-/

namespace LetArith
open Text

@[simp] theorem Expr.erased_respelled (e : Expr) : e.respelled.erased = e.erased := by
  induction e with
  | integer | named => rfl
  | unary _ _ _ ih => simp only [respelled, erased, ih]
  | binary _ _ _ _ left right => simp only [respelled, erased, left, right]

namespace Statement

def respelled : Statement → Statement
  | .letBinding _ name value =>
    .letBinding (.ofText "let") ⟨.ofText name.text, name.text⟩ value.respelled
  | .expression _ value => .expression (.ofText value.text) value.respelled

@[simp] theorem text_respelled (found : Statement) : found.respelled.text = found.text := by
  cases found <;> simp [respelled, text]

@[simp] theorem erased_respelled (found : Statement) : found.respelled.erased = found.erased := by
  cases found <;> simp [respelled, erased]

end Statement

/-- The limit has room for every expression of the program, written with all its parentheses. -/
def Program.Fits (limit : Nat) (p : Program) : Prop :=
  ∀ found ∈ p, found.value.textNesting ≤ limit

instance (limit : Nat) (p : Program) : Decidable (p.Fits limit) :=
  inferInstanceAs (Decidable (∀ found ∈ p, found.value.textNesting ≤ limit))

/-! ## The tokens of the canonical text -/

theorem lexemes_program (found : Statement) (rest : Program) :
    lexemes (Program.text (found :: rest)).toList =
      lexemes found.text.toList ++ lexemes (Program.text rest).toList := by
  have text : (Program.text (found :: rest)).toList =
      found.text.toList ++ '\n' :: (Program.text rest).toList := by
    simp [Program.text, lines]
  rw [text, lexemes_append (.of_head (by decide) (by decide)), lexemes_blank (by decide)]

theorem lexemes_program_nil : lexemes (Program.text []).toList = [] := by
  simp [Program.text, lines]

theorem ofText_name {name : Name} (plain : name.Plain) :
    (Token.ofText name.text).kind = .identifier ∧ (Token.ofText name.text).literal = name.text := by
  obtain ⟨nonempty, letters, other⟩ := plain
  rw [ofText_of_lexemes (lexemes_word nonempty (List.all_eq_true.1 letters)), Token.word,
    String.ofList_toList]
  exact ⟨if_neg other, rfl⟩

theorem lexemes_letBinding (x : Token) {name : Name} (plain : name.Plain) (value : Expr) :
    lexemes (Statement.letBinding x name value).text.toList =
      Token.ofText "let" :: Token.ofText name.text :: Token.ofText "=" ::
        (lexemes value.text.toList ++ [Token.ofText ";"]) := by
  obtain ⟨nonempty, letters, -⟩ := plain
  have text : (Statement.letBinding x name value).text.toList =
      ['l', 'e', 't'] ++ ' ' :: (name.text.toList ++ ' ' :: '=' :: ' ' ::
        (value.text.toList ++ [';'])) := by
    simp [Statement.text]
  have space (rest : List Char) : lexemes (' ' :: rest) = lexemes rest :=
    lexemes_blank (by decide) rest
  have word := lexemes_word nonempty (List.all_eq_true.1 letters)
  have keyword : lexemes ['l', 'e', 't'] = [.ofText "let"] :=
    lexemes_word (by decide) (List.all_eq_true.1 (by decide))
  rw [text, lexemes_append (.of_head (by decide) (by decide)), keyword, space,
    lexemes_append (.of_head (by decide) (by decide)), word, ofText_of_lexemes word, space,
    lexemes_mark (by decide) (by decide) (by decide), space,
    lexemes_append (.of_head (by decide) (by decide)),
    lexemes_mark (by decide) (by decide) (by decide), lexemes_nil]
  rfl

theorem exists_lexemes_expression {e : Expr} (plain : e.Plain) :
    ∃ vs, lexemes e.text.toList = .ofText e.text :: vs ∧
      Derives .sum (.ofText e.text :: vs) e.respelled e.textNesting := by
  have derived := (derives_respelled plain).factor.term
  obtain ⟨x, vs, split⟩ := List.exists_cons_of_ne_nil derived.ne_nil
  rw [ofText_of_lexemes split]
  exact ⟨vs, split, split ▸ derived⟩

/-! ## Programs that do not fit -/

namespace Parser

variable {room : Nat} {x : Token} {vs ts : List Token} {e : Expr} {n : Nat}

theorem overruns_of_expression {level : Level} (derived : Derives level (x :: vs) e n)
    (short : ∀ s : Parser, s.Faces (x :: vs ++ ts) → s.rules = .standard →
      s.limit = s.depth + room → RunsOut (.expression .lowest) s) :
    Overruns room (x :: vs ++ ts) := by
  intro s faces standard space
  obtain ⟨t, reads, reported⟩ := short s faces standard space
  apply program_of_report (current_kind_ne faces derived (by decide))
  rw [statementBody_of_expression standard (current_kind_ne faces derived (by decide)),
    reads.expression_eq, reported]
  simp

theorem overruns_of_letBinding {l name a : Token} (keyword : l.kind = .letKeyword)
    (named : name.kind = .identifier) (assign : a.kind = .assign)
    (short : ∀ s : Parser, s.Faces ts → s.rules = .standard → s.limit = s.depth + room →
      RunsOut (.expression .lowest) s) :
    Overruns room (l :: name :: a :: ts) := by
  intro s faces standard space
  obtain ⟨t, reads, reported⟩ := short s.advance.advance.advance faces.advance.advance.advance
    standard space
  have value := bindingValue_of_report reads.expression_eq reported
  apply program_of_report (by rw [faces.current_eq, keyword]; decide)
  rw [statementBody_of_letBinding faces standard keyword named assign, value, reported]
  simp

/-! ## One statement after another -/

/-- The tokens are laid out as `p` if `fits` holds, and otherwise overrun the room. -/
def Resolves (room : Nat) (fits : Prop) (ts : List Token) (p : Program) : Prop :=
  (fits → Layout room [] ts p) ∧ (¬fits → Overruns room ts)

theorem Resolves.of_short {fits : Prop} {p : Program} (short : ¬fits) (h : Overruns room ts) :
    Resolves room fits ts p :=
  ⟨fun fits => absurd fits short, fun _ => h⟩

theorem Resolves.expression {fits : Prop} {p : Program} (h : Resolves room fits ts p)
    (value : Derives .sum (x :: vs) e n) (enough : n ≤ room) (starts : StartsStatement ts)
    (next : ∀ y ∈ ts.head?, y.kind ≠ .minus) :
    Resolves room fits (x :: vs ++ ts) (.expression x e :: p) :=
  ⟨fun fits => .expression value enough next (h.1 fits),
    fun short => (Layout.expression value enough next .nil).overruns starts (h.2 short)⟩

theorem Resolves.letBinding {fits : Prop} {p : Program} {l name a y : Token}
    (h : Resolves room fits ts p) (keyword : l.kind = .letKeyword)
    (named : name.kind = .identifier) (assign : a.kind = .assign)
    (value : Derives .sum vs e n) (enough : n ≤ room) (starts : StartsStatement ts)
    (semicolon : y.kind = .semicolon) :
    Resolves room fits (l :: name :: a :: (vs ++ y :: ts))
      (.letBinding l ⟨name, name.literal⟩ e :: p) := by
  have step {back : List Token} {q : Program} (others : Layout room back ts q) :
      Layout room back (l :: name :: a :: (vs ++ y :: ts))
        (.letBinding l ⟨name, name.literal⟩ e :: q) := by
    refine .letBinding keyword named assign value enough ?_
      (.semicolon semicolon (Nat.lt_of_lt_of_le value.nesting_pos enough) others)
    rintro z ⟨⟩
    exact semicolon
  exact ⟨fun fits => step (h.1 fits), fun short => (step .nil).overruns starts (h.2 short)⟩

end Parser

namespace Program

def Rereads (limit : Nat) (p : Program) : Prop :=
  Parser.Resolves limit (p.Fits limit) (lexemes p.text.toList) (merge (p.map Statement.respelled))

/-- Behind any expression the text of the program is read back as its merge with it. -/
def Resumes (limit : Nat) (p : Program) : Prop :=
  ∀ {x vs e n}, Derives .sum (x :: vs) e n → n ≤ limit →
    Parser.Resolves limit (p.Fits limit) (x :: vs ++ lexemes p.text.toList)
      (merge (.expression x e :: p.map Statement.respelled))

variable {limit : Nat} {p : Program} {found : Statement}

theorem fits_cons_iff (enough : found.value.textNesting ≤ limit) :
    Fits limit (found :: p) ↔ Fits limit p :=
  List.forall_mem_cons.trans (and_iff_right enough)

theorem not_fits_cons (short : ¬found.value.textNesting ≤ limit) : ¬Fits limit (found :: p) :=
  fun fits => short (fits found (.head p))

theorem startsStatement_text (plain : p.Plain) :
    Parser.StartsStatement (lexemes p.text.toList) := by
  cases p with
  | nil =>
    rw [lexemes_program_nil]
    exact nofun
  | cons found rest =>
    have first := plain found (.head rest)
    rw [lexemes_program]
    cases found with
    | letBinding x name value =>
      rw [lexemes_letBinding x first.1]
      exact Parser.startsStatement_of_kind (by decide) _
    | expression start value =>
      obtain ⟨vs, split, derived⟩ := exists_lexemes_expression first
      rw [Statement.text, split]
      exact Parser.startsStatement_of_derives derived _

theorem head_ne_minus (plain : found.Plain) (rest : Program)
    (separate : ∀ x e, (Statement.expression x e).join? found.respelled = none) :
    ∀ y ∈ (lexemes (Program.text (found :: rest)).toList).head?, y.kind ≠ .minus := by
  rw [lexemes_program]
  cases found with
  | letBinding x name value =>
    rw [lexemes_letBinding x plain.1]
    rintro y ⟨⟩
    decide
  | expression start value =>
    rw [Statement.text]
    cases value with
    | integer x value =>
      obtain ⟨n, rfl⟩ := Int.eq_ofNat_of_zero_le plain.1
      rw [Expr.text, lexemes_writeInt]
      rintro y ⟨⟩
      exact (by decide : Kind.integer ≠ .minus)
    | named => exact plain.elim
    | unary x operator operand => cases separate start operand
    | binary x operator left right =>
      rw [lexemes_binary x left right plain.1]
      rintro y ⟨⟩
      decide

theorem merge_letBinding (x : Token) (name : Name) (value : Expr) (rest : Program) :
    merge (.letBinding x name value :: rest) = .letBinding x name value :: merge rest := by
  cases rest with
  | nil => rw [merge_singleton, merge_nil]
  | cons next rest => exact merge_of_separate rfl

theorem Rereads.letBinding {x : Token} {name : Name} {value : Expr} (h : Rereads limit p)
    (starts : Parser.StartsStatement (lexemes p.text.toList))
    (plain : (Statement.letBinding x name value).Plain) :
    Rereads limit (.letBinding x name value :: p) := by
  obtain ⟨bound, plain⟩ := plain
  obtain ⟨kind, literal⟩ := ofText_name bound
  rw [Rereads, lexemes_program, lexemes_letBinding x bound]
  simp only [List.cons_append, List.append_assoc, List.nil_append]
  by_cases enough : value.textNesting ≤ limit
  · have whole := Parser.Resolves.letBinding (l := .ofText "let") (a := .ofText "=")
      (y := .ofText ";") h (by decide) kind (by decide)
      (derives_respelled plain).factor.term enough starts (by decide)
    rw [literal] at whole
    rwa [fits_cons_iff enough, List.map_cons, Statement.respelled, merge_letBinding]
  · apply Parser.Resolves.of_short (not_fits_cons enough)
    apply Parser.overruns_of_letBinding (by decide) kind (by decide)
    intro s faces standard space
    exact Parser.runsOut_of_text plain .lowest faces standard (by omega)

theorem Resumes.rereads {value : Expr} (h : Resumes limit p) (start : Token)
    (plain : value.Plain) : Rereads limit (.expression start value :: p) := by
  obtain ⟨vs, split, derived⟩ := exists_lexemes_expression plain
  rw [Rereads, lexemes_program, Statement.text]
  by_cases enough : value.textNesting ≤ limit
  · rw [fits_cons_iff enough, split]
    exact h derived enough
  · apply Parser.Resolves.of_short (not_fits_cons enough)
    rw [split]
    apply Parser.overruns_of_expression derived
    intro s faces standard space
    rw [← split] at faces
    exact Parser.runsOut_of_text plain .lowest faces standard (by omega)

theorem Rereads.resumes {rest : Program} (h : Rereads limit (found :: rest))
    (plain : Program.Plain (found :: rest))
    (separate : ∀ x e, (Statement.expression x e).join? found.respelled = none) :
    Resumes limit (found :: rest) := by
  intro x vs e n value enough
  rw [List.map_cons, merge_of_separate (separate x e)]
  exact Parser.Resolves.expression h value enough (startsStatement_text plain)
    (head_ne_minus (plain found (.head rest)) rest separate)

theorem Resumes.unary {start x : Token} {operand : Expr} (h : Resumes limit p)
    (plain : operand.Plain) : Resumes limit (.expression start (.unary x "-" operand) :: p) := by
  intro y vs e n value enough
  have derived := derives_respelled plain
  rw [lexemes_program, Statement.text, lexemes_unary, List.map_cons,
    merge_of_join (show _ = some (.expression y (.binary (.ofText "-") "-" e operand.respelled))
      from rfl)]
  by_cases room : 1 + operand.textNesting ≤ limit
  · have joined := Derives.sum (x := .ofText "-") value (.inr rfl) derived.factor
    have literal : (Token.ofText "-").literal = "-" := by decide
    rw [literal] at joined
    rw [fits_cons_iff room]
    have whole := h joined (by omega)
    simpa using whole
  · apply Parser.Resolves.of_short (not_fits_cons room)
    apply Parser.overruns_of_expression value
    intro s faces standard space
    -- the expression before is read, and the operand behind the minus is too deep
    refine .operators faces standard value (by omega) (by decide) (fun _ => by decide) (by decide)
      ?_
    intro t there standard' depth limit'
    exact Parser.runsOut_of_text plain _ there standard' (by omega)

theorem rereads (p : Program) (plain : p.Plain) (limit : Nat) :
    Rereads limit p ∧ Resumes limit p := by
  induction p with
  | nil =>
    have empty : Fits limit [] := List.forall_mem_nil _
    rw [Rereads, lexemes_program_nil]
    constructor
    · rw [List.map_nil, merge_nil]
      exact ⟨fun _ => .nil, fun short => absurd empty short⟩
    · intro x vs e n value enough
      rw [lexemes_program_nil, List.map_nil, merge_singleton]
      exact ⟨fun _ => .expression value enough nofun .nil, fun short => absurd empty short⟩
  | cons found rest ih =>
    obtain ⟨first, others⟩ := List.forall_mem_cons.1 plain
    obtain ⟨reread, resume⟩ := ih others
    -- only a bare negation resumes what stands before it, anything else is read as from the start
    cases found with
    | letBinding x name value =>
      have whole := reread.letBinding (startsStatement_text others) first
      exact ⟨whole, whole.resumes plain fun _ _ => rfl⟩
    | expression start value =>
      have whole := resume.rereads start first
      cases value with
      | integer => exact ⟨whole, whole.resumes plain fun _ _ => rfl⟩
      | named => exact first.elim
      | unary x operator operand =>
        obtain ⟨rfl, operand⟩ := first
        exact ⟨whole, resume.unary operand⟩
      | binary => exact ⟨whole, whole.resumes plain fun _ _ => rfl⟩

/-! ## Parsing the canonical text -/

theorem parse_text_of_fits (plain : p.Plain) (fits : p.Fits limit) :
    (parse p.text limit).1 = merge (p.map Statement.respelled) ∧
      (parse p.text limit).2.diagnostics = [] :=
  ((rereads p plain limit).1.1 fits).parse_eq

theorem parse_text_of_not_fits (plain : p.Plain) (short : ¬p.Fits limit) :
    (parse p.text limit).2.diagnostics ≠ [] :=
  (rereads p plain limit).1.2 short _ (Parser.ofSource_faces p.text limit) rfl
    (Nat.zero_add limit).symm

theorem map_erased_respelled (p : Program) :
    (p.map Statement.respelled).map Statement.erased = p.map Statement.erased := by
  simp [Function.comp_def]

theorem outline_merge_respelled (p : Program) :
    outline (merge (p.map Statement.respelled)) = outline (merge p) := by
  rw [← outline_map_erased, ← merge_map_erased, map_erased_respelled, merge_map_erased,
    outline_map_erased]

theorem merge_respelled_eq_self (separated : p.Separated) :
    merge (p.map Statement.respelled) = p.map Statement.respelled := by
  apply merge_eq_self
  rwa [← separated_map_erased, map_erased_respelled, separated_map_erased]

theorem text_map_respelled (p : Program) : text (p.map Statement.respelled) = text p := by
  simp [text, Function.comp_def]

/-- The canonical text is read back in silence, as a program that is written the same. -/
def Stable (limit : Nat) (p : Program) : Prop :=
  (parse p.text limit).2.diagnostics = [] ∧
    outline (parse p.text limit).1 = outline p ∧ text (parse p.text limit).1 = text p

theorem stable_iff (plain : p.Plain) : p.Stable limit ↔ p.Fits limit ∧ p.Separated := by
  constructor
  · rintro ⟨silent, same, -⟩
    have fits : p.Fits limit :=
      Decidable.byContradiction fun short => parse_text_of_not_fits plain short silent
    rw [(parse_text_of_fits plain fits).1, outline_merge_respelled] at same
    exact ⟨fits, (outline_merge_iff plain).1 same⟩
  · rintro ⟨fits, separated⟩
    obtain ⟨found, silent⟩ := parse_text_of_fits plain fits
    refine ⟨silent, ?_, ?_⟩
    · rw [found, outline_merge_respelled, merge_eq_self separated]
    · rw [found, merge_respelled_eq_self separated, text_map_respelled]

end Program

/-- Every program that is parsed is plain. A plain program that the limit has room for is read back
from its canonical text with its adjacent statements merged, so its outline is kept exactly if none
of them are. -/
theorem parse_text_merges :
    (∀ source limit, Program.Plain (parse source limit).1) ∧
    ∀ (p : Program) (limit : Nat), p.Plain → p.Fits limit →
      (parse p.text limit).2.diagnostics = [] ∧
      Program.outline (parse p.text limit).1 = p.merge.outline ∧
      (Program.outline (parse p.text limit).1 = p.outline ↔ p.Separated) := by
  refine ⟨plain_of_parse, ?_⟩
  intro p limit plain fits
  obtain ⟨found, silent⟩ := Program.parse_text_of_fits plain fits
  rw [found, Program.outline_merge_respelled]
  exact ⟨silent, rfl, Program.outline_merge_iff plain⟩

theorem parse_text_merges_negation :
    (parse "1\n-2\nlet x = 3;\n4\n" 3).2.diagnostics = [] ∧
      Program.outline (parse "1\n-2\nlet x = 3;\n4\n" 3).1 =
        "Expression(Infix(-, Integer(1), Integer(2)))\nLet(x, Integer(3))\n" ++
          "Expression(Integer(4))\n" := by
  let integer (digit : Char) (value : Int) : Expr := .integer (.integer [digit]) value
  let p : Program := [.expression (.integer ['1']) (integer '1' 1),
    .expression (.mark '-') (.unary (.mark '-') "-" (integer '2' 2)),
    .letBinding (.word ['l', 'e', 't']) ⟨.word ['x'], "x"⟩ (integer '3' 3),
    .expression (.integer ['4']) (integer '4' 4)]
  have plain : p.Plain := by decide
  have fits : p.Fits 3 := by decide
  have text : p.text = "1\n-2\nlet x = 3;\n4\n" := by decide
  obtain ⟨silent, merged, -⟩ := parse_text_merges.2 p 3 plain fits
  rw [text] at silent merged
  refine ⟨silent, merged.trans ?_⟩
  -- the first two statements are folded, the binding and what follows it are not
  simp only [p, Program.merge, Statement.join?]
  decide

/-- The canonical text of a parsed program is stable, at the limit it was parsed with, exactly if
the limit has room for the parentheses and no two statements in a row are read as one. -/
theorem parse_stable_iff (source : String) (limit : Nat) :
    Program.Stable limit (parse source limit).1 ↔
      Program.Fits limit (parse source limit).1 ∧ Program.Separated (parse source limit).1 :=
  Program.stable_iff (plain_of_parse source limit)

theorem parse_not_stable :
    ((parse "1; -2" 256).2.diagnostics = [] ∧ ¬Program.Stable 256 (parse "1; -2" 256).1) ∧
    (parse "1 + 2" 2).2.diagnostics = [] ∧ ¬Program.Stable 2 (parse "1 + 2" 2).1 := by
  have one : Derives .operand [.integer ['1']] (.integer (.integer ['1']) 1) 1 :=
    .integer rfl (by decide) (by decide)
  have two : Derives .operand [.integer ['2']] (.integer (.integer ['2']) 2) 1 :=
    .integer rfl (by decide) (by decide)
  constructor
  · have layout : Parser.Layout 256 [] (lexemes "1; -2".toList)
        [.expression (.integer ['1']) (.integer (.integer ['1']) 1),
          .expression (.mark '-') (.unary (.mark '-') "-" (.integer (.integer ['2']) 2))] := by
      have tokens : lexemes "1; -2".toList = [Token.integer ['1']] ++ Token.mark ';' ::
          ([Token.mark '-', Token.integer ['2']] ++ []) := by
        rw [lexemes_of_scan (by decide), lexemes_of_scan (by decide), lexemes_of_scan (by decide),
          lexemes_of_scan (by decide), lexemes_of_end (by decide)]
        decide
      rw [tokens]
      exact .expression one.factor.term (by decide) (by decide)
        (.semicolon rfl (by decide)
          (.expression (.term (.factor (.negation rfl two))) (by decide) nofun .nil))
    obtain ⟨found, silent⟩ := layout.parse_eq
    rw [found, Program.stable_iff (by decide)]
    exact ⟨silent, by decide⟩
  · have tokens : lexemes "1 + 2".toList =
        [Token.integer ['1'], Token.mark '+', Token.integer ['2']] := by
      rw [lexemes_of_scan (by decide), lexemes_of_scan (by decide), lexemes_of_scan (by decide),
        lexemes_of_end (by decide)]
      decide
    have sum := Derives.sum (x := .mark '+') one.factor.term (.inl rfl) two.factor
    have fits : 2 ≤ 2 := Nat.le_refl 2
    obtain ⟨found, silent⟩ := Parser.parse_of_derives sum tokens fits
    rw [found, Program.stable_iff (by decide)]
    exact ⟨silent, by decide⟩

end LetArith
