import LetArith.Proofs.Rereading
import LetArith.Proofs.Provenance

/-!
Programs that come back from their canonical text with all their tokens. Reading the text again
replaces the tokens of a program by those of the text (`Statement.respelled`), so it gives the
program itself where these are the same (`Statement.respelled_eq_self_iff`) and no statements are
merged on the way (`parse_text_eq_iff`).
-/

namespace LetArith
open Text

/-! ## Expressions -/

namespace Expr

/-- The integers are spelled as they are written, so without zeros in front. -/
def Canonical : Expr → Prop
  | .integer x value => x.literal = writeInt value
  | .named _ => True
  | .unary _ _ operand => operand.Canonical
  | .binary _ _ left right => left.Canonical ∧ right.Canonical

instance decidableCanonical : DecidablePred Canonical
  | .integer x value => inferInstanceAs (Decidable (x.literal = writeInt value))
  | .named _ => inferInstanceAs (Decidable True)
  | .unary _ _ operand => decidableCanonical operand
  | .binary _ _ left right =>
    have := decidableCanonical left
    have := decidableCanonical right
    inferInstanceAs (Decidable (left.Canonical ∧ right.Canonical))

def isBinary : Expr → Bool
  | .binary .. => true
  | .integer .. | .named _ | .unary .. => false

end Expr

theorem ofText_writeInt {value : Int} (positive : 0 ≤ value) :
    Token.ofText (writeInt value) = ⟨.integer, writeInt value⟩ := by
  obtain ⟨n, rfl⟩ := Int.eq_ofNat_of_zero_le positive
  rw [ofText_of_lexemes (lexemes_writeInt n), Token.integer, String.ofList_toList]
  rfl

theorem ofText_unary (x : Token) (operand : Expr) :
    Token.ofText (Expr.unary x "-" operand).text = ⟨.minus, "-"⟩ :=
  (ofText_of_lexemes (lexemes_unary x operand)).trans (by decide)

theorem ofText_binary (x : Token) {operator : String} (left right : Expr)
    (h : operator ∈ operators) :
    Token.ofText (Expr.binary x operator left right).text = ⟨.leftParen, "("⟩ :=
  (ofText_of_lexemes (lexemes_binary x left right h)).trans (by decide)

theorem ofText_operatorTokens : ∀ x ∈ operatorTokens, Token.ofText x.literal = x := by
  decide

variable {limit : Nat}

theorem Expr.respelled_eq_self_iff {e : Expr} (spelled : e.Spelled limit) :
    e.respelled = e ↔ e.Canonical := by
  induction e with
  | integer x value =>
    obtain ⟨⟨kind, -⟩, positive, -⟩ := spelled
    rw [respelled, ofText_writeInt positive, Canonical]
    constructor
    · intro same
      exact congrArg Token.literal (Expr.integer.inj same).1.symm
    · intro literal
      rw [← literal, ← kind]
  | named => exact spelled.elim
  | unary x operator operand ih =>
    obtain ⟨rfl, rfl, -, spelled⟩ := spelled
    have token : Token.ofText "-" = ⟨.minus, "-"⟩ := by decide
    rw [respelled, token, Canonical, ← ih spelled, Expr.unary.injEq]
    exact ⟨fun same => same.2.2, fun same => ⟨rfl, rfl, same⟩⟩
  | binary x operator left right first second =>
    obtain ⟨known, rfl, -, left, right⟩ := spelled
    rw [respelled, ofText_operatorTokens x known, Canonical, ← first left, ← second right,
      Expr.binary.injEq]
    exact ⟨fun same => same.2.2, fun same => ⟨rfl, rfl, same⟩⟩

theorem Expr.head?_tokens {e : Expr} (spelled : e.Spelled limit) (canonical : e.Canonical)
    (plain : e.isBinary = false) :
    e.tokens.head? = some (.ofText e.text) ∧ (Token.ofText e.text).kind ≠ .leftParen := by
  cases e with
  | integer x value =>
    obtain ⟨⟨kind, -⟩, positive, -⟩ := spelled
    have token : x = ⟨.integer, writeInt value⟩ := by rw [← canonical, ← kind]
    rw [text, ofText_writeInt positive, ← token]
    exact ⟨rfl, by rw [kind]; decide⟩
  | named => exact spelled.elim
  | unary x operator operand =>
    obtain ⟨rfl, rfl, -, -⟩ := spelled
    rw [ofText_unary]
    exact ⟨rfl, by decide⟩
  | binary => cases plain

theorem Derives.head?_tokens {level : Level} {x : Token} {ts : List Token} {e : Expr} {n : Nat}
    (h : Derives level (x :: ts) e n) : x.kind = .leftParen ∨ e.tokens.head? = some x := by
  by_cases opening : x.kind = .leftParen
  · exact .inl opening
  · have other : x.kind.isParenthesis = false := by
      rcases h.head_kind x rfl with kind | kind | kind
      · rw [kind]; rfl
      · rw [kind]; rfl
      · exact absurd kind opening
    rw [← h.withoutParentheses_eq, withoutParentheses_cons other]
    exact .inr rfl

/-! ## Statements -/

theorem Name.Plain.ofText_eq {name : Name} (plain : name.Plain)
    (token : name.token = ⟨.identifier, name.text⟩) : Token.ofText name.text = name.token := by
  obtain ⟨kind, literal⟩ := ofText_name plain
  rw [token, ← kind]
  exact congrArg (Token.mk _) literal

namespace Statement

/-- A bare expression keeps a parenthesis or its own first token as its start. -/
def Begins : Statement → Prop
  | .letBinding .. => True
  | .expression start value =>
    start.Scanned ∧ (start.kind = .leftParen ∨ value.tokens.head? = some start)

def Opens : Statement → Prop
  | .letBinding .. => True
  | .expression start value => start.kind = .leftParen ↔ value.isBinary = true

theorem ofText_eq_start_iff {start : Token} {value : Expr} (spelled : value.Spelled limit)
    (canonical : value.Canonical) (begins : (Statement.expression start value).Begins) :
    Token.ofText value.text = start ↔ (Statement.expression start value).Opens := by
  obtain ⟨scanned, begins⟩ := begins
  cases shape : value.isBinary with
  | false =>
    obtain ⟨first, other⟩ := value.head?_tokens spelled canonical shape
    simp only [Opens, shape, Bool.false_eq_true, iff_false]
    constructor
    · rintro rfl
      exact other
    · intro closed
      exact Option.some.inj (first.symm.trans (begins.resolve_left closed))
  | true =>
    cases value with
    | binary x operator left right =>
      obtain ⟨known, -⟩ := spelled.plain
      simp only [Opens, shape, iff_true, ofText_binary x left right known]
      exact ⟨fun same => by rw [← same], fun kind => (scanned.eq_of_kind (by decide) kind).symm⟩
    | integer | named | unary => cases shape

theorem respelled_eq_self_iff {found : Statement} (spelled : found.Spelled limit)
    (begins : found.Begins) : found.respelled = found ↔ found.value.Canonical ∧ found.Opens := by
  cases found with
  | letBinding x name value =>
    obtain ⟨rfl, token, named, spelled⟩ := spelled
    have keyword : Token.ofText "let" = ⟨.letKeyword, "let"⟩ := by decide
    rw [respelled, keyword, named.ofText_eq token, Statement.letBinding.injEq,
      value.respelled_eq_self_iff spelled]
    exact ⟨fun same => ⟨same.2.2, trivial⟩, fun same => ⟨rfl, rfl, same.1⟩⟩
  | expression start value =>
    rw [respelled, Statement.expression.injEq, value.respelled_eq_self_iff spelled.2, and_comm]
    exact and_congr_right fun canonical => ofText_eq_start_iff spelled.2 canonical begins

end Statement

/-! ## Programs -/

theorem Program.merge_respelled_eq_iff {p : Program} :
    merge (p.map Statement.respelled) = p ↔
      p.Separated ∧ ∀ found ∈ p, found.respelled = found := by
  constructor
  · intro same
    -- a merge of two statements would leave a statement less
    have length : (merge (p.map Statement.respelled)).length =
        (p.map Statement.respelled).length := by
      rw [same, List.length_map]
    have separated : p.Separated := by
      have separated := separated_of_length length
      rwa [← separated_map_erased, map_erased_respelled, separated_map_erased] at separated
    rw [merge_respelled_eq_self separated] at same
    exact ⟨separated, List.map_inj_left.1 (same.trans p.map_id.symm)⟩
  · rintro ⟨separated, same⟩
    rw [merge_respelled_eq_self separated]
    exact (List.map_inj_left.2 same).trans p.map_id

namespace Parser

theorem begins_of_statement {s : Parser} {found : Statement} (standard : s.rules = .standard)
    (scanned : s.FacesScanned) (read : s.statement.1 = some found) : found.Begins := by
  obtain ⟨value, there, rfl⟩ | ⟨-, -, value, -, rfl⟩ := statement_cases standard read
  · obtain ⟨j, ⟨n, derived, -⟩, -⟩ := exists_accepts standard there
    exact ⟨scanned 0, derived.head?_tokens⟩
  · trivial

theorem begins_of_parse (source : String) (limit : Nat) :
    ∀ found ∈ (parse source limit).1, found.Begins :=
  forall_mem_program _ fun _ _ moved read => begins_of_statement moved.rules_eq
    ((ofSource_facesScanned source limit).leads moved) read

end Parser

/-- A parsed program comes back from its canonical text with all its tokens exactly if no two
statements in a row are read as one, no integer has zeros in front, and a bare expression starts
with a parenthesis just where it is a binary operation. -/
theorem parse_text_eq_iff (source : String) (limit room : Nat)
    (fits : Program.Fits room (parse source limit).1) :
    let p := (parse source limit).1
    (parse (Program.text p) room).1 = p ↔
      Program.Separated p ∧ (∀ found ∈ p, found.value.Canonical) ∧
        ∀ start value, .expression start value ∈ p →
          (start.kind = .leftParen ↔ value.isBinary = true) := by
  intro p
  rw [(Program.parse_text_of_fits (plain_of_parse source limit) fits).1,
    Program.merge_respelled_eq_iff]
  have each : ∀ found ∈ p, (found.respelled = found ↔ found.value.Canonical ∧ found.Opens) :=
    fun found mem => found.respelled_eq_self_iff (Parser.spelled_of_source source limit found mem)
      (Parser.begins_of_parse source limit found mem)
  refine and_congr_right fun _ => ⟨fun same => ⟨?_, ?_⟩, ?_⟩
  · exact fun found mem => ((each found mem).1 (same found mem)).1
  · exact fun start value mem => ((each _ mem).1 (same _ mem)).2
  · rintro ⟨canonical, opens⟩ found mem
    refine (each found mem).2 ⟨canonical found mem, ?_⟩
    cases found with
    | letBinding => trivial
    | expression start value => exact opens start value mem

/-- Without its parentheses the sum is parsed too, but its text has them. -/
theorem parse_text_eq_iff_parentheses :
    let sum := Expr.binary (.mark '+') "+" (.integer (.integer ['1']) 1)
      (.integer (.integer ['2']) 2)
    let closed := (parse "(1 + 2)" 256).1
    let bare := (parse "1 + 2" 256).1
    (Program.Fits 3 closed ∧ closed = [.expression (.mark '(') sum] ∧
      (parse (Program.text closed) 3).1 = closed) ∧
    Program.Fits 3 bare ∧ bare = [.expression (.integer ['1']) sum] ∧
      (parse (Program.text bare) 3).1 ≠ bare := by
  intro sum closed bare
  have one : Derives .operand [.integer ['1']] (.integer (.integer ['1']) 1) 1 :=
    .integer rfl (by decide) (by decide)
  have two : Derives .operand [.integer ['2']] (.integer (.integer ['2']) 2) 1 :=
    .integer rfl (by decide) (by decide)
  have value := one.binary (x := .mark '+') (by decide) two
  have tokens : lexemes "1 + 2".toList = [.integer ['1']] ++ .mark '+' :: [.integer ['2']] := by
    rw [lexemes_of_scan (by decide), lexemes_of_scan (by decide), lexemes_of_scan (by decide),
      lexemes_of_end (by decide)]
    decide
  have tokens' : lexemes "(1 + 2)".toList =
      .mark '(' :: ([.integer ['1']] ++ .mark '+' :: [.integer ['2']] ++ [.mark ')']) := by
    rw [lexemes_of_scan (by decide), lexemes_of_scan (by decide), lexemes_of_scan (by decide),
      lexemes_of_scan (by decide), lexemes_of_scan (by decide), lexemes_of_end (by decide)]
    decide
  have found : bare = [.expression (.integer ['1']) sum] :=
    (Parser.parse_of_derives value tokens (by decide)).1
  have found' : closed = [.expression (.mark '(') sum] :=
    (Parser.parse_of_derives (.term (.factor (.group rfl value rfl))) tokens' (by decide)).1
  have fits : Program.Fits 3 bare := by
    rw [found]
    decide
  have fits' : Program.Fits 3 closed := by
    rw [found']
    decide
  refine ⟨⟨fits', found', (parse_text_eq_iff _ _ 3 fits').2 ?_⟩, fits, found, fun same => ?_⟩
  · rw [show (parse "(1 + 2)" 256).1 = _ from found']
    refine ⟨by decide, by decide, fun start value mem => ?_⟩
    obtain ⟨rfl, rfl⟩ := Statement.expression.inj (List.mem_singleton.1 mem)
    decide
  · have opens := ((parse_text_eq_iff _ _ 3 fits).1 same).2.2 (.integer ['1']) sum
    rw [show (parse "1 + 2" 256).1 = _ from found] at opens
    exact absurd ((opens (.head _)).2 rfl) (by decide)

end LetArith
