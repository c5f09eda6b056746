import LetArith.Command
import LetArith.Proofs.Renderings

/-!
What the command line answers about a source text that could be read. Every item of an answer stands
on a line of its own: no literal of a token holds a line feed (`Token.Scanned.oneLine_text`), and a
diagnostic quotes what it names (`Diagnostic.oneLine_text`). The line of a token determines the
token (`Token.Scanned.eq_of_text`), and that of a diagnostic the diagnostic, since no escape in what
it quotes is the beginning of another (`Diagnostic.eq_of_text`).
-/

namespace LetArith
open Text

/-! ## Quotes -/

theorem not_mem_toDigits {c : Char} (other : ∀ n < 16, c ≠ Nat.digitChar n) (n : Nat) :
    c ∉ Nat.toDigits 16 n := by
  induction n using Nat.strongRecOn with
  | ind n ih =>
    rw [Nat.toDigits_eq_if (by decide)]
    split
    next small => simpa using other n small
    next large =>
      have inner := ih (n / 16) (by omega)
      have last := other (n % 16) (by omega)
      simp [inner, last]

theorem toDigits_inj {m n : Nat} (same : Nat.toDigits 16 m = Nat.toDigits 16 n) : m = n := by
  have digits : ∀ i < 16, ∀ j < 16, Nat.digitChar i = Nat.digitChar j → i = j := by decide
  induction m using Nat.strongRecOn generalizing n with
  | ind m ih =>
    rw [Nat.toDigits_eq_if (by decide), Nat.toDigits_eq_if (n := n) (by decide)] at same
    split at same <;> split at same
    next small small' => exact digits m small n small' (List.cons.inj same).1
    next => exact absurd (congrArg List.dropLast same).symm (by simp [Nat.toDigits_ne_nil])
    next => exact absurd (congrArg List.dropLast same) (by simp [Nat.toDigits_ne_nil])
    next large large' =>
      obtain ⟨front, last⟩ := List.append_inj' same rfl
      have quotient := ih (m / 16) (by omega) front
      have remainder := digits _ (by omega) _ (by omega) (List.cons.inj last).1
      omega

/-- The characters with an escape of two characters, with the second of these. -/
def shortEscapes : List (Char × Char) :=
  [('\x00', '0'), ('\t', 't'), ('\n', 'n'), ('\r', 'r'), ('"', '"'), ('\\', '\\')]

inductive Escape (c : Char) : List Char → Prop where
  | short {letter : Char} (known : (c, letter) ∈ shortEscapes) : Escape c ['\\', letter]
  | plain (other : c ∉ shortEscapes.map Prod.fst) : Escape c [c]
  | code : Escape c ('\\' :: 'u' :: '{' :: (Nat.toDigits 16 c.toNat ++ ['}']))

theorem escape_spec (c : Char) : Escape c (escape c) := by
  unfold escape
  split
  case h_7 zero tab feed ret quote backslash =>
    split
    next =>
      apply Escape.plain
      simp only [shortEscapes, List.map_cons, List.map_nil, List.mem_cons, List.not_mem_nil]
      rintro (same | same | same | same | same | same | same)
      exacts [zero same, tab same, feed same, ret same, quote same, backslash same, same]
    next => exact .code
  all_goals exact .short (by decide)

theorem cut_inj {c : Char} {front front' back back' : List Char}
    (same : front ++ c :: back = front' ++ c :: back') (first : c ∉ front) (first' : c ∉ front') :
    front = front' ∧ back = back' := by
  have before (part : List Char) (absent : c ∉ part) : ∀ d ∈ part, (d != c) = true :=
    fun d mem => bne_iff_ne.2 fun same => absent (same ▸ mem)
  obtain ⟨fronts, backs⟩ := run_unique same (before front first) (before front' first')
    (by simp) (by simp)
  exact ⟨fronts, (List.cons.inj backs).2⟩

namespace Escape

variable {c d : Char} {part part' s t : List Char}

theorem ne_nil (h : Escape c part) : part ≠ [] := by
  cases h <;> exact List.cons_ne_nil _ _

theorem newline_not_mem (h : Escape c part) : '\n' ∉ part := by
  cases h with
  | short known =>
    have letters : ∀ x ∈ shortEscapes, '\n' ≠ x.2 := by decide
    simpa using letters _ known
  | plain other =>
    intro mem
    rw [← List.mem_singleton.1 mem] at other
    exact other (by decide)
  | code => simp [not_mem_toDigits (c := '\n') (by decide)]

theorem append_inj (h : Escape c part) (h' : Escape d part') (same : part ++ s = part' ++ t) :
    c = d ∧ s = t := by
  have letters : ∀ x ∈ shortEscapes, x.2 ≠ 'u' := by decide
  have backslash (e : Char) (other : e ∉ shortEscapes.map Prod.fst) : e ≠ '\\' := by
    rintro rfl
    exact other (by decide)
  cases h with
  | short known =>
    cases h' with
    | short known' =>
      have table : ∀ x ∈ shortEscapes, ∀ y ∈ shortEscapes, x.2 = y.2 → x.1 = y.1 := by decide
      simp only [List.cons_append, List.nil_append, List.cons.injEq, true_and] at same
      exact ⟨table _ known _ known' same.1, same.2⟩
    | plain other => exact absurd (List.cons.inj same).1.symm (backslash d other)
    | code => exact absurd (List.cons.inj (List.cons.inj same).2).1 (letters _ known)
  | plain other =>
    cases h' with
    | short => exact absurd (List.cons.inj same).1 (backslash c other)
    | plain => exact List.cons.inj same
    | code => exact absurd (List.cons.inj same).1 (backslash c other)
  | code =>
    cases h' with
    | short known => exact absurd (List.cons.inj (List.cons.inj same).2).1.symm (letters _ known)
    | plain other => exact absurd (List.cons.inj same).1.symm (backslash d other)
    | code =>
      have digits (n : Nat) : '}' ∉ Nat.toDigits 16 n := not_mem_toDigits (by decide) n
      simp only [List.cons_append, List.append_assoc, List.nil_append, List.cons.injEq,
        true_and] at same
      obtain ⟨code, rest⟩ := cut_inj same (digits _) (digits _)
      exact ⟨Char.toNat_inj.1 (toDigits_inj code), rest⟩

end Escape

theorem flatMap_escape_inj {s t : List Char} (same : s.flatMap escape = t.flatMap escape) :
    s = t := by
  induction s generalizing t with
  | nil =>
    cases t with
    | nil => rfl
    | cons d t => simp [(escape_spec d).ne_nil] at same
  | cons c s ih =>
    cases t with
    | nil => simp [(escape_spec c).ne_nil] at same
    | cons d t =>
      rw [List.flatMap_cons, List.flatMap_cons] at same
      obtain ⟨rfl, others⟩ := (escape_spec c).append_inj (escape_spec d) same
      rw [ih others]

theorem quoted_inj {s t : String} (same : quoted s = quoted t) : s = t := by
  have inner := List.append_cancel_right (List.cons.inj (String.ofList_injective same)).2
  exact String.toList_inj.1 (flatMap_escape_inj inner)

theorem oneLine_quoted (text : String) : OneLine (quoted text) := by
  simp [OneLine, quoted, (escape_spec _).newline_not_mem]

/-! ## Diagnostics -/

namespace Kind

theorem oneLine_label (kind : Kind) : OneLine kind.label := by
  cases kind <;> decide

theorem quote_not_mem_label (kind : Kind) : '\'' ∉ kind.label.toList := by
  cases kind <;> decide

theorem eq_of_take_label {k l : Kind} (same : k.label.toList.take 2 = l.label.toList.take 2) :
    k = l := by
  have labels : ∀ k ∈ all, ∀ l ∈ all, k.label.toList.take 2 = l.label.toList.take 2 → k = l := by
    decide
  exact labels k (mem_all k) l (mem_all l) same

theorem label_inj {k l : Kind} (same : k.label = l.label) : k = l :=
  eq_of_take_label (by rw [same])

end Kind

namespace Diagnostic

theorem oneLine_name (diagnostic : Diagnostic) : OneLine diagnostic.name := by
  cases diagnostic <;> rw [name] <;> decide

theorem oneLine_message (diagnostic : Diagnostic) : OneLine diagnostic.message := by
  unfold message
  cases diagnostic with
  | unexpectedToken expected got => simp +decide [expected.oneLine_label, got.oneLine_label]
  | invalidInteger literal => simp +decide [oneLine_quoted literal]
  | illegalCharacter literal => simp +decide [oneLine_quoted literal]
  | missingExpression got => simp +decide [got.oneLine_label]
  | nestingTooDeep limit => simp +decide [oneLine_repr limit]

theorem oneLine_text (diagnostic : Diagnostic) : OneLine diagnostic.text := by
  simp +decide [text, oneLine_name, oneLine_message]

theorem space_not_mem_name (diagnostic : Diagnostic) : ' ' ∉ diagnostic.name.toList := by
  cases diagnostic <;> rw [name] <;> decide

variable {x y : Diagnostic}

theorem eq_and_eq_of_text (same : x.text = y.text) : x.name = y.name ∧ x.message = y.message := by
  have lists := congrArg String.toList same
  simp only [text, String.toList_append, List.append_assoc] at lists
  have inner := List.append_cancel_left lists
  obtain ⟨names, rest⟩ := cut_inj inner x.space_not_mem_name y.space_not_mem_name
  have messages : x.message.toList ++ ")".toList = y.message.toList ++ ")".toList :=
    (List.cons.inj rest).2
  exact ⟨String.toList_inj.1 names, String.toList_inj.1 (List.append_cancel_right messages)⟩

theorem unexpectedToken_inj {expected got expected' got' : Kind}
    (same : (unexpectedToken expected got).message = (unexpectedToken expected' got').message) :
    expected = expected' ∧ got = got' := by
  unfold message at same
  have lists := congrArg String.toList same
  simp only [String.toList_append, List.append_assoc] at lists
  have inner := List.append_cancel_left lists
  obtain ⟨first, rest⟩ :=
    cut_inj inner expected.quote_not_mem_label expected'.quote_not_mem_label
  have second := List.append_cancel_right (List.append_cancel_left rest)
  exact ⟨Kind.label_inj (String.toList_inj.1 first), Kind.label_inj (String.toList_inj.1 second)⟩

theorem eq_of_text (same : x.text = y.text) : x = y := by
  obtain ⟨names, messages⟩ := eq_and_eq_of_text same
  cases x <;> cases y
  case unexpectedToken.unexpectedToken =>
    obtain ⟨rfl, rfl⟩ := unexpectedToken_inj messages
    rfl
  case invalidInteger.invalidInteger =>
    unfold message at messages
    rw [quoted_inj ((String.append_right_inj _).1 ((String.append_left_inj _).1 messages))]
  case illegalCharacter.illegalCharacter =>
    unfold message at messages
    rw [quoted_inj ((String.append_right_inj _).1 messages)]
  case missingExpression.missingExpression =>
    unfold message at messages
    rw [Kind.label_inj ((String.append_right_inj _).1 ((String.append_left_inj _).1 messages))]
  case nestingTooDeep.nestingTooDeep =>
    unfold message at messages
    have numerals := congrArg (readNat? ·.toList) ((String.append_right_inj _).1 messages)
    simpa only [readNat?_repr, Option.some.injEq, nestingTooDeep.injEq] using numerals
  all_goals simp [name] at names

end Diagnostic

/-! ## Listings of tokens -/

namespace Token

theorem take_text (x : Token) : x.text.toList.take 2 = x.kind.label.toList.take 2 := by
  obtain ⟨kind, literal⟩ := x
  cases kind <;> simp [text, Kind.isVaried, Kind.label]

theorem kind_eq_of_text {x y : Token} (same : x.text = y.text) : x.kind = y.kind :=
  Kind.eq_of_take_label (by rw [← take_text, same, take_text])

namespace Scanned

variable {x y : Token}

theorem oneLine_literal (h : x.Scanned) : OneLine x.literal := by
  by_cases last : x.kind = .endOfInput
  · rw [h.eq_endOfInput last]
    decide
  · intro mem
    exact absurd ((h.lexeme last).not_blank '\n' mem) (by decide)

theorem oneLine_text (h : x.Scanned) : OneLine x.text := by
  unfold text
  split
  · simp +decide [Kind.oneLine_label, h.oneLine_literal]
  · exact x.kind.oneLine_label

theorem eq_of_text (h : x.Scanned) (h' : y.Scanned) (same : x.text = y.text) : x = y := by
  have kind := kind_eq_of_text same
  cases varied : x.kind.isVaried with
  | false => exact h.eq_of_kind (h'.mem_fixedTokens (by rw [← kind, varied])) kind
  | true =>
    have literal : x.literal = y.literal := by
      simpa [text, ← kind, varied] using same
    calc x = ⟨x.kind, x.literal⟩ := rfl
      _ = ⟨y.kind, y.literal⟩ := by rw [kind, literal]

end Scanned

end Token

theorem scanned_of_mem_tokenize {source : String} : ∀ x ∈ tokenize source, x.Scanned := by
  rw [tokenize, tokens_eq]
  exact List.forall_mem_append.2 ⟨scanned_of_mem_lexemes, by simpa using Token.Scanned.endOfInput⟩

theorem hasLines_tokens (source : String) :
    HasLines (lines ((tokenize source).map Token.text)) ((tokenize source).map Token.text) := by
  apply hasLines_lines
  intro part mem
  obtain ⟨x, there, rfl⟩ := List.mem_map.1 mem
  exact (scanned_of_mem_tokenize x there).oneLine_text

theorem tokenize_eq_of_lines {source other : String}
    (same : lines ((tokenize other).map Token.text) = lines ((tokenize source).map Token.text)) :
    tokenize other = tokenize source := by
  have listed := hasLines_tokens other
  rw [same] at listed
  have texts := listed.unique (hasLines_tokens source)
  have tokens := map_eq_of_map_eq (g := id) (fun x mem y mem' =>
    (scanned_of_mem_tokenize x mem).eq_of_text (scanned_of_mem_tokenize y mem')) texts
  rwa [List.map_id, List.map_id] at tokens

/-! ## Reports -/

theorem hasLines_diagnostics (diagnostics : List Diagnostic) :
    HasLines (lines (diagnostics.map Diagnostic.text)) (diagnostics.map Diagnostic.text) := by
  apply hasLines_lines
  intro part mem
  obtain ⟨diagnostic, -, rfl⟩ := List.mem_map.1 mem
  exact diagnostic.oneLine_text

theorem diagnostics_eq_of_lines {diagnostics others : List Diagnostic}
    (same : lines (others.map Diagnostic.text) = lines (diagnostics.map Diagnostic.text)) :
    others = diagnostics := by
  have listed := hasLines_diagnostics others
  rw [same] at listed
  have texts := listed.unique (hasLines_diagnostics diagnostics)
  exact List.map_injective_iff.2 (fun _ _ => Diagnostic.eq_of_text) texts

theorem lines_eq_empty_iff {parts : List String} : lines parts = "" ↔ parts = [] := by
  cases parts with
  | nil => simp [lines]
  | cons part parts => simp [lines]

/-- A listing has one line for each token and determines the tokens. Otherwise there is one line for
each statement that was read, and on the error stream one for each diagnostic, in order, which
determines it. The code tells whether there are any. -/
theorem report_of_source (options : Options) (source : String) :
    let report := options.report (.ok source)
    if options.tokens then
      HasLines report.output ((tokenize source).map Token.text) ∧
      (∀ other, (options.report (.ok other)).output = report.output →
        tokenize other = tokenize source) ∧
      report.errors = "" ∧ report.code = 0
    else
      let read := parse source (options.limit.getD Parser.defaultLimit)
      let render := if options.outline then Statement.outline else Statement.text
      HasLines report.output (read.1.map render) ∧
      HasLines report.errors (read.2.diagnostics.map Diagnostic.text) ∧
      (∀ other, (options.report (.ok other)).errors = report.errors →
        (parse other (options.limit.getD Parser.defaultLimit)).2.diagnostics =
          read.2.diagnostics) ∧
      report.code = if report.errors = "" then 0 else 1 := by
  cases listing : options.tokens with
  | true =>
    have tokens (source : String) : options.report (.ok source) = .ofTokens source := by
      simp [Options.report, listing]
    simp only [if_true, tokens]
    exact ⟨hasLines_tokens source, fun other => tokenize_eq_of_lines, rfl, rfl⟩
  | false =>
    have program (source : String) : options.report (.ok source) =
        .ofProgram options.outline source (options.limit.getD Parser.defaultLimit) := by
      simp [Options.report, listing]
    have plain := plain_of_parse source (options.limit.getD Parser.defaultLimit)
    simp only [program, Report.ofProgram, Bool.false_eq_true, if_false]
    refine ⟨?_, hasLines_diagnostics _, fun other => diagnostics_eq_of_lines, ?_⟩
    · cases options.outline with
      | true => exact faithful_outline.hasLines plain
      | false => exact faithful_text.hasLines plain
    · simp [lines_eq_empty_iff]

end LetArith
