import LetArith.Proofs.Grammar

/-!
An expression is read exactly where the grammar has one. The readings that succeed are those of a
derivation that the limit has room for and that no tighter operator continues. Both directions
(`Reads.derived`, `passes_of_derives`) keep the same bookkeeping while operators are taken: what
stands to the left of the window is derived at a level whose operators the reading admits, and the
next token may not continue its last operand.
-/

namespace LetArith.Parser
open Text

def Spans (level : Level) (s t : Parser) (e : Expr) (n : Nat) : Prop :=
  ∃ j, t = advance^[j] s ∧ Derives level (upcoming (j + 1) s) e n

theorem takesOperator_iff {s : Parser} (standard : s.rules = .standard) (p : Precedence) :
    s.takesOperator p = true ↔ p < s.peek.kind.precedence := by
  rw [takesOperator, standard, Bool.and_eq_true, decide_eq_true_iff]
  exact ⟨And.left, fun h => ⟨h, Rules.standard_isBinary h⟩⟩

namespace Spans

variable {level : Level} {p : Precedence} {s t u : Parser} {e left right : Expr} {m n : Nat}

theorem integer {value : Nat} (kind : s.current.kind = .integer)
    (read : integerValue? s.current.literal = some value) :
    Spans .operand s s (.integer s.current value) 1 := by
  obtain ⟨read, bound⟩ := Option.filter_eq_some_iff.1 read
  exact ⟨0, rfl, .integer kind read (of_decide_eq_true bound)⟩

theorem negation (kind : s.current.kind = .minus) (operand : Spans .operand s.advance t e n) :
    Spans .operand s t (.unary s.current s.current.literal e) (1 + n) := by
  obtain ⟨j, rfl, derived⟩ := operand
  exact ⟨j + 1, rfl, .negation kind derived⟩

theorem group (opening : s.current.kind = .leftParen) (inner : Spans .sum s.advance t e n)
    (closing : t.peek.kind = .rightParen) : Spans .operand s t.advance e (1 + n) := by
  obtain ⟨j, rfl, derived⟩ := inner
  refine ⟨j + 2, advance_iterate_advance j s.advance, ?_⟩
  rw [upcoming, upcoming_add (j + 1) 1, ← advance_iterate_advance]
  exact .group opening derived closing

theorem binary {first second joined : Level}
    (before : Spans first s t left m) (after : Spans second t.advance.advance u right n)
    (rule : ∀ {front back}, Derives first front left m → Derives second back right n →
      Derives joined (front ++ t.peek :: back) e (max m (1 + n))) :
    Spans joined s u e (max m (1 + n)) := by
  obtain ⟨i, rfl, before⟩ := before
  obtain ⟨j, rfl, after⟩ := after
  refine ⟨i + 1 + (j + 1), ?_, ?_⟩
  · exact (iterate_advance_between i j s).symm
  · rw [Nat.add_assoc, upcoming_between]
    exact rule before after

theorem lift (h : Spans level s t e n) (admits : p.Admits level) : Spans p.level s t e n := by
  obtain ⟨j, moved, derived⟩ := h
  exact ⟨j, moved, derived.lift admits⟩

theorem leave (h : Spans level s.enter t e n) : Spans level s t.leave e n := by
  obtain ⟨j, rfl, derived⟩ := h
  refine ⟨j, ?_, by rwa [upcoming_enter] at derived⟩
  rw [iterate_advance_enter]
  rfl

theorem leads (h : Spans level s t e n) : Leads s t := by
  obtain ⟨j, rfl, -⟩ := h
  exact .moves j s

end Spans

/-! ## What is read is derived -/

/-- What the tokens before the window of `t` are after a reading has succeeded. The reading of
operators starts behind a left operand, wherever that began. -/
def Goal.Derived (s : Parser) (e : Expr) (t : Parser) : Goal → Prop
  | .operand => s.depth ≤ s.limit → ∃ n, Spans .operand s t e n ∧ s.depth + n ≤ s.limit + 1
  | .operators p left =>
    ∀ {start level m}, Spans level start s left m → p.Admits level →
      level.StopsAt s.peek.kind → start.depth + m ≤ start.limit + 1 →
      ∃ n, Spans p.level start t e n ∧ start.depth + n ≤ start.limit + 1 ∧
        ¬p < t.peek.kind.precedence
  | .expression p =>
    ∃ n, Spans p.level s t e n ∧ s.depth + n ≤ s.limit ∧ ¬p < t.peek.kind.precedence

theorem Spans.join {p : Precedence} {level : Level} {start s t : Parser} {left right : Expr}
    {m n : Nat} (before : Spans level start s left m) (admits : p.Admits level)
    (stops : level.StopsAt s.peek.kind) (tighter : p < s.peek.kind.precedence)
    (after : Spans s.peek.kind.precedence.level s.advance.advance t right n)
    (last : ¬s.peek.kind.precedence < t.peek.kind.precedence) :
    ∃ joined, Spans joined start t (.binary s.peek s.peek.literal left right) (max m (1 + n)) ∧
      p.Admits joined ∧ joined.StopsAt t.peek.kind := by
  rcases Kind.precedence_of_lt tighter with kind | kind
  · rw [kind] at tighter after last
    have kind := Kind.precedence_eq_sum.1 kind
    -- whatever stands to the left is a sum
    have before : Spans .sum start s left m :=
      before.lift (p := .lowest) (by cases level <;> decide)
    exact ⟨.sum, before.binary after fun first second => .sum first kind second, tighter,
      fun _ => last⟩
  · -- a multiplication would have gone to the last operand of a sum
    have below : level ≠ .sum := fun sum => stops sum (kind ▸ by decide)
    rw [kind] at tighter after
    have kind := Kind.precedence_eq_product.1 kind
    have before : Spans .product start s left m :=
      before.lift (p := .sum) (by cases level <;> first | decide | exact absurd rfl below)
    exact ⟨.product, before.binary after fun first second => .product first kind second, tighter,
      nofun⟩

theorem Reads.derived {goal : Goal} {s t : Parser} {result : Option Expr}
    (h : Reads goal s result t) (standard : s.rules = .standard) {e : Expr}
    (found : result = some e) : goal.Derived s e t := by
  induction h generalizing e with
  | @integer s value rule read =>
    cases found
    rw [standard] at rule
    intro room
    exact ⟨1, .integer (Rules.standard_operand_integer rule) read, by omega⟩
  | overflow => cases found
  | unary rule _ ih =>
    obtain ⟨operand, rfl, rfl⟩ := Option.map_eq_some_iff.1 found
    rw [standard] at rule
    obtain ⟨n, spans, room, -⟩ := ih standard rfl
    rw [advance_depth, advance_limit] at room
    intro _
    exact ⟨1 + n, .negation (Rules.standard_operand_unary rule) spans, by omega⟩
  | group rule _ closed ih =>
    cases found
    rw [standard] at rule
    obtain ⟨n, spans, room, -⟩ := ih standard rfl
    rw [advance_depth, advance_limit] at room
    intro _
    exact ⟨1 + n, .group (Rules.standard_operand_grouping rule) spans closed, by omega⟩
  | unclosed => cases found
  | groupFailed => cases found
  | illegal => cases found
  | silent => cases found
  | @last p left s stop =>
    cases found
    rw [takesOperator_iff standard] at stop
    intro start level m before admits _ room
    exact ⟨m, before.lift admits, room, stop⟩
  | @join p left right s t u result more inner _ ih others =>
    intro start level m before admits stops room
    obtain ⟨n, after, within, last⟩ := ih standard rfl
    rw [takesOperator_iff standard] at more
    obtain ⟨joined, spans, admits, stops⟩ := before.join admits stops more after last
    refine others ?_ found spans admits stops ?_
    · rw [inner.leads.rules_eq]
      exact standard
    · rw [advance_depth, advance_depth, advance_limit, advance_limit, before.leads.depth_eq,
        before.leads.limit_eq] at within
      omega
  | joinFailed => cases found
  | @nested p left s t u result room first _ operand others =>
    obtain ⟨m, before, within⟩ := operand standard rfl room
    have standard : t.rules = .standard := first.leads.rules_eq.trans standard
    obtain ⟨n, spans, within, last⟩ := others standard found before trivial nofun within
    exact ⟨n, spans.leave, by simp only [enter] at within; omega, last⟩
  | nestedFailed => cases found
  | refused => cases found

/-! ## What is derived is read -/

/-- Wherever the tokens stand, a reading that admits their level comes to the last of them with `e`
on its left. What it makes of the operators that follow is left open. -/
def Passes (level : Level) (ts : List Token) (e : Expr) (n : Nat) : Prop :=
  ∀ {p : Precedence} {s u : Parser} {j : Nat} {result : Option Expr},
    upcoming (j + 1) s = ts → s.rules = .standard → s.depth + n ≤ s.limit + 1 → p.Admits level →
    level.StopsAt (s.tokenAt (j + 1)).kind → Reads (.operators p e) (advance^[j] s) result u →
    ∃ first t, Reads .operand s (some first) t ∧ Reads (.operators p first) t result u

theorem Passes.reads {level : Level} {ts : List Token} {e : Expr} {n : Nat}
    (passes : Passes level ts e n) (pos : 0 < n) {p : Precedence} {s : Parser} {j : Nat}
    (tokens : upcoming (j + 1) s = ts) (standard : s.rules = .standard)
    (room : s.depth + n ≤ s.limit) (admits : p.Admits level)
    (stop : ¬p < (s.tokenAt (j + 1)).kind.precedence) :
    Reads (.expression p) s (some e) (advance^[j] s) := by
  have last : Reads (.operators p e) (advance^[j] s.enter) (some e) (advance^[j] s.enter) := by
    apply Reads.last
    rw [takesOperator_iff, iterate_advance_peek, tokenAt_enter]
    · exact stop
    · rw [iterate_advance_rules]
      exact standard
  obtain ⟨first, t, operand, others⟩ := passes (s := s.enter) (by rwa [upcoming_enter]) standard
    (by simp only [enter]; omega) admits
    (by rw [tokenAt_enter]; exact Level.stopsAt_of_not_lt admits stop) last
  have whole := Reads.nested (p := p) (by omega) operand others
  rw [iterate_advance_enter] at whole
  exact whole

theorem Passes.binary {level : Level} (operator : Precedence) {front back : List Token} {x : Token}
    {left right : Expr} {m n : Nat} (before : Passes level front left m)
    (after : Passes operator.level back right n) (pos : 0 < n) (first : front ≠ [])
    (second : back ≠ []) (kind : x.kind.precedence = operator)
    (takes : ∀ {p : Precedence}, p.Admits level → p < operator)
    (stops : ∀ kind, level.StopsAt kind ↔ ¬operator < kind.precedence) :
    Passes level (front ++ x :: back) (.binary x x.literal left right) (max m (1 + n)) := by
  intro p s u j result tokens standard room admits next reads
  obtain ⟨i, k, rfl, before', rfl, after'⟩ := exists_of_upcoming_eq tokens first second
  rw [iterate_advance_between] at reads
  have moved : ((advance^[i] s).advance.advance).rules = .standard := by simpa using standard
  have inner := after.reads pos after' moved (by simp; omega) operator.admits_level (by
    rw [← stops]
    rw [show i + 1 + (k + 1) + 1 = i + 1 + 1 + (k + 1) by omega, ← tokenAt_iterate_advance,
      ← advance_iterate_advance, ← advance_iterate_advance] at next
    exact next)
  refine before before' standard (by omega) admits ?_ (.join ?_ ?_ reads)
  · rw [← iterate_advance_peek, stops, kind]
    exact Nat.lt_irrefl _
  · rw [takesOperator_iff (by simpa using standard), kind]
    exact takes admits
  · rw [kind]
    exact inner

theorem passes_of_derives {level : Level} {ts : List Token} {e : Expr} {n : Nat}
    (h : Derives level ts e n) : Passes level ts e n := by
  induction h with
  | @integer x value kind read bound =>
    intro p s u j result tokens standard room _ _ reads
    cases j with
    | zero =>
      obtain ⟨rfl, -⟩ := List.cons.inj tokens
      refine ⟨_, s, .integer ?_ ?_, reads⟩
      · rw [standard, kind]
        rfl
      · exact Option.filter_eq_some_iff.2 ⟨read, decide_eq_true bound⟩
    | succ j => cases (List.cons.inj tokens).2
  | @negation x ts e n kind operand ih =>
    intro p s u j result tokens standard room _ next reads
    obtain ⟨rfl, others⟩ := List.cons.inj tokens
    cases j with
    | zero => exact absurd others.symm operand.ne_nil
    | succ j =>
      have inner := ih.reads (p := .unary) operand.nesting_pos others standard
        (by rw [advance_depth, advance_limit]; omega) trivial (Kind.not_unary_lt _)
      refine ⟨_, _, .unary ?_ inner, reads⟩
      rw [standard, kind]
      rfl
  | @group x y ts e n opening inner closing ih =>
    intro p s u j result tokens standard room _ next reads
    obtain ⟨rfl, others⟩ := List.cons.inj tokens
    obtain ⟨i, rfl, inside, rfl⟩ := exists_of_upcoming_eq_concat others inner.ne_nil
    have closed : (s.advance.tokenAt (i + 1)).kind = .rightParen := by
      rw [← iterate_advance_peek]
      exact closing
    have value := ih.reads (p := .lowest) inner.nesting_pos inside standard
      (by rw [advance_depth, advance_limit]; omega) (by decide) (by rw [closed]; decide)
    rw [Function.iterate_succ_apply, ← advance_iterate_advance] at reads
    refine ⟨_, _, .group ?_ value closing, reads⟩
    rw [standard, opening]
    rfl
  | factor _ ih =>
    intro p s u j result tokens standard room _ _ reads
    exact ih tokens standard room trivial nofun reads
  | product first kind second before after =>
    exact before.binary .product after second.nesting_pos first.ne_nil second.ne_nil
      (Kind.precedence_eq_product.2 kind) id fun kind => iff_of_true nofun kind.not_product_lt
  | term _ ih =>
    intro p s u j result tokens standard room admits _ reads
    exact ih tokens standard room admits.product nofun reads
  | sum first kind second before after =>
    exact before.binary .sum after second.nesting_pos first.ne_nil second.ne_nil
      (Kind.precedence_eq_sum.2 kind) id fun kind => ⟨fun h => h rfl, fun h _ => h⟩

theorem reads_of_derives {level : Level} {e : Expr} {n : Nat} {p : Precedence} {s : Parser}
    {j : Nat} (h : Derives level (upcoming (j + 1) s) e n) (standard : s.rules = .standard)
    (room : s.depth + n ≤ s.limit) (admits : p.Admits level)
    (stop : ¬p < (s.tokenAt (j + 1)).kind.precedence) :
    Reads (.expression p) s (some e) (advance^[j] s) :=
  Passes.reads (passes_of_derives h) h.nesting_pos rfl standard room admits stop

/-! ## The statement -/

def StandsAt (t s : Parser) (n : Nat) : Prop :=
  t.rest = (advance^[n] s).rest ∧ t.current = (advance^[n] s).current ∧
    t.peek = (advance^[n] s).peek

/-- The tokens up to number `j` are an expression to be read at `p`: they are derived at its level
within the room that the limit leaves, and no operator follows that binds tighter than `p`. -/
def Accepts (s : Parser) (p : Precedence) (e : Expr) (j : Nat) : Prop :=
  (∃ n, Derives p.level (upcoming (j + 1) s) e n ∧ s.depth + n ≤ s.limit) ∧
    ¬p < (s.tokenAt (j + 1)).kind.precedence

theorem Accepts.expression_eq {s : Parser} {p : Precedence} {e : Expr} {j : Nat}
    (h : s.Accepts p e j) (standard : s.rules = .standard) :
    s.expression p = (some e, advance^[j] s) := by
  obtain ⟨⟨n, derived, room⟩, stop⟩ := h
  exact (reads_of_derives derived standard room p.admits_level stop).expression_eq

theorem exists_accepts {s : Parser} {p : Precedence} {e : Expr} (standard : s.rules = .standard)
    (found : (s.expression p).1 = some e) : ∃ j, s.Accepts p e j := by
  obtain ⟨n, ⟨j, moved, derived⟩, room, stop⟩ := (expression_reads p s).derived standard found
  refine ⟨j, ⟨n, derived, room⟩, ?_⟩
  rwa [moved, iterate_advance_peek] at stop

theorem StandsAt.unique {s t : Parser} {m n : Nat} (first : t.StandsAt s m)
    (second : t.StandsAt s n) (h : t.current.kind ≠ .endOfInput) : m = n := by
  have pending_eq {k : Nat} (stands : t.StandsAt s k) :
      (advance^[k] s).pending = t.pending := by
    obtain ⟨rest, current, peek⟩ := stands
    rw [pending, pending, rest, current, peek]
  have positive := pending_pos_of_current h
  have later (i k : Nat) (lt : i < k) : (advance^[k] s).pending ≤ (advance^[i] s).pending - 1 := by
    have moved := pending_iterate_advance_le (k - i) (advance^[i] s)
    rw [← Function.iterate_add_apply, Nat.sub_add_cancel (Nat.le_of_lt lt)] at moved
    omega
  rcases Nat.lt_trichotomy m n with less | equal | greater
  · have moved := later m n less
    rw [pending_eq first, pending_eq second] at moved
    omega
  · exact equal
  · have moved := later n m greater
    rw [pending_eq first, pending_eq second] at moved
    omega

theorem Accepts.kind_mem {s : Parser} {p : Precedence} {e : Expr} {j : Nat}
    (h : s.Accepts p e j) : (s.tokenAt j).kind ∈ expressionKinds := by
  obtain ⟨⟨n, derived, -⟩, -⟩ := h
  exact derived.kind_mem _ (tokenAt_mem_upcoming j s)

theorem Accepts.kind_ne_endOfInput {s : Parser} {p : Precedence} {e : Expr} {j : Nat}
    (h : s.Accepts p e j) : (s.tokenAt j).kind ≠ .endOfInput := fun last =>
  absurd (last ▸ h.kind_mem) (by decide)

/-- An expression is read exactly where the grammar has one that the limit has room for, and then
nothing is reported. It is missed exactly where the grammar has none. -/
theorem expression_iff_accepts {s : Parser} (standard : s.rules = .standard) (p : Precedence) :
    (∀ e j, (s.expression p).1 = some e ∧ (s.expression p).2.StandsAt s j ↔ s.Accepts p e j) ∧
    (∀ e j, s.Accepts p e j → (s.expression p).2.diagnostics = s.diagnostics) ∧
    ((s.expression p).1 = none ↔ ¬∃ e j, s.Accepts p e j) := by
  refine ⟨fun e j => ⟨?_, ?_⟩, fun e j h => ?_, ⟨?_, ?_⟩⟩
  · rintro ⟨found, stands⟩
    obtain ⟨i, accepts⟩ := exists_accepts standard found
    rw [accepts.expression_eq standard] at stands
    -- the window has one place only, since an expression does not end in the end of input
    have here : (advance^[i] s).StandsAt s i := ⟨rfl, rfl, rfl⟩
    rwa [here.unique stands accepts.kind_ne_endOfInput] at accepts
  · intro accepts
    rw [accepts.expression_eq standard]
    exact ⟨rfl, rfl, rfl, rfl⟩
  · rw [h.expression_eq standard, iterate_advance_diagnostics]
  · rintro missing ⟨e, j, accepts⟩
    rw [accepts.expression_eq standard] at missing
    cases missing
  · intro none
    cases found : (s.expression p).1 with
    | none => rfl
    | some e =>
      obtain ⟨j, accepts⟩ := exists_accepts standard found
      exact absurd ⟨e, j, accepts⟩ none

theorem expression_iff_accepts_difference :
    let s := ofSource "1 - (2 - 3) 4" 4
    let read := s.expression .lowest
    let inner := Expr.binary (.mark '-') "-" (.integer (.integer ['2']) 2)
      (.integer (.integer ['3']) 3)
    read.1 = some (.binary (.mark '-') "-" (.integer (.integer ['1']) 1) inner) ∧
      read.2.StandsAt s 6 ∧ read.2.diagnostics = [] := by
  intro s read inner
  have integer (value : Nat) (x : Token) (kind : x.kind = .integer)
      (found : readNat? x.literal.toList = some value) (bound : value ≤ maxInteger) :
      Derives .product [x] (.integer x value) 1 :=
    (Derives.integer kind found bound).factor
  have inside : Derives .sum [.integer ['2'], .mark '-', .integer ['3']] inner 2 :=
    .sum (integer 2 _ rfl (by decide) (by decide)).term (.inr rfl)
      (integer 3 _ rfl (by decide) (by decide))
  have accepts : s.Accepts .lowest
      (.binary (.mark '-') "-" (.integer (.integer ['1']) 1) inner) 6 := by
    refine ⟨⟨4, ?_, by decide⟩, by decide⟩
    have tokens : upcoming 7 s = [Token.integer ['1']] ++ Token.mark '-' :: Token.mark '(' ::
        ([Token.integer ['2'], Token.mark '-', Token.integer ['3']] ++ [Token.mark ')']) := by
      decide
    rw [tokens]
    exact .sum (integer 1 _ rfl (by decide) (by decide)).term (.inr rfl)
      (.factor (.group rfl inside rfl))
  obtain ⟨reads, silent, -⟩ := expression_iff_accepts (s := s) rfl .lowest
  obtain ⟨found, stands⟩ := (reads _ _).2 accepts
  exact ⟨found, stands, silent _ _ accepts⟩
end LetArith.Parser
