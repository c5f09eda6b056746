import LetArith.Proofs.WellFormed
import LetArith.Tree.Render
import Mathlib.Data.List.Chain

/-!
Adjacent statements. A bare expression is written without a semicolon, so a bare negation behind it
reads as a subtraction. `merge` folds such pairs from the left, and changes the outline of a program
exactly if there is one (`outline_merge_iff`): what is folded away leaves fewer lines.
-/

namespace LetArith
open Text

/-! ## Trees without their tokens -/

namespace Expr

def erased : Expr → Expr
  | .integer _ value => .integer .endOfInput value
  | .named name => .named ⟨.endOfInput, name.text⟩
  | .unary _ operator operand => .unary .endOfInput operator operand.erased
  | .binary _ operator left right => .binary .endOfInput operator left.erased right.erased

@[simp] theorem outline_erased (e : Expr) : e.erased.outline = e.outline := by
  induction e with
  | integer | named => rfl
  | unary _ _ _ ih => simp only [erased, outline, ih]
  | binary _ _ _ _ left right => simp only [erased, outline, left, right]

end Expr

namespace Statement

def erased : Statement → Statement
  | .letBinding _ name value => .letBinding .endOfInput ⟨.endOfInput, name.text⟩ value.erased
  | .expression _ value => .expression .endOfInput value.erased

@[simp] theorem outline_erased (found : Statement) : found.erased.outline = found.outline := by
  cases found <;> simp [erased, outline]

def join? : Statement → Statement → Option Statement
  | .expression start left, .expression _ (.unary x operator right) =>
    some (.expression start (.binary x operator left right))
  | _, _ => none

theorem join?_eq_some_iff {first second joined : Statement} :
    first.join? second = some joined ↔ ∃ start left other x operator right,
      first = .expression start left ∧ second = .expression other (.unary x operator right) ∧
        joined = .expression start (.binary x operator left right) := by
  constructor
  · intro h
    unfold join? at h
    split at h
    next start left other x operator right =>
      cases h
      exact ⟨start, left, other, x, operator, right, rfl, rfl, rfl⟩
    next => cases h
  · rintro ⟨start, left, other, x, operator, right, rfl, rfl, rfl⟩
    rfl

theorem join?_erased (first second : Statement) :
    first.erased.join? second.erased = (first.join? second).map erased := by
  cases first with
  | letBinding => rfl
  | expression start left =>
    cases second with
    | letBinding => rfl
    | expression other value => cases value <;> rfl

theorem join?_erased_eq_none_iff {first second : Statement} :
    first.erased.join? second.erased = none ↔ first.join? second = none := by
  rw [join?_erased, Option.map_eq_none_iff]

theorem Plain.join {first second joined : Statement} (h : first.Plain) (h' : second.Plain)
    (join : first.join? second = some joined) : joined.Plain := by
  obtain ⟨start, left, other, x, operator, right, rfl, rfl, rfl⟩ := join?_eq_some_iff.1 join
  obtain ⟨rfl, right⟩ := h'
  exact ⟨by decide, h, right⟩

end Statement

/-! ## Merging -/

namespace Program

/-- Folds every bare negation into the bare expression before it. What is folded may take the next
one too. -/
def merge : Program → Program
  | [] => []
  | [last] => [last]
  | first :: second :: rest =>
    match first.join? second with
    | some joined => merge (joined :: rest)
    | none => first :: merge (second :: rest)
termination_by p => p.length

def Separated (p : Program) : Prop :=
  p.IsChain fun first second => first.join? second = none

instance (p : Program) : Decidable p.Separated :=
  inferInstanceAs (Decidable (p.IsChain fun first second => first.join? second = none))

@[simp] theorem merge_nil : merge [] = [] := by
  rw [merge]

@[simp] theorem merge_singleton (last : Statement) : merge [last] = [last] := by
  rw [merge]

theorem merge_of_join {first second joined : Statement} {rest : Program}
    (join : first.join? second = some joined) :
    merge (first :: second :: rest) = merge (joined :: rest) := by
  rw [merge, join]

theorem merge_of_separate {first second : Statement} {rest : Program}
    (separate : first.join? second = none) :
    merge (first :: second :: rest) = first :: merge (second :: rest) := by
  rw [merge, separate]

theorem merge_map_erased (p : Program) :
    merge (p.map Statement.erased) = (merge p).map Statement.erased := by
  fun_induction merge p with
  | case1 => exact merge_nil
  | case2 last => exact merge_singleton _
  | case3 first second rest joined join ih =>
    apply (merge_of_join _).trans ih
    rw [Statement.join?_erased, join]
    rfl
  | case4 first second rest separate ih =>
    apply (merge_of_separate _).trans (congrArg _ ih)
    rw [Statement.join?_erased, separate]
    rfl

@[simp] theorem separated_map_erased {p : Program} :
    Separated (p.map Statement.erased) ↔ p.Separated := by
  simp only [Separated, List.isChain_map, Statement.join?_erased_eq_none_iff]

theorem merge_eq_self {p : Program} (separated : p.Separated) : merge p = p := by
  fun_induction merge p with
  | case1 => rfl
  | case2 => rfl
  | case3 first second rest joined join ih =>
    have separate := (List.isChain_cons_cons.1 separated).1
    rw [join] at separate
    cases separate
  | case4 first second rest separate ih => rw [ih (List.isChain_cons_cons.1 separated).2]

theorem length_merge_le (p : Program) : (merge p).length ≤ p.length := by
  fun_induction merge p with
  | case1 => exact Nat.le_refl _
  | case2 => exact Nat.le_refl _
  | case3 first second rest joined join ih => exact Nat.le_succ_of_le ih
  | case4 first second rest separate ih => exact Nat.succ_le_succ ih

theorem separated_of_length {p : Program} (same : (merge p).length = p.length) :
    p.Separated := by
  fun_induction merge p with
  | case1 => exact .nil
  | case2 last => exact .singleton last
  | case3 first second rest joined join ih =>
    have shorter := length_merge_le (joined :: rest)
    rw [same] at shorter
    exact absurd shorter (Nat.not_succ_le_self _)
  | case4 first second rest separate ih =>
    exact .cons_cons separate (ih (Nat.succ.inj same))

theorem Plain.merge {p : Program} (plain : p.Plain) : (merge p).Plain := by
  fun_induction Program.merge p with
  | case1 => exact plain
  | case2 => exact plain
  | case3 first second rest joined join ih =>
    obtain ⟨one, others⟩ := List.forall_mem_cons.1 plain
    obtain ⟨two, others⟩ := List.forall_mem_cons.1 others
    exact ih (List.forall_mem_cons.2 ⟨one.join two join, others⟩)
  | case4 first second rest separate ih =>
    obtain ⟨one, others⟩ := List.forall_mem_cons.1 plain
    exact List.forall_mem_cons.2 ⟨one, ih others⟩

end Program

/-! ## Outlines are made of lines -/

theorem count_newline_lines {parts : List String} (plain : ∀ part ∈ parts, OneLine part) :
    (lines parts).toList.count '\n' = parts.length := by
  induction parts with
  | nil => rfl
  | cons part parts ih =>
    obtain ⟨first, others⟩ := List.forall_mem_cons.1 plain
    simp [lines, List.count_eq_zero.2 first, ih others]

theorem oneLine_operator {operator : String} (h : operator ∈ operators) : OneLine operator := by
  simp only [operators, List.mem_cons, List.not_mem_nil, or_false] at h
  rcases h with rfl | rfl | rfl | rfl <;> decide

theorem oneLine_repr (n : Nat) : OneLine n.repr := fun mem =>
  absurd (isDigit_of_mem_repr '\n' mem) (by decide)

theorem oneLine_writeInt {value : Int} (positive : 0 ≤ value) : OneLine (writeInt value) := by
  obtain ⟨n, rfl⟩ := Int.eq_ofNat_of_zero_le positive
  exact oneLine_repr n

theorem Name.Plain.oneLine {name : Name} (plain : name.Plain) : OneLine name.text := fun mem =>
  absurd (List.all_eq_true.1 plain.2.1 '\n' mem) (by decide)

theorem Expr.Plain.oneLine_outline {e : Expr} (plain : e.Plain) : OneLine e.outline := by
  induction e with
  | integer => simp +decide [outline, oneLine_writeInt plain.1]
  | named => exact plain.elim
  | unary _ _ _ ih =>
    obtain ⟨rfl, plain⟩ := plain
    simp +decide [outline, ih plain]
  | binary _ _ _ _ first second =>
    obtain ⟨known, left, right⟩ := plain
    simp +decide [outline, oneLine_operator known, first left, second right]

theorem Statement.Plain.oneLine_outline {found : Statement} (plain : found.Plain) :
    OneLine found.outline := by
  cases found with
  | letBinding _ name value =>
    obtain ⟨named, plain⟩ := plain
    simp +decide [outline, named.oneLine, plain.oneLine_outline]
  | expression _ value => simp +decide [outline, Expr.Plain.oneLine_outline plain]

namespace Program

theorem Plain.count_newline_outline {p : Program} (plain : p.Plain) :
    (outline p).toList.count '\n' = p.length := by
  rw [outline, count_newline_lines, List.length_map]
  intro part mem
  obtain ⟨found, there, rfl⟩ := List.mem_map.1 mem
  exact (plain found there).oneLine_outline

@[simp] theorem outline_map_erased (p : Program) :
    outline (p.map Statement.erased) = outline p := by
  simp [outline, Function.comp_def]

theorem outline_merge_iff {p : Program} (plain : p.Plain) :
    outline (merge p) = outline p ↔ p.Separated := by
  constructor
  · intro same
    have count := plain.merge.count_newline_outline
    rw [same, plain.count_newline_outline] at count
    exact separated_of_length count.symm
  · intro separated
    rw [merge_eq_self separated]

end Program

end LetArith
