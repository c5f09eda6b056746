import LetArith.Proofs.Reading

/-!
The grammar of expressions, in three levels: sums of products of operands. A derivation ends in the
tree of its tokens, in which parentheses leave no node, and counts how many readings it nests.
-/

namespace LetArith
open Text

inductive Level where
  | operand | product | sum
deriving DecidableEq

/-- `Derives level ts e n`: the tokens are an expression of the level with the tree `e`, and to read
them takes `n` levels of nesting. A left operand is read where the expression itself is, a right
operand one level deeper. -/
inductive Derives : Level → List Token → Expr → Nat → Prop where
  | integer {x : Token} {value : Nat} (kind : x.kind = .integer)
      (read : readNat? x.literal.toList = some value) (bound : value ≤ maxInteger) :
      Derives .operand [x] (.integer x value) 1
  | negation {x : Token} {ts : List Token} {e : Expr} {n : Nat} (kind : x.kind = .minus)
      (operand : Derives .operand ts e n) :
      Derives .operand (x :: ts) (.unary x x.literal e) (1 + n)
  | group {x y : Token} {ts : List Token} {e : Expr} {n : Nat} (opening : x.kind = .leftParen)
      (inner : Derives .sum ts e n) (closing : y.kind = .rightParen) :
      Derives .operand (x :: (ts ++ [y])) e (1 + n)
  | factor {ts : List Token} {e : Expr} {n : Nat} (operand : Derives .operand ts e n) :
      Derives .product ts e n
  | product {front back : List Token} {x : Token} {left right : Expr} {m n : Nat}
      (first : Derives .product front left m) (kind : x.kind = .asterisk ∨ x.kind = .slash)
      (second : Derives .operand back right n) :
      Derives .product (front ++ x :: back) (.binary x x.literal left right) (max m (1 + n))
  | term {ts : List Token} {e : Expr} {n : Nat} (product : Derives .product ts e n) :
      Derives .sum ts e n
  | sum {front back : List Token} {x : Token} {left right : Expr} {m n : Nat}
      (first : Derives .sum front left m) (kind : x.kind = .plus ∨ x.kind = .minus)
      (second : Derives .product back right n) :
      Derives .sum (front ++ x :: back) (.binary x x.literal left right) (max m (1 + n))

/-- The level of the expressions that are read at a precedence: those whose operators all bind
tighter. -/
def Precedence.level : Precedence → Level
  | .lowest | .equality | .ordering => .sum
  | .sum => .product
  | .product | .unary | .call => .operand

theorem Kind.precedence_eq_product {kind : Kind} :
    kind.precedence = .product ↔ kind = .asterisk ∨ kind = .slash := by
  cases kind <;> simp [precedence]

theorem Kind.precedence_eq_sum {kind : Kind} :
    kind.precedence = .sum ↔ kind = .plus ∨ kind = .minus := by
  cases kind <;> simp [precedence]

theorem Kind.precedence_of_lt {p : Precedence} {kind : Kind} (h : p < kind.precedence) :
    kind.precedence = .sum ∨ kind.precedence = .product := by
  cases kind <;> first | exact absurd h p.not_lt_lowest | simp [precedence]

theorem Rules.standard_isBinary {p : Precedence} {kind : Kind} (h : p < kind.precedence) :
    Rules.standard.isBinary kind = true := by
  cases kind <;> first | exact absurd h p.not_lt_lowest | rfl

theorem Kind.not_unary_lt (kind : Kind) : ¬Precedence.unary < kind.precedence := by
  cases kind <;> decide

theorem Kind.not_product_lt (kind : Kind) : ¬Precedence.product < kind.precedence := by
  cases kind <;> decide

theorem Rules.standard_statement_eq_none {kind : Kind} (other : kind ≠ .letKeyword) :
    standard.statement kind = none := by
  cases kind <;> first | rfl | exact absurd rfl other

theorem Rules.standard_operand_integer {kind : Kind}
    (h : Rules.standard.operand kind = some .integer) : kind = .integer := by
  cases kind <;> first | rfl | cases h

theorem Rules.standard_operand_unary {kind : Kind}
    (h : Rules.standard.operand kind = some .unary) : kind = .minus := by
  cases kind <;> first | rfl | cases h

theorem Rules.standard_operand_grouping {kind : Kind}
    (h : Rules.standard.operand kind = some .grouping) : kind = .leftParen := by
  cases kind <;> first | rfl | cases h

def expressionKinds : List Kind :=
  [.integer, .plus, .minus, .asterisk, .slash, .leftParen, .rightParen]

namespace Derives

variable {level : Level} {ts : List Token} {e : Expr} {n : Nat} (h : Derives level ts e n)
include h

theorem ne_nil : ts ≠ [] := by
  induction h <;> simp_all

theorem nesting_pos : 0 < n := by
  induction h <;> omega

theorem kind_mem : ∀ x ∈ ts, x.kind ∈ expressionKinds := by
  induction h with
  | integer kind => simp [kind, expressionKinds]
  | negation kind _ ih =>
    refine List.forall_mem_cons.2 ⟨?_, ih⟩
    simp [kind, expressionKinds]
  | group opening _ closing ih =>
    refine List.forall_mem_cons.2 ⟨?_, List.forall_mem_append.2 ⟨ih, ?_⟩⟩
    · simp [opening, expressionKinds]
    · simp [closing, expressionKinds]
  | factor _ ih => exact ih
  | product _ kind _ first second =>
    refine List.forall_mem_append.2 ⟨first, List.forall_mem_cons.2 ⟨?_, second⟩⟩
    rcases kind with kind | kind <;> simp [kind, expressionKinds]
  | term _ ih => exact ih
  | sum _ kind _ first second =>
    refine List.forall_mem_append.2 ⟨first, List.forall_mem_cons.2 ⟨?_, second⟩⟩
    rcases kind with kind | kind <;> simp [kind, expressionKinds]

theorem kind_ne {kind : Kind} (other : kind ∉ expressionKinds) : ∀ x ∈ ts, x.kind ≠ kind := by
  intro x mem same
  apply other
  rw [← same]
  exact h.kind_mem x mem

theorem head_kind : ∀ x ∈ ts.head?, x.kind = .integer ∨ x.kind = .minus ∨ x.kind = .leftParen := by
  induction h with
  | integer kind => simp [kind]
  | negation kind => simp [kind]
  | group opening => simp [opening]
  | factor _ ih => exact ih
  | product first _ _ ih =>
    obtain ⟨x, rest, rfl⟩ := List.exists_cons_of_ne_nil first.ne_nil
    exact ih
  | term _ ih => exact ih
  | sum first _ _ ih =>
    obtain ⟨x, rest, rfl⟩ := List.exists_cons_of_ne_nil first.ne_nil
    exact ih

/-- The levels only tell where an expression needs parentheses, so what is said of its tokens, its
tree and its nesting is shown for all operators at once. -/
@[elab_as_elim]
theorem flat_induction {motive : List Token → Expr → Nat → Prop}
    (integer : ∀ {x : Token} {value : Nat}, x.kind = .integer →
      readNat? x.literal.toList = some value → value ≤ maxInteger →
      motive [x] (.integer x value) 1)
    (negation : ∀ {x : Token} {ts : List Token} {e : Expr} {n : Nat}, x.kind = .minus →
      motive ts e n → motive (x :: ts) (.unary x x.literal e) (1 + n))
    (group : ∀ {x y : Token} {ts : List Token} {e : Expr} {n : Nat}, x.kind = .leftParen →
      y.kind = .rightParen → motive ts e n → motive (x :: (ts ++ [y])) e (1 + n))
    (binary : ∀ {front back : List Token} {x : Token} {left right : Expr} {m n : Nat},
      .lowest < x.kind.precedence → motive front left m → motive back right n →
      motive (front ++ x :: back) (.binary x x.literal left right) (max m (1 + n))) :
    motive ts e n := by
  induction h with
  | integer kind read bound => exact integer kind read bound
  | negation kind _ ih => exact negation kind ih
  | group opening _ closing ih => exact group opening closing ih
  | factor _ ih => exact ih
  | product _ kind _ first second =>
    exact binary (by rw [Kind.precedence_eq_product.2 kind]; decide) first second
  | term _ ih => exact ih
  | sum _ kind _ first second =>
    exact binary (by rw [Kind.precedence_eq_sum.2 kind]; decide) first second

end Derives

/-! ## Levels and precedences -/

def Precedence.Admits (p : Precedence) : Level → Prop
  | .operand => True
  | .product => p < .product
  | .sum => p < .sum

instance (p : Precedence) (level : Level) : Decidable (p.Admits level) :=
  match level with
  | .operand => inferInstanceAs (Decidable True)
  | .product => inferInstanceAs (Decidable (p < .product))
  | .sum => inferInstanceAs (Decidable (p < .sum))

/-- A token that may follow an expression of the level. The last operand of a sum is a product, and
would take a multiplication that follows. -/
def Level.StopsAt (level : Level) (kind : Kind) : Prop :=
  level = .sum → ¬Precedence.sum < kind.precedence

theorem Precedence.admits_level (p : Precedence) : p.Admits p.level := by
  cases p <;> decide

theorem Precedence.Admits.product {p : Precedence} (h : p.Admits .sum) : p.Admits .product :=
  Nat.lt_trans h (by decide : Precedence.sum < Precedence.product)

theorem Level.stopsAt_of_not_lt {p : Precedence} {level : Level} {kind : Kind}
    (admits : p.Admits level) (stop : ¬p < kind.precedence) : level.StopsAt kind := by
  rintro rfl above
  exact stop (Nat.lt_trans admits above)

theorem Derives.lift {p : Precedence} {level : Level} {ts : List Token} {e : Expr} {n : Nat}
    (h : Derives level ts e n) (admits : p.Admits level) : Derives p.level ts e n := by
  cases level with
  | operand => cases p <;> first | exact h | exact h.factor | exact h.factor.term
  | product => cases p <;> first | exact h | exact h.term | exact absurd admits (by decide)
  | sum => cases p <;> first | exact h | exact absurd admits (by decide)

end LetArith
