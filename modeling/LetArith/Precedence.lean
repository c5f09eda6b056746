import LetArith.Token

/-!
How tightly operators bind. Only addition, subtraction, multiplication and division are binary
operators of the language; every other kind of token stands at the lowest level, where no loop over
operators takes it.
-/

namespace LetArith

inductive Precedence where
  | lowest | equality | ordering | sum | product | unary | call
deriving DecidableEq, Repr

namespace Precedence

def rank : Precedence → Nat
  | .lowest => 0
  | .equality => 1
  | .ordering => 2
  | .sum => 3
  | .product => 4
  | .unary => 5
  | .call => 6

instance : LT Precedence where
  lt p q := p.rank < q.rank

instance : LE Precedence where
  le p q := p.rank ≤ q.rank

instance (p q : Precedence) : Decidable (p < q) :=
  inferInstanceAs (Decidable (p.rank < q.rank))

instance (p q : Precedence) : Decidable (p ≤ q) :=
  inferInstanceAs (Decidable (p.rank ≤ q.rank))

instance : Ord Precedence where
  compare p q := compare p.rank q.rank

theorem not_lt_lowest (p : Precedence) : ¬p < .lowest :=
  Nat.not_lt_zero p.rank

end Precedence

def Kind.precedence : Kind → Precedence
  | .plus | .minus => .sum
  | .asterisk | .slash => .product
  | _ => .lowest

end LetArith
