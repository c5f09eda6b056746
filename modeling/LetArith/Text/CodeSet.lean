/-!
Sets of code points, held as closed ranges in ascending order. Membership is membership in one of
the ranges (`contains_iff`), and `runs` lists the maximal runs inside a window.
-/

namespace LetArith.Text

/-- The ranges ascend, none is empty, and a gap separates each from the next. -/
def spaced : List (Nat × Nat) → Bool
  | [] => true
  | [(first, last)] => first ≤ last
  | (first, last) :: (next, limit) :: rest =>
      first ≤ last && last + 1 < next && spaced ((next, limit) :: rest)

structure CodeSet where
  ranges : List (Nat × Nat)
  ranges_spaced : spaced ranges = true

namespace CodeSet

def within : List (Nat × Nat) → Nat → Bool
  | [], _ => false
  | (first, last) :: rest, n => first ≤ n && (n ≤ last || within rest n)

def contains (set : CodeSet) (n : Nat) : Bool :=
  within set.ranges n

def runs (set : CodeSet) (low high : Nat) : List (Nat × Nat) :=
  set.ranges.filterMap fun (first, last) =>
    let run := (max first low, min last high)
    if run.1 ≤ run.2 then some run else none

theorem spaced_tail {range : Nat × Nat} {rest : List (Nat × Nat)}
    (h : spaced (range :: rest) = true) : spaced rest = true := by
  cases rest with
  | nil => rfl
  | cons next rest => simp only [spaced, Bool.and_eq_true] at h; exact h.2

theorem first_lt_of_spaced {range other : Nat × Nat} {rest : List (Nat × Nat)}
    (h : spaced (range :: rest) = true) (mem : other ∈ rest) : range.2 < other.1 := by
  induction rest generalizing range with
  | nil => simp at mem
  | cons next rest ih =>
    simp only [spaced, Bool.and_eq_true, decide_eq_true_eq] at h
    rcases List.mem_cons.1 mem with rfl | mem
    · omega
    · have after := ih h.2 mem
      have ordered : next.1 ≤ next.2 := by
        cases rest <;> simp_all [spaced]
      omega

theorem within_iff {ranges : List (Nat × Nat)} (h : spaced ranges = true) (n : Nat) :
    within ranges n = true ↔ ∃ range ∈ ranges, range.1 ≤ n ∧ n ≤ range.2 := by
  induction ranges with
  | nil => simp [within]
  | cons range rest ih =>
    simp only [within, Bool.and_eq_true, Bool.or_eq_true, decide_eq_true_eq, List.mem_cons,
      exists_eq_or_imp, ih (spaced_tail h)]
    constructor
    · rintro ⟨low, high | found⟩
      · exact .inl ⟨low, high⟩
      · exact .inr found
    · rintro (inside | ⟨other, mem, inside⟩)
      · exact ⟨inside.1, .inl inside.2⟩
      · have before := first_lt_of_spaced h mem
        have ordered : range.1 ≤ range.2 := by
          cases rest <;> simp_all [spaced]
        exact ⟨by omega, .inr ⟨other, mem, inside⟩⟩

theorem contains_iff (set : CodeSet) (n : Nat) :
    set.contains n = true ↔ ∃ range ∈ set.ranges, range.1 ≤ n ∧ n ≤ range.2 :=
  within_iff set.ranges_spaced n

end CodeSet

end LetArith.Text
