import LetArith.Parser.Statement
import Mathlib.Logic.Function.Iterate

/-!
The window as a place in a stream of tokens. `tokenAt` numbers the tokens from the current one on,
and `Leads` says that a parser comes from another by moves and reports alone: its rules, its depth
and its limit are those of the other, and what was reported before stays in front. A parser `Faces`
a list of tokens if these are all it has left.
-/

namespace LetArith.Parser

/-- The token that is current after `n` moves. -/
def tokenAt (s : Parser) (n : Nat) : Token :=
  (advance^[n] s).current

def upcoming : Nat → Parser → List Token
  | 0, _ => []
  | n + 1, s => s.current :: upcoming n s.advance

def reportAll (s : Parser) (added : List Diagnostic) : Parser :=
  { s with diagnostics := s.diagnostics ++ added }

variable {s t u : Parser} {m n : Nat}

/-! ## Moves -/

@[simp] theorem advance_rules (s : Parser) : s.advance.rules = s.rules := rfl
@[simp] theorem advance_depth (s : Parser) : s.advance.depth = s.depth := rfl
@[simp] theorem advance_limit (s : Parser) : s.advance.limit = s.limit := rfl
@[simp] theorem advance_diagnostics (s : Parser) : s.advance.diagnostics = s.diagnostics := rfl
@[simp] theorem advance_current (s : Parser) : s.advance.current = s.peek := rfl

@[simp] theorem enter_rules (s : Parser) : s.enter.rules = s.rules := rfl
@[simp] theorem enter_depth (s : Parser) : s.enter.depth = s.depth + 1 := rfl
@[simp] theorem enter_limit (s : Parser) : s.enter.limit = s.limit := rfl
@[simp] theorem enter_diagnostics (s : Parser) : s.enter.diagnostics = s.diagnostics := rfl
@[simp] theorem leave_diagnostics (s : Parser) : s.leave.diagnostics = s.diagnostics := rfl

theorem iterate_advance_comm (f : Parser → Parser) (comm : ∀ s, (f s).advance = f s.advance)
    (n : Nat) (s : Parser) : advance^[n] (f s) = f (advance^[n] s) := by
  induction n generalizing s with
  | zero => rfl
  | succ n ih => rw [Function.iterate_succ_apply, Function.iterate_succ_apply, comm, ih]

theorem iterate_advance_enter (n : Nat) (s : Parser) :
    advance^[n] s.enter = (advance^[n] s).enter :=
  iterate_advance_comm enter (fun _ => rfl) n s

theorem iterate_advance_leave (n : Nat) (s : Parser) :
    advance^[n] s.leave = (advance^[n] s).leave :=
  iterate_advance_comm leave (fun _ => rfl) n s

theorem iterate_advance_reportAll (n : Nat) (s : Parser) (added : List Diagnostic) :
    advance^[n] (s.reportAll added) = (advance^[n] s).reportAll added :=
  iterate_advance_comm (reportAll · added) (fun _ => rfl) n s

theorem iterate_advance_eq {α : Type} (field : Parser → α)
    (kept : ∀ s, field s.advance = field s) (n : Nat) (s : Parser) :
    field (advance^[n] s) = field s := by
  induction n generalizing s with
  | zero => rfl
  | succ n ih => rw [Function.iterate_succ_apply, ih, kept]

@[simp] theorem iterate_advance_rules (n : Nat) (s : Parser) :
    (advance^[n] s).rules = s.rules :=
  iterate_advance_eq rules (fun _ => rfl) n s

@[simp] theorem iterate_advance_depth (n : Nat) (s : Parser) :
    (advance^[n] s).depth = s.depth :=
  iterate_advance_eq depth (fun _ => rfl) n s

@[simp] theorem iterate_advance_limit (n : Nat) (s : Parser) :
    (advance^[n] s).limit = s.limit :=
  iterate_advance_eq limit (fun _ => rfl) n s

@[simp] theorem iterate_advance_diagnostics (n : Nat) (s : Parser) :
    (advance^[n] s).diagnostics = s.diagnostics :=
  iterate_advance_eq diagnostics (fun _ => rfl) n s

theorem pending_iterate_advance_le (n : Nat) (s : Parser) :
    (advance^[n] s).pending ≤ s.pending - n := by
  induction n generalizing s with
  | zero => exact Nat.le_refl _
  | succ n ih =>
    have step := s.pending_advance_le
    have rest := ih s.advance
    rw [Function.iterate_succ_apply]
    omega

/-! ## Numbered tokens -/

theorem tokenAt_iterate_advance (m n : Nat) (s : Parser) :
    (advance^[m] s).tokenAt n = s.tokenAt (m + n) := by
  rw [tokenAt, tokenAt, Nat.add_comm, Function.iterate_add_apply]

theorem tokenAt_advance (n : Nat) (s : Parser) : s.advance.tokenAt n = s.tokenAt (n + 1) := by
  rw [tokenAt, tokenAt, Function.iterate_succ_apply]

@[simp] theorem tokenAt_enter (n : Nat) (s : Parser) : s.enter.tokenAt n = s.tokenAt n := by
  rw [tokenAt, iterate_advance_enter]
  rfl

@[simp] theorem tokenAt_leave (n : Nat) (s : Parser) : s.leave.tokenAt n = s.tokenAt n := by
  rw [tokenAt, iterate_advance_leave]
  rfl

@[simp] theorem tokenAt_reportAll (n : Nat) (s : Parser) (added : List Diagnostic) :
    (s.reportAll added).tokenAt n = s.tokenAt n := by
  rw [tokenAt, iterate_advance_reportAll]
  rfl

theorem iterate_advance_peek (n : Nat) (s : Parser) :
    (advance^[n] s).peek = s.tokenAt (n + 1) := by
  rw [tokenAt, Function.iterate_succ_apply']
  rfl

@[simp] theorem length_upcoming (n : Nat) (s : Parser) : (upcoming n s).length = n := by
  induction n generalizing s with
  | zero => rfl
  | succ n ih => simp [upcoming, ih]

theorem upcoming_add (m n : Nat) (s : Parser) :
    upcoming (m + n) s = upcoming m s ++ upcoming n (advance^[m] s) := by
  induction m generalizing s with
  | zero => simp [upcoming]
  | succ m ih =>
    rw [Nat.succ_add, upcoming, ih, upcoming, Function.iterate_succ_apply, List.cons_append]

theorem advance_iterate_advance (n : Nat) (s : Parser) :
    (advance^[n] s).advance = advance^[n + 1] s :=
  (Function.iterate_succ_apply' advance n s).symm

theorem upcoming_between (i j : Nat) (s : Parser) :
    upcoming (i + 1 + (j + 1 + 1)) s =
      upcoming (i + 1) s ++
        (advance^[i] s).peek :: upcoming (j + 1) (advance^[i] s).advance.advance := by
  rw [upcoming_add, ← advance_iterate_advance, upcoming]
  rfl

theorem iterate_advance_between (i j : Nat) (s : Parser) :
    advance^[i + 1 + (j + 1)] s = advance^[j] (advance^[i] s).advance.advance := by
  rw [advance_iterate_advance, advance_iterate_advance, ← Function.iterate_add_apply]
  congr 1
  omega

theorem exists_of_upcoming_eq_concat {j : Nat} {y : Token} {front : List Token}
    (h : upcoming j s = front ++ [y]) (first : front ≠ []) :
    ∃ i, j = i + 2 ∧ upcoming (i + 1) s = front ∧ (advance^[i] s).peek = y := by
  obtain ⟨i, before⟩ := Nat.exists_eq_succ_of_ne_zero (mt List.eq_nil_of_length_eq_zero first)
  have count : j = i + 1 + 1 := by
    rw [← length_upcoming j s, h, List.length_append, before, List.length_singleton]
  subst count
  rw [upcoming_add, ← advance_iterate_advance] at h
  obtain ⟨rfl, rest⟩ := List.append_inj h (by rw [length_upcoming, before])
  exact ⟨i, rfl, rfl, (List.cons.inj rest).1⟩

theorem exists_of_upcoming_eq {j : Nat} {x : Token} {front back : List Token}
    (h : upcoming (j + 1) s = front ++ x :: back) (first : front ≠ []) (second : back ≠ []) :
    ∃ i k, j = i + 1 + (k + 1) ∧ upcoming (i + 1) s = front ∧ (advance^[i] s).peek = x ∧
      upcoming (k + 1) (advance^[i] s).advance.advance = back := by
  obtain ⟨i, before⟩ := Nat.exists_eq_succ_of_ne_zero (mt List.eq_nil_of_length_eq_zero first)
  obtain ⟨k, after⟩ := Nat.exists_eq_succ_of_ne_zero (mt List.eq_nil_of_length_eq_zero second)
  have count : j = i + 1 + (k + 1) := by
    have length := congrArg List.length h
    simp only [length_upcoming, List.length_append, List.length_cons] at length
    omega
  subst count
  rw [Nat.add_assoc, upcoming_between] at h
  obtain ⟨rfl, rest⟩ := List.append_inj h (by rw [length_upcoming, before])
  obtain ⟨rfl, rfl⟩ := List.cons.inj rest
  exact ⟨i, k, rfl, rfl, rfl, rfl⟩

theorem upcoming_getElem? (n i : Nat) (s : Parser) :
    (upcoming n s)[i]? = if i < n then some (s.tokenAt i) else none := by
  induction n generalizing s i with
  | zero => simp [upcoming]
  | succ n ih =>
    cases i with
    | zero => simp [upcoming, tokenAt]
    | succ i => simp [upcoming, ih, tokenAt_advance]

theorem tokenAt_mem_upcoming (n : Nat) (s : Parser) : s.tokenAt n ∈ upcoming (n + 1) s := by
  apply List.mem_of_getElem? (i := n)
  rw [upcoming_getElem?, if_pos (Nat.lt_succ_self n)]

@[simp] theorem upcoming_enter (n : Nat) (s : Parser) : upcoming n s.enter = upcoming n s := by
  apply List.ext_getElem?
  simp [upcoming_getElem?]

@[simp] theorem upcoming_reportAll (n : Nat) (s : Parser) (added : List Diagnostic) :
    upcoming n (s.reportAll added) = upcoming n s := by
  apply List.ext_getElem?
  simp [upcoming_getElem?]

/-! ## Moves and reports -/

/-- Moves and reports lead from `s` to `t`. -/
def Leads (s t : Parser) : Prop :=
  ∃ n added, t = (advance^[n] s).reportAll added

@[simp] theorem reportAll_nil (s : Parser) : s.reportAll [] = s := by
  simp [reportAll]

theorem reportAll_reportAll (s : Parser) (first second : List Diagnostic) :
    (s.reportAll first).reportAll second = s.reportAll (first ++ second) := by
  simp [reportAll]

namespace Leads

theorem moves (n : Nat) (s : Parser) : Leads s (advance^[n] s) :=
  ⟨n, [], (reportAll_nil _).symm⟩

theorem refl (s : Parser) : Leads s s :=
  moves 0 s

theorem advance (s : Parser) : Leads s s.advance :=
  moves 1 s

theorem report (s : Parser) (diagnostic : Diagnostic) : Leads s (s.report diagnostic) :=
  ⟨0, [diagnostic], rfl⟩

theorem trans (first : Leads s t) (second : Leads t u) : Leads s u := by
  obtain ⟨m, before, rfl⟩ := first
  obtain ⟨n, after, rfl⟩ := second
  refine ⟨n + m, before ++ after, ?_⟩
  rw [iterate_advance_reportAll, reportAll_reportAll, ← Function.iterate_add_apply]

theorem leave (inside : Leads s.enter t) : Leads s t.leave := by
  obtain ⟨n, added, rfl⟩ := inside
  refine ⟨n, added, ?_⟩
  rw [iterate_advance_enter]
  rfl

theorem expectPeek (s : Parser) (wanted : Kind) : Leads s (s.expectPeek wanted).2 := by
  unfold Parser.expectPeek
  split
  · exact advance s
  · exact report s _

variable (h : Leads s t)
include h

theorem rules_eq : t.rules = s.rules := by
  obtain ⟨n, added, rfl⟩ := h
  exact iterate_advance_rules n s

theorem depth_eq : t.depth = s.depth := by
  obtain ⟨n, added, rfl⟩ := h
  exact iterate_advance_depth n s

theorem limit_eq : t.limit = s.limit := by
  obtain ⟨n, added, rfl⟩ := h
  exact iterate_advance_limit n s

theorem diagnostics_eq : ∃ added, t.diagnostics = s.diagnostics ++ added := by
  obtain ⟨n, added, rfl⟩ := h
  exact ⟨added, by simp [reportAll]⟩

theorem length_diagnostics_le : s.diagnostics.length ≤ t.diagnostics.length := by
  obtain ⟨added, same⟩ := h.diagnostics_eq
  rw [same, List.length_append]
  exact Nat.le_add_right _ _

theorem tokenAt_eq : ∃ m, ∀ n, t.tokenAt n = s.tokenAt (m + n) := by
  obtain ⟨m, added, rfl⟩ := h
  exact ⟨m, fun n => by rw [tokenAt_reportAll, tokenAt_iterate_advance]⟩

theorem advanced : Leads s.advance t.advance := by
  obtain ⟨n, added, rfl⟩ := h
  refine ⟨n, added, ?_⟩
  rw [← Function.iterate_succ_apply, Function.iterate_succ_apply']
  rfl

end Leads

/-! ## Lists of tokens -/

/-- The tokens that are left, up to the end of input. -/
def Faces (s : Parser) (ts : List Token) : Prop :=
  ∀ n, s.tokenAt n = ts.getD n .endOfInput

namespace Faces

variable {x : Token} {ts front back : List Token}

theorem current_eq (h : s.Faces (x :: ts)) : s.current = x :=
  h 0

theorem current_eq_endOfInput (h : s.Faces []) : s.current = .endOfInput :=
  h 0

theorem advance (h : s.Faces (x :: ts)) : s.advance.Faces ts := fun n => by
  rw [tokenAt_advance, h]
  rfl

theorem advance_nil (h : s.Faces []) : s.advance.Faces [] := fun n => by
  rw [tokenAt_advance, h]
  rfl

theorem peek_eq (h : s.Faces (x :: ts)) : s.peek = ts.headD .endOfInput := by
  have next := h 1
  cases ts <;> exact next

theorem enter (h : s.Faces ts) : s.enter.Faces ts := fun n => by
  rw [tokenAt_enter, h]

theorem leave (h : s.Faces ts) : s.leave.Faces ts := fun n => by
  rw [tokenAt_leave, h]

theorem report {diagnostic : Diagnostic} (h : s.Faces ts) : (s.report diagnostic).Faces ts :=
  fun n => (tokenAt_reportAll n s [diagnostic]).trans (h n)

theorem moves (front : List Token) (h : s.Faces (front ++ back)) :
    (Parser.advance^[front.length] s).Faces back := by
  induction front generalizing s with
  | nil => exact h
  | cons x front ih =>
    rw [List.length_cons, Function.iterate_succ_apply]
    exact ih h.advance

theorem leads (h : s.Faces ts) (moved : Leads s t) : ∃ n, t.Faces (ts.drop n) := by
  obtain ⟨m, same⟩ := moved.tokenAt_eq
  refine ⟨m, fun n => ?_⟩
  rw [same, h, List.getD_eq_getElem?_getD, List.getD_eq_getElem?_getD, List.getElem?_drop]

theorem upcoming_eq (h : s.Faces (front ++ back)) : upcoming front.length s = front := by
  induction front generalizing s with
  | nil => rfl
  | cons x front ih => rw [List.length_cons, upcoming, h.current_eq, ih h.advance]

theorem exists_append (h : s.Faces ts) (more : ∀ x ∈ upcoming n s, x.kind ≠ .endOfInput) :
    ∃ back, ts = upcoming n s ++ back ∧ (Parser.advance^[n] s).Faces back := by
  induction n generalizing s ts with
  | zero => exact ⟨ts, rfl, h⟩
  | succ n ih =>
    obtain ⟨first, others⟩ := List.forall_mem_cons.1 more
    cases ts with
    | nil => exact absurd (congrArg Token.kind h.current_eq_endOfInput) first
    | cons x ts =>
      obtain ⟨back, rfl, there⟩ := ih h.advance others
      refine ⟨back, ?_, there⟩
      rw [upcoming, h.current_eq, List.cons_append]

theorem tokenAt_length (h : s.Faces (front ++ back)) :
    s.tokenAt front.length = back.headD .endOfInput := by
  have there := h.moves front 0
  rw [tokenAt_iterate_advance] at there
  cases back <;> exact there

end Faces

end LetArith.Parser
