import LetArith.Proofs.Rereading

/-!
Both ways to write a program tell programs apart up to the tokens that they keep. Each statement is
written on a line of its own, so it is enough that its line determines it (`Faithful`). From its
canonical text a statement is read back, and the outline of an expression is determined by any text
that starts with it (`outline_append_inj`).
-/

namespace LetArith
open Text

/-! ## Lines -/

namespace Text

/-- Cut at every line feed the text falls into the lines, and nothing stands behind the last. -/
def HasLines (text : String) (parts : List String) : Prop :=
  text.toList.splitOn '\n' = parts.map String.toList ++ [[]]

instance (text : String) (parts : List String) : Decidable (HasLines text parts) :=
  inferInstanceAs (Decidable (text.toList.splitOn '\n' = parts.map String.toList ++ [[]]))

theorem hasLines_lines {parts : List String} (plain : ∀ part ∈ parts, OneLine part) :
    HasLines (lines parts) parts := by
  induction parts with
  | nil => rfl
  | cons part parts ih =>
    obtain ⟨first, others⟩ := List.forall_mem_cons.1 plain
    have behind : (lines (part :: parts)).toList = part.toList ++ '\n' :: (lines parts).toList := by
      simp [lines]
    have cut : ∀ c ∈ part.toList, (c == '\n') = false := fun c mem =>
      beq_eq_false_iff_ne.2 fun same => first (same ▸ mem)
    rw [HasLines, behind, List.splitOn, List.splitOnP_append_cons_of_forall_mem cut '\n' rfl]
    exact congrArg _ (ih others)

example : HasLines "1\n\n-2\n" ["1", "", "-2"] ∧ ¬HasLines "1\n-2" ["1", "-2"] := by decide

theorem HasLines.unique {text : String} {parts parts' : List String} (h : HasLines text parts)
    (h' : HasLines text parts') : parts = parts' := by
  have same := List.append_cancel_right (Eq.trans (Eq.symm h) h')
  exact (List.map_injective_iff.2 fun _ _ => String.toList_inj.1) same

end Text

theorem map_eq_of_map_eq {α β γ : Type} {f : α → β} {g : α → γ} {xs ys : List α}
    (determined : ∀ x ∈ xs, ∀ y ∈ ys, f x = f y → g x = g y) (same : xs.map f = ys.map f) :
    xs.map g = ys.map g := by
  induction xs generalizing ys with
  | nil =>
    cases ys with
    | nil => rfl
    | cons => cases same
  | cons x xs ih =>
    cases ys with
    | nil => cases same
    | cons y ys =>
      obtain ⟨first, others⟩ := List.cons.inj same
      have rest := ih (fun x mem y mem' => determined x (.tail _ mem) y (.tail _ mem')) others
      rw [List.map_cons, List.map_cons, determined x (.head _) y (.head _) first, rest]

/-! ## Faithful lines -/

/-- A way to write plain statements on one line each, which tells them apart but for their
tokens. -/
structure Faithful (render : Statement → String) : Prop where
  render_erased (found : Statement) : render found.erased = render found
  oneLine {found : Statement} (plain : found.Plain) : OneLine (render found)
  erased_eq {found other : Statement} (plain : found.Plain) (plain' : other.Plain)
    (same : render found = render other) : found.erased = other.erased

namespace Faithful

variable {render : Statement → String} {p q : Program} (h : Faithful render)
include h

theorem hasLines (plain : p.Plain) : HasLines (lines (p.map render)) (p.map render) := by
  apply hasLines_lines
  intro part mem
  obtain ⟨found, there, rfl⟩ := List.mem_map.1 mem
  exact h.oneLine (plain found there)

theorem lines_eq_iff (plain : p.Plain) (plain' : q.Plain) :
    lines (p.map render) = lines (q.map render) ↔
      p.map Statement.erased = q.map Statement.erased := by
  constructor
  · intro same
    have lines := h.hasLines plain
    rw [same] at lines
    have rendered := lines.unique (h.hasLines plain')
    refine map_eq_of_map_eq (fun found mem other mem' => ?_) rendered
    exact h.erased_eq (plain found mem) (plain' other mem')
  · intro same
    have render_map (p : Program) : p.map render = (p.map Statement.erased).map render := by
      rw [List.map_map]
      exact List.map_congr_left fun found _ => (h.render_erased found).symm
    rw [render_map, same, ← render_map]

end Faithful

/-! ## Canonical text -/

@[simp] theorem Expr.text_erased (e : Expr) : e.erased.text = e.text := by
  induction e with
  | integer | named => rfl
  | unary _ _ _ ih => simp only [erased, text, ih]
  | binary _ _ _ _ left right => simp only [erased, text, left, right]

@[simp] theorem Statement.text_erased (found : Statement) : found.erased.text = found.text := by
  cases found <;> simp [erased, text]

theorem Expr.Plain.oneLine_text {e : Expr} (plain : e.Plain) : OneLine e.text := by
  induction e with
  | integer => exact oneLine_writeInt plain.1
  | named => exact plain.elim
  | unary _ _ _ ih =>
    obtain ⟨rfl, plain⟩ := plain
    simp +decide [text, ih plain]
  | binary _ _ _ _ first second =>
    obtain ⟨known, left, right⟩ := plain
    simp +decide [text, oneLine_operator known, first left, second right]

theorem Statement.Plain.oneLine_text {found : Statement} (plain : found.Plain) :
    OneLine found.text := by
  cases found with
  | letBinding _ name value =>
    obtain ⟨named, plain⟩ := plain
    simp +decide [text, named.oneLine, plain.oneLine_text]
  | expression _ value => exact Expr.Plain.oneLine_text plain

/-- Alone and with enough room a statement is read back, so its text determines it. -/
theorem Statement.Plain.erased_eq_of_text {found other : Statement} (plain : found.Plain)
    (plain' : other.Plain) (same : found.text = other.text) : found.erased = other.erased := by
  have reread {limit : Nat} {found : Statement} (plain : found.Plain)
      (fits : found.value.textNesting ≤ limit) :
      (parse (Program.text [found]) limit).1 = [found.respelled] := by
    have read := (Program.parse_text_of_fits (p := [found]) (by simpa [Program.Plain] using plain)
      (by simpa [Program.Fits] using fits)).1
    rw [read, List.map_singleton, Program.merge_singleton]
  have first := reread plain (Nat.le_max_left _ other.value.textNesting)
  have second := reread plain' (Nat.le_max_right found.value.textNesting _)
  have whole : Program.text [found] = Program.text [other] := by simp [Program.text, same]
  rw [whole, second] at first
  have respelled : other.respelled = found.respelled := (List.cons.inj first).1
  rw [← erased_respelled found, ← respelled, erased_respelled]

theorem faithful_text : Faithful Statement.text where
  render_erased := Statement.text_erased
  oneLine := Statement.Plain.oneLine_text
  erased_eq := Statement.Plain.erased_eq_of_text

/-! ## Outlines -/

theorem writeInt_append_inj {value other : Int} (positive : 0 ≤ value) (positive' : 0 ≤ other)
    {r r' : List Char} (same : (writeInt value).toList ++ ')' :: r =
      (writeInt other).toList ++ ')' :: r') : value = other ∧ r = r' := by
  obtain ⟨m, rfl⟩ := Int.eq_ofNat_of_zero_le positive
  obtain ⟨n, rfl⟩ := Int.eq_ofNat_of_zero_le positive'
  have stop (r : List Char) : ∀ c ∈ (')' :: r).head?, c.isDigit = false := by
    rintro c ⟨⟩
    decide
  have runs : m.repr.toList ++ ')' :: r = n.repr.toList ++ ')' :: r' := same
  obtain ⟨digits, rest⟩ :=
    run_unique runs isDigit_of_mem_repr isDigit_of_mem_repr (stop r) (stop r')
  have read := readNat?_repr m
  rw [digits, readNat?_repr] at read
  exact ⟨congrArg _ (Option.some.inj read).symm, (List.cons.inj rest).2⟩

theorem operator_append_inj {operator other : String} (known : operator ∈ operators)
    (known' : other ∈ operators) {r r' : List Char}
    (same : operator.toList ++ r = other.toList ++ r') : operator = other ∧ r = r' := by
  obtain ⟨c, chars, -⟩ := exists_mark_of_mem_operators known
  obtain ⟨d, chars', -⟩ := exists_mark_of_mem_operators known'
  rw [chars, chars'] at same
  obtain ⟨rfl, rest⟩ := List.cons.inj same
  exact ⟨String.toList_inj.1 (chars.trans chars'.symm), rest⟩

namespace Expr

theorem Plain.outline_append_inj {e f : Expr} (plain : e.Plain) (plain' : f.Plain)
    {r r' : List Char} (same : e.outline.toList ++ r = f.outline.toList ++ r') :
    e.erased = f.erased ∧ r = r' := by
  induction e generalizing f r r' with
  | named => exact plain.elim
  | integer x value =>
    cases f with
    | named => exact plain'.elim
    | unary | binary => simp [outline] at same
    | integer y value' =>
      obtain ⟨rfl, rest⟩ := writeInt_append_inj plain.1 plain'.1 (by simpa [outline] using same)
      exact ⟨rfl, rest⟩
  | unary x operator operand ih =>
    cases f with
    | named => exact plain'.elim
    | integer | binary => simp [outline] at same
    | unary y operator' operand' =>
      obtain ⟨rfl, plain⟩ := plain
      obtain ⟨rfl, plain'⟩ := plain'
      have closed : operand.outline.toList ++ ')' :: r = operand'.outline.toList ++ ')' :: r' := by
        simpa [outline] using same
      obtain ⟨inner, rest⟩ := ih plain plain' closed
      exact ⟨by rw [erased, erased, inner], (List.cons.inj rest).2⟩
  | binary x operator left right first second =>
    cases f with
    | named => exact plain'.elim
    | integer | unary => simp [outline] at same
    | binary y operator' left' right' =>
      obtain ⟨known, left_plain, right_plain⟩ := plain
      obtain ⟨known', left_plain', right_plain'⟩ := plain'
      simp only [outline, String.toList_append, List.append_assoc,
        List.append_cancel_left_eq] at same
      obtain ⟨rfl, behind⟩ := operator_append_inj known known' same
      obtain ⟨front, behind⟩ := first left_plain left_plain' (List.append_cancel_left behind)
      obtain ⟨back, rest⟩ := second right_plain right_plain' (List.append_cancel_left behind)
      exact ⟨by rw [erased, erased, front, back], List.append_cancel_left rest⟩

end Expr

theorem Name.Plain.append_inj {name other : Name} (plain : name.Plain) (plain' : other.Plain)
    {r r' : List Char} (same : name.text.toList ++ ',' :: r = other.text.toList ++ ',' :: r') :
    name.text = other.text ∧ r = r' := by
  have stop (r : List Char) : ∀ c ∈ (',' :: r).head?, isLetter c = false := by
    rintro c ⟨⟩
    decide
  obtain ⟨letters, rest⟩ := run_unique same (List.all_eq_true.1 plain.2.1)
    (List.all_eq_true.1 plain'.2.1) (stop r) (stop r')
  exact ⟨String.toList_inj.1 letters, (List.cons.inj rest).2⟩

theorem Statement.Plain.erased_eq_of_outline {found other : Statement} (plain : found.Plain)
    (plain' : other.Plain) (same : found.outline = other.outline) :
    found.erased = other.erased := by
  replace same := congrArg String.toList same
  cases found with
  | letBinding x name value =>
    cases other with
    | expression => simp [outline] at same
    | letBinding y name' value' =>
      obtain ⟨named, plain⟩ := plain
      obtain ⟨named', plain'⟩ := plain'
      have listed : name.text.toList ++ ',' :: ' ' :: (value.outline.toList ++ [')']) =
          name'.text.toList ++ ',' :: ' ' :: (value'.outline.toList ++ [')']) := by
        simpa [outline] using same
      obtain ⟨text, behind⟩ := named.append_inj named' listed
      obtain ⟨inner, -⟩ := plain.outline_append_inj plain' (List.cons.inj behind).2
      rw [erased, erased, text, inner]
  | expression start value =>
    cases other with
    | letBinding => simp [outline] at same
    | expression start' value' =>
      have closed : value.outline.toList ++ [')'] = value'.outline.toList ++ [')'] := by
        simpa [outline] using same
      obtain ⟨inner, -⟩ := Expr.Plain.outline_append_inj plain plain' closed
      rw [erased, erased, inner]

theorem faithful_outline : Faithful Statement.outline where
  render_erased := Statement.outline_erased
  oneLine := Statement.Plain.oneLine_outline
  erased_eq := Statement.Plain.erased_eq_of_outline

/-! ## Parsed programs -/

/-- Two parsed programs have the same canonical text, and the same outline, exactly if they differ
in nothing but their tokens. In either form a program has one line for each statement, and that is
the statement written alone. -/
theorem renderings_of_parse (source other : String) (limit limit' : Nat) :
    (Program.text (parse source limit).1 = Program.text (parse other limit').1 ↔
      (parse source limit).1.map Statement.erased = (parse other limit').1.map Statement.erased) ∧
    (Program.outline (parse source limit).1 = Program.outline (parse other limit').1 ↔
      (parse source limit).1.map Statement.erased = (parse other limit').1.map Statement.erased) ∧
    HasLines (Program.text (parse source limit).1) ((parse source limit).1.map Statement.text) ∧
    HasLines (Program.outline (parse source limit).1)
      ((parse source limit).1.map Statement.outline) := by
  have plain := plain_of_parse source limit
  have plain' := plain_of_parse other limit'
  exact ⟨faithful_text.lines_eq_iff plain plain', faithful_outline.lines_eq_iff plain plain',
    faithful_text.hasLines plain, faithful_outline.hasLines plain⟩

end LetArith
