/-!
Offsets into a text that count its UTF-8 bytes. An offset is usable where some characters end
exactly there (`dropBytes?_eq_some_iff`): not past the end and not inside a character.
-/

namespace LetArith.Text

def byteSize : List Char → Nat
  | [] => 0
  | c :: rest => c.utf8Size + byteSize rest

@[simp] theorem byteSize_nil : byteSize [] = 0 := rfl

@[simp] theorem byteSize_cons (c : Char) (text : List Char) :
    byteSize (c :: text) = c.utf8Size + byteSize text := rfl

@[simp] theorem byteSize_append (front back : List Char) :
    byteSize (front ++ back) = byteSize front + byteSize back := by
  induction front with
  | nil => simp
  | cons c front ih => simp [ih, Nat.add_assoc]

theorem byteSize_ofList (text : List Char) : (String.ofList text).utf8ByteSize = byteSize text := by
  induction text with
  | nil => rfl
  | cons c text ih =>
    rw [String.ofList_cons, String.utf8ByteSize_append, String.utf8ByteSize_singleton, ih,
      byteSize_cons]

@[simp] theorem byteSize_toList (text : String) : byteSize text.toList = text.utf8ByteSize := by
  rw [← byteSize_ofList, String.ofList_toList]

theorem byteSize_pos {text : List Char} (nonempty : text ≠ []) : 0 < byteSize text := by
  cases text with
  | nil => exact absurd rfl nonempty
  | cons c text => exact Nat.add_pos_left c.utf8Size_pos _

def offsets (start : Nat) : List Char → List (Nat × Char)
  | [] => []
  | c :: rest => (start, c) :: offsets (start + c.utf8Size) rest

def dropBytes? (offset : Nat) : List Char → Option (List Char)
  | [] => if offset = 0 then some [] else none
  | c :: rest =>
    if offset = 0 then some (c :: rest)
    else if c.utf8Size ≤ offset then dropBytes? (offset - c.utf8Size) rest
    else none

theorem dropBytes?_eq_some_iff {offset : Nat} {text rest : List Char} :
    dropBytes? offset text = some rest ↔ ∃ front, text = front ++ rest ∧ byteSize front = offset := by
  induction text generalizing offset with
  | nil =>
    by_cases start : offset = 0
    · subst start
      simp only [dropBytes?, if_true, Option.some.injEq, List.nil_eq_append_iff]
      exact ⟨fun h => ⟨[], ⟨rfl, h.symm⟩, rfl⟩, fun ⟨_, ⟨_, h⟩, _⟩ => h.symm⟩
    · simp only [dropBytes?, start, if_false, List.nil_eq_append_iff, false_iff, reduceCtorEq]
      rintro ⟨front, ⟨rfl, _⟩, size⟩
      exact start size.symm
  | cons c text ih =>
    have positive := c.utf8Size_pos
    by_cases start : offset = 0
    · subst start
      simp only [dropBytes?, if_true, Option.some.injEq]
      constructor
      · rintro rfl
        exact ⟨[], rfl, rfl⟩
      · rintro ⟨front, split, size⟩
        cases front with
        | nil => simpa using split
        | cons d front => have := d.utf8Size_pos; simp at size; omega
    · by_cases fits : c.utf8Size ≤ offset
      · simp only [dropBytes?, start, fits, if_false, if_true, ih]
        constructor
        · rintro ⟨front, rfl, size⟩
          exact ⟨c :: front, rfl, by simp [size]; omega⟩
        · rintro ⟨front, split, size⟩
          cases front with
          | nil => exact absurd size.symm start
          | cons d front =>
            simp only [List.cons_append, List.cons.injEq] at split
            obtain ⟨rfl, rfl⟩ := split
            exact ⟨front, rfl, by simp at size; omega⟩
      · simp only [dropBytes?, start, fits, if_false, reduceCtorEq, false_iff]
        rintro ⟨front, split, size⟩
        cases front with
        | nil => exact start size.symm
        | cons d front =>
          simp only [List.cons_append, List.cons.injEq] at split
          obtain ⟨rfl, rfl⟩ := split
          simp at size
          omega

def takeBytes? (offset : Nat) (text : List Char) : Option (List Char) :=
  (dropBytes? offset text).map fun rest => text.take (text.length - rest.length)

end LetArith.Text
