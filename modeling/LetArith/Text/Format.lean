import LetArith.Text.Printable

/-!
How single items are written. A decimal numeral has ASCII digits only, at least one, with or without
leading zeros, and every numeral that is written is read back (`readNat?_repr`). A text made of lines
ends each of them by a line feed, so what is to stand on one line holds none (`OneLine`). A text that
is quoted stands between double quotes, on one line: the double quote, the backslash and the four
common controls have short escapes, and any other unprintable character is given by its code point.
-/

namespace LetArith.Text

/-! ## Numerals -/

def readNat? (numeral : List Char) : Option Nat :=
  if numeral ≠ [] ∧ numeral.all Char.isDigit then some (Nat.ofDigitChars 10 numeral 0) else none

def writeInt : Int → String
  | .ofNat n => n.repr
  | .negSucc n => "-" ++ (n + 1).repr

theorem isDigit_of_mem_repr {n : Nat} : ∀ c ∈ n.repr.toList, c.isDigit = true := by
  rw [Nat.toList_repr]
  exact fun c mem => Nat.isDigit_of_mem_toDigits (by decide) (by decide) mem

theorem repr_toList_ne_nil (n : Nat) : n.repr.toList ≠ [] := by
  rw [Nat.toList_repr]
  exact Nat.toDigits_ne_nil

theorem readNat?_repr (n : Nat) : readNat? n.repr.toList = some n := by
  have numeral : n.repr.toList ≠ [] ∧ n.repr.toList.all Char.isDigit :=
    ⟨repr_toList_ne_nil n, List.all_eq_true.2 isDigit_of_mem_repr⟩
  rw [readNat?, if_pos numeral, Nat.toList_repr, Nat.ofDigitChars_ten_toDigits]

/-! ## Lines -/

def lines : List String → String
  | [] => ""
  | line :: rest => line ++ "\n" ++ lines rest

@[simp] theorem lines_append (front back : List String) :
    lines (front ++ back) = lines front ++ lines back := by
  induction front with
  | nil => simp [lines]
  | cons line front ih => simp [lines, ih, String.append_assoc]

def OneLine (text : String) : Prop :=
  '\n' ∉ text.toList

instance : DecidablePred OneLine := fun text =>
  inferInstanceAs (Decidable ('\n' ∉ text.toList))

@[simp] theorem oneLine_append {front back : String} :
    OneLine (front ++ back) ↔ OneLine front ∧ OneLine back := by
  simp [OneLine]

/-! ## Quotes -/

def escape (c : Char) : List Char :=
  match c with
  | '\x00' => ['\\', '0']
  | '\t' => ['\\', 't']
  | '\n' => ['\\', 'n']
  | '\r' => ['\\', 'r']
  | '"' => ['\\', '"']
  | '\\' => ['\\', '\\']
  | _ => if isPrintable c then [c] else '\\' :: 'u' :: '{' :: Nat.toDigits 16 c.toNat ++ ['}']

def quoted (text : String) : String :=
  String.ofList ('"' :: text.toList.flatMap escape ++ ['"'])

end LetArith.Text
