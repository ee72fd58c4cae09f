namespace BinaryTape

/-!
Tape symbols.

The machines of this library work on a binary alphabet.  A symbol is written as
one character in tables, on tapes and in program text, so its character is its
only text form.
-/

/-- The content of one tape cell. -/
inductive Symbol where
  | zero
  | one
  deriving DecidableEq, Hashable, Repr, Inhabited

namespace Symbol

/-- Both symbols, in the order in which rules are emitted for them. -/
def all : List Symbol := [zero, one]

/-- The symbol written as the given character, if there is one. -/
def ofChar? : Char -> Option Symbol
  | '0' => some zero
  | '1' => some one
  | _ => none

def toChar : Symbol -> Char
  | zero => '0'
  | one => '1'

def text (symbol : Symbol) : String := symbol.toChar.toString

instance : ToString Symbol := ⟨text⟩

@[simp] theorem ofChar?_toChar (symbol : Symbol) :
    ofChar? symbol.toChar = some symbol := by
  cases symbol <;> rfl

theorem mem_all (symbol : Symbol) : symbol ∈ all := by
  cases symbol <;> decide

end Symbol

end BinaryTape
