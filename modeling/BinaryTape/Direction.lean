namespace BinaryTape

/-!
Head directions.

Besides the two moves there is a third direction that keeps the head where it
is.  Rules of that kind never lead anywhere new on the tape, which is what both
compiler passes exploit.
-/

/-- Where the head goes after a rule has written its symbol. -/
inductive Direction where
  | left
  | right
  | stay
  deriving DecidableEq, Hashable, Repr, Inhabited

namespace Direction

/-- The direction written as the given character, if there is one. -/
def ofChar? : Char -> Option Direction
  | '<' => some left
  | '>' => some right
  | '-' => some stay
  | _ => none

def toChar : Direction -> Char
  | left => '<'
  | right => '>'
  | stay => '-'

def text (direction : Direction) : String := direction.toChar.toString

instance : ToString Direction := ⟨text⟩

/-- The word that stands for a direction in structured documents. -/
def name : Direction -> String
  | left => "Left"
  | right => "Right"
  | stay => "Stay"

/-- Whether the head leaves its cell. -/
def moves : Direction -> Bool
  | stay => false
  | _ => true

@[simp] theorem ofChar?_toChar (direction : Direction) :
    ofChar? direction.toChar = some direction := by
  cases direction <;> rfl

theorem moves_eq_false_iff (direction : Direction) :
    direction.moves = false <-> direction = stay := by
  cases direction <;> simp [moves]

theorem moves_eq_true_iff (direction : Direction) :
    direction.moves = true <-> direction = left ∨ direction = right := by
  cases direction <;> simp [moves]

end Direction

end BinaryTape
