import BinaryTape.Error

namespace BinaryTape

/-!
Tapes.

A tape is seen from its head: the cells to the left with the nearest one first,
the cell under the head, and the cells to the right.  In this form a head
position outside the tape cannot be expressed.  Both edges are open; a head that
moves past one of them finds a fresh cell that holds zero.

The same tape can be told as a row of cells with a position in it.  Writing and
moving are then operations on the cells and arithmetic on the position, and they
do to the row of a tape what they do to the tape.
-/

/-- A finite, non-empty row of cells with a head on one of them. -/
structure Tape where
  left : List Symbol
  focus : Symbol
  right : List Symbol
  deriving DecidableEq, Repr

namespace Tape

/-- A single cell that holds zero. -/
def blank : Tape := ⟨[], .zero, []⟩

/-- All cells from left to right. -/
def cells (tape : Tape) : List Symbol :=
  tape.left.reverse ++ tape.focus :: tape.right

/-- The position of the head, counted from the leftmost cell. -/
def head (tape : Tape) : Nat := tape.left.length

def length (tape : Tape) : Nat := tape.cells.length

/-- The symbols of all cells, written one after the other. -/
def text (tape : Tape) : String := String.ofList (tape.cells.map Symbol.toChar)

def write (symbol : Symbol) (tape : Tape) : Tape := { tape with focus := symbol }

/-- Move the head; past an edge it finds a fresh zero. -/
def move : Direction -> Tape -> Tape
  | .stay, tape => tape
  | .left, ⟨[], focus, right⟩ => ⟨[], .zero, focus :: right⟩
  | .left, ⟨nearest :: left, focus, right⟩ => ⟨left, nearest, focus :: right⟩
  | .right, ⟨left, focus, []⟩ => ⟨focus :: left, .zero, []⟩
  | .right, ⟨left, focus, nearest :: right⟩ => ⟨focus :: left, nearest, right⟩

/-- The tape with the given cells and head position, if there is such a cell. -/
def ofCells? (cells : List Symbol) (head : Nat) : Option Tape :=
  match cells.drop head with
  | [] => none
  | focus :: right => some ⟨(cells.take head).reverse, focus, right⟩

/--
Read a tape from its text.  The text is checked before the head position, so a
tape with a bad symbol is reported as such whatever the head is.
-/
def parse (text : String) (head : Nat) : Except Error Tape :=
  match text.toList.mapM Symbol.ofChar? with
  | none | some [] => .error (.invalidTape text)
  | some cells =>
      match ofCells? cells head with
      | some tape => .ok tape
      | none => .error (.invalidHead head cells.length)

theorem ofCells?_eq_none_iff (cells : List Symbol) (head : Nat) :
    ofCells? cells head = none <-> cells.length ≤ head := by
  unfold ofCells?
  cases remaining : cells.drop head with
  | nil => simpa using List.drop_eq_nil_iff.mp remaining
  | cons focus right =>
      have inside : Not (cells.length ≤ head) := fun outside => by
        simp [List.drop_eq_nil_iff.mpr outside] at remaining
      simp [inside]

theorem cells_of_ofCells? {cells : List Symbol} {head : Nat} {tape : Tape}
    (found : ofCells? cells head = some tape) : tape.cells = cells := by
  unfold ofCells? at found
  cases remaining : cells.drop head with
  | nil => simp [remaining] at found
  | cons focus right =>
      simp only [remaining, Option.some.injEq] at found
      subst found
      have joined := List.take_append_drop head cells
      rw [remaining] at joined
      simpa [Tape.cells] using joined

/-! ## Tapes as rows of cells -/

/-- Cells and a position, which nothing keeps inside them. -/
abbrev Row := List Symbol × Nat

namespace Row

/-- The position is that of a cell. -/
def Inside (row : Row) : Prop := row.2 < row.1.length

def write (symbol : Symbol) : Row -> Row
  | (cells, head) => (cells.set head symbol, head)

/-- Move the position.  At the first cell a fresh zero is put in front of the row, and a
position behind the last cell gets a fresh zero there. -/
def move : Direction -> Row -> Row
  | .left, (cells, head) => if head = 0 then (.zero :: cells, 0) else (cells, head - 1)
  | .right, (cells, head) =>
      (if head + 1 < cells.length then cells else cells ++ [.zero], head + 1)
  | .stay, row => row

end Row

/-- The cells of a tape and the position of its head. -/
def row (tape : Tape) : Row := (tape.cells, tape.head)

theorem row_write (symbol : Symbol) (tape : Tape) :
    (tape.write symbol).row = tape.row.write symbol := by
  simp [row, Row.write, cells, write, head]

theorem row_move (direction : Direction) (tape : Tape) :
    (tape.move direction).row = tape.row.move direction := by
  rcases tape with ⟨left, focus, right⟩
  cases direction with
  | stay => rfl
  | left =>
      cases left with
      | nil => rfl
      | cons nearest left => simp [row, Row.move, cells, head, move]
  | right =>
      cases right with
      | nil => simp [row, Row.move, cells, head, move]
      | cons nearest right => simp [row, Row.move, cells, head, move]

end Tape

end BinaryTape
