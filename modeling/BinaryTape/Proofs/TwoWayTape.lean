import Mathlib.Order.Bounds.Basic
import BinaryTape.Proofs.Runs

namespace BinaryTape

/-!
# Machines on a tape without edges

A tape grows when its head leaves it, and a cell that is added on the left moves the
positions of all others.  The ideal machine has no such thing: its tape is a function
on the integers, its head is anywhere, and it looks rules up by going through the
table.

A machine follows an ideal one at an offset, the number of cells that were added on
the left so far.  Only a move can change it.  Seen from the tape as it was before the
move, the cells of the tape behind it reach exactly one further if the head did, and
nothing is written on the way; so the cells are always those between the leftmost and
the rightmost position among the initial ones and all that the head has been at.

All of this is told of rows, in which a position is a number and could be anywhere.
That the head stays on the tape is a fact about the arithmetic of moves then, and it
is carried along from the first position.
-/

/-- How far a direction takes the head. -/
def Direction.shift : Direction -> Int
  | .left => -1
  | .right => 1
  | .stay => 0

/-- A program in execution on a tape that goes on forever in both directions. -/
structure IdealMachine where
  program : Program
  state : StateName
  position : Int
  content : Int -> Symbol
  steps : Nat

namespace IdealMachine

/-- An endless tape that holds these cells from position zero on and zeros elsewhere. -/
def inscribed (cells : List Symbol) (position : Int) : Symbol :=
  if position < 0 then .zero else cells.getD position.toNat .zero

/-- The machine in its start state, on an endless tape that holds the given cells. -/
def start (program : Program) (cells : List Symbol) (head : Nat) : IdealMachine where
  program := program
  state := program.start
  position := head
  content := inscribed cells
  steps := 0

/-- Apply a rule: write, move, change state and count the step. -/
def apply (machine : IdealMachine) (rule : Rule) : IdealMachine :=
  { machine with
    state := rule.next
    position := machine.position + rule.move.shift
    content := fun position =>
      if position = machine.position then rule.write else machine.content position
    steps := machine.steps + 1 }

/-- Execute one step with the first rule of the table. -/
def step (machine : IdealMachine) : Outcome × IdealMachine :=
  if machine.program.isEnd machine.state then (.halted, machine)
  else
    match machine.program.rule? machine.state (machine.content machine.position) with
    | none => (.stuck machine.state (machine.content machine.position), machine)
    | some rule =>
        (if machine.program.isEnd rule.next then .halted else .running, machine.apply rule)

/-- The machine after so many calls of `step`. -/
def afterCalls (machine : IdealMachine) : Nat -> IdealMachine
  | 0 => machine
  | calls + 1 => (machine.afterCalls calls).step.2

/-- The positions of the first cells, this many, and all that the head has been at. -/
def touched (machine : IdealMachine) (length calls : Nat) : Set Int :=
  { position | (0 ≤ position ∧ position < length) ∨
    Exists fun call : Nat => call ≤ calls ∧ (machine.afterCalls call).position = position }

/-! ## Inscriptions -/

theorem inscribed_of_lt {cells : List Symbol} {position : Nat}
    (inside : position < cells.length) :
    cells[position]? = some (inscribed cells position) := by
  simp [inscribed, inside]

theorem inscribed_of_outside {cells : List Symbol} {position : Int}
    (outside : position < 0 ∨ cells.length ≤ position) : inscribed cells position = .zero := by
  unfold inscribed
  split
  · rfl
  · have behind : cells.length ≤ position.toNat := by omega
    rw [List.getD_eq_getElem?_getD, List.getElem?_eq_none behind]
    rfl

/-- A fresh cell on the left shifts all positions. -/
theorem inscribed_cons_zero (cells : List Symbol) (position : Int) :
    inscribed (.zero :: cells) (position + 1) = inscribed cells position := by
  unfold inscribed
  by_cases negative : position < 0
  · by_cases edge : position = -1
    · subst edge
      rfl
    · rw [if_pos (by omega), if_pos negative]
  · have moved : (position + 1).toNat = position.toNat + 1 := by omega
    rw [if_neg (by omega), if_neg negative, moved]
    rfl

/-- A fresh cell on the right shows what was there before. -/
theorem inscribed_append_zero (cells : List Symbol) (position : Int) :
    inscribed (cells ++ [.zero]) position = inscribed cells position := by
  by_cases inside : 0 ≤ position ∧ position < cells.length
  · have bounded : position.toNat < cells.length := by omega
    simp [inscribed, List.getElem?_append_left bounded]
  · have outside : position < 0 ∨ cells.length ≤ position := by omega
    rw [inscribed_of_outside outside]
    by_cases edge : position = cells.length
    · subst edge
      simp [inscribed]
    · apply inscribed_of_outside
      rw [List.length_append, List.length_singleton]
      omega

theorem inscribed_set {cells : List Symbol} {head : Nat} (inside : head < cells.length)
    (symbol : Symbol) (position : Int) :
    inscribed (cells.set head symbol) position =
      if position = head then symbol else inscribed cells position := by
  by_cases here : position = head
  · subst here
    simp [inscribed, inside]
  · rw [if_neg here]
    unfold inscribed
    split
    · rfl
    · have elsewhere : head ≠ position.toNat := by omega
      rw [List.getD_eq_getElem?_getD, List.getElem?_set_ne elsewhere, List.getD_eq_getElem?_getD]

end IdealMachine

open IdealMachine (inscribed)

/-! ## Growing tapes -/

namespace Tape

theorem inscribed_cells_head (tape : Tape) : inscribed tape.cells tape.head = tape.focus := by
  simp [inscribed, cells, head]

namespace Row

theorem Inside.write {row : Row} (inside : row.Inside) (symbol : Symbol) :
    (row.write symbol).Inside := by
  simpa [Inside, Row.write] using inside

/--
What a move does to a row.  So many cells are new on the left; the position has gone as
far as the direction says, every old cell is where it was, and the edges lie where
they did or where the position is now.
-/
structure Grown (before : Row) (direction : Direction) (fresh : Nat) (after : Row) : Prop where
  head_eq : (after.2 : Int) = before.2 + direction.shift + fresh
  cells_eq : forall position : Int,
    inscribed after.1 (position + fresh) = inscribed before.1 position
  left_edge : -(fresh : Int) = min (before.2 + direction.shift) 0
  right_edge : (after.1.length : Int) - 1 - fresh =
    max (before.2 + direction.shift) (before.1.length - 1)

variable {before after : Row} {direction : Direction} {fresh : Nat}

/-- Behind a move the position is that of a cell, because the right edge has gone with it. -/
theorem Grown.inside (grown : Grown before direction fresh after) : after.Inside := by
  have moved := grown.head_eq
  have edge := grown.right_edge
  unfold Inside
  omega

/-- A move to a cell adds nothing. -/
private theorem Grown.within {cells : List Symbol} {head there : Nat}
    (moved : (there : Int) = head + direction.shift) (bounded : there < cells.length) :
    Grown (cells, head) direction 0 (cells, there) where
  head_eq := by
    dsimp only
    omega
  cells_eq position := by simp
  left_edge := by
    dsimp only
    omega
  right_edge := by
    dsimp only
    omega

/-- Every move grows the row by the cell that the position comes to, if it is new. -/
theorem exists_grown {row : Row} (inside : row.Inside) (direction : Direction) :
    Exists fun fresh : Nat => Grown row direction fresh (row.move direction) := by
  rcases row with ⟨cells, head⟩
  have here : head < cells.length := inside
  cases direction with
  | stay => exact ⟨0, .within (by simp [Direction.shift]) here⟩
  | left =>
      by_cases edge : head = 0
      · subst edge
        have moved : move .left (cells, 0) = (.zero :: cells, 0) := rfl
        rw [moved]
        refine ⟨1, rfl, IdealMachine.inscribed_cons_zero cells, rfl, ?_⟩
        simp only [Direction.shift, List.length_cons]
        omega
      · have moved : move .left (cells, head) = (cells, head - 1) := if_neg edge
        rw [moved]
        exact ⟨0, .within (by simp only [Direction.shift]; omega) (by omega)⟩
  | right =>
      by_cases room : head + 1 < cells.length
      · have moved : move .right (cells, head) = (cells, head + 1) := by simp [move, room]
        rw [moved]
        exact ⟨0, .within (by simp only [Direction.shift]; omega) room⟩
      · have moved : move .right (cells, head) = (cells ++ [.zero], head + 1) := by
          simp [move, room]
        rw [moved]
        refine ⟨0, ?_, ?_, ?_, ?_⟩
        · simp only [Direction.shift]
          omega
        · intro position
          rw [IdealMachine.inscribed_append_zero]
          simp
        · simp only [Direction.shift]
          omega
        · simp only [Direction.shift, List.length_append, List.length_singleton]
          omega

end Row

end Tape

/-- Applying a rule does to the row of the tape what it says. -/
theorem Machine.row_apply (machine : Machine) (rule : Rule) :
    (machine.apply rule).tape.row = (machine.tape.row.write rule.write).move rule.move := by
  rw [← Tape.row_write, ← Tape.row_move]
  rfl

/-! ## Following an ideal machine -/

namespace IdealMachine

/-- A machine is where an ideal machine is, with so many cells added on the left. -/
structure Follows (ideal : IdealMachine) (machine : Machine) (offset : Nat) : Prop where
  program_eq : machine.program = ideal.program
  state_eq : machine.state = ideal.state
  steps_eq : machine.steps = ideal.steps
  inside : machine.tape.row.Inside
  head_eq : (machine.tape.head : Int) = ideal.position + offset
  content_eq : forall position : Int,
    ideal.content position = inscribed machine.tape.cells (position + offset)

variable {ideal : IdealMachine} {machine : Machine} {offset : Nat}

theorem Follows.symbol_eq (follows : Follows ideal machine offset) :
    machine.symbol = ideal.content ideal.position := by
  rw [follows.content_eq, ← follows.head_eq, Tape.inscribed_cells_head]
  rfl

/-- The content of the tape under the head was read and is replaced. -/
theorem Follows.apply (follows : Follows ideal machine offset) {rule : Rule} {fresh : Nat}
    (grown : Tape.Row.Grown (machine.tape.row.write rule.write) rule.move fresh
      (machine.apply rule).tape.row) :
    Follows (ideal.apply rule) (machine.apply rule) (offset + fresh) where
  program_eq := follows.program_eq
  state_eq := rfl
  steps_eq := congrArg Nat.succ follows.steps_eq
  inside := grown.inside
  head_eq := by
    have moved : ((machine.apply rule).tape.head : Int) =
        machine.tape.head + rule.move.shift + fresh := grown.head_eq
    have before := follows.head_eq
    simp only [IdealMachine.apply]
    omega
  content_eq position := by
    have old : inscribed (machine.apply rule).tape.cells (position + offset + fresh) =
        inscribed (machine.tape.cells.set machine.tape.head rule.write) (position + offset) :=
      grown.cells_eq (position + offset)
    have bounded : machine.tape.head < machine.tape.cells.length := follows.inside
    have before := follows.head_eq
    simp only [IdealMachine.apply, Int.natCast_add, ← Int.add_assoc]
    rw [old, inscribed_set bounded, follows.content_eq]
    by_cases here : position = ideal.position
    · rw [if_pos here, if_pos (by omega)]
    · rw [if_neg here, if_neg (by omega)]

/-- One step of both machines: the same outcome, and the edges of the tape lie where
they did or where the head has come to. -/
theorem Follows.step (follows : Follows ideal machine offset) :
    machine.step.1 = ideal.step.1 ∧ Exists fun later : Nat =>
      Follows ideal.step.2 machine.step.2 later ∧
        -(later : Int) = min ideal.step.2.position (-offset) ∧
        (machine.step.2.tape.length : Int) - 1 - later =
          max ideal.step.2.position (machine.tape.length - 1 - offset) := by
  have inside : machine.tape.head < machine.tape.length := follows.inside
  have here := follows.head_eq
  have unmoved : Exists fun later : Nat => Follows ideal machine later ∧
      -(later : Int) = min ideal.position (-offset) ∧
      (machine.tape.length : Int) - 1 - later =
        max ideal.position (machine.tape.length - 1 - offset) :=
    ⟨offset, follows, by omega, by omega⟩
  have halted : machine.isHalted = ideal.program.isEnd ideal.state := by
    rw [Machine.isHalted, follows.program_eq, follows.state_eq]
  have found : machine.transition? =
      ideal.program.rule? ideal.state (ideal.content ideal.position) := by
    rw [Machine.transition?_eq_first?, Program.rule?_eq_first?, follows.program_eq,
      follows.state_eq, follows.symbol_eq]
  unfold Machine.step IdealMachine.step
  rw [halted, found]
  split
  · exact ⟨rfl, unmoved⟩
  · cases ideal.program.rule? ideal.state (ideal.content ideal.position) with
    | none =>
        dsimp only
        rw [follows.state_eq, follows.symbol_eq]
        exact ⟨rfl, unmoved⟩
    | some rule =>
        rcases Tape.Row.exists_grown (follows.inside.write rule.write) rule.move with
          ⟨fresh, grown⟩
        rw [← machine.row_apply] at grown
        have next := follows.apply grown
        have ends : (machine.apply rule).isHalted = ideal.program.isEnd rule.next := by
          rw [Machine.isHalted, next.program_eq, next.state_eq]
          rfl
        dsimp only
        rw [ends]
        refine ⟨rfl, offset + fresh, next, ?_, ?_⟩
        · have left : -(fresh : Int) = min (machine.tape.head + rule.move.shift) 0 :=
            grown.left_edge
          simp only [IdealMachine.apply]
          omega
        · have written : (machine.tape.row.write rule.write).1.length = machine.tape.length :=
            List.length_set
          have right : ((machine.apply rule).tape.length : Int) - 1 - fresh =
              max (machine.tape.head + rule.move.shift) (machine.tape.length - 1) :=
            written ▸ grown.right_edge
          simp only [IdealMachine.apply]
          omega

/-! ## Runs -/

theorem touched_succ (machine : IdealMachine) (length calls : Nat) :
    machine.touched length (calls + 1) =
      insert (machine.afterCalls (calls + 1)).position (machine.touched length calls) := by
  ext position
  constructor
  · rintro (initial | ⟨call, atMost, same⟩)
    · exact Or.inr (Or.inl initial)
    · rcases Nat.lt_or_eq_of_le atMost with earlier | last
      · exact Or.inr (Or.inr ⟨call, Nat.le_of_lt_succ earlier, same⟩)
      · subst last
        exact Or.inl same.symm
  · rintro (last | initial | ⟨call, atMost, same⟩)
    · exact Or.inr ⟨calls + 1, Nat.le_refl _, last.symm⟩
    · exact Or.inl initial
    · exact Or.inr ⟨call, Nat.le_succ_of_le atMost, same⟩

end IdealMachine

theorem Machine.afterCalls_succ (machine : Machine) (calls : Nat) :
    machine.afterCalls (calls + 1) = (machine.afterCalls calls).step.2 := by
  induction calls generalizing machine with
  | zero => rfl
  | succ calls inductionHypothesis => exact inductionHypothesis machine.step.2

namespace IdealMachine

/-- A machine that follows an ideal one, on a tape that reaches from the leftmost to
the rightmost of these positions. -/
structure Covers (positions : Set Int) (ideal : IdealMachine) (machine : Machine)
    (offset : Nat) : Prop extends Follows ideal machine offset where
  leftmost : IsLeast positions (-offset)
  rightmost : IsGreatest positions (machine.tape.length - 1 - offset)

/-- A machine that has done nothing covers the cells of its tape. -/
theorem Covers.initial {program : Program} {cells : List Symbol} {head : Nat} {tape : Tape}
    (bounded : head < cells.length) (cellsSame : tape.cells = cells)
    (headSame : tape.head = head) :
    Covers ((start program cells head).touched cells.length 0) (start program cells head)
      ((Machine.ofProgram program).withTape tape) 0 := by
  subst cellsSame headSame
  have inside : tape.head < tape.length := bounded
  have window : forall position, position ∈ (start program tape.cells tape.head).touched
      tape.cells.length 0 ↔ 0 ≤ position ∧ position < tape.length := by
    intro position
    constructor
    · rintro (initial | ⟨call, atMost, same⟩)
      · exact initial
      · rw [Nat.le_zero.mp atMost] at same
        have located : (tape.head : Int) = position := same
        omega
    · exact Or.inl
  refine ⟨⟨rfl, rfl, rfl, inside, ?_, ?_⟩, ?_, ?_⟩
  · exact (Int.add_zero _).symm
  · intro position
    exact congrArg (inscribed tape.cells) (Int.add_zero position).symm
  · refine ⟨(window _).mpr ?_, fun position touched => ?_⟩
    · omega
    · have bounds := (window position).mp touched
      omega
  · have lengths : ((Machine.ofProgram program).withTape tape).tape.length = tape.length := rfl
    refine ⟨(window _).mpr ?_, fun position touched => ?_⟩
    · omega
    · have bounds := (window position).mp touched
      omega

/-- Following goes on from call to call. -/
theorem Covers.afterCalls {ideal : IdealMachine} {machine : Machine} {offset length : Nat}
    (covers : Covers (ideal.touched length 0) ideal machine offset) (calls : Nat) :
    Exists fun later : Nat => Covers (ideal.touched length calls) (ideal.afterCalls calls)
      (machine.afterCalls calls) later := by
  induction calls with
  | zero => exact ⟨offset, covers⟩
  | succ calls inductionHypothesis =>
      rcases inductionHypothesis with ⟨middle, before⟩
      rcases before.step with ⟨-, later, next, left, right⟩
      refine ⟨later, ?_, ?_, ?_⟩
      · rw [Machine.afterCalls_succ]
        exact next
      · rw [touched_succ, left]
        exact before.leftmost.insert _
      · rw [touched_succ, Machine.afterCalls_succ, right]
        exact before.rightmost.insert _

end IdealMachine

theorem Tape.head_of_ofCells? {cells : List Symbol} {head : Nat} {tape : Tape}
    (found : ofCells? cells head = some tape) : tape.head = head := by
  unfold ofCells? at found
  cases remaining : cells.drop head with
  | nil => simp [remaining] at found
  | cons focus right =>
      have inside : head < cells.length := by
        apply Nat.lt_of_not_le
        intro outside
        simp [List.drop_eq_nil_iff.mpr outside] at remaining
      simp only [remaining, Option.some.injEq] at found
      subst found
      simp only [Tape.head, List.length_reverse, List.length_take]
      omega

namespace Machine

theorem mapM_ofChar?_toChar (cells : List Symbol) :
    (cells.map Symbol.toChar).mapM Symbol.ofChar? = some cells := by
  induction cells with
  | nil => rfl
  | cons symbol cells inductionHypothesis =>
      simp [inductionHypothesis]

/-- Cells and a head inside them can be loaded, and make up the tape. -/
theorem exists_loadTape (machine : Machine) {cells : List Symbol} {head : Nat}
    (inside : head < cells.length) :
    Exists fun tape : Tape => tape.cells = cells ∧ tape.head = head ∧
      machine.loadTape (String.ofList (cells.map Symbol.toChar)) head =
        .ok (machine.withTape tape) := by
  cases found : Tape.ofCells? cells head with
  | none => exact absurd ((Tape.ofCells?_eq_none_iff cells head).mp found) (by omega)
  | some tape =>
      refine ⟨tape, Tape.cells_of_ofCells? found, Tape.head_of_ofCells? found, ?_⟩
      cases cells with
      | nil => cases inside
      | cons first rest =>
          rw [loadTape, Tape.parse, String.toList_ofList, mapM_ofChar?_toChar]
          dsimp only
          rw [found]
          rfl

/--
The machine refines a machine on a tape that is infinite in both directions.  Any
cells with a head inside them can be loaded.  After any number of calls the machine is
in the state of the ideal machine, has counted as many steps and has given the same
outcomes; its head is on its tape; and there is an offset such that the tape shows the
endless one, which holds zeros elsewhere, from the leftmost to the rightmost of the
initial positions and all that the head has been at.
-/
theorem machine_refines_ideal (program : Program) (cells : List Symbol) (head : Nat)
    (inside : head < cells.length) :
    Exists fun machine : Machine =>
      (ofProgram program).loadTape (String.ofList (cells.map Symbol.toChar)) head =
        .ok machine ∧
      forall (calls : Nat) (concrete : Machine) (ideal : IdealMachine),
        concrete = machine.afterCalls calls ->
        ideal = (IdealMachine.start program cells head).afterCalls calls ->
          concrete.state = ideal.state ∧
          (forall call, call < calls -> (machine.afterCalls call).step.1 =
            ((IdealMachine.start program cells head).afterCalls call).step.1) ∧
          concrete.steps = ideal.steps ∧
          concrete.tape.head < concrete.tape.length ∧
          Exists fun offset : Nat =>
            ideal.position = concrete.tape.head - offset ∧
            (forall cell : Nat, cell < concrete.tape.length ->
              concrete.tape.cells[cell]? = some (ideal.content (cell - offset))) ∧
            (forall position : Int,
              position < -offset ∨ concrete.tape.length - offset ≤ position ->
                ideal.content position = .zero) ∧
            IsLeast ((IdealMachine.start program cells head).touched cells.length calls)
              (-offset) ∧
            IsGreatest ((IdealMachine.start program cells head).touched cells.length calls)
              (concrete.tape.length - 1 - offset) := by
  rcases (ofProgram program).exists_loadTape inside with ⟨tape, cellsSame, headSame, loaded⟩
  refine ⟨_, loaded, ?_⟩
  have initially : IdealMachine.Covers
      ((IdealMachine.start program cells head).touched cells.length 0)
      (IdealMachine.start program cells head) ((ofProgram program).withTape tape) 0 :=
    .initial inside cellsSame headSame
  rintro calls concrete ideal rfl rfl
  rcases initially.afterCalls calls with ⟨offset, covers⟩
  have outcomes : forall call, ((ofProgram program).withTape tape).afterCalls call |>.step.1 =
      ((IdealMachine.start program cells head).afterCalls call).step.1 := by
    intro call
    rcases initially.afterCalls call with ⟨_, earlier⟩
    exact earlier.step.1
  have located := covers.head_eq
  refine ⟨covers.state_eq, fun call _ => outcomes call, covers.steps_eq,
    covers.inside, offset, by omega, ?_, ?_, covers.leftmost, covers.rightmost⟩
  · intro cell bounded
    rw [covers.content_eq, IdealMachine.inscribed_of_lt bounded]
    congr 2
    omega
  · intro position outside
    rw [covers.content_eq]
    apply IdealMachine.inscribed_of_outside
    change _ ∨ ((afterCalls _ calls).tape.length : Int) ≤ _
    omega

/-- A program that goes left over the edge of a single cell twice and writes on the way.
The ideal machine is at position minus two then, and the machine at the left edge. -/
theorem machine_refines_ideal_over_edge :
    0 < [Symbol.one].length ∧
      Exists fun machine : Machine =>
        (ofProgram ⟨"A", ["E"], [⟨"A", .one, "B", .zero, .left⟩, ⟨"B", .zero, "E", .one, .left⟩]⟩
          ).loadTape "1" 0 = .ok machine ∧
        (machine.afterCalls 2).state = "E" ∧ (machine.afterCalls 2).steps = 2 ∧
        (machine.afterCalls 1).step.1 = .halted ∧
        Exists fun offset : Nat => (-2 : Int) = (machine.afterCalls 2).tape.head - offset := by
  refine ⟨by decide, ?_⟩
  rcases machine_refines_ideal
    ⟨"A", ["E"], [⟨"A", .one, "B", .zero, .left⟩, ⟨"B", .zero, "E", .one, .left⟩]⟩
    [.one] 0 (by decide) with ⟨machine, loaded, follows⟩
  rcases follows 2 _ _ rfl rfl with ⟨state, outcomes, steps, -, offset, located, -⟩
  exact ⟨machine, loaded, state, steps, outcomes 1 (by decide), offset, located⟩

end Machine
end BinaryTape
