import BinaryTape.Proofs.NormalForm
import BinaryTape.Proofs.TwoWayTape

namespace BinaryTape

/-!
# Runs that do not notice dropped rules

Two machines, one with a whole table and one with what is left of it when the unreachable
rules are dropped, are called one after the other.  As long as they are at the same
configuration and the run can have come there, the next call finds the same rule in both
tables or in none, so it gives the same outcome and the machines are together again.

The condition on the table is that rules which do not move land on end states.  Without
it a machine could come to a state by such a rule that the search for reachable states
did not visit, and would be stuck there only after the rules of that state are dropped.
-/

/-- What is loaded does not depend on the machine. -/
theorem Machine.parse_of_loadTape {machine loaded : Machine} {text : String} {head : Nat}
    (done : machine.loadTape text head = .ok loaded) :
    Exists fun tape : Tape => Tape.parse text head = .ok tape ∧ loaded = machine.withTape tape := by
  unfold loadTape at done
  cases parsed : Tape.parse text head with
  | error error =>
      rw [parsed] at done
      cases done
  | ok tape =>
      rw [parsed] at done
      cases done
      exact ⟨tape, rfl, rfl⟩

namespace Reachability

/-- A machine with the rest of a table is where the machine with the whole table is, and
a run can have come there. -/
structure Shadows (program : Program) (whole reduced : Machine) : Prop where
  whole_program : whole.program = program
  reduced_program : reduced.program = eliminate program
  here_eq : reduced.here = whole.here
  steps_eq : reduced.steps = whole.steps
  visited : Visited program whole.here

variable {program : Program} {whole reduced : Machine}

theorem Shadows.initial (program : Program) (tape : Tape) :
    Shadows program ((Machine.ofProgram program).withTape tape)
      ((Machine.ofProgram (eliminate program)).withTape tape) where
  whole_program := rfl
  reduced_program := rfl
  here_eq := rfl
  steps_eq := rfl
  visited := Or.inr .start

theorem Shadows.successor?_eq (shadows : Shadows program whole reduced) :
    reduced.program.successor? reduced.here = whole.program.successor? whole.here := by
  rw [shadows.reduced_program, shadows.here_eq, shadows.whole_program]
  exact successor?_eliminate shadows.visited

/-- Dropping rules changes no end state. -/
theorem Shadows.isEnd_eq (shadows : Shadows program whole reduced) (state : StateName) :
    reduced.program.isEnd state = whole.program.isEnd state := by
  rw [shadows.reduced_program, shadows.whole_program]
  rfl

/-- One call: the same outcome, and the machines are together behind it. -/
theorem Shadows.step
    (closed : forall rule, rule ∈ program.rules -> Chain.isOpen program.ends rule = false)
    (shadows : Shadows program whole reduced) :
    reduced.step.1 = whole.step.1 ∧ Shadows program whole.step.2 reduced.step.2 := by
  have same := shadows.successor?_eq
  cases next : whole.program.successor? whole.here with
  | none =>
      rw [next] at same
      have states : reduced.state = whole.state := congrArg Configuration.state shadows.here_eq
      have symbols : reduced.symbol = whole.symbol :=
        congrArg (fun here => here.tape.focus) shadows.here_eq
      rw [Machine.step_of_no_successor? same, Machine.step_of_no_successor? next,
        shadows.isEnd_eq, states, symbols]
      exact ⟨rfl, shadows⟩
  | some there =>
      rw [next] at same
      rw [Machine.step_of_successor? same, Machine.step_of_successor? next, shadows.isEnd_eq]
      refine ⟨rfl, shadows.whole_program, shadows.reduced_program, rfl, ?_, ?_⟩
      · exact congrArg (· + 1) shadows.steps_eq
      · rw [shadows.whole_program] at next
        exact shadows.visited.successor? closed next

/-- The machines stay together from call to call. -/
theorem Shadows.afterCalls
    (closed : forall rule, rule ∈ program.rules -> Chain.isOpen program.ends rule = false)
    (shadows : Shadows program whole reduced) (calls : Nat) :
    Shadows program (whole.afterCalls calls) (reduced.afterCalls calls) := by
  induction calls with
  | zero => exact shadows
  | succ calls inductionHypothesis =>
      rw [Machine.afterCalls_succ, Machine.afterCalls_succ]
      exact (inductionHypothesis.step closed).2

/--
Dropping unreachable rules is not noticed by any run of a table whose rules that do not
move land on end states.  On every tape that can be loaded, and after any number of calls,
the machine with the rest of the table is in the same state, on the same tape with its
head in the same place, and has counted the same steps; and every call has had the same
outcome, with the same state and symbol where the machine is stuck.
-/
theorem elimination_unnoticed {program : Program}
    (lands : forall rule, rule ∈ program.rules -> rule.move = .stay ->
      rule.next ∈ program.ends)
    (cells : List Symbol) (head : Nat) (inside : head < cells.length) :
    Exists fun whole : Machine => Exists fun reduced : Machine =>
      (Machine.ofProgram program).loadTape (String.ofList (cells.map Symbol.toChar)) head =
        .ok whole ∧
      (Machine.ofProgram (eliminate program)).loadTape
        (String.ofList (cells.map Symbol.toChar)) head = .ok reduced ∧
      forall calls : Nat,
        (reduced.afterCalls calls).state = (whole.afterCalls calls).state ∧
        (reduced.afterCalls calls).tape.cells = (whole.afterCalls calls).tape.cells ∧
        (reduced.afterCalls calls).tape.head = (whole.afterCalls calls).tape.head ∧
        (reduced.afterCalls calls).steps = (whole.afterCalls calls).steps ∧
        forall call, call < calls ->
          (reduced.afterCalls call).step.1 = (whole.afterCalls call).step.1 := by
  have closed : forall rule, rule ∈ program.rules -> Chain.isOpen program.ends rule = false :=
    fun rule member => (Chain.isOpen_eq_false_iff _ _).mpr (lands rule member)
  rcases (Machine.ofProgram program).exists_loadTape inside with ⟨_, _, _, loaded⟩
  rcases Machine.parse_of_loadTape loaded with ⟨tape, parsed, _⟩
  have loads : forall machine : Machine,
      machine.loadTape (String.ofList (cells.map Symbol.toChar)) head =
        .ok (machine.withTape tape) := by
    intro machine
    rw [Machine.loadTape, parsed]
    rfl
  refine ⟨_, _, loads _, loads _, fun calls => ?_⟩
  have together := (Shadows.initial program tape).afterCalls closed
  have here := (together calls).here_eq
  have tapes := congrArg Configuration.tape here
  exact ⟨congrArg Configuration.state here, congrArg Tape.cells tapes, congrArg Tape.head tapes,
    (together calls).steps_eq, fun call _ => ((together call).step closed).1⟩

/-- A table with two rules for one address, a rule that starts at an end state, a rule
that no run can come to and a move to a state without rules. -/
def strayTable : Program :=
  ⟨"A", ["E"],
    [⟨"A", .one, "B", .zero, .left⟩, ⟨"A", .one, "E", .one, .stay⟩,
     ⟨"E", .zero, "A", .one, .right⟩, ⟨"C", .zero, "A", .one, .left⟩]⟩

/-- The first call moves over the left edge, and the second one finds no rule. -/
theorem elimination_unnoticed_of_stray :
    (forall rule, rule ∈ strayTable.rules -> rule.move = .stay -> rule.next ∈ strayTable.ends) ∧
    0 < [Symbol.one].length ∧
    Exists fun reduced : Machine =>
      (Machine.ofProgram (eliminate strayTable)).loadTape "1" 0 = .ok reduced ∧
      (reduced.afterCalls 1).state = "B" ∧
      (reduced.afterCalls 1).tape.cells = [.zero, .zero] ∧
      (reduced.afterCalls 1).step.1 = .stuck "B" .zero := by
  have lands : forall rule, rule ∈ strayTable.rules -> rule.move = .stay ->
      rule.next ∈ strayTable.ends := by
    decide
  refine ⟨lands, by decide, ?_⟩
  rcases elimination_unnoticed lands [.one] 0 (by decide) with
    ⟨whole, reduced, wholeLoaded, reducedLoaded, unnoticed⟩
  refine ⟨reduced, reducedLoaded, ?_⟩
  rcases unnoticed 2 with ⟨_, _, _, _, outcomes⟩
  rcases unnoticed 1 with ⟨state, cells, _, _, _⟩
  rw [state, cells, outcomes 1 (by decide)]
  rcases Machine.parse_of_loadTape wholeLoaded with ⟨tape, parsed, rfl⟩
  have onTape : tape = ⟨[], .one, []⟩ := (Except.ok.inj parsed).symm
  subst onTape
  have first : ((Machine.ofProgram strayTable).withTape ⟨[], .one, []⟩).afterCalls 1 =
      ((Machine.ofProgram strayTable).withTape ⟨[], .one, []⟩).moveTo
        ⟨"B", ⟨[], .zero, [.zero]⟩⟩ 1 :=
    Machine.afterCalls_eq_moveTo rfl
  rw [first, Machine.step_of_no_successor? rfl]
  exact ⟨rfl, rfl, rfl⟩

end Reachability

end BinaryTape
