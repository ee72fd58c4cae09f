import BinaryTape.Program
import BinaryTape.RuleIndex
import BinaryTape.Tape

namespace BinaryTape

/-!
The machine.

A machine executes a program on a tape.  Reaching an end state halts it; having
no rule for the current state and symbol leaves it stuck where it is.  Runs are
bounded by a step limit, which makes them total without restricting what a
program may do.
-/

/-- The step limit of a machine for which none is set. -/
def defaultStepLimit : Nat := 10000

/-- A program in execution. -/
structure Machine where
  program : Program
  index : RuleIndex
  limit : Nat
  state : StateName
  tape : Tape
  steps : Nat
  index_eq : index = RuleIndex.ofRules program.rules

/-- What one step did. -/
inductive Outcome where
  /-- A rule was applied and no end state is reached. -/
  | running
  | halted
  | stuck (state : StateName) (symbol : Symbol)
  deriving DecidableEq, Repr

/-- How a run came to its end. -/
inductive Verdict where
  | halted
  /-- The step limit was reached before an end state. -/
  | stepLimit
  | stuck (state : StateName) (symbol : Symbol)
  deriving DecidableEq, Repr

namespace Machine

/-- A machine in the program's start state, on a tape that holds a single zero. -/
def ofProgram (program : Program) : Machine where
  program := program
  index := RuleIndex.ofRules program.rules
  limit := defaultStepLimit
  state := program.start
  tape := Tape.blank
  steps := 0
  index_eq := rfl

def withLimit (machine : Machine) (limit : Nat) : Machine :=
  { machine with limit := limit }

def withTape (machine : Machine) (tape : Tape) : Machine :=
  { machine with tape := tape }

/-- Put the tape with the given text and head position under the head. -/
def loadTape (machine : Machine) (text : String) (head : Nat) :
    Except Error Machine :=
  (Tape.parse text head).map machine.withTape

def symbol (machine : Machine) : Symbol := machine.tape.focus

/-- Whether the machine is in one of the program's end states. -/
def isHalted (machine : Machine) : Bool := machine.program.isEnd machine.state

/-- The rule for the current state and symbol, looked up in the index. -/
def transition? (machine : Machine) : Option Rule :=
  (machine.index.position? (machine.state, machine.symbol)).bind
    (fun position => machine.program.rules[position]?)

/-- Apply a rule: write, move, change state and count the step. -/
def apply (machine : Machine) (rule : Rule) : Machine :=
  { machine with
    state := rule.next
    tape := (machine.tape.write rule.write).move rule.move
    steps := machine.steps + 1 }

/-- Execute one step.  A machine that is halted or stuck stays as it is. -/
def step (machine : Machine) : Outcome × Machine :=
  if machine.isHalted then (.halted, machine)
  else
    match machine.transition? with
    | none => (.stuck machine.state machine.symbol, machine)
    | some rule =>
        let after := machine.apply rule
        (if after.isHalted then .halted else .running, after)

/--
Execute at most `limit` steps.  After every step that leaves the machine running
`observe` extends what has been observed so far.
-/
def runFor (observe : σ -> Machine -> σ) :
    (limit : Nat) -> (machine : Machine) -> (seen : σ) -> Verdict × Machine × σ
  | 0, machine, seen =>
      (if machine.isHalted then .halted else .stepLimit, machine, seen)
  | limit + 1, machine, seen =>
      match machine.step with
      | (.running, after) => runFor observe limit after (observe seen after)
      | (.halted, after) => (.halted, after, seen)
      | (.stuck state symbol, after) => (.stuck state symbol, after, seen)

/-- Run until the machine stops or its step limit is reached. -/
def run (machine : Machine) : Verdict × Machine :=
  let result := runFor (fun seen _ => seen) machine.limit machine ()
  (result.1, result.2.1)

/-- Run and keep every machine that a step left running, in order. -/
def trace (machine : Machine) : Verdict × Machine × Array Machine :=
  runFor Array.push machine.limit machine #[]

end Machine

end BinaryTape
