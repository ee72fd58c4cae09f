import BinaryTape.Symbol
import BinaryTape.Direction

namespace BinaryTape

/-!
Transition rules.

A rule is addressed by the state the machine is in and the symbol it reads.  A
table may hold several rules for one address; the first of them is the one that
counts everywhere in this library.
-/

/-- States are known by name only. -/
abbrev StateName := String

/--
In `state` reading `read`, the machine writes `write`, moves the head as `move`
says and continues in `next`.
-/
structure Rule where
  state : StateName
  read : Symbol
  next : StateName
  write : Symbol
  move : Direction
  deriving DecidableEq, Hashable, Repr, Inhabited

namespace Rule

/-- The address of a rule: where it starts and what it reads. -/
def address (rule : Rule) : StateName × Symbol := (rule.state, rule.read)

/-- The address at which the machine is after a rule that does not move. -/
def target (rule : Rule) : StateName × Symbol := (rule.next, rule.write)

/-- The five fields of a rule, separated by single spaces. -/
def text (rule : Rule) : String :=
  " ".intercalate
    [rule.state, rule.read.text, rule.next, rule.write.text, rule.move.text]

/--
The pair of rules that hands control from `origin` to `destination`: whatever
is read is written back, and the head stays.
-/
def handOver (origin destination : StateName) : List Rule :=
  Symbol.all.map (fun symbol => ⟨origin, symbol, destination, symbol, .stay⟩)

/-- The pair of rules that moves the head and keeps the symbol it leaves. -/
def moving (origin destination : StateName) (move : Direction) : List Rule :=
  Symbol.all.map (fun symbol => ⟨origin, symbol, destination, symbol, move⟩)

/-- The pair of rules that replaces any symbol by `write` without moving. -/
def writing (origin destination : StateName) (write : Symbol) : List Rule :=
  Symbol.all.map (fun symbol => ⟨origin, symbol, destination, write, .stay⟩)

end Rule

end BinaryTape
