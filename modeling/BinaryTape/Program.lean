import BinaryTape.Rule

namespace BinaryTape

/-!
Programs.

A program is a transition table: what the compiler produces, what the machine
executes and what modules are made of.  The order of the end states matters
because module calls bind them by position; the order of the rules matters
because the first rule for an address wins.
-/

/-- A start state, ordered end states and the rules in emission order. -/
structure Program where
  start : StateName
  ends : List StateName
  rules : List Rule
  deriving DecidableEq, Repr, Inhabited

namespace Program

/-- Whether the machine halts in the given state. -/
def isEnd (program : Program) (state : StateName) : Bool :=
  program.ends.contains state

/-- The first rule for a state and symbol, found by going through the table. -/
def rule? (program : Program) (state : StateName) (symbol : Symbol) :
    Option Rule :=
  program.rules.find? (fun rule => rule.state == state && rule.read == symbol)

end Program

end BinaryTape
