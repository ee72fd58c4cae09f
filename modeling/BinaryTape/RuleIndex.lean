import Std.Data.HashMap
import BinaryTape.Rule

namespace BinaryTape

/-!
The index of first rules.

Going through a table for every step would make long runs slow, so the position
of the first rule for each address is put into a hash map once.  Positions are
stored instead of rules: a pass that rewrites rules in place, without touching
their addresses, can then keep using the index of the table it started from.
-/

/-- For each address of a table, the position of its first rule. -/
structure RuleIndex where
  positions : Std.HashMap (StateName × Symbol) Nat

namespace RuleIndex

def empty : RuleIndex := ⟨∅⟩

/-- Enter a rule at a position, unless its address has been seen before. -/
def enter (index : RuleIndex) (entry : Rule × Nat) : RuleIndex :=
  ⟨index.positions.insertIfNew entry.1.address entry.2⟩

def ofRules (rules : List Rule) : RuleIndex := rules.zipIdx.foldl enter empty

/-- The position of the first rule for an address. -/
def position? (index : RuleIndex) (address : StateName × Symbol) : Option Nat :=
  index.positions[address]?

end RuleIndex

end BinaryTape
