import BinaryTape.Symbol
import BinaryTape.Rule

namespace BinaryTape

/-!
Errors.

Every failure that reading, compiling, loading or executing can report has one
constructor, which carries what its message shows.  The wording stands in
`Error.message` and nowhere else.
-/

/-- What went wrong. -/
inductive Error where
  /-- No table of the module exists in any searched place. -/
  | moduleNotFound (name searched : String)
  | duplicateModule (name : String)
  | unknownModule (name line : String)
  | malformedHeader (line : String)
  /-- A text that ends before its header. -/
  | missingHeader
  | malformedRule (line : String)
  | invalidSymbol (token line : String)
  | invalidMove (token line : String)
  /-- A number of exits that differs from the module's number of end states. -/
  | exitCountMismatch (moduleName : String) (ends exits : Nat)
  /-- A bare target for a module with several end states. -/
  | ambiguousBareTarget (moduleName binding : String)
  /-- A bare target beside other binding tokens. -/
  | bareTargetAmongOthers (binding : String)
  | emptyTarget (binding : String)
  /-- An opening parenthesis that is not closed on its line. -/
  | unterminatedBinding (line : String)
  /-- A character that program text does not admit at its place. -/
  | invalidCharacter (character : Char) (line : String)
  /-- A binding or a declaration without a module name. -/
  | missingModuleName (line : String)
  /-- A chain of non-moving rules that reaches an address without a rule. -/
  | danglingChain (state : StateName) (symbol : Symbol)
  /-- A chain of non-moving rules that never moves nor ends. -/
  | cyclicChain (state : StateName) (symbol : Symbol)
  | unreadableTable
  | file (text : String)
  /-- An initial tape that is empty or holds anything but `0` and `1`. -/
  | invalidTape (tape : String)
  | invalidHead (head length : Nat)
  /-- No rule for the machine's state and the symbol under its head. -/
  | undefinedTransition (state : StateName) (symbol : Symbol)
  deriving DecidableEq, Repr

namespace Error

def message : Error -> String
  | moduleNotFound name searched =>
      s!"Module {name} not found, searched: {searched}"
  | duplicateModule name => s!"Module {name} already loaded"
  | unknownModule name line => s!"Module {name} not loaded, called on line: {line}"
  | malformedHeader line =>
      s!"Invalid state header, expected a start state and at least one end state: {line}"
  | missingHeader => "Missing state header"
  | malformedRule line => s!"Invalid rule, expected 5 tokens: {line}"
  | invalidSymbol token line => s!"Invalid symbol '{token}' in rule: {line}"
  | invalidMove token line => s!"Invalid move '{token}' in rule: {line}"
  | exitCountMismatch moduleName ends exits =>
      s!"Can't bind {ends} end states of module {moduleName} to {exits} exits"
  | ambiguousBareTarget moduleName binding =>
      "Pure type 1 binding not allowed with multiple end states of module "
        ++ s!"{moduleName}: {binding}"
  | bareTargetAmongOthers binding =>
      s!"No bindings allowed after type 1 binding: {binding}"
  | emptyTarget binding => s!"Empty binding target: {binding}"
  | unterminatedBinding line => s!"Unterminated ( on line: {line}"
  | invalidCharacter character line =>
      s!"Invalid character '{character}' on line: {line}"
  | missingModuleName line => s!"Missing module name on line: {line}"
  | danglingChain state symbol =>
      s!"No rule for state {state} and symbol {symbol} while collapsing no-motion chains"
  | cyclicChain state symbol =>
      s!"No-motion chain loops at state {state} and symbol {symbol}"
  | unreadableTable => "Table parsing error"
  | file text => s!"File error: {text}"
  | invalidTape tape => s!"Invalid tape contents: {tape}"
  | invalidHead head length =>
      s!"Head position {head} is outside the tape of length {length}"
  | undefinedTransition state symbol =>
      s!"No rule found for state {state} and symbol {symbol}"

end Error

end BinaryTape
