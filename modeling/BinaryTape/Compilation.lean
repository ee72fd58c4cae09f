import BinaryTape.Chain
import BinaryTape.Reachability
import BinaryTape.Source.Reader

namespace BinaryTape

/-!
# Compilation

A source is read into a table, the chains of the table are collapsed, and the
rules that cannot be reached any more are dropped.  Any error ends the whole
compilation and nothing of it is kept; the log up to that point is.
-/

structure Compilation where
  program : Program
  /-- Modules that were declared and not called, in declaration order. -/
  unusedModules : List String
  parsedRules : Nat
  collapsedRules : Nat
  removedRules : Nat
  deriving DecidableEq, Repr

namespace Compilation

open Log

/-- The events that list every rule of a table. -/
def listing (phase : Phase) (rules : List Rule) : List Event :=
  rules.map (Event.ruleListed phase)

/-- Apply both passes to a table that was read, and report on them. -/
def ofParsed (parsed : Program) (registry : Registry) :
    List Event × Except Error Compilation :=
  let reading :=
    Event.sourceParsed parsed.rules.length registry.size
      :: listing .parsed parsed.rules
  match Chain.collapse parsed.ends parsed.rules with
  | (_, .error error) => (reading, .error error)
  | (rules, .ok collapsed) =>
      let table := { parsed with rules := rules }
      let program := Reachability.eliminate table
      let removed := Reachability.removedCount table
      let reachable := Reachability.reachable table.rules table.start
      let passes :=
        Event.chainsCollapsed collapsed :: listing .optimized rules
          ++ [.statesReached reachable.size (Reachability.unreachable table),
              .compilationComplete removed program.rules.length]
      (reading ++ passes ++ registry.unused.map Event.moduleUnused,
        .ok
          { program := program
            unusedModules := registry.unused
            parsedRules := parsed.rules.length
            collapsedRules := collapsed
            removedRules := removed })

/-- Compile a source text, with the log of the compilation. -/
def compileLogged (library : Library) (text : String) :
    List Event × Except Error Compilation :=
  match Source.readAll library text with
  | ⟨draft, some error⟩ => (draft.log.toList, .error error)
  | ⟨draft, none⟩ =>
      match draft.finish with
      | .error error => (draft.log.toList, .error error)
      | .ok parsed =>
          let (events, result) := ofParsed parsed draft.registry
          (draft.log.toList ++ events, result)

def compile (library : Library) (text : String) : Except Error Compilation :=
  (compileLogged library text).2

end Compilation

end BinaryTape
