import BinaryTape.Binding
import BinaryTape.Header
import BinaryTape.Instance
import BinaryTape.Log.Event
import BinaryTape.Module.Registry

namespace BinaryTape
namespace Source

/-!
# Drafts

A draft is a program in the making, while its source is being read.  It knows
the state that the next construct starts from.  Constructs that need a state to
continue at take the next implicit one; implicit states are named by a counter,
and names that are written in a source start with a letter, so the two kinds do
not meet.

Every construct either takes effect as a whole or leaves the draft as it was.
-/

/-- A program in the making. -/
structure Draft where
  registry : Registry
  rules : Array Rule
  header : Option Header
  current : StateName
  nextImplicit : Nat
  log : Array Log.Event

namespace Draft

/-- The draft of a source of which nothing has been read. -/
def empty : Draft where
  registry := .empty
  rules := #[]
  header := none
  current := ""
  nextImplicit := 0
  log := #[]

def note (draft : Draft) (event : Log.Event) : Draft :=
  { draft with log := draft.log.push event }

/-- The name of the next implicit state. -/
def implicitState (draft : Draft) : StateName := toString draft.nextImplicit

/-- Add rules and go on at the next implicit state. -/
def advance (draft : Draft) (rules : List Rule) : Draft :=
  { draft with
    rules := draft.rules ++ rules
    current := draft.implicitState
    nextImplicit := draft.nextImplicit + 1 }

def moveHead (draft : Draft) (direction : Direction) : Draft :=
  draft.advance (Rule.moving draft.current draft.implicitState direction)

def writeSymbol (draft : Draft) (symbol : Symbol) : Draft :=
  draft.advance (Rule.writing draft.current draft.implicitState symbol)

/-- Hand control to a named state and go on from there. -/
def jump (draft : Draft) (target : StateName) : Draft :=
  { draft with
    rules := draft.rules ++ Rule.handOver draft.current target
    current := target }

/--
Call a module.  Its end states continue where the binding says, by default at
the next implicit state, which is also where the draft goes on.
-/
def call (draft : Draft) (name binding line : String) : Except Error Draft :=
  match draft.registry.get? name with
  | none => .error (.unknownModule name line)
  | some entry => do
      let exits <- Binding.exits entry.declared binding draft.implicitState
      let (rules, _) <- entry.instantiate draft.current exits
      let event := Log.Event.moduleInstantiated name entry.scope draft.current
        entry.declared.rules.length
      return { (draft.advance rules).note event with
        registry := draft.registry.advance name }

/-- Set the header; the program starts in its start state. -/
def setHeader (draft : Draft) (header : Header) : Draft :=
  { draft.note (.headerLoaded header.start header.ends) with
    header := some header
    current := header.start }

/-- What the log says about the declaration of a module. -/
def declarationEvents (draft : Draft) (library : Library) (name : String) :
    List Log.Event :=
  let located :=
    match draft.registry.get? name, (library.lookUp name).origin with
    | none, some path => [Log.Event.moduleFound name path]
    | _, _ => []
  let declared :=
    match draft.registry.get? name, library.load name with
    | none, .ok program =>
        [Log.Event.moduleDeclared name program.rules.length program.ends.length]
    | _, _ => []
  .loadingModule name :: located ++ declared

/--
End a draft: the current state falls through to the first end state.  Without a
header there is no program.
-/
def finish (draft : Draft) : Except Error Program :=
  match draft.header with
  | none => .error .missingHeader
  | some header =>
      .ok
        { start := header.start
          ends := header.ends
          rules := draft.rules.toList
            ++ Rule.handOver draft.current header.firstEnd }

end Draft

end Source
end BinaryTape
