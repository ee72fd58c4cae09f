import BinaryTape.Error
import BinaryTape.Log.Level
import BinaryTape.Text.Quoted

namespace BinaryTape
namespace Log

/-!
Log events.

What a compilation or an execution reports on its way is recorded as data, in
the order in which it happened.  Every event has a level and one text line.
Texts that come from outside are quoted where they could run into the next
field.  The time a compilation took is no part of the record; a letter stands in
its place, so that the log is a function of the input.
-/

/-- The table that a listed rule belongs to. -/
inductive Phase where
  | parsed
  | optimized
  deriving DecidableEq, Repr

def Phase.name : Phase -> String
  | .parsed => "parsed"
  | .optimized => "optimized"

/-- Something worth reporting. -/
inductive Event where
  /-- A source file was read and is about to be compiled. -/
  | compiling (path : String)
  | loadingModule (name : String)
  | moduleFound (name path : String)
  | moduleDeclared (name : String) (rules ends : Nat)
  | unknownDirective (line : String)
  | headerLoaded (start : StateName) (ends : List StateName)
  | moduleInstantiated (name scope : String) (entry : StateName) (rules : Nat)
  | sourceParsed (rules modules : Nat)
  /-- A rule of the table as it is after a phase. -/
  | ruleListed (phase : Phase) (rule : Rule)
  | chainsCollapsed (collapsed : Nat)
  | statesReached (reachable : Nat) (unreachable : List StateName)
  | compilationComplete (removed rules : Nat)
  | moduleUnused (name : String)
  | tableWritten (path : String) (rules : Nat)
  /-- The machine applied a rule and its head is now at a position. -/
  | stepped (rule : Rule) (head : Nat)
  | stepLimitReached (steps : Nat)
  | failed (error : Error)
  deriving DecidableEq, Repr

namespace Event

def level : Event -> Level
  | failed _ => .error
  | unknownDirective _ | moduleUnused _ | stepLimitReached _ => .warn
  | compiling _ | loadingModule _ | sourceParsed _ _ | chainsCollapsed _
  | compilationComplete _ _ | tableWritten _ _ => .info
  | moduleFound _ _ | moduleDeclared _ _ _ | headerLoaded _ _
  | statesReached _ _ => .debug
  | moduleInstantiated _ _ _ _ | ruleListed _ _ | stepped _ _ => .trace

/-- What an event says, without its level. -/
def text : Event -> String
  | compiling path => "compiling path=" ++ path
  | loadingModule name => "loading module module=" ++ Text.quoted name
  | moduleFound name path =>
      "loading module module=" ++ Text.quoted name ++ " path=" ++ path
  | moduleDeclared name rules ends =>
      "module declared module=" ++ Text.quoted name
        ++ s!" rules={rules} end_states={ends}"
  | unknownDirective line =>
      "ignoring unknown directive line=" ++ Text.quoted line
  | headerLoaded start ends =>
      "state header loaded start=" ++ start ++ " ends=" ++ Text.quotedList ends
  | moduleInstantiated name scope entry rules =>
      s!"module instantiated module={name} scope={scope} entry="
        ++ Text.quoted entry ++ s!" rules={rules}"
  | sourceParsed rules modules => s!"source parsed rules={rules} modules={modules}"
  | ruleListed phase rule =>
      rule.text ++ " phase=" ++ Text.quoted phase.name
  | chainsCollapsed collapsed => s!"no-motion chains collapsed collapsed={collapsed}"
  | statesReached reachable unreachable =>
      s!"reachable states found reachable={reachable} unreachable="
        ++ Text.quotedSet unreachable
  | compilationComplete removed rules =>
      s!"compilation complete removed={removed} rules={rules} elapsed_us=N"
  | moduleUnused name => "module was not used module=" ++ name
  | tableWritten path rules => s!"table written path={path} rules={rules}"
  | stepped rule head => "step rule=" ++ rule.text ++ s!" head={head}"
  | stepLimitReached steps => s!"step limit reached steps={steps}"
  | failed error => error.message

def line (event : Event) : String := event.level.label ++ " " ++ event.text

end Event

end Log
end BinaryTape
