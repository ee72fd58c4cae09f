import BinaryTape.Error
import BinaryTape.Module

namespace BinaryTape

/-!
# Instances

Calling a module copies its rules into the calling program under a mark of the
call.  Two rules hand control from the caller's state to the marked start state.
In the copied rules every state is marked, except that a target which is an end
state of the module is replaced by the exit bound to it.  An end state that is
listed twice leads to the exit of its first position.
-/

namespace Instance

def target (declared : Module) (scope : String) (exits : List StateName)
    (next : StateName) : StateName :=
  ((declared.ends.zip exits).lookup next).getD (next ++ scope)

def copy (declared : Module) (scope : String) (exits : List StateName)
    (rule : Rule) : Rule :=
  { rule with
    state := rule.state ++ scope
    next := target declared scope exits rule.next }

/-- The rules of one call: two entry rules and a copy of every module rule. -/
def rules (declared : Module) (scope : String) (entryState : StateName)
    (exits : List StateName) : List Rule :=
  Rule.handOver entryState (declared.start ++ scope)
    ++ declared.rules.map (copy declared scope exits)

end Instance

/--
Call a module: the rules to add, and the entry with the call counted.  The exits
must be as many as the end states; this is checked before anything is counted.
-/
def Module.Entry.instantiate (entry : Module.Entry) (entryState : StateName)
    (exits : List StateName) : Except Error (List Rule × Module.Entry) :=
  if entry.declared.ends.length = exits.length then
    .ok (Instance.rules entry.declared entry.scope entryState exits, entry.advance)
  else
    .error (.exitCountMismatch entry.declared.name entry.declared.ends.length
      exits.length)

end BinaryTape
