import BinaryTape.Module
import BinaryTape.Module.Library

namespace BinaryTape

/-!
The modules of one compilation, in declaration order.
-/

/-- All modules declared so far. -/
structure Registry where
  entries : List Module.Entry
  deriving DecidableEq, Repr

namespace Registry

def empty : Registry := ⟨[]⟩

def size (registry : Registry) : Nat := registry.entries.length

/-- The module declared under a name. -/
def get? (registry : Registry) (name : String) : Option Module.Entry :=
  registry.entries.find? (fun entry => entry.declared.name == name)

/--
Declare the module of a name.  A second declaration of the name is refused
before the library is asked.
-/
def declare (registry : Registry) (library : Library) (name : String) :
    Except Error Registry :=
  match registry.get? name with
  | some _ => .error (.duplicateModule name)
  | none => do
      let program <- library.load name
      return ⟨registry.entries ++ [.ofModule (.declare name program)]⟩

/-- Count a call of the module declared under a name. -/
def advance (registry : Registry) (name : String) : Registry :=
  ⟨registry.entries.map (fun entry =>
    if entry.declared.name == name then entry.advance else entry)⟩

/-- The names of the modules that have not been called. -/
def unused (registry : Registry) : List String :=
  (registry.entries.filter (fun entry => entry.invocations == 0)).map
    (fun entry => entry.declared.name)

end Registry

end BinaryTape
