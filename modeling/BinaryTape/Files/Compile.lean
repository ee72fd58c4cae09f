import BinaryTape.Compilation
import BinaryTape.Files.Modules

namespace BinaryTape

/-!
# Compiling files

A source file is compiled with the modules found on its search path.  Its table
is written next to it, under the same name with the extension of tables, and
only if the whole compilation succeeds.
-/

/-- The file that a source file is compiled to. -/
def tablePath (source : String) : String := Path.withExtension source tableExtension

namespace FileAccess

variable {m : Type -> Type} [Monad m]

/-- Compile a source file; `further` is searched for modules after the current folder. -/
def compileFile (files : FileAccess m) (path : String) (further : Option String) :
    m (List Log.Event × Except Error Compilation) := do
  match <- files.readText path with
  | .error error => return ([], .error error)
  | .ok source =>
      let library <- files.library (searchFolders further) (declaredNames source)
      let (events, result) := Compilation.compileLogged library source
      return (.compiling path :: events, result)

/-- Compile a source file and write its table; the result names the written file. -/
def compileToTable (files : FileAccess m) (path : String) (further : Option String) :
    m (List Log.Event × Except Error (Compilation × String)) := do
  match <- files.compileFile path further with
  | (events, .error error) => return (events, .error error)
  | (events, .ok compilation) =>
      let output := tablePath path
      match <- files.writeProgram output compilation.program with
      | .error error => return (events, .error error)
      | .ok _ => return (events, .ok (compilation, output))

end FileAccess

end BinaryTape
