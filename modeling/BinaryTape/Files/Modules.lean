import BinaryTape.Files.Access
import BinaryTape.Module.Library
import BinaryTape.Path
import BinaryTape.Text.Lines

namespace BinaryTape

/-!
# Modules in files

The table of a module stands in a file named after the module.  The folders of a
search path are asked in order, and the first one that has the file wins.
-/

def sourceExtension : String := "aquasrc"

/-- The extension of table files, which are also what modules are loaded from. -/
def tableExtension : String := "aquacomp"

/-- The current folder, then a further folder if one is given. -/
def searchFolders (further : Option String) : List String := "." :: further.toList

/-- The files in which a module may be found, in order. -/
def moduleCandidates (folders : List String) (name : String) : List String :=
  folders.map (fun folder => Path.join folder (name ++ "." ++ tableExtension))

/-- The names of the modules that the directives of a source declare, in order. -/
def declaredNames (source : String) : List String :=
  (Text.lines source).filterMap (fun line =>
    match line.toList with
    | '!' :: directive =>
        match Text.words (String.ofList directive) with
        | "module" :: name :: _ => some name
        | _ => none
    | _ => none)

namespace FileAccess

variable {m : Type -> Type} [Monad m]

/-- The first of several paths that leads to a file. -/
def firstFile (files : FileAccess m) : List String -> m (Option String)
  | [] => return none
  | path :: paths => do
      if <- files.isFile path then return some path else files.firstFile paths

/-- Look up a module in the folders of a search path. -/
def lookUpModule (files : FileAccess m) (folders : List String) (name : String) :
    m Library.Answer := do
  let candidates := moduleCandidates folders name
  match <- files.firstFile candidates with
  | some path => return ⟨some path, <- files.loadProgram path⟩
  | none =>
      return ⟨none, .error (.moduleNotFound name (", ".intercalate candidates))⟩

/--
A library of the named modules, looked up in the folders of a search path.  The
files are read here, so that what follows does not depend on them any more.
-/
def library (files : FileAccess m) (folders names : List String) : m Library := do
  let answers <- names.mapM (fun name => do
    return (name, <- files.lookUpModule folders name))
  let absent := fun name => Error.moduleNotFound name
    (", ".intercalate (moduleCandidates folders name))
  return ⟨fun name => (answers.lookup name).getD ⟨none, .error (absent name)⟩⟩

end FileAccess

end BinaryTape
