import BinaryTape.Files.Compile
import BinaryTape.Files.Settings
import BinaryTape.Log.Filter
import BinaryTape.Program.Json
import BinaryTape.Shell.Arguments

namespace BinaryTape
namespace Shell

/-!
# One call of the program

A source file is compiled to a table next to it; a table file is executed and
every configuration of the machine is shown.  Log lines and shown lines go to
the same output, in the order in which they arise.
-/

/-- A line of output: shown in any case, or subject to the log filter. -/
inductive Line where
  | shown (text : String)
  | logged (event : Log.Event)

/-- The text of a line, if it passes the filter. -/
def Line.text? (filter : Log.Filter) : Line -> Option String
  | .shown text => some text
  | .logged event => if filter.passes event then some event.line else none

/-- What a call leaves behind besides files. -/
structure Report where
  exitCode : Nat
  output : List String
  complaint : String

/-! ## Execution -/

/-- The line that shows a machine. -/
def machineLine (machine : Machine) : Line :=
  .shown s!"Step: {machine.steps}, State: {machine.state}, Tape: {machine.tape.text}, Head: {machine.tape.head}"

/-- The log lines of the step from one machine to the next. -/
def stepLines (before after : Machine) : List Line :=
  match before.transition? with
  | some rule => [.logged (.stepped rule after.tape.head)]
  | none => []

/-- The lines of the steps through a list of machines that were left running. -/
def traceLines : Machine -> List Machine -> List Line
  | _, [] => []
  | before, after :: rest =>
      stepLines before after ++ machineLine after :: traceLines after rest

/-- Run a machine and show what it does; the error is that of a machine that got stuck. -/
def executionLines (machine : Machine) : List Line × Except Error Unit :=
  let (verdict, final, seen) := machine.trace
  let last := seen.back?.getD machine
  let running := machineLine machine :: traceLines machine seen.toList
  let closing := [.shown "", .shown final.tape.text]
  match verdict with
  | .stuck state symbol => (running, .error (.undefinedTransition state symbol))
  | .stepLimit =>
      (running ++ .logged (.stepLimitReached final.steps) :: closing, .ok ())
  | .halted =>
      let lastStep := if last.steps < final.steps then stepLines last final else []
      (running ++ lastStep ++ machineLine final :: closing, .ok ())

section Work

variable {m : Type -> Type} [Monad m]

def execute (files : FileAccess m) (arguments : Arguments) (settings : Settings) :
    m (List Line × Except Error Unit) := do
  match <- files.loadProgram arguments.file with
  | .error error => return ([], .error error)
  | .ok program =>
      let machine := (Machine.ofProgram program).withLimit settings.maxSteps
      match machine.loadTape (arguments.tape.getD settings.tape) arguments.head with
      | .error error => return ([], .error error)
      | .ok loaded => return executionLines loaded

/-! ## Compilation -/

def compile (files : FileAccess m) (arguments : Arguments) (settings : Settings) :
    m (List Line × Except Error Unit) := do
  let further := arguments.searchPath.or settings.searchPath
  let (events, result) <- files.compileToTable arguments.file further
  let lines := events.map Line.logged
  match result with
  | .error error => return (lines, .error error)
  | .ok (compilation, output) =>
      let program := compilation.program
      let written := Line.logged (.tableWritten output program.rules.length)
      let listed :=
        if arguments.format = .json then
          (Path.cutAt '\n' program.jsonText.toList).map
            (fun line => Line.shown (String.ofList line))
        else []
      return (lines ++ written :: listed, .ok ())

/-! ## The whole call -/

/-- Do what the extension of the file asks for. -/
def work (files : FileAccess m) (arguments : Arguments) (settings : Settings) :
    m (List Line × Except Error Unit) :=
  let extension := Path.extension? arguments.file
  if extension = some sourceExtension then compile files arguments settings
  else if extension = some tableExtension then execute files arguments settings
  else
    let file := arguments.file
    return ([], .error (.file
      s!"{file} is neither a .{sourceExtension} source nor a .{tableExtension} table"))

/-- The settings of a call: options on the command line come before the file. -/
def adjust (arguments : Arguments) (settings : Settings) : Settings :=
  if arguments.quiet then { settings with verbosity := 0 }
  else if 0 < arguments.verbose then
    { settings with
      verbosity := min (arguments.verbose + 1) Settings.verbosityLimit }
  else settings

/--
Carry out one call.  `logLevel` takes the place of the level in the settings.  A
command line that is not understood ends with code two, and any failure with
code one; settings that cannot be read are complained about, since the log is
not set up at that point.
-/
def session (files : FileAccess m) (logLevel : Option String)
    (given : List String) : m Report := do
  match Arguments.parse given with
  | none => return ⟨2, [], ""⟩
  | some arguments =>
      let read <- match arguments.config with
        | some path => files.readSettings path
        | none => files.loadSettings
      match read with
      | .error error => return ⟨1, [], error.message⟩
      | .ok settings =>
          let adjusted := adjust arguments settings
          let filter := Log.Filter.ofText (logLevel.getD adjusted.logLevel)
          let (lines, result) <- work files arguments adjusted
          match result with
          | .ok _ => return ⟨0, lines.filterMap (Line.text? filter), ""⟩
          | .error error =>
              let all := lines ++ [.logged (.failed error)]
              return ⟨1, all.filterMap (Line.text? filter), ""⟩

end Work

end Shell
end BinaryTape
