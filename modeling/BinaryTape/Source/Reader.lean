import BinaryTape.Source.Draft
import BinaryTape.Text.Lines

namespace BinaryTape
namespace Source

/-!
# Reading sources

A source is read line by line.  Blank lines and lines that start with `#` are
skipped, a line that starts with `!` is a directive, the first other line is the
state header, and every later one is program text:

    <  >        move the head
    0  1        write the symbol
    name        call the module `name`
    name(...)   call it with a binding
    name:       continue at the state `name`
    # ...       comment up to the end of the line

Program text is read character by character, and every construct takes effect as
soon as it is complete.  When a line fails, the constructs before the failure
have taken effect already; a reading therefore holds the draft in either case.
-/

/-- A draft, and the error that stopped reading, if any. -/
structure Reading where
  draft : Draft
  failure : Option Error

namespace Reading

def done (draft : Draft) : Reading := ⟨draft, none⟩

/-- Reading stopped and left this draft. -/
def failed (draft : Draft) (error : Error) : Reading := ⟨draft, some error⟩

end Reading

/-! ## Program text -/

/-- Whether a name may start with a character: an ASCII letter or an underscore. -/
def isNameStart (character : Char) : Bool := character.isAlpha || character == '_'

/-- Whether a name may go on with a character: as it may start, or a digit. -/
def isNamePart (character : Char) : Bool :=
  isNameStart character || character.isDigit

/-- What has been read of a construct that is not complete yet, last character first. -/
inductive Pending where
  | nothing
  | name (reversed : List Char)
  | binding (name : String) (reversed : List Char)

/-- The text of characters collected last first. -/
def collected (reversed : List Char) : String := String.ofList reversed.reverse

/-- Go on with the draft of a successful call, or stop with the draft before it. -/
def andThen (draft : Draft) (called : Except Error Draft) (rest : Draft -> Reading) :
    Reading :=
  match called with
  | .ok after => rest after
  | .error error => .failed draft error

/-- Read program text; `line` is the whole line, for error messages. -/
def readText (line : String) : List Char -> Pending -> Draft -> Reading
  | [], .nothing, draft => .done draft
  | [], .name reversed, draft =>
      andThen draft (draft.call (collected reversed) "" line) .done
  | [], .binding _ _, draft => .failed draft (.unterminatedBinding line)
  | character :: rest, .nothing, draft =>
      match Symbol.ofChar? character with
      | some symbol => readText line rest .nothing (draft.writeSymbol symbol)
      | none =>
          if character == '#' then .done draft
          else if Text.isAsciiBlank character then readText line rest .nothing draft
          else if character == '(' then .failed draft (.missingModuleName line)
          else if character == '<' then
            readText line rest .nothing (draft.moveHead .left)
          else if character == '>' then
            readText line rest .nothing (draft.moveHead .right)
          else if isNameStart character then
            readText line rest (.name [character]) draft
          else .failed draft (.invalidCharacter character line)
  | character :: rest, .name reversed, draft =>
      if character == '#' then
        andThen draft (draft.call (collected reversed) "" line) .done
      else if Text.isAsciiBlank character then
        andThen draft (draft.call (collected reversed) "" line)
          (readText line rest .nothing)
      else if character == '(' then
        readText line rest (.binding (collected reversed) []) draft
      else if character == ':' then
        readText line rest .nothing (draft.jump (collected reversed))
      else if isNamePart character then
        readText line rest (.name (character :: reversed)) draft
      else .failed draft (.invalidCharacter character line)
  | character :: rest, .binding name reversed, draft =>
      if character == ')' then
        andThen draft (draft.call name (collected reversed) line)
          (readText line rest .nothing)
      else readText line rest (.binding name (character :: reversed)) draft

/-! ## Lines -/

/-- Read a directive; `directive` is the line without its mark. -/
def readDirective (library : Library) (directive line : String) (draft : Draft) :
    Reading :=
  match Text.words directive with
  | ["module"] => .failed draft (.missingModuleName line)
  | "module" :: name :: _ =>
      let noted := (draft.declarationEvents library name).foldl Draft.note draft
      match draft.registry.declare library name with
      | .ok registry => .done { noted with registry := registry }
      | .error error => .failed noted error
  | _ => .done (draft.note (.unknownDirective line))

/-- Read the header, which ends where a comment begins. -/
def readHeader (line : String) (draft : Draft) : Reading :=
  match Header.parse (String.ofList (Text.splitAtFirst '#' line.toList).1) with
  | .ok header => .done (draft.setHeader header)
  | .error error => .failed draft error

def readLine (library : Library) (line : String) (draft : Draft) : Reading :=
  if Text.isBlankText line then .done draft
  else
    match line.toList, draft.header with
    | '#' :: _, _ => .done draft
    | '!' :: directive, _ =>
        readDirective library (String.ofList directive) line draft
    | _, none => readHeader line draft
    | characters, some _ => readText line characters .nothing draft

/-- Read lines up to the first failure. -/
def readLines (library : Library) : List String -> Draft -> Reading
  | [], draft => .done draft
  | line :: lines, draft =>
      match readLine library line draft with
      | ⟨after, none⟩ => readLines library lines after
      | reading => reading

/-! ## Whole sources -/

def readAll (library : Library) (text : String) : Reading :=
  readLines library (Text.lines text) .empty

/-- What a source text means before any pass: a program and the modules it declared. -/
def parse (library : Library) (text : String) : Except Error (Program × Registry) :=
  match readAll library text with
  | ⟨_, some error⟩ => .error error
  | ⟨draft, none⟩ => do
      let program <- draft.finish
      return (program, draft.registry)

end Source
end BinaryTape
