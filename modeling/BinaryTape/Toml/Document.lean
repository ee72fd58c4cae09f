import BinaryTape.Toml.Item
import BinaryTape.Toml.Moments

namespace BinaryTape
namespace Toml

/-!
# TOML documents

A document is a sequence of statements, one per line: keys with their values and
headers of tables.  What makes reading one delicate is which tables may still be
extended.  A table is defined once, by its header or in braces; dotted keys only
extend tables that dotted keys have made; headers may pass through any table that
is not a value, and through an array of tables at its last element.

Brackets and braces nest less than `nestingLimit` deep, and dotted keys have
fewer parts than that.
-/

open Scan

/-- The first nesting depth that is refused. -/
def nestingLimit : Nat := 80

/-! ## Keys -/

/-- A character of a key without quotes. -/
def isBareChar (character : Char) : Bool :=
  character.isAlphanum || character == '-' || character == '_'

/-- One part of a key, with the blanks around it. -/
def keyPart : Scan String := do
  blanks
  let part <- basicString <|> literalString <|> (do
    let first <- satisfy isBareChar
    return String.ofList (first :: (<- takeWhile isBareChar)))
  blanks
  return part

/-- A key, given as the path to a table and a name in it. -/
def key : Scan (List String × String) := do
  let first <- keyPart
  let others <- many (do exactly "."; keyPart)
  let parts := first :: others
  if nestingLimit <= parts.length then failure
  match parts.getLast? with
  | some name => return (parts.dropLast, name)
  | none => failure

/-! ## Tables -/

/--
Whether a table may be entered on the way along a path.  A dotted key enters
tables made by dotted keys, and implied ones unless it would end in them.
-/
def TableKind.admits (byDottedKey isLast : Bool) : TableKind -> Bool
  | .inline => false
  | .defined => !byDottedKey
  | .implied => !byDottedKey || !isLast
  | .dotted => true

/--
Change the table at the end of a path.  Tables that are missing on the way are
made; of an array of tables the last element is entered.
-/
def changeAt (byDottedKey : Bool) (change : Fields -> Option Fields) :
    List String -> Fields -> Option Fields
  | [], fields => change fields
  | name :: path, fields =>
      match fields.lookup name with
      | none => do
          let inner <- changeAt byDottedKey change path []
          let kind := if byDottedKey then TableKind.dotted else TableKind.implied
          return fields ++ [(name, .table kind inner)]
      | some (.table kind inner) =>
          if kind.admits byDottedKey path.isEmpty then do
            let changed <- changeAt byDottedKey change path inner
            return Fields.replace fields name (.table kind changed)
          else none
      | some (.tables elements) =>
          match elements.getLast? with
          | none => none
          | some last =>
              if byDottedKey && path.isEmpty then none
              else do
                let changed <- changeAt byDottedKey change path last
                return Fields.replace fields name
                  (.tables (elements.dropLast ++ [changed]))
      | some _ => none

def addValue (fields : Fields) (path : List String) (name : String) (item : Item) :
    Option Fields :=
  changeAt true (fun inner => Fields.add inner name item) path fields

/-! ## Values -/

/-- An array of values, with the scanner for its members. -/
def array (member : Scan Item) : Scan Item := do
  exactly "["
  let spaced : Scan Item := do
    gap
    let item <- member
    gap
    return item
  let items <- separated spaced (exactly ",")
  if !items.isEmpty then
    let _ <- attempt (exactly ",")
  gap
  exactly "]"
  return .array items

/-- A table in braces, with the scanner for its values. -/
def inlineTable (member : Scan Item) : Scan Item := do
  exactly "\x7b"
  let entry : Scan ((List String × String) × Item) := do
    let target <- key
    exactly "="
    blanks
    let item <- member
    blanks
    return (target, item)
  let entries <- separated entry (exactly ",")
  blanks
  exactly "\x7d"
  let fields <- entries.foldlM
    (fun fields entry => (addValue fields entry.1.1 entry.1.2 entry.2 : Option Fields)) []
  return .table .inline fields

/-- A value that holds no other values. -/
def plainValue : Scan Item :=
  (do return .text (<- string))
    <|> (do moment; return .moment)
    <|> (do float; return .float)
    <|> (do return .integer (<- integer))
    <|> (do exactly "true"; return .boolean true)
    <|> (do exactly "false"; return .boolean false)

/-- A value; `levels` brackets or braces may still be opened. -/
def value : (levels : Nat) -> Scan Item
  | 0 => plainValue
  | levels + 1 => plainValue <|> array (value levels) <|> inlineTable (value levels)

/-! ## Statements -/

/-- A document in the making: what is complete, and the table being filled. -/
structure Draft where
  /-- Everything but the table being filled. -/
  root : Fields
  /-- Where the table being filled belongs; nothing for the document itself. -/
  place : Option (List String × String)
  /-- Whether it is an element of an array of tables. -/
  repeated : Bool
  fields : Fields

namespace Draft

def empty : Draft := ⟨[], none, false, []⟩

/-- Put a finished table, or a further element of an array of tables, into its parent. -/
def put (repeated : Bool) (name : String) (fields parent : Fields) : Option Fields :=
  match repeated, parent.lookup name with
  | false, none => some (parent ++ [(name, .table .defined fields)])
  | true, none => some (parent ++ [(name, .tables [fields])])
  | true, some (.tables elements) =>
      some (Fields.replace parent name (.tables (elements ++ [fields])))
  | _, some _ => none

/-- Everything read so far. -/
def close (draft : Draft) : Option Fields :=
  match draft.place with
  | none => some draft.fields
  | some (path, name) =>
      changeAt false (put draft.repeated name draft.fields) path draft.root

/-- Add a value to the table being filled. -/
def define (draft : Draft) (target : List String × String) (item : Item) :
    Option Draft := do
  let fields <- addValue draft.fields target.1 target.2 item
  return { draft with fields := fields }

/-- The table at the end of a path, after making what is missing on the way. -/
def enter (root : Fields) (path : List String) : Option (Fields × Fields) := do
  let made <- changeAt false some path root
  let target := path.foldl (fun fields name =>
    match fields.lookup name with
    | some (.table _ inner) => inner
    | some (.tables elements) => elements.getLast?.getD []
    | _ => []) made
  return (made, target)

/--
Begin a table under a header.  An implied table keeps what has been put into it;
any other item of that name is in the way.
-/
def openTable (draft : Draft) (target : List String × String) : Option Draft := do
  let root <- draft.close
  let (made, parent) <- enter root target.1
  match parent.lookup target.2 with
  | none => return ⟨made, some target, false, []⟩
  | some (.table .implied inner) =>
      let without <- changeAt false
        (fun fields => some (fields.filter (fun field => field.1 != target.2)))
        target.1 made
      return ⟨without, some target, false, inner⟩
  | some _ => none

/-- Begin an element of an array of tables. -/
def openElement (draft : Draft) (target : List String × String) : Option Draft := do
  let root <- draft.close
  let (made, parent) <- enter root target.1
  match parent.lookup target.2 with
  | none | some (.tables _) => return ⟨made, some target, true, []⟩
  | some _ => none

end Draft

def keyValue (draft : Draft) : Scan Draft := do
  let target <- key
  exactly "="
  blanks
  let item <- value (nestingLimit - 1)
  lineTail
  (draft.define target item : Option Draft)

/-- The header of a table, or of an element of an array of tables. -/
def header (draft : Draft) : Scan Draft := do
  exactly "["
  if (<- attempt (exactly "[")).isSome then
    let target <- key
    exactly "]]"
    lineTail
    (draft.openElement target : Option Draft)
  else
    let target <- key
    exactly "]"
    lineTail
    (draft.openTable target : Option Draft)

/-- One statement, comment or line end. -/
def statement (draft : Draft) : Scan Draft := do
  match <- upcoming with
  | some '#' => comment; lineEnd; return draft
  | some '\n' | some '\r' => newline; return draft
  | some '[' => header draft
  | _ => keyValue draft

/-- Statements up to the end of the text, at most one for each element of `bound`. -/
def statements : (bound : List Char) -> Draft -> Scan Draft
  | [], draft => do
      blanks
      atEnd
      return draft
  | _ :: bound, draft => do
      blanks
      if (<- upcoming).isNone then return draft
      statements bound (<- statement draft)

/-- Read a document.  A byte order mark at its start is skipped. -/
def parse (text : String) : Option Fields := do
  let characters :=
    match text.toList with
    | '\uFEFF' :: rest => rest
    | characters => characters
  let (draft, _) <- statements characters .empty characters
  draft.close

end Toml
end BinaryTape
