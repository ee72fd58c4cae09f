import BinaryTape.Header
import BinaryTape.Program
import BinaryTape.Table.Grammar

namespace BinaryTape
namespace Table

/-!
Reading tables.

The grammar only knows lines and fields.  Field counts and field values are
checked here, one line after the other, so that the first line with a problem
determines the error.  The first line that has fields is the header and every
later one is a rule.
-/

/-- The fields of a line, or nothing for a comment. -/
def lineFields (line : Node) : Option (List String) :=
  match line.children with
  | inner :: _ =>
      if inner.kind = .fields then some (inner.children.map Node.text) else none
  | [] => none

/-- The only character of a one-character text. -/
def singleChar? (token : String) : Option Char :=
  match token.toList with
  | [character] => some character
  | _ => none

def readSymbol (token line : String) : Except Error Symbol :=
  match (singleChar? token).bind Symbol.ofChar? with
  | some symbol => .ok symbol
  | none => .error (.invalidSymbol token line)

def readMove (token line : String) : Except Error Direction :=
  match (singleChar? token).bind Direction.ofChar? with
  | some direction => .ok direction
  | none => .error (.invalidMove token line)

def readRule (fields : List String) (line : String) : Except Error Rule :=
  match fields with
  | [state, read, next, write, move] => do
      let read <- readSymbol read line
      let write <- readSymbol write line
      let move <- readMove move line
      return ⟨state, read, next, write, move⟩
  | _ => .error (.malformedRule line)

/-- The lines of a table that have fields, with these fields. -/
def fieldLines (nodes : List Node) : List (String × List String) :=
  nodes.filterMap (fun node =>
    if node.kind = .line then
      match lineFields node with
      | some (field :: fields) => some (node.text, field :: fields)
      | _ => none
    else none)

/-- Read all rule lines; the first line with a problem determines the error. -/
def readRules (lines : List (String × List String)) : Except Error (List Rule) :=
  lines.mapM (fun line => readRule line.2 line.1)

def read (text : String) : Except Error Program :=
  match nodesAtStart Grammar.table text with
  | none => .error .unreadableTable
  | some nodes =>
      match fieldLines (nodes.flatMap Node.children) with
      | [] => .error .missingHeader
      | (line, names) :: rest => do
          let header <- Header.ofNames names line
          let rules <- readRules rest
          return ⟨header.start, header.ends, rules⟩

end Table
end BinaryTape
