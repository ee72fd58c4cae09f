namespace BinaryTape
namespace Table

/-!
The grammar of tables.

The lexical structure of a table is a parsing expression grammar: ordered
choice, greedy repetition, negative lookahead.  A matcher takes the byte offset
at which it starts and the text from there on; a match splits that text into
what was consumed and the rest, and carries the nodes of the rules that matched
on the way.  Repetition is bounded by the characters of the text, one for each
match, which is enough because every repeated expression below consumes at least
one character.

    table   = { start ~ line ~ (lineEnd ~ line)* ~ finish }
    line    = { comment | fields }
    comment = { "#" ~ (!lineEnd ~ any)* }
    fields  = { blank* ~ (field ~ blank*)* }
    field   = { (!(blank | lineEnd) ~ any)+ }
    blank   =   " " | "\t"
    lineEnd =   "\n" | "\r\n" | "\r"
-/

/-- The rules of the grammar that leave a node behind. -/
inductive NodeKind where
  | table
  | line
  | comment
  | fields
  | field
  | finish
  deriving DecidableEq, Repr

/-- A matched rule: the bytes it spans, its text and the rules matched inside it. -/
inductive Node where
  | mk (kind : NodeKind) (start stop : Nat) (text : String) (children : List Node)

namespace Node

def kind : Node -> NodeKind
  | mk kind _ _ _ _ => kind

/-- The byte offset of the first matched character. -/
def start : Node -> Nat
  | mk _ start _ _ _ => start

/-- The byte offset behind the last matched character. -/
def stop : Node -> Nat
  | mk _ _ stop _ _ => stop

def text : Node -> String
  | mk _ _ _ text _ => text

/-- The nodes of the rules matched inside this one, in order. -/
def children : Node -> List Node
  | mk _ _ _ _ children => children

end Node

/-- A successful match: `consumed ++ rest` is the text the matcher was given. -/
structure Match where
  consumed : List Char
  rest : List Char
  nodes : List Node

/-- A grammar expression, as a function of the byte offset and the text there. -/
abbrev Matcher := Nat -> List Char -> Option Match

/-- The number of bytes of a text in UTF-8. -/
def byteSize (text : List Char) : Nat :=
  text.foldr (fun character size => character.utf8Size + size) 0

namespace Matcher

def satisfy (accepts : Char -> Bool) : Matcher := fun _ text =>
  match text with
  | character :: rest =>
      if accepts character then some ⟨[character], rest, []⟩ else none
  | [] => none

def any : Matcher := satisfy (fun _ => true)

def char (expected : Char) : Matcher :=
  satisfy (fun character => character == expected)

def seq (first second : Matcher) : Matcher := fun offset text => do
  let head <- first offset text
  let tail <- second (offset + byteSize head.consumed) head.rest
  return ⟨head.consumed ++ tail.consumed, tail.rest, head.nodes ++ tail.nodes⟩

/-- The first expression that matches, in the given order. -/
def choice (first second : Matcher) : Matcher := fun offset text =>
  (first offset text).or (second offset text)

/-- Match nothing, provided that the expression does not match here. -/
def refuse (excluded : Matcher) : Matcher := fun offset text =>
  if (excluded offset text).isSome then none else some ⟨[], text, []⟩

/-- As many matches in a row as there are, at most one for each element of `bound`. -/
def repeatUpTo (repeated : Matcher) : (bound : List Char) -> Nat -> List Char -> Match
  | [], _, text => ⟨[], text, []⟩
  | _ :: bound, offset, text =>
      match repeated offset text with
      | none => ⟨[], text, []⟩
      | some head =>
          let tail :=
            repeatUpTo repeated bound (offset + byteSize head.consumed) head.rest
          ⟨head.consumed ++ tail.consumed, tail.rest, head.nodes ++ tail.nodes⟩

/-- As many matches in a row as there are, possibly none. -/
def star (repeated : Matcher) : Matcher := fun offset text =>
  some (repeatUpTo repeated text offset text)

def plus (repeated : Matcher) : Matcher := seq repeated (star repeated)

/-- The end of the text, which leaves an empty node. -/
def finish : Matcher := fun offset text =>
  match text with
  | [] => some ⟨[], [], [.mk .finish offset offset "" []]⟩
  | _ => none

/-- Wrap the nodes of a match into the node of a rule. -/
def node (kind : NodeKind) (body : Matcher) : Matcher := fun offset text => do
  let found <- body offset text
  let stop := offset + byteSize found.consumed
  return { found with
    nodes := [.mk kind offset stop (String.ofList found.consumed) found.nodes] }

end Matcher

namespace Grammar

open Matcher

/-- A line feed, a carriage return with a line feed, or a carriage return. -/
def lineEnd : Matcher :=
  choice (char '\n') (choice (seq (char '\r') (char '\n')) (char '\r'))

/-- What separates fields. -/
def blank : Matcher := choice (char ' ') (char '\t')

/-- A field goes on up to the next blank or line end. -/
def field : Matcher :=
  node .field (plus (seq (refuse (choice blank lineEnd)) any))

/-- A line of fields, possibly of none. -/
def fields : Matcher :=
  node .fields (seq (star blank) (star (seq field (star blank))))

/-- A line whose very first character is the comment mark. -/
def comment : Matcher :=
  node .comment (seq (char '#') (star (seq (refuse lineEnd) any)))

def line : Matcher := node .line (choice comment fields)

/-- A whole table: lines up to the end of the text. -/
def table : Matcher :=
  node .table (seq line (seq (star (seq lineEnd line)) finish))

end Grammar

/-- The nodes that a grammar expression leaves when it is applied to the start of a text. -/
def nodesAtStart (rule : Matcher) (text : String) : Option (List Node) :=
  (rule 0 text.toList).map Match.nodes

end Table
end BinaryTape
