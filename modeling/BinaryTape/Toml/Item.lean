namespace BinaryTape
namespace Toml

/-!
The content of a TOML document.

Numbers with a fraction and points in time are recognised and checked, but their
values are of no use here and are not kept.
-/

/-- How a table came into being, which decides what may be added to it. -/
inductive TableKind where
  /-- Defined by a header of its own, or the document itself. -/
  | defined
  /-- Only named on the way to another table by a header. -/
  | implied
  /-- Only named on the way to a value by a dotted key. -/
  | dotted
  /-- Written in braces, and complete. -/
  | inline
  deriving DecidableEq, Repr

/-- A value, a table or an array of tables. -/
inductive Item where
  | text (value : String)
  | integer (value : Int)
  | float
  | boolean (value : Bool)
  | moment
  | array (items : List Item)
  | table (kind : TableKind) (fields : List (String × Item))
  | tables (elements : List (List (String × Item)))

abbrev Fields := List (String × Item)

/-- Put another item under a key that is there. -/
def Fields.replace (fields : Fields) (key : String) (item : Item) : Fields :=
  fields.map (fun field => if field.1 == key then (key, item) else field)

/-- Add an item under a key that must not be there yet. -/
def Fields.add (fields : Fields) (key : String) (item : Item) : Option Fields :=
  if (fields.lookup key).isSome then none else some (fields ++ [(key, item)])

end Toml
end BinaryTape
