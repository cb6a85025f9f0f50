/-
# `Toml.Value` — values, tables and how a table came to be

Whether a table may be extended depends on how it came to be: an inline
table is closed, one under its own header is not opened again, and one
that only lies on the way to another may still get its header.
-/

namespace PhaseWire.Toml

/-- How a table came to be. -/
inductive Origin
  /-- Written out as a value. -/
  | inline
  /-- Under a header of its own. -/
  | header
  /-- On the way to the table of another header. -/
  | implied
  /-- On the way to a dotted key. -/
  | dotted
  deriving DecidableEq, Repr

namespace Origin

/-- Whether the table has no definition of its own yet. -/
def isImplicit : Origin → Bool
  | inline => false
  | header => false
  | implied => true
  | dotted => true

end Origin

/-- A value.  Numbers with a fraction and dates keep their text. -/
inductive Value
  | text (value : String)
  | integer (value : Int)
  | float (text : String)
  | boolean (value : Bool)
  | date (text : String)
  | array (items : List Value)
  | table (origin : Origin) (entries : List (String × Value))
  /-- The tables of one repeated header. -/
  | tables (items : List (List (String × Value)))
  deriving Repr

/-- The entries of a table, in order. -/
abbrev Entries := List (String × Value)

namespace Entries

def get? (entries : Entries) (key : String) : Option Value :=
  List.lookup key entries

def put (entries : Entries) (key : String) (value : Value) : Entries :=
  if (entries.get? key).isSome then
    entries.map fun (other, old) => if other = key then (other, value) else (other, old)
  else entries ++ [(key, value)]

/-- Takes the value under a key out. -/
def erase (entries : Entries) (key : String) : Entries :=
  entries.filter (·.1 ≠ key)

end Entries
end PhaseWire.Toml
