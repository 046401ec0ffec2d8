import FormPress.Json.Basic
/-!
# TOML values and tables

A table grows while its text is read, and how it came to be decides what may still be put into it:
a table with a header of its own is defined once, one that dotted keys made is extended by dotted
keys alone, and one written inline is closed. Headers may add tables to any table but a closed one.
-/
namespace FormPress

/-- How a table came to be. -/
inductive Toml.Origin
  /-- It has a header of its own. -/
  | header
  /-- It stands on the way to the table of a header. -/
  | implied
  /-- It stands on the way to the value of a dotted key. -/
  | dotted
  /-- It is written between braces. -/
  | inline
  deriving DecidableEq

inductive Toml
  | text (s : String)
  /-- A boolean or a number, as it was written. -/
  | scalar (literal : String)
  /-- A date, a time or both, in normal form. -/
  | moment (normal : String)
  | array (items : List Toml)
  | table (origin : Toml.Origin) (fields : List (String × Toml))

namespace Toml

abbrev Fields := List (String × Toml)

/-- Changes the field of a name, or makes one where there is none. -/
def alter (name : String) (change : Option Toml → Option Toml) : Fields → Option Fields
  | [] => do return [(name, ← change none)]
  | (k, v) :: rest =>
    if k = name then do return (k, ← change (some v)) :: rest
    else do return (k, v) :: (← alter name change rest)

/-- Changes the fields of the table that stands under a name: a table that dotted keys made, or a new
one. -/
def inDotted (change : Fields → Option Fields) : Option Toml → Option Toml
  | none => do return table .dotted (← change [])
  | some (table .dotted fields) => do return table .dotted (← change fields)
  | some _ => none

/-- Gives a dotted key its value; no key has two. -/
def assign (value : Toml) : List String → Fields → Option Fields
  | [], _ => none
  | [name], fields =>
    alter name (fun | none => some value | some _ => none) fields
  | name :: path, fields => alter name (inDotted (assign value path)) fields

/-- Changes the fields of any table that is still open, or of a new one on the way to a header's. -/
def onTheWay (change : Fields → Option Fields) : Option Toml → Option Toml
  | none => do return table .implied (← change [])
  | some (table .inline _) => none
  | some (table origin fields) => do return table origin (← change fields)
  | some _ => none

/-- Makes the table of a header, which may be there already only as one that others implied. -/
def define : Option Toml → Option Toml
  | none => some (table .header [])
  | some (table .implied fields) => some (table .header fields)
  | some _ => none

/-- Changes what stands at a path of names. -/
def alterAt (change : Option Toml → Option Toml) : List String → Fields → Option Fields
  | [], _ => none
  | [name], fields => alter name change fields
  | name :: path, fields => alter name (onTheWay (alterAt change path)) fields

/-- Assigns a key in the table of the header before it, in the root if there was none. -/
def assignUnder (header path : List String) (value : Toml) (root : Fields) : Option Fields :=
  if header.isEmpty then assign value path root
  else alterAt (onTheWay (assign value path)) header root

/-- The name under which a date or a time stands where a table is expected. -/
def momentName : String := "$__toml_private_datetime"

mutual

/-- The value as JSON. A boolean or a number becomes a literal that stands for nothing else, a date
or a time an object of one field. -/
def toJson : Toml → Json
  | text s => .str s
  | scalar literal => .real literal
  | moment normal => .obj [(momentName, .str normal)]
  | array items => .arr (itemsJson items)
  | table _ fields => .obj (fieldsJson fields)

def itemsJson : List Toml → List Json
  | [] => []
  | t :: ts => t.toJson :: itemsJson ts

def fieldsJson : List (String × Toml) → List (String × Json)
  | [] => []
  | (name, t) :: rest => (name, t.toJson) :: fieldsJson rest

end

end Toml

end FormPress
